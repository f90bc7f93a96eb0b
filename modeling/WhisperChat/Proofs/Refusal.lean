import WhisperChat.Proofs.Blank
import WhisperChat.Proofs.Commit
import WhisperChat.Proofs.Reference

/-!
# Why a send is refused

The checks of a send have an order, and a request may violate several of them.  What is said of it
is then what the first violated check says (`Send.Refuses`), whatever is wrong besides.  In a
reachable state in which an identifier is left nothing else stands in the way of a send: a request
that violates no check is sent, so that the store has no part in any refusal.
-/

namespace WhisperChat

open Work

/-! ## First and least -/

section First

variable {α : Type} {p : α → Prop} {l : List α} {a b : α}

/-- The first of a list that has a property. -/
def IsFirst (p : α → Prop) (l : List α) (a : α) : Prop :=
  ∃ before after, l = before ++ a :: after ∧ (∀ b ∈ before, ¬ p b) ∧ p a

theorem not_isFirst_nil : ¬ IsFirst p [] a := by
  rintro ⟨before, after, h, -⟩
  simp at h

theorem isFirst_cons_iff : IsFirst p (b :: l) a ↔ p b ∧ a = b ∨ ¬ p b ∧ IsFirst p l a := by
  constructor
  · rintro ⟨before, after, h, hbefore, ha⟩
    cases before with
    | nil =>
      obtain ⟨rfl, -⟩ := List.cons.inj h
      exact .inl ⟨ha, rfl⟩
    | cons c before =>
      obtain ⟨rfl, hrest⟩ := List.cons.inj h
      rw [List.forall_mem_cons] at hbefore
      exact .inr ⟨hbefore.1, before, after, hrest, hbefore.2, ha⟩
  · rintro (⟨hb, rfl⟩ | ⟨hb, before, after, rfl, hbefore, ha⟩)
    · exact ⟨[], l, rfl, by simp, hb⟩
    · exact ⟨b :: before, after, rfl, List.forall_mem_cons.2 ⟨hb, hbefore⟩, ha⟩

theorem IsFirst.unique (h : IsFirst p l a) (h' : IsFirst p l b) : a = b := by
  induction l with
  | nil => exact absurd h not_isFirst_nil
  | cons c l ih =>
    rw [isFirst_cons_iff] at h h'
    rcases h with ⟨hc, rfl⟩ | ⟨hc, h⟩
    · rcases h' with ⟨-, rfl⟩ | ⟨hnot, -⟩
      · rfl
      · exact absurd hc hnot
    · rcases h' with ⟨hyes, -⟩ | ⟨-, h'⟩
      · exact absurd hyes hc
      · exact ih h h'

theorem exists_isFirst_iff : (∃ a, IsFirst p l a) ↔ ∃ a ∈ l, p a := by
  induction l with
  | nil => simp [not_isFirst_nil]
  | cons b l ih =>
    simp only [isFirst_cons_iff, List.exists_mem_cons_iff, ← ih]
    by_cases hb : p b
    · simp [hb]
    · simp [hb]

/-- The least identifier of a list that has a property. -/
structure IsLeastOf {kind : IdentKind} (p : Ident kind → Prop) (ids : List (Ident kind))
    (id : Ident kind) : Prop where
  mem : id ∈ ids
  holds : p id
  le : ∀ other ∈ ids, p other → id ≤ other

variable {kind : IdentKind} {q : Ident kind → Prop} {ids : List (Ident kind)} {id : Ident kind}

theorem IsLeastOf.unique {other : Ident kind} (h : IsLeastOf q ids id)
    (h' : IsLeastOf q ids other) : id = other :=
  Ident.ext (Int.le_antisymm (h.le other h'.mem h'.holds) (h'.le id h.mem h.holds))

/-- In ascending order the first is the least. -/
theorem isFirst_ofList_iff :
    IsFirst q (IdentSet.ofList ids).toList id ↔ IsLeastOf q ids id := by
  have hmem : ∀ a, a ∈ (IdentSet.ofList ids).toList ↔ a ∈ ids := by
    intro a
    rw [← IdentSet.mem_def, IdentSet.mem_ofList]
  have hleast : ∀ a, IsFirst q (IdentSet.ofList ids).toList a → IsLeastOf q ids a := by
    rintro a ⟨before, after, hsplit, hbefore, ha⟩
    have hascending := (IdentSet.ofList ids).ascending
    rw [hsplit, List.pairwise_append, List.pairwise_cons] at hascending
    simp only [hsplit] at hmem
    refine ⟨(hmem a).1 (by simp), ha, ?_⟩
    intro other hother hq
    rcases List.mem_append.1 ((hmem other).2 hother) with hin | hin
    · exact absurd hq (hbefore other hin)
    · rcases List.mem_cons.1 hin with rfl | hin
      · exact Int.le_refl _
      · exact Int.le_of_lt (hascending.2.1.1 other hin)
  constructor
  · exact hleast id
  · intro h
    obtain ⟨first, hfirst⟩ := exists_isFirst_iff.2 ⟨id, (hmem id).2 h.mem, h.holds⟩
    obtain rfl := (hleast first hfirst).unique h
    exact hfirst

end First

namespace Send

/-! ## The checks and what they say -/

inductive Check where
  | sender
  | context
  | namedUsers
  | namedGroups
  | content
  | topic
  | channel
  | subscription
  | recipients
  | recipientUsers
  deriving DecidableEq

/-- The order in which the checks count. -/
def Check.order : List Check :=
  [sender, context, namedUsers, namedGroups, content, topic, channel, subscription, recipients,
    recipientUsers]

theorem Check.mem_order (check : Check) : check ∈ order := by
  cases check <;> decide

/-- The request violates the check, which says so by the given error. -/
inductive Violates (db : Database) (sender : UserId) (request : SendRequest) :
    Check → WhisperError → Prop
  | sender (h : db.userExists sender = false) :
      Violates db sender request .sender (.unknownSender sender)
  | context {recipients : List UserId} (htarget : request.target = .direct recipients)
      (h : request.whisperUsers ≠ [] ∨ request.whisperGroups ≠ []) :
      Violates db sender request .context .unsupportedContext
  | namedUsers {user : UserId}
      (h : IsLeastOf (db.userExists · = false) request.whisperUsers user) :
      Violates db sender request .namedUsers (.unknownRecipient (.user user))
  | namedGroups {group : GroupId}
      (h : IsLeastOf (db.groupExists · = false) request.whisperGroups group) :
      Violates db sender request .namedGroups (.unknownRecipient (.group group))
  | noContent (h : Blank.Trims request.content "") :
      Violates db sender request .content (.invalidMessage .noContent)
  | longContent {text : String} (htext : Blank.Trims request.content text)
      (h : 10000 < text.length) :
      Violates db sender request .content (.invalidMessage .longContent)
  | noTopic {channel : ChannelId} {topic : String}
      (htarget : request.target = .channel channel topic) (h : Blank.Trims topic "") :
      Violates db sender request .topic (.invalidMessage .noTopic)
  | longTopic {channel : ChannelId} {topic text : String}
      (htarget : request.target = .channel channel topic) (htext : Blank.Trims topic text)
      (h : 60 < text.length) :
      Violates db sender request .topic (.invalidMessage .longTopic)
  | channel {channel : ChannelId} {topic : String}
      (htarget : request.target = .channel channel topic) (h : db.channelExists channel = false) :
      Violates db sender request .channel (.unknownChannel channel)
  | subscription {channel : ChannelId} {topic : String}
      (htarget : request.target = .channel channel topic)
      (h : db.isSubscribed channel sender = false) :
      Violates db sender request .subscription (.notSubscribed channel)
  | recipients (htarget : request.target = .direct []) :
      Violates db sender request .recipients (.invalidMessage .noRecipient)
  | recipientUsers {recipients : List UserId} {user : UserId}
      (htarget : request.target = .direct recipients)
      (h : IsFirst (db.userExists · = false) recipients user) :
      Violates db sender request .recipientUsers (.unknownRecipient (.user user))

/-- The error is that of the first of the checks that the request violates. -/
def RefusesBy (db : Database) (sender : UserId) (request : SendRequest) (checks : List Check)
    (cause : WhisperError) : Prop :=
  ∃ check, IsFirst (fun c ↦ ∃ e, Violates db sender request c e) checks check ∧
    Violates db sender request check cause

/-- The error is that of the first check of a send that the request violates. -/
def Refuses (db : Database) (sender : UserId) (request : SendRequest) (cause : WhisperError) :
    Prop :=
  RefusesBy db sender request Check.order cause

variable {db db' : Database} {sender : UserId} {request : SendRequest} {cause : WhisperError}
  {e : Failure}

/-- A text that is too long is not too short. -/
theorem not_trims_empty_of_lt {s text : String} {limit : Nat} (htext : Blank.Trims s text)
    (h : limit < text.length) : ¬ Blank.Trims s "" := by
  intro hempty
  rw [← hempty.unique htext] at h
  simp at h

theorem Violates.unique {check : Check} {other : WhisperError}
    (h : Violates db sender request check cause) (h' : Violates db sender request check other) :
    cause = other := by
  cases h with
  | sender => cases h'; rfl
  | context => cases h'; rfl
  | namedUsers h =>
    cases h' with
    | namedUsers h' => rw [h.unique h']
  | namedGroups h =>
    cases h' with
    | namedGroups h' => rw [h.unique h']
  | noContent h =>
    cases h' with
    | noContent => rfl
    | longContent htext hlong => exact absurd h (not_trims_empty_of_lt htext hlong)
  | longContent htext h =>
    cases h' with
    | noContent h' => exact absurd h' (not_trims_empty_of_lt htext h)
    | longContent => rfl
  | noTopic htarget h =>
    cases h' with
    | noTopic => rfl
    | longTopic htarget' htext hlong =>
      cases htarget.symm.trans htarget'
      exact absurd h (not_trims_empty_of_lt htext hlong)
  | longTopic htarget htext h =>
    cases h' with
    | noTopic htarget' h' =>
      cases htarget.symm.trans htarget'
      exact absurd h' (not_trims_empty_of_lt htext h)
    | longTopic => rfl
  | channel htarget =>
    cases h' with
    | channel htarget' =>
      cases htarget.symm.trans htarget'
      rfl
  | subscription htarget =>
    cases h' with
    | subscription htarget' =>
      cases htarget.symm.trans htarget'
      rfl
  | recipients => cases h'; rfl
  | recipientUsers htarget h =>
    cases h' with
    | recipientUsers htarget' h' =>
      cases htarget.symm.trans htarget'
      rw [h.unique h']

/-- What is sent to a channel violates no check that is about recipients. -/
theorem not_violates_of_channel {channel : ChannelId} {topic : String}
    (htarget : request.target = .channel channel topic) {check : Check}
    (hcheck : check ∈ [.context, .recipients, .recipientUsers]) (e : WhisperError) :
    ¬ Violates db sender request check e := by
  intro h
  cases h with
  | context hother => cases htarget.symm.trans hother
  | recipients hother => cases htarget.symm.trans hother
  | recipientUsers hother => cases htarget.symm.trans hother
  | _ => simp at hcheck

/-- What is sent to recipients violates no check that is about a channel. -/
theorem not_violates_of_direct {recipients : List UserId}
    (htarget : request.target = .direct recipients) {check : Check}
    (hcheck : check ∈ [.topic, .channel, .subscription]) (e : WhisperError) :
    ¬ Violates db sender request check e := by
  intro h
  cases h with
  | noTopic hother => cases htarget.symm.trans hother
  | longTopic hother => cases htarget.symm.trans hother
  | channel hother => cases htarget.symm.trans hother
  | subscription hother => cases htarget.symm.trans hother
  | _ => simp at hcheck

theorem exists_refusesBy_iff {checks : List Check} :
    (∃ e, RefusesBy db sender request checks e) ↔
      ∃ c ∈ checks, ∃ e, Violates db sender request c e := by
  rw [← exists_isFirst_iff]
  constructor
  · rintro ⟨_, check, hfirst, -⟩
    exact ⟨check, hfirst⟩
  · rintro ⟨check, hfirst⟩
    obtain ⟨-, -, -, -, e, hviolates⟩ := id hfirst
    exact ⟨e, check, hfirst, hviolates⟩

theorem not_refusesBy_nil : ¬ RefusesBy db sender request [] cause := by
  rintro ⟨check, hfirst, -⟩
  exact not_isFirst_nil hfirst

theorem refusesBy_cons_iff {check : Check} {checks : List Check} :
    RefusesBy db sender request (check :: checks) cause ↔
      Violates db sender request check cause ∨
        (¬ ∃ e, Violates db sender request check e) ∧
          RefusesBy db sender request checks cause := by
  constructor
  · rintro ⟨first, hfirst, hviolates⟩
    rcases isFirst_cons_iff.1 hfirst with ⟨-, rfl⟩ | ⟨hpasses, hrest⟩
    · exact .inl hviolates
    · exact .inr ⟨hpasses, first, hrest, hviolates⟩
  · rintro (hviolates | ⟨hpasses, first, hfirst, hviolates⟩)
    · exact ⟨check, isFirst_cons_iff.2 (.inl ⟨⟨cause, hviolates⟩, rfl⟩), hviolates⟩
    · exact ⟨first, isFirst_cons_iff.2 (.inr ⟨hpasses, hfirst⟩), hviolates⟩

theorem refusesBy_append_iff {checks later : List Check} :
    RefusesBy db sender request (checks ++ later) cause ↔
      RefusesBy db sender request checks cause ∨
        (¬ ∃ e, RefusesBy db sender request checks e) ∧
          RefusesBy db sender request later cause := by
  induction checks with
  | nil => simp [not_refusesBy_nil]
  | cons check checks ih =>
    rw [List.cons_append, refusesBy_cons_iff, ih, refusesBy_cons_iff]
    simp only [refusesBy_cons_iff, exists_or, exists_and_left]
    tauto

/-! ## How the checks fail -/

theorem fails_checkUser_iff {user : UserId} :
    (checkUser user cause).Fails [] db e ↔ db.userExists user = false ∧ e = .error cause := by
  rw [checkUser, fails_ask_bind_iff (c := .resolveUser user) rfl]
  cases hexists : db.userExists user <;> simp

theorem fails_checkRecipients_iff {users : List UserId} :
    (checkRecipients users).Fails [] db e ↔
      ∃ user, IsFirst (db.userExists · = false) users user ∧
        e = .error (.unknownRecipient (.user user)) := by
  induction users with
  | nil => simp [checkRecipients, not_isFirst_nil]
  | cons user users ih =>
    simp only [checkRecipients, fails_bind_iff, fails_checkUser_iff, yields_checkUser_iff,
      isFirst_cons_iff]
    cases hexists : db.userExists user with
    | false => simp
    | true => simpa using ih

theorem fails_checkGroups_iff {groups : List GroupId} :
    (checkGroups groups).Fails [] db e ↔
      ∃ group, IsFirst (db.groupExists · = false) groups group ∧
        e = .error (.unknownRecipient (.group group)) := by
  induction groups with
  | nil => simp [checkGroups, not_isFirst_nil]
  | cons group groups ih =>
    rw [checkGroups, fails_ask_bind_iff (c := .resolveGroup group) rfl]
    simp only [isFirst_cons_iff]
    cases hexists : db.groupExists group with
    | false => simp [fails_bind_iff]
    | true => simpa using ih

theorem fails_trimmed_iff {s : String} {limit : Nat} {tooShort tooLong : MessageFault} :
    (trimmed s limit tooShort tooLong).Fails [] db e ↔
      Blank.Trims s "" ∧ e = .error (.invalidMessage tooShort) ∨
        (∃ text, Blank.Trims s text ∧ limit < text.length) ∧
          e = .error (.invalidMessage tooLong) := by
  unfold trimmed
  simp only [Blank.trims_iff, exists_eq_left, String.isEmpty_iff, eq_comm (a := "")]
  split
  case isTrue hempty => simp [hempty]
  case isFalse hnonempty =>
    split
    case isTrue hlong => simp [hnonempty, hlong]
    case isFalse hshort => simp [hnonempty, hshort]

theorem fails_checkChannel_iff {channel : ChannelId} :
    (checkChannel channel sender).Fails [] db e ↔
      db.channelExists channel = false ∧ e = .error (.unknownChannel channel) ∨
        db.channelExists channel = true ∧ db.isSubscribed channel sender = false ∧
          e = .error (.notSubscribed channel) := by
  rw [checkChannel, fails_ask_bind_iff (c := .channelExists channel) rfl]
  cases hexists : db.channelExists channel with
  | false => simp [fails_bind_iff]
  | true =>
    simp only [Bool.not_true, Bool.false_eq_true, if_false]
    rw [fails_ask_bind_iff (c := .isChannelSubscriber channel sender) rfl]
    cases hsubscribed : db.isSubscribed channel sender with
    | false => simp
    | true => simp

/-! ## Works that check -/

/-- The work fails just when the request violates one of the checks, as the first of them says, and
otherwise it changes nothing and has the result `a`. -/
structure Guards {α : Type} (db : Database) (sender : UserId) (request : SendRequest)
    (checks : List Check) (w : Work α) (a : α) : Prop where
  fails : ∀ e, w.Fails [] db e ↔
    ∃ cause, e = .error cause ∧ RefusesBy db sender request checks cause
  yields : ∀ b db', w.Yields [] db b db' → b = a ∧ db' = db

namespace Guards

variable {α β : Type} {checks later : List Check} {check : Check} {w : Work α} {f : α → Work β}
  {a : α} {b : β}

/-- A work that checks ends well unless the request violates one of its checks. -/
theorem yields_iff (h : Guards db sender request checks w a) :
    w.Yields [] db a db ↔ ¬ ∃ e, RefusesBy db sender request checks e := by
  constructor
  · rintro hyields ⟨cause, hrefuses⟩
    exact hyields.not_fails (.error cause) ((h.fails _).2 ⟨cause, rfl, hrefuses⟩)
  · intro hpasses
    cases hanswer : (w.run [] db).answer with
    | error e =>
      obtain ⟨cause, -, hrefuses⟩ := (h.fails e).1 hanswer
      exact absurd ⟨cause, hrefuses⟩ hpasses
    | ok b =>
      obtain ⟨rfl, hdb⟩ := h.yields b _ ⟨hanswer, rfl⟩
      exact ⟨hanswer, hdb⟩

/-- A work that cannot fail checks nothing. -/
theorem of_yields (h : w.Yields [] db a db) : Guards db sender request [] w a := by
  refine ⟨?_, ?_⟩
  · intro e
    simp [h.not_fails e, not_refusesBy_nil]
  · intro b db' hyields
    obtain ⟨rfl, rfl⟩ := hyields.unique h
    exact ⟨rfl, rfl⟩

theorem pure (a : α) : Guards db sender request [] (Pure.pure a) a :=
  of_yields (yields_pure_iff.2 ⟨rfl, rfl⟩)

theorem throw (h : Violates db sender request check cause) :
    Guards db sender request (check :: checks) (Work.throw cause) a := by
  refine ⟨?_, fun b db' hyields ↦ absurd hyields not_yields_throw⟩
  intro e
  rw [fails_throw_iff]
  constructor
  · rintro rfl
    exact ⟨cause, rfl, refusesBy_cons_iff.2 (.inl h)⟩
  · rintro ⟨other, rfl, hrefuses⟩
    rcases refusesBy_cons_iff.1 hrefuses with hother | ⟨hpasses, -⟩
    · rw [hother.unique h]
    · exact absurd ⟨cause, h⟩ hpasses

/-- A work that fails as one check says. -/
theorem single (hfails : ∀ e, w.Fails [] db e ↔
      ∃ cause, e = .error cause ∧ Violates db sender request check cause)
    (hyields : ∀ b db', w.Yields [] db b db' → b = a ∧ db' = db) :
    Guards db sender request [check] w a := by
  refine ⟨?_, hyields⟩
  simpa only [refusesBy_cons_iff, not_refusesBy_nil, and_false, or_false] using hfails

/-- A check that cannot be violated need not be made. -/
theorem skip (hpasses : ∀ e, ¬ Violates db sender request check e)
    (h : Guards db sender request checks w a) :
    Guards db sender request (check :: checks) w a := by
  refine ⟨?_, h.yields⟩
  intro e
  rw [h.fails]
  simp [refusesBy_cons_iff, hpasses]

theorem bind (hw : Guards db sender request checks w a)
    (hf : Guards db sender request later (f a) b) :
    Guards db sender request (checks ++ later) (w >>= f) b := by
  refine ⟨?_, ?_⟩
  · intro e
    rw [fails_bind_iff, hw.fails]
    simp only [refusesBy_append_iff, ← hw.yields_iff]
    constructor
    · rintro (⟨cause, rfl, hrefuses⟩ | ⟨a', db₁, hyields, hfails⟩)
      · exact ⟨cause, rfl, .inl hrefuses⟩
      · obtain ⟨rfl, rfl⟩ := hw.yields _ _ hyields
        obtain ⟨cause, rfl, hrefuses⟩ := (hf.fails e).1 hfails
        exact ⟨cause, rfl, .inr ⟨hyields, hrefuses⟩⟩
    · rintro ⟨cause, rfl, hrefuses | ⟨hyields, hrefuses⟩⟩
      · exact .inl ⟨cause, rfl, hrefuses⟩
      · exact .inr ⟨a, db, hyields, (hf.fails _).2 ⟨cause, rfl, hrefuses⟩⟩
  · intro b' db' h
    obtain ⟨a', db₁, hfirst, hsecond⟩ := yields_bind_iff.1 h
    obtain ⟨rfl, rfl⟩ := hw.yields _ _ hfirst
    exact hf.yields _ _ hsecond

end Guards

/-! ## The checks of a send -/

theorem guards_sender :
    Guards db sender request [.sender] (checkUser sender (.unknownSender sender)) () := by
  apply Guards.single
  · intro e
    rw [fails_checkUser_iff]
    constructor
    · rintro ⟨hunknown, rfl⟩
      exact ⟨_, rfl, .sender hunknown⟩
    · rintro ⟨_, rfl, ⟨hunknown⟩⟩
      exact ⟨hunknown, rfl⟩
  · intro _ db' h
    exact ⟨rfl, (yields_checkUser_iff.1 h).2.symm⟩

theorem guards_namedUsers :
    Guards db sender request [.namedUsers]
      (checkRecipients (IdentSet.ofList request.whisperUsers).toList) () := by
  apply Guards.single
  · intro e
    simp only [fails_checkRecipients_iff, isFirst_ofList_iff]
    constructor
    · rintro ⟨user, hleast, rfl⟩
      exact ⟨_, rfl, .namedUsers hleast⟩
    · rintro ⟨_, rfl, hviolates⟩
      cases hviolates with
      | namedUsers hleast => exact ⟨_, hleast, rfl⟩
  · intro _ db' h
    exact ⟨rfl, (yields_checkRecipients_iff.1 h).2.symm⟩

theorem guards_namedGroups :
    Guards db sender request [.namedGroups]
      (checkGroups (IdentSet.ofList request.whisperGroups).toList) () := by
  apply Guards.single
  · intro e
    simp only [fails_checkGroups_iff, isFirst_ofList_iff]
    constructor
    · rintro ⟨group, hleast, rfl⟩
      exact ⟨_, rfl, .namedGroups hleast⟩
    · rintro ⟨_, rfl, hviolates⟩
      cases hviolates with
      | namedGroups hleast => exact ⟨_, hleast, rfl⟩
  · intro _ db' h
    exact ⟨rfl, (yields_checkGroups_iff.1 h).2.symm⟩

theorem guards_content :
    Guards db sender request [.content]
      (trimmed request.content maxContentLength .noContent .longContent)
      (Blank.trim request.content) := by
  apply Guards.single
  · intro e
    rw [fails_trimmed_iff]
    constructor
    · rintro (⟨hempty, rfl⟩ | ⟨⟨text, htext, hlong⟩, rfl⟩)
      · exact ⟨_, rfl, .noContent hempty⟩
      · exact ⟨_, rfl, .longContent htext hlong⟩
    · rintro ⟨_, rfl, hviolates⟩
      cases hviolates with
      | noContent hempty => exact .inl ⟨hempty, rfl⟩
      | longContent htext hlong => exact .inr ⟨⟨_, htext, hlong⟩, rfl⟩
  · intro t db' h
    obtain ⟨rfl, -, rfl⟩ := yields_trimmed_iff.1 h
    exact ⟨rfl, rfl⟩

theorem guards_topic {channel : ChannelId} {topic : String}
    (htarget : request.target = .channel channel topic) :
    Guards db sender request [.topic] (trimmed topic maxTopicLength .noTopic .longTopic)
      (Blank.trim topic) := by
  apply Guards.single
  · intro e
    rw [fails_trimmed_iff]
    constructor
    · rintro (⟨hempty, rfl⟩ | ⟨⟨text, htext, hlong⟩, rfl⟩)
      · exact ⟨_, rfl, .noTopic htarget hempty⟩
      · exact ⟨_, rfl, .longTopic htarget htext hlong⟩
    · rintro ⟨_, rfl, hviolates⟩
      cases hviolates with
      | noTopic hother hempty =>
        cases htarget.symm.trans hother
        exact .inl ⟨hempty, rfl⟩
      | longTopic hother htext hlong =>
        cases htarget.symm.trans hother
        exact .inr ⟨⟨_, htext, hlong⟩, rfl⟩
  · intro t db' h
    obtain ⟨rfl, -, rfl⟩ := yields_trimmed_iff.1 h
    exact ⟨rfl, rfl⟩

theorem guards_checkChannel {channel : ChannelId} {topic : String}
    (htarget : request.target = .channel channel topic) :
    Guards db sender request [.channel, .subscription] (checkChannel channel sender) () := by
  refine ⟨?_, ?_⟩
  · intro e
    simp only [fails_checkChannel_iff, refusesBy_cons_iff, not_refusesBy_nil, and_false, or_false]
    constructor
    · rintro (⟨hunknown, rfl⟩ | ⟨hthere, hno, rfl⟩)
      · exact ⟨_, rfl, .inl (.channel htarget hunknown)⟩
      · refine ⟨_, rfl, .inr ⟨?_, .subscription htarget hno⟩⟩
        rintro ⟨_, hviolates⟩
        cases hviolates with
        | channel hother hunknown =>
          cases htarget.symm.trans hother
          simp [hthere] at hunknown
    · rintro ⟨_, rfl, hviolates | ⟨hpasses, hviolates⟩⟩
      · cases hviolates with
        | channel hother hunknown =>
          cases htarget.symm.trans hother
          exact .inl ⟨hunknown, rfl⟩
      · cases hviolates with
        | subscription hother hno =>
          cases htarget.symm.trans hother
          cases hexists : db.channelExists channel with
          | false => exact absurd ⟨_, .channel htarget hexists⟩ hpasses
          | true => exact .inr ⟨rfl, hno, rfl⟩
  · intro _ db' h
    exact ⟨rfl, (yields_checkChannel_iff.1 h).2.2.symm⟩

theorem guards_recipientUsers {recipients : List UserId}
    (htarget : request.target = .direct recipients) :
    Guards db sender request [.recipientUsers] (checkRecipients recipients) () := by
  apply Guards.single
  · intro e
    rw [fails_checkRecipients_iff]
    constructor
    · rintro ⟨user, hfirst, rfl⟩
      exact ⟨_, rfl, .recipientUsers htarget hfirst⟩
    · rintro ⟨_, rfl, hviolates⟩
      cases hviolates with
      | recipientUsers hother hfirst =>
        cases htarget.symm.trans hother
        exact ⟨_, hfirst, rfl⟩
  · intro _ db' h
    exact ⟨rfl, (yields_checkRecipients_iff.1 h).2.symm⟩

theorem descriptor?_eq_none_iff :
    request.descriptor? = none ↔ request.whisperUsers = [] ∧ request.whisperGroups = [] := by
  simp [SendRequest.descriptor?, Descriptor.ofLists?]

theorem descriptor?_eq_some_iff {d : Descriptor} :
    request.descriptor? = some d ↔
      (request.whisperUsers ≠ [] ∨ request.whisperGroups ≠ []) ∧
        d = ⟨.ofList request.whisperUsers, .ofList request.whisperGroups⟩ := by
  simp only [SendRequest.descriptor?, Descriptor.ofLists?]
  split
  case isTrue hempty => simp_all
  case isFalse hsome =>
    rw [Option.some.injEq, eq_comm, iff_and_self]
    intro _
    simp only [Bool.and_eq_true, List.isEmpty_iff] at hsome
    tauto

theorem guards_buildDescriptor :
    Guards db sender request [.context, .namedUsers, .namedGroups]
      (buildDescriptor request.target request.whisperUsers request.whisperGroups)
      request.descriptor? := by
  unfold buildDescriptor
  split
  case h_1 hnone =>
    obtain ⟨husers, hgroups⟩ := descriptor?_eq_none_iff.1 hnone
    rw [SendRequest.descriptor?, hnone]
    refine .skip ?_ (.skip ?_ (.skip ?_ (.pure none)))
    · intro e hviolates
      cases hviolates with
      | context _ h => simp [husers, hgroups] at h
    · intro e hviolates
      cases hviolates with
      | namedUsers hleast => simpa [husers] using hleast.mem
    · intro e hviolates
      cases hviolates with
      | namedGroups hleast => simpa [hgroups] using hleast.mem
  case h_2 recipients d htarget hsome =>
    exact .throw (.context htarget (descriptor?_eq_some_iff.1 hsome).1)
  case h_3 channel topic d htarget hsome =>
    rw [SendRequest.descriptor?, hsome]
    obtain ⟨-, rfl⟩ := descriptor?_eq_some_iff.1 hsome
    exact .skip (not_violates_of_channel htarget (by simp))
      (guards_namedUsers.bind (guards_namedGroups.bind (.pure _)))

theorem guards_place :
    Guards db sender request [.topic, .channel, .subscription, .recipients, .recipientUsers]
      (place request.target sender) request.target.place? := by
  unfold place
  split
  case h_1 channel topic htarget =>
    rw [htarget, Target.place?]
    have hrest : Guards db sender request [.recipients, .recipientUsers]
        (Pure.pure (some (channel, Blank.trim topic))) (some (channel, Blank.trim topic)) :=
      .skip (not_violates_of_channel htarget (by simp))
        (.skip (not_violates_of_channel htarget (by simp)) (.pure _))
    exact (guards_topic htarget).bind ((guards_checkChannel htarget).bind hrest)
  case h_2 recipients htarget =>
    rw [htarget, Target.place?]
    refine .skip (not_violates_of_direct htarget (by simp))
      (.skip (not_violates_of_direct htarget (by simp))
        (.skip (not_violates_of_direct htarget (by simp)) ?_))
    cases recipients with
    | nil => exact Guards.throw (.recipients htarget)
    | cons user users =>
      refine .skip ?_ ((guards_recipientUsers htarget).bind (.pure none))
      intro e hviolates
      cases hviolates with
      | recipients hother => cases htarget.symm.trans hother

/-- Before anything is written, all the checks of a send are made in their order. -/
theorem guards_prepare (now : ClockReading) :
    Guards db sender request Check.order (prepare now sender request)
      (request.draft now sender,
        db.audienceOf sender request.target request.descriptor?) := by
  have haudience : Guards db sender request []
      (computeAudience sender request.target request.descriptor?)
      (db.audienceOf sender request.target request.descriptor?) :=
    .of_yields (yields_computeAudience_iff.2 ⟨rfl, rfl⟩)
  exact guards_sender.bind (guards_buildDescriptor.bind (guards_content.bind
    (guards_place.bind (haudience.bind (.pure _)))))

/-- All checks pass just when none is violated. -/
theorem admits_iff :
    db.Admits sender request ↔ ∀ check e, ¬ Violates db sender request check e := by
  have hguards : Guards db sender request Check.order (prepare .epoch sender request) _ :=
    guards_prepare .epoch
  have hyields := hguards.yields_iff
  simp only [yields_prepare_iff, and_true] at hyields
  rw [hyields, exists_refusesBy_iff]
  simp [Check.mem_order]

/-! ## Sends that are not refused -/

/-- The users whom the message is for besides its sender. -/
def IsFor (db : Database) (request : SendRequest) (user : UserId) : Prop :=
  if request.whisperUsers = [] ∧ request.whisperGroups = [] then
    match request.target with
    | .channel channel _ => db.isSubscribed channel user = true
    | .direct recipients => user ∈ recipients
  else
    user ∈ request.whisperUsers ∨
      ∃ group ∈ request.whisperGroups, (group, user) ∈ db.members

/-- What a send has to make of a request that it does not refuse. -/
structure Answers (db : Database) (now : ClockReading) (sender : UserId) (request : SendRequest)
    (sent : Sent) : Prop where
  sentBy : sent.message.sender = sender
  channel : ∀ channel topic, request.target = .channel channel topic →
    sent.message.channel = some channel ∧
      ∃ text, Blank.Trims topic text ∧ sent.message.topic = some text
  direct : ∀ recipients, request.target = .direct recipients →
    sent.message.channel = none ∧ sent.message.topic = none
  content : Blank.Trims request.content sent.message.content
  sentAt : sent.message.sentAt = now.toInstant
  ordinary : sent.message.whisper = none ↔
    request.whisperUsers = [] ∧ request.whisperGroups = []
  named : ∀ d, sent.message.whisper = some d →
    (∀ user, user ∈ d.users ↔ user ∈ request.whisperUsers) ∧
      ∀ group, group ∈ d.groups ↔ group ∈ request.whisperGroups
  audience : ∀ user, user ∈ sent.audience ↔ user = sender ∨ IsFor db request user
  new : ∀ row ∈ db.messages.rows, row.id < sent.message.id

theorem mem_audienceOf_iff {user : UserId} :
    user ∈ db.audienceOf sender request.target request.descriptor? ↔
      user = sender ∨ IsFor db request user := by
  unfold IsFor
  cases hd : request.descriptor? with
  | none =>
    rw [if_pos (descriptor?_eq_none_iff.1 hd)]
    cases request.target with
    | channel channel topic => exact Database.mem_audienceOf_channel
    | direct recipients => exact Database.mem_audienceOf_direct
  | some d =>
    obtain ⟨hnamed, rfl⟩ := descriptor?_eq_some_iff.1 hd
    rw [if_neg (by tauto), Database.mem_audienceOf_whisper]
    simp only [IdentSet.mem_ofList]

end Send

open Send

variable {db db' : Database} {now : ClockReading} {sender : UserId} {request : SendRequest}
  {sent : Sent}

theorem Database.Sends.answers (h : db.Sends now sender request sent db') :
    Answers db now sender request sent := by
  have hdraft : ∀ {α : Type} (f : Draft → α),
      f sent.message.toDraft = f (request.draft now sender) :=
    fun f ↦ congrArg f h.draft
  have hchannel := hdraft Draft.channel
  have htopic := hdraft Draft.topic
  have hwhisper : sent.message.whisper = request.descriptor? := hdraft Draft.whisper
  refine ⟨hdraft Draft.sender, ?_, ?_, Blank.trims_iff.2 (hdraft Draft.content),
    hdraft Draft.sentAt, ?_, ?_, ?_,
    (MessageTable.lt_nextId h.nextId).2⟩
  · intro channel topic htarget
    simp only [SendRequest.draft, htarget, Target.place?] at hchannel htopic
    exact ⟨hchannel, _, Blank.trims_trim topic, htopic⟩
  · intro recipients htarget
    simp only [SendRequest.draft, htarget, Target.place?] at hchannel htopic
    exact ⟨hchannel, htopic⟩
  · rw [hwhisper, descriptor?_eq_none_iff]
  · intro d hd
    obtain ⟨-, rfl⟩ := descriptor?_eq_some_iff.1 (hwhisper.symm.trans hd)
    exact ⟨fun user ↦ IdentSet.mem_ofList, fun group ↦ IdentSet.mem_ofList⟩
  · intro user
    rw [h.audience, mem_audienceOf_iff]

/-- Whoever a message is for is there, if the request is not refused. -/
theorem Database.IsReferential.userExists_of_audience (h : db.IsReferential)
    (hadmits : db.Admits sender request) {user : UserId}
    (huser : user ∈ db.audienceOf sender request.target request.descriptor?) :
    db.userExists user = true := by
  cases hd : request.descriptor? with
  | some d =>
    rw [hd, Database.mem_audienceOf_whisper] at huser
    rcases huser with rfl | hnamed | ⟨group, -, hmember⟩
    · exact hadmits.sender_exists
    · exact (hadmits.named_exist d hd).2.1 user hnamed
    · exact (h.member group user hmember).2
  | none =>
    have htarget := hadmits.target_admits
    cases ht : request.target with
    | channel channel topic =>
      rw [hd, ht, Database.mem_audienceOf_channel] at huser
      rcases huser with rfl | hsubscribed
      · exact hadmits.sender_exists
      · exact (h.subscription channel user (by simpa [Database.isSubscribed] using hsubscribed)).2
    | direct recipients =>
      rw [hd, ht, Database.mem_audienceOf_direct] at huser
      rw [ht] at htarget
      rcases huser with rfl | hrecipient
      · exact hadmits.sender_exists
      · exact htarget.2 user hrecipient

/-- The channel that a message is kept with is there, if the request is not refused. -/
theorem Database.Admits.channelExists (hadmits : db.Admits sender request) {channel : ChannelId}
    (hdraft : (request.draft now sender).channel = some channel) :
    db.channelExists channel = true := by
  have htarget := hadmits.target_admits
  cases ht : request.target with
  | channel there topic =>
    rw [ht] at htarget
    simp only [SendRequest.draft, ht, Target.place?, Option.map_some, Option.some.injEq] at hdraft
    exact hdraft ▸ htarget.2.1
  | direct recipients => simp [SendRequest.draft, ht, Target.place?] at hdraft

/-- While an identifier is left, a request that passes all checks is sent. -/
theorem Database.IsReferential.exists_yields_send (h : db.IsReferential)
    (hrange : ∀ row ∈ db.messages.rows, row.id.val < 0x7fffffffffffffff)
    (hadmits : db.Admits sender request) (now : ClockReading) :
    ∃ sent db', (send now sender request).Yields [] db sent db' := by
  obtain ⟨id, hid⟩ := Database.exists_nextId hrange
  have hchannel : ∀ channel, (request.draft now sender).channel = some channel →
      db.channelExists channel = true := fun _ ↦ hadmits.channelExists
  have hinsert := Database.insertMessage_eq_ok h.closed hid hadmits.sender_exists hchannel
    fun user huser ↦ h.userExists_of_audience hadmits huser
  exact ⟨⟨{ request.draft now sender with id }, _⟩, _, yields_send_iff.2 ⟨hadmits, rfl, hinsert⟩⟩

/-- A send fails just when a check refuses it, and as the first check says that refuses it; the
store never stands in its way.  What is not refused is sent as it was asked for, and the lock, as
long as it is not poisoned, makes no difference. -/
theorem send_refuses_or_answers {s : SharedDatabase} (hreachable : Reachable s)
    (hrange : ∀ row ∈ s.contents.messages.rows, row.id.val < 0x7fffffffffffffff)
    (now : ClockReading) (sender : UserId) (request : SendRequest) :
    let outcome := (send now sender request).run [] s.contents
    (∀ e, outcome.answer = .error e ↔
        ∃ cause, e = .error cause ∧ Refuses s.contents sender request cause) ∧
      (∀ cause, outcome.answer ≠ .error (.error (.store cause))) ∧
      ((∃ sent, outcome.answer = .ok sent) ↔
        ∀ check e, ¬ Violates s.contents sender request check e) ∧
      (∀ sent, outcome.answer = .ok sent → Answers s.contents now sender request sent) ∧
      (s.poisoned = false →
        (s.atomic [] (send now sender request)).answer = outcome.answer) := by
  intro outcome
  have hreferential := hreachable.isReferential
  have hok : (∃ sent, outcome.answer = .ok sent) ↔ s.contents.Admits sender request := by
    constructor
    · rintro ⟨sent, hsent⟩
      exact (yields_send_iff.1 ⟨hsent, rfl⟩).1
    · intro hadmits
      obtain ⟨sent, _, hanswer, -⟩ := hreferential.exists_yields_send hrange hadmits now
      exact ⟨sent, hanswer⟩
  have hfails : ∀ e, outcome.answer = .error e ↔
      ∃ cause, e = .error cause ∧ Refuses s.contents sender request cause := by
    intro e
    change (send now sender request).Fails [] s.contents e ↔
      ∃ cause, e = .error cause ∧ RefusesBy s.contents sender request Check.order cause
    rw [← (guards_prepare now).fails, send_eq, fails_bind_iff, or_iff_left]
    rintro ⟨p, _, hprepare, hinsert⟩
    -- What has passed its checks is sent, so that writing does not fail.
    obtain ⟨sent, hsent⟩ := hok.2 (yields_prepare_iff.1 hprepare).1
    have hfailed : outcome.answer = .error e := by
      change ((send now sender request).run [] s.contents).answer = _
      rw [send_eq, answer_bind_of_yields hprepare]
      exact hinsert
    rw [hsent] at hfailed
    cases hfailed
  refine ⟨hfails, ?_, ?_, ?_, ?_⟩
  · intro cause hstore
    obtain ⟨_, ⟨⟩, check, -, hviolates⟩ := (hfails _).1 hstore
    cases hviolates
  · rw [hok, admits_iff]
  · intro sent hsent
    exact (sends_of_yields ⟨hsent, rfl⟩).answers
  · intro hpoisoned
    simp [SharedDatabase.atomic, SharedDatabase.answer_transact, hpoisoned, outcome]

/-- The sample, once its whisper has been sent. -/
def sentActions : List Action := sampleActions ++ [.send [] .epoch (.small 1) sampleRequest]

/-- The whisper with white space around its topic and its text. -/
def spacedRequest : SendRequest :=
  { sampleRequest with
    target := .channel (.small 1) "\u00A0news\t"
    content := "\u2003psst\u3000\n" }

/-- The whisper without a text, to two users who are not there. -/
def faultyRequest : SendRequest :=
  { sampleRequest with content := "\u2003", whisperUsers := [.small 9, .small 3, .small 7] }

/-- The whisper is sent once more, without the white space around it.  One of white space alone is
refused, and the faulty one is, because of the lesser user. -/
theorem send_refuses_or_answers_sample :
    (∃ sent, ((send .epoch (.small 1) spacedRequest).run []
          (Run.of sentActions).shared.contents).answer = .ok sent ∧
        Answers (Run.of sentActions).shared.contents .epoch (.small 1) spacedRequest sent ∧
        sent.message.content = "psst" ∧ sent.message.topic = some "news") ∧
      Refuses (Run.of sentActions).shared.contents (.small 1)
        { sampleRequest with content := "\u2003" } (.invalidMessage .noContent) ∧
      Refuses (Run.of sentActions).shared.contents (.small 1) faultyRequest
        (.unknownRecipient (.user (.small 7))) := by
  have hreachable := Run.reachable_of sentActions
  have hrange : ∀ row ∈ (Run.of sentActions).shared.contents.messages.rows,
      row.id.val < 0x7fffffffffffffff := by decide +kernel
  obtain ⟨-, -, -, hanswers, -⟩ :=
    send_refuses_or_answers hreachable hrange .epoch (.small 1) spacedRequest
  obtain ⟨hblank, -⟩ := send_refuses_or_answers hreachable hrange .epoch (.small 1)
    { sampleRequest with content := "\u2003" }
  obtain ⟨hfaulty, -⟩ := send_refuses_or_answers hreachable hrange .epoch (.small 1) faultyRequest
  have hsent : ((send .epoch (.small 1) spacedRequest).run []
      (Run.of sentActions).shared.contents).answer.toOption.isSome = true := by decide +kernel
  have hrefusedBlank : ((send .epoch (.small 1) { sampleRequest with content := "\u2003" }).run []
      (Run.of sentActions).shared.contents).answer =
        .error (.error (.invalidMessage .noContent)) := by decide +kernel
  have hrefusedFaulty : ((send .epoch (.small 1) faultyRequest).run []
      (Run.of sentActions).shared.contents).answer =
        .error (.error (.unknownRecipient (.user (.small 7)))) := by decide +kernel
  obtain ⟨sent, hsome⟩ := Option.isSome_iff_exists.1 hsent
  have hanswer := toOption_eq_some_iff.1 hsome
  have hanswers := hanswers sent hanswer
  -- There is but one text that its white space leaves of each.
  have hcontent : sent.message.content = "psst" :=
    hanswers.content.unique (Blank.trims_iff.2 (by decide))
  obtain ⟨-, topic, htopic, hkept⟩ := hanswers.channel (.small 1) "\u00A0news\t" rfl
  have hnews : topic = "news" := htopic.unique (Blank.trims_iff.2 (by decide))
  obtain ⟨_, ⟨⟩, hblankCause⟩ := (hblank _).1 hrefusedBlank
  obtain ⟨_, ⟨⟩, hfaultyCause⟩ := (hfaulty _).1 hrefusedFaulty
  exact ⟨⟨sent, hanswer, hanswers, hcontent, hkept.trans (congrArg some hnews)⟩, hblankCause,
    hfaultyCause⟩

end WhisperChat
