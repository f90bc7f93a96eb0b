import WhisperChat.Http.Service
import WhisperChat.Proofs.Atomic
import WhisperChat.Proofs.Commit
import WhisperChat.Proofs.FailClosed
import WhisperChat.Proofs.Token

/-!
# What the service does for whom

A request speaks for the user whom its token names, and for nobody without a token that is accepted.
What it then asks for is read off the request alone (`Request.Asks`), and the service does that and
nothing else: the cases are the fields of `Serves`.  A refusal comes from the route, before database
and dispatcher are looked at, so that neither can be changed by it.
-/

namespace WhisperChat

open Work

namespace Http

/-! ## Bearers -/

theorem isHeaderChar_of_isTokenChar {c : Char} (h : Token.isTokenChar c = true) :
    isHeaderChar c = true :=
  Token.forall_of_isTokenChar (p := fun c ↦ isHeaderChar c = true) (by decide) h

/-- Whether all tokens that are accepted can stand in a header, as tokens are letters, digits and a
few marks, with points in between. -/
def FitsHeader (decode : Token.Decoder) : Prop :=
  ∀ secret token now claims, decode secret token now = some claims →
    token.toList.all isHeaderChar = true

theorem fitsHeader_decode? : FitsHeader Token.decode? := by
  intro secret token now claims h
  have hall := Token.all_isTokenChar_of_decode? h
  rw [List.all_eq_true] at hall ⊢
  exact fun c hc ↦ isHeaderChar_of_isTokenChar (hall c hc)

theorem bearerToken?_eq_some_iff {value token : String} :
    bearerToken? value = some token ↔
      value = "Bearer " ++ token ∧ token.toList.all isHeaderChar = true := by
  have htext : value = "Bearer " ++ token ↔ value.toList = "Bearer ".toList ++ token.toList := by
    rw [← String.toList_append, String.toList_inj]
  rw [htext]
  unfold bearerToken?
  simp only [Option.ite_none_right_eq_some, Bool.and_eq_true, List.isPrefixOf_iff_prefix,
    Option.some.injEq]
  constructor
  · rintro ⟨⟨hall, rest, hrest⟩, rfl⟩
    have hdrop : value.toList.drop 7 = rest := by
      rw [← hrest]
      rfl
    have htoken : (String.ofList rest).toList = rest := String.toList_ofList
    rw [hdrop, htoken]
    refine ⟨hrest.symm, ?_⟩
    rw [← hrest, List.all_append, Bool.and_eq_true] at hall
    exact hall.2
  · rintro ⟨hvalue, hall⟩
    rw [hvalue]
    refine ⟨⟨?_, List.prefix_append _ _⟩, ?_⟩
    · rw [List.all_append, hall]
      decide
    · change String.ofList token.toList = token
      exact String.ofList_toList

theorem claims?_eq_some_iff {r : Request} {decode : Token.Decoder} {secret : String} {now : Nat}
    {claims : Claims} :
    r.claims? decode secret now = some claims ↔
      ∃ token, r.authorization = some ("Bearer " ++ token) ∧
        token.toList.all isHeaderChar = true ∧ decode secret token now = some claims := by
  have hclaims : r.claims? decode secret now = some claims ↔
      ∃ token, r.authorization.bind bearerToken? = some token ∧
        decode secret token now = some claims := Option.bind_eq_some_iff
  rw [hclaims]
  constructor
  · rintro ⟨token, htoken, hdecode⟩
    obtain ⟨value, hvalue, hbearer⟩ := Option.bind_eq_some_iff.1 htoken
    obtain ⟨rfl, hall⟩ := bearerToken?_eq_some_iff.1 hbearer
    exact ⟨token, hvalue, hall, hdecode⟩
  · rintro ⟨token, hvalue, hall, hdecode⟩
    exact ⟨token, Option.bind_eq_some_iff.2 ⟨_, hvalue, bearerToken?_eq_some_iff.2 ⟨rfl, hall⟩⟩,
      hdecode⟩

end Http

/-! ## How long a page is -/

section PageLength

variable {faults : List Method} {db db' : Database} {context : ViewerContext} {want : Nat}

/-- A walk never brings more than is wanted, whatever the rows of the tables are. -/
theorem Page.length_le_of_walk {rounds : Nat} {scan : Scan} {found messages : List Message}
    (h : (walk context want rounds scan found).Yields faults db messages db')
    (hfound : found.length ≤ want) : messages.length ≤ want := by
  induction rounds generalizing scan found db with
  | zero =>
    obtain ⟨rfl, -⟩ := yields_pure_iff.1 h
    exact hfound
  | succ rounds ih =>
    unfold walk at h
    split at h
    case isTrue =>
      obtain ⟨rfl, -⟩ := yields_pure_iff.1 h
      exact hfound
    obtain ⟨batch, db₁, -, h⟩ := yields_bind_iff.1 h
    split at h
    case h_1 =>
      obtain ⟨rfl, -⟩ := yields_pure_iff.1 h
      exact hfound
    obtain ⟨visible, db₂, -, h⟩ := yields_bind_iff.1 h
    have hmore : (found ++ visible.take (want - found.length)).length ≤ want := by
      rw [List.length_append, List.length_take]
      omega
    split at h
    case isTrue =>
      obtain ⟨rfl, -⟩ := yields_pure_iff.1 h
      exact hmore
    split at h
    case h_1 => exact absurd h not_yields_fail
    case h_2 => exact ih h hmore

theorem Page.length_le_of_side {scan : Option Scan} {messages : List Message}
    (h : (side context scan want).Yields faults db messages db') : messages.length ≤ want := by
  unfold side at h
  split at h
  case h_1 =>
    obtain ⟨rfl, -⟩ := yields_pure_iff.1 h
    exact Nat.zero_le _
  case h_2 =>
    unfold scanVisible at h
    split at h
    · exact absurd h not_yields_fail
    · exact length_le_of_walk h (Nat.zero_le _)

theorem length_le_of_listMessages {viewer : UserId} {channel : ChannelId} {w : Window}
    {messages : List Message}
    (h : (listMessages viewer channel w).Yields faults db messages db') :
    messages.length ≤ w.before + w.after := by
  obtain ⟨context, _, -, h⟩ := yields_bind_iff.1 h
  obtain ⟨before, _, hbefore, h⟩ := yields_bind_iff.1 h
  obtain ⟨after, _, hafter, h⟩ := yields_bind_iff.1 h
  obtain ⟨rfl, -⟩ := yields_pure_iff.1 h
  rw [List.length_append, List.length_reverse]
  exact Nat.add_le_add (Page.length_le_of_side hbefore) (Page.length_le_of_side hafter)

/-! ## How a page breaks down -/

theorem Page.exceeds_of_side {scan : Option Scan}
    (h : (side context scan want).Fails faults db .outOfMemory) :
    ∃ s, scan = some s ∧ capacity < want := by
  unfold side at h
  split at h
  case h_1 => exact absurd h not_fails_pure
  case h_2 s =>
    unfold scanVisible at h
    split at h
    case isTrue hwant => exact ⟨s, rfl, hwant⟩
    case isFalse => rcases (within_walk _ _ _ _ _).failure h with hne | ⟨_, hne⟩ <;> cases hne

theorem exceeds_of_listMessages {viewer : UserId} {channel : ChannelId} {w : Window}
    (h : (listMessages viewer channel w).Fails faults db .outOfMemory) : w.Exceeds := by
  rcases fails_bind_iff.1 h with h | ⟨context, _, -, h⟩
  · exact absurd h ((within_load viewer channel).not_fails rfl)
  rcases fails_bind_iff.1 h with h | ⟨before, _, -, h⟩
  · obtain ⟨scan, hscan, hwant⟩ := Page.exceeds_of_side h
    exact Window.exceeds_before hscan hwant
  rcases fails_bind_iff.1 h with h | ⟨after, _, -, h⟩
  · obtain ⟨scan, hscan, hwant⟩ := Page.exceeds_of_side h
    exact Window.exceeds_after hscan hwant
  · exact absurd h not_fails_pure

/-- A walk cannot count on only where the channel has a message with the greatest identifier. -/
theorem Page.exists_greatest_of_walk {rounds : Nat} {scan : Scan} {found : List Message}
    (h : (walk context want rounds scan found).Fails faults db .overflow) :
    ∃ m ∈ db.stored, m.channel = some context.channel ∧ m.id = .greatest .message := by
  induction rounds generalizing scan found with
  | zero => exact absurd h not_fails_pure
  | succ rounds ih =>
    unfold walk at h
    split at h
    · exact absurd h not_fails_pure
    rcases fails_bind_iff.1 h with h | ⟨batch, db₁, hbatch, h⟩
    · have hask : Within (fun _ ↦ True) (·.isBreakdown = false)
          (ask (.channelWindow context.channel scan batchSize)) := within_ask trivial
      exact absurd h (hask.not_fails rfl)
    obtain ⟨-, hanswer⟩ := yields_ask_iff.1 hbatch
    obtain ⟨hwindow, hkeep⟩ := Prod.mk.inj hanswer
    subst hkeep
    split at h
    case h_1 => exact absurd h not_fails_pure
    case h_2 last hlast =>
      have hfilter : Within (·.isFor context.viewer = true) (·.isBreakdown = false)
          (filterVisible context batch) := within_filterVisible context batch
      rcases fails_bind_iff.1 h with hfails | ⟨visible, db₁, hvisible, hgoes⟩
      · exact absurd hfails (hfilter.not_fails rfl)
      have hkeep : db = db₁ := (hfilter.questions.database_eq faults db).symm.trans hvisible.2
      subst hkeep
      split at hgoes
      · exact absurd hgoes not_fails_pure
      split at hgoes
      case h_1 hend =>
        obtain ⟨hstored, hchannel⟩ :=
          Database.mem_of_channelWindow hwindow (List.mem_of_getLast? hlast)
        exact ⟨last, hstored, hchannel, Scan.eq_greatest_of_continueAfter_eq_none hend⟩
      case h_2 => exact ih hgoes

theorem Page.exists_greatest_of_side {scan : Option Scan}
    (h : (side context scan want).Fails faults db .overflow) :
    ∃ m ∈ db.stored, m.channel = some context.channel ∧ m.id = .greatest .message := by
  unfold side at h
  split at h
  case h_1 => exact absurd h not_fails_pure
  case h_2 =>
    unfold scanVisible at h
    split at h
    case isTrue => simp [Fails, run] at h
    case isFalse => exact exists_greatest_of_walk h

theorem exists_greatest_of_listMessages {viewer : UserId} {channel : ChannelId} {w : Window}
    (h : (listMessages viewer channel w).Fails [] db .overflow) :
    ∃ m ∈ db.stored, m.channel = some channel ∧ m.id = .greatest .message := by
  have hsides := (fails_bind_of_yields (yields_load db viewer channel)).1 h
  rcases fails_bind_iff.1 hsides with hfails | ⟨before, db₁, hbefore, hrest⟩
  · exact Page.exists_greatest_of_side hfails
  have hkeep : db = db₁ :=
    ((Page.within_side _ _ _).questions.database_eq [] db).symm.trans hbefore.2
  subst hkeep
  rcases fails_bind_iff.1 hrest with hfails | ⟨after, _, -, hdone⟩
  · exact Page.exists_greatest_of_side hfails
  · exact absurd hdone not_fails_pure

end PageLength

/-! ## Reading behind the lock -/

namespace SharedDatabase

variable {α : Type} {s : SharedDatabase} {faults : List Method} {failures : Failure → Prop}
  {w : Work α}

/-- Behind a lock that is not poisoned a use has the answer that it would have by itself. -/
theorem answer_run_of_read {answer : Except Failure α} (h : (s.read faults w).answer = answer)
    (hne : answer ≠ .error (.error (.store .poisoned))) :
    s.poisoned = false ∧ (w.run faults s.contents).answer = answer := by
  cases hlock : s.poisoned with
  | true => exact absurd (h.symm.trans (answer_read_of_poisoned hlock)) hne
  | false => exact ⟨rfl, (answer_read hlock).symm.trans h⟩

/-- A use that only reads leaves tables and lock as they were, unless it breaks down. -/
theorem shared_read_of_not_breakdown (hw : Within (·.isQuestion = true) failures w)
    (h : ∀ failure, (s.read faults w).answer = .error failure → failure.isBreakdown = false) :
    (s.read faults w).shared = s := by
  have hpoisoned : (s.read faults w).shared.poisoned = s.poisoned := by
    rw [Bool.eq_iff_iff, read, poisoned_locked_iff, or_iff_left_iff_imp]
    rintro ⟨failure, hanswer, hbreakdown⟩
    cases hlock : s.poisoned with
    | true => rfl
    | false =>
      rw [h failure ((answer_read hlock).trans hanswer)] at hbreakdown
      cases hbreakdown
  calc
    (s.read faults w).shared =
        ⟨(s.read faults w).shared.contents, (s.read faults w).shared.poisoned⟩ := rfl
    _ = s := by rw [contents_read hw, hpoisoned]

/-- A use that breaks down poisons the lock. -/
theorem shared_read_of_breakdown (hw : Within (·.isQuestion = true) failures w) {failure : Failure}
    (h : (s.read faults w).answer = .error failure) (hbreakdown : failure.isBreakdown = true) :
    (s.read faults w).shared = { s with poisoned := true } := by
  have hne : (Except.error failure : Except Failure α) ≠ .error (.error (.store .poisoned)) := by
    rintro ⟨⟩
    cases hbreakdown
  have hpoisoned : (s.read faults w).shared.poisoned = true := by
    rw [read, poisoned_locked_iff]
    exact .inr ⟨failure, (answer_run_of_read h hne).2, hbreakdown⟩
  calc
    (s.read faults w).shared =
        ⟨(s.read faults w).shared.contents, (s.read faults w).shared.poisoned⟩ := rfl
    _ = { s with poisoned := true } := by rw [contents_read hw, hpoisoned]

end SharedDatabase

namespace Http

/-! ## What is asked -/

/-- A request that is well formed asks for a job in the name of a user. -/
inductive Request.Asks (r : Request) (user : UserId) (maxPage : Nat) : Job → Prop
  | send {request : SendRequest} (hpath : Route.ofPath? (Uri.path r.uri) = some .messages)
      (hmethod : r.method = "POST") (hbody : sendRequest r = .ok request) :
      Asks r user maxPage (.send user request)
  | get {segment : List Char} {message : MessageId}
      (hpath : Route.ofPath? (Uri.path r.uri) = some (.message segment))
      (hmethod : r.method = "GET" ∨ r.method = "HEAD")
      (hsegment : ident? .message segment = some message) :
      Asks r user maxPage (.get user message)
  | list {segment : List Char} {channel : ChannelId} {window : Window}
      (hpath : Route.ofPath? (Uri.path r.uri) = some (.history segment))
      (hmethod : r.method = "GET" ∨ r.method = "HEAD")
      (hsegment : ident? .channel segment = some channel)
      (hquery : window? (Uri.query r.uri) = some window) (htotal : total window ≤ maxPage) :
      Asks r user maxPage (.list user channel window)
  | addMember {first second : List Char} {group : GroupId} {whom : UserId}
      (hpath : Route.ofPath? (Uri.path r.uri) = some (.member first second))
      (hmethod : r.method = "PUT") (hfirst : ident? .group first = some group)
      (hsecond : ident? .user second = some whom) :
      Asks r user maxPage (.addMember group whom)
  | removeMember {first second : List Char} {group : GroupId} {whom : UserId}
      (hpath : Route.ofPath? (Uri.path r.uri) = some (.member first second))
      (hmethod : r.method = "DELETE") (hfirst : ident? .group first = some group)
      (hsecond : ident? .user second = some whom) :
      Asks r user maxPage (.removeMember group whom)

variable {r : Request} {user : UserId} {maxPage : Nat} {job : Job} {route : Route}

theorem asks_of_job (hpath : Route.ofPath? (Uri.path r.uri) = some route)
    (h : route.job r user maxPage = .ok job) : r.Asks user maxPage job := by
  unfold Route.job at h
  simp only [Bool.or_eq_true, decide_eq_true_eq] at h
  cases route with
  | messages =>
    simp only at h
    split at h
    case isTrue hmethod =>
      obtain ⟨request, hbody, rfl⟩ := map_eq_ok_iff.1 h
      exact .send hpath hmethod hbody
    case isFalse => cases h
  | message segment =>
    simp only at h
    split at h
    case isTrue hmethod =>
      split at h
      case h_1 message hsegment =>
        cases h
        exact .get hpath hmethod hsegment
      case h_2 => cases h
    case isFalse => cases h
  | history segment =>
    simp only at h
    split at h
    case isTrue hmethod =>
      split at h
      case h_1 channel window hsegment hquery =>
        split at h
        case isTrue => cases h
        case isFalse htotal =>
          cases h
          exact .list hpath hmethod hsegment hquery (Nat.le_of_not_lt htotal)
      case h_2 => cases h
    case isFalse => cases h
  | member first second =>
    simp only at h
    split at h
    case isTrue hmethod =>
      split at h
      case h_1 group whom hfirst hsecond =>
        cases h
        split
        case isTrue hput => exact .addMember hpath hput hfirst hsecond
        case isFalse hput =>
          exact .removeMember hpath (hmethod.resolve_left hput) hfirst hsecond
      case h_2 => cases h
    case isFalse => cases h

theorem job_of_asks (hpath : Route.ofPath? (Uri.path r.uri) = some route)
    (h : r.Asks user maxPage job) : route.job r user maxPage = .ok job := by
  cases h with
  | send hroute hmethod hbody =>
    cases hpath.symm.trans hroute
    simp only [Route.job, hmethod, if_true, hbody]
    rfl
  | get hroute hmethod hsegment =>
    cases hpath.symm.trans hroute
    simp [Route.job, hmethod, hsegment]
  | list hroute hmethod hsegment hquery htotal =>
    cases hpath.symm.trans hroute
    simp [Route.job, hmethod, hsegment, hquery, Nat.not_lt.2 htotal]
  | addMember hroute hmethod hfirst hsecond =>
    cases hpath.symm.trans hroute
    simp [Route.job, hmethod, hfirst, hsecond]
  | removeMember hroute hmethod hfirst hsecond =>
    cases hpath.symm.trans hroute
    simp [Route.job, hmethod, hfirst, hsecond]

theorem status_of_sendRequest {reply : Reply} (h : sendRequest r = .error reply) :
    400 ≤ reply.status ∧ reply.status < 500 := by
  unfold sendRequest at h
  split at h
  · cases h
    decide
  split at h
  · cases h
    decide
  split at h <;> cases h <;> decide

/-- A refusal lays the fault on the request. -/
theorem status_of_job {reply : Reply} (h : route.job r user maxPage = .error reply) :
    400 ≤ reply.status ∧ reply.status < 500 := by
  unfold Route.job at h
  cases route with
  | messages =>
    simp only at h
    split at h
    · cases hbody : sendRequest r with
      | ok request =>
        rw [hbody] at h
        cases h
      | error refusal =>
        rw [hbody] at h
        cases h
        exact status_of_sendRequest hbody
    · cases h
      decide
  | message segment =>
    simp only at h
    split at h
    · split at h <;> cases h
      decide
    · cases h
      decide
  | history segment =>
    simp only at h
    split at h
    · split at h
      · split at h
        · cases h
          exact ⟨Nat.le_refl 400, Nat.le_add_right 401 99⟩
        · cases h
      · cases h
        decide
    · cases h
      decide
  | member first second =>
    simp only at h
    split at h
    · split at h <;> cases h
      decide
    · cases h
      decide

/-! ## What is done -/

/-- The reply as it is sent: without its body to who asks for the head alone. -/
def Reply.sentTo (reply : Reply) (r : Request) : Reply :=
  if r.method = "HEAD" then { reply with body := none } else reply

@[simp]
theorem Reply.status_sentTo (reply : Reply) (r : Request) :
    (reply.sentTo r).status = reply.status := by
  unfold sentTo
  split <;> rfl

theorem Reply.sentTo_of_ne {reply : Reply} (h : r.method ≠ "HEAD") : reply.sentTo r = reply :=
  if_neg h

def Reply.ofAnswer : Except ApiError (List (String × Json)) → Reply
  | .error e => .ofError e
  | .ok members => .success members

namespace Service

variable {s : Service} {now : ClockReading} {second : Nat}

theorem answer_of_route_error {reply : Reply} (h : s.route second r = .error reply) :
    s.answer now second r = (reply.sentTo r, s) := by
  simp only [answer, h, Reply.sentTo]

theorem answer_of_route_ok (h : s.route second r = .ok job) :
    s.answer now second r =
      ((Reply.ofAnswer (s.perform now job).1).sentTo r, (s.perform now job).2) := by
  simp only [answer, h, Reply.sentTo, Reply.ofAnswer]
  rcases s.perform now job with ⟨_ | _, _⟩ <;> rfl

/-- A send is one unit of work and, if that succeeds, one fan-out of its message. -/
theorem perform_send (s : Service) (now : ClockReading) (sender : UserId) (request : SendRequest) :
    s.perform now (.send sender request) =
      match (s.shared.atomic [] (send now sender request)).answer with
      | .error e => (.error e.toApiError, s)
      | .ok sent =>
        (.ok [("id", .int sent.message.id.val)],
          { s with
            shared := (s.shared.atomic [] (send now sender request)).shared
            dispatcher := (s.dispatcher.fanOut sent.audience.toList
              (.messageCreated sent.message)).2 }) := by
  cases hanswer : (s.shared.atomic [] (send now sender request)).answer with
  | error e =>
    simp only [perform, commit, hanswer, Except.mapError,
      SharedDatabase.shared_send_of_error hanswer]
  | ok sent => simp only [perform, commit, hanswer, Except.mapError, announce]

theorem perform_get (s : Service) (now : ClockReading) (viewer : UserId) (message : MessageId) :
    s.perform now (.get viewer message) =
      (match (s.shared.read [] (getMessage viewer message)).answer with
        | .error e => .error e.toApiError
        | .ok m => .ok [("message", m.toJson)], s) := by
  have hwithin := within_getMessage viewer message
  have hshared : (s.shared.read [] (getMessage viewer message)).shared = s.shared := by
    apply SharedDatabase.shared_read_of_not_breakdown hwithin
    rintro (cause | _ | _) hanswer
    · rfl
    · exact absurd (SharedDatabase.answer_run_of_read hanswer (by simp)).2 (hwithin.not_fails rfl)
    · exact absurd (SharedDatabase.answer_run_of_read hanswer (by simp)).2 (hwithin.not_fails rfl)
  simp only [perform, read, hshared]
  cases (s.shared.read [] (getMessage viewer message)).answer <;> rfl

theorem perform_list (s : Service) (now : ClockReading) (viewer : UserId) (channel : ChannelId)
    (w : Window) :
    s.perform now (.list viewer channel w) =
      match (s.shared.read [] (listMessages viewer channel w)).answer with
      | .error (.error cause) => (.error (.whisper cause), s)
      | .error .outOfMemory | .error .overflow =>
        (.error .internal, { s with shared := { s.shared with poisoned := true } })
      | .ok messages =>
        (.ok [("anchor", .str w.anchor.text), ("messages", .list (messages.map Message.toJson))],
          s) := by
  have hwithin := within_listMessages viewer channel w
  cases hanswer : (s.shared.read [] (listMessages viewer channel w)).answer with
  | error e =>
    cases e with
    | outOfMemory | overflow =>
      simp only [perform, read, hanswer,
        SharedDatabase.shared_read_of_breakdown hwithin hanswer rfl]
      rfl
    | error cause =>
      have hshared : (s.shared.read [] (listMessages viewer channel w)).shared = s.shared := by
        apply SharedDatabase.shared_read_of_not_breakdown hwithin
        intro failure hfailure
        cases hanswer.symm.trans hfailure
        rfl
      simp only [perform, read, hanswer, hshared]
      rfl
  | ok messages =>
    have hshared : (s.shared.read [] (listMessages viewer channel w)).shared = s.shared := by
      apply SharedDatabase.shared_read_of_not_breakdown hwithin
      intro failure hfailure
      cases hanswer.symm.trans hfailure
    simp only [perform, read, hanswer, hshared]
    rfl

theorem statement_of_poisoned {α : Type} (f : Database → Except StoreError (α × Database))
    (h : s.shared.poisoned = true) :
    s.statement f = (.error (.whisper (.store .poisoned)), s) := by
  simp [statement, SharedDatabase.statement, SharedDatabase.execute, h, Except.mapError]

theorem statement_eq {α : Type} (f : Database → Except StoreError (α × Database))
    (h : s.shared.poisoned = false) :
    s.statement f =
      match f s.shared.contents with
      | .error cause => (.error (.whisper (.store cause)), s)
      | .ok (a, contents) => (.ok a, { s with shared := { s.shared with contents } }) := by
  obtain ⟨⟨contents, poisoned⟩, dispatcher, decode, secret, maxPage⟩ := s
  subst h
  simp only [statement, SharedDatabase.statement, SharedDatabase.execute]
  cases f contents <;> rfl

/-- A membership is changed if the group is there, and then the user, and only by the statement. -/
theorem changeMembership_eq (s : Service) (group : GroupId) (whom : UserId)
    (change : Database → Except StoreError (Bool × Database)) :
    s.changeMembership group whom change =
      if s.shared.poisoned then (.error (.whisper (.store .poisoned)), s)
      else if !s.shared.contents.groupExists group then
        (.error (.whisper (.unknownRecipient (.group group))), s)
      else if !s.shared.contents.userExists whom then
        (.error (.whisper (.unknownRecipient (.user whom))), s)
      else
        match change s.shared.contents with
        | .error cause => (.error (.whisper (.store cause)), s)
        | .ok (changed, contents) =>
          (.ok changed, { s with shared := { s.shared with contents } }) := by
  unfold changeMembership
  cases hlock : s.shared.poisoned with
  | true => simp only [statement_of_poisoned _ hlock, if_true]
  | false =>
    simp only [statement_eq _ hlock, Bool.false_eq_true, if_false]
    cases hgroup : s.shared.contents.groupExists group with
    | false => simp
    | true =>
      simp only [statement_eq _ hlock, Bool.not_true, Bool.false_eq_true, if_false]
      cases huser : s.shared.contents.userExists whom with
      | false => simp
      | true =>
        simp only [statement_eq _ hlock, Bool.not_true, Bool.false_eq_true, if_false]
        cases change s.shared.contents <;> rfl

end Service

/-! ## Requests and replies -/

/-- How the service answers a request that speaks for a user. -/
structure Serves (s : Service) (now : ClockReading) (second : Nat) (r : Request) (user : UserId) :
    Prop where
  /-- What asks for nothing is refused for its own sake, whatever database and dispatcher hold. -/
  refuses : (∀ job, ¬ r.Asks user s.maxPage job) →
    ∃ reply : Reply, 400 ≤ reply.status ∧ reply.status < 500 ∧ ∀ shared dispatcher,
      { s with shared, dispatcher }.answer now second r = (reply, { s with shared, dispatcher })
  sends : ∀ request, r.Asks user s.maxPage (.send user request) →
    s.answer now second r =
      match (s.shared.atomic [] (send now user request)).answer with
      | .error e => (.ofError e.toApiError, s)
      | .ok sent =>
        (.success [("id", .int sent.message.id.val)],
          { s with
            shared := (s.shared.atomic [] (send now user request)).shared
            dispatcher := (s.dispatcher.fanOut sent.audience.toList
              (.messageCreated sent.message)).2 })
  gets : ∀ message, r.Asks user s.maxPage (.get user message) →
    s.answer now second r =
      match (s.shared.read [] (getMessage user message)).answer with
      | .error e => ((Reply.ofError e.toApiError).sentTo r, s)
      | .ok m => ((Reply.success [("message", m.toJson)]).sentTo r, s)
  lists : ∀ channel w, r.Asks user s.maxPage (.list user channel w) →
    s.answer now second r =
      match (s.shared.read [] (listMessages user channel w)).answer with
      | .error (.error cause) => ((Reply.ofError (.whisper cause)).sentTo r, s)
      | .error .outOfMemory | .error .overflow =>
        ((Reply.ofError .internal).sentTo r,
          { s with shared := { s.shared with poisoned := true } })
      | .ok messages =>
        ((Reply.success [("anchor", .str w.anchor.text),
          ("messages", .list (messages.map Message.toJson))]).sentTo r, s)
  /-- A page only breaks down over a side for which no memory can be set aside, or where the
  greatest identifier has been given out in the channel. -/
  breaks : ∀ channel w,
    ((s.shared.read [] (listMessages user channel w)).answer = .error .outOfMemory → w.Exceeds) ∧
      ((s.shared.read [] (listMessages user channel w)).answer = .error .overflow →
        ∃ m ∈ s.shared.contents.stored, m.channel = some channel ∧ m.id = .greatest .message)
  /-- Where all rows can be read, it breaks down for just two reasons. -/
  breaks_iff : s.shared.poisoned = false → s.shared.contents.Decodes → ∀ channel w,
    ((∃ failure, (s.shared.read [] (listMessages user channel w)).answer = .error failure ∧
      failure.isBreakdown = true) ↔ w.Exceeds ∨ s.shared.contents.Overflows user channel w)
  /-- What asks for more messages than a page may have is told so, without a look at the
  database. -/
  caps : ∀ segment channel w, Route.ofPath? (Uri.path r.uri) = some (.history segment) →
    r.method = "GET" ∨ r.method = "HEAD" → ident? .channel segment = some channel →
    window? (Uri.query r.uri) = some w → s.maxPage < w.before + w.after →
    s.maxPage < countBound - 1 → ∀ shared dispatcher,
      { s with shared, dispatcher }.answer now second r =
        ((Reply.ofError (.badRequest
          s!"Too many messages requested (maximum {s.maxPage}).")).sentTo r,
          { s with shared, dispatcher })
  /-- No page has more messages than that. -/
  limits : ∀ channel w messages, r.Asks user s.maxPage (.list user channel w) →
    s.maxPage < countBound - 1 →
    (s.shared.read [] (listMessages user channel w)).answer = .ok messages →
    messages.length ≤ s.maxPage
  changes : ∀ group whom change,
    r.Asks user s.maxPage (.addMember group whom) ∧ change = (Database.addMember · group whom) ∨
      r.Asks user s.maxPage (.removeMember group whom) ∧
        change = (Database.removeMember · group whom) →
    s.answer now second r =
      if s.shared.poisoned then (.ofError (.whisper (.store .poisoned)), s)
      else if !s.shared.contents.groupExists group then
        (.ofError (.whisper (.unknownRecipient (.group group))), s)
      else if !s.shared.contents.userExists whom then
        (.ofError (.whisper (.unknownRecipient (.user whom))), s)
      else
        match change s.shared.contents with
        | .error cause => (.ofError (.whisper (.store cause)), s)
        | .ok (changed, contents) =>
          (.success [("changed", .bool changed)],
            { s with shared := { s.shared with contents } })

namespace Service

variable {s : Service} {now : ClockReading} {second : Nat} {claims : Claims}

theorem route_of_claims (hclaims : r.claims? s.decode s.secret second = some claims)
    (hpath : Route.ofPath? (Uri.path r.uri) = some route) :
    s.route second r = route.job r claims.subject s.maxPage := by
  simp only [Service.route, hclaims, hpath]

/-- What is asked for is done. -/
theorem answer_of_asks (hclaims : r.claims? s.decode s.secret second = some claims)
    (h : r.Asks claims.subject s.maxPage job) :
    s.answer now second r =
      ((Reply.ofAnswer (s.perform now job).1).sentTo r, (s.perform now job).2) := by
  have hpath : ∃ route, Route.ofPath? (Uri.path r.uri) = some route := by
    cases h with
    | send hpath => exact ⟨_, hpath⟩
    | get hpath => exact ⟨_, hpath⟩
    | list hpath => exact ⟨_, hpath⟩
    | addMember hpath => exact ⟨_, hpath⟩
    | removeMember hpath => exact ⟨_, hpath⟩
  obtain ⟨route, hpath⟩ := hpath
  apply answer_of_route_ok
  rw [route_of_claims hclaims hpath, job_of_asks hpath h]

/-- What asks for nothing is refused by its route. -/
theorem exists_route_error (hclaims : r.claims? s.decode s.secret second = some claims)
    (h : ∀ job, ¬ r.Asks claims.subject s.maxPage job) :
    ∃ reply, s.route second r = .error reply ∧ 400 ≤ reply.status ∧ reply.status < 500 := by
  cases hpath : Route.ofPath? (Uri.path r.uri) with
  | none =>
    refine ⟨⟨404, none⟩, ?_, by decide, by decide⟩
    simp only [Service.route, hclaims, hpath]
  | some route =>
    cases hjob : route.job r claims.subject s.maxPage with
    | ok job => exact absurd (asks_of_job hpath hjob) (h job)
    | error reply => exact ⟨reply, (route_of_claims hclaims hpath).trans hjob, status_of_job hjob⟩

theorem serves_of_claims (now : ClockReading)
    (hclaims : r.claims? s.decode s.secret second = some claims) :
    Serves s now second r claims.subject where
  refuses := by
    intro h
    obtain ⟨reply, hroute, hstatus⟩ := exists_route_error hclaims h
    refine ⟨reply.sentTo r, ?_, ?_, fun shared dispatcher ↦ answer_of_route_error hroute⟩
    · rw [Reply.status_sentTo]
      exact hstatus.1
    · rw [Reply.status_sentTo]
      exact hstatus.2
  sends := by
    intro request h
    have hmethod : r.method ≠ "HEAD" := by
      cases h with
      | send _ hpost => simp [hpost]
    rw [answer_of_asks hclaims h, perform_send, Reply.sentTo_of_ne hmethod]
    cases (s.shared.atomic [] (send now claims.subject request)).answer <;> rfl
  gets := by
    intro message h
    rw [answer_of_asks hclaims h, perform_get]
    cases (s.shared.read [] (getMessage claims.subject message)).answer <;> rfl
  lists := by
    intro channel w h
    rw [answer_of_asks hclaims h, perform_list]
    rcases (s.shared.read [] (listMessages claims.subject channel w)).answer with
      (cause | _ | _) | messages <;> rfl
  breaks := by
    intro channel w
    refine ⟨fun h ↦ ?_, fun h ↦ ?_⟩
    · exact exceeds_of_listMessages (SharedDatabase.answer_run_of_read h (by simp)).2
    · exact exists_greatest_of_listMessages (SharedDatabase.answer_run_of_read h (by simp)).2
  breaks_iff := by
    intro hpoisoned hdecodes channel w
    rw [SharedDatabase.answer_read hpoisoned]
    exact page_breaks_down_iff hdecodes claims.subject channel w
  caps := by
    intro segment channel w hpath hmethod hsegment hquery htotal hmax shared dispatcher
    have htoo : s.maxPage < total w := Nat.lt_min.2 ⟨htotal, hmax⟩
    have hroute : s.route second r = .error (Reply.ofError (.badRequest
        s!"Too many messages requested (maximum {s.maxPage}).")) := by
      rw [route_of_claims hclaims hpath]
      simp [Route.job, hmethod, hsegment, hquery, htoo]
    exact answer_of_route_error hroute
  limits := by
    intro channel w messages h hmax hanswer
    have hlength : messages.length ≤ w.before + w.after :=
      length_le_of_listMessages ⟨(SharedDatabase.answer_run_of_read hanswer (by simp)).2, rfl⟩
    cases h with
    | list _ _ _ _ htotal =>
      unfold total at htotal
      omega
  changes := by
    intro group whom change h
    have hmethod : r.method ≠ "HEAD" := by
      rcases h with ⟨hadd, -⟩ | ⟨hremove, -⟩
      · cases hadd with
        | addMember _ hput => simp [hput]
      · cases hremove with
        | removeMember _ hdelete => simp [hdelete]
    have hperform : s.answer now second r =
        (Reply.ofAnswer ((s.changeMembership group whom change).1.map fun changed ↦
            [("changed", .bool changed)]), (s.changeMembership group whom change).2) := by
      rcases h with ⟨hadd, rfl⟩ | ⟨hremove, rfl⟩
      · rw [answer_of_asks hclaims hadd, Reply.sentTo_of_ne hmethod]
        rfl
      · rw [answer_of_asks hclaims hremove, Reply.sentTo_of_ne hmethod]
        rfl
    rw [hperform, changeMembership_eq]
    split
    · rfl
    split
    · rfl
    split
    · rfl
    cases change s.shared.contents <;> rfl

/-- Without a token that is accepted a request is refused at every place, and nothing is changed.
With one the service does what the request asks for in the name of the user whom the token names, by
the operations of the core alone. -/
theorem answer_refines (s : Service) (now : ClockReading) (second : Nat) (r : Request)
    (hdecode : FitsHeader s.decode) :
    ((¬ ∃ token claims, r.authorization = some ("Bearer " ++ token) ∧
        s.decode s.secret token second = some claims) →
      s.answer now second r = (⟨401, none⟩, s)) ∧
      ∀ token claims, r.authorization = some ("Bearer " ++ token) →
        s.decode s.secret token second = some claims →
        Serves s now second r claims.subject := by
  constructor
  · intro hnobody
    have hclaims : r.claims? s.decode s.secret second = none := by
      rw [Option.eq_none_iff_forall_ne_some]
      intro claims hclaims
      obtain ⟨token, hvalue, -, htoken⟩ := claims?_eq_some_iff.1 hclaims
      exact hnobody ⟨token, claims, hvalue, htoken⟩
    have hroute : s.route second r = .error ⟨401, none⟩ := by
      simp only [Service.route, hclaims]
    rw [answer_of_route_error hroute]
    unfold Reply.sentTo
    split <;> rfl
  · intro token claims hvalue htoken
    exact serves_of_claims now
      (claims?_eq_some_iff.2 ⟨token, hvalue, hdecode _ _ _ _ htoken, htoken⟩)

/-- The sample behind HTTP, with a client of user 2. -/
def sampleService : Service where
  shared := (Run.of sampleActions).shared
  dispatcher := (({} : Dispatcher).register (.small 2)).2
  decode := Token.decode?
  secret := "open sesame"
  maxPage := 100

def samplePost (authorization : Option String) : Request where
  method := "POST"
  uri := "/messages"
  authorization
  contentType := some "application/json"
  body := String.ofList (Json.record [("type", .str "channel"), ("channel_id", .int 1),
    ("topic", .str "news"), ("content", .str sampleRequest.content),
    ("whisper_to_user_ids", Wire.idsJson sampleRequest.whisperUsers),
    ("whisper_to_group_ids", Wire.idsJson sampleRequest.whisperGroups)]).chars

def sampleToken : String := Token.sign "open sesame" ⟨.small 1, 10⟩

/-- Without a token the whisper is refused; with one it is sent in the name of user 1. -/
theorem answer_refines_sample :
    sampleService.answer .epoch 5 (samplePost none) = (⟨401, none⟩, sampleService) ∧
      ∃ sent, (sampleService.shared.atomic [] (send .epoch (.small 1) sampleRequest)).answer =
          .ok sent ∧
        sampleService.answer .epoch 5 (samplePost (some ("Bearer " ++ sampleToken))) =
          (.success [("id", .int sent.message.id.val)],
            { sampleService with
              shared := (sampleService.shared.atomic []
                (send .epoch (.small 1) sampleRequest)).shared
              dispatcher := (sampleService.dispatcher.fanOut sent.audience.toList
                (.messageCreated sent.message)).2 }) := by
  constructor
  · obtain ⟨hnobody, -⟩ :=
      answer_refines sampleService .epoch 5 (samplePost none) fitsHeader_decode?
    apply hnobody
    rintro ⟨_, _, hvalue, -⟩
    cases (hvalue : none = some _)
  · have hsent : (sampleService.shared.atomic []
        (send .epoch (.small 1) sampleRequest)).answer.toOption.isSome = true := by decide +kernel
    obtain ⟨sent, hsent⟩ := Option.isSome_iff_exists.1 hsent
    rw [toOption_eq_some_iff] at hsent
    obtain ⟨-, hserves⟩ :=
      answer_refines sampleService .epoch 5 (samplePost (some ("Bearer " ++ sampleToken)))
        fitsHeader_decode?
    have htoken : Token.decode? sampleService.secret sampleToken 5 = some ⟨.small 1, 10⟩ := by
      decide +kernel
    have hasks : (samplePost (some ("Bearer " ++ sampleToken))).Asks (.small 1)
        sampleService.maxPage (.send (.small 1) sampleRequest) := by
      refine .send (by decide +kernel) rfl ?_
      have hbody : (sendRequest (samplePost (some ("Bearer " ++ sampleToken)))).toOption =
          some sampleRequest := by decide +kernel
      exact toOption_eq_some_iff.1 hbody
    refine ⟨sent, hsent, ?_⟩
    rw [(hserves _ _ rfl htoken).sends _ hasks, hsent]

end Service

end Http

end WhisperChat
