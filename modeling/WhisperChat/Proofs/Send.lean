import WhisperChat.Proofs.Access
import WhisperChat.Send

/-!
# What a send writes

A send that passes its checks (`Database.Admits`) writes the draft of its request
(`SendRequest.draft`) for an audience that the tables settle (`Database.audienceOf`), and does
nothing else.  The checks and the draft depend on the request and on the tables of users, channels,
groups and subscriptions alone.
-/

namespace WhisperChat

open Work

def SendRequest.descriptor? (request : SendRequest) : Option Descriptor :=
  Descriptor.ofLists? request.whisperUsers request.whisperGroups

/-- The channel and topic of a message to the target; a direct message has neither. -/
def Target.place? : Target → Option (ChannelId × String)
  | .channel id topic => some (id, Blank.trim topic)
  | .direct _ => none

def SendRequest.draft (request : SendRequest) (now : ClockReading) (sender : UserId) : Draft where
  sender
  channel := request.target.place?.map Prod.fst
  topic := request.target.place?.map Prod.snd
  content := Blank.trim request.content
  sentAt := now.toInstant
  whisper := request.descriptor?

/-- Whether a text without the white space at its ends is neither empty nor too long. -/
def fits (s : String) (limit : Nat) : Prop :=
  (Blank.trim s).isEmpty = false ∧ (Blank.trim s).length ≤ limit

namespace Database

/-- Whether a place can be sent to. -/
def AdmitsTarget (db : Database) (sender : UserId) : Target → Prop
  | .channel channel topic =>
    fits topic maxTopicLength ∧ db.channelExists channel = true ∧
      db.isSubscribed channel sender = true
  | .direct recipients => recipients ≠ [] ∧ ∀ user ∈ recipients, db.userExists user = true

/-- Whether a send passes all checks. -/
structure Admits (db : Database) (sender : UserId) (request : SendRequest) : Prop where
  sender_exists : db.userExists sender = true
  /-- Only what is sent to a channel is a whisper, and everybody it names is there. -/
  named_exist : ∀ d, request.descriptor? = some d →
    (∃ channel topic, request.target = .channel channel topic) ∧
      (∀ user ∈ d.users, db.userExists user = true) ∧
      ∀ group ∈ d.groups, db.groupExists group = true
  content_fits : fits request.content maxContentLength
  target_admits : db.AdmitsTarget sender request.target

def audienceOf (db : Database) (sender : UserId) (target : Target)
    (descriptor : Option Descriptor) : IdentSet .user :=
  match target, descriptor with
  | _, some d =>
    d.groups.toList.foldl (fun audience group ↦ audience.union (db.groupMembers group))
      ((IdentSet.ofList [sender]).union d.users)
  | .channel channel _, none => (IdentSet.ofList [sender]).union (db.subscribers channel)
  | .direct recipients, none => (IdentSet.ofList [sender]).insertAll recipients

variable {db : Database} {sender user : UserId} {target : Target}

theorem mem_foldl_union {groups : List GroupId} {audience : IdentSet .user} :
    user ∈ groups.foldl (fun audience group ↦ audience.union (db.groupMembers group)) audience ↔
      user ∈ audience ∨ ∃ group ∈ groups, (group, user) ∈ db.members := by
  induction groups generalizing audience with
  | nil => simp
  | cons group groups ih =>
    rw [List.foldl_cons, ih, IdentSet.mem_union, mem_groupMembers, or_assoc]
    simp

theorem mem_audienceOf_whisper {d : Descriptor} :
    user ∈ db.audienceOf sender target (some d) ↔
      user = sender ∨ user ∈ d.users ∨ ∃ group ∈ d.groups, (group, user) ∈ db.members := by
  rw [audienceOf, mem_foldl_union, IdentSet.mem_union, IdentSet.mem_ofList, List.mem_singleton,
    or_assoc]
  rfl

theorem mem_audienceOf_channel {channel : ChannelId} {topic : String} :
    user ∈ db.audienceOf sender (.channel channel topic) none ↔
      user = sender ∨ db.isSubscribed channel user = true := by
  rw [audienceOf, IdentSet.mem_union, IdentSet.mem_ofList, List.mem_singleton, mem_subscribers]

theorem mem_audienceOf_direct {recipients : List UserId} :
    user ∈ db.audienceOf sender (.direct recipients) none ↔ user = sender ∨ user ∈ recipients := by
  rw [audienceOf, IdentSet.mem_insertAll, IdentSet.mem_ofList, List.mem_singleton]

end Database

/-! ## The checks -/

namespace Send

variable {db db' : Database} {sender : UserId}

theorem yields_checkUser_iff {user : UserId} {cause : WhisperError} {u : Unit} :
    (checkUser user cause).Yields [] db u db' ↔ db.userExists user = true ∧ db = db' := by
  unfold checkUser
  by_cases hexists : db.userExists user = true
  · simp [yields_ask_iff, Call.answer, hexists]
  · simp [yields_ask_iff, Call.answer, hexists]

theorem yields_checkRecipients_iff {users : List UserId} {u : Unit} :
    (checkRecipients users).Yields [] db u db' ↔
      (∀ user ∈ users, db.userExists user = true) ∧ db = db' := by
  induction users with
  | nil => simp [checkRecipients]
  | cons user users ih =>
    rw [checkRecipients, yields_bind_iff]
    simp only [yields_checkUser_iff, List.forall_mem_cons, and_assoc]
    constructor
    · rintro ⟨-, _, hexists, rfl, hrest⟩
      exact ⟨hexists, ih.1 hrest⟩
    · rintro ⟨hexists, hrest⟩
      exact ⟨(), db, hexists, rfl, ih.2 hrest⟩

theorem yields_checkGroups_iff {groups : List GroupId} {u : Unit} :
    (checkGroups groups).Yields [] db u db' ↔
      (∀ group ∈ groups, db.groupExists group = true) ∧ db = db' := by
  induction groups with
  | nil => simp [checkGroups]
  | cons group groups ih =>
    rw [checkGroups, List.forall_mem_cons]
    by_cases hexists : db.groupExists group = true
    · simp [yields_ask_iff, Call.answer, hexists, ih]
    · simp [yields_ask_iff, Call.answer, hexists]

theorem yields_buildDescriptor_iff {target : Target} {users : List UserId} {groups : List GroupId}
    {whisper : Option Descriptor} :
    (buildDescriptor target users groups).Yields [] db whisper db' ↔
      whisper = Descriptor.ofLists? users groups ∧
        (∀ d, whisper = some d → (∃ channel topic, target = .channel channel topic) ∧
          (∀ user ∈ d.users, db.userExists user = true) ∧
          ∀ group ∈ d.groups, db.groupExists group = true) ∧ db = db' := by
  unfold buildDescriptor
  split
  case h_1 hnone =>
    rw [hnone, yields_pure_iff, eq_comm]
    constructor
    · rintro ⟨rfl, rfl⟩
      exact ⟨rfl, nofun, rfl⟩
    · rintro ⟨rfl, -, rfl⟩
      exact ⟨rfl, rfl⟩
  case h_2 recipients d hsome =>
    rw [hsome]
    constructor
    · intro h
      exact absurd h not_yields_throw
    · rintro ⟨rfl, hnamed, -⟩
      obtain ⟨⟨channel, topic, htarget⟩, -⟩ := hnamed d rfl
      cases htarget
  case h_3 channel topic d hsome =>
    rw [hsome]
    simp only [yields_bind_iff, yields_checkRecipients_iff, yields_checkGroups_iff, yields_pure_iff]
    constructor
    · rintro ⟨-, _, ⟨husers, rfl⟩, -, _, ⟨hgroups, rfl⟩, rfl, rfl⟩
      refine ⟨rfl, ?_, rfl⟩
      rintro _ ⟨⟩
      exact ⟨⟨channel, topic, rfl⟩, husers, hgroups⟩
    · rintro ⟨rfl, hnamed, rfl⟩
      obtain ⟨-, husers, hgroups⟩ := hnamed d rfl
      exact ⟨(), db, ⟨husers, rfl⟩, (), db, ⟨hgroups, rfl⟩, rfl, rfl⟩

theorem yields_trimmed_iff {s t : String} {limit : Nat} {tooShort tooLong : MessageFault} :
    (trimmed s limit tooShort tooLong).Yields [] db t db' ↔
      t = Blank.trim s ∧ fits s limit ∧ db = db' := by
  unfold trimmed fits
  simp only
  split
  · simp [*]
  · split
    · simp [*]
    · rename_i hnonempty hshort
      rw [yields_pure_iff, eq_comm]
      simp only [Bool.not_eq_true] at hnonempty
      simp [hnonempty, Nat.le_of_not_lt hshort]

theorem yields_checkChannel_iff {channel : ChannelId} {u : Unit} :
    (checkChannel channel sender).Yields [] db u db' ↔
      db.channelExists channel = true ∧ db.isSubscribed channel sender = true ∧ db = db' := by
  unfold checkChannel
  rcases hexists : db.channelExists channel with _ | _
  · simp [yields_ask_iff, Call.answer, hexists]
  · rcases hsubscribed : db.isSubscribed channel sender with _ | _
    · simp [yields_ask_iff, Call.answer, hexists, hsubscribed]
    · simp [yields_ask_iff, Call.answer, hexists, hsubscribed]

theorem yields_place_iff {target : Target} {p : Option (ChannelId × String)} :
    (place target sender).Yields [] db p db' ↔
      p = target.place? ∧ db.AdmitsTarget sender target ∧ db = db' := by
  unfold place Target.place? Database.AdmitsTarget
  cases target with
  | channel channel topic =>
    simp only [yields_bind_iff, yields_trimmed_iff, yields_checkChannel_iff, yields_pure_iff]
    constructor
    · rintro ⟨_, _, ⟨rfl, htopic, rfl⟩, -, _, ⟨hexists, hsubscribed, rfl⟩, rfl, rfl⟩
      exact ⟨rfl, ⟨htopic, hexists, hsubscribed⟩, rfl⟩
    · rintro ⟨rfl, ⟨htopic, hexists, hsubscribed⟩, rfl⟩
      exact ⟨_, db, ⟨rfl, htopic, rfl⟩, (), db, ⟨hexists, hsubscribed, rfl⟩, rfl, rfl⟩
  | direct recipients =>
    cases recipients with
    | nil => simp
    | cons user users =>
      simp only [yields_checkRecipients_iff, yields_bind_iff, yields_pure_iff, List.isEmpty_cons,
        Bool.false_eq_true, if_false]
      constructor
      · rintro ⟨-, _, ⟨hexist, rfl⟩, rfl, rfl⟩
        exact ⟨rfl, ⟨List.cons_ne_nil _ _, hexist⟩, rfl⟩
      · rintro ⟨rfl, ⟨-, hexist⟩, rfl⟩
        exact ⟨(), db, ⟨hexist, rfl⟩, rfl, rfl⟩

theorem yields_addMembers_iff {audience result : IdentSet .user} {groups : List GroupId} :
    (addMembers audience groups).Yields [] db result db' ↔
      result = groups.foldl (fun audience group ↦ audience.union (db.groupMembers group)) audience ∧
        db = db' := by
  induction groups generalizing audience with
  | nil =>
    rw [addMembers, yields_pure_iff, List.foldl_nil, eq_comm]
  | cons group groups ih =>
    rw [addMembers, yields_bind_iff, List.foldl_cons]
    simp [yields_ask_iff, Call.answer, ih]

theorem yields_computeAudience_iff {target : Target} {whisper : Option Descriptor}
    {audience : IdentSet .user} :
    (computeAudience sender target whisper).Yields [] db audience db' ↔
      audience = db.audienceOf sender target whisper ∧ db = db' := by
  unfold computeAudience Database.audienceOf
  cases whisper with
  | some d => exact yields_addMembers_iff
  | none =>
    cases target with
    | channel channel topic =>
      simp [yields_ask_iff, Call.answer, eq_comm, and_comm]
    | direct recipients =>
      rw [yields_pure_iff, eq_comm]

theorem within_checkUser (user : UserId) (cause : WhisperError) :
    Within (·.isQuestion = true) (·.isBreakdown = false) (checkUser user cause) := by
  refine Within.bind (within_ask rfl) ?_
  intro found
  split
  · exact within_throw rfl
  · exact within_pure _

theorem within_checkRecipients (users : List UserId) :
    Within (·.isQuestion = true) (·.isBreakdown = false) (checkRecipients users) := by
  induction users with
  | nil => exact within_pure _
  | cons user users ih => exact (within_checkUser user _).bind fun _ ↦ ih

theorem within_checkGroups (groups : List GroupId) :
    Within (·.isQuestion = true) (·.isBreakdown = false) (checkGroups groups) := by
  induction groups with
  | nil => exact within_pure _
  | cons group groups ih =>
    refine Within.bind (within_ask rfl) ?_
    intro found
    split
    · refine Within.bind ?_ fun _ ↦ ih
      exact within_throw rfl
    · exact ih

theorem within_buildDescriptor (target : Target) (users : List UserId) (groups : List GroupId) :
    Within (·.isQuestion = true) (·.isBreakdown = false) (buildDescriptor target users groups) := by
  unfold buildDescriptor
  split
  · exact within_pure _
  · exact within_throw rfl
  · apply (within_checkRecipients _).bind
    intro _
    exact (within_checkGroups _).bind fun _ ↦ within_pure _

theorem within_trimmed (s : String) (limit : Nat) (tooShort tooLong : MessageFault) :
    Within (·.isQuestion = true) (·.isBreakdown = false) (trimmed s limit tooShort tooLong) := by
  unfold trimmed
  simp only
  split
  · exact within_throw rfl
  · split
    · exact within_throw rfl
    · exact within_pure _

theorem within_checkChannel (channel : ChannelId) (sender : UserId) :
    Within (·.isQuestion = true) (·.isBreakdown = false) (checkChannel channel sender) := by
  have hsubscribed : Within (·.isQuestion = true) (·.isBreakdown = false) (do
      let subscribed ← ask (.isChannelSubscriber channel sender)
      if !subscribed then Work.throw (.notSubscribed channel)) := by
    refine Within.bind (within_ask rfl) ?_
    intro subscribed
    split
    · exact within_throw rfl
    · exact within_pure _
  refine Within.bind (within_ask rfl) ?_
  intro found
  split
  · refine Within.bind ?_ fun _ ↦ hsubscribed
    exact within_throw rfl
  · exact hsubscribed

theorem within_place (target : Target) (sender : UserId) :
    Within (·.isQuestion = true) (·.isBreakdown = false) (place target sender) := by
  unfold place
  cases target with
  | channel channel topic =>
    apply (within_trimmed _ _ _ _).bind
    intro _
    exact (within_checkChannel _ _).bind fun _ ↦ within_pure _
  | direct recipients =>
    have hrest := (within_checkRecipients recipients).bind fun _ ↦
      within_pure (none : Option (ChannelId × String))
    simp only
    split
    · refine Within.bind ?_ fun _ ↦ hrest
      exact within_throw rfl
    · exact hrest

theorem within_addMembers (audience : IdentSet .user) (groups : List GroupId) :
    Within (·.isQuestion = true) (·.isBreakdown = false) (addMembers audience groups) := by
  induction groups generalizing audience with
  | nil => exact within_pure _
  | cons group groups ih =>
    refine Within.bind (within_ask rfl) ?_
    intro members
    exact ih _

theorem within_computeAudience (sender : UserId) (target : Target) (whisper : Option Descriptor) :
    Within (·.isQuestion = true) (·.isBreakdown = false)
      (computeAudience sender target whisper) := by
  unfold computeAudience
  simp only
  split
  · exact within_addMembers _ _
  · refine Within.bind (within_ask rfl) ?_
    exact fun _ ↦ within_pure _
  · exact within_pure _

/-! ## Before anything is written -/

/-- All that a send does before it writes its message: the draft, and the audience. -/
def prepare (now : ClockReading) (sender : UserId) (request : SendRequest) :
    Work (Draft × IdentSet .user) := do
  checkUser sender (.unknownSender sender)
  let whisper ← buildDescriptor request.target request.whisperUsers request.whisperGroups
  let content ← trimmed request.content maxContentLength .noContent .longContent
  let place ← place request.target sender
  let audience ← computeAudience sender request.target whisper
  return (
    { sender, channel := place.map Prod.fst, topic := place.map Prod.snd, content,
      sentAt := now.toInstant, whisper }, audience)

theorem send_eq (now : ClockReading) (sender : UserId) (request : SendRequest) :
    send now sender request = (do
      let p ← prepare now sender request
      let message ← ask (.insertMessage p.1 p.2)
      return { message, audience := p.2 }) := by
  simp only [send, prepare, bind_assoc, pure_bind]

/-- What is to be written is worked out just when all checks pass, and nothing is written yet. -/
theorem yields_prepare_iff {now : ClockReading} {request : SendRequest}
    {p : Draft × IdentSet .user} :
    (prepare now sender request).Yields [] db p db' ↔
      db.Admits sender request ∧ p.1 = request.draft now sender ∧
        p.2 = db.audienceOf sender request.target request.descriptor? ∧ db = db' := by
  unfold prepare
  simp only [yields_bind_iff, yields_checkUser_iff, yields_buildDescriptor_iff,
    yields_trimmed_iff, yields_place_iff, yields_computeAudience_iff, yields_pure_iff]
  constructor
  · rintro ⟨-, _, ⟨hsender, rfl⟩, _, _, ⟨rfl, hnamed, rfl⟩, _, _, ⟨rfl, hcontent, rfl⟩,
      _, _, ⟨rfl, htarget, rfl⟩, _, _, ⟨rfl, rfl⟩, rfl, rfl⟩
    exact ⟨⟨hsender, hnamed, hcontent, htarget⟩, rfl, rfl, rfl⟩
  · rintro ⟨⟨hsender, hnamed, hcontent, htarget⟩, hdraft, haudience, rfl⟩
    refine ⟨(), db, ⟨hsender, rfl⟩, _, db, ⟨rfl, hnamed, rfl⟩, _, db, ⟨rfl, hcontent, rfl⟩,
      _, db, ⟨rfl, htarget, rfl⟩, _, db, ⟨rfl, rfl⟩, ?_, rfl⟩
    exact Prod.ext hdraft.symm haudience.symm

theorem within_prepare (now : ClockReading) (sender : UserId) (request : SendRequest) :
    Within (·.isQuestion = true) (·.isBreakdown = false) (prepare now sender request) := by
  apply (within_checkUser _ _).bind
  intro _
  apply (within_buildDescriptor _ _ _).bind
  intro _
  apply (within_trimmed _ _ _ _).bind
  intro _
  apply (within_place _ _).bind
  intro _
  apply (within_computeAudience _ _ _).bind
  exact fun _ ↦ within_pure _

end Send

variable {db db' : Database} {now : ClockReading} {sender : UserId} {request : SendRequest}
  {sent : Sent}

/-- A send ends well just when it passes its checks and its message can be written. -/
theorem yields_send_iff :
    (send now sender request).Yields [] db sent db' ↔
      db.Admits sender request ∧
        sent.audience = db.audienceOf sender request.target request.descriptor? ∧
        db.insertMessage (request.draft now sender) sent.audience = (.ok sent.message, db') := by
  rw [Send.send_eq]
  simp only [yields_bind_iff, Send.yields_prepare_iff, yields_pure_iff]
  constructor
  · rintro ⟨⟨_, _⟩, _, ⟨hadmits, rfl, rfl, rfl⟩, message, _, hinsert, rfl, rfl⟩
    exact ⟨hadmits, rfl, (yields_ask_iff.1 hinsert).2⟩
  · rintro ⟨hadmits, haudience, hinsert⟩
    exact ⟨(request.draft now sender, sent.audience), db, ⟨hadmits, rfl, haudience, rfl⟩,
      sent.message, db', yields_ask_iff.2 ⟨List.not_mem_nil, hinsert⟩, rfl, rfl⟩

/-- A send never asks for more memory than there is. -/
theorem within_send (now : ClockReading) (sender : UserId) (request : SendRequest) :
    Within (fun _ ↦ True) (·.isBreakdown = false) (send now sender request) := by
  rw [Send.send_eq]
  apply ((Send.within_prepare now sender request).mono (fun _ _ ↦ trivial) fun _ ↦ id).bind
  intro _
  refine Within.bind (within_ask trivial) ?_
  exact fun _ ↦ within_pure _

/-! ## What has become of the tables -/

/-- What a send that ends well does to the database. -/
structure Database.Sends (db : Database) (now : ClockReading) (sender : UserId)
    (request : SendRequest) (sent : Sent) (db' : Database) : Prop where
  admits : db.Admits sender request
  nextId : db.messages.nextId? = some sent.message.id
  draft : sent.message.toDraft = request.draft now sender
  audience : sent.audience = db.audienceOf sender request.target request.descriptor?
  database : db' = db.withMessage sent.message.id sent.message.toDraft sent.audience

theorem sends_of_yields {faults : List Method}
    (h : (send now sender request).Yields faults db sent db') :
    db.Sends now sender request sent db' := by
  obtain ⟨hadmits, haudience, hinsert⟩ := yields_send_iff.1 h.of_faults
  obtain ⟨id, hid, hmessage, hdatabase⟩ := Database.insertMessage_ok hinsert
  refine ⟨hadmits, ?_, ?_, haudience, ?_⟩
  · rw [hmessage]
    exact hid
  · rw [hmessage]
  · rw [hmessage]
    exact hdatabase

namespace Database.Sends

theorem rows_eq (h : db.Sends now sender request sent db') :
    db'.messages.rows =
      db.messages.rows ++ [.ofDraft sent.message.id sent.message.toDraft] := by
  rw [h.database]
  exact rows_withMessage h.nextId

theorem isRegular (h : db.Sends now sender request sent db') : sent.message.sentAt.IsRegular := by
  rw [h.draft]
  exact now.isRegular

theorem decode_row (h : db.Sends now sender request sent db') :
    (MessageRow.ofDraft sent.message.id sent.message.toDraft).decode = .ok sent.message := by
  rw [MessageRow.decode_ofMessage, Message.settled_of_isRegular h.isRegular]

theorem mem_stored_message (h : db.Sends now sender request sent db') :
    sent.message ∈ db'.stored := by
  rw [mem_stored, h.rows_eq]
  exact ⟨_, by simp, h.decode_row⟩

theorem mem_visibility_iff (h : db.Sends now sender request sent db') {message : MessageId}
    {user : UserId} :
    (message, user) ∈ db'.visibility ↔
      (message, user) ∈ db.visibility ∨ message = sent.message.id ∧ user ∈ sent.audience := by
  rw [h.database, withMessage, List.mem_append, List.mem_map]
  simp only [withoutRow, List.mem_filter, Bool.not_eq_true', Bool.eq_false_iff, ne_eq,
    Database.hasVisibilityRow_iff, Prod.mk.injEq, ← IdentSet.mem_def]
  constructor
  · rintro (hold | ⟨_, ⟨huser, -⟩, rfl, rfl⟩)
    · exact .inl hold
    · exact .inr ⟨rfl, huser⟩
  · rintro (hold | ⟨rfl, huser⟩)
    · exact .inl hold
    · by_cases hrow : (sent.message.id, user) ∈ db.visibility
      · exact .inl hrow
      · exact .inr ⟨user, ⟨huser, hrow⟩, rfl, rfl⟩

theorem hasVisibilityRow_iff (h : db.Sends now sender request sent db') (hsound : db.IndexIsSound)
    (user : UserId) :
    db'.hasVisibilityRow sent.message.id user = true ↔ user ∈ sent.audience := by
  rw [Database.hasVisibilityRow_iff, h.mem_visibility_iff]
  simp [notMem_visibility_nextId hsound h.nextId user]

/-- Where the index is sound, it gains one row for each user of the audience. -/
theorem visibility_eq (h : db.Sends now sender request sent db') (hsound : db.IndexIsSound) :
    db'.visibility =
      db.visibility ++ sent.audience.toList.map fun user ↦ (sent.message.id, user) := by
  rw [h.database, withMessage, withoutRow_nextId hsound h.nextId]

/-- The index has as many rows of the message as there are users in its audience. -/
theorem visibilityRowCount_eq (h : db.Sends now sender request sent db')
    (hsound : db.IndexIsSound) :
    db'.visibilityRowCount sent.message.id = sent.audience.size := by
  have hold : db.visibility.countP (fun row ↦ row.1 = sent.message.id) = 0 := by
    rw [List.countP_eq_zero]
    rintro ⟨message, user⟩ hrow
    simp only [decide_eq_true_eq]
    rintro rfl
    exact notMem_visibility_nextId hsound h.nextId user hrow
  have hnew : (sent.audience.toList.map fun user ↦ (sent.message.id, user)).countP
      (fun row ↦ row.1 = sent.message.id) = sent.audience.size := by
    rw [List.countP_map, IdentSet.size, List.countP_eq_length]
    intro user _
    simp
  calc
    db'.visibilityRowCount sent.message.id =
        db.visibility.countP (fun row ↦ row.1 = sent.message.id) +
          (sent.audience.toList.map fun user ↦ (sent.message.id, user)).countP
            (fun row ↦ row.1 = sent.message.id) := by
      rw [visibilityRowCount, h.visibility_eq hsound, List.countP_append]
    _ = sent.audience.size := by rw [hold, hnew, Nat.zero_add]

/-- Right after a send, its message is granted to its audience and to nobody else. -/
theorem grants_iff (h : db.Sends now sender request sent db') (hsound : db.IndexIsSound)
    (user : UserId) : db'.grants user sent.message = true ↔ user ∈ sent.audience := by
  have hwhisper : sent.message.whisper = request.descriptor? := congrArg Draft.whisper h.draft
  have hchannel : sent.message.channel = request.target.place?.map Prod.fst :=
    congrArg Draft.channel h.draft
  have hmembers : db'.members = db.members := by rw [h.database, withMessage]
  have hsubscribed : ∀ channel, db'.isSubscribed channel user = db.isSubscribed channel user := by
    intro channel
    rw [h.database]
    rfl
  cases hd : request.descriptor? with
  | some d =>
    -- The members of the groups were put into the audience when it was worked out.
    rw [grants_whisper_iff (hwhisper.trans hd), h.hasVisibilityRow_iff hsound, hmembers,
      h.audience, hd, mem_audienceOf_whisper]
    tauto
  | none =>
    rw [hd] at hwhisper
    have haudience := h.audience
    have htarget := h.admits.target_admits
    rw [hd] at haudience
    cases ht : request.target with
    | channel channel topic =>
      rw [ht] at hchannel haudience htarget
      -- The sender, who is always in the audience, was checked to be subscribed.
      rw [grants_ordinary hwhisper hchannel, hsubscribed, haudience, mem_audienceOf_channel,
        iff_or_self]
      rintro rfl
      exact htarget.2.2
    | direct recipients =>
      rw [ht] at hchannel
      rw [grants_direct hwhisper hchannel, h.hasVisibilityRow_iff hsound]

theorem get_eq (h : db.Sends now sender request sent db') (hsound : db.IndexIsSound)
    (user : UserId) :
    db'.get user sent.message.id =
      if user ∈ sent.audience then .ok sent.message else .error (.error .notVisible) := by
  rw [Database.get_eq, messageById_eq_some_iff.2 ⟨h.mem_stored_message, rfl⟩]
  simp only [h.grants_iff hsound]

end Database.Sends

end WhisperChat
