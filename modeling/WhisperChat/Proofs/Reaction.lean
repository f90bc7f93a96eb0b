import WhisperChat.Gateway.Connection
import WhisperChat.Proofs.FanOut

/-!
# What a connection makes of its signals

A connection and those who use the dispatcher besides it see little of each other.  What others do
leaves its mailbox open or closed and puts events behind those that wait there
(`Dispatcher.ChangesFor`); what it makes of a signal are changes for itself alone
(`Connection.Reacts.exists_changes`), which leave all other connections as they are
(`Dispatcher.AgreesBut`).  A signal that a connection reacts to does one of ten things, which are
listed once (`Connection.Reacts`).
-/

namespace WhisperChat

namespace Dispatcher

variable {d d' : Dispatcher} {c c' : ConnectionId} {user : UserId} {event : Event}
  {owners : List UserId}

/-! ## What others do to a connection -/

/-- Whether a change is one that only the receiver of the connection's events makes. -/
def Change.isOf (c : ConnectionId) : Change → Bool
  | .close c' => c' = c
  | .take c' => c' = c
  | _ => false

/-- Whether a change is one that a connection of the user makes for itself. -/
def Change.isBy (user : UserId) (c : ConnectionId) (change : Change) : Prop :=
  change.isOf c = true ∨ change = .unregister user c

theorem exists_queue_foldl_push (d : Dispatcher) (event : Event) (cs : List ConnectionId)
    (c : ConnectionId) :
    ∃ more, (cs.foldl (push event) d).queue c = d.queue c ++ more ∧
      (d.isOpen c = false ∨ c ∉ cs → more = []) := by
  induction cs generalizing d with
  | nil => exact ⟨[], by simp⟩
  | cons first cs ih =>
    obtain ⟨more, hqueue, hnone⟩ := ih (d.push event first)
    refine ⟨(if first = c ∧ d.isOpen first = true then [event] else []) ++ more, ?_, ?_⟩
    · rw [List.foldl_cons, hqueue, queue_push, List.append_assoc]
    · rw [isOpen_push] at hnone
      grind

/-- What a connection of the user can see of a change that others make: its mailbox stays open or
closed, events come behind those that wait, and if it is closed or not on the register there are
none and it does not get on the register. -/
structure ChangesFor (d d' : Dispatcher) (user : UserId) (c : ConnectionId) : Prop where
  isOpen : d'.isOpen c = d.isOpen c
  queue : d.queue c <+: d'.queue c
  quiet : d.isOpen c = false ∨ c ∉ d.connections user → d'.queue c = d.queue c
  registered : c ∈ d'.connections user → c ∈ d.connections user

theorem queue_of_mailbox? (hmailbox : d'.mailbox? c = d.mailbox? c) : d'.queue c = d.queue c := by
  rw [queue, hmailbox, queue]

theorem ChangesFor.of_mailbox? (hmailbox : d'.mailbox? c = d.mailbox? c)
    (hregistered : c ∈ d'.connections user → c ∈ d.connections user) : d.ChangesFor d' user c where
  isOpen := by rw [Dispatcher.isOpen, hmailbox, Dispatcher.isOpen]
  queue := queue_of_mailbox? hmailbox ▸ List.prefix_rfl
  quiet := fun _ ↦ queue_of_mailbox? hmailbox
  registered := hregistered

theorem IsOwnedBy.changesFor_deliver (h : d.IsOwnedBy owners)
    (howner : owners[c.index]? = some user) (audience : List UserId) (event : Event) :
    d.ChangesFor (d.deliver audience event).dispatcher user c := by
  rw [dispatcher_deliver]
  obtain ⟨more, hqueue, hnone⟩ :=
    exists_queue_foldl_push d event (audience.flatMap d.connections) c
  refine ⟨isOpen_foldl_push _, hqueue ▸ List.prefix_append _ _, ?_, ?_⟩
  · intro hquiet
    rw [hqueue, hnone (hquiet.imp_right ?_), List.append_nil]
    intro hother hmem
    obtain ⟨other, -, hc⟩ := List.mem_flatMap.1 hmem
    obtain rfl : other = user := Option.some.inj ((h.owner_eq hc).symm.trans howner)
    exact hother hc
  · rw [connections, clients_foldl_push]
    exact id

theorem mailbox?_register (hc : c.index < d.mailboxes.length) :
    (d.register user).2.mailbox? c = d.mailbox? c := List.getElem?_append_left hc

theorem IsOwnedBy.changesFor_apply (h : d.IsOwnedBy owners) (hmap : d.IsMap)
    (howner : owners[c.index]? = some user) {change : Change} (hchange : change.isOf c = false) :
    d.ChangesFor (d.apply change) user c := by
  have hlt : c.index < d.mailboxes.length := h.length ▸ (List.getElem?_eq_some_iff.1 howner).1
  cases change with
  | register other =>
    refine .of_mailbox? (mailbox?_register hlt) ?_
    intro hc
    rw [Dispatcher.apply, connections_register, List.mem_append] at hc
    refine hc.resolve_right fun hnew ↦ ?_
    split at hnew
    · have hindex : c.index = d.mailboxes.length :=
        congrArg ConnectionId.index (List.mem_singleton.1 hnew)
      omega
    · cases hnew
  | unregister other c' =>
    exact .of_mailbox? rfl fun hc ↦ (hmap.mem_connections_unregister_iff.1 hc).1
  | close c' =>
    refine .of_mailbox? ?_ id
    rw [Dispatcher.apply, closeMailbox, mailbox?_modifyMailbox, if_neg (of_decide_eq_false hchange)]
  | take c' =>
    refine .of_mailbox? ?_ fun hc ↦ by rwa [connections, clients_apply_take] at hc
    rw [Dispatcher.apply]
    split
    · rfl
    · rename_i event d' htake
      obtain ⟨queue, rfl⟩ := exists_queue_of_takeFirst? htake
      rw [mailbox?_modifyMailbox, if_neg (of_decide_eq_false hchange)]
  | send audience event => exact h.changesFor_deliver howner audience event
  | fanOut audience event =>
    obtain ⟨-, hqueue, hquiet, -⟩ := h.changesFor_deliver howner audience event
    have hpruned : (d.fanOut audience event).2.queue c =
        (d.deliver audience event).dispatcher.queue c := by
      rw [Dispatcher.queue, mailbox?, Dispatcher.fanOut, mailboxes_prune]
      rfl
    refine ⟨isOpen_fanOut d audience event c, hpruned ▸ hqueue, hpruned ▸ hquiet, ?_⟩
    intro hc
    rw [Dispatcher.apply, hmap.connections_fanOut] at hc
    split at hc
    · exact List.mem_of_mem_filter hc
    · exact hc

theorem IsOwnedBy.isRegistered_iff (h : d.IsOwnedBy owners) (hmap : d.IsMap)
    (howner : owners[c.index]? = some user) :
    d.isRegistered c = true ↔ c ∈ d.connections user := by
  rw [isRegistered, List.any_eq_true, hmap.mem_connections_iff]
  constructor
  · rintro ⟨⟨other, cs⟩, hentry, hc⟩
    rw [List.contains_iff_mem] at hc
    obtain rfl : other = user := Option.some.inj ((h.owner _ hentry c hc).symm.trans howner)
    exact ⟨cs, hentry, hc⟩
  · rintro ⟨cs, hentry, hc⟩
    exact ⟨_, hentry, List.contains_iff_mem.2 hc⟩

theorem takeFirst?_eq_none_iff : d.takeFirst? c = none ↔ d.queue c = [] := by
  rw [takeFirst?, ← queue]
  split
  case h_1 hempty => simp [hempty]
  case h_2 hqueue => simp [hqueue]

/-! ## What a connection does to others -/

/-- All connections but one are on the register as they were, and so are their mailboxes. -/
structure AgreesBut (c : ConnectionId) (d d' : Dispatcher) : Prop where
  mailbox? : ∀ c', c' ≠ c → d'.mailbox? c' = d.mailbox? c'
  connections : ∀ user,
    (d'.connections user).filter (· ≠ c) = (d.connections user).filter (· ≠ c)

namespace AgreesBut

theorem refl (c : ConnectionId) (d : Dispatcher) : AgreesBut c d d := ⟨fun _ _ ↦ rfl, fun _ ↦ rfl⟩

theorem trans {d'' : Dispatcher} (h : AgreesBut c d d') (h' : AgreesBut c d' d'') :
    AgreesBut c d d'' where
  mailbox? := fun c' hc' ↦ (h'.mailbox? c' hc').trans (h.mailbox? c' hc')
  connections := fun user ↦ (h'.connections user).trans (h.connections user)

theorem modifyMailbox (d : Dispatcher) (c : ConnectionId) (f : Mailbox → Mailbox) :
    AgreesBut c d (d.modifyMailbox c f) := by
  refine ⟨fun c' hc' ↦ ?_, fun _ ↦ rfl⟩
  rw [mailbox?_modifyMailbox, if_neg (Ne.symm hc')]

theorem unregister (h : d.IsMap) (user : UserId) (c : ConnectionId) :
    AgreesBut c d (d.unregister user c) := by
  refine ⟨fun _ _ ↦ rfl, fun other ↦ ?_⟩
  rw [h.connections_unregister, List.filter_filter]
  apply List.filter_congr
  intro c' _
  by_cases hsame : c' = c <;> simp [hsame]

theorem apply (hmap : d.IsMap) {change : Change} (hchange : change.isBy user c) :
    AgreesBut c d (d.apply change) := by
  rcases hchange with hown | rfl
  · cases change with
    | close c' =>
      obtain rfl : c' = c := of_decide_eq_true hown
      exact modifyMailbox d c' _
    | take c' =>
      obtain rfl : c' = c := of_decide_eq_true hown
      rw [Dispatcher.apply]
      split
      · exact refl c' d
      · rename_i event d' htake
        obtain ⟨queue, rfl⟩ := exists_queue_of_takeFirst? htake
        exact modifyMailbox d c' _
    | _ => cases hown
  · exact unregister hmap user c

theorem foldl_apply (hmap : d.IsMap) {changes : List Change}
    (hchanges : ∀ change ∈ changes, change.isBy user c) :
    AgreesBut c d (changes.foldl Dispatcher.apply d) := by
  induction changes generalizing d with
  | nil => exact refl c d
  | cons change changes ih =>
    rw [List.forall_mem_cons] at hchanges
    exact (apply hmap hchanges.1).trans (ih (hmap.apply change) hchanges.2)

theorem register (d : Dispatcher) (user : UserId) :
    AgreesBut (d.register user).1 d (d.register user).2 := by
  refine ⟨fun c' hc' ↦ ?_, fun other ↦ ?_⟩
  · have hindex : c'.index ≠ d.mailboxes.length := fun heq ↦ hc' (congrArg ConnectionId.mk heq)
    rw [Dispatcher.mailbox?, Dispatcher.register, List.getElem?_append]
    split
    · rfl
    · rw [List.getElem?_eq_none (by simp; omega), Dispatcher.mailbox?,
        List.getElem?_eq_none (by omega)]
  · rw [connections_register, List.filter_append]
    split <;> simp

end AgreesBut

end Dispatcher

/-! ## Stages -/

def Stage.isWriting : Stage → Bool
  | .greeting => true
  | .relaying _ writing _ => writing
  | _ => false

/-- Whether what is put into the mailbox is still to be relayed. -/
def Stage.isLive : Stage → Bool
  | .greeting | .relaying _ _ _ => true
  | _ => false

/-- Whether the connection goes on unless something happens. -/
def Stage.isServing : Stage → Bool
  | .greeting | .relaying _ _ .listening => true
  | _ => false

@[simp]
theorem Stage.hasLeft_relaying (beat : Heartbeat) (writing : Bool) (attention : Attention) :
    (Stage.relaying beat writing attention).hasLeft = decide (attention = .left) := by
  cases attention <;> rfl

@[simp]
theorem Stage.isServing_relaying (beat : Heartbeat) (writing : Bool) (attention : Attention) :
    (Stage.relaying beat writing attention).isServing = decide (attention = .listening) := by
  cases attention <;> rfl

namespace Connection

variable {c : Connection} {d : Dispatcher} {signal : Signal} {r : Reaction}

/-! ## Reactions -/

/-- What stops the relay of a connection. -/
inductive Stops (c : Connection) (d : Dispatcher) (beat : Heartbeat) :
    (writing : Bool) → Attention → Signal → Prop where
  | writeFailed {attention} : Stops c d beat true attention .writeFailed
  | givenUp {attention} (htick : beat.tick? = none) : Stops c d beat false attention .tick
  | drained {attention} (hempty : d.queue c.id = [])
    (hregistered : d.isRegistered c.id = false) : Stops c d beat false attention .mail
  | told {writing attention} (hattention : attention ≠ .listening) :
    Stops c d beat writing attention .stop

/-- What a signal can make of a connection. -/
inductive Reacts (c : Connection) (d : Dispatcher) : Signal → Reaction → Prop where
  | greeted (hstage : c.stage = .greeting) :
    Reacts c d .written (c.goOn d (.relaying {} false .listening) none)
  | unheard (hstage : c.stage = .greeting) : Reacts c d .writeFailed (c.goOn d .stopped none)
  | flushed {beat attention} (hstage : c.stage = .relaying beat true attention) :
    Reacts c d .written (c.goOn d (.relaying beat false attention) none)
  | asks {beat next attention} (hstage : c.stage = .relaying beat false attention)
    (htick : beat.tick? = some next) :
    Reacts c d .tick (c.goOn d (.relaying next true attention) (some .ping))
  | relays {beat attention event d'} (hstage : c.stage = .relaying beat false attention)
    (htake : d.takeFirst? c.id = some (event, d')) :
    Reacts c d .mail (c.goOn d' (.relaying beat true attention) (some (.event event)))
  | hears {beat writing} (frame : ClientFrame)
    (hstage : c.stage = .relaying beat writing .listening) :
    Reacts c d (.inbound frame) (c.receive d beat writing frame)
  | deafens {beat writing} (hstage : c.stage = .relaying beat writing .listening) :
    Reacts c d .inboundEnd (c.goOn d (.relaying beat writing .leaving) none)
  | stops {beat writing attention signal} (hstage : c.stage = .relaying beat writing attention)
    (hstops : Stops c d beat writing attention signal) : Reacts c d signal (c.stop d attention)
  | leaves {beat writing} (hstage : c.stage = .relaying beat writing .leaving) :
    Reacts c d .leave (c.leave d beat writing)
  | finishes (hstage : c.stage = .stopped) : Reacts c d .leave (c.finish d)

theorem reacts_of_react? (h : c.react? d signal = some r) : Reacts c d signal r := by
  unfold react? at h
  split at h
  case h_1 hstage => cases h; exact .greeted hstage
  case h_2 hstage => cases h; exact .unheard hstage
  case h_3 hstage => cases h; exact .flushed hstage
  case h_4 hstage => cases h; exact .stops hstage .writeFailed
  case h_5 hstage =>
    split at h
    case h_1 next htick => cases h; exact .asks hstage htick
    case h_2 htick => cases h; exact .stops hstage (.givenUp htick)
  case h_6 hstage =>
    split at h
    case h_1 event d' htake => cases h; exact .relays hstage htake
    case h_2 htake =>
      split at h
      case isTrue => cases h
      case isFalse hregistered =>
        cases h
        exact .stops hstage
          (.drained (Dispatcher.takeFirst?_eq_none_iff.1 htake) (Bool.eq_false_iff.2 hregistered))
  case h_7 frame hstage => cases h; exact .hears frame hstage
  case h_8 hstage => cases h; exact .deafens hstage
  case h_9 hstage => cases h; exact .leaves hstage
  case h_10 hstage => cases h; exact .stops hstage (.told (by decide))
  case h_11 hstage => cases h; exact .stops hstage (.told (by decide))
  case h_12 hstage => cases h; exact .finishes hstage
  case h_13 => cases h

theorem Reacts.same (h : Reacts c d signal r) :
    r.connection.user = c.user ∧ r.connection.id = c.id := by
  cases h with
  | hears frame => cases frame <;> exact ⟨rfl, rfl⟩
  | _ => exact ⟨rfl, rfl⟩

/-- What a reaction makes of the dispatcher are changes that the connection makes for itself. -/
theorem Reacts.exists_changes (h : Reacts c d signal r) :
    ∃ changes : List Dispatcher.Change, r.dispatcher = changes.foldl Dispatcher.apply d ∧
      ∀ change ∈ changes, change.isBy c.user c.id := by
  have htakes : Dispatcher.Change.isBy c.user c.id (.take c.id) := .inl (decide_eq_true rfl)
  have hcloses : Dispatcher.Change.isBy c.user c.id (.close c.id) := .inl (decide_eq_true rfl)
  have hleaves : Dispatcher.Change.isBy c.user c.id (.unregister c.user c.id) := .inr rfl
  cases h with
  | greeted | unheard | flushed | asks | deafens => exact ⟨[], rfl, List.forall_mem_nil _⟩
  | hears frame => cases frame <;> exact ⟨[], rfl, List.forall_mem_nil _⟩
  | relays hstage htake =>
    refine ⟨[.take c.id], ?_, List.forall_mem_singleton.2 htakes⟩
    simp only [goOn, List.foldl_cons, List.foldl_nil, Dispatcher.apply, htake]
  | stops => exact ⟨[.close c.id], rfl, List.forall_mem_singleton.2 hcloses⟩
  | leaves => exact ⟨[.unregister c.user c.id], rfl, List.forall_mem_singleton.2 hleaves⟩
  | finishes =>
    exact ⟨[.unregister c.user c.id, .close c.id], rfl,
      List.forall_mem_cons.2 ⟨hleaves, List.forall_mem_singleton.2 hcloses⟩⟩

/-- Other connections do not notice a reaction. -/
theorem Reacts.agreesBut (h : Reacts c d signal r) (hmap : d.IsMap) :
    Dispatcher.AgreesBut c.id d r.dispatcher := by
  obtain ⟨changes, hdispatcher, hchanges⟩ := h.exists_changes
  exact hdispatcher ▸ .foldl_apply hmap hchanges

/-- A connection that does not serve its client any more does not come to serve it again. -/
theorem Reacts.isServing (h : Reacts c d signal r)
    (hserving : r.connection.stage.isServing = true) : c.stage.isServing = true := by
  cases h with
  | greeted hstage | hears _ hstage => rw [hstage]; rfl
  | flushed hstage | asks hstage | relays hstage =>
    rw [hstage]
    simp only [goOn, Stage.isServing_relaying] at hserving ⊢
    exact hserving
  | stops =>
    rw [stop] at hserving
    split at hserving <;> cases hserving
  | unheard | deafens | leaves | finishes => cases hserving

/-- A connection that has left the register does not come back. -/
theorem Reacts.hasLeft (h : Reacts c d signal r) (hleft : c.stage.hasLeft = true) :
    r.connection.stage.hasLeft = true := by
  cases h with
  | greeted hstage | unheard hstage | deafens hstage | leaves hstage | finishes hstage
  | hears _ hstage =>
    rw [hstage] at hleft
    cases hleft
  | flushed hstage | asks hstage | relays hstage =>
    rw [hstage] at hleft
    simp only [goOn, Stage.hasLeft_relaying] at hleft ⊢
    exact hleft
  | stops hstage =>
    rw [hstage, Stage.hasLeft_relaying, decide_eq_true_eq] at hleft
    rw [stop, if_pos hleft]
    rfl

/-- Once nothing is relayed any more, nothing is relayed again. -/
theorem Reacts.isLive (h : Reacts c d signal r) (hlive : r.connection.stage.isLive = true) :
    c.stage.isLive = true := by
  cases h with
  | greeted hstage | flushed hstage | asks hstage | relays hstage | hears _ hstage
  | deafens hstage | stops hstage | leaves hstage => rw [hstage]; rfl
  | unheard | finishes => cases hlive

/-- The connection leaves the register before it is over, or has left it. -/
theorem Reacts.gone (h : Reacts c d signal r) (hmap : d.IsMap)
    (hgone : c.stage.hasLeft = true → c.id ∉ d.connections c.user)
    (hleft : r.connection.stage.hasLeft = true) : c.id ∉ r.dispatcher.connections c.user := by
  have hunregister : c.id ∉ (d.unregister c.user c.id).connections c.user := by
    rw [hmap.mem_connections_unregister_iff]
    exact fun hc ↦ hc.2 ⟨rfl, rfl⟩
  cases h with
  | greeted | unheard | deafens => cases hleft
  | hears frame => cases frame <;> cases hleft
  | flushed hstage | asks hstage =>
    rw [hstage] at hgone
    simp only [goOn, Stage.hasLeft_relaying] at hgone hleft
    exact hgone hleft
  | relays hstage htake =>
    obtain ⟨queue, rfl⟩ := Dispatcher.exists_queue_of_takeFirst? htake
    rw [hstage] at hgone
    simp only [goOn, Stage.hasLeft_relaying] at hgone hleft
    exact hgone hleft
  | stops hstage =>
    rw [hstage] at hgone
    simp only [stop, goOn, Stage.hasLeft_relaying] at hgone hleft
    split at hleft
    case isTrue hattention => exact hgone (decide_eq_true hattention)
    case isFalse => cases hleft
  | leaves | finishes => exact hunregister

theorem Reacts.kinds (h : Reacts c d signal r) {frame : ServerFrame}
    (hframe : r.frame = some frame) : frame = .ping ∨ ∃ event, frame = .event event := by
  cases h with
  | asks => exact .inl (Option.some.inj hframe).symm
  | relays => exact .inr ⟨_, (Option.some.inj hframe).symm⟩
  | hears frame => cases frame <;> cases hframe
  | greeted | unheard | flushed | deafens | stops | leaves | finishes => cases hframe

theorem Reacts.ne_over (h : Reacts c d signal r) : c.stage ≠ .over := by
  intro hover
  cases h with
  | greeted hstage | unheard hstage | flushed hstage | asks hstage | relays hstage | hears _ hstage
  | deafens hstage | stops hstage | leaves hstage | finishes hstage =>
    rw [hstage] at hover
    cases hover

theorem Reacts.ne_greeting (h : Reacts c d signal r) : r.connection.stage ≠ .greeting := by
  cases h with
  | hears frame => cases frame <;> exact Stage.noConfusion
  | stops =>
    rw [stop]
    split <;> exact Stage.noConfusion
  | _ => exact Stage.noConfusion

/-- Only ticks ask the client for a sign of life. -/
theorem Reacts.frame_ne_ping (h : Reacts c d signal r) (htick : signal ≠ .tick) :
    r.frame ≠ some .ping := by
  intro hframe
  cases h with
  | asks => exact htick rfl
  | hears frame => cases frame <;> cases hframe
  | _ => cases hframe

/-- A connection that goes on does not touch the register. -/
theorem Reacts.clients_eq (h : Reacts c d signal r)
    (hserving : r.connection.stage.isServing = true) : r.dispatcher.clients = d.clients := by
  cases h with
  | relays _ htake =>
    obtain ⟨queue, rfl⟩ := Dispatcher.exists_queue_of_takeFirst? htake
    rfl
  | hears frame => cases frame <;> rfl
  | leaves | finishes => cases hserving
  | _ => rfl

/-- The reaction after which nothing is relayed writes nothing. -/
theorem Reacts.frame_of_isLive (h : Reacts c d signal r)
    (hlive : r.connection.stage.isLive = false) : r.frame = none ∧ signal ≠ .written := by
  cases h with
  | unheard | finishes => exact ⟨rfl, Signal.noConfusion⟩
  | stops _ hstops => exact ⟨rfl, by cases hstops <;> exact Signal.noConfusion⟩
  | hears frame => cases frame <;> cases hlive
  | greeted | flushed | asks | relays | deafens | leaves => cases hlive

end Connection

end WhisperChat
