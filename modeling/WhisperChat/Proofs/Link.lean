import WhisperChat.Gateway.Link
import WhisperChat.Proofs.Heartbeat

/-!
# What a client reads

A link gives its connection one signal after the other, so that whatever is done with a link comes
down to labels of a `Relay` (`Link.Session.exists_labels`), and what holds of every relay holds of
the connection of every link.  Between the two lie the pipes: the frames of the relay are those that
the client has read and those that are still to be read (`Link.Follows`).  A client therefore reads
its greeting and then the events that were put into its mailbox, in order
(`Link.Session.reads_in_order`), and it keeps its connection as long as it is never silent
(`Link.Session.serves_until_silent`).
-/

namespace WhisperChat

/-- Whether a frame is the connection's own.  The answers to a client's pings are not. -/
def ServerFrame.isRelayed : ServerFrame → Bool
  | .pong _ => false
  | _ => true

/-- Whether the signal does not end the connection from outside. -/
def Signal.isCalm : Signal → Bool
  | .writeFailed | .inboundEnd | .inbound .close => false
  | _ => true

namespace Relay

def Label.change? : Label → Option Dispatcher.Change
  | .change made => some made
  | .signal _ => none

theorem Label.isCalm_signal (user : UserId) (c : ConnectionId) (s : Signal) :
    (Label.signal s).isCalm user c = s.isCalm := by
  cases s with
  | inbound frame => cases frame <;> rfl
  | _ => rfl

variable (σ : Relay) (signals signals' : List Signal)

/-- The relay after signals of its connection, with no change by others in between. -/
def receiveAll : Relay := (signals.map Label.signal).foldl Relay.step σ

theorem receiveAll_append :
    σ.receiveAll (signals ++ signals') = (σ.receiveAll signals).receiveAll signals' := by
  rw [receiveAll, List.map_append, List.foldl_append, receiveAll, receiveAll]

/-- There is no event in the frames that are not the connection's own. -/
theorem texts_filter_isRelayed (frames : List ServerFrame) :
    texts (frames.filter ServerFrame.isRelayed) = texts frames := by
  induction frames with
  | nil => rfl
  | cons frame frames ih =>
    cases frame with
    | event e => exact congrArg (e :: ·) ih
    | ping | pong payload => exact ih

theorem filterMap_change?_signals :
    (signals.map Label.signal).filterMap Label.change? = [] := by
  rw [List.filterMap_map]
  exact List.filterMap_eq_nil_iff.2 fun _ _ ↦ rfl

end Relay

namespace Link

variable {given : List ServerFrame} {l l' : Link} {σ : Relay} {d' : Dispatcher} {s : Signal}

def unread (l : Link) : List ServerFrame :=
  (l.toClient.frames.map Prod.fst).filter ServerFrame.isRelayed

/-- The link has the connection of the relay, whose frames the client has read or is to read.  The
last of them may be lost when the connection is over. -/
structure Follows (given : List ServerFrame) (l : Link) (σ : Relay) : Prop where
  connection : l.connection = σ.connection
  frames : given ++ l.unread <+: σ.frames
  whole : l.isOver = false → given ++ l.unread = σ.frames

/-- Nothing ends the connection from outside: the client is there, and what it has sent is no close
and keeps to the rules. -/
structure IsCalm (l : Link) : Prop where
  present : l.cut = false
  frames : ∀ entry ∈ l.toServer.frames, entry.1.isSound = true ∧ entry.1 ≠ .close

/-! ## Moves -/

theorem Follows.congr (h : Follows given l σ) (hconnection : l'.connection = l.connection)
    (hunread : l'.unread = l.unread) : Follows given l' σ where
  connection := hconnection.trans h.connection
  frames := hunread ▸ h.frames
  whole hover := by
    rw [hunread]
    exact h.whole (by rwa [isOver, hconnection] at hover)

theorem unread_write (l : Link) (frame : ServerFrame) (size : Nat) :
    unread { l with toClient := l.toClient.write frame size } =
      l.unread ++ [frame].filter ServerFrame.isRelayed := by
  simp only [unread, Pipe.frames_write, List.map_append, List.filter_append, List.map_cons,
    List.map_nil]

/-- The frame of a reaction comes behind those that are to be read, some of which are lost when the
connection is over. -/
theorem unread_afterReaction (l : Link) {c : Connection} {d : Dispatcher} {r : Connection.Reaction}
    (hr : c.Reacts d s r) :
    (l.afterReaction r).unread <+: l.unread ++ r.frame.toList ∧
      (r.connection.stage ≠ .over → (l.afterReaction r).unread = l.unread ++ r.frame.toList) := by
  -- What the pipe holds once the frame has been written, and what becomes of it.
  obtain ⟨p, hunread, hpipe⟩ : ∃ p : Pipe ServerFrame,
      (p.frames.map Prod.fst).filter ServerFrame.isRelayed = l.unread ++ r.frame.toList ∧
        (l.afterReaction r).toClient = if r.connection.stage = .over then p.sever else p := by
    cases hframe : r.frame with
    | none => exact ⟨l.toClient, (List.append_nil _).symm, by rw [afterReaction, hframe]⟩
    | some frame =>
      have hrelayed : frame.isRelayed = true := by
        rcases hr.kinds hframe with rfl | ⟨event, rfl⟩ <;> rfl
      refine ⟨l.toClient.write frame frame.size, ?_, by rw [afterReaction, hframe]⟩
      refine (l.unread_write frame frame.size).trans ?_
      rw [Option.toList_some, List.filter_singleton, hrelayed, cond_true]
  rw [← hunread, unread, hpipe]
  constructor
  · split
    · exact ((Pipe.fitting_prefix _ _).map Prod.fst).filter _
    · exact List.prefix_rfl
  · intro hover
    rw [if_neg hover]

/-- What a signal makes of a link it makes of its relay. -/
theorem Follows.signal (h : Follows given l σ) (hs : l.signal? σ.dispatcher s = some (l', d')) :
    Follows given l' (σ.step (.signal s)) ∧ (σ.step (.signal s)).dispatcher = d' ∧
      l'.toServer = l.toServer ∧ l'.cut = l.cut := by
  obtain ⟨r, hr, hpair⟩ := Option.map_eq_some_iff.1 hs
  rw [h.connection] at hr
  obtain ⟨rfl, rfl⟩ := Prod.mk.inj hpair
  have hreacts := Connection.reacts_of_react? hr
  have hover : l.isOver = false := by
    rw [isOver, h.connection, decide_eq_false_iff_not]
    exact hreacts.ne_over
  have hframes : (σ.react s r).frames = given ++ (l.unread ++ r.frame.toList) := by
    rw [Relay.frames_react, ← h.whole hover, List.append_assoc]
  obtain ⟨hbegins, hwhole⟩ := l.unread_afterReaction hreacts
  rw [Relay.step_eq_react hr]
  refine ⟨⟨rfl, ?_, ?_⟩, rfl, rfl, rfl⟩
  · rw [hframes]
    exact (List.prefix_append_right_inj given).2 hbegins
  · intro hserving
    rw [hframes, hwhole (of_decide_eq_false hserving)]

/-- Signals bring the relay to where the link and its dispatcher have come, and if all was calm, the
signals are and the link stays so. -/
structure Reaches (given : List ServerFrame) (calm : Prop) (σ : Relay) (signals : List Signal)
    (l : Link) (d : Dispatcher) : Prop where
  follows : Follows given l (σ.receiveAll signals)
  dispatcher : (σ.receiveAll signals).dispatcher = d
  calm : calm → (∀ s ∈ signals, s.isCalm = true) ∧ l.IsCalm

variable {calm : Prop}

theorem Follows.reaches (h : Follows given l σ) (hcalm : calm → l.IsCalm) :
    Reaches given calm σ [] l σ.dispatcher :=
  ⟨h, rfl, fun hc ↦ ⟨List.forall_mem_nil _, hcalm hc⟩⟩

theorem Reaches.of_calm {calm' : Prop} {signals : List Signal} {d : Dispatcher}
    (h : Reaches given calm σ signals l d) (hcalm : calm' → calm) :
    Reaches given calm' σ signals l d := ⟨h.follows, h.dispatcher, fun hc ↦ h.calm (hcalm hc)⟩

theorem Reaches.trans {given' : List ServerFrame} {signals signals' : List Signal} {d : Dispatcher}
    (h : Reaches given calm σ signals l d)
    (h' : Reaches given' l.IsCalm (σ.receiveAll signals) signals' l' d') :
    Reaches given' calm σ (signals ++ signals') l' d' where
  follows := by rw [Relay.receiveAll_append]; exact h'.follows
  dispatcher := by rw [Relay.receiveAll_append]; exact h'.dispatcher
  calm hc := by
    obtain ⟨hsignals, hl⟩ := h.calm hc
    obtain ⟨hsignals', hl'⟩ := h'.calm hl
    exact ⟨List.forall_mem_append.2 ⟨hsignals, hsignals'⟩, hl'⟩

theorem Reaches.isCalm {signals : List Signal} {d : Dispatcher}
    (h : Reaches given calm σ signals l d) (hc : calm) (user : UserId) (c : ConnectionId) :
    (∀ label ∈ signals.map Relay.Label.signal, label.isCalm user c = true) ∧ l.IsCalm := by
  obtain ⟨hsignals, hl⟩ := h.calm hc
  refine ⟨List.forall_mem_map.2 fun s hs ↦ ?_, hl⟩
  rw [Relay.Label.isCalm_signal, hsignals s hs]

theorem Follows.moves (h : Follows given l σ) (hs : l.signal? σ.dispatcher s = some (l', d'))
    (hcalm : calm → s.isCalm = true ∧ l.IsCalm) : Reaches given calm σ [s] l' d' := by
  obtain ⟨hfollows, hdispatcher, hserver, hcut⟩ := h.signal hs
  refine ⟨hfollows, hdispatcher, fun hc ↦ ?_⟩
  obtain ⟨hsignal, hl⟩ := hcalm hc
  exact ⟨List.forall_mem_singleton.2 hsignal, hcut ▸ hl.present, hserver ▸ hl.frames⟩

/-- When the heartbeat ticks next makes no difference to a relay. -/
theorem Follows.moves_nextTick (h : Follows given l σ) {second : Nat}
    (hs : { l with nextTick := second }.signal? σ.dispatcher s = some (l', d'))
    (hsignal : s.isCalm = true) : Reaches given l.IsCalm σ [s] l' d' := by
  have hticked : Follows given { l with nextTick := second } σ := h.congr rfl rfl
  exact hticked.moves hs fun hl ↦ ⟨hsignal, hl.present, hl.frames⟩

/-- A frame of the client is one signal, before which a ping is answered. -/
theorem Follows.inbound (h : Follows given l σ) {frame : ClientFrame}
    (hf : l.inbound? σ.dispatcher frame = some (l', d'))
    (hcalm : calm → (frame.isSound = true ∧ frame ≠ .close) ∧ l.IsCalm) :
    ∃ s, Reaches given calm σ [s] l' d' := by
  unfold inbound? at hf
  split at hf
  case isTrue hunsound =>
    refine ⟨_, h.moves hf fun hc ↦ ?_⟩
    rw [(hcalm hc).1.1] at hunsound
    cases hunsound
  case isFalse =>
    split at hf
    case h_1 payload _ =>
      have hanswered : Follows given { l with
          toClient := l.toClient.write (.pong payload) (ServerFrame.pong payload).size } σ :=
        h.congr rfl (by rw [unread_write]; exact List.append_nil _)
      refine ⟨_, hanswered.moves hf fun hc ↦ ⟨rfl, ?_⟩⟩
      exact ⟨(hcalm hc).2.present, (hcalm hc).2.frames⟩
    case h_2 =>
      refine ⟨_, h.moves hf fun hc ↦ ⟨?_, (hcalm hc).2⟩⟩
      cases frame with
      | close => exact absurd rfl (hcalm hc).1.2
      | _ => rfl

theorem exists_of_read? {α : Type} {p p' : Pipe α} {frame : α}
    (h : p.read? = some (frame, p')) : ∃ size, p.frames = (frame, size) :: p'.frames := by
  unfold Pipe.read? at h
  split at h
  case h_1 => cases h
  case h_2 size frames hframes =>
    cases h
    exact ⟨size, hframes⟩

/-- Whatever happens next is one signal. -/
theorem Follows.move (h : Follows given l σ) {now : Nat}
    (hm : l.move? now σ.dispatcher = some (l', d')) : ∃ s, Reaches given l.IsCalm σ [s] l' d' := by
  have habsent (hcut : l.cut = true) (hl : l.IsCalm) : False := by
    rw [hl.present] at hcut
    cases hcut
  unfold move? at hm
  split at hm
  case h_1 => cases hm
  case h_2 => exact ⟨_, h.moves hm fun hl ↦ ⟨rfl, hl⟩⟩
  case h_3 => exact ⟨_, h.moves hm fun hl ↦ ⟨rfl, hl⟩⟩
  case h_4 => exact ⟨_, h.moves hm fun hl ↦ ⟨rfl, hl⟩⟩
  case h_5 =>
    split at hm
    case isTrue hcut => exact ⟨_, h.moves hm fun hl ↦ (habsent hcut hl).elim⟩
    case isFalse =>
      split at hm
      case isTrue => exact ⟨_, h.moves_nextTick hm rfl⟩
      case isFalse => cases hm
  case h_6 =>
    split at hm
    case h_1 frame toServer hread =>
      obtain ⟨size, hframes⟩ := exists_of_read? hread
      have hrest : Follows given { l with toServer } σ := h.congr rfl rfl
      refine hrest.inbound hm fun hl ↦ ?_
      have hall := hl.frames
      rw [hframes, List.forall_mem_cons] at hall
      exact ⟨hall.1, hl.present, hall.2⟩
    case h_2 =>
      split at hm
      case isTrue hcut => exact ⟨_, h.moves hm fun hl ↦ (habsent hcut hl).elim⟩
      case isFalse =>
        split at hm
        case isTrue =>
          split at hm
          case isTrue => exact ⟨_, h.moves hm fun hl ↦ ⟨rfl, hl⟩⟩
          case isFalse => cases hm
        case isFalse =>
          split at hm
          case isTrue => exact ⟨_, h.moves_nextTick hm rfl⟩
          case isFalse => exact ⟨_, h.moves hm fun hl ↦ ⟨rfl, hl⟩⟩

theorem Follows.run (h : Follows given l σ) (now moves : Nat) :
    ∃ signals, Reaches given l.IsCalm σ signals (run now moves l σ.dispatcher).1
      (run now moves l σ.dispatcher).2 := by
  induction moves generalizing l σ with
  | zero => exact ⟨[], h.reaches id⟩
  | succ moves ih =>
    rw [Link.run]
    cases hm : l.move? now σ.dispatcher with
    | none => exact ⟨[], h.reaches id⟩
    | some pair =>
      obtain ⟨s, hreaches⟩ := h.move hm
      obtain ⟨signals, hrest⟩ := ih hreaches.follows
      rw [hreaches.dispatcher] at hrest
      exact ⟨s :: signals, hreaches.trans hrest⟩

/-! ## The client -/

theorem Follows.send (h : Follows given l σ) (now : Nat) (frame : ClientFrame) :
    ∃ signals, Reaches given (l.IsCalm ∧ frame.isSound = true ∧ frame ≠ .close) σ signals
      (l.send now σ.dispatcher frame).2.1 (l.send now σ.dispatcher frame).2.2 := by
  unfold Link.send
  split
  case isTrue => exact ⟨[], h.reaches And.left⟩
  case isFalse =>
    have hsent : Follows given { l with
        toServer := l.toServer.write frame frame.size
        clientClosed := decide (frame = ClientFrame.close) } σ := h.congr rfl rfl
    obtain ⟨signals, hreaches⟩ := hsent.run now _
    refine ⟨signals, hreaches.follows, hreaches.dispatcher, fun ⟨hl, hframe⟩ ↦ ?_⟩
    refine hreaches.calm ⟨hl.present, ?_⟩
    exact List.forall_mem_append.2 ⟨hl.frames, List.forall_mem_singleton.2 hframe⟩

/-- The first frame that is to be read is read. -/
theorem Follows.readFirst (h : Follows given l σ) {frame : ServerFrame}
    {toClient : Pipe ServerFrame} (hread : l.toClient.read? = some (frame, toClient)) :
    Follows (given ++ [frame].filter ServerFrame.isRelayed) { l with toClient } σ := by
  obtain ⟨size, hframes⟩ := exists_of_read? hread
  have hunread : l.unread =
      [frame].filter ServerFrame.isRelayed ++ unread { l with toClient } := by
    rw [unread, hframes, List.map_cons, ← List.singleton_append, List.filter_append, unread]
  constructor
  case connection => exact h.connection
  case frames =>
    rw [List.append_assoc, ← hunread]
    exact h.frames
  case whole =>
    intro hover
    rw [List.append_assoc, ← hunread]
    exact h.whole hover

theorem Follows.readAll (h : Follows given l σ) (now most : Nat) :
    ∃ signals, Reaches
      (given ++ (readAll now most l σ.dispatcher).frames.filter ServerFrame.isRelayed) l.IsCalm σ
        signals (readAll now most l σ.dispatcher).link
        (readAll now most l σ.dispatcher).dispatcher := by
  induction most generalizing given l σ with
  | zero => exact ⟨[], (List.append_nil given).symm ▸ h.reaches id⟩
  | succ most ih =>
    rw [Link.readAll]
    split
    case h_1 => exact ⟨[], (List.append_nil given).symm ▸ h.reaches id⟩
    case h_2 frame toClient hread =>
      have hfirst := h.readFirst hread
      dsimp only
      split
      case isTrue => exact ⟨[], hfirst.reaches fun hl ↦ ⟨hl.present, hl.frames⟩⟩
      case isFalse =>
        -- The link after the client's answer, if it gives one.
        generalize hnext : (if (decide (frame = ServerFrame.ping) && !l.clientClosed) = true then
          { l with
            toClient
            toServer := l.toServer.write (ClientFrame.pong "") (ClientFrame.pong "").size }
          else { l with toClient }) = next
        have hanswered : Follows (given ++ [frame].filter ServerFrame.isRelayed) next σ := by
          rw [← hnext]
          split
          · exact hfirst.congr rfl rfl
          · exact hfirst
        have hcalm : l.IsCalm → next.IsCalm := by
          intro hl
          have hpong : (ClientFrame.pong "").isSound = true ∧ ClientFrame.pong "" ≠ .close :=
            by decide
          rw [← hnext]
          split
          · refine ⟨hl.present, ?_⟩
            exact List.forall_mem_append.2 ⟨hl.frames, List.forall_mem_singleton.2 hpong⟩
          · exact ⟨hl.present, hl.frames⟩
        obtain ⟨signals, hsettled⟩ := hanswered.run now (next.effort now σ.dispatcher)
        obtain ⟨signals', hrest⟩ := ih hsettled.follows
        rw [hsettled.dispatcher, List.append_assoc, ← List.filter_append] at hrest
        exact ⟨signals ++ signals', (hsettled.of_calm hcalm).trans hrest⟩

/-! ## Sessions -/

/-- What is done with a link: its client does something, time passes, or others use the
dispatcher. -/
inductive Use where
  | settle (now : Nat)
  | send (now : Nat) (frame : ClientFrame)
  | read (now : Nat)
  | hangUp
  | change (change : Dispatcher.Change)

/-- A link among others, and the frames that its client has read. -/
structure Session where
  link : Link
  dispatcher : Dispatcher
  frames : List ServerFrame := []

namespace Session

def use (h : Session) : Use → Session
  | .settle now =>
    let (link, dispatcher) := h.link.settle now h.dispatcher
    { h with link, dispatcher }
  | .send now frame =>
    let (_, link, dispatcher) := h.link.send now h.dispatcher frame
    { h with link, dispatcher }
  | .read now =>
    let r := h.link.read now h.dispatcher
    { link := r.link, dispatcher := r.dispatcher, frames := h.frames ++ r.frames }
  | .hangUp => { h with link := { h.link with cut := true } }
  | .change change =>
    if change.isOf h.link.connection.id then h
    else { h with dispatcher := h.dispatcher.apply change }

/-- A link that is opened for the user after some changes, when this and that has been done
since. -/
def of (before : List Dispatcher.Change) (user : UserId) (capacity : Nat) (uses : List Use) :
    Session :=
  let (link, dispatcher) := Link.start user capacity (Dispatcher.of before)
  uses.foldl use { link, dispatcher }

end Session

/-- Whether what is done neither ends the connection nor takes it off the register. -/
def Use.isCalm (user : UserId) (c : ConnectionId) : Use → Bool
  | .send _ frame => frame.isSound && frame ≠ .close
  | .hangUp => false
  | .change made => (Relay.Label.change made).isCalm user c
  | _ => true

def Use.change? : Use → Option Dispatcher.Change
  | .change made => some made
  | _ => none

namespace Session

variable {h : Session} {user : UserId} {c : ConnectionId}

/-- The session is where the labels bring the relay. -/
structure Follows (h : Session) (σ : Relay) : Prop where
  link : Link.Follows (h.frames.filter ServerFrame.isRelayed) h.link σ
  dispatcher : σ.dispatcher = h.dispatcher

theorem Follows.read_prefix (hfollows : h.Follows σ) :
    h.frames.filter ServerFrame.isRelayed <+: σ.frames :=
  (List.prefix_append _ _).trans hfollows.link.frames

/-- What is done with a link is some labels of its relay, with the same changes by others. -/
theorem Follows.use (hfollows : h.Follows σ) (user : UserId) (c : ConnectionId) (u : Use) :
    ∃ labels : List Relay.Label, (h.use u).Follows (labels.foldl Relay.step σ) ∧
      labels.filterMap Relay.Label.change? = u.change?.toList ∧
      (h.link.IsCalm → u.isCalm user c = true →
        (∀ l ∈ labels, l.isCalm user c = true) ∧ (h.use u).link.IsCalm) := by
  obtain ⟨hlink, hdispatcher⟩ := hfollows
  obtain ⟨link, dispatcher, frames⟩ := h
  obtain rfl : σ.dispatcher = dispatcher := hdispatcher
  cases u with
  | settle now =>
    obtain ⟨signals, hreaches⟩ := hlink.run now (link.effort now σ.dispatcher)
    exact ⟨_, ⟨hreaches.follows, hreaches.dispatcher⟩, Relay.filterMap_change?_signals signals,
      fun hl _ ↦ hreaches.isCalm hl user c⟩
  | send now frame =>
    obtain ⟨signals, hreaches⟩ := hlink.send now frame
    refine ⟨_, ⟨hreaches.follows, hreaches.dispatcher⟩, Relay.filterMap_change?_signals signals, ?_⟩
    intro hl hframe
    rw [Use.isCalm, Bool.and_eq_true, decide_eq_true_eq] at hframe
    exact hreaches.isCalm ⟨hl, hframe⟩ user c
  | read now =>
    obtain ⟨signals, hreaches⟩ :=
      hlink.readAll now (link.toClient.frames.length + link.effort now σ.dispatcher)
    refine ⟨_, ⟨?_, hreaches.dispatcher⟩, Relay.filterMap_change?_signals signals,
      fun hl _ ↦ hreaches.isCalm hl user c⟩
    have hread := hreaches.follows
    rw [← List.filter_append] at hread
    exact hread
  | hangUp =>
    exact ⟨[], ⟨hlink.congr rfl rfl, rfl⟩, rfl, fun _ hcalm ↦ nomatch hcalm⟩
  | change change =>
    refine ⟨[.change change], ?_, rfl, ?_⟩
    · have hconnection : link.connection.id = σ.id := congrArg Connection.id hlink.connection
      simp only [Session.use, List.foldl_cons, List.foldl_nil, Relay.step, hconnection]
      split
      case isTrue => exact ⟨hlink, rfl⟩
      case isFalse => exact ⟨⟨hlink.connection, hlink.frames, hlink.whole⟩, rfl⟩
    · intro hl hcalm
      refine ⟨List.forall_mem_singleton.2 hcalm, ?_⟩
      rw [Session.use]
      split <;> exact hl

theorem Follows.foldl (hfollows : h.Follows σ) (uses : List Use) :
    ∃ labels : List Relay.Label, (uses.foldl Session.use h).Follows (labels.foldl Relay.step σ) ∧
      labels.filterMap Relay.Label.change? = uses.filterMap Use.change? ∧
      (h.link.IsCalm → (∀ u ∈ uses, u.isCalm user c = true) →
        ∀ l ∈ labels, l.isCalm user c = true) := by
  induction uses generalizing h σ with
  | nil => exact ⟨[], hfollows, rfl, fun _ _ ↦ List.forall_mem_nil _⟩
  | cons u uses ih =>
    obtain ⟨first, hfirst, hchange, hcalm⟩ := hfollows.use user c u
    obtain ⟨rest, hrest, hchanges, hcalms⟩ := ih hfirst
    refine ⟨first ++ rest, ?_, ?_, ?_⟩
    · rw [List.foldl_append]
      exact hrest
    · rw [List.filterMap_append, hchange, hchanges, List.filterMap_cons]
      cases u.change? <;> rfl
    · intro hl hu
      rw [List.forall_mem_cons] at hu
      obtain ⟨hfirstCalm, hl'⟩ := hcalm hl hu.1
      exact List.forall_mem_append.2 ⟨hfirstCalm, hcalms hl' hu.2⟩

theorem follows_start (before : List Dispatcher.Change) (user : UserId) (capacity : Nat) :
    (of before user capacity []).Follows (Relay.start user (Dispatcher.of before)) :=
  ⟨⟨rfl, List.prefix_rfl, fun _ ↦ rfl⟩, rfl⟩

/-- Whatever is done with a link, there are labels of a relay that come to the same: the connection
and its dispatcher are those of the relay, whose frames the client has read or is to read, and
others have made the same changes.  If all was calm the labels are. -/
theorem exists_labels (before : List Dispatcher.Change) (user : UserId) (capacity : Nat)
    (uses : List Use) :
    ∃ labels : List Relay.Label,
      (of before user capacity uses).Follows (Relay.of before user labels) ∧
        labels.filterMap Relay.Label.change? = uses.filterMap Use.change? ∧
        ((∀ u ∈ uses, u.isCalm user (Relay.start user (Dispatcher.of before)).id = true) →
          ∀ l ∈ labels, l.isCalm user (Relay.start user (Dispatcher.of before)).id = true) := by
  obtain ⟨labels, hfollows, hchanges, hcalm⟩ := (follows_start before user capacity).foldl uses
  refine ⟨labels, hfollows, hchanges, hcalm ⟨rfl, List.forall_mem_nil _⟩⟩

/-- A client reads its greeting and then the first of the events that were put into its mailbox, in
order, whatever is done with its link and whatever others do. -/
theorem reads_in_order (before : List Dispatcher.Change) (user : UserId) (capacity : Nat)
    (uses : List Use) :
    ∃ labels : List Relay.Label,
      labels.filterMap Relay.Label.change? = uses.filterMap Use.change? ∧
        Relay.texts (of before user capacity uses).frames <+:
          .ready user :: (Relay.of before user labels).queued := by
  obtain ⟨labels, hfollows, hchanges, -⟩ := exists_labels before user capacity uses
  refine ⟨labels, hchanges, ?_⟩
  rw [← Relay.texts_filter_isRelayed]
  exact (hfollows.read_prefix.filterMap _).trans (Relay.sound_of before user labels).begun

/-- A link that nothing but the heartbeat ends goes on just as long as its client has been silent at
no tick, and its client reads at most one ping for each tick. -/
theorem serves_until_silent (before : List Dispatcher.Change) (user : UserId) (capacity : Nat)
    {uses : List Use}
    (hcalm : ∀ u ∈ uses, u.isCalm user (Relay.start user (Dispatcher.of before)).id = true) :
    ∃ labels : List Relay.Label,
      (of before user capacity uses).Follows (Relay.of before user labels) ∧
        ((of before user capacity uses).link.connection.stage.isServing = true ↔
          NeverSilent (Relay.of before user labels).signals) ∧
        (of before user capacity uses).frames.count .ping ≤
          ticks (Relay.of before user labels).signals := by
  obtain ⟨labels, hfollows, -, hlabels⟩ := exists_labels before user capacity uses
  refine ⟨labels, hfollows, ?_⟩
  have htimed := (Relay.timed_start user (Dispatcher.of before)).steps
    (Relay.sound_start user before) (hlabels hcalm)
  change (Relay.of before user labels).Timed user at htimed
  refine ⟨by rw [hfollows.link.connection]; exact htimed.serving, ?_⟩
  calc
    _ = ((of before user capacity uses).frames.filter ServerFrame.isRelayed).count .ping :=
      (List.count_filter rfl).symm
    _ ≤ (Relay.of before user labels).frames.count .ping := hfollows.read_prefix.sublist.count_le _
    _ ≤ ticks (Relay.of before user labels).signals :=
      Nat.le_of_add_right_le (Nat.le_of_eq htimed.pings)

end Session

end Link

end WhisperChat
