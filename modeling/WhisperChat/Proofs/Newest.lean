import WhisperChat.Proofs.Insertion
import WhisperChat.Proofs.Reading

/-!
# The newest message

A message that has just been sent to a channel has the greatest identifier of all, and its sender
sees it, so that the sender's history of the channel ends with it (`Sends.history_eq_concat`).  The
walk back from the newest message has no bound of its own and stays below the greatest identifier
there can be: the page of the newest messages ends with the message that was sent, unless that is
the one message that has been given this identifier.
-/

namespace WhisperChat

open Work

namespace Database

variable {db db' : Database} {now : ClockReading} {sender : UserId} {request : SendRequest}
  {sent : Sent}
  {channel : ChannelId} {topic : String}

namespace Sends

theorem channel_eq (h : db.Sends now sender request sent db')
    (htarget : request.target = .channel channel topic) : sent.message.channel = some channel :=
  calc
    sent.message.channel = request.target.place?.map Prod.fst := congrArg Draft.channel h.draft
    _ = some channel := by rw [htarget]; rfl

/-- Whatever else the tables hold, the sender of a message to a channel is granted it. -/
theorem grants_sender (h : db.Sends now sender request sent db')
    (htarget : request.target = .channel channel topic) :
    db'.grants sender sent.message = true := by
  have hwhisper : sent.message.whisper = request.descriptor? := congrArg Draft.whisper h.draft
  cases hd : request.descriptor? with
  | some d =>
    have haudience : sender ∈ sent.audience := by
      rw [h.audience, hd, mem_audienceOf_whisper]
      exact .inl rfl
    rw [grants_whisper_iff (hwhisper.trans hd), Database.hasVisibilityRow_iff, h.mem_visibility_iff]
    exact .inl (.inr ⟨rfl, haudience⟩)
  | none =>
    have hadmits := h.admits.target_admits
    rw [htarget] at hadmits
    rw [grants_ordinary (hwhisper.trans hd) (h.channel_eq htarget), h.database]
    exact hadmits.2.2

/-- The message that was sent has the greatest identifier of all that are stored. -/
theorem id_le_of_mem_stored (h : db.Sends now sender request sent db') {m : Message}
    (hm : m ∈ db'.stored) : m.id ≤ sent.message.id := by
  obtain ⟨row, hrow, hdecode⟩ := mem_stored.1 hm
  rw [MessageRow.id_of_decode hdecode]
  rw [h.rows_eq] at hrow
  rcases List.mem_append.1 hrow with hold | hnew
  · exact Int.le_of_lt ((MessageTable.lt_nextId h.nextId).2 row hold)
  · rw [List.mem_singleton.1 hnew]
    exact Int.le_refl _

/-- The sender's history of the channel ends with the message that was sent. -/
theorem history_eq_concat (h : db.Sends now sender request sent db')
    (htarget : request.target = .channel channel topic) :
    ∃ earlier, db'.history sender channel = earlier ++ [sent.message] ∧
      ∀ m ∈ earlier, m.id < sent.message.id := by
  have hmem : sent.message ∈ db'.history sender channel := by
    rw [mem_history, get_eq_ok_iff]
    exact ⟨h.channel_eq htarget, h.mem_stored_message, rfl, h.grants_sender htarget⟩
  obtain ⟨earlier, later, hsplit⟩ := List.append_of_mem hmem
  have hpairwise : (db'.history sender channel).Pairwise fun a b ↦ a.id < b.id := pairwise_history
  rw [hsplit, List.pairwise_append, List.pairwise_cons] at hpairwise
  obtain ⟨-, ⟨hlater, -⟩, hearlier⟩ := hpairwise
  -- Nothing is stored that could come after the message.
  have hnone : later = [] := by
    rw [List.eq_nil_iff_forall_not_mem]
    intro m hm
    have hhistory : m ∈ db'.history sender channel := by simp [hsplit, hm]
    have hstored := (get_eq_ok_iff.1 (mem_history.1 hhistory).2).1
    exact absurd (hlater m hm) (Int.not_lt.2 (h.id_le_of_mem_stored hstored))
  rw [hnone] at hsplit
  exact ⟨earlier, hsplit, fun m hm ↦ hearlier m hm _ List.mem_cons_self⟩

end Sends

end Database

theorem Window.afterScan_newest (before after : Nat) :
    afterScan ⟨.newest, before, after⟩ = none := by
  rw [afterScan]
  split <;> rfl

/-- The walk back from the newest message comes past all identifiers but the greatest. -/
theorem Window.reached_newest (history : List Message) {before : Nat} (hbefore : 1 ≤ before)
    (after : Nat) :
    Window.reached ⟨.newest, before, after⟩ history =
      (history.filter fun m ↦ m.id < .greatest .message).rtake before := by
  have hscan : beforeScan ⟨.newest, before, after⟩ = some (.before none) := by
    rw [beforeScan, if_neg (Nat.ne_of_gt hbefore)]
  have hnone := afterScan_newest before after
  have hnothing : (history.filter fun _ ↦ false) = [] := List.filter_eq_nil_iff.2 (by simp)
  rw [reached, hscan, hnone]
  simp only [Option.any_none, hnothing, List.take_nil, List.append_nil]
  rfl

/-- Right after a message has been sent to a channel, its sender's page of the newest messages is
there, unless it asks for more than memory can be set aside for, and it ends with that message,
unless the message has been given the greatest identifier: then the page is without it. -/
theorem newest_page_after_send {s : SharedDatabase} (hdecodes : s.contents.Decodes)
    {faults : List Method} {now : ClockReading} {sender : UserId} {request : SendRequest}
    {sent : Sent} (hsent : (s.atomic faults (send now sender request)).answer = .ok sent)
    {channel : ChannelId} {topic : String} (htarget : request.target = .channel channel topic)
    {before : Nat} (hbefore : 1 ≤ before) (after : Nat) :
    let answer := ((s.atomic faults (send now sender request)).shared.read []
      (listMessages sender channel ⟨.newest, before, after⟩)).answer
    if Page.capacity < before then answer = .error .outOfMemory
    else ∃ page, answer = .ok page ∧
      if sent.message.id = .greatest .message then sent.message ∉ page
      else page.getLast? = some sent.message := by
  intro answer
  obtain ⟨-, hyields, hpoisoned⟩ := SharedDatabase.atomic_of_ok hsent
  have hsends := sends_of_yields hyields
  have hafter : (s.atomic faults (send now sender request)).shared.contents.Decodes := by
    rw [hsends.database]
    exact Database.decodes_withMessage hdecodes hsends.nextId _ _
  obtain ⟨earlier, hhistory, hearlier⟩ := hsends.history_eq_concat htarget
  have hanswer : answer =
      if Window.Exceeds ⟨.newest, before, after⟩ then .error .outOfMemory
      else .ok (((earlier ++ [sent.message]).filter fun m ↦
        m.id < .greatest .message).rtake before) := by
    have hends : ¬ (s.atomic faults (send now sender request)).shared.contents.Overflows sender
        channel ⟨.newest, before, after⟩ :=
      Database.not_overflows_of_afterScan (Window.afterScan_newest before after)
    have hpage := page_eq_reached hafter sender channel ⟨.newest, before, after⟩
    rw [if_neg hends, hhistory, Window.reached_newest _ hbefore after] at hpage
    exact (SharedDatabase.answer_read hpoisoned).trans hpage
  have hexceeds : Window.Exceeds ⟨.newest, before, after⟩ ↔ Page.capacity < before := by
    simp [Window.Exceeds]
  rw [hanswer, if_congr hexceeds rfl rfl]
  split
  case isTrue => rfl
  case isFalse =>
    refine ⟨_, rfl, ?_⟩
    split
    case isTrue hgreatest =>
      intro hmem
      have hpassed := (List.mem_filter.1 ((Window.rtake_sublist _ _).mem hmem)).2
      rw [hgreatest] at hpassed
      exact Ident.lt_irrefl _ (of_decide_eq_true hpassed)
    case isFalse hbelow =>
      have hlast : sent.message.id < .greatest .message := by
        rcases Ident.lt_trichotomy sent.message.id (.greatest .message) with hlt | heq | hgt
        · exact hlt
        · exact absurd heq hbelow
        · exact absurd sent.message.id.val_lt (Int.not_lt.2 hgt)
      have hall : (earlier ++ [sent.message]).filter (fun m ↦ m.id < .greatest .message) =
          earlier ++ [sent.message] := by
        rw [List.filter_eq_self, List.forall_mem_append, List.forall_mem_singleton]
        exact ⟨fun m hm ↦ decide_eq_true (Ident.lt_trans (hearlier m hm) hlast),
          decide_eq_true hlast⟩
      obtain ⟨more, rfl⟩ := Nat.exists_eq_add_of_le' hbefore
      rw [hall, List.rtake_concat_succ, List.getLast?_concat]

/-- The samples' channel with one message, under the given identifier. -/
def channelWith (id : MessageId) : SharedDatabase where
  contents := sampleDatabase [sampleMessage id "earlier" none] (List.pairwise_singleton ..) []

def laterRequest : SendRequest where
  target := .channel (.small 1) "news"
  content := "later"
  whisperUsers := []
  whisperGroups := []

def secondGreatest : MessageId := ⟨0x7ffffffffffffffe, by decide, by decide⟩

theorem id_sent_after (id next : MessageId) (h : id = .small 1 ∧ next = .small 2 ∨
    id = secondGreatest ∧ next = .greatest .message) :
    ((channelWith id).atomic [] (send .epoch (.small 1) laterRequest)).answer.toOption.map
      (fun sent ↦ sent.message.id) = some next := by
  obtain ⟨rfl, rfl⟩ | ⟨rfl, rfl⟩ := h <;> decide +kernel

/-- The page of the newest message, after the message with identifier 1 and after the one before the
greatest. -/
theorem newest_page_after_send_channelWith :
    (∀ id, (channelWith id).contents.Decodes) ∧
      (∃ sent, ((channelWith (.small 1)).atomic []
          (send .epoch (.small 1) laterRequest)).answer = .ok sent ∧
        ∃ page, (((channelWith (.small 1)).atomic []
            (send .epoch (.small 1) laterRequest)).shared.read []
              (listMessages (.small 1) (.small 1) ⟨.newest, 1, 0⟩)).answer = .ok page ∧
          page.getLast? = some sent.message) ∧
      ∃ sent, ((channelWith secondGreatest).atomic []
          (send .epoch (.small 1) laterRequest)).answer = .ok sent ∧
        ∃ page, (((channelWith secondGreatest).atomic []
            (send .epoch (.small 1) laterRequest)).shared.read []
              (listMessages (.small 1) (.small 1) ⟨.newest, 1, 0⟩)).answer = .ok page ∧
          sent.message ∉ page := by
  have hdecodes : ∀ id, (channelWith id).contents.Decodes := fun _ ↦ Database.decodes_of_eq rfl
  have hcapacity : ¬ Page.capacity < 1 := by decide
  refine ⟨hdecodes, ?_, ?_⟩
  · obtain ⟨sent, hanswer, hid⟩ := Option.map_eq_some_iff.1
      (id_sent_after (.small 1) (.small 2) (.inl ⟨rfl, rfl⟩))
    have hsent := toOption_eq_some_iff.1 hanswer
    have hpage := newest_page_after_send (hdecodes _) hsent rfl (Nat.le_refl 1) 0
    have hbelow : sent.message.id ≠ .greatest .message := by
      rw [hid]
      decide
    rw [if_neg hcapacity] at hpage
    obtain ⟨page, hanswer, hlast⟩ := hpage
    rw [if_neg hbelow] at hlast
    exact ⟨sent, hsent, page, hanswer, hlast⟩
  · obtain ⟨sent, hanswer, hid⟩ := Option.map_eq_some_iff.1
      (id_sent_after secondGreatest (.greatest .message) (.inr ⟨rfl, rfl⟩))
    have hsent := toOption_eq_some_iff.1 hanswer
    have hpage := newest_page_after_send (hdecodes _) hsent rfl (Nat.le_refl 1) 0
    rw [if_neg hcapacity] at hpage
    obtain ⟨page, hanswer, hwithout⟩ := hpage
    rw [if_pos hid] at hwithout
    exact ⟨sent, hsent, page, hanswer, hwithout⟩

end WhisperChat
