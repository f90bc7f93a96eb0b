import WhisperChat.Http.Service
import WhisperChat.Proofs.Run

/-!
# The moment of commit

Three things are worked out apart from each other when a message is sent: the users it is written
for, the rows of the index, and what a viewer gets who asks for it.  Right after the commit they
name the same users, and the users who are told of the message are those as well.
-/

namespace WhisperChat

open Work

/-- A send that is committed is told to its audience in the second step. -/
theorem dispatcher_perform_send {service : Http.Service} {now : ClockReading} {sender : UserId}
    {request : SendRequest} {sent : Sent}
    (h : (service.shared.atomic [] (send now sender request)).answer = .ok sent) :
    (service.perform now (.send sender request)).2.dispatcher =
      (service.dispatcher.fanOut sent.audience.toList (.messageCreated sent.message)).2 := by
  simp [Http.Service.perform, Http.Service.commit, Http.Service.announce, h, Except.mapError]

/-- Right after a send the audience, the rows of the index and the users who get the message are the
same set, and its event is told to exactly these. -/
theorem commit_agrees {s : SharedDatabase} (hreachable : Reachable s) {now : ClockReading}
    {sender : UserId} {request : SendRequest} {sent : Sent}
    (hsent : (s.atomic [] (send now sender request)).answer = .ok sent) :
    (∀ user,
        (user ∈ sent.audience ↔
          (s.atomic [] (send now sender request)).shared.contents.hasVisibilityRow
            sent.message.id user = true) ∧
        (user ∈ sent.audience ↔
          ∃ m, ((s.atomic [] (send now sender request)).shared.read []
            (getMessage user sent.message.id)).answer = .ok m)) ∧
      (s.atomic [] (send now sender request)).shared.contents.visibilityRowCount sent.message.id =
        sent.audience.size ∧
      ∀ service : Http.Service, service.shared = s →
        (service.perform now (.send sender request)).2.dispatcher =
          (service.dispatcher.fanOut sent.audience.toList (.messageCreated sent.message)).2 := by
  have hsound := hreachable.indexIsSound
  obtain ⟨-, hyields, hpoisoned⟩ := SharedDatabase.atomic_of_ok hsent
  have hsends := sends_of_yields hyields
  refine ⟨fun user ↦ ⟨(hsends.hasVisibilityRow_iff hsound user).symm, ?_⟩,
    hsends.visibilityRowCount_eq hsound, ?_⟩
  · have hget := hsends.get_eq hsound user
    rw [SharedDatabase.answer_read hpoisoned]
    change _ ↔ ∃ m, Database.get _ user sent.message.id = .ok m
    rw [hget]
    split
    case isTrue huser => exact iff_of_true huser ⟨_, rfl⟩
    case isFalse huser => exact iff_of_false huser (by rintro ⟨_, ⟨⟩⟩)
  · rintro service rfl
    exact dispatcher_perform_send hsent

/-- Three users, of whom the second is in a group and all but the third read the channel. -/
def sampleActions : List Action :=
  [.createUser "ada", .createUser "bob", .createUser "cyd", .createChannel "hall",
    .createGroup "crew" [.small 2],
    .subscribe (.small 1) (.small 1),
    .subscribe (.small 1) (.small 2)]

/-- A whisper to user 3 and to the group. -/
def sampleRequest : SendRequest where
  target := .channel (.small 1) "news"
  content := "psst"
  whisperUsers := [.small 3]
  whisperGroups := [.small 1]

theorem audience_sample :
    ((Run.of sampleActions).shared.atomic []
        (send .epoch (.small 1) sampleRequest)).answer.toOption.map
        (fun sent ↦ sent.audience.toList) =
      some [.small 1, .small 2, .small 3] := by
  decide +kernel

theorem commit_agrees_sample :
    Reachable (Run.of sampleActions).shared ∧
      ∃ sent, ((Run.of sampleActions).shared.atomic []
          (send .epoch (.small 1) sampleRequest)).answer = .ok sent ∧
        sent.audience.size = 3 ∧
        ((Run.of sampleActions).shared.atomic []
            (send .epoch (.small 1)
              sampleRequest)).shared.contents.visibilityRowCount sent.message.id = 3 := by
  have hreachable := Run.reachable_of sampleActions
  obtain ⟨sent, hanswer, haudience⟩ := Option.map_eq_some_iff.1 audience_sample
  have hsent := toOption_eq_some_iff.1 hanswer
  have hsize : sent.audience.size = 3 := congrArg List.length haudience
  obtain ⟨-, hcount, -⟩ := commit_agrees hreachable hsent
  exact ⟨hreachable, sent, hsent, hsize, hcount.trans hsize⟩

end WhisperChat
