import WhisperChat.Decimal
import WhisperChat.Ident

/-!
# Anchors

An anchor is the point of a channel's history that a page is asked around.  Its text is a keyword
or the number of a message.  Main statement: an anchor's text reads back (`parse?_text`).
-/

namespace WhisperChat

/-- The point of a history that a page lies around. -/
inductive Anchor where
  | oldest
  | newest
  | message (id : MessageId)
  deriving DecidableEq

namespace Anchor

def text : Anchor → String
  | oldest => "oldest"
  | newest => "newest"
  | message id => Decimal.ofInt id.val

def parse? (s : String) : Option Anchor :=
  if s = "oldest" then some oldest
  else if s = "newest" then some newest
  else (Decimal.int? s).bind fun n ↦ (Ident.ofInt? .message n).map message

/-- What is said of a text that names no anchor. -/
def refusal (s : String) : String := "invalid anchor: " ++ s

theorem int?_oldest : Decimal.int? "oldest" = none := by decide +kernel

theorem int?_newest : Decimal.int? "newest" = none := by decide +kernel

@[simp]
theorem parse?_text (a : Anchor) : parse? a.text = some a := by
  cases a with
  | oldest => rfl
  | newest => rfl
  | message id =>
    have hread := Decimal.int?_ofInt id.val
    have hold : Decimal.ofInt id.val ≠ "oldest" := by
      intro h
      rw [h, int?_oldest] at hread
      cases hread
    have hnew : Decimal.ofInt id.val ≠ "newest" := by
      intro h
      rw [h, int?_newest] at hread
      cases hread
    simp [text, parse?, hold, hnew]

end Anchor

end WhisperChat
