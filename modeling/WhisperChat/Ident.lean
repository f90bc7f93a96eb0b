import WhisperChat.Decimal

/-!
# Identifiers

Users, channels, groups and messages are named by signed 64-bit numbers.  One type serves all four
kinds; the kind is a parameter, so that an identifier of a user is never taken for one of a group.
The bounds are part of the type: arithmetic on identifiers is arithmetic on integers, and whoever
builds an identifier has to say why it fits.
-/

namespace WhisperChat

inductive IdentKind where
  | user
  | channel
  | group
  | message
  deriving DecidableEq, Repr

/-- An identifier of the given kind: a signed 64-bit number. -/
structure Ident (kind : IdentKind) where
  /-- The number itself. -/
  val : Int
  le_val : -0x8000000000000000 ≤ val
  val_lt : val < 0x8000000000000000
  deriving DecidableEq

abbrev UserId := Ident .user
abbrev ChannelId := Ident .channel
abbrev GroupId := Ident .group
abbrev MessageId := Ident .message

namespace Ident

variable {kind : IdentKind}

theorem ext {a b : Ident kind} (h : a.val = b.val) : a = b := by
  cases a
  cases b
  simp_all

theorem ext_iff {a b : Ident kind} : a = b ↔ a.val = b.val :=
  ⟨fun h ↦ h ▸ rfl, ext⟩

/-- The identifier with the given number, if the number fits. -/
def ofInt? (kind : IdentKind) (n : Int) : Option (Ident kind) :=
  if h : -0x8000000000000000 ≤ n ∧ n < 0x8000000000000000 then some ⟨n, h.1, h.2⟩ else none

@[simp]
theorem ofInt?_val (a : Ident kind) : ofInt? kind a.val = some a := by
  simp only [ofInt?, a.le_val, a.val_lt, and_self, dite_true]

theorem ofInt?_eq_some_iff {n : Int} {a : Ident kind} : ofInt? kind n = some a ↔ a.val = n := by
  constructor
  · intro h
    unfold ofInt? at h
    split at h
    · cases h
      rfl
    · cases h
  · intro h
    rw [← h, ofInt?_val]

def least (kind : IdentKind) : Ident kind := ⟨-0x8000000000000000, by decide, by decide⟩

def greatest (kind : IdentKind) : Ident kind := ⟨0x7fffffffffffffff, by decide, by decide⟩

def zero (kind : IdentKind) : Ident kind := ⟨0, by decide, by decide⟩

/-- The next identifier; the greatest one has none. -/
def next? (a : Ident kind) : Option (Ident kind) := ofInt? kind (a.val + 1)

instance : LT (Ident kind) := ⟨fun a b ↦ a.val < b.val⟩
instance : LE (Ident kind) := ⟨fun a b ↦ a.val ≤ b.val⟩

theorem lt_def {a b : Ident kind} : a < b ↔ a.val < b.val := Iff.rfl
theorem le_def {a b : Ident kind} : a ≤ b ↔ a.val ≤ b.val := Iff.rfl

instance (a b : Ident kind) : Decidable (a < b) := inferInstanceAs (Decidable (a.val < b.val))
instance (a b : Ident kind) : Decidable (a ≤ b) := inferInstanceAs (Decidable (a.val ≤ b.val))

def text (a : Ident kind) : String := Decimal.ofInt a.val

instance : ToString (Ident kind) := ⟨text⟩
instance : Inhabited (Ident kind) := ⟨zero kind⟩

theorem lt_irrefl (a : Ident kind) : ¬ a < a := Int.lt_irrefl a.val

theorem lt_trans {a b c : Ident kind} (hab : a < b) (hbc : b < c) : a < c := Int.lt_trans hab hbc

theorem lt_asymm {a b : Ident kind} (h : a < b) : ¬ b < a := Int.lt_asymm h

theorem lt_trichotomy (a b : Ident kind) : a < b ∨ a = b ∨ b < a := by
  rcases Int.lt_trichotomy a.val b.val with h | h | h
  · exact .inl h
  · exact .inr (.inl (ext h))
  · exact .inr (.inr h)

end Ident

end WhisperChat
