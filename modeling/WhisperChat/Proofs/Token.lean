import Mathlib.Data.Option.Basic
import WhisperChat.Token.Basic

/-!
# What tokens look like

Whoever hands a token on has to know which characters it may have.  A token that is accepted is made
of the digits of base 64, with points between its parts (`Token.all_isTokenChar_of_decode?`).
-/

namespace WhisperChat.Token

/-- Whether the character may stand in a token. -/
def isTokenChar (c : Char) : Bool := (Base64.digit? c).isSome || c = '.'

theorem lt_of_isTokenChar {c : Char} (h : isTokenChar c = true) : c.toNat < 128 := by
  have hrange : ∀ low high : Char, high.toNat < 128 → low ≤ c ∧ c ≤ high → c.toNat < 128 := by
    intro low high hhigh hc
    have hle : c.toNat ≤ high.toNat := hc.2
    omega
  unfold isTokenChar Base64.digit? at h
  split at h
  case isTrue hc => exact hrange 'A' 'Z' (by decide) hc
  split at h
  case isTrue hc => exact hrange 'a' 'z' (by decide) hc
  split at h
  case isTrue hc => exact hrange '0' '9' (by decide) hc
  split at h
  case isTrue hc =>
    rw [hc]
    decide
  split at h
  case isTrue hc =>
    rw [hc]
    decide
  case isFalse =>
    have hdot : c = '.' := by simpa using h
    rw [hdot]
    decide

/-- What holds of all token characters can be checked for each. -/
theorem forall_of_isTokenChar {p : Char → Prop}
    (h : ∀ n < 128, isTokenChar (Char.ofNat n) = true → p (Char.ofNat n)) {c : Char}
    (hc : isTokenChar c = true) : p c := by
  have hchar : Char.ofNat c.toNat = c := Char.ofNat_toNat c
  rw [← hchar]
  refine h _ (lt_of_isTokenChar hc) ?_
  rwa [hchar]

theorem isTokenChar_charOf (digit : Nat) : isTokenChar (Base64.charOf digit) = true := by
  by_cases hdigit : digit < 64
  · have hall : ∀ d < 64, isTokenChar (Base64.charOf d) = true := by decide
    exact hall digit hdigit
  · have hlast : Base64.charOf digit = '_' := by
      unfold Base64.charOf
      rw [if_neg (by omega), if_neg (by omega), if_neg (by omega), if_neg (by omega)]
    rw [hlast]
    decide

theorem all_isTokenChar_encode (bytes : List UInt8) :
    (Base64.encode bytes).all isTokenChar = true := by
  fun_induction Base64.encode bytes with
  | case1 => rfl
  | case2 => simp [isTokenChar_charOf]
  | case3 => simp [isTokenChar_charOf]
  | case4 _ _ _ _ ih => simpa [isTokenChar_charOf] using ih

theorem all_isTokenChar_of_mapM {cs : List Char} {digits : List Nat}
    (h : cs.mapM Base64.digit? = some digits) : cs.all isTokenChar = true := by
  induction cs generalizing digits with
  | nil => rfl
  | cons c cs ih =>
    rw [List.mapM_cons] at h
    obtain ⟨digit, hdigit, hrest⟩ := Option.bind_eq_some_iff.1 h
    obtain ⟨rest, hcs, -⟩ := Option.bind_eq_some_iff.1 hrest
    rw [List.all_cons, isTokenChar, hdigit, ih hcs]
    rfl

theorem all_isTokenChar_of_json? {cs : List Char} {value : Json} (h : json? cs = some value) :
    cs.all isTokenChar = true := by
  obtain ⟨bytes, hbytes, -⟩ := Option.bind_eq_some_iff.1 h
  obtain ⟨digits, hdigits, -⟩ := Option.bind_eq_some_iff.1 hbytes
  exact all_isTokenChar_of_mapM hdigits

theorem append_of_splitLast? {cs before after : List Char}
    (h : splitLast? cs = some (before, after)) : cs = before ++ '.' :: after := by
  unfold splitLast? at h
  have hreversed := List.takeWhile_append_dropWhile (p := (· ≠ '.')) (l := cs.reverse)
  simp only at h
  split at h
  case h_1 => cases h
  case h_2 c rest hrest =>
    cases h
    have hdot : c = '.' := by
      have hhead := List.head?_dropWhile_not (fun a ↦ decide (a ≠ '.')) cs.reverse
      simp only [hrest] at hhead
      simpa using hhead
    rw [hrest, hdot] at hreversed
    have := congrArg List.reverse hreversed
    simpa using this.symm

theorem all_isTokenChar_of_decode? {secret token : String} {now : Nat} {claims : Claims}
    (h : decode? secret token now = some claims) : token.toList.all isTokenChar = true := by
  obtain ⟨⟨message, given⟩, hmessage, h⟩ := Option.bind_eq_some_iff.1 h
  obtain ⟨⟨head, body⟩, hparts, h⟩ := Option.bind_eq_some_iff.1 h
  obtain ⟨_, hhead, h⟩ := Option.bind_eq_some_iff.1 h
  obtain ⟨_, hsigned, h⟩ := Option.bind_eq_some_iff.1 h
  obtain ⟨_, hbody, -⟩ := Option.bind_eq_some_iff.1 h
  obtain ⟨value, hvalue⟩ : ∃ value, json? head = some value := by
    cases hvalue : json? head with
    | none =>
      rw [hvalue] at hhead
      cases (Option.guard_eq_some' _).1 hhead
    | some value => exact ⟨value, rfl⟩
  obtain ⟨value', hvalue', -⟩ := Option.bind_eq_some_iff.1 hbody
  rw [append_of_splitLast? hmessage, append_of_splitLast? hparts,
    (Option.guard_eq_some' _).1 hsigned]
  simp only [List.all_append, List.all_cons, all_isTokenChar_of_json? hvalue,
    all_isTokenChar_of_json? hvalue', signature, all_isTokenChar_encode, Bool.and_true,
    Bool.true_and]
  decide

end WhisperChat.Token
