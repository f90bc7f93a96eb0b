import WhisperChat.Instant.Text
import WhisperChat.Proofs.Decimal

/-!
# Written instants read back

Each part of an instant is written so that reading finds its end: the numbers have the width that is
read at most, and a sign or a mark follows.  The parts make the instant again, a leap second at the
end of a minute included.  A leap second anywhere else is written like the second that follows it,
and read as that (`Instant.settled`); no text says it (`Instant.isRegular_of_parse?`).
-/

namespace WhisperChat.Instant

/-! ## Parts -/

theorem trimStart_cons {c : Char} {cs : List Char} (h : Blank.isBlank c = false) :
    Blank.trimStart (c :: cs) = c :: cs := by
  simp [Blank.trimStart, h]

theorem trimStart_padded (width n : Nat) (rest : List Char) :
    Blank.trimStart (Decimal.padded width n ++ rest) = Decimal.padded width n ++ rest := by
  obtain ⟨c, cs, hcs⟩ := List.exists_cons_of_ne_nil (Decimal.padded_ne_nil width n)
  have hhead : (Decimal.padded width n).head? = some c := by rw [hcs, List.head?_cons]
  have hc : c.isDigit = true := Decimal.head?_padded hhead
  rw [hcs, List.cons_append, trimStart_cons (Blank.isBlank_of_isDigit hc)]

theorem number?_padded {width n : Nat} (hwidth : 0 < width) (h : n < Nat.pow 10 width)
    (rest : List Char) : number? width (Decimal.padded width n ++ rest) = some (n, rest) := by
  have hrun : ∀ c ∈ Decimal.padded width n, c.isDigit = true :=
    fun c ↦ Decimal.isDigit_of_mem_padded
  have hlen := Decimal.length_padded hwidth h
  have hcut : ((Decimal.padded width n ++ rest).takeWhile Char.isDigit).take width =
      Decimal.padded width n := by
    rw [List.takeWhile_append_of_pos hrun, List.take_left' hlen]
  simp [number?, trimStart_padded, hcut, Decimal.padded_ne_nil]

theorem mark?_cons {c : Char} (h : Blank.isBlank c = false) (rest : List Char) :
    mark? c (c :: rest) = some rest := by
  simp [mark?, trimStart_cons h]

theorem digits?_padded (width n : Nat) {rest : List Char} (h : Decimal.EndsRun rest) :
    year?.digits? (Decimal.padded width n ++ rest) = some (n, rest) := by
  have hrun : ∀ c ∈ Decimal.padded width n, c.isDigit = true :=
    fun c ↦ Decimal.isDigit_of_mem_padded
  simp [year?.digits?, Decimal.takeWhile_run hrun h, Decimal.padded_ne_nil]

theorem year?_yearChars (year : Int) {rest : List Char} (h : Decimal.EndsRun rest) :
    year? (yearChars year ++ rest) = some (year, rest) := by
  unfold yearChars
  split
  · rename_i hyear
    have hread : number? 4 (Decimal.padded 4 year.toNat ++ rest) = some (year.toNat, rest) :=
      number?_padded (by decide) (show year.toNat < 10000 by omega) rest
    obtain ⟨c, cs, hcs⟩ := List.exists_cons_of_ne_nil (Decimal.padded_ne_nil 4 year.toNat)
    have hc : c.isDigit = true := Decimal.head?_padded (by rw [hcs]; rfl)
    have htrim := trimStart_padded 4 year.toNat rest
    rw [hcs, List.cons_append] at hread htrim ⊢
    unfold year?
    rw [htrim]
    split
    · rename_i heq
      cases heq
      exact absurd hc (by decide)
    · rename_i heq
      cases heq
      exact absurd hc (by decide)
    · rw [hread]
      simp [Int.toNat_of_nonneg hyear.1]
  · rename_i hyear
    have hread := digits?_padded 4 year.natAbs h
    split
    · rw [List.cons_append, year?, trimStart_cons (by decide)]
      simp only [hread, Option.map_some, Option.some.injEq, Prod.mk.injEq, and_true]
      rw [Int.ofNat_eq_natCast]
      omega
    · rw [List.cons_append, year?, trimStart_cons (by decide)]
      simp only [hread, Option.map_some, Option.some.injEq, Prod.mk.injEq, and_true]
      rw [Int.ofNat_eq_natCast]
      omega

theorem fraction?_padded {width n : Nat} (hwidth : 0 < width) (hle : width ≤ 9)
    (h : n < Nat.pow 10 width) {rest : List Char} (hrest : Decimal.EndsRun rest) :
    fraction? ('.' :: (Decimal.padded width n ++ rest)) =
      some (n * Nat.pow 10 (9 - width), rest) := by
  have hrun : ∀ c ∈ Decimal.padded width n, c.isDigit = true :=
    fun c ↦ Decimal.isDigit_of_mem_padded
  have hlen := Decimal.length_padded hwidth h
  have hkept : (Decimal.padded width n).take 9 = Decimal.padded width n :=
    List.take_of_length_le (by omega)
  simp only [fraction?, Decimal.takeWhile_run hrun hrest, hkept, Decimal.ofDigitChars_padded, hlen]
  have hdrop : (Decimal.padded width n ++ rest).drop width = rest := List.drop_left' hlen
  simp [Decimal.padded_ne_nil, hdrop]

/-- The fraction of a second is read back, however many groups of digits it takes. -/
theorem fraction?_fractionChars {nano : Nat} (h : nano < nanosPerSecond) {rest : List Char}
    (hrest : Decimal.EndsRun rest) (hpoint : rest.head? ≠ some '.') :
    fraction? (fractionChars nano ++ rest) = some (nano, rest) := by
  have hunit : nanosPerSecond = 1000000000 := rfl
  unfold fractionChars
  split
  · rename_i hzero
    subst hzero
    rw [List.nil_append]
    unfold fraction?
    split
    · exact absurd rfl hpoint
    · rfl
  · split
    · rename_i hmod
      have hlt : nano / 1000000 < Nat.pow 10 3 := by
        change nano / 1000000 < 1000
        omega
      rw [List.cons_append, fraction?_padded (by decide) (by decide) hlt hrest]
      change some (nano / 1000000 * 1000000, rest) = _
      rw [Nat.div_mul_cancel (Nat.dvd_of_mod_eq_zero hmod)]
    · split
      · rename_i hmod
        have hlt : nano / 1000 < Nat.pow 10 6 := by
          change nano / 1000 < 1000000
          omega
        rw [List.cons_append, fraction?_padded (by decide) (by decide) hlt hrest]
        change some (nano / 1000 * 1000, rest) = _
        rw [Nat.div_mul_cancel (Nat.dvd_of_mod_eq_zero hmod)]
      · have hlt : nano < Nat.pow 10 9 := h
        rw [List.cons_append, fraction?_padded (by decide) (by decide) hlt hrest]
        change some (nano * 1, rest) = _
        rw [Nat.mul_one]

/-! ## The whole -/

/-- The time of an instant as a clock in universal time shows it. -/
def clockTime (t : Instant) : ClockTime where
  hour := t.second / 3600
  minute := t.second / 60 % 60
  second := t.second % 60 + if nanosPerSecond ≤ t.nano then 1 else 0
  nano := if nanosPerSecond ≤ t.nano then t.nano - nanosPerSecond else t.nano

/-- The instant that the text of an instant says: a leap second that does not follow the last second
of a minute has become the second after it. -/
def settled (t : Instant) : Instant :=
  if h : t.IsRegular then t
  else
    { date := t.date
      second := t.second + 1
      nano := t.nano - nanosPerSecond
      valid := t.valid
      second_lt := by
        have hsecond := t.second_lt
        unfold IsRegular at h
        omega
      nano_lt := (Nat.sub_le ..).trans_lt t.nano_lt }

@[simp]
theorem date_settled (t : Instant) : t.settled.date = t.date := by
  unfold settled
  split <;> rfl

theorem settled_of_isRegular {t : Instant} (h : t.IsRegular) : t.settled = t := dif_pos h

theorem isRegular_settled (t : Instant) : t.settled.IsRegular := by
  have hnano := t.nano_lt
  have hunit : nanosPerSecond = 1000000000 := rfl
  unfold settled
  split
  · assumption
  · refine .inl (show t.nano - nanosPerSecond < nanosPerSecond from ?_)
    omega

theorem settled_eq_self_iff {t : Instant} : t.settled = t ↔ t.IsRegular :=
  ⟨fun h ↦ h ▸ isRegular_settled t, settled_of_isRegular⟩

/-- Half a second into a leap second that follows the first second after noon. -/
def leapAtNoon : Instant where
  date := ⟨2025, 1, 1⟩
  second := 43200
  nano := 1500000000
  valid := by decide
  second_lt := by decide
  nano_lt := by decide

example : leapAtNoon.text = "2025-01-01T12:00:01.500Z" ∧
    leapAtNoon.settled.second = 43201 ∧ leapAtNoon.settled.nano = 500000000 := by decide +kernel

theorem ofDay?_clockTime (t : Instant) :
    t.clockTime.ofDay? = some (t.settled.second, t.settled.nano) := by
  have hsecond := t.second_lt
  have hnano := t.nano_lt
  have hunit : nanosPerSecond = 1000000000 := rfl
  unfold clockTime ClockTime.ofDay? settled
  by_cases h : nanosPerSecond ≤ t.nano
  · simp only [h, if_true]
    by_cases h59 : t.second % 60 = 59
    · rw [dif_pos (.inr h59), if_pos ⟨by omega, by omega, by omega, by omega⟩, if_pos (by omega)]
      simp only [Option.some.injEq, Prod.mk.injEq]
      omega
    · rw [dif_neg (by unfold IsRegular; omega), if_pos ⟨by omega, by omega, by omega, by omega⟩,
        if_neg (by omega)]
      simp only [Option.some.injEq, Prod.mk.injEq, and_true]
      omega
  · simp only [h, if_false]
    rw [dif_pos (.inl (by omega)), if_pos ⟨by omega, by omega, by omega, by omega⟩,
      if_neg (by omega)]
    simp only [Option.some.injEq, Prod.mk.injEq, and_true]
    omega

theorem ofParts?_parts (t : Instant) : ofParts? t.date t.second t.nano = some t :=
  dif_pos ⟨t.valid, t.second_lt, t.nano_lt⟩

theorem ofLocal?_clockTime (t : Instant) : ofLocal? t.date t.clockTime 0 = some t.settled := by
  have hparts : ofParts? t.date t.settled.second t.settled.nano = some t.settled :=
    date_settled t ▸ ofParts?_parts t.settled
  have hsecond := t.settled.second_lt
  have hnonneg : ¬ (t.settled.second : Int) < 0 := by omega
  simp only [ofLocal?, t.valid, ofDay?_clockTime]
  simp [hnonneg, hsecond, hparts]

/-- What an instant is written as ends where its parts do, so reading finds them all again. -/
theorem ofChars?_timeChars (t : Instant) {mark : List Char} (hrun : Decimal.EndsRun mark)
    (hpoint : mark.head? ≠ some '.') (hmark : offset? (Blank.trimStart mark) = some (0, [])) :
    ofChars? (t.timeChars ++ mark) = some t.settled := by
  have hsecond := t.second_lt
  have hnano := t.nano_lt
  have hunit : nanosPerSecond = 1000000000 := rfl
  have hmonth : t.date.month < Nat.pow 10 2 := by
    change t.date.month < 100
    have := t.valid.2.2.2.1
    omega
  have hday : t.date.day < Nat.pow 10 2 := by
    change t.date.day < 100
    have hle := t.valid.2.2.2.2.2
    unfold Date.daysIn at hle
    split at hle
    · split at hle <;> omega
    · split at hle <;> omega
  have hhour : t.second / 3600 < Nat.pow 10 2 := by
    change t.second / 3600 < 100
    omega
  have hminute : t.second / 60 % 60 < Nat.pow 10 2 := by
    change t.second / 60 % 60 < 100
    omega
  have hsec : t.clockTime.second < Nat.pow 10 2 := by
    change (t.second % 60 + if nanosPerSecond ≤ t.nano then 1 else 0) < 100
    split <;> omega
  have hfraction : t.clockTime.nano < nanosPerSecond := by
    change (if nanosPerSecond ≤ t.nano then t.nano - nanosPerSecond else t.nano) < nanosPerSecond
    split <;> omega
  have htime : t.timeChars ++ mark = yearChars t.date.year ++ '-' ::
      (Decimal.padded 2 t.date.month ++ '-' :: (Decimal.padded 2 t.date.day ++ 'T' ::
      (Decimal.padded 2 t.clockTime.hour ++ ':' :: (Decimal.padded 2 t.clockTime.minute ++ ':' ::
      (Decimal.padded 2 t.clockTime.second ++ (fractionChars t.clockTime.nano ++ mark)))))) := by
    simp [timeChars, clockTime, List.append_assoc]
  have hdash (rest : List Char) : mark? '-' ('-' :: rest) = some rest := mark?_cons (by decide) rest
  have hcolon (rest : List Char) : mark? ':' (':' :: rest) = some rest :=
    mark?_cons (by decide) rest
  rw [htime]
  refine Option.bind_eq_some_iff.2 ⟨_, year?_yearChars _ (Decimal.endsRun_cons (by decide)), ?_⟩
  refine Option.bind_eq_some_iff.2 ⟨_, hdash _, ?_⟩
  refine Option.bind_eq_some_iff.2 ⟨_, number?_padded (by decide) hmonth _, ?_⟩
  refine Option.bind_eq_some_iff.2 ⟨_, hdash _, ?_⟩
  refine Option.bind_eq_some_iff.2 ⟨_, number?_padded (by decide) hday _, ?_⟩
  refine Option.bind_eq_some_iff.2 ⟨_, rfl, ?_⟩
  refine Option.bind_eq_some_iff.2 ⟨_, number?_padded (by decide) hhour _, ?_⟩
  refine Option.bind_eq_some_iff.2 ⟨_, hcolon _, ?_⟩
  refine Option.bind_eq_some_iff.2 ⟨_, number?_padded (by decide) hminute _, ?_⟩
  refine Option.bind_eq_some_iff.2 ⟨_, hcolon _, ?_⟩
  refine Option.bind_eq_some_iff.2 ⟨_, number?_padded (by decide) hsec _, ?_⟩
  refine Option.bind_eq_some_iff.2 ⟨_, fraction?_fractionChars hfraction hrun hpoint, ?_⟩
  refine Option.bind_eq_some_iff.2 ⟨_, hmark, ?_⟩
  exact ofLocal?_clockTime t

/-- The text that an instant is kept as is read as that instant, settled. -/
theorem parse?_storedText (t : Instant) : parse? t.storedText = some t.settled := by
  rw [parse?, storedText, String.toList_ofList]
  exact ofChars?_timeChars t (Decimal.endsRun_cons (by decide)) (by decide) (by decide)

/-- The text of an instant is read as that instant, settled. -/
theorem parse?_text (t : Instant) : parse? t.text = some t.settled := by
  rw [parse?, text, String.toList_ofList]
  exact ofChars?_timeChars t (Decimal.endsRun_cons (by decide)) (by decide) (by decide)

/-! ## What can be read

A clock anywhere is ahead of universal time by whole minutes, so that the last second of a minute is
the last of a minute everywhere.
-/

theorem dvd_of_offsetDigits? {cs rest : List Char} {n : Nat}
    (h : offsetDigits? cs = some (n, rest)) : 60 ∣ n := by
  unfold offsetDigits? at h
  split at h
  · simp only [Option.bind_eq_bind, Option.bind_eq_some_iff] at h
    obtain ⟨-, -, h⟩ := h
    split at h
    · simp only [Option.bind_eq_some_iff] at h
      obtain ⟨-, -, h⟩ := h
      cases h
      omega
    · cases h
  · cases h

theorem dvd_of_offset? {cs rest : List Char} {offset : Int}
    (h : offset? cs = some (offset, rest)) : 60 ∣ offset := by
  have hsigned {sign : Nat × List Char → Int × List Char} {digits : List Char}
      (hdigits : (offsetDigits? digits).map sign = some (offset, rest))
      (hsign : ∀ p, 60 ∣ p.1 → 60 ∣ (sign p).1) : 60 ∣ offset := by
    obtain ⟨p, hp, hpair⟩ := Option.map_eq_some_iff.1 hdigits
    have hoffset := hsign p (dvd_of_offsetDigits? hp)
    rwa [hpair] at hoffset
  have hpos (n : Nat) (hn : 60 ∣ n) : (60 : Int) ∣ Int.ofNat n := by
    rw [Int.ofNat_eq_natCast]
    omega
  have hneg (n : Nat) (hn : 60 ∣ n) : (60 : Int) ∣ -Int.ofNat n := by
    rw [Int.ofNat_eq_natCast]
    omega
  unfold offset? at h
  split at h
  · cases h
    exact dvd_zero 60
  · cases h
    exact dvd_zero 60
  · exact hsigned h fun p ↦ hpos p.1
  · exact hsigned h fun p ↦ hneg p.1
  · exact hsigned h fun p ↦ hneg p.1
  · split at h
    · cases h
      exact dvd_zero 60
    · cases h
  · cases h

theorem ofParts?_eq_some {date : Date} {second nano : Nat} {t : Instant}
    (h : ofParts? date second nano = some t) : t.second = second ∧ t.nano = nano := by
  unfold ofParts? at h
  split at h
  · cases h
    exact ⟨rfl, rfl⟩
  · cases h

theorem ClockTime.ofDay?_eq_some {time : ClockTime} {second nano : Nat}
    (h : time.ofDay? = some (second, nano)) : nano < nanosPerSecond ∨ second % 60 = 59 := by
  unfold ofDay? at h
  split at h
  · rename_i hvalid
    dsimp only at h
    split at h
    · cases h
      omega
    · cases h
      exact .inl hvalid.2.2.2
  · cases h

theorem isRegular_of_ofLocal? {date : Date} {time : ClockTime} {offset : Int} {t : Instant}
    (hoffset : 60 ∣ offset) (h : ofLocal? date time offset = some t) : t.IsRegular := by
  obtain ⟨_, hguard, h⟩ := Option.bind_eq_some_iff.1 h
  obtain ⟨⟨second, nano⟩, hday, h⟩ := Option.bind_eq_some_iff.1 h
  have hrange : -86400 < offset ∧ offset < 86400 := by
    by_contra hnot
    rw [guard, if_neg fun hvalid ↦ hnot hvalid.2] at hguard
    cases hguard
  have hparts : ∃ shifted : Nat,
      shifted % 60 = second % 60 ∧ t.second = shifted ∧ t.nano = nano := by
    simp only [Int.ofNat_eq_natCast] at h
    split at h
    · exact ⟨_, by omega, ofParts?_eq_some h⟩
    · split at h
      · exact ⟨_, by omega, ofParts?_eq_some h⟩
      · exact ⟨_, by omega, ofParts?_eq_some h⟩
  obtain ⟨shifted, hmod, hsecond, hnano⟩ := hparts
  rw [IsRegular, hnano, hsecond, hmod]
  exact ClockTime.ofDay?_eq_some hday

/-- Whatever a text says is regular. -/
theorem isRegular_of_parse? {s : String} {t : Instant} (h : parse? s = some t) : t.IsRegular := by
  obtain ⟨⟨year, _⟩, -, h⟩ := Option.bind_eq_some_iff.1 h
  obtain ⟨_, -, h⟩ := Option.bind_eq_some_iff.1 h
  obtain ⟨⟨month, _⟩, -, h⟩ := Option.bind_eq_some_iff.1 h
  obtain ⟨_, -, h⟩ := Option.bind_eq_some_iff.1 h
  obtain ⟨⟨day, _⟩, -, h⟩ := Option.bind_eq_some_iff.1 h
  obtain ⟨_, -, h⟩ := Option.bind_eq_some_iff.1 h
  obtain ⟨⟨hour, _⟩, -, h⟩ := Option.bind_eq_some_iff.1 h
  obtain ⟨_, -, h⟩ := Option.bind_eq_some_iff.1 h
  obtain ⟨⟨minute, _⟩, -, h⟩ := Option.bind_eq_some_iff.1 h
  obtain ⟨_, -, h⟩ := Option.bind_eq_some_iff.1 h
  obtain ⟨⟨second, _⟩, -, h⟩ := Option.bind_eq_some_iff.1 h
  obtain ⟨⟨nano, _⟩, -, h⟩ := Option.bind_eq_some_iff.1 h
  obtain ⟨⟨offset, _⟩, hoffset, h⟩ := Option.bind_eq_some_iff.1 h
  obtain ⟨_, -, h⟩ := Option.bind_eq_some_iff.1 h
  exact isRegular_of_ofLocal? (dvd_of_offset? hoffset) h

end WhisperChat.Instant

/-- The instant that time is counted from. -/
def WhisperChat.ClockReading.epoch : WhisperChat.ClockReading where
  date := ⟨1970, 1, 1⟩
  second := 0
  nano := 0
  valid := by decide
  second_lt := by decide
  nano_lt := by decide
  isRegular := by decide
