import WhisperChat.Instant.Date

/-!
# Instants

An instant is a moment in universal time, to the nanosecond.  A leap second is told by a count of
nanoseconds of a second and more.  It may follow any second, but neither a text nor a clock gives
one that does not follow the last of a minute.
-/

namespace WhisperChat

abbrev nanosPerSecond : Nat := 1000000000

/-- A moment in universal time. -/
structure Instant where
  date : Date
  /-- Seconds since midnight, a leap second not counted. -/
  second : Nat
  /-- Nanoseconds since the second began; a second or more inside a leap second. -/
  nano : Nat
  valid : date.IsValid
  second_lt : second < 86400
  nano_lt : nano < 2 * nanosPerSecond
  deriving DecidableEq

namespace Instant

/-- Whether a leap second stands where one can be, after the last second of a minute.  Elsewhere it
cannot be told in writing from the second that follows. -/
def IsRegular (t : Instant) : Prop := t.nano < nanosPerSecond ∨ t.second % 60 = 59

instance (t : Instant) : Decidable t.IsRegular := inferInstanceAs (Decidable (_ ∨ _))

/-- A time as it stands on a clock somewhere: hour, minute, second up to 60, nanosecond. -/
structure ClockTime where
  hour : Nat
  minute : Nat
  second : Nat
  nano : Nat
  deriving DecidableEq

/-- The seconds since midnight and the nanoseconds of a time on a clock, if there is such a time. -/
def ClockTime.ofDay? (t : ClockTime) : Option (Nat × Nat) :=
  if t.hour < 24 ∧ t.minute < 60 ∧ t.second ≤ 60 ∧ t.nano < nanosPerSecond then
    let minutes := t.hour * 60 + t.minute
    if t.second = 60 then some (minutes * 60 + 59, nanosPerSecond + t.nano)
    else some (minutes * 60 + t.second, t.nano)
  else none

def ofParts? (date : Date) (second nano : Nat) : Option Instant :=
  if h : date.IsValid ∧ second < 86400 ∧ nano < 2 * nanosPerSecond then
    some ⟨date, second, nano, h.1, h.2.1, h.2.2⟩
  else none

/-- The instant at which a clock that is `offset` seconds ahead of universal time shows the date and
the time.  Whole minutes only can be offset; a day is never passed by more than one. -/
def ofLocal? (date : Date) (time : ClockTime) (offset : Int) : Option Instant := do
  guard (date.IsValid ∧ -86400 < offset ∧ offset < 86400)
  let (second, nano) ← time.ofDay?
  let shifted := Int.ofNat second - offset
  if shifted < 0 then ofParts? date.previous (shifted + 86400).toNat nano
  else if shifted < 86400 then ofParts? date shifted.toNat nano
  else ofParts? date.next (shifted - 86400).toNat nano

end Instant

/-- An instant as the clock of the program gives it. -/
structure ClockReading extends Instant where
  isRegular : toInstant.IsRegular
  deriving DecidableEq

end WhisperChat
