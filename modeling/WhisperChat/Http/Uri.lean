/-!
# Paths and queries

A path is a list of segments between slashes, a query a list of names and values.  Both may hold
bytes as a percent sign and two hexadecimal digits.
-/

namespace WhisperChat.Uri

def split {α : Type} [DecidableEq α] (separator : α) : List α → List (List α)
  | [] => [[]]
  | c :: cs =>
    match split separator cs with
    | [] => [[c]]
    | part :: parts => if c = separator then [] :: part :: parts else (c :: part) :: parts

def hexValue? (b : UInt8) : Option UInt8 :=
  if 48 ≤ b ∧ b ≤ 57 then some (b - 48)
  else if 97 ≤ b ∧ b ≤ 102 then some (b - 87)
  else if 65 ≤ b ∧ b ≤ 70 then some (b - 55)
  else none

/-- Replaces each percent sign and two hexadecimal digits by the byte they stand for. -/
def percentDecode : List UInt8 → List UInt8
  | 37 :: a :: b :: rest =>
    match hexValue? a, hexValue? b with
    | some high, some low => (high * 16 + low) :: percentDecode rest
    | _, _ => 37 :: percentDecode (a :: b :: rest)
  | b :: rest => b :: percentDecode rest
  | [] => []

def bytes (cs : List Char) : List UInt8 := (String.ofList cs).toUTF8.toList

/-- The text that a segment stands for, if its bytes are one. -/
def segmentText? (cs : List Char) : Option String :=
  String.fromUTF8? ⟨(percentDecode (bytes cs)).toArray⟩

/-- The text that a name or value of a query stands for, where a plus sign is a space.  Bytes that
are no text are replaced by a character that no name or value has. -/
def formText (cs : List Char) : String :=
  let spaced := cs.map fun c ↦ if c = '+' then ' ' else c
  (String.fromUTF8? ⟨(percentDecode (bytes spaced)).toArray⟩).getD "\uFFFD"

def formPair (cs : List Char) : String × String :=
  (formText (cs.takeWhile (· ≠ '=')), formText ((cs.dropWhile (· ≠ '=')).drop 1))

def formPairs (query : List Char) : List (String × String) :=
  ((split '&' query).filter (! ·.isEmpty)).map formPair

/-- The value of a name that may occur at most once: nothing for a name that is missing. -/
def single? (pairs : List (String × String)) (name : String) : Option (Option String) :=
  match pairs.filter fun pair ↦ pair.1 = name with
  | [] => some none
  | [(_, value)] => some (some value)
  | _ => none

/-- The characters without a scheme and an authority in front of the path. -/
def withoutAuthority (cs : List Char) : List Char :=
  match cs with
  | '/' :: _ => cs
  | _ =>
    match cs.dropWhile (· ≠ ':') with
    | ':' :: '/' :: '/' :: rest =>
      match rest.dropWhile fun c ↦ c ≠ '/' && c ≠ '?' with
      | '/' :: path => '/' :: path
      | rest => '/' :: rest
    | _ => []

def path (uri : String) : List Char :=
  (withoutAuthority uri.toList).takeWhile fun c ↦ c ≠ '?' && c ≠ '#'

/-- The query of an address, empty where there is none. -/
def query (uri : String) : List Char :=
  (((withoutAuthority uri.toList).takeWhile (· ≠ '#')).dropWhile (· ≠ '?')).drop 1

def segments : List Char → List (List Char)
  | '/' :: cs => split '/' cs
  | _ => []

end WhisperChat.Uri
