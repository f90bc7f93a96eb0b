import WhisperChat.Decimal

/-!
# Socket addresses

An address to listen on is an IP address and a port.  An address of version 4 is four numbers
between points; one of version 6 is eight groups of hexadecimal digits between colons, in brackets,
where two colons may stand for groups of zeros and the last two groups may be an address of version
4.  Names are no addresses.
-/

namespace WhisperChat

inductive IpAddress where
  | v4 (octets : List Nat)
  | v6 (groups : List Nat) (scope : Nat)
  deriving DecidableEq

structure SocketAddress where
  ip : IpAddress
  port : Nat
  deriving DecidableEq

namespace SocketAddress

def digit? (hexadecimal : Bool) (c : Char) : Option Nat :=
  if c.isDigit then some (c.toNat - 48)
  else if hexadecimal && 'a' ≤ c && c ≤ 'f' then some (c.toNat - 87)
  else if hexadecimal && 'A' ≤ c && c ≤ 'F' then some (c.toNat - 55)
  else none

/-- The digits in front of a text, as many as there are, and what follows them. -/
def digits (hexadecimal : Bool) : List Char → List Nat × List Char
  | [] => ([], [])
  | c :: cs =>
    match digit? hexadecimal c with
    | some d => let (ds, rest) := digits hexadecimal cs; (d :: ds, rest)
    | none => ([], c :: cs)

def numeral (base : Nat) (ds : List Nat) : Nat := ds.foldl (fun n d ↦ n * base + d) 0

/-- A decimal number below a bound, of any number of digits. -/
def number? (bound : Nat) (cs : List Char) : Option (Nat × List Char) :=
  let (ds, rest) := digits false cs
  if ds ≠ [] ∧ numeral 10 ds < bound then some (numeral 10 ds, rest) else none

/-- A number of at most three digits below 256, without zeros in front. -/
def octet? (cs : List Char) : Option (Nat × List Char) :=
  let (ds, rest) := digits false cs
  if ds ≠ [] ∧ ds.length ≤ 3 ∧ (ds.head? ≠ some 0 ∨ ds.length = 1) ∧ numeral 10 ds < 256 then
    some (numeral 10 ds, rest)
  else none

/-- One to four hexadecimal digits. -/
def group? (cs : List Char) : Option (Nat × List Char) :=
  let (ds, rest) := digits true cs
  if ds ≠ [] ∧ ds.length ≤ 4 then some (numeral 16 ds, rest) else none

def after? (c : Char) : List Char → Option (List Char)
  | [] => none
  | d :: cs => if d = c then some cs else none

/-- What follows the separator that stands in front of all parts but the first. -/
def afterSeparator? (c : Char) (isFirst : Bool) (cs : List Char) : Option (List Char) :=
  if isFirst then some cs else after? c cs

/-- Four numbers between points. -/
def v4? (cs : List Char) : Option (List Nat × List Char) := do
  let (a, cs) ← octet? cs
  let (b, cs) ← octet? (← after? '.' cs)
  let (c, cs) ← octet? (← after? '.' cs)
  let (d, cs) ← octet? (← after? '.' cs)
  return ([a, b, c, d], cs)

/-- The two groups that an address of version 4 stands for. -/
def embedded : List Nat → List Nat
  | [a, b, c, d] => [a * 256 + b, c * 256 + d]
  | _ => []

/-- The groups that were read, whether the last of them are an address of version 4, and what is
left. -/
structure Groups where
  groups : List Nat
  endsInV4 : Bool
  rest : List Char

/-- Reads as many groups as there are, up to a limit.  An address of version 4 counts as two groups
and is the last. -/
def groups (isFirst : Bool) : (limit : Nat) → List Char → Groups
  | 0, cs => ⟨[], false, cs⟩
  | limit + 1, cs =>
    match (if limit = 0 then none else (afterSeparator? ':' isFirst cs).bind v4?) with
    | some (octets, rest) => ⟨embedded octets, true, rest⟩
    | none =>
      match (afterSeparator? ':' isFirst cs).bind group? with
      | none => ⟨[], false, cs⟩
      | some (g, rest) =>
        let more := groups false limit rest
        { more with groups := g :: more.groups }

/-- Eight groups.  Two colons stand for the groups that are missing, one at least. -/
def v6? (cs : List Char) : Option (List Nat × List Char) := do
  let front := groups true 8 cs
  if front.groups.length = 8 then return (front.groups, front.rest)
  guard !front.endsInV4
  let cs ← after? ':' (← after? ':' front.rest)
  let back := groups true (7 - front.groups.length) cs
  let zeros := List.replicate (8 - front.groups.length - back.groups.length) 0
  return (front.groups ++ zeros ++ back.groups, back.rest)

def port? (cs : List Char) : Option (Nat × List Char) := do number? 0x10000 (← after? ':' cs)

/-- The scope of an address behind a percent sign; zero where there is none. -/
def scope (cs : List Char) : Nat × List Char :=
  ((after? '%' cs).bind (number? 0x100000000)).getD (0, cs)

def read? (cs : List Char) : Option (SocketAddress × List Char) :=
  match (do
    let (octets, cs) ← v4? cs
    let (port, cs) ← port? cs
    return (⟨.v4 octets, port⟩, cs) : Option (SocketAddress × List Char)) with
  | some reading => some reading
  | none => do
    let (groups, cs) ← v6? (← after? '[' cs)
    let (scope, cs) := scope cs
    let (port, cs) ← port? (← after? ']' cs)
    return (⟨.v6 groups scope, port⟩, cs)

def parse? (s : String) : Option SocketAddress :=
  match read? s.toList with
  | some (address, []) => some address
  | _ => none

end SocketAddress

end WhisperChat
