/-!
# Media types

What a body is said to hold: a type, a subtype, and parameters.  Whether this is JSON is a matter of
the type `application` and of the subtype, or of what follows the last plus sign in it.
-/

namespace WhisperChat.MediaType

def isTokenChar (c : Char) : Bool :=
  c.isAlphanum || "!#$%&'*+-.^_|~".toList.contains c || c = Char.ofNat 96

def name (cs : List Char) : List Char × List Char := cs.span isTokenChar

def isQuotedChar (c : Char) : Bool := 32 ≤ c.toNat && c.toNat ≠ 127

/-- What follows a value in quotation marks, the first of which has been read, and the blanks behind
it.  The value is not empty: a mark right behind the first one belongs to it. -/
def afterQuoted? : List Char → Option (List Char)
  | [] => none
  | c :: cs =>
    if isQuotedChar c then
      match cs.dropWhile fun c ↦ c ≠ '"' && isQuotedChar c with
      | '"' :: rest => some (rest.dropWhile (· = ' '))
      | _ => none
    else none

/-- Whether the characters are parameters, each a name and a value, with semicolons between them. -/
def areParameters : (fuel : Nat) → List Char → Bool
  | _, [] => true
  | 0, _ => false
  | fuel + 1, ' ' :: cs => areParameters fuel cs
  | fuel + 1, cs =>
    match name cs with
    | ([], _) => false
    | (_, '=' :: '"' :: rest) =>
      match afterQuoted? rest with
      | some [] => true
      | some (';' :: rest) => areParameters fuel rest
      | _ => false
    | (_, '=' :: rest) =>
      match name rest with
      | (_, []) => true
      | ([], _) => false
      | (_, ';' :: rest) => areParameters fuel rest
      | _ => false
    | _ => false

def lower (cs : List Char) : String := String.ofList (cs.map Char.toLower)

/-- Whether the subtype is JSON: all of it up to the last plus sign, or what follows that sign. -/
def isJsonSubtype (subtype : List Char) : Bool :=
  let reversed := subtype.reverse
  let suffix := (reversed.takeWhile (· ≠ '+')).reverse
  match (reversed.dropWhile (· ≠ '+')).reverse with
  | [] | ['+'] => lower subtype = "json"
  | before => lower before.dropLast = "json" || lower suffix = "json"

/-- Whether a text names JSON as the type of a body. -/
def isJson (text : String) : Bool :=
  match name text.toList with
  | (type, '/' :: rest) =>
    let (subtype, rest) := name rest
    let parameters := match rest with
      | [] => true
      | ';' :: rest => areParameters rest.length rest
      | _ => false
    lower type = "application" && !subtype.isEmpty && parameters && isJsonSubtype subtype
  | _ => false

end WhisperChat.MediaType
