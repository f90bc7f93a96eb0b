import WhisperChat.Json.Written
import WhisperChat.Token.Base64
import WhisperChat.Token.Sha256
import WhisperChat.Wire.Field

/-!
# Tokens

A token is a header, claims and a signature, each in base 64, with points between them.  Only
signatures by a shared secret are accepted.  The claims say who the bearer is and until when; a
token that is meant for a particular audience is refused, as this service names none.
-/

namespace WhisperChat

structure Claims where
  /-- Whom the token speaks for. -/
  subject : UserId
  /-- The second since 1970 at which it expires. -/
  expiry : Nat
  deriving DecidableEq

namespace Token

/-- A way to read tokens: the claims of those that are accepted under a secret at a second since
1970. -/
abbrev Decoder : Type := (secret token : String) → (now : Nat) → Option Claims

/-- The seconds that a token is honoured beyond its expiry, for clocks that differ. -/
def leeway : Nat := 60

def utf8 (cs : List Char) : List UInt8 := (String.ofList cs).toUTF8.toList

def signature (secret : String) (message : List Char) : List Char :=
  Base64.encode (Sha256.hmac (utf8 secret.toList) (utf8 message))

/-! ## Writing -/

def header : Json := .record [("typ", .str "JWT"), ("alg", .str "HS256")]

def claimsJson (c : Claims) : Json :=
  .record [("sub", .int c.subject.val), ("exp", .int (Int.ofNat c.expiry))]

def sign (secret : String) (c : Claims) : String :=
  let message :=
    Base64.encode (utf8 header.chars) ++ '.' :: Base64.encode (utf8 (claimsJson c).chars)
  String.ofList (message ++ '.' :: signature secret message)

/-! ## Reading -/

def splitLast? (cs : List Char) : Option (List Char × List Char) :=
  let reversed := cs.reverse
  match reversed.dropWhile (· ≠ '.') with
  | [] => none
  | _ :: before => some (before.reverse, (reversed.takeWhile (· ≠ '.')).reverse)

/-- The value whose text the characters hold in base 64. -/
def json? (cs : List Char) : Option Json := do
  let bytes ← Base64.decode? cs
  let text ← String.fromUTF8? ⟨bytes.toArray⟩
  Json.parse? text

/-- The fields of a header that are texts where they are there. -/
def textFields : List String := ["typ", "cty", "jku", "kid", "x5u", "x5t", "x5t#S256"]

def texts? : Json → Option (List String)
  | .array items _ => items.mapM Wire.string?
  | _ => none

def isNull : Json → Bool
  | .null => true
  | _ => false

/-- Whether a header names the one way of signing that is accepted, and is otherwise in order. -/
def isHeader : Json → Bool
  | .object members _ =>
    match Wire.fields? ("alg" :: "jwk" :: "x5c" :: textFields) members with
    | none => false
    | some fields =>
      Wire.required? fields "alg" Wire.string? = some "HS256" &&
        (textFields.all fun name ↦
          (Wire.defaulted? fields name none (Wire.orNull? Wire.string?)).isSome) &&
        (Wire.defaulted? fields "x5c" none (Wire.orNull? texts?)).isSome &&
        (fields.lookup "jwk").all isNull
  | _ => false

def seconds? : Json → Option Nat
  | .number (.integer (.ofNat n)) => if n < 0x10000000000000000 then some n else none
  | _ => none

/-- Whether the value names an audience: a text or a list of texts. -/
def namesAudience (value : Json) : Bool := (Wire.string? value).isSome || (texts? value).isSome

/-- Whether a claim that is not used can be passed over. -/
def isPassable : Json → Bool
  | .array items _ => items.isEmpty
  | .object members _ => members.isEmpty
  | .text value => value.isSome
  | _ => true

/-- The claims that a value stands for, if they name no audience. -/
def claims? : Json → Option Claims
  | .object members _ => do
    let fields ← Wire.fields? ["sub", "exp", "nbf", "iss", "aud"] members
    let subject ← Wire.required? fields "sub" (Wire.id? .user)
    let expiry ← Wire.required? fields "exp" seconds?
    guard ((fields.lookup "nbf").all isPassable)
    guard ((fields.lookup "iss").all fun value ↦ value.keepable 126)
    guard ((fields.lookup "aud").all fun value ↦ value.keepable 126 && !namesAudience value)
    return ⟨subject, expiry⟩
  | _ => none

/-- The claims of a token at the given second since 1970, if it is in order, was signed under the
secret, and has not expired. -/
def decode? (secret token : String) (now : Nat) : Option Claims := do
  let (message, given) ← splitLast? token.toList
  let (head, body) ← splitLast? message
  guard ((json? head).any isHeader)
  guard (given = signature secret message)
  let claims ← (json? body).bind claims?
  guard (now ≤ claims.expiry + leeway)
  return claims

end Token

end WhisperChat
