import WhisperChat.Http.Uri
import WhisperChat.Token.Basic

/-!
# Admission to the gateway

A client that wants a connection gives its token in the query of the address.  The token is looked
at before there is a connection, so that a connection knows its user from the start.
-/

namespace WhisperChat.Admission

/-- Why a client is not admitted. -/
inductive Refusal where
  /-- The query has no token, or more than one. -/
  | badQuery
  | unauthorized
  deriving DecidableEq

def Refusal.status : Refusal → Nat
  | badQuery => 400
  | unauthorized => 401

def address (query : String) : String := "/gateway?" ++ query

/-- The user that the address speaks for, under the secret and at the given second since 1970. -/
def bearer (decode : Token.Decoder) (secret : String) (now : Nat) (uri : String) :
    Except Refusal UserId :=
  match Uri.single? (Uri.formPairs (Uri.query uri)) "token" with
  | some (some token) =>
    match decode secret token now with
    | some claims => .ok claims.subject
    | none => .error .unauthorized
  | _ => .error .badQuery

end WhisperChat.Admission
