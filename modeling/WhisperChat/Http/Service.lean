import WhisperChat.Dispatcher
import WhisperChat.Http.Error
import WhisperChat.Http.MediaType
import WhisperChat.Http.Uri
import WhisperChat.Page
import WhisperChat.Send
import WhisperChat.Store.Shared
import WhisperChat.Token.Basic
import WhisperChat.Wire.Message
import WhisperChat.Wire.Request

/-!
# The service over HTTP

A request is answered in two parts.  Routing looks at the request alone: it says whom it speaks for
and either refuses it or says what is to be done.  The job then uses the database and, for a message
that was sent, the dispatcher, in two separate steps: the message is committed before anybody is
told of it, and a client that goes away in between changes nothing.
-/

namespace WhisperChat.Http

structure Request where
  method : String
  uri : String
  authorization : Option String := none
  contentType : Option String := none
  body : String := ""

structure Reply where
  status : Nat
  body : Option Json := none

/-- What a request asks for, once it is understood. -/
inductive Job where
  | send (sender : UserId) (request : SendRequest)
  | get (viewer : UserId) (message : MessageId)
  | list (viewer : UserId) (channel : ChannelId) (window : Window)
  | addMember (group : GroupId) (user : UserId)
  | removeMember (group : GroupId) (user : UserId)
  deriving DecidableEq

structure Service where
  shared : SharedDatabase := {}
  dispatcher : Dispatcher := {}
  /-- How tokens are read. -/
  decode : Token.Decoder
  /-- The secret that tokens are signed under. -/
  secret : String
  /-- The most messages that a page may be asked for. -/
  maxPage : Nat

def Reply.ofError (e : ApiError) : Reply := ⟨e.status, some e.body⟩

def Reply.success (members : List (String × Json)) : Reply :=
  ⟨200, some (.record (("result", .str "success") :: members))⟩

/-! ## Who asks -/

/-- Whether the character may stand in the value of a header that is read as text. -/
def isHeaderChar (c : Char) : Bool := c = '\t' || (32 ≤ c.toNat && c.toNat < 127)

def bearerToken? (value : String) : Option String :=
  let cs := value.toList
  if cs.all isHeaderChar && "Bearer ".toList.isPrefixOf cs then some (String.ofList (cs.drop 7))
  else none

def Request.claims? (r : Request) (decode : Token.Decoder) (secret : String) (now : Nat) :
    Option Claims := do
  let token ← r.authorization.bind bearerToken?
  decode secret token now

/-! ## What is asked -/

inductive Route where
  | messages
  | message (id : List Char)
  | history (channel : List Char)
  | member (group user : List Char)
  deriving DecidableEq

/-- The route of a path.  A last segment that is empty is none. -/
def Route.ofPath? (path : List Char) : Option Route :=
  match (Uri.segments path).map fun s ↦ (String.ofList s, s) with
  | [("messages", _)] => some .messages
  | [("messages", _), (_, id)] => if id.isEmpty then none else some (.message id)
  | [("channels", _), (_, channel), ("messages", _)] => some (.history channel)
  | [("groups", _), (_, group), ("members", _), (_, user)] =>
    if user.isEmpty then none else some (.member group user)
  | _ => none

def ident? (kind : IdentKind) (segment : List Char) : Option (Ident kind) := do
  let text ← Uri.segmentText? segment
  let n ← Decimal.int? text
  Ident.ofInt? kind n

/-- A part of a query that has a value when it is missing. -/
def queryField? {α : Type} (pairs : List (String × String)) (name : String) (missing : α)
    (read : String → Option α) : Option α := do
  match ← Uri.single? pairs name with
  | none => return missing
  | some text => read text

def countBound : Nat := 0x10000000000000000

/-- The window that a query asks for: by default the last fifty messages. -/
def window? (query : List Char) : Option Window := do
  let pairs := Uri.formPairs query
  let anchor ← queryField? pairs "anchor" .newest Anchor.parse?
  let before ← queryField? pairs "num_before" 50 (Decimal.natBelow? countBound)
  let after ← queryField? pairs "num_after" 0 (Decimal.natBelow? countBound)
  return ⟨anchor, before, after⟩

/-- The number of messages that a window asks for, as large as a count can be at most. -/
def total (w : Window) : Nat := min (w.before + w.after) (countBound - 1)

def maxBody : Nat := 2097152

def sendRequest (r : Request) : Except Reply SendRequest :=
  if !r.contentType.any fun text ↦ text.toList.all isHeaderChar && MediaType.isJson text then
    .error ⟨415, none⟩
  else if maxBody < r.body.utf8ByteSize then .error ⟨413, none⟩
  else
    match SendRequest.read r.body with
    | .ok request => .ok request
    | .error .malformed => .error ⟨400, none⟩
    | .error .mismatch => .error ⟨422, none⟩

/-- What is to be done for a user at a route, or the refusal. -/
def Route.job (route : Route) (r : Request) (user : UserId) (maxPage : Nat) : Except Reply Job :=
  let isRead := r.method = "GET" || r.method = "HEAD"
  match route with
  | .messages =>
    if r.method = "POST" then (sendRequest r).map (.send user) else .error ⟨405, none⟩
  | .message id =>
    if isRead then
      match ident? .message id with
      | some id => .ok (.get user id)
      | none => .error ⟨400, none⟩
    else .error ⟨405, none⟩
  | .history channel =>
    if isRead then
      match ident? .channel channel, window? (Uri.query r.uri) with
      | some channel, some window =>
        if maxPage < total window then
          .error (.ofError (.badRequest s!"Too many messages requested (maximum {maxPage})."))
        else .ok (.list user channel window)
      | _, _ => .error ⟨400, none⟩
    else .error ⟨405, none⟩
  | .member group whom =>
    if r.method = "PUT" || r.method = "DELETE" then
      match ident? .group group, ident? .user whom with
      | some group, some whom =>
        .ok (if r.method = "PUT" then .addMember group whom else .removeMember group whom)
      | _, _ => .error ⟨400, none⟩
    else .error ⟨405, none⟩

/-- What a request asks for, or the refusal.  Who asks is settled first. -/
def Service.route (s : Service) (now : Nat) (r : Request) : Except Reply Job :=
  match r.claims? s.decode s.secret now with
  | none => .error ⟨401, none⟩
  | some claims =>
    match Route.ofPath? (Uri.path r.uri) with
    | none => .error ⟨404, none⟩
    | some route => route.job r claims.subject s.maxPage

/-! ## Doing it -/

namespace Service

/-- Commits a message: the first step of a send. -/
def commit (s : Service) (now : ClockReading) (sender : UserId) (request : SendRequest) :
    Except ApiError Sent × Service :=
  let outcome := s.shared.atomic [] (send now sender request)
  (outcome.answer.mapError Failure.toApiError, { s with shared := outcome.shared })

/-- Tells the audience of a message that was committed: the second step of a send. -/
def announce (s : Service) (sent : Sent) : Service :=
  { s with
    dispatcher := (s.dispatcher.fanOut sent.audience.toList (.messageCreated sent.message)).2 }

def read {α : Type} (s : Service) (w : Work α) : Except ApiError α × Service :=
  let outcome := s.shared.read [] w
  (outcome.answer.mapError Failure.toApiError, { s with shared := outcome.shared })

def statement {α : Type} (s : Service) (f : Database → Except StoreError (α × Database)) :
    Except ApiError α × Service :=
  let (answer, shared) := s.shared.statement f
  (answer.mapError fun cause ↦ .whisper (.store cause), { s with shared })

/-- Changes a membership of a group and a user that are both there; the group is looked for
first. -/
def changeMembership (s : Service) (group : GroupId) (user : UserId)
    (change : Database → Except StoreError (Bool × Database)) : Except ApiError Bool × Service :=
  match s.statement fun db ↦ .ok (db.groupExists group, db) with
  | (.error e, s) => (.error e, s)
  | (.ok false, s) => (.error (.whisper (.unknownRecipient (.group group))), s)
  | (.ok true, s) =>
    match s.statement fun db ↦ .ok (db.userExists user, db) with
    | (.error e, s) => (.error e, s)
    | (.ok false, s) => (.error (.whisper (.unknownRecipient (.user user))), s)
    | (.ok true, s) => s.statement change

def perform (s : Service) (now : ClockReading) (job : Job) :
    Except ApiError (List (String × Json)) × Service :=
  match job with
  | .send sender request =>
    match s.commit now sender request with
    | (.error e, s) => (.error e, s)
    | (.ok sent, s) => (.ok [("id", .int sent.message.id.val)], s.announce sent)
  | .get viewer message =>
    let (answer, s) := s.read (getMessage viewer message)
    (answer.map fun message ↦ [("message", message.toJson)], s)
  | .list viewer channel window =>
    let (answer, s) := s.read (listMessages viewer channel window)
    (answer.map fun messages ↦
      [("anchor", .str window.anchor.text), ("messages", .list (messages.map Message.toJson))], s)
  | .addMember group user =>
    let (answer, s) := s.changeMembership group user (·.addMember group user)
    (answer.map fun changed ↦ [("changed", .bool changed)], s)
  | .removeMember group user =>
    let (answer, s) := s.changeMembership group user (·.removeMember group user)
    (answer.map fun changed ↦ [("changed", .bool changed)], s)

def answer (s : Service) (now : ClockReading) (second : Nat) (r : Request) : Reply × Service :=
  let (reply, s) := match s.route second r with
    | .error reply => (reply, s)
    | .ok job =>
      match s.perform now job with
      | (.error e, s) => (Reply.ofError e, s)
      | (.ok members, s) => (Reply.success members, s)
  (if r.method = "HEAD" then { reply with body := none } else reply, s)

end Service

end WhisperChat.Http
