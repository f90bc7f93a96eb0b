import WhisperChat.Wire.Target

/-!
# Requests on the wire

A request to send a message is an object.  Its text is judged in reading order: what is objected to
first decides whether the text is said to be malformed or to hold something else than a request.
The content and the lists of a whisper are read where they stand; all other members are kept until
the end, when the type of the target is looked for among them.
-/

namespace WhisperChat

inductive Refusal where
  /-- The text is not JSON, or says what no value can hold. -/
  | malformed
  /-- The text is JSON but not what is wanted. -/
  | mismatch
  deriving DecidableEq

namespace Wire

/-- The objection to a value where another type of value is wanted. -/
def objection : Json → Refusal
  | .broken => .malformed
  | .text none => .malformed
  | .number value => if value.isFinite then .mismatch else .malformed
  | _ => .mismatch

def readString (value : Json) : Except Refusal String :=
  match string? value with
  | some s => .ok s
  | none => .error (objection value)

def readId (kind : IdentKind) (value : Json) : Except Refusal (Ident kind) :=
  match id? kind value with
  | some a => .ok a
  | none => .error (objection value)

def readIds (kind : IdentKind) : Json → Except Refusal (List (Ident kind))
  | .array items closed => do
    let ids ← items.mapM (readId kind)
    if closed then return ids else throw .malformed
  | value => .error (objection value)

end Wire

namespace SendRequest

structure Progress where
  content : Option String := none
  whisperUsers : Option (List UserId) := none
  whisperGroups : Option (List GroupId) := none
  /-- The other members, last first. -/
  others : List (Option String × Json) := []

namespace Progress

/-- Reads one member.  A repeated name is objected to before its value is looked at. -/
def take (p : Progress) (member : Option String × Json) : Except Refusal Progress :=
  match member with
  | (none, _) => throw .malformed
  | (some name, value) =>
    if name = "content" then do
      if p.content.isSome then throw .mismatch
      return { p with content := some (← Wire.readString value) }
    else if name = "whisper_to_user_ids" then do
      if p.whisperUsers.isSome then throw .mismatch
      return { p with whisperUsers := some (← Wire.readIds .user value) }
    else if name = "whisper_to_group_ids" then do
      if p.whisperGroups.isSome then throw .mismatch
      return { p with whisperGroups := some (← Wire.readIds .group value) }
    else if value.keepable Wire.keptDepth then
      .ok { p with others := (some name, value) :: p.others }
    else
      throw .malformed

/-- The type of the target, by name or by number. -/
def kind? : Json → Option Target.Kind
  | .text value => value.bind Target.Kind.ofName?
  | .number (.integer 0) => some .channel
  | .number (.integer 1) => some .direct
  | _ => none

/-- The target among the other members. -/
def target? (p : Progress) : Option Target := do
  let members := p.others.reverse
  let fields ← Wire.fields? ["type"] members
  let kind ← Wire.required? fields "type" kind?
  Target.ofMembers? kind members

/-- The request, once all members have been read. -/
def finish? (p : Progress) : Option SendRequest := do
  let content ← p.content
  let target ← p.target?
  return ⟨target, content, p.whisperUsers.getD [], p.whisperGroups.getD []⟩

end Progress

def ofTree : Json → Except Refusal SendRequest
  | .object members closed => do
    let progress ← members.foldlM Progress.take {}
    if !closed then throw .malformed
    match progress.finish? with
    | some request => return request
    | none => throw .mismatch
  | value => .error (Wire.objection value)

def read (s : String) : Except Refusal SendRequest := do
  let reading := Json.read s
  let request ← ofTree reading.tree
  if reading.alone then return request else throw .malformed

end SendRequest

end WhisperChat
