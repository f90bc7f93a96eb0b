import WhisperChat.Json.Basic
import WhisperChat.Json.Token

/-!
# From tokens to a tree

The tree of a text is built by one pass over its tokens.  The arrays and objects that are open at a
point of the text are kept as a list of frames, innermost first; a token either fits what is awaited
there, or the tree is finished as it stands.
-/

namespace WhisperChat.Json

/-- An array or object that has been opened and not yet closed. -/
inductive Frame where
  /-- The items so far, last first. -/
  | array (items : List Json)
  /-- The members so far, last first, and the name that awaits its value. -/
  | object (members : List (Option String × Json)) (name : Option String)

/-- What may come next. -/
inductive Awaited where
  | value
  /-- The first item of an array, or its end. -/
  | firstItem
  | itemEnd (items : List Json)
  /-- The first name of an object, or its end. -/
  | firstName
  | name (members : List (Option String × Json))
  | colon (members : List (Option String × Json)) (name : Option String)
  | memberEnd (members : List (Option String × Json))

namespace Frame

/-- The tree when the text breaks off after `value` inside the frames. -/
def abandon (value : Json) : List Frame → Json
  | [] => value
  | array items :: frames => abandon (.array (value :: items).reverse false) frames
  | object members name :: frames =>
    abandon (.object ((name, value) :: members).reverse false) frames

/-- The tree when the text breaks off where a value is awaited. -/
def abandonValue : List Frame → Json
  | [] => .broken
  | array items :: frames => abandon (.array items.reverse false) frames
  | object members name :: frames =>
    abandon (.object ((name, .broken) :: members).reverse false) frames

def breakOff (awaited : Awaited) (frames : List Frame) : Json :=
  match awaited with
  | .value => abandonValue frames
  | .firstItem => abandon (.array [] false) frames
  | .itemEnd items => abandon (.array items.reverse false) frames
  | .firstName => abandon (.object [] false) frames
  | .name members => abandon (.object members.reverse false) frames
  | .colon members name => abandon (.object ((name, .broken) :: members).reverse false) frames
  | .memberEnd members => abandon (.object members.reverse false) frames

end Frame

/-- Where reading goes on after a value: a finished tree, or a place inside the frames. -/
inductive Next where
  | done (tree : Json)
  | go (awaited : Awaited) (frames : List Frame)

def afterValue (value : Json) : List Frame → Next
  | [] => .done value
  | .array items :: frames => .go (.itemEnd (value :: items)) frames
  | .object members name :: frames => .go (.memberEnd ((name, value) :: members)) frames

/-- The place after a token where a value is awaited. -/
def startValue (token : Token) (frames : List Frame) : Option Next :=
  match token with
  | .openBrace => some (.go .firstName frames)
  | .openBracket => some (.go .firstItem frames)
  | .null => some (afterValue .null frames)
  | .bool value => some (afterValue (.bool value) frames)
  | .number value => some (afterValue (.number value) frames)
  | .text value => some (afterValue (.text value) frames)
  | .closeBrace | .closeBracket | .colon | .comma | .bad => none

/-- The place after a token, `none` where the token does not fit. -/
def advance (awaited : Awaited) (frames : List Frame) (token : Token) : Option Next :=
  match awaited, token with
  | .value, token => startValue token frames
  | .firstItem, .closeBracket => some (afterValue (.array [] true) frames)
  | .firstItem, token => startValue token (.array [] :: frames)
  | .itemEnd items, .comma => some (.go .value (.array items :: frames))
  | .itemEnd items, .closeBracket => some (afterValue (.array items.reverse true) frames)
  | .firstName, .closeBrace => some (afterValue (.object [] true) frames)
  | .firstName, .text name => some (.go (.colon [] name) frames)
  | .name members, .text name => some (.go (.colon members name) frames)
  | .colon members name, .colon => some (.go .value (.object members name :: frames))
  | .memberEnd members, .comma => some (.go (.name members) frames)
  | .memberEnd members, .closeBrace => some (afterValue (.object members.reverse true) frames)
  | _, _ => none

/-- Reads on from a place: the tree, and the tokens that were not needed for it. -/
def build (awaited : Awaited) (frames : List Frame) : List Token → Json × List Token
  | [] => (Frame.breakOff awaited frames, [])
  | token :: tokens =>
    match advance awaited frames token with
    | none => (Frame.breakOff awaited frames, token :: tokens)
    | some (.done tree) => (tree, tokens)
    | some (.go awaited frames) => build awaited frames tokens

/-- What a text says: a tree, and whether nothing follows it. -/
structure Reading where
  tree : Json
  /-- Nothing but blanks follows the value. -/
  alone : Bool

def read (s : String) : Reading :=
  let (tree, rest) := build .value [] (Token.scan s.toList)
  ⟨tree, rest.isEmpty⟩

def parse? (s : String) : Option Json :=
  let reading := read s
  if reading.tree.whole && reading.alone then some reading.tree else none

end WhisperChat.Json
