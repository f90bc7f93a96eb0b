import WhisperChat.Blank
import WhisperChat.Settings.Config

/-!
# Files of variables

A file can give variables that the environment lacks, one a line: a name, an equals sign, a value.
Values may be quoted, may go on over several lines inside quotes, and may refer to other variables.
The first line that does not parse ends the reading, and what was read before it counts.
-/

namespace WhisperChat.EnvFile

/-! ## Lines -/

/-- What has been opened and not yet closed where a line of the file ends. -/
inductive Open where
  | nothing
  | escape
  | strong
  | strongEscape
  | weak
  | weakEscape
  /-- A blank outside quotes has just been read. -/
  | blank
  deriving DecidableEq

/-- What a character outside quotes opens. -/
def opens (c : Char) : Open :=
  if c = '\\' then .escape else if c = '"' then .weak else if c = '\'' then .strong else .nothing

/-- Reads the characters of a line of the file: what is open at its end, or the characters before a
comment.  A comment starts with a number sign behind a single blank. -/
def scanLine (before : List Char) : Open → List Char → Open ⊕ List Char
  | state, [] => .inl state
  | .blank, '#' :: _ => .inr before.reverse
  | .blank, c :: cs => scanLine (c :: before) (opens c) cs
  | .nothing, c :: cs =>
    scanLine (c :: before)
      (if Blank.isBlank c && c ≠ '\n' && c ≠ '\r' then .blank else opens c) cs
  | .escape, c :: cs => scanLine (c :: before) .nothing cs
  | .weak, c :: cs =>
    scanLine (c :: before)
      (if c = '\\' then .weakEscape else if c = '"' then .nothing else .weak) cs
  | .weakEscape, c :: cs => scanLine (c :: before) .weak cs
  | .strong, c :: cs =>
    scanLine (c :: before)
      (if c = '\\' then .strongEscape else if c = '\'' then .nothing else .strong) cs
  | .strongEscape, c :: cs => scanLine (c :: before) .strong cs

def lines : List Char → List (List Char)
  | [] => []
  | c :: cs =>
    if c = '\n' then [c] :: lines cs
    else
      match lines cs with
      | [] => [[c]]
      | line :: rest => (c :: line) :: rest

def chomp (cs : List Char) : List Char :=
  match cs.reverse with
  | '\n' :: '\r' :: rest => rest.reverse
  | '\n' :: rest => rest.reverse
  | _ => cs

/-- What the next lines of a file make. -/
inductive Next where
  | entry (text : List Char) (rest : List (List Char))
  | finished
  /-- The file ends where something is open. -/
  | unfinished

/-- Puts lines together until nothing is open. -/
def next (sofar : List Char) (state : Open) : List (List Char) → Next
  | [] => if state = .nothing then .finished else .unfinished
  | line :: rest =>
    let text := sofar ++ line
    if (Blank.trimStart text).head? = some '#' then .entry [] rest
    else
      match scanLine [] state line with
      | .inr before => .entry (sofar ++ before) rest
      | .inl .nothing => .entry (chomp text) rest
      | .inl state => next text state rest

theorem length_of_next {sofar text : List Char} {state : Open} {ls rest : List (List Char)}
    (h : next sofar state ls = .entry text rest) : rest.length < ls.length := by
  induction ls generalizing sofar state with
  | nil =>
    unfold next at h
    split at h <;> cases h
  | cons line ls ih =>
    unfold next at h
    simp only at h
    split at h
    · cases h
      simp
    · split at h
      · cases h
        simp
      · cases h
        simp
      · have := ih h
        simp only [List.length_cons]
        omega

/-! ## Values -/

/-- The variables that references can name: those of the environment, then those of the file. -/
structure Scope where
  environment : Environment
  file : Environment

/-- The value of a variable, empty where there is none. -/
def Scope.value (s : Scope) (name : List Char) : List Char :=
  (((s.environment.lookup (String.ofList name)).or
    (s.file.lookup (String.ofList name))).getD "").toList

/-- Where the reading of a value stands.  A flag says whether double quotes are open. -/
inductive State where
  | text (weak : Bool)
  | escaped (weak : Bool)
  | strong
  /-- Inside a reference without braces, whose name so far is given last character first. -/
  | name (weak : Bool) (reversed : List Char)
  | braced (weak : Bool) (reversed : List Char)
  /-- Behind the value, where only blanks and a comment may follow. -/
  | ended

/-- Reads the characters of a value; the value so far is given last character first. -/
def value (scope : Scope) : State → List Char → List Char → Option (List Char)
  | .text false, out, [] => some out.reverse
  | .escaped false, out, [] => some out.reverse
  | .name false reversed, out, [] => some (out.reverse ++ scope.value reversed.reverse)
  | .ended, out, [] => some out.reverse
  | _, _, [] => none
  | .ended, out, c :: cs =>
    if c = ' ' ∨ c = '\t' then value scope .ended out cs
    else if c = '#' then some out.reverse
    else none
  | .escaped weak, out, c :: cs =>
    if c = '\\' ∨ c = '\'' ∨ c = '"' ∨ c = '$' ∨ c = ' ' then value scope (.text weak) (c :: out) cs
    else if c = 'n' then value scope (.text weak) ('\n' :: out) cs
    else none
  | .strong, out, c :: cs =>
    if c = '\'' then value scope (.text false) out cs else value scope .strong (c :: out) cs
  | .name weak reversed, out, c :: cs =>
    if c.isAlphanum then value scope (.name weak (c :: reversed)) out cs
    else if c = '\x7b' ∧ reversed = [] then value scope (.braced weak []) out cs
    else
      let out := (scope.value reversed.reverse).reverse ++ out
      if c = '$' then value scope (.name weak []) out cs else value scope (.text weak) (c :: out) cs
  | .braced weak reversed, out, c :: cs =>
    if c = '\x7d' then value scope (.text weak) ((scope.value reversed.reverse).reverse ++ out) cs
    else value scope (.braced weak (c :: reversed)) out cs
  | .text weak, out, c :: cs =>
    if c = '$' then value scope (.name weak []) out cs
    else if c = '"' then value scope (.text !weak) out cs
    else if c = '\\' then value scope (.escaped weak) out cs
    else if weak then value scope (.text true) (c :: out) cs
    else if c = '\'' then value scope .strong out cs
    else if c = ' ' ∨ c = '\t' then value scope .ended out cs
    else value scope (.text false) (c :: out) cs

/-! ## Entries -/

def startsName (c : Char) : Bool := c.isAlpha || c = '_'

def key? (cs : List Char) : Option (List Char × List Char) :=
  if cs.head?.any startsName then some (cs.span fun c ↦ c.isAlphanum || c = '_' || c = '.')
  else none

/-- What follows an equals sign and blanks. -/
def afterEquals? : List Char → Option (List Char)
  | '=' :: cs => some (Blank.trimStart cs)
  | _ => none

/-- A name and the characters of its value.  The word `export` may stand in front of the name. -/
def keyAndValue? (cs : List Char) : Option (List Char × List Char) := do
  let (key, cs) ← key? cs
  let cs := Blank.trimStart cs
  match afterEquals? cs with
  | some rest => return (key, rest)
  | none =>
    guard (key = "export".toList)
    let (key, cs) ← key? cs
    let rest ← afterEquals? (Blank.trimStart cs)
    return (key, rest)

def isBare (cs : List Char) : Bool := cs.isEmpty || cs.head? = some '#'

/-- The variable that an entry gives; nothing inside for an entry that is empty or a comment. -/
def entry? (scope : Scope) (cs : List Char) : Option (Option (String × String)) :=
  let cs := Blank.trimStart (Blank.trimEnd cs)
  if isBare cs then some none
  else do
    let (key, rest) ← keyAndValue? cs
    let text ← if isBare rest then some [] else value scope (.text false) [] rest
    return some (String.ofList key, String.ofList text)

/-- Adds the variables of lines to a scope; a variable of the environment stays as it is. -/
def addLines (scope : Scope) (ls : List (List Char)) : Scope :=
  match hnext : next [] .nothing ls with
  | .entry text rest =>
    have := length_of_next hnext
    match entry? scope text with
    | none => scope
    | some none => addLines scope rest
    | some (some (key, value)) =>
      let environment := match scope.environment.lookup key with
        | some _ => scope.environment
        | none => scope.environment ++ [(key, value)]
      addLines ⟨environment, (key, value) :: scope.file⟩ rest
  | .finished => scope
  | .unfinished => scope
  termination_by ls.length

/-- The characters without the mark for byte order in front of them. -/
def withoutMark : List Char → List Char
  | '\uFEFF' :: cs => cs
  | cs => cs

/-- The environment with the variables of a file added that it lacks. -/
def load (env : Environment) (text : String) : Environment :=
  (addLines ⟨env, []⟩ (lines (withoutMark text.toList))).environment

end WhisperChat.EnvFile
