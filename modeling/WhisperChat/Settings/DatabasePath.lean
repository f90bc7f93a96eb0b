import WhisperChat.Http.Uri

/-!
# Where the database is

The setting for the database is a path, a name for a database in memory, or an address with the
scheme `file` whose query may say how to open it.  A path leads from the working directory, or from
the root; points and double points in it count before anything is opened.
-/

namespace WhisperChat

inductive OpenMode where
  | readOnly
  | existing
  | create
  | memory
  deriving DecidableEq

inductive OpenError where
  | unable (path : String)
  | notADatabase
  | readOnly
  | authority (text : String)
  | accessMode (text : String)
  | cacheMode (text : String)
  | system (name : String)
  deriving DecidableEq

def OpenError.message : OpenError → String
  | unable path => "unable to open database file: " ++ path
  | notADatabase => "file is not a database"
  | readOnly => "attempt to write a readonly database"
  | authority text => "invalid uri authority: " ++ text
  | accessMode text => "no such access mode: " ++ text
  | cacheMode text => "no such cache mode: " ++ text
  | system name => "no such vfs: " ++ name

/-- A way through directories: up from the start so many times, then down. -/
structure Route where
  /-- Whether the start is the root and not the working directory. -/
  fromRoot : Bool
  up : Nat := 0
  down : List String := []
  deriving DecidableEq

def Route.append (r : Route) (part : String) : Route :=
  if part = "" ∨ part = "." then r
  else if part = ".." then
    if r.down ≠ [] then { r with down := r.down.dropLast }
    else if r.fromRoot then r
    else { r with up := r.up + 1 }
  else { r with down := r.down ++ [part] }

def Route.ofPath (path : String) : Route :=
  ((Uri.split '/' path.toList).map String.ofList).foldl append
    { fromRoot := path.toList.head? = some '/' }

structure DatabasePath where
  /-- The path of the file, empty for a database that no file keeps. -/
  path : String
  mode : OpenMode
  deriving DecidableEq

namespace DatabasePath

/-- The characters behind the text `front`, if the characters start with it. -/
def after? (front : String) (cs : List Char) : Option (List Char) :=
  if front.toList.isPrefixOf cs then some (cs.drop front.length) else none

/-- The text of a part of an address.  A byte of value zero ends it. -/
def decode (cs : List Char) : String :=
  let bytes := (Uri.percentDecode (Uri.bytes cs)).takeWhile (· ≠ 0)
  (String.fromUTF8? ⟨bytes.toArray⟩).getD "\uFFFD"

def options (query : List Char) : List (String × String) :=
  ((Uri.split '&' query).map fun part ↦
    (decode (part.takeWhile (· ≠ '=')), decode ((part.dropWhile (· ≠ '=')).drop 1))).filter
      (·.1 ≠ "")

def accessMode? : String → Option OpenMode
  | "ro" => some .readOnly
  | "rw" => some .existing
  | "rwc" => some .create
  | "memory" => some .memory
  | _ => none

def systems : List String := ["unix", "unix-none", "unix-dotfile", "unix-excl"]

/-- The mode after one more option. -/
def withOption (mode : OpenMode) : String × String → Except OpenError OpenMode
  | ("mode", value) =>
    match accessMode? value with
    | some mode => .ok mode
    | none => .error (.accessMode value)
  | ("cache", value) =>
    if value = "shared" ∨ value = "private" then .ok mode else .error (.cacheMode value)
  | _ => .ok mode

/-- What an address asks for; `cs` is what follows the scheme. -/
def ofAddress (cs : List Char) : Except OpenError DatabasePath := do
  let cs ← match after? "//" cs with
    | none => pure cs
    | some cs =>
      let authority := cs.takeWhile (· ≠ '/')
      if authority = [] ∨ authority = "localhost".toList then pure (cs.dropWhile (· ≠ '/'))
      else throw (.authority (String.ofList authority))
  let cs := cs.takeWhile (· ≠ '#')
  let options := options ((cs.dropWhile (· ≠ '?')).drop 1)
  let mode ← options.foldlM withOption .create
  match (options.filter (·.1 = "vfs")).getLast? with
  | some (_, name) => if name ∉ systems then throw (.system name)
  | none => pure ()
  return { path := decode (cs.takeWhile (· ≠ '?')), mode }

def ofSetting (setting : String) : Except OpenError DatabasePath :=
  match after? "file:" setting.toList with
  | some cs => ofAddress cs
  | none => .ok { path := setting, mode := .create }

/-- Whether the database is kept by no file. -/
def isTransient (p : DatabasePath) : Bool := p.path = "" || p.path = ":memory:" || p.mode = .memory

end DatabasePath

/-! ## Opening -/

/-- A file of the working directory. -/
inductive File where
  | text (content : String)
  | database
  deriving DecidableEq

/-- The files of the working directory, by name.  It has no directories in it. -/
abbrev Directory := List (String × File)

namespace Directory

def nameLimit : Nat := 255

/-- Directories that every system has, as ways from the root. -/
def known : List (List String) := [[], ["tmp"]]

/-- Opens a file of the directory as a database. -/
def openFile (d : Directory) (setting name : String) (mode : OpenMode) :
    Except OpenError Directory :=
  match d.lookup name with
  | none =>
    if mode = .create ∧ name.utf8ByteSize ≤ nameLimit then .ok (d ++ [(name, .database)])
    else .error (.unable setting)
  | some (.text content) =>
    if content ≠ "" then .error .notADatabase
    else if mode = .readOnly then .error .readOnly
    else .ok (d.map fun entry ↦ if entry.1 = name then (name, .database) else entry)
  | some .database => .ok d

/-- Whether a file outside the directory can be opened.  A directory above it holds directories only
on the way to it. -/
def opensOutside (route : Route) (mode : OpenMode) : Bool :=
  mode = .create &&
    if route.fromRoot then known.contains route.down.dropLast && !known.contains route.down
    else route.down.length = 1

/-- Opens the database of a setting: the directory with the file that keeps it. -/
def openDatabase (d : Directory) (setting : String) : Except OpenError Directory := do
  let p ← DatabasePath.ofSetting setting
  if p.isTransient then return d
  match Route.ofPath p.path with
  | ⟨false, 0, [name]⟩ => d.openFile setting name p.mode
  | ⟨false, 0, _⟩ => throw (.unable setting)
  | route => if opensOutside route p.mode then return d else throw (.unable setting)

end Directory

end WhisperChat
