import Script.Files.Path

/-!
# `Files` — the files that a program works on

A directory holds named entries in the order of their names. Every operation finds its way from the
root, or from the working directory, one component at a time: each component but the last has to be
a directory, `.` stays and `..` goes up.
-/

namespace Script

/-- A file with its contents, or a directory. -/
inductive Entry where
  | file (content : ByteArray)
  | directory (entries : List (String × Entry))

/-- Why a file operation fails. -/
inductive FileFault where
  | notFound
  | alreadyExists
  | notDirectory
  | isDirectory
  | nameTooLong
  | nulInName
  | notText
  deriving Repr, DecidableEq

/-- The wording of a fault. -/
def FileFault.message : FileFault → String
  | notFound => "No such file or directory (os error 2)"
  | alreadyExists => "File exists (os error 17)"
  | notDirectory => "Not a directory (os error 20)"
  | isDirectory => "Is a directory (os error 21)"
  | nameTooLong => "File name too long (os error 36)"
  | nulInName => "file name contained an unexpected NUL byte"
  | notText => "stream did not contain valid UTF-8"

namespace Entry

/-- Whether an entry is a directory. -/
def isDirectory : Entry → Bool
  | file _ => false
  | directory _ => true

/-- The size of a file in bytes; that of a directory is the size of one block. -/
def size : Entry → Nat
  | file content => content.size
  | directory _ => 4096

/-- The entry reached by names going down. -/
def at? : Entry → List String → Option Entry
  | e, [] => some e
  | directory entries, name :: rest =>
    match entries.lookup name with
    | some e => e.at? rest
    | none => none
  | file _, _ :: _ => none

/-- Puts an entry among others by the order of names, in place of one of the same name. -/
def place (name : String) (e : Entry) : List (String × Entry) → List (String × Entry)
  | [] => [(name, e)]
  | (n, other) :: rest =>
    if n = name then (name, e) :: rest
    else if name < n then (name, e) :: (n, other) :: rest
    else (n, other) :: place name e rest

/-- Puts an entry where names going down lead, making the directories on the way. -/
def put : Entry → List String → Entry → Entry
  | _, [], new => new
  | directory entries, name :: rest, new =>
    let inner := (entries.lookup name).getD (directory [])
    directory (place name (inner.put rest new) entries)
  | file content, _ :: _, _ => file content

end Entry

/-- All files and the working directory. -/
structure FileSystem where
  root : Entry
  home : List String

namespace FileSystem

/-- The working directory is empty, and lies below the root. -/
def empty : FileSystem :=
  let home := ["home", "work"]
  ⟨(Entry.directory []).put home (.directory []), home⟩

/-- The longest name of an entry, in bytes. -/
def nameLimit : Nat := 255

/-- The length from which a path is refused, in bytes. -/
def pathLimit : Nat := 4096

/-- What is wrong with the text of a path. -/
def textFault? (path : String) : Option FileFault :=
  if path.contains '\x00' then some .nulInName
  else if path.isEmpty then some .notFound
  else if pathLimit ≤ path.utf8ByteSize then some .nameTooLong
  else none

/-- Follows components from a place given by names from the root. -/
def walk (root : Entry) : List String → List String → Except FileFault (List String)
  | here, [] => .ok here
  | here, name :: rest =>
    match root.at? here with
    | some (.directory entries) =>
      if name = "." then walk root here rest
      else if name = ".." then walk root here.dropLast rest
      else if nameLimit < name.utf8ByteSize then .error .nameTooLong
      else if (entries.lookup name).isNone then .error .notFound
      else walk root (here ++ [name]) rest
    | some (.file _) => .error .notDirectory
    | none => .error .notFound

/-- Where a path starts. -/
def origin (fs : FileSystem) (path : String) : List String :=
  if Path.isAbsolute path then [] else fs.home

/-- The components of a path, with one more for a slash at the end: it asks for a directory. -/
def steps (path : String) : List String :=
  if path.endsWith "/" then Path.components path ++ ["."] else Path.components path

/-- The entry at a path. -/
def find (fs : FileSystem) (path : String) : Except FileFault Entry := do
  if let some fault := textFault? path then throw fault
  let place ← walk fs.root (fs.origin path) (steps path)
  match fs.root.at? place with
  | some e => return e
  | none => throw .notFound

/-- Whether there is an entry at a path. -/
def contains (fs : FileSystem) (path : String) : Bool :=
  match fs.find path with
  | .ok _ => true
  | .error _ => false

/-- Whether there is a directory at a path. -/
def isDirectory (fs : FileSystem) (path : String) : Bool :=
  match fs.find path with
  | .ok e => e.isDirectory
  | .error _ => false

/-- The text of a file. -/
def readText (fs : FileSystem) (path : String) : Except FileFault String := do
  match ← fs.find path with
  | .directory _ => throw .isDirectory
  | .file content =>
    match String.fromUTF8? content with
    | some text => return text
    | none => throw .notText

/-- The entries of a directory. -/
def list (fs : FileSystem) (path : String) : Except FileFault (List (String × Entry)) := do
  match ← fs.find path with
  | .directory entries => return entries
  | .file _ => throw .notDirectory

/-- The directory in which a path names something, and that name; no name for the root and for a
    path that ends in `.` or `..`. -/
def lastStep (fs : FileSystem) (path : String) :
    Except FileFault (List String × Option String) := do
  if let some fault := textFault? path then throw fault
  let names := Path.components path
  match names.getLast? with
  | none => return ([], none)
  | some name =>
    let place ← walk fs.root (fs.origin path) (names.dropLast ++ ["."])
    if name = "." || name = ".." then return (place, none)
    if nameLimit < name.utf8ByteSize then throw .nameTooLong
    return (place, some name)

/-- Writes a file, new or in place of an older one. -/
def writeText (fs : FileSystem) (path text : String) : Except FileFault FileSystem := do
  let (place, name?) ← fs.lastStep path
  match name? with
  | none => throw .isDirectory
  | some name =>
    if path.endsWith "/" then throw .isDirectory
    match fs.root.at? (place ++ [name]) with
    | some (.directory _) => throw .isDirectory
    | _ => return { fs with root := fs.root.put (place ++ [name]) (.file text.toUTF8) }

/-- Makes a directory inside one that is there. -/
def makeDirectory (fs : FileSystem) (path : String) : Except FileFault FileSystem := do
  let (place, name?) ← fs.lastStep path
  match name? with
  | none => throw .alreadyExists
  | some name =>
    if (fs.root.at? (place ++ [name])).isSome then throw .alreadyExists
    return { fs with root := fs.root.put (place ++ [name]) (.directory []) }

/-- Makes the first of some directories, each of which lies in the next, and those of the others
    that are missing. What could be made stays when it fails. -/
def makeChain (fs : FileSystem) : List String → FileSystem × Option FileFault
  | [] => (fs, none)
  | path :: outer =>
    match fs.makeDirectory path with
    | .ok fs => (fs, none)
    | .error .notFound =>
      match fs.makeChain outer with
      | (fs, some fault) => (fs, some fault)
      | (fs, none) =>
        match fs.makeDirectory path with
        | .ok fs => (fs, none)
        | .error fault => (fs, if fs.isDirectory path then none else some fault)
    | .error fault => (fs, if fs.isDirectory path then none else some fault)

/-- Makes a directory and those around it that are missing. -/
def makeDirectories (fs : FileSystem) (path : String) : FileSystem × Option FileFault :=
  fs.makeChain (Path.lineage path)

/-! ## A working directory as a list -/

/-- Every entry below some entries with its path, a directory before what it holds; a directory has
    a slash at its end and no contents. -/
def tour (path : String) : List (String × Entry) → List (String × Option ByteArray)
  | [] => []
  | (name, .file content) :: rest => (path ++ name, some content) :: tour path rest
  | (name, .directory entries) :: rest =>
    let inner := path ++ name ++ "/"
    (inner, none) :: (tour inner entries ++ tour path rest)

/-- What is below the working directory. -/
def contents (fs : FileSystem) : List (String × Option ByteArray) :=
  match fs.root.at? fs.home with
  | some (.directory entries) => tour "" entries
  | _ => []

/-- Puts a file below the working directory. -/
def plantFile (fs : FileSystem) (path : String) (content : ByteArray) : FileSystem :=
  { fs with root := fs.root.put (fs.home ++ Path.components path) (.file content) }

/-- Makes a directory below the working directory, unless it is there. -/
def plantDirectory (fs : FileSystem) (path : String) : FileSystem :=
  let place := fs.home ++ Path.components path
  match fs.root.at? place with
  | some _ => fs
  | none => { fs with root := fs.root.put place (.directory []) }

end FileSystem

end Script
