/-!
# `Files.Path` — paths as text

A path is its text: components between slashes, absolute if it starts with one. Repeated slashes,
and `.` components other than a leading one, carry no meaning, so they are passed over when the
parent is taken; otherwise the text is kept as it was written.
-/

namespace Script.Path

/-- Whether a path starts at the root. -/
def isAbsolute (path : String) : Bool := path.startsWith "/"

/-- The components of a path. -/
def components (path : String) : List String :=
  ((path.toList.splitOn '/').filter (!·.isEmpty)).map String.ofList

/-- Drops what carries no meaning at the end of a path, given backwards. -/
def trimEnd : List Char → List Char
  | '/' :: rest => if rest.isEmpty then ['/'] else trimEnd rest
  | '.' :: '/' :: rest => trimEnd ('/' :: rest)
  | cs => cs

/-- The path without its last component. The root and the empty path have no parent. -/
def parent? (path : String) : Option String :=
  let reversed := trimEnd path.toList.reverse
  if reversed = [] ∨ reversed = ['/'] then none
  else some (String.ofList (trimEnd (reversed.dropWhile (· ≠ '/'))).reverse)

/-- A path and those above it that are neither the root nor empty, at most `n` of them. -/
def chain : Nat → String → List String
  | 0, _ => []
  | n + 1, path =>
    match parent? path with
    | none => []
    | some p => path :: chain n p

/-- A path and those above it that are neither the root nor empty. -/
def lineage (path : String) : List String := chain (path.length + 1) path

/-- A path relative to a base. -/
def join (base path : String) : String :=
  if isAbsolute path || base.isEmpty then path
  else if base.endsWith "/" then base ++ path
  else base ++ "/" ++ path

/-- Where a module is found: an absolute path as it is, another one from the directory of the
    script that imports it, or from the working directory if there is no such script. -/
def resolve (script : Option String) (module : String) : String :=
  if isAbsolute module then module
  else match script.bind parent? with
    | some base => join base module
    | none => module

end Script.Path
