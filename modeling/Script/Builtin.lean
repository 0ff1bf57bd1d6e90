import Script.Operator

/-!
# `Builtin` — the functions that programs do not define themselves
-/

namespace Script

/-- A builtin function. -/
inductive Builtin where
  | println
  | readFile
  | writeFile
  | fileExists
  | listDir
  | mkdirAll
  | clock
  | toLower
  | toUpper
  | ord
  | chr
  | asNumber
  | split
  | getVariable
  | setVariable
  | typeOf
  /-- Runs another script, found from the directory of the script at `path`. -/
  | importModule (path : Option String)
  /-- Prints its label and gives its arguments back as a list; fails on a lone string. -/
  | announce (label : String)
  deriving Repr, DecidableEq

namespace Builtin

/-- The members of the global `io`. -/
def ioMembers : List (String × Builtin) := [
  ("println", println), ("readFile", readFile), ("writeFile", writeFile),
  ("fileExists", fileExists), ("listDir", listDir), ("mkdirAll", mkdirAll), ("clock", clock)]

/-- The members of the global `strings`. -/
def stringsMembers : List (String × Builtin) := [
  ("toLower", toLower), ("toUpper", toUpper), ("ord", ord), ("chr", chr),
  ("asNumber", asNumber), ("split", split)]

/-- The members of the global `env`. -/
def envMembers : List (String × Builtin) := [("get", getVariable), ("set", setVariable)]

end Builtin

end Script
