import Script.Decimal.Binary
import Script.Decimal.Reader
import Script.Eval.Module
import Script.Heap.Display
import Script.Text.Blank
import Script.Text.Casing
import Script.Text.Split

/-!
# `Eval.Builtins` — what the builtin functions do

A builtin that is called with the wrong number of arguments fails before it looks at any of them;
then the arguments are checked from left to right.
-/

namespace Script

/-- The string that a value has to be. -/
def Value.asString : Value → Except Fault String
  | .string s => .ok s
  | _ => .error .expectedString

/-- The number that a value has to be. -/
def Value.asNumber : Value → Except Fault Float
  | .number x => .ok x
  | _ => .error .expectedNumber

/-- The character with a code point, if a number rounds down to one. -/
def charOfNumber? (x : Float) : Option Char :=
  let n := (Decimal.clampedWhole 0 (Nat.pow 2 32 - 1) x).toNat
  if n.isValidChar then some (Char.ofNat n) else none

/-- Whether a text can be the name of an environment variable. -/
def isVariableName (name : String) : Bool :=
  !name.isEmpty && !name.contains '=' && !name.contains '\x00'

namespace Builtin

open Step (observe inspect allocate outside ofExcept fail)

/-- The outcome of a file operation, as that of a builtin. -/
def settle {α : Type} (outcome : Except FileFault α) : Step Fault α :=
  ofExcept (outcome.mapError fun fault => .host fault.message)

/-- The dictionary that describes an entry of a directory. -/
def describe (name : String) (e : Entry) : Dict :=
  [("name", Value.string name), ("size", .number (Float.ofNat e.size)),
      ("is_dir", .bool e.isDirectory)].foldl
    (fun d p => d.put (.string p.1) (.string p.1) p.2) .empty

/-- The descriptions of entries, as new dictionaries. -/
def describeAll : List (String × Entry) → Step Fault (List Value)
  | [] => pure []
  | (name, e) :: rest => do
    let v ← allocate (·.newDict (describe name e))
    let vs ← describeAll rest
    return v :: vs

/-- Calls a builtin. -/
def call (ev : Evaluator) : Builtin → List Value → Step Fault Value
  | println, arguments => do
    let texts ← inspect fun h => arguments.map h.display
    outside (·.print (" ".intercalate texts))
    return .nil
  | readFile, [path] => do
    let path ← ofExcept path.asString
    let text ← settle (← observe (·.world.files.readText path))
    return .string text
  | writeFile, [path, text] => do
    let path ← ofExcept path.asString
    let text ← ofExcept text.asString
    let files ← settle (← observe (·.world.files.writeText path text))
    outside ({ · with files })
    return .nil
  | fileExists, [path] => do
    let path ← ofExcept path.asString
    return .bool (← observe (·.world.files.contains path))
  | listDir, [path] => do
    let path ← ofExcept path.asString
    let entries ← settle (← observe (·.world.files.list path))
    let descriptions ← describeAll entries
    allocate (·.newList descriptions.toArray)
  | mkdirAll, [path, mode] => do
    let path ← ofExcept path.asString
    let _ ← ofExcept mode.asNumber
    let (files, fault?) ← observe (·.world.files.makeDirectories path)
    outside ({ · with files })
    match fault? with
    | some fault => fail (.host fault.message)
    | none => return .nil
  | clock, [] => return .number (← observe (·.world.clock))
  | toLower, [text] => return .string (Text.toLower (← ofExcept text.asString))
  | toUpper, [text] => return .string (Text.toUpper (← ofExcept text.asString))
  | ord, [text] => do
    match (← ofExcept text.asString).toList with
    | c :: _ => return .number (Float.ofNat c.toNat)
    | [] => fail (.host "ord expects a non-empty string")
  | chr, [code] => do
    let code ← ofExcept code.asNumber
    match charOfNumber? code with
    | some c => return .string (String.ofList [c])
    | none => fail (.host (Decimal.plain code ++ " is not a valid code point"))
  | asNumber, [text] => do
    match Decimal.read? (Text.trimBlanks (← ofExcept text.asString).toList) with
    | some x => return .number x
    | none => return .nil
  | split, [text, separator] => do
    let text ← ofExcept text.asString
    let separator ← ofExcept separator.asString
    allocate (·.newList ((Text.split text separator).map Value.string).toArray)
  | getVariable, [name] => do
    let name ← ofExcept name.asString
    match ← observe (·.world.lookupVariable name) with
    | some value => return .string value
    | none => return .nil
  | setVariable, [name, value] => do
    let name ← ofExcept name.asString
    let value ← ofExcept value.asString
    if !isVariableName name then
      fail (.host ("invalid environment variable name " ++ Text.quoted name))
    else if value.contains '\x00' then
      fail (.host ("invalid value for environment variable " ++ name))
    else do
      outside (·.setVariable name value)
      return .nil
  | typeOf, [v] => return .string v.typeName
  | importModule script, [module] => do
    let path := Path.resolve script (← ofExcept module.asString)
    let scope ← (ev.loadModule path).mapError fun _ => .importError
    allocate fun h =>
      let (ref, h) := h.newHost ⟨⟨h.bindings scope⟩, .sealed, []⟩
      (.host ref, h)
  | announce label, arguments => do
    outside (·.print label)
    match arguments with
    | [.string text] => fail (.host text)
    | _ => allocate (·.newList arguments.toArray)
  | _, _ => fail .invalidNumberOfArguments

end Builtin

end Script
