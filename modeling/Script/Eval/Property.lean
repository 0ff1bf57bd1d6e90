import Script.Eval.Evaluator
import Script.Heap.Class

/-!
# `Eval.Property` — properties of values

An instance has its fields and then the methods of its class; a class has its static methods; a host
object has its members; strings, lists and dictionaries have a length.
-/

namespace Script

namespace Evaluator

open Step (inspect allocate change attempt failAt blame)

/-- The property `length` of something of a length. -/
def lengthProperty (length : Nat) (name : Token) : Step RuntimeError Value :=
  if name.lexeme = "length" then pure (.number (Float.ofNat length))
  else failAt .undefinedProperty name

/-- A property of a value. -/
def property (object : Value) (name : Token) : Step RuntimeError Value := do
  match object with
  | .inst r =>
    match ← inspect (·.field? r name.lexeme) with
    | some v => return v
    | none =>
      match ← inspect (·.instanceMethod? r name.lexeme) with
      | some f => allocate (·.boundMethod f r)
      | none => failAt .undefinedProperty name
  | .cls c =>
    match ← inspect (·.staticMethod? c name.lexeme) with
    | some f => return .function f
    | none => failAt .undefinedProperty name
  | .string s => lengthProperty s.length name
  | .list r => lengthProperty (← inspect fun h => (h.elements r).size) name
  | .dict r => lengthProperty (← inspect fun h => (h.dictionary r).size) name
  | .number _ => failAt .undefinedProperty name
  | .bool _ => failAt .undefinedProperty name
  | .host r =>
    match ← inspect (·.member? r name.lexeme) with
    | some v => return v
    | none => failAt .undefinedProperty name
  | .nil => failAt .expectedObject name
  | .function _ => failAt .expectedObject name
  | .builtin _ => failAt .expectedObject name

/-- Whether a value has no properties that could be set or read. -/
def isBare : Value → Bool
  | .nil => true
  | .function _ => true
  | .builtin _ => true
  | _ => false

/-- Sets a property of a value. -/
def setProperty (object : Value) (name : Token) (v : Value) : Step RuntimeError Unit :=
  match object with
  | .inst r => change (·.setField r name.lexeme v)
  | .host r => blame name (attempt (·.setMember r name.lexeme v))
  | _ => failAt .readOnly name

/-- A method of the class above, bound to the current instance. -/
def superMethod (keyword method : Token) (scope : Ref .scope) : Step RuntimeError Value := do
  match ← inspect (·.lookup scope "super"), ← inspect (·.lookup scope "this") with
  | some (.cls c), some (.inst r) =>
    match ← inspect (·.method? c method.lexeme) with
    | some f => allocate (·.boundMethod f r)
    | none => failAt .methodNotFound method
  | _, _ => failAt .undefinedVariable keyword

end Evaluator

end Script
