import Script.Token
import Script.CallStack

/-!
# `Fault` — what can go wrong while a program runs

A fault is the reason, found where an operation cannot be carried out. A runtime error is a fault
together with the token at which it is reported.
-/

namespace Script

/-- Why an operation cannot be carried out. -/
inductive Fault where
  | undefinedVariable
  | onlyNumbers
  | undefinedOperation
  | expectedStep
  | expectedKey
  | invalidAccess
  | onlyFunctions
  | invalidNumberOfArguments
  | expectedCollection
  | expectedObject
  | expectedIdentifiersDict
  | cannotUnpack
  | wrongNumberOfValues
  | methodNotFound
  | undefinedProperty
  | readOnly
  | undefinedOperator
  | expectedNumber
  | expectedClass
  | expectedString
  | expectedDict
  | expectedList
  | indexOutOfRange
  | unhashableKey
  | onlyAllowedInsideLoop
  | maxRecursion
  | importError
  /-- A builtin function failed, for instance on a file. -/
  | host (text : String)
  /-- The evaluator lost track of its call stack. -/
  | internal (fault : FrameFault)
  deriving Repr, DecidableEq

namespace Fault

/-- The wording of a fault. It is also what a `catch` block gets to see. -/
def message : Fault → String
  | undefinedVariable => "Undefined variable"
  | onlyNumbers => "The operation is only defined for numbers"
  | undefinedOperation => "Undefined operation"
  | expectedStep => "Expected step of the slice"
  | expectedKey => "Expected key for accessing dictionary"
  | invalidAccess => "The object is not subscriptable"
  | onlyFunctions => "Can only call functions"
  | invalidNumberOfArguments => "Invalid number of arguments"
  | expectedCollection => "Collection expected"
  | expectedObject => "Object expected"
  | expectedIdentifiersDict => "Expected 1 or 2 identifiers for dict"
  | cannotUnpack => "Cannot unpack value"
  | wrongNumberOfValues => "Wrong number of values to unpack"
  | methodNotFound => "Method not found"
  | undefinedProperty => "Undefined property"
  | readOnly => "Trying to set a property on a Read-Only object"
  | undefinedOperator => "Undefined operator for this object"
  | expectedNumber => "A number was expected at this position"
  | expectedClass => "A class was expected at this position"
  | expectedString => "A string was expected at this position"
  | expectedDict => "A dictionary was expected at this position"
  | expectedList => "A list was expected at this position"
  | indexOutOfRange => "Index out of range"
  | unhashableKey => "The value cannot be used as a dictionary key"
  | onlyAllowedInsideLoop => "Statement only allowed for use inside loop"
  | maxRecursion => "Max recursion depth exceeded"
  | importError => "import module error"
  | host text => text
  | internal fault => "Internal error: " ++ fault.message

/-- The code under which diagnostics list a fault. -/
def code : Fault → String
  | undefinedVariable => "RT001"
  | onlyNumbers => "RT002"
  | undefinedOperation => "RT003"
  | expectedStep => "RT004"
  | expectedKey => "RT005"
  | invalidAccess => "RT006"
  | onlyFunctions => "RT007"
  | invalidNumberOfArguments => "RT008"
  | expectedCollection => "RT009"
  | expectedObject => "RT010"
  | expectedIdentifiersDict => "RT011"
  | cannotUnpack => "RT012"
  | wrongNumberOfValues => "RT013"
  | methodNotFound => "RT014"
  | undefinedProperty => "RT015"
  | readOnly => "RT016"
  | undefinedOperator => "RT017"
  | expectedNumber => "RT018"
  | expectedClass => "RT019"
  | expectedString => "RT020"
  | expectedDict => "RT022"
  | expectedList => "RT023"
  | indexOutOfRange => "RT024"
  | unhashableKey => "RT025"
  | onlyAllowedInsideLoop => "RT026"
  | maxRecursion => "RT027"
  | importError => "RT028"
  | host _ => "RT029"
  | internal _ => "RT999"

/-- Whether a fault is the evaluator's own. No `catch` block sees such a fault. -/
def isInternal : Fault → Bool
  | internal _ => true
  | _ => false

end Fault

/-- A fault and where it is reported. -/
structure RuntimeError where
  fault : Fault
  line : Nat
  lexeme : String
  deriving Repr, DecidableEq

namespace RuntimeError

/-- A fault reported at a token. -/
def atToken (fault : Fault) (token : Token) : RuntimeError := ⟨fault, token.line, token.lexeme⟩

/-- The wording of an error. -/
def text (e : RuntimeError) : String := e.fault.message ++ ": " ++ e.lexeme

end RuntimeError

end Script
