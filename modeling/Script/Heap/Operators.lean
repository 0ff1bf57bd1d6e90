import Script.Decimal.Binary
import Script.Heap.Class
import Script.Value.Elements

/-!
# `Heap.Operators` — what operators do

Numbers, strings, lists and dictionaries have operators of their own. An instance or a host object
defines its operators itself, and then the outcome is a call still to be made. Finding the outcome
only reads the heap; carrying it out makes at most one new object and leaves the operands as they
are.
-/

namespace Script

/-- What applying an operator comes to. -/
inductive Applied where
  | value (v : Value)
  | newList (elements : Array Value)
  | newDict (dict : Dict)
  /-- A method of an instance is to be called. -/
  | method (f : Function) (receiver : Ref .inst) (arguments : List Value)
  /-- A function of a host object is to be called. -/
  | hosted (f : Ref .builtin) (arguments : List Value)

/-- What is left to do after an operator was applied: nothing, or a call. -/
inductive Dispatch where
  | resolved (value : Value)
  | call (callee : Value) (arguments : List Value)
  deriving DecidableEq

namespace Operator

/-- The operators of numbers. -/
def onNumbers (a b : Float) : Operator → Except Fault Value
  | add => .ok (.number (a + b))
  | sub => .ok (.number (a - b))
  | div => .ok (.number (a / b))
  | mod => .ok (.number (Decimal.remainder a b))
  | mul => .ok (.number (a * b))
  | pow => .ok (.number (a ^ b))
  | eq => .ok (.bool (a == b))
  | neq => .ok (.bool (a != b))
  | lt => .ok (.bool (decide (a < b)))
  | lte => .ok (.bool (decide (a ≤ b)))
  | gt => .ok (.bool (decide (b < a)))
  | gte => .ok (.bool (decide (b ≤ a)))
  | neg => .error .undefinedOperation

/-- Whether strings have an operator. -/
def definedOnStrings (op : Operator) : Bool := op matches add | eq | neq | lt | lte | gt | gte

/-- Whether lists have an operator. -/
def definedOnLists (op : Operator) : Bool := op matches add | sub | eq | neq

/-- Whether dictionaries have an operator. -/
def definedOnDicts (op : Operator) : Bool := op matches add | eq | neq

/-- The operators of strings, which are ordered by their characters. -/
def onStrings (a b : String) : Operator → Except Fault Value
  | add => .ok (.string (a ++ b))
  | eq => .ok (.bool (a == b))
  | neq => .ok (.bool (a != b))
  | lt => .ok (.bool (decide (a < b)))
  | lte => .ok (.bool (!decide (b < a)))
  | gt => .ok (.bool (decide (b < a)))
  | gte => .ok (.bool (!decide (a < b)))
  | _ => .error .undefinedOperation

/-- The outcome when a side is `nil`, given whether both are: only equality is defined. -/
def onNil (both : Bool) : Operator → Except Fault Value
  | eq => .ok (.bool both)
  | neq => .ok (.bool !both)
  | _ => .error .undefinedOperation

end Operator

namespace Heap

/-- The operators of lists. -/
def onLists (h : Heap) (a b : Ref .list) : Operator → Except Fault Applied
  | .add => .ok (.newList (h.elements a ++ h.elements b))
  | .sub => .ok (.newList (difference (h.elements a).toList (h.elements b).toList).toArray)
  | .eq => .ok (.value (.bool (a == b)))
  | .neq => .ok (.value (.bool (a != b)))
  | _ => .error .undefinedOperation

/-- The operators of dictionaries. -/
def onDicts (h : Heap) (a b : Ref .dict) : Operator → Except Fault Applied
  | .add => .ok (.newDict ((h.dictionary a).union (h.dictionary b)))
  | .eq => .ok (.value (.bool (a == b)))
  | .neq => .ok (.value (.bool (a != b)))
  | _ => .error .undefinedOperation

/-- The method by which an instance defines an operator. -/
def overloaded (h : Heap) (op : Operator) (r : Ref .inst) (arguments : List Value) :
    Except Fault Applied :=
  match h.instanceMethod? r op.method with
  | some f => .ok (.method f r arguments)
  | none => .error .undefinedOperator

/-- The function by which a host object defines an operator. -/
def hostOverloaded (h : Heap) (op : Operator) (r : Ref .host) (arguments : List Value) :
    Except Fault Applied :=
  match h.hostOperator? r op with
  | some f => .ok (.hosted f arguments)
  | none => .error .undefinedOperation

/-- What an operator comes to on two values. Lists, dictionaries and strings refuse an operator they
    do not have before they look at the other side. -/
def binary (h : Heap) (op : Operator) : Value → Value → Except Fault Applied
  | .nil, .nil => (op.onNil true).map .value
  | .nil, _ => (op.onNil false).map .value
  | _, .nil => (op.onNil false).map .value
  | .number a, .number b => (op.onNumbers a b).map .value
  | .number _, _ => .error .expectedNumber
  | .string a, right =>
    if !op.definedOnStrings then .error .undefinedOperation
    else match right with
      | .string b => (op.onStrings a b).map .value
      | _ => .error .expectedString
  | .list a, right =>
    if !op.definedOnLists then .error .undefinedOperation
    else match right with
      | .list b => h.onLists a b op
      | _ => .error .expectedList
  | .dict a, right =>
    if !op.definedOnDicts then .error .undefinedOperation
    else match right with
      | .dict b => h.onDicts a b op
      | _ => .error .expectedDict
  | .inst r, right => h.overloaded op r [right]
  | .host r, right => h.hostOverloaded op r [right]
  | _, _ => .error .undefinedOperation

/-- What an operator comes to on one value: a number is negated, a list loses its repetitions. -/
def unary (h : Heap) (op : Operator) (operand : Value) : Except Fault Applied :=
  match op, operand with
  | .neg, .number x => .ok (.value (.number (-x)))
  | .neg, .list r => .ok (.newList (distinct (h.elements r).toList).toArray)
  | op, .inst r => h.overloaded op r []
  | op, .host r => h.hostOverloaded op r []
  | _, _ => .error .undefinedOperation

/-- Makes the object that an operator comes to. -/
def carryOut (h : Heap) : Applied → Dispatch × Heap
  | .value v => (.resolved v, h)
  | .newList elements =>
    let (v, h) := h.newList elements
    (.resolved v, h)
  | .newDict dict =>
    let (v, h) := h.newDict dict
    (.resolved v, h)
  | .method f receiver arguments =>
    let (callee, h) := h.boundMethod f receiver
    (.call callee arguments, h)
  | .hosted f arguments => (.call (.builtin f) arguments, h)

end Heap

end Script
