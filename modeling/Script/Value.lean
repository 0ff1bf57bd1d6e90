import Script.Fault
import Script.Heap.Store
import Script.Tree

/-!
# `Value` — what expressions evaluate to

Plain data is held in the value itself; everything that can change or is shared is a reference into
the heap, so two values are the same object exactly when they are equal as references.

`Value.key` says when two values count as the same dictionary key or list member: numbers by their
value, with both zeros alike and every not-a-number alike, and references by identity.
-/

namespace Script

/-- A value. -/
inductive Value where
  | nil
  | bool (value : Bool)
  | number (value : Float)
  | string (value : String)
  | list (ref : Ref .list)
  | dict (ref : Ref .dict)
  | function (ref : Ref .function)
  | cls (ref : Ref .cls)
  | inst (ref : Ref .inst)
  | builtin (ref : Ref .builtin)
  | host (ref : Ref .host)
  deriving DecidableEq, Inhabited

/-- The value of a constant. -/
def Constant.value : Constant → Value
  | .nil => .nil
  | .bool b => .bool b
  | .number x => .number x
  | .string s => .string s

namespace Value

/-- `nil`, `false`, zero and the empty string do not hold; every other value does. -/
def truthy : Value → Bool
  | nil => false
  | bool b => b
  | number x => x != 0.0
  | string s => !s.isEmpty
  | _ => true

/-- The name of a value's type. -/
def typeName : Value → String
  | nil => "nil"
  | bool _ => "bool"
  | number _ => "number"
  | string _ => "string"
  | list _ => "list"
  | dict _ => "dict"
  | function _ => "function"
  | builtin _ => "function"
  | cls _ => "class"
  | inst _ => "object"
  | host _ => "object"

end Value

/-- What two values have in common when they count as the same. -/
inductive Key where
  | nil
  | bool (value : Bool)
  | number (bits : UInt64)
  | string (value : String)
  | list (ref : Ref .list)
  | dict (ref : Ref .dict)
  | function (ref : Ref .function)
  | cls (ref : Ref .cls)
  | inst (ref : Ref .inst)
  | builtin (ref : Ref .builtin)
  | host (ref : Ref .host)
  deriving DecidableEq, Hashable, Inhabited

/-- The bits of a number, after taking one representative of the zeros and one of those that are not
    a number. -/
def canonicalBits (x : Float) : UInt64 :=
  if x == 0.0 then 0
  else if x.isNaN then 0x7ff8000000000000
  else x.toBits

namespace Value

/-- The identity of a value among the members of a list. -/
def key : Value → Key
  | nil => .nil
  | bool b => .bool b
  | number x => .number (canonicalBits x)
  | string s => .string s
  | list r => .list r
  | dict r => .dict r
  | function r => .function r
  | cls r => .cls r
  | inst r => .inst r
  | builtin r => .builtin r
  | host r => .host r

/-- Whether a value can be a dictionary key. Lists and dictionaries change and so cannot. -/
def hashable : Value → Bool
  | list _ => false
  | dict _ => false
  | _ => true

/-- The identity of a value as a dictionary key. -/
def dictKey (v : Value) : Except Fault Key :=
  if v.hashable then .ok v.key else .error .unhashableKey

theorem dictKey_of_hashable {v : Value} (h : v.hashable = true) : v.dictKey = .ok v.key := by
  simp [dictKey, h]

end Value

end Script
