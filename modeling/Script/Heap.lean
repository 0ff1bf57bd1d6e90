import Script.Bindings
import Script.Builtin
import Script.Value.Dict

/-!
# `Heap` — everything that values refer to

The heap has one store for each kind of object. A scope holds bindings and knows the scope around
it; a function knows the scope it was written in; a class knows its methods and the class above it.

Reading through a reference that was never handed out gives an empty object, and writing through one
does nothing, so every operation is defined everywhere.
-/

namespace Script

/-- The bindings of one block, call or program, and the scope around it. -/
structure Scope where
  bindings : Bindings Value
  parent : Option (Ref .scope)
  deriving Inhabited

/-- A function: its text, the scope in which it was made, and whether it initializes an instance. -/
structure Function where
  declaration : FunctionDecl
  closure : Ref .scope
  isInitializer : Bool

/-- A class. -/
structure Class where
  name : String
  superClass : Option (Ref .cls)
  methods : Bindings (Ref .function)
  staticMethods : Bindings (Ref .function)
  deriving Inhabited

/-- An instance of a class. -/
structure Instance where
  cls : Ref .cls
  fields : Bindings Value
  deriving Inhabited

/-- Which members of a host object can be set. -/
inductive MemberPolicy where
  | sealed
  | allBut (names : List String)
  deriving Repr, DecidableEq, Inhabited

/-- Whether a policy lets a member be set. -/
def MemberPolicy.permits : MemberPolicy → String → Bool
  | sealed, _ => false
  | allBut names, name => !names.contains name

/-- An object that the program did not make: a group of builtins, or an imported module. -/
structure HostObject where
  members : Bindings Value
  policy : MemberPolicy
  operators : List (Operator × Ref .builtin)
  deriving Inhabited

/-- All objects. -/
structure Heap where
  scopes : Store .scope Scope
  lists : Store .list (Array Value)
  dicts : Store .dict Dict
  functions : Store .function Function
  classes : Store .cls Class
  instances : Store .inst Instance
  builtins : Store .builtin Builtin
  hosts : Store .host HostObject

namespace Heap

/-- No objects. -/
def empty : Heap := ⟨.empty, .empty, .empty, .empty, .empty, .empty, .empty, .empty⟩

/-! ## New objects -/

/-- A new scope inside another one, or outermost. -/
def newScope (h : Heap) (parent : Option (Ref .scope)) : Ref .scope × Heap :=
  (h.scopes.next, { h with scopes := h.scopes.push ⟨.empty, parent⟩ })

/-- A new list. -/
def newList (h : Heap) (elements : Array Value) : Value × Heap :=
  (.list h.lists.next, { h with lists := h.lists.push elements })

/-- A new dictionary. -/
def newDict (h : Heap) (dict : Dict) : Value × Heap :=
  (.dict h.dicts.next, { h with dicts := h.dicts.push dict })

/-- A new function. -/
def newFunction (h : Heap) (function : Function) : Ref .function × Heap :=
  (h.functions.next, { h with functions := h.functions.push function })

/-- A new class. -/
def newClass (h : Heap) (cls : Class) : Ref .cls × Heap :=
  (h.classes.next, { h with classes := h.classes.push cls })

/-- A new instance without fields. -/
def newInstance (h : Heap) (cls : Ref .cls) : Ref .inst × Heap :=
  (h.instances.next, { h with instances := h.instances.push ⟨cls, .empty⟩ })

/-- A builtin function as an object. -/
def newBuiltin (h : Heap) (builtin : Builtin) : Ref .builtin × Heap :=
  (h.builtins.next, { h with builtins := h.builtins.push builtin })

/-- A new host object. -/
def newHost (h : Heap) (object : HostObject) : Ref .host × Heap :=
  (h.hosts.next, { h with hosts := h.hosts.push object })

/-! ## Reading -/

/-- The elements of a list. -/
def elements (h : Heap) (r : Ref .list) : Array Value := (h.lists.get? r).getD #[]

/-- The contents of a dictionary. -/
def dictionary (h : Heap) (r : Ref .dict) : Dict := (h.dicts.get? r).getD .empty

/-- The name of a class. -/
def className (h : Heap) (r : Ref .cls) : String := ((h.classes.get? r).map (·.name)).getD ""

/-- A field of an instance. -/
def field? (h : Heap) (r : Ref .inst) (name : String) : Option Value :=
  (h.instances.get? r).bind (·.fields.get? name)

/-- A method of the class itself. -/
def staticMethod? (h : Heap) (r : Ref .cls) (name : String) : Option (Ref .function) :=
  (h.classes.get? r).bind (·.staticMethods.get? name)

/-- A member of a host object. -/
def member? (h : Heap) (r : Ref .host) (name : String) : Option Value :=
  (h.hosts.get? r).bind (·.members.get? name)

/-- The function that a host object has for an operator. -/
def hostOperator? (h : Heap) (r : Ref .host) (operator : Operator) : Option (Ref .builtin) :=
  (h.hosts.get? r).bind (·.operators.lookup operator)

/-! ## Writing

An operation that can fail hands the heap back in either case. -/

/-- Replaces an element of a list, which has to be there. -/
def setElement (h : Heap) (r : Ref .list) (position : Nat) (v : Value) : Except Fault Unit × Heap :=
  if position < (h.elements r).size then
    (.ok (), { h with lists := h.lists.modify r (·.setIfInBounds position v) })
  else (.error .indexOutOfRange, h)

/-- Inserts an entry into a dictionary. -/
def insertEntry (h : Heap) (r : Ref .dict) (k v : Value) : Except Fault Unit × Heap :=
  match k.dictKey with
  | .ok key => (.ok (), { h with dicts := h.dicts.modify r (·.put key k v) })
  | .error fault => (.error fault, h)

/-- Sets a field of an instance. -/
def setField (h : Heap) (r : Ref .inst) (name : String) (v : Value) : Heap :=
  { h with instances := h.instances.modify r fun i => { i with fields := i.fields.set name v } }

/-- Whether a member of a host object can be set. -/
def memberIsOpen (h : Heap) (r : Ref .host) (name : String) : Bool :=
  ((h.hosts.get? r).map (·.policy.permits name)).getD false

/-- Sets a member of a host object, if its policy lets it be set. -/
def setMember (h : Heap) (r : Ref .host) (name : String) (v : Value) : Except Fault Unit × Heap :=
  if h.memberIsOpen r name then
    let set (o : HostObject) : HostObject := { o with members := o.members.set name v }
    (.ok (), { h with hosts := h.hosts.modify r set })
  else (.error .readOnly, h)

/-! ## Frames

A write to an object leaves all objects of other kinds alone. -/

theorem setElement_frame (h : Heap) (r : Ref .list) (position : Nat) (v : Value) :
    (h.setElement r position v).2 = { h with lists := (h.setElement r position v).2.lists } := by
  unfold setElement
  split <;> rfl

theorem insertEntry_frame (h : Heap) (r : Ref .dict) (k v : Value) :
    (h.insertEntry r k v).2 = { h with dicts := (h.insertEntry r k v).2.dicts } := by
  unfold insertEntry
  split <;> rfl

theorem setMember_frame (h : Heap) (r : Ref .host) (name : String) (v : Value) :
    (h.setMember r name v).2 = { h with hosts := (h.setMember r name v).2.hosts } := by
  unfold setMember
  split <;> rfl

end Heap

end Script
