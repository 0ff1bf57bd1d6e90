import Script.Heap.Scope

/-!
# `Heap.Class` — methods

A method is looked up in a class and then in the classes above it, each of which is older. Getting a
method from an instance binds it: the bound method runs inside a scope in which `this` is the
instance.
-/

namespace Script

/-- The method that a class has under a name, its own or inherited. -/
def Store.method? (classes : Store .cls Class) (c : Ref .cls) (name : String) :
    Option (Ref .function) :=
  match classes.get? c with
  | none => none
  | some cls =>
    match cls.methods.get? name with
    | some method => some method
    | none =>
      match cls.superClass with
      | none => none
      | some s => if s.index < c.index then method? classes s name else none
  termination_by c.index

namespace Heap

/-- The method that a class has under a name. -/
def method? (h : Heap) (c : Ref .cls) (name : String) : Option Function :=
  (h.classes.method? c name).bind h.functions.get?

/-- The method that the class of an instance has under a name. -/
def instanceMethod? (h : Heap) (r : Ref .inst) (name : String) : Option Function :=
  (h.instances.get? r).bind fun i => h.method? i.cls name

/-- A function whose scope has `this` for an instance. -/
def bind (h : Heap) (f : Function) (r : Ref .inst) : Function × Heap :=
  let (scope, h) := h.newScope (some f.closure)
  ({ f with closure := scope }, h.declare scope "this" (.inst r))

/-- A bound method as a value. -/
def boundMethod (h : Heap) (f : Function) (r : Ref .inst) : Value × Heap :=
  let (bound, h) := h.bind f r
  let (ref, h) := h.newFunction bound
  (.function ref, h)

end Heap

end Script
