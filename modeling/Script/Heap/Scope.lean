import Script.Heap

/-!
# `Heap.Scope` — names and the scopes that bind them

A name means what it means in the nearest scope that binds it, going outwards. A scope is made after
the scope around it, so going outwards always leads to an older scope and comes to an end.
-/

namespace Script

/-- The nearest scope that binds a name, seen from a scope. -/
def Store.nearest? (scopes : Store .scope Scope) (s : Ref .scope) (name : String) :
    Option (Ref .scope) :=
  match scopes.get? s with
  | none => none
  | some scope =>
    if scope.bindings.contains name then some s
    else match scope.parent with
      | none => none
      | some p => if p.index < s.index then nearest? scopes p name else none
  termination_by s.index

namespace Heap

/-- What a name means in a scope. -/
def lookup (h : Heap) (s : Ref .scope) (name : String) : Option Value :=
  (h.scopes.nearest? s name).bind fun d => (h.scopes.get? d).bind (·.bindings.get? name)

/-- Binds a name in a scope itself. -/
def declare (h : Heap) (s : Ref .scope) (name : String) (v : Value) : Heap :=
  { h with scopes := h.scopes.modify s fun c => { c with bindings := c.bindings.set name v } }

/-- Binds names one after the other. -/
def declareAll (h : Heap) (s : Ref .scope) : List (String × Value) → Heap
  | [] => h
  | (name, v) :: rest => (h.declare s name v).declareAll s rest

/-- Gives a name another meaning in the nearest scope that binds it. -/
def assign (h : Heap) (s : Ref .scope) (name : String) (v : Value) : Except Fault Unit × Heap :=
  match h.scopes.nearest? s name with
  | some d => (.ok (), h.declare d name v)
  | none => (.error .undefinedVariable, h)

/-- An assignment leaves everything but scopes alone. -/
theorem assign_frame (h : Heap) (s : Ref .scope) (name : String) (v : Value) :
    (h.assign s name v).2 = { h with scopes := (h.assign s name v).2.scopes } := by
  unfold assign
  split <;> rfl

/-- The bindings of a scope itself, in the order of the names. -/
def bindings (h : Heap) (s : Ref .scope) : List (String × Value) :=
  ((h.scopes.get? s).map (·.bindings.sorted)).getD []

/-- A scope that binds the name itself is the nearest one. -/
theorem nearest?_of_contains {scopes : Store .scope Scope} {s : Ref .scope} {scope : Scope}
    {name : String} (hs : scopes.get? s = some scope) (hc : scope.bindings.contains name = true) :
    scopes.nearest? s name = some s := by
  rw [Store.nearest?]
  simp [hs, hc]

end Heap

end Script
