import Script.Heap.Scope

/-!
# `Proofs.Heap.Scopes` — one scope at a time

A name is looked up by going outwards from scope to scope. What happens on the way is said by what a
scope itself binds (`Heap.own?`) and by the scope around it (`Heap.parent?`); here is how the
operations on scopes change the two.
-/

namespace Script

namespace Heap

variable {h : Heap} {s s' p : Ref .scope} {name name' : String} {v : Value}

/-- What a scope itself binds a name to. -/
def own? (h : Heap) (s : Ref .scope) (name : String) : Option Value :=
  (h.scopes.get? s).bind (·.bindings.get? name)

/-- The scope around a scope. -/
def parent? (h : Heap) (s : Ref .scope) : Option (Ref .scope) := (h.scopes.get? s).bind (·.parent)

theorem lt_size_of_own? (hv : h.own? s name = some v) : s.index < h.scopes.size := by
  obtain ⟨scope, hscope, -⟩ := Option.bind_eq_some_iff.mp hv
  exact Store.lt_size_of_get? hscope

theorem lt_size_of_parent? (hp : h.parent? s = some p) : s.index < h.scopes.size := by
  obtain ⟨scope, hscope, -⟩ := Option.bind_eq_some_iff.mp hp
  exact Store.lt_size_of_get? hscope

/-! ## Looking names up -/

theorem lookup_of_own? (hv : h.own? s name = some v) : h.lookup s name = some v := by
  obtain ⟨scope, hscope, hv'⟩ := Option.bind_eq_some_iff.mp hv
  have hc : scope.bindings.contains name = true := by rw [Bindings.contains, hv']; rfl
  rw [lookup, nearest?_of_contains hscope hc]
  exact hv

theorem own?_newScope_of_lt (hs : s.index < h.scopes.size) (parent : Option (Ref .scope)) :
    (h.newScope parent).2.own? s name = h.own? s name := by
  rw [own?, newScope, Store.get?_push_of_lt hs]
  rfl

theorem parent?_newScope_of_lt (hs : s.index < h.scopes.size) (parent : Option (Ref .scope)) :
    (h.newScope parent).2.parent? s = h.parent? s := by
  rw [parent?, newScope, Store.get?_push_of_lt hs]
  rfl

theorem own?_newScope (h : Heap) (parent : Option (Ref .scope)) (name : String) :
    (h.newScope parent).2.own? (h.newScope parent).1 name = none := by
  simp [own?, newScope]

theorem parent?_newScope (h : Heap) (parent : Option (Ref .scope)) :
    (h.newScope parent).2.parent? (h.newScope parent).1 = parent := by
  simp [parent?, newScope]

theorem newScope_lt (h : Heap) (parent : Option (Ref .scope)) :
    (h.newScope parent).1.index < (h.newScope parent).2.scopes.size := by
  simp [newScope, Store.next, Store.size, Store.push]

/-! ## Declarations -/

theorem declare_scopes_size (s : Ref .scope) (name : String) (v : Value) :
    (h.declare s name v).scopes.size = h.scopes.size :=
  Store.size_modify ..

theorem parent?_declare (s s' : Ref .scope) (name : String) (v : Value) :
    (h.declare s name v).parent? s' = h.parent? s' := by
  unfold parent? declare
  by_cases hs : s' = s
  · subst hs
    simp only [Store.get?_modify_self]
    cases h.scopes.get? s' <;> rfl
  · simp only [Store.get?_modify_ne hs]

theorem own?_declare_self (hs : s.index < h.scopes.size) :
    (h.declare s name v).own? s name = some v := by
  unfold own? declare
  rw [Store.get?_modify_self]
  cases hscope : h.scopes.get? s with
  | none => exact absurd hs (Nat.not_lt.mpr (Store.get?_eq_none_iff.mp hscope))
  | some scope => exact Bindings.get?_set_self ..

theorem own?_declare_of_ne (hne : name' ≠ name) :
    (h.declare s name v).own? s' name' = h.own? s' name' := by
  unfold own? declare
  by_cases hs : s' = s
  · subst hs
    rw [Store.get?_modify_self]
    cases h.scopes.get? s' with
    | none => rfl
    | some scope => exact Bindings.get?_set_ne hne ..
  · rw [Store.get?_modify_ne hs]

theorem own?_declare_of_scope_ne (hne : s' ≠ s) :
    (h.declare s name v).own? s' name' = h.own? s' name' := by
  unfold own? declare
  rw [Store.get?_modify_ne hne]

end Heap

end Script
