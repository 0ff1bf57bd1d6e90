import Script.Heap.Class
import Script.Proofs.Heap.Contents

/-!
# `Proofs.Heap.Values` — the values that are stored

A program gets hold of a value by computing it or by finding it where it was stored: under a name,
in a list or dictionary, in a field of an instance, as a member of a host object, or as a static
method of a class. `Heap.All P h` says that all stored values are in `P`. An operation keeps it if
what the operation stores is in `P`, and then what is found is in `P` too.

The methods of a class are not counted: they are no values until they are bound to an instance.
-/

namespace Script

/-! ## Cells -/

/-- What each cell holds is in `P`. -/
def Store.All {kind : CellKind} {α : Type} (P : α → Prop) (s : Store kind α) : Prop :=
  ∀ r a, s.get? r = some a → P a

namespace Store.All

variable {kind : CellKind} {α : Type} {s : Store kind α} {P Q : α → Prop} {r : Ref kind} {a : α}

theorem empty : (Store.empty : Store kind α).All P := by
  intro r a ha
  exact absurd (lt_size_of_get? ha) (Nat.not_lt_zero _)

theorem mono (hs : s.All P) (hPQ : ∀ a, P a → Q a) : s.All Q :=
  fun r a ha => hPQ a (hs r a ha)

theorem push (hs : s.All P) (ha : P a) : (s.push a).All P := by
  intro r b hb
  obtain hold | ⟨-, rfl⟩ := get?_push_cases hb
  · exact hs r b hold
  · exact ha

/-- One cell holds something else, made of what it held before. -/
theorem modify (hs : s.All P) {f : α → α} (hf : ∀ a, P a → P (f a)) : (s.modify r f).All P := by
  intro r' b hb
  by_cases hr : r' = r
  · subst hr
    rw [get?_modify_self] at hb
    obtain ⟨a, ha, rfl⟩ := Option.map_eq_some_iff.mp hb
    exact hf a (hs r' a ha)
  · rw [get?_modify_ne hr] at hb
    exact hs r' b hb

end Store.All

/-! ## Heaps -/

/-- All values that are stored are in `P`. -/
structure Heap.All (P : Value → Prop) (h : Heap) : Prop where
  scopes : h.scopes.All fun s => s.bindings.All P
  lists : h.lists.All fun vs => ∀ v ∈ vs.toList, P v
  dicts : h.dicts.All fun d => d.All P
  statics : h.classes.All fun c => c.staticMethods.All fun g => P (.function g)
  fields : h.instances.All fun i => i.fields.All P
  members : h.hosts.All fun o => o.members.All P

namespace Heap.All

variable {h : Heap} {P Q : Value → Prop} {v : Value} {name : String}

theorem empty : Heap.empty.All P := ⟨.empty, .empty, .empty, .empty, .empty, .empty⟩

theorem mono (hh : h.All P) (hPQ : ∀ v, P v → Q v) : h.All Q where
  scopes := hh.scopes.mono fun _ hs => hs.mono hPQ
  lists := hh.lists.mono fun _ hvs v hv => hPQ v (hvs v hv)
  dicts := hh.dicts.mono fun _ hd e he => ⟨hPQ e.1 (hd e he).1, hPQ e.2 (hd e he).2⟩
  statics := hh.statics.mono fun _ hc => hc.mono fun _ hg => hPQ _ hg
  fields := hh.fields.mono fun _ hi => hi.mono hPQ
  members := hh.members.mono fun _ ho => ho.mono hPQ

/-! ### Reading -/

/-- A value that a scope has under a name is stored. -/
theorem own? (hh : h.All P) {s : Ref .scope}
    (hv : (h.scopes.get? s).bind (·.bindings.get? name) = some v) : P v := by
  obtain ⟨scope, hscope, hv⟩ := Option.bind_eq_some_iff.mp hv
  exact (hh.scopes s scope hscope).get? hv

/-- A lookup ends at a scope, and what it gives is what that scope has under the name. -/
theorem lookup (hh : h.All P) {s : Ref .scope} (hv : h.lookup s name = some v) : P v := by
  obtain ⟨d, -, hv⟩ := Option.bind_eq_some_iff.mp hv
  exact hh.own? hv

/-- All that a scope has under its names is stored. -/
theorem bindings (hh : h.All P) (s : Ref .scope) : ∀ p ∈ h.bindings s, P p.2 := by
  unfold Heap.bindings
  cases hscope : h.scopes.get? s with
  | none => simp
  | some scope => exact (hh.scopes s scope hscope).sorted

/-- A list that is not there has no elements, and otherwise its elements are stored. -/
theorem elements (hh : h.All P) (r : Ref .list) : ∀ v ∈ (h.elements r).toList, P v := by
  unfold Heap.elements
  cases hlist : h.lists.get? r with
  | none => simp
  | some vs => exact hh.lists r vs hlist

/-- The same for a dictionary, with its keys and its values. -/
theorem dictionary (hh : h.All P) (r : Ref .dict) : (h.dictionary r).All P := by
  unfold Heap.dictionary
  cases hdict : h.dicts.get? r with
  | none => exact .empty
  | some d => exact hh.dicts r d hdict

theorem field? (hh : h.All P) {r : Ref .inst} (hv : h.field? r name = some v) : P v := by
  obtain ⟨i, hi, hv⟩ := Option.bind_eq_some_iff.mp hv
  exact (hh.fields r i hi).get? hv

/-- A static method is stored as a value, unlike the other methods of a class. -/
theorem staticMethod? (hh : h.All P) {c : Ref .cls} {g : Ref .function}
    (hg : h.staticMethod? c name = some g) : P (.function g) := by
  obtain ⟨cls, hcls, hg⟩ := Option.bind_eq_some_iff.mp hg
  exact (hh.statics c cls hcls).get? hg

theorem member? (hh : h.All P) {r : Ref .host} (hv : h.member? r name = some v) : P v := by
  obtain ⟨o, ho, hv⟩ := Option.bind_eq_some_iff.mp hv
  exact (hh.members r o ho).get? hv

/-! ### Making -/

theorem newScope (hh : h.All P) (parent : Option (Ref .scope)) : (h.newScope parent).2.All P :=
  { hh with scopes := hh.scopes.push .empty }

theorem newList (hh : h.All P) {vs : Array Value} (hvs : ∀ v ∈ vs.toList, P v) :
    (h.newList vs).2.All P :=
  { hh with lists := hh.lists.push hvs }

theorem newDict (hh : h.All P) {d : Dict} (hd : d.All P) : (h.newDict d).2.All P :=
  { hh with dicts := hh.dicts.push hd }

theorem newFunction (hh : h.All P) (f : Function) : (h.newFunction f).2.All P :=
  { hh with }

/-- Of a new class only the static methods are counted. -/
theorem newClass (hh : h.All P) {c : Class} (hc : c.staticMethods.All fun g => P (.function g)) :
    (h.newClass c).2.All P :=
  { hh with statics := hh.statics.push hc }

theorem newInstance (hh : h.All P) (c : Ref .cls) : (h.newInstance c).2.All P :=
  { hh with fields := hh.fields.push .empty }

theorem newBuiltin (hh : h.All P) (b : Builtin) : (h.newBuiltin b).2.All P :=
  { hh with }

theorem newHost (hh : h.All P) {o : HostObject} (ho : o.members.All P) : (h.newHost o).2.All P :=
  { hh with members := hh.members.push ho }

/-! ### Changing -/

theorem declare (hh : h.All P) (s : Ref .scope) (name : String) (hv : P v) :
    (h.declare s name v).All P :=
  { hh with scopes := hh.scopes.modify fun _ hs => hs.set name hv }

/-- Where the position is not in the list nothing is changed. -/
theorem setElement (hh : h.All P) (r : Ref .list) (position : Nat) (hv : P v) :
    (h.setElement r position v).2.All P := by
  unfold Heap.setElement
  split
  · refine { hh with lists := hh.lists.modify fun vs hvs w hw => ?_ }
    obtain hw | rfl := Array.mem_or_eq_of_mem_setIfInBounds (Array.mem_toList_iff.mp hw)
    · exact hvs w (Array.mem_toList_iff.mpr hw)
    · exact hv
  · exact hh

/-- The key is stored along with the value. Nothing is changed if it cannot be hashed. -/
theorem insertEntry (hh : h.All P) (r : Ref .dict) {k : Value} (hk : P k) (hv : P v) :
    (h.insertEntry r k v).2.All P := by
  unfold Heap.insertEntry
  split
  · exact { hh with dicts := hh.dicts.modify fun _ hd => hd.put _ hk hv }
  · exact hh

theorem setField (hh : h.All P) (r : Ref .inst) (name : String) (hv : P v) :
    (h.setField r name v).All P :=
  { hh with fields := hh.fields.modify fun _ hi => hi.set name hv }

theorem setMember (hh : h.All P) (r : Ref .host) (name : String) (hv : P v) :
    (h.setMember r name v).2.All P := by
  unfold Heap.setMember
  split
  · exact { hh with members := hh.members.modify fun _ ho => ho.set name hv }
  · exact hh

end Heap.All

end Script
