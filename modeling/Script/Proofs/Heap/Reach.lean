import Script.Proofs.Heap.Contents

/-!
# `Proofs.Heap.Reach` — what can be reached from an object

Each cell of the heap refers to others: a scope to what its names mean and to the scope around it, a
function to its scope, a class to its methods and to the class above it. `Heap.Reaches` follows
these references.

`Heap.Grown` is the shape of a heap that has grown without touching what was there: all cells of the
old heap are as they were, and the cells that are new refer to objects in `P` only.
-/

namespace Script

/-- What a cell can refer to: a value or a scope. -/
inductive Object where
  | value (v : Value)
  | scope (s : Ref .scope)

/-! ## What a cell refers to -/

/-- The objects that a scope refers to. -/
def Scope.refs (s : Scope) : List Object :=
  s.bindings.entries.map (fun p => .value p.2) ++ s.parent.toList.map .scope

/-- The objects that a function refers to. -/
def Function.refs (f : Function) : List Object := [.scope f.closure]

/-- The objects that a class refers to. -/
def Class.refs (c : Class) : List Object :=
  c.superClass.toList.map (fun r => .value (.cls r))
    ++ c.methods.entries.map (fun p => .value (.function p.2))
    ++ c.staticMethods.entries.map (fun p => .value (.function p.2))

/-- The objects that an instance refers to. -/
def Instance.refs (i : Instance) : List Object :=
  .value (.cls i.cls) :: i.fields.entries.map fun p => .value p.2

/-- The objects that a host object refers to. -/
def HostObject.refs (o : HostObject) : List Object :=
  o.members.entries.map (fun p => .value p.2) ++ o.operators.map fun p => .value (.builtin p.2)

/-- The objects that the elements of a list are. -/
def listRefs (elements : Array Value) : List Object := elements.toList.map .value

/-- The objects that a dictionary refers to. -/
def Dict.refs (d : Dict) : List Object :=
  d.toList.map (fun e => .value e.1) ++ d.toList.map fun e => .value e.2

namespace Heap

/-- The objects that an object refers to. -/
def refs (h : Heap) : Object → List Object
  | .scope s => (h.scopes.get? s).elim [] Scope.refs
  | .value (.list r) => (h.lists.get? r).elim [] listRefs
  | .value (.dict r) => (h.dicts.get? r).elim [] Dict.refs
  | .value (.function r) => (h.functions.get? r).elim [] Function.refs
  | .value (.cls r) => (h.classes.get? r).elim [] Class.refs
  | .value (.inst r) => (h.instances.get? r).elim [] Instance.refs
  | .value (.host r) => (h.hosts.get? r).elim [] HostObject.refs
  | .value _ => []

/-- An object leads to another one by following references. -/
inductive Reaches (h : Heap) (start : Object) : Object → Prop where
  | refl : Reaches h start start
  | step {o o' : Object} : Reaches h start o → o' ∈ h.refs o → Reaches h start o'

end Heap

section Refs

variable {P : Object → Prop}

/-- A scope refers to the values of its names and to the scope around it. -/
theorem Scope.forall_refs {s : Scope} :
    (∀ o ∈ s.refs, P o) ↔ s.bindings.All (fun v => P (.value v)) ∧ ∀ p ∈ s.parent, P (.scope p) := by
  simp only [Scope.refs, Bindings.All, List.forall_mem_append, List.forall_mem_map, Option.mem_toList,
    Option.mem_def]

theorem Function.forall_refs {f : Function} : (∀ o ∈ f.refs, P o) ↔ P (.scope f.closure) := by
  simp [Function.refs]

/-- A class refers to the class above it and to both sorts of methods. -/
theorem Class.forall_refs {c : Class} :
    (∀ o ∈ c.refs, P o) ↔ (∀ r ∈ c.superClass, P (.value (.cls r)))
      ∧ c.methods.All (fun r => P (.value (.function r)))
      ∧ c.staticMethods.All fun r => P (.value (.function r)) := by
  simp only [Class.refs, Bindings.All, List.forall_mem_append, List.forall_mem_map, Option.mem_toList,
    Option.mem_def, and_assoc]

theorem Instance.forall_refs {i : Instance} :
    (∀ o ∈ i.refs, P o) ↔ P (.value (.cls i.cls)) ∧ i.fields.All fun v => P (.value v) := by
  simp only [Instance.refs, Bindings.All, List.forall_mem_cons, List.forall_mem_map]

/-- A host object refers to its members and to the builtins for its operators. -/
theorem HostObject.forall_refs {o : HostObject} :
    (∀ o' ∈ o.refs, P o') ↔ o.members.All (fun v => P (.value v))
      ∧ ∀ p ∈ o.operators, P (.value (.builtin p.2)) := by
  simp only [HostObject.refs, Bindings.All, List.forall_mem_append, List.forall_mem_map]

theorem forall_listRefs {vs : Array Value} :
    (∀ o ∈ listRefs vs, P o) ↔ ∀ v ∈ vs.toList, P (.value v) := by
  simp [listRefs]

theorem Dict.forall_refs {d : Dict} : (∀ o ∈ d.refs, P o) ↔ d.All fun v => P (.value v) := by
  simp only [Dict.refs, Dict.All, List.forall_mem_append, List.forall_mem_map, ← forall_and]

end Refs

/-! ## Stores that grow -/

namespace Store

variable {kind : CellKind} {α : Type} {old s : Store kind α} {P Q : α → Prop} {r : Ref kind}

/-- A reference to a cell that the old store does not have and the other one has. -/
def Fresh (old s : Store kind α) (r : Ref kind) : Prop := old.size ≤ r.index ∧ r.index < s.size

/-- The cells of the old store are as they were. -/
def KeptIn (old s : Store kind α) : Prop := ∀ r a, old.get? r = some a → s.get? r = some a

/-- A new cell leaves the others as they are. -/
theorem keptIn_push (s : Store kind α) (a : α) : s.KeptIn (s.push a) := by
  intro r b hb
  rw [get?_push_of_lt (lt_size_of_get? hb)]
  exact hb

/-- The cells of the old store are as they were, and the others are in `P`. -/
structure Grown (old s : Store kind α) (P : α → Prop) : Prop where
  kept : old.KeptIn s
  cells : ∀ r a, old.size ≤ r.index → s.get? r = some a → P a

namespace Grown

theorem refl (s : Store kind α) : Grown s s P := by
  refine ⟨fun _ _ h => h, fun r a hr ha => ?_⟩
  exact absurd (lt_size_of_get? ha) (Nat.not_lt.mpr hr)

theorem mono (h : Grown old s P) (hPQ : ∀ a, P a → Q a) : Grown old s Q :=
  ⟨h.kept, fun r a hr ha => hPQ a (h.cells r a hr ha)⟩

/-- A store that keeps the cells of another one is no smaller. -/
theorem size_le (h : Grown old s P) : old.size ≤ s.size := by
  rcases Nat.lt_or_ge s.size old.size with hlt | hge
  · -- The first cell that is missing in `s` would have to be there.
    obtain ⟨a, ha⟩ : ∃ a, old.get? ⟨s.size⟩ = some a := by
      cases hget : old.get? ⟨s.size⟩ with
      | some a => exact ⟨a, rfl⟩
      | none => exact absurd (get?_eq_none_iff.mp hget) (Nat.not_le.mpr hlt)
    exact absurd (lt_size_of_get? (h.kept _ a ha)) (Nat.lt_irrefl _)
  · exact hge

/-- A cell that is added is none of the old ones, so it has to be in `P`. -/
theorem push (h : Grown old s P) {a : α} (ha : P a) : Grown old (s.push a) P := by
  constructor
  · exact fun r b hb => keptIn_push s a r b (h.kept r b hb)
  · intro r b hr hb
    obtain hold | ⟨-, rfl⟩ := get?_push_cases hb
    · exact h.cells r b hr hold
    · exact ha

/-- The next cell is not in the old store. -/
theorem fresh_next (h : Grown old s P) (a : α) : old.Fresh (s.push a) s.next :=
  ⟨h.size_le, by rw [size_push]; exact Nat.lt_succ_self _⟩

/-- Only cells that are not old are changed. -/
theorem modify (h : Grown old s P) (hr : old.size ≤ r.index) {f : α → α}
    (hf : ∀ a, P a → P (f a)) : Grown old (s.modify r f) P := by
  constructor
  · intro r' b hb
    have hne : r' ≠ r := by
      rintro rfl
      exact absurd (lt_size_of_get? hb) (Nat.not_lt.mpr hr)
    rw [get?_modify_ne hne]
    exact h.kept r' b hb
  · intro r' b hr' hb
    by_cases heq : r' = r
    · subst heq
      rw [get?_modify_self] at hb
      obtain ⟨a, ha, rfl⟩ := Option.map_eq_some_iff.mp hb
      exact hf a (h.cells r' a hr ha)
    · rw [get?_modify_ne heq] at hb
      exact h.cells r' b hr' hb

end Grown

end Store

/-! ## Heaps that grow -/

/-- No store has become smaller. -/
structure Heap.Larger (h h' : Heap) : Prop where
  scopes : h.scopes.size ≤ h'.scopes.size
  lists : h.lists.size ≤ h'.lists.size
  dicts : h.dicts.size ≤ h'.dicts.size
  functions : h.functions.size ≤ h'.functions.size
  classes : h.classes.size ≤ h'.classes.size
  instances : h.instances.size ≤ h'.instances.size
  builtins : h.builtins.size ≤ h'.builtins.size
  hosts : h.hosts.size ≤ h'.hosts.size

theorem Heap.Larger.refl (h : Heap) : h.Larger h := by
  constructor <;> exact Nat.le_refl _

theorem Heap.Larger.trans {h h' h'' : Heap} (hfirst : h.Larger h') (hsecond : h'.Larger h'') :
    h.Larger h'' where
  scopes := Nat.le_trans hfirst.scopes hsecond.scopes
  lists := Nat.le_trans hfirst.lists hsecond.lists
  dicts := Nat.le_trans hfirst.dicts hsecond.dicts
  functions := Nat.le_trans hfirst.functions hsecond.functions
  classes := Nat.le_trans hfirst.classes hsecond.classes
  instances := Nat.le_trans hfirst.instances hsecond.instances
  builtins := Nat.le_trans hfirst.builtins hsecond.builtins
  hosts := Nat.le_trans hfirst.hosts hsecond.hosts

/-- The object is not there in the old heap and is there in the other one. Plain data refers to
    nothing and always counts as new. -/
def Object.New (old h : Heap) : Object → Prop
  | .scope s => old.scopes.Fresh h.scopes s
  | .value (.list r) => old.lists.Fresh h.lists r
  | .value (.dict r) => old.dicts.Fresh h.dicts r
  | .value (.function r) => old.functions.Fresh h.functions r
  | .value (.cls r) => old.classes.Fresh h.classes r
  | .value (.inst r) => old.instances.Fresh h.instances r
  | .value (.builtin r) => old.builtins.Fresh h.builtins r
  | .value (.host r) => old.hosts.Fresh h.hosts r
  | .value _ => True

/-- The object is there in the heap. Plain data is always there. -/
def Object.In (h : Heap) : Object → Prop
  | .scope s => s.index < h.scopes.size
  | .value (.list r) => r.index < h.lists.size
  | .value (.dict r) => r.index < h.dicts.size
  | .value (.function r) => r.index < h.functions.size
  | .value (.cls r) => r.index < h.classes.size
  | .value (.inst r) => r.index < h.instances.size
  | .value (.builtin r) => r.index < h.builtins.size
  | .value (.host r) => r.index < h.hosts.size
  | .value _ => True

/-- Whether an object is plain data. -/
def Object.isPlain : Object → Bool
  | .value v => v.isPlain
  | .scope _ => false

/-- Only plain data is both there and new. -/
theorem Object.In.isPlain {old h : Heap} {o : Object} (hin : o.In old) (hnew : o.New old h) :
    o.isPlain = true := by
  cases o with
  | scope s => exact absurd hin (Nat.not_lt.mpr hnew.1)
  | value v =>
      cases v with
      | list r => exact absurd hin (Nat.not_lt.mpr hnew.1)
      | dict r => exact absurd hin (Nat.not_lt.mpr hnew.1)
      | function r => exact absurd hin (Nat.not_lt.mpr hnew.1)
      | cls r => exact absurd hin (Nat.not_lt.mpr hnew.1)
      | inst r => exact absurd hin (Nat.not_lt.mpr hnew.1)
      | builtin r => exact absurd hin (Nat.not_lt.mpr hnew.1)
      | host r => exact absurd hin (Nat.not_lt.mpr hnew.1)
      | _ => rfl

/-- What is new stays new as the heap grows. -/
theorem Object.New.later {old h h' : Heap} (hl : h.Larger h') {o : Object} (ho : o.New old h) :
    o.New old h' := by
  cases o with
  | scope s => exact ⟨ho.1, Nat.lt_of_lt_of_le ho.2 hl.scopes⟩
  | value v =>
      cases v with
      | list r => exact ⟨ho.1, Nat.lt_of_lt_of_le ho.2 hl.lists⟩
      | dict r => exact ⟨ho.1, Nat.lt_of_lt_of_le ho.2 hl.dicts⟩
      | function r => exact ⟨ho.1, Nat.lt_of_lt_of_le ho.2 hl.functions⟩
      | cls r => exact ⟨ho.1, Nat.lt_of_lt_of_le ho.2 hl.classes⟩
      | inst r => exact ⟨ho.1, Nat.lt_of_lt_of_le ho.2 hl.instances⟩
      | builtin r => exact ⟨ho.1, Nat.lt_of_lt_of_le ho.2 hl.builtins⟩
      | host r => exact ⟨ho.1, Nat.lt_of_lt_of_le ho.2 hl.hosts⟩
      | _ => trivial

/-- Every object of the old heap is as it was. -/
structure Heap.KeptIn (old h : Heap) : Prop where
  scopes : old.scopes.KeptIn h.scopes
  lists : old.lists.KeptIn h.lists
  dicts : old.dicts.KeptIn h.dicts
  functions : old.functions.KeptIn h.functions
  classes : old.classes.KeptIn h.classes
  instances : old.instances.KeptIn h.instances
  builtins : old.builtins.KeptIn h.builtins
  hosts : old.hosts.KeptIn h.hosts

namespace Heap.KeptIn

variable {old h : Heap}

/-- An object that was there refers to what it referred to. -/
theorem refs (hk : old.KeptIn h) {o : Object} (ho : o.In old) : h.refs o = old.refs o := by
  have hcell : ∀ {kind : CellKind} {α : Type} {s₀ s : Store kind α} (refs : α → List Object)
      {r : Ref kind}, s₀.KeptIn s → r.index < s₀.size →
      (s.get? r).elim [] refs = (s₀.get? r).elim [] refs := by
    intro kind α s₀ s refs r hs hr
    cases hget : s₀.get? r with
    | none => exact absurd hr (Nat.not_lt.mpr (Store.get?_eq_none_iff.mp hget))
    | some a => rw [hs r a hget]
  cases o with
  | scope s => exact hcell _ hk.scopes ho
  | value v =>
      cases v with
      | list r => exact hcell _ hk.lists ho
      | dict r => exact hcell _ hk.dicts ho
      | function r => exact hcell _ hk.functions ho
      | cls r => exact hcell _ hk.classes ho
      | inst r => exact hcell _ hk.instances ho
      | host r => exact hcell _ hk.hosts ho
      | _ => rfl

/-- If all that an object reached was there, then it still reaches the same. -/
theorem reaches (hk : old.KeptIn h) {start o : Object} (hin : ∀ o, old.Reaches start o → o.In old)
    (hr : h.Reaches start o) : old.Reaches start o := by
  induction hr with
  | refl => exact .refl
  | step _ hmem ih =>
      rw [hk.refs (hin _ ih)] at hmem
      exact .step ih hmem

end Heap.KeptIn

/-- The cells of the old heap are as they were, and the others refer to objects in `P` only. -/
structure Heap.Grown (old h : Heap) (P : Object → Prop) : Prop where
  scopes : old.scopes.Grown h.scopes fun s => ∀ o ∈ s.refs, P o
  lists : old.lists.Grown h.lists fun vs => ∀ o ∈ listRefs vs, P o
  dicts : old.dicts.Grown h.dicts fun d => ∀ o ∈ d.refs, P o
  functions : old.functions.Grown h.functions fun f => ∀ o ∈ f.refs, P o
  classes : old.classes.Grown h.classes fun c => ∀ o ∈ c.refs, P o
  instances : old.instances.Grown h.instances fun i => ∀ o ∈ i.refs, P o
  builtins : old.builtins.Grown h.builtins fun _ => True
  hosts : old.hosts.Grown h.hosts fun o => ∀ o' ∈ o.refs, P o'

namespace Heap.Grown

variable {old h : Heap} {P Q : Object → Prop}

theorem refl (h : Heap) : h.Grown h P := by
  constructor <;> exact .refl _

theorem mono (hg : old.Grown h P) (hPQ : ∀ o, P o → Q o) : old.Grown h Q where
  scopes := hg.scopes.mono fun _ ha o ho => hPQ o (ha o ho)
  lists := hg.lists.mono fun _ ha o ho => hPQ o (ha o ho)
  dicts := hg.dicts.mono fun _ ha o ho => hPQ o (ha o ho)
  functions := hg.functions.mono fun _ ha o ho => hPQ o (ha o ho)
  classes := hg.classes.mono fun _ ha o ho => hPQ o (ha o ho)
  instances := hg.instances.mono fun _ ha o ho => hPQ o (ha o ho)
  builtins := hg.builtins
  hosts := hg.hosts.mono fun _ ha o ho => hPQ o (ha o ho)

theorem kept (hg : old.Grown h P) : old.KeptIn h :=
  ⟨hg.scopes.kept, hg.lists.kept, hg.dicts.kept, hg.functions.kept, hg.classes.kept,
    hg.instances.kept, hg.builtins.kept, hg.hosts.kept⟩

/-- What an object that is new refers to is in `P`. -/
theorem refs (hg : old.Grown h P) {o : Object} (ho : o.New old h) : ∀ o' ∈ h.refs o, P o' := by
  -- A reference out of a cell that is there comes from what the cell holds.
  have hcell : ∀ {kind : CellKind} {α : Type} {s₀ s : Store kind α} {refs : α → List Object}
      {r : Ref kind}, s₀.Grown s (fun a => ∀ o ∈ refs a, P o) → s₀.Fresh s r →
      ∀ o' ∈ (s.get? r).elim [] refs, P o' := by
    intro kind α s₀ s refs r hs hr
    cases hget : s.get? r with
    | none => exact nofun
    | some a => exact hs.cells r a hr.1 hget
  cases o with
  | scope s => exact hcell hg.scopes ho
  | value v =>
      cases v with
      | list r => exact hcell hg.lists ho
      | dict r => exact hcell hg.dicts ho
      | function r => exact hcell hg.functions ho
      | cls r => exact hcell hg.classes ho
      | inst r => exact hcell hg.instances ho
      | host r => exact hcell hg.hosts ho
      | _ => exact nofun

/-- If new cells only refer to new ones, then all that is reached from a new object is new. -/
theorem reaches (hg : old.Grown h (Object.New old h)) {o o' : Object} (ho : o.New old h)
    (hr : h.Reaches o o') : o'.New old h := by
  induction hr with
  | refl => exact ho
  | step _ hmem ih => exact hg.refs ih _ hmem

end Heap.Grown

end Script
