/-!
# `Heap.Store` — numbered cells

A store hands out references by allocating cells one after the other and never takes one back, so a
reference handed out later is larger. A reference says in its type which kind of cell it points to.
-/

namespace Script

/-- The kinds of cells. -/
inductive CellKind where
  | scope
  | list
  | dict
  | function
  | cls
  | inst
  | builtin
  | host
  deriving Repr, DecidableEq

/-- A reference to a cell of a kind. -/
structure Ref (kind : CellKind) where
  index : Nat
  deriving Repr, DecidableEq, Hashable, Inhabited

/-- Cells of one kind, in the order of their allocation. -/
structure Store (kind : CellKind) (α : Type) where
  cells : Array α
  deriving Inhabited

namespace Store

variable {kind : CellKind} {α : Type}

/-- No cells. -/
def empty : Store kind α := ⟨#[]⟩

/-- The number of cells. -/
def size (s : Store kind α) : Nat := s.cells.size

/-- What a cell holds. -/
def get? (s : Store kind α) (r : Ref kind) : Option α := s.cells[r.index]?

/-- The reference that the next allocation hands out. -/
def next (s : Store kind α) : Ref kind := ⟨s.cells.size⟩

/-- The store with one more cell. -/
def push (s : Store kind α) (a : α) : Store kind α := ⟨s.cells.push a⟩

/-- Changes what a cell holds. -/
def modify (s : Store kind α) (r : Ref kind) (f : α → α) : Store kind α :=
  ⟨s.cells.modify r.index f⟩

/-! ## Reading after writing -/

@[simp] theorem size_push (s : Store kind α) (a : α) : (s.push a).size = s.size + 1 := by
  simp [push, size]

@[simp] theorem size_modify (s : Store kind α) (r : Ref kind) (f : α → α) :
    (s.modify r f).size = s.size := by
  simp [modify, size]

@[simp] theorem get?_push_next (s : Store kind α) (a : α) : (s.push a).get? s.next = some a := by
  simp [push, get?, next]

theorem get?_push_of_lt {s : Store kind α} {r : Ref kind} (h : r.index < s.size) (a : α) :
    (s.push a).get? r = s.get? r := by
  simp only [size] at h
  simp [push, get?, Array.getElem?_push, Nat.ne_of_lt h]

theorem get?_eq_none_iff {s : Store kind α} {r : Ref kind} :
    s.get? r = none ↔ s.size ≤ r.index := by
  simp [get?, size]

theorem lt_size_of_get? {s : Store kind α} {r : Ref kind} {a : α} (h : s.get? r = some a) :
    r.index < s.size := by
  rcases Nat.lt_or_ge r.index s.size with hlt | hge
  · exact hlt
  · rw [get?_eq_none_iff.mpr hge] at h
    cases h

/-- A reference that is not in the store, and is in it after one allocation. -/
theorem eq_next {s : Store kind α} {r : Ref kind} (hge : s.size ≤ r.index)
    (hlt : r.index < s.size + 1) : r = s.next := by
  cases r
  simp only [next, size] at *
  congr 1
  omega

/-- What is found after an allocation was there before, or is what was allocated. -/
theorem get?_push_cases {s : Store kind α} {r : Ref kind} {a b : α}
    (h : (s.push a).get? r = some b) : s.get? r = some b ∨ (r = s.next ∧ b = a) := by
  rcases Nat.lt_or_ge r.index s.size with hlt | hge
  · rw [get?_push_of_lt hlt] at h
    exact .inl h
  · have hbound := lt_size_of_get? h
    rw [size_push] at hbound
    obtain rfl := eq_next hge hbound
    rw [get?_push_next] at h
    exact .inr ⟨rfl, (Option.some.inj h).symm⟩

@[simp] theorem get?_modify_self (s : Store kind α) (r : Ref kind) (f : α → α) :
    (s.modify r f).get? r = (s.get? r).map f := by
  simp [modify, get?, Array.getElem?_modify]

theorem get?_modify_ne {r r' : Ref kind} (h : r' ≠ r) (s : Store kind α) (f : α → α) :
    (s.modify r f).get? r' = s.get? r' := by
  have hne : r.index ≠ r'.index := by
    intro he
    apply h
    cases r
    cases r'
    simp_all
  simp [modify, get?, Array.getElem?_modify, hne]

end Store

end Script
