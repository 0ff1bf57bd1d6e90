/-!
# `Bindings` — names with what they stand for

Scopes, the fields of an instance, the methods of a class and the members of a host object are all
tables from names to something. A table is a list of pairs in the order in which the names were
first set; setting a name again changes what it stands for and keeps its place.
-/

namespace Script

/-- A table from names to `α`. -/
structure Bindings (α : Type) where
  entries : List (String × α)
  deriving Inhabited

namespace Bindings

variable {α : Type}

/-- No name is set. -/
def empty : Bindings α := ⟨[]⟩

/-- What a name stands for in a list of pairs. -/
def find? (name : String) : List (String × α) → Option α
  | [] => none
  | (n, a) :: rest => if n = name then some a else find? name rest

/-- A list of pairs after setting a name. -/
def place (name : String) (a : α) : List (String × α) → List (String × α)
  | [] => [(name, a)]
  | (n, b) :: rest => if n = name then (n, a) :: rest else (n, b) :: place name a rest

/-- What a name stands for. -/
def get? (b : Bindings α) (name : String) : Option α := find? name b.entries

/-- Sets a name. -/
def set (b : Bindings α) (name : String) (a : α) : Bindings α := ⟨place name a b.entries⟩

/-- Whether a name is set. -/
def contains (b : Bindings α) (name : String) : Bool := (b.get? name).isSome

/-- Sets names one after the other. -/
def setAll (b : Bindings α) (pairs : List (String × α)) : Bindings α :=
  pairs.foldl (fun b p => b.set p.1 p.2) b

/-- The names that are set. -/
def names (b : Bindings α) : List String := b.entries.map (·.1)

/-- The pairs in the order of their names. -/
def sorted (b : Bindings α) : List (String × α) :=
  b.entries.mergeSort fun p q => decide (p.1 ≤ q.1)

/-! ## Reading after writing -/

theorem find?_place_self (name : String) (a : α) (l : List (String × α)) :
    find? name (place name a l) = some a := by
  induction l with
  | nil => simp [place, find?]
  | cons p rest ih =>
      obtain ⟨n, b⟩ := p
      by_cases h : n = name <;> simp [place, find?, h, ih]

theorem find?_place_ne {name other : String} (h : other ≠ name) (a : α) (l : List (String × α)) :
    find? other (place name a l) = find? other l := by
  induction l with
  | nil => simp [place, find?, Ne.symm h]
  | cons p rest ih =>
      obtain ⟨n, b⟩ := p
      by_cases hn : n = name
      · subst hn
        simp [place, find?, Ne.symm h]
      · simp [place, find?, hn, ih]

@[simp] theorem get?_empty (name : String) : (empty : Bindings α).get? name = none := rfl

@[simp] theorem get?_set_self (b : Bindings α) (name : String) (a : α) :
    (b.set name a).get? name = some a := find?_place_self name a b.entries

theorem get?_set_ne {name other : String} (h : other ≠ name) (b : Bindings α) (a : α) :
    (b.set name a).get? other = b.get? other := find?_place_ne h a b.entries

/-! ## The names that are set -/

theorem mem_names_iff {b : Bindings α} {name : String} :
    name ∈ b.names ↔ b.contains name = true := by
  obtain ⟨l⟩ := b
  unfold names contains get?
  induction l with
  | nil => simp [find?]
  | cons p rest ih =>
      obtain ⟨n, a⟩ := p
      by_cases h : n = name
      · simp [find?, h]
      · simp only [find?, h, if_false, List.map_cons, List.mem_cons]
        rw [← ih]
        simp [Ne.symm h]

theorem mem_names_set {b : Bindings α} {name other : String} {a : α} :
    other ∈ (b.set name a).names ↔ other = name ∨ other ∈ b.names := by
  rw [mem_names_iff, mem_names_iff]
  by_cases h : other = name
  · simp [contains, h]
  · simp [contains, h, get?_set_ne h]

end Bindings

end Script
