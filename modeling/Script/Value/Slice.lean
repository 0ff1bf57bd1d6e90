import Script.Fault

/-!
# `Value.Slice` — selecting from a sequence

An index selects one item and has to be in bounds. A range selects the items between two bounds,
which are moved into the sequence when they lie outside; a step keeps the first of every `step` of
them, and a step longer than what lies between the bounds keeps nothing.

Reading is checked: `select?` gives nothing if it reads at a position that is not there. It looks at
its bounds before, so this does not happen (`select?_isSome`), and `select` is what it gives.
-/

namespace Script

/-- What is selected. -/
inductive Slice where
  | index (position : Int)
  | range (start stop step : Option Int)
  deriving Repr, DecidableEq

/-- What a selection gives. -/
inductive Selection (α : Type) where
  | element (item : α)
  | items (items : List α)
  deriving Repr, DecidableEq

/-- Keeps an item, drops the `step - 1` items after it, and so on; the first `skip` items are
    dropped beforehand. -/
def everyNth {α : Type} (step : Nat) : Nat → List α → List α
  | _, [] => []
  | 0, a :: rest => a :: everyNth step (step - 1) rest
  | skip + 1, _ :: rest => everyNth step skip rest

namespace Slice

variable {α : Type}

/-- A bound moved into `0..length`. -/
def clamp (bound : Int) (length : Nat) : Nat := min bound.toNat length

/-- The items from position `s` up to position `e`, which have to be positions of the list in this
    order. -/
def stretch? (s e : Nat) (items : List α) : Option (List α) :=
  if s ≤ e ∧ e ≤ items.length then some ((items.drop s).take (e - s)) else none

/-- The first of every `step` items; there is no step of 0. -/
def stepBy? (step : Nat) (items : List α) : Option (List α) :=
  if step = 0 then none else some (everyNth step 0 items)

/-- The items selected by a range. -/
def between? (start stop step : Option Int) (items : List α) : Option (List α) :=
  let first := clamp (start.getD 0) items.length
  let last := clamp (stop.getD items.length) items.length
  if last ≤ first then some []
  else do
    let middle ← stretch? first last items
    let step := step.getD 1
    if step ≤ 1 then some middle
    else if middle.length < step then some []
    else stepBy? step.toNat middle

/-- Selects from a sequence, and gives nothing if a position is read that is not there. -/
def select? (slice : Slice) (items : Array α) : Option (Except Fault (Selection α)) :=
  match slice with
  | index position =>
    if position < 0 ∨ items.size ≤ position then some (.error .indexOutOfRange)
    else items[position.toNat]?.map fun item => .ok (.element item)
  | range start stop step =>
    (between? start stop step items.toList).map fun picked => .ok (.items picked)

theorem clamp_le (bound : Int) (length : Nat) : clamp bound length ≤ length :=
  Nat.min_le_right _ _

/-- Between bounds in this order there is a stretch. -/
theorem stretch?_of_le {s e : Nat} {items : List α} (hse : s ≤ e) (he : e ≤ items.length) :
    stretch? s e items = some ((items.drop s).take (e - s)) := if_pos ⟨hse, he⟩

/-- The bounds of a range are positions of the list, and they are only used if they are in order. -/
theorem between?_isSome (start stop step : Option Int) (items : List α) :
    (between? start stop step items).isSome := by
  unfold between?
  by_cases hempty : clamp (stop.getD items.length) items.length
      ≤ clamp (start.getD 0) items.length
  · rw [if_pos hempty]
    rfl
  · rw [if_neg hempty, stretch?_of_le (Nat.le_of_not_le hempty) (clamp_le _ _), Option.bind_eq_bind,
      Option.bind_some]
    by_cases hone : step.getD 1 ≤ 1
    · rw [if_pos hone]
      rfl
    · have hstep : (step.getD 1).toNat ≠ 0 := by omega
      rw [if_neg hone, stepBy?, if_neg hstep]
      split <;> rfl

/-- No selection reads at a position that is not there. -/
theorem select?_isSome (slice : Slice) (items : Array α) : (slice.select? items).isSome := by
  cases slice with
  | index position =>
      simp only [select?]
      by_cases hout : position < 0 ∨ (items.size : Int) ≤ position
      · rw [if_pos hout]
        rfl
      · have hlt : position.toNat < items.size := by omega
        rw [if_neg hout, Option.isSome_map, Array.getElem?_eq_getElem hlt]
        rfl
  | range start stop step =>
      rw [select?, Option.isSome_map]
      exact between?_isSome start stop step items.toList

/-- Selects from a sequence. -/
def select (slice : Slice) (items : Array α) : Except Fault (Selection α) :=
  (slice.select? items).get (slice.select?_isSome items)

theorem select?_eq (slice : Slice) (items : Array α) :
    slice.select? items = some (slice.select items) := (Option.some_get _).symm

/-- What a selection gives is what the checked one gives. -/
theorem select_of_select? {slice : Slice} {items : Array α} {result : Except Fault (Selection α)}
    (h : slice.select? items = some result) : slice.select items = result :=
  Option.some.inj ((select?_eq slice items).symm.trans h)

/-- An index fails before the first position and behind the last one. -/
theorem select_index_of_not {position : Int} {items : Array α}
    (h : position < 0 ∨ items.size ≤ position) :
    (index position).select items = .error .indexOutOfRange :=
  select_of_select? (if_pos h)

/-- An index gives the item at its position. -/
theorem select_index_of_getElem? {position : Int} {items : Array α} {item : α}
    (hpos : 0 ≤ position) (h : items[position.toNat]? = some item) :
    (index position).select items = .ok (.element item) := by
  have hlt : position.toNat < items.size := (Array.getElem?_eq_some_iff.mp h).1
  have hin : ¬(position < 0 ∨ (items.size : Int) ≤ position) := by omega
  refine select_of_select? ?_
  simp only [select?]
  rw [if_neg hin, h]
  rfl

end Slice

end Script
