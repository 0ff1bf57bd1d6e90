import Script.Eval.Builtins
import Script.Eval.Statement

/-!
# `Proofs.Faults` — the faults of operations

Two faults are about the call stack: that it was lost track of, and that an exit stands outside of
every loop. All others are *ordinary*. The operations on values and on the heap, which know nothing
of the call stack, fail in ordinary ways only.
-/

namespace Script

/-- A fault that is not about the call stack. -/
def Fault.ordinary : Fault → Bool
  | .internal _ => false
  | .onlyAllowedInsideLoop => false
  | _ => true

/-- A computation that fails in ordinary ways only. -/
def FailsOrdinarily {α : Type} (r : Except Fault α) : Prop :=
  ∀ f, r = .error f → f.ordinary = true

namespace FailsOrdinarily

variable {α β : Type}

theorem ok (a : α) : FailsOrdinarily (.ok a) := by
  intro f hf
  cases hf

theorem error {f : Fault} (hf : f.ordinary = true) :
    FailsOrdinarily (.error f : Except Fault α) := by
  intro g hg
  cases hg
  exact hf

theorem map {r : Except Fault α} (hr : FailsOrdinarily r) (g : α → β) :
    FailsOrdinarily (r.map g) := by
  cases r with
  | ok a => exact ok (g a)
  | error f => exact error (hr f rfl)

/-- Computations that fail in ordinary ways can be put one after the other: the failure is that of
    the first or that of the second. -/
theorem bind {r : Except Fault α} {g : α → Except Fault β} (hr : FailsOrdinarily r)
    (hg : ∀ a, FailsOrdinarily (g a)) : FailsOrdinarily (r >>= g) := by
  cases r with
  | ok a => exact hg a
  | error f => exact error (hr f rfl)

/-- A list of computations stops at the first failure, which is the failure of one of them. -/
theorem mapM {g : α → Except Fault β} (hg : ∀ a, FailsOrdinarily (g a)) (l : List α) :
    FailsOrdinarily (l.mapM g) := by
  induction l with
  | nil => exact ok []
  | cons a rest ih =>
      rw [List.mapM_cons]
      exact bind (hg a) fun b => bind ih fun bs => ok (b :: bs)

/-! ## Values -/

theorem asString (v : Value) : FailsOrdinarily v.asString := by
  cases v with
  | string s => exact ok s
  | _ => exact error rfl

theorem asNumber (v : Value) : FailsOrdinarily v.asNumber := by
  cases v with
  | number x => exact ok x
  | _ => exact error rfl

/-- The only complaint about a key is that the value is not hashable. -/
theorem dictKey (v : Value) : FailsOrdinarily v.dictKey := by
  unfold Value.dictKey
  split
  · exact ok _
  · exact error rfl

/-- Only an index can be refused, for lying outside; that the checks of the slice itself never fail
    is `Slice.select?_eq`. -/
theorem select (s : Slice) (items : Array α) : FailsOrdinarily (s.select items) := by
  have hread := Slice.select?_eq s items
  generalize s.select items = result at hread ⊢
  cases s with
  | index position =>
      simp only [Slice.select?] at hread
      split at hread
      · cases hread
        exact error rfl
      · obtain ⟨item, -, rfl⟩ := Option.map_eq_some_iff.mp hread
        exact ok _
  | range start stop step =>
      obtain ⟨picked, -, rfl⟩ := Option.map_eq_some_iff.mp hread
      exact ok _

theorem dictGet? (d : Dict) (k : Value) : FailsOrdinarily (d.get? k) :=
  bind (dictKey k) fun _ => ok _

/-- Entries are inserted one after the other, and each insertion fails like the lookup of its
    key. -/
theorem insertAll (entries : List (Value × Value)) (d : Dict) :
    FailsOrdinarily (d.insertAll entries) := by
  induction entries generalizing d with
  | nil => exact ok d
  | cons e rest ih =>
      refine bind ?_ ih
      exact bind (dictKey e.1) fun _ => ok _

theorem ofEntries (entries : List (Value × Value)) : FailsOrdinarily (Dict.ofEntries entries) :=
  insertAll entries .empty

/-! ## Operators -/

/-- The operators on values of one kind are tables. An operator that is not in the table is
    undefined, which is ordinary. -/
theorem onNil (both : Bool) (op : Operator) : FailsOrdinarily (op.onNil both) := by
  cases op <;> first | exact ok _ | exact error rfl

theorem onNumbers (a b : Float) (op : Operator) : FailsOrdinarily (op.onNumbers a b) := by
  cases op <;> first | exact ok _ | exact error rfl

theorem onStrings (a b : String) (op : Operator) : FailsOrdinarily (op.onStrings a b) := by
  cases op <;> first | exact ok _ | exact error rfl

variable (h : Heap)

theorem onLists (a b : Ref .list) (op : Operator) : FailsOrdinarily (h.onLists a b op) := by
  cases op <;> first | exact ok _ | exact error rfl

theorem onDicts (a b : Ref .dict) (op : Operator) : FailsOrdinarily (h.onDicts a b op) := by
  cases op <;> first | exact ok _ | exact error rfl

/-- What an instance does for an operator is looked up among its methods; that there is none is an
    ordinary fault. -/
theorem overloaded (op : Operator) (r : Ref .inst) (arguments : List Value) :
    FailsOrdinarily (h.overloaded op r arguments) := by
  unfold Heap.overloaded
  split
  · exact ok _
  · exact error rfl

theorem hostOverloaded (op : Operator) (r : Ref .host) (arguments : List Value) :
    FailsOrdinarily (h.hostOverloaded op r arguments) := by
  unfold Heap.hostOverloaded
  split
  · exact ok _
  · exact error rfl

/-- What a binary operator does is decided by its operands: by `nil` on either side, and otherwise
    by the kind of the left one. All the cases fail in ordinary ways only. -/
theorem binary (op : Operator) (l r : Value) : FailsOrdinarily (h.binary op l r) := by
  unfold Heap.binary
  split
  · exact map (onNil _ op) _
  · exact map (onNil _ op) _
  · exact map (onNil _ op) _
  · exact map (onNumbers _ _ op) _
  · exact error rfl
  · split
    · exact error rfl
    · split
      · exact map (onStrings _ _ op) _
      · exact error rfl
  · split
    · exact error rfl
    · split
      · exact onLists h _ _ op
      · exact error rfl
  · split
    · exact error rfl
    · split
      · exact onDicts h _ _ op
      · exact error rfl
  · exact overloaded h op _ _
  · exact hostOverloaded h op _ _
  · exact error rfl

/-- Numbers and lists have a unary operator of their own; otherwise the operand has to define it. -/
theorem unary (op : Operator) (v : Value) : FailsOrdinarily (h.unary op v) := by
  unfold Heap.unary
  split
  · exact ok _
  · exact ok _
  · exact overloaded h _ _ _
  · exact hostOverloaded h _ _ _
  · exact error rfl

/-! ## The heap -/

/-- An assignment fails if no scope around has the name, which says nothing about the call stack. -/
theorem assign (s : Ref .scope) (name : String) (v : Value) :
    FailsOrdinarily (h.assign s name v).1 := by
  unfold Heap.assign
  split
  · exact ok _
  · exact error rfl

/-- Of the elements of a list only the bounds are checked. -/
theorem setElement (r : Ref .list) (position : Nat) (v : Value) :
    FailsOrdinarily (h.setElement r position v).1 := by
  unfold Heap.setElement
  split
  · exact ok _
  · exact error rfl

theorem insertEntry (r : Ref .dict) (k v : Value) : FailsOrdinarily (h.insertEntry r k v).1 := by
  have hk := dictKey k
  unfold Heap.insertEntry
  cases hr : k.dictKey with
  | ok key => exact ok _
  | error f => exact error (hk f hr)

theorem setMember (r : Ref .host) (name : String) (v : Value) :
    FailsOrdinarily (h.setMember r name v).1 := by
  unfold Heap.setMember
  split
  · exact ok _
  · exact error rfl

/-- That a value has no rows is an ordinary fault, and so is a row of the wrong length. -/
theorem rows (n : Nat) (v : Value) : FailsOrdinarily (h.rows n v) := by
  have hunpack : ∀ v, FailsOrdinarily (Heap.rows.unpack h n v) := by
    intro v
    unfold Heap.rows.unpack
    split
    · split
      · exact ok _
      · exact error rfl
    · exact error rfl
  unfold Heap.rows
  split
  · split
    · exact ok _
    · exact mapM hunpack _
  · split
    · exact error rfl
    · exact ok _
  · exact error rfl

end FailsOrdinarily

end Script
