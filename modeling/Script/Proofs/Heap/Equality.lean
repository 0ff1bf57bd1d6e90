import Script.Proofs.Heap.Operations

/-!
# `Proofs.Heap.Equality` — comparing values, and results that are new

Which of `==` and `!=` is applied makes a difference at the very end only: whether two values are
the same, or why they cannot be compared, is one question (`Value.equals`). It is answered without
the heap, since lists and dictionaries are compared by identity.

What the operators of plain values, lists and dictionaries come to is *detached* from the operands:
it is plain data, or a list or dictionary still to be made. So the operands stay as they are, and a
result that is a list or dictionary is none of those that were there, whatever is in it.

The main statement is `neq_negates_eq_results_new`.
-/

namespace Script

/-- Whether a value defines its operators itself. -/
def Value.isObject : Value → Bool
  | .inst _ => true
  | .host _ => true
  | _ => false

/-- Whether two values are the same, or why they cannot be compared. -/
def Value.equals : Value → Value → Except Fault Bool
  | .nil, .nil => .ok true
  | .nil, _ => .ok false
  | _, .nil => .ok false
  | .number a, .number b => .ok (a == b)
  | .number _, _ => .error .expectedNumber
  | .string a, .string b => .ok (a == b)
  | .string _, _ => .error .expectedString
  | .list a, .list b => .ok (a == b)
  | .list _, _ => .error .expectedList
  | .dict a, .dict b => .ok (a == b)
  | .dict _, _ => .error .expectedDict
  | _, _ => .error .undefinedOperation

namespace Heap

variable {h : Heap} {l r : Value}

/-! ## Comparing -/

theorem binary_eq (h : Heap) (hl : l.isObject = false) (r : Value) :
    h.binary .eq l r = (l.equals r).map fun b => .value (.bool b) := by
  cases l with
  | inst _ => cases hl
  | host _ => cases hl
  | _ => cases r <;> rfl

theorem binary_neq (h : Heap) (hl : l.isObject = false) (r : Value) :
    h.binary .neq l r = (l.equals r).map fun b => .value (.bool !b) := by
  cases l with
  | inst _ => cases hl
  | host _ => cases hl
  | _ => cases r <;> rfl

theorem operate_eq (h : Heap) (hl : l.isObject = false) (r : Value) :
    h.operate .eq l r = (l.equals r).map fun b => (.resolved (.bool b), h) := by
  rw [operate, binary_eq h hl]
  cases l.equals r <;> rfl

theorem operate_neq (h : Heap) (hl : l.isObject = false) (r : Value) :
    h.operate .neq l r = (l.equals r).map fun b => (.resolved (.bool !b), h) := by
  rw [operate, binary_neq h hl]
  cases l.equals r <;> rfl

end Heap

/-- Whether both are lists, or both are dictionaries. -/
def Value.sameContainer : Value → Value → Bool
  | .list _, .list _ => true
  | .dict _, .dict _ => true
  | _, _ => false

/-- The two are not found to be equal. Two lists can be compared, and so can two dictionaries, and
    then they are found to be different. -/
def Heap.FindsDifferent (h : Heap) (v w : Value) : Prop :=
  if v.sameContainer w then h.operate .eq v w = .ok (.resolved (.bool false), h)
  else ∃ fault, h.operate .eq v w = .error fault

theorem Heap.findsDifferent_of_ne (h : Heap) {v w : Value} (hv : v.isContainer = true)
    (hw : w.isContainer = true) (hne : v ≠ w) : h.FindsDifferent v w := by
  cases v with
  | list x =>
      cases w with
      | list y =>
          have hxy : (x == y) = false := by
            rw [beq_eq_false_iff_ne]
            rintro rfl
            exact hne rfl
          show h.operate .eq (.list x) (.list y) = _
          rw [h.operate_eq rfl, Value.equals, hxy]
          rfl
      | dict y => exact ⟨.expectedList, rfl⟩
      | _ => cases hw
  | dict x =>
      cases w with
      | list y => exact ⟨.expectedDict, rfl⟩
      | dict y =>
          have hxy : (x == y) = false := by
            rw [beq_eq_false_iff_ne]
            rintro rfl
            exact hne rfl
          show h.operate .eq (.dict x) (.dict y) = _
          rw [h.operate_eq rfl, Value.equals, hxy]
          rfl
      | _ => cases hw
  | _ => cases hv

/-! ## What operators come to -/

/-- Plain data, or a list or a dictionary still to be made. -/
def Applied.Detached : Applied → Prop
  | .value v => v.isPlain = true
  | .newList _ => True
  | .newDict _ => True
  | _ => False

namespace Heap

variable {h h' : Heap} {op : Operator} {l r v : Value} {a : Applied} {d : Dispatch}

theorem ComesTo.detached {rs : List Value} (hl : l.isObject = false) (ha : h.ComesTo op l rs a) :
    a.Detached := by
  cases ha with
  | plain hv => exact hv
  | method hf => cases hl
  | hosted hf => cases hl
  | _ => trivial

/-- The value is plain data or new, and every object that was there is as it was. -/
def Makes (h : Heap) (d : Dispatch) (h' : Heap) (v : Value) : Prop :=
  d = .resolved v ∧ h.KeptIn h' ∧ (Object.value v).New h h'

theorem makes_carryOut (ha : a.Detached) :
    ∃ v, h.Makes (h.carryOut a).1 (h.carryOut a).2 v := by
  cases a with
  | value v =>
      refine ⟨v, rfl, .refl h, ?_⟩
      cases v <;> first | exact trivial | cases ha
  | newList vs =>
      have hfresh := (Store.Grown.refl h.lists (P := fun _ => True)).fresh_next vs
      exact ⟨.list h.lists.next, rfl, keptIn_carryOut h (.newList vs), hfresh⟩
  | newDict d =>
      have hfresh := (Store.Grown.refl h.dicts (P := fun _ => True)).fresh_next d
      exact ⟨.dict h.dicts.next, rfl, keptIn_carryOut h (.newDict d), hfresh⟩
  | method f receiver arguments => cases ha
  | hosted f arguments => cases ha

/-- An operator of a value that does not define it itself makes its result out of nothing that was
    there. -/
theorem makes_of_operate (hl : l.isObject = false)
    (ho : h.operate op l r = .ok (d, h') ∨ h.operateOn op l = .ok (d, h')) :
    ∃ v, h.Makes d h' v := by
  -- Either way, something detached was carried out.
  have hcarried : ∀ {applied : Except Fault Applied}, (∀ a, applied = .ok a → a.Detached) →
      applied.map h.carryOut = .ok (d, h') → ∃ v, h.Makes d h' v := by
    intro applied hdetached hmap
    cases applied with
    | error fault => cases hmap
    | ok a =>
        have hmakes := makes_carryOut (h := h) (hdetached a rfl)
        rw [Except.ok.inj hmap] at hmakes
        exact hmakes
  rcases ho with ho | ho
  · exact hcarried (fun _ ha => (ComesTo.of_binary ha).detached hl) ho
  · exact hcarried (fun _ ha => (ComesTo.of_unary ha).detached hl) ho

/-- A container that is new is not found to be equal to one that was there. -/
theorem findsDifferent_of_new {w : Value} (hv : v.isContainer = true) (hw : w.isContainer = true)
    (hnew : (Object.value v).New h h') (hin : (Object.value w).In h) :
    h'.FindsDifferent v w ∧ h'.FindsDifferent w v := by
  have hne : v ≠ w := by
    rintro rfl
    have hplain : v.isPlain = true := hin.isPlain hnew
    cases v <;> first | cases hplain; done | cases hv
  exact ⟨h'.findsDifferent_of_ne hv hw hne, h'.findsDifferent_of_ne hw hv hne.symm⟩

end Heap

/-- **`!=` is the negation of `==`, and results are new.** Let the left operand be neither an
    instance nor a host object. Then `!=` finds a truth value just where `==` finds the opposite
    one, and if one of them fails, so does the other, with the same fault.

    Every object is, after an operator on one or two values, as it was. What the operator gives is
    plain data, or it is a list or dictionary that was not there before. So no list or dictionary
    that was there is found to be equal to it, on whichever side it stands. -/
theorem neq_negates_eq_results_new (h : Heap) (l r : Value) (hl : l.isObject = false) :
    (∀ b h', h.operate .neq l r = .ok (.resolved (.bool b), h')
        ↔ h.operate .eq l r = .ok (.resolved (.bool !b), h'))
      ∧ ((∃ b, h.operate .eq l r = .ok (.resolved (.bool b), h))
        ∨ ∃ fault, h.operate .eq l r = .error fault ∧ h.operate .neq l r = .error fault)
      ∧ ∀ op d h', h.operate op l r = .ok (d, h') ∨ h.operateOn op l = .ok (d, h') →
          h.KeptIn h' ∧ ∃ v, d = .resolved v ∧ (Object.value v).New h h'
            ∧ (v.isContainer = true → ∀ w, w.isContainer = true → (Object.value w).In h →
                h'.FindsDifferent v w ∧ h'.FindsDifferent w v) := by
  refine ⟨fun b h' => ?_, ?_, fun op d h' ho => ?_⟩
  · rw [h.operate_neq hl, h.operate_eq hl]
    cases l.equals r with
    | error fault => simp [Except.map]
    | ok same => cases b <;> cases same <;> simp [Except.map]
  · rw [h.operate_neq hl, h.operate_eq hl]
    cases l.equals r with
    | error fault => exact .inr ⟨fault, rfl, rfl⟩
    | ok same => exact .inl ⟨same, rfl⟩
  · obtain ⟨v, hd, hkept, hnew⟩ := Heap.makes_of_operate hl ho
    exact ⟨hkept, v, hd, hnew, fun hv w hw hin => Heap.findsDifferent_of_new hv hw hnew hin⟩

/-- A list and the sum of it and an empty one, which has the same elements. -/
theorem neq_negates_eq_results_new_sum :
    let h := ((Heap.empty.newList #[.nil]).2.newList #[]).2
    ∃ h', h.operate .add (.list ⟨0⟩) (.list ⟨1⟩) = .ok (.resolved (.list ⟨2⟩), h')
      ∧ h.KeptIn h'
      ∧ h'.operate .eq (.list ⟨2⟩) (.list ⟨0⟩) = .ok (.resolved (.bool false), h')
      ∧ h.operate .neq (.list ⟨0⟩) (.list ⟨1⟩) = .ok (.resolved (.bool true), h) := by
  intro h
  obtain ⟨hneq, -, hresult⟩ := neq_negates_eq_results_new h (.list ⟨0⟩) (.list ⟨1⟩) rfl
  refine ⟨_, rfl, ?_⟩
  obtain ⟨hkept, v, hd, -, hdifferent⟩ := hresult .add (.resolved (.list ⟨2⟩)) _ (.inl rfl)
  cases hd
  have hin : (Object.value (.list ⟨0⟩)).In h := Nat.zero_lt_succ 1
  exact ⟨hkept, (hdifferent rfl (.list ⟨0⟩) rfl hin).1, (hneq true h).mpr rfl⟩

end Script
