import Script.Proofs.Evaluation.FreshVariables
import Script.Proofs.Evaluation.Upkeep

/-!
# `Proofs.Evaluation.Indexing` — reading and storing at an index

To read `c[k]` and to store into it are different pieces of the evaluator: one selects from the
elements or looks a key up, the other checks the bounds itself and changes the heap. Here both are
said in terms of the heap: `Heap.item` is what a list or a dictionary has at an index, and
`Heap.setItem` stores there. Whatever expressions `c` and `k` come from, reading and storing through
them is `item` and `setItem` on the heap that they leave (`Evaluator.Indexes.read`,
`Evaluator.Indexes.store`).

The main statement is `indexed_store_agrees`.
-/

namespace Script

namespace Heap

variable {h : Heap} {c k k' v : Value}

/-! ## Items -/

/-- What a list has at a position. -/
def listItem (h : Heap) (r : Ref .list) (position : Int) : Except Fault Value :=
  if position < 0 then .error .indexOutOfRange
  else match (h.elements r)[position.toNat]? with
    | some v => .ok v
    | none => .error .indexOutOfRange

/-- What a list or a dictionary has at an index. -/
def item (h : Heap) : Value → Value → Except Fault Value
  | .list r, .number x => h.listItem r (indexOfNumber x)
  | .list _, _ => .error .onlyNumbers
  | .dict r, k => ((h.dictionary r).get? k).map (·.getD .nil)
  | _, _ => .error .invalidAccess

/-- Stores at a position of a list. -/
def setListItem (h : Heap) (r : Ref .list) (position : Int) (v : Value) :
    Except Fault Unit × Heap :=
  if position < 0 then (.error .indexOutOfRange, h) else h.setElement r position.toNat v

/-- Stores at an index of a list or a dictionary. -/
def setItem (h : Heap) (c k v : Value) : Except Fault Unit × Heap :=
  match c, k with
  | .list r, .number x => h.setListItem r (indexOfNumber x) v
  | .list _, _ => (.error .onlyNumbers, h)
  | .dict r, k => h.insertEntry r k v
  | _, _ => (.error .invalidAccess, h)

/-- The value is a list, or a dictionary that is there and was made by operations. -/
inductive Holds (h : Heap) : Value → Prop
  | list (r : Ref .list) : h.Holds (.list r)
  | dict {r : Ref .dict} {d : Dict} : h.dicts.get? r = some d → d.Made → h.Holds (.dict r)

end Heap

/-- Two indices lead to the same slot of a list or a dictionary: to the same position, or to the
    entry under the same key. -/
def Value.SameSlot : Value → Value → Value → Prop
  | .list _, .number x, .number y => indexOfNumber x = indexOfNumber y
  | .dict _, k, k' => k.key = k'.key
  | _, _, _ => False

namespace Heap

variable {h : Heap} {c k v : Value}

/-! ## One store -/

/-- A store at an index that is refused like a read, and then changes nothing. -/
structure Refuses (h : Heap) (c k v : Value) (fault : Fault) : Prop where
  refused : h.setItem c k v = (.error fault, h)
  unreadable : h.item c k = .error fault

/-- A store at an index that can be read. What is read afterwards is the same as before, but for
    this slot. -/
structure Stores (h : Heap) (c k v : Value) (h' : Heap) : Prop where
  done : h.setItem c k v = (.ok (), h')
  readable : ∃ u, h.item c k = .ok u
  here : ∀ k', c.SameSlot k k' → h'.item c k' = .ok v
  elsewhere : ∀ c' k', ¬(c' = c ∧ c.SameSlot k k') → h'.item c' k' = h.item c' k'

/-- What is read from a list depends on its elements only. -/
theorem item_list_congr {h h' : Heap} {r : Ref .list} (hr : h.lists.get? r = h'.lists.get? r)
    (k : Value) : h.item (.list r) k = h'.item (.list r) k := by
  cases k with
  | number x =>
      show h.listItem r _ = h'.listItem r _
      unfold listItem elements
      rw [hr]
  | _ => rfl

/-- What is read from a dictionary depends on its entries only. -/
theorem item_dict_congr {h h' : Heap} {r : Ref .dict} (hr : h.dicts.get? r = h'.dicts.get? r)
    (k : Value) : h.item (.dict r) k = h'.item (.dict r) k := by
  show ((h.dictionary r).get? k).map _ = ((h'.dictionary r).get? k).map _
  unfold dictionary
  rw [hr]

/-! ### Lists -/

section List

variable {r : Ref .list} {position : Int}

/-- Either the position is there, or it can be neither read nor stored to. -/
theorem listItem_cases (h : Heap) (r : Ref .list) (position : Int) :
    (0 ≤ position ∧ position.toNat < (h.elements r).size ∧ ∃ u, h.listItem r position = .ok u)
      ∨ h.listItem r position = .error .indexOutOfRange
        ∧ ∀ v, h.setListItem r position v = (.error .indexOutOfRange, h) := by
  unfold listItem setListItem setElement
  by_cases hneg : position < 0
  · rw [if_pos hneg]
    exact .inr ⟨rfl, fun v => if_pos hneg⟩
  · rw [if_neg hneg]
    by_cases hlt : position.toNat < (h.elements r).size
    · rw [Array.getElem?_eq_getElem hlt]
      exact .inl ⟨Int.not_lt.mp hneg, hlt, _, rfl⟩
    · rw [Array.getElem?_eq_none (Nat.not_lt.mp hlt)]
      exact .inr ⟨rfl, fun v => by rw [if_neg hneg, if_neg hlt]⟩

theorem elements_modify (h : Heap) (r : Ref .list) (i : Nat) (v : Value) :
    elements { h with lists := h.lists.modify r (·.setIfInBounds i v) } r
      = (h.elements r).setIfInBounds i v := by
  unfold elements
  rw [Store.get?_modify_self]
  cases h.lists.get? r <;> rfl

/-- What is read after a store to a position that is there. -/
theorem listItem_modify (hpos : 0 ≤ position) (hlt : position.toNat < (h.elements r).size)
    (v : Value) (position' : Int) :
    listItem { h with lists := h.lists.modify r (·.setIfInBounds position.toNat v) } r position'
      = if position = position' then .ok v else h.listItem r position' := by
  unfold listItem
  rw [elements_modify, Array.getElem?_setIfInBounds]
  by_cases heq : position = position'
  · subst heq
    rw [if_pos rfl, if_neg (Int.not_lt.mpr hpos), if_pos rfl, if_pos hlt]
  · rw [if_neg heq]
    by_cases hneg : position' < 0
    · rw [if_pos hneg, if_pos hneg]
    · rw [if_neg hneg, if_neg hneg, if_neg (by omega)]

/-- A store into a list is refused, or it changes the one position. -/
theorem setItem_list (h : Heap) (r : Ref .list) (k v : Value) :
    (∃ fault, h.Refuses (.list r) k v fault) ∨ ∃ h', h.Stores (.list r) k v h' := by
  cases k with
  | number x =>
      rcases listItem_cases h r (indexOfNumber x) with ⟨hpos, hlt, hread⟩ | ⟨hread, hstore⟩
      · have hdone : h.setItem (.list r) (.number x) v = (.ok (),
            { h with lists := h.lists.modify r (·.setIfInBounds (indexOfNumber x).toNat v) }) := by
          show h.setListItem r (indexOfNumber x) v = _
          rw [setListItem, if_neg (Int.not_lt.mpr hpos), setElement, if_pos hlt]
        refine .inr ⟨_, hdone, hread, fun k' hslot => ?_, fun c' k' hslot => ?_⟩
        · cases k' with
          | number y => exact (listItem_modify hpos hlt v _).trans (if_pos hslot)
          | _ => exact hslot.elim
        · cases c' with
          | list r' =>
              by_cases hr : r' = r
              · subst hr
                cases k' with
                | number y =>
                    have hne : indexOfNumber x ≠ indexOfNumber y := fun heq => hslot ⟨rfl, heq⟩
                    exact (listItem_modify hpos hlt v _).trans (if_neg hne)
                | _ => rfl
              · exact item_list_congr (Store.get?_modify_ne hr _ _) k'
          | _ => rfl
      · exact .inl ⟨_, hstore v, hread⟩
  | _ => exact .inl ⟨_, rfl, rfl⟩

end List

/-! ### Dictionaries -/

section Dict

variable {r : Ref .dict} {d : Dict}

/-- A dictionary has `nil` under a key that is not there. -/
theorem item_dict (hd : h.dicts.get? r = some d) (k : Value) :
    h.item (.dict r) k = (d.get? k).map (·.getD .nil) := by
  show ((h.dictionary r).get? k).map _ = _
  rw [dictionary, hd, Option.getD_some]

theorem setItem_of_hashable (hk : k.hashable = true) (h : Heap) (r : Ref .dict) (v : Value) :
    h.setItem (.dict r) k v = (.ok (), { h with dicts := h.dicts.modify r (·.put k.key k v) }) := by
  show h.insertEntry r k v = _
  rw [insertEntry, Value.dictKey_of_hashable hk]

/-- A store into a dictionary is refused if the key cannot be hashed. Otherwise it changes or adds
    the one entry. -/
theorem setItem_dict (hd : h.dicts.get? r = some d) (hmade : d.Made) (k v : Value) :
    (∃ fault, h.Refuses (.dict r) k v fault) ∨ ∃ h', h.Stores (.dict r) k v h' := by
  obtain ⟨es, hes⟩ := hmade
  cases hk : k.hashable with
  | false =>
      refine .inl ⟨.unhashableKey, insertEntry_of_unhashable hk h r v, ?_⟩
      rw [item_dict hd, Dict.get?_of_unhashable hk]
      rfl
  | true =>
      have hafter : (h.dicts.modify r (·.put k.key k v)).get? r = some (d.put k.key k v) := by
        rw [Store.get?_modify_self, hd, Option.map_some]
      refine .inr ⟨_, setItem_of_hashable hk h r v, ?_, fun k' hslot => ?_, fun c' k' hslot => ?_⟩
      · rw [item_dict hd, Dict.get?_of_hashable hk]
        exact ⟨_, rfl⟩
      · have hkey : k.key = k'.key := hslot
        rw [item_dict hafter, hes.spec.1.get?_put hk, if_pos hkey]
        rfl
      · cases c' with
        | dict r' =>
            by_cases hr : r' = r
            · subst hr
              have hne : k.key ≠ k'.key := fun heq => hslot ⟨rfl, heq⟩
              rw [item_dict hafter, hes.spec.1.get?_put hk, if_neg hne, item_dict hd]
            · exact item_dict_congr (Store.get?_modify_ne hr _ _) k'
        | list r' =>
            apply item_list_congr
            rfl
        | _ => rfl

/-- A dictionary refuses only keys that are not hashable. -/
theorem Refuses.unhashable {fault : Fault} (hr : h.Refuses (.dict r) k v fault) :
    k.hashable = false := by
  cases hk : k.hashable with
  | false => rfl
  | true =>
      have hrefused := hr.refused
      rw [setItem_of_hashable hk] at hrefused
      cases hrefused

/-- A store into a dictionary that is not refused has a key that can be hashed. -/
theorem Stores.hashable {h' : Heap} (hs : h.Stores (.dict r) k v h') : k.hashable = true := by
  cases hk : k.hashable with
  | true => rfl
  | false =>
      have hdone : h.insertEntry r k v = (.ok (), h') := hs.done
      rw [insertEntry_of_unhashable hk] at hdone
      cases hdone

end Dict

/-- A store is refused or not as a read is. -/
theorem Holds.setItem (hc : h.Holds c) (k v : Value) :
    (∃ fault, h.Refuses c k v fault) ∨ ∃ h', h.Stores c k v h' := by
  cases hc with
  | list r => exact setItem_list h r k v
  | dict hd hmade => exact setItem_dict hd hmade k v

end Heap

/-! ## Expressions for the container and the index -/

/-- The object of the access comes to `c` and the one index in its brackets to `k`, in this order,
    and they leave the machine `n`. -/
def Evaluator.Indexes (ev : Evaluator) (a : Access) (scope : Ref .scope) (m : Machine)
    (c k : Value) (n : Machine) : Prop :=
  a.isIndex = true ∧ ∃ e m₁, a.first = some e ∧ ev.expression a.object scope m = .ok c m₁
    ∧ ev.expression e scope m₁ = .ok k n

theorem Heap.Holds.isContainer {h : Heap} {c : Value} (hc : h.Holds c) : c.isContainer = true := by
  cases hc <;> rfl

namespace Step

variable {f : Heap → Except Fault Unit × Heap} {token : Token} {m : Machine} {h : Heap}

theorem blame_attempt_of_ok (hf : f m.heap = (.ok (), h)) :
    (attempt f).blame token m = .ok () { m with heap := h } := by
  obtain ⟨heap, stack, world⟩ := m
  simp only at hf
  simp only [blame, mapError, attempt, hf]

theorem blame_attempt_of_error {fault : Fault} (hf : f m.heap = (.error fault, m.heap)) :
    (attempt f).blame token m = .error (.atToken fault token) m := by
  obtain ⟨heap, stack, world⟩ := m
  simp only at hf
  simp only [blame, mapError, attempt, hf]

end Step

namespace Evaluator

variable {ev : Evaluator} {a : Access} {e : Expr} {scope : Ref .scope} {m m₁ n : Machine}
  {c k : Value}

/-- One index is the key of a dictionary. -/
theorem key_of_index (hindex : a.isIndex = true) (hfirst : a.first = some e)
    (hk : ev.expression e scope m₁ = .ok k n) : ev.key a scope m₁ = .ok k n := by
  unfold key
  rw [hfirst]
  simp only [hindex, if_true]
  exact hk

/-- A value as a position in a list. -/
def position : Value → Except Fault Int
  | .number x => .ok (indexOfNumber x)
  | _ => .error .onlyNumbers

/-- One index of a list is a position. -/
theorem slice_of_index (hindex : a.isIndex = true) (hfirst : a.first = some e)
    (hk : ev.expression e scope m₁ = .ok k n) :
    ev.slice a scope m₁ = (Step.ofExcept ((position k).map .index)).blame a.bracket n := by
  have hcolon : a.secondColon = none := by
    have hcolons := hindex
    unfold Access.isIndex at hcolons
    simpa using (Bool.and_eq_true_iff.mp hcolons).2
  have hcomponent : ev.component a.first a.bracket scope m₁
      = (Step.ofExcept ((position k).map some)).blame a.bracket n := by
    rw [hfirst]
    unfold component
    simp only [Step.bind_of_ok hk]
    cases k <;> rfl
  unfold slice
  rw [hcolon]
  simp only [Step.bind_apply, hcomponent, hindex, if_true]
  cases k <;> rfl

namespace Indexes

/-- Reading is reading from the heap that the object and the index leave. -/
theorem read (h : ev.Indexes a scope m c k n) (hc : c.isContainer = true) :
    ev.read a scope m = (Step.ofExcept (n.heap.item c k)).blame a.bracket n := by
  obtain ⟨hindex, e, m₁, hfirst, hobject, hk⟩ := h
  unfold Evaluator.read
  rw [Step.bind_of_ok hobject]
  cases c with
  | dict r =>
      simp only [Step.bind_of_ok (key_of_index hindex hfirst hk)]
      show _ = (Step.ofExcept (((n.heap.dictionary r).get? k).map _)).blame a.bracket n
      simp only [Step.bind_apply, Step.inspect]
      cases (n.heap.dictionary r).get? k <;> rfl
  | list r =>
      have hslice := slice_of_index hindex hfirst hk
      cases k with
      | number x =>
          change ev.slice a scope m₁ = .ok (.index (indexOfNumber x)) n at hslice
          simp only [Step.bind_of_ok hslice]
          show _ = (Step.ofExcept (n.heap.listItem r (indexOfNumber x))).blame a.bracket n
          simp only [Step.bind_apply, Step.inspect, Heap.listItem]
          by_cases hneg : indexOfNumber x < 0
          · rw [if_pos hneg, Slice.select_index_of_not (.inl hneg)]
            rfl
          · rw [if_neg hneg]
            cases hitem : (n.heap.elements r)[(indexOfNumber x).toNat]? with
            | none =>
                have hsize := Array.getElem?_eq_none_iff.mp hitem
                rw [Slice.select_index_of_not (.inr (by omega))]
                rfl
            | some v =>
                rw [Slice.select_index_of_getElem? (Int.not_lt.mp hneg) hitem]
                rfl
      | _ => exact Step.bind_of_error hslice
  | _ => cases hc

/-- Storing is storing into the heap that the object and the index leave. -/
theorem store (h : ev.Indexes a scope m c k n) (hc : c.isContainer = true) (v : Value) :
    ev.store a v scope m = (Step.attempt (·.setItem c k v)).blame a.bracket n := by
  obtain ⟨hindex, e, m₁, hfirst, hobject, hk⟩ := h
  unfold Evaluator.store
  rw [Step.bind_of_ok hobject]
  cases c with
  | dict r =>
      simp only [Step.bind_of_ok (key_of_index hindex hfirst hk)]
      rfl
  | list r =>
      have hslice := slice_of_index hindex hfirst hk
      cases k with
      | number x =>
          change ev.slice a scope m₁ = .ok (.index (indexOfNumber x)) n at hslice
          simp only [Step.bind_of_ok hslice]
          show _ = (Step.attempt (·.setListItem r (indexOfNumber x) v)).blame a.bracket n
          unfold Heap.setListItem
          -- A position below 0 is refused before the heap is asked.
          by_cases hneg : indexOfNumber x < 0
          · simp only [if_pos hneg]
            rfl
          · simp only [if_neg hneg]
      | _ => exact Step.bind_of_error hslice
  | _ => cases hc

/-- Either both the store and the read fail in the same way, or both succeed. -/
theorem store_cases (h : ev.Indexes a scope m c k n) (hc : n.heap.Holds c) (v : Value) :
    (∃ fault, n.heap.Refuses c k v fault
      ∧ ev.store a v scope m = .error (.atToken fault a.bracket) n
      ∧ ev.read a scope m = .error (.atToken fault a.bracket) n)
    ∨ ∃ u h', n.heap.Stores c k v h' ∧ ev.store a v scope m = .ok () { n with heap := h' }
      ∧ ev.read a scope m = .ok u n := by
  rw [h.store hc.isContainer, h.read hc.isContainer]
  rcases hc.setItem k v with ⟨fault, hrefuses⟩ | ⟨h', hstores⟩
  · refine .inl ⟨fault, hrefuses, Step.blame_attempt_of_error hrefuses.refused, ?_⟩
    rw [hrefuses.unreadable]
    rfl
  · obtain ⟨u, hu⟩ := hstores.readable
    refine .inr ⟨u, h', hstores, Step.blame_attempt_of_ok hstores.done, ?_⟩
    rw [hu]
    rfl

end Indexes

/-- A dictionary has no ranges. -/
theorem key_of_range (hrange : a.isIndex = false) (ev : Evaluator) (scope : Ref .scope)
    (m : Machine) : ev.key a scope m = .error (.atToken .expectedKey a.bracket) m := by
  unfold key
  rw [hrange]
  cases a.first <;> rfl

/-- Brackets that are no single index come to a range, if they come to anything. -/
theorem slice_of_range (hrange : a.isIndex = false) {s : Slice}
    (hs : ev.slice a scope m = .ok s n) : ∃ start stop step, s = .range start stop step := by
  have hparts : (∃ fault colon, ev.slice a scope m = Step.failAt fault colon m)
      ∨ ev.slice a scope m = (do
        let first ← ev.component a.first a.bracket scope
        let second ← ev.component a.second a.bracket scope
        let third ← ev.component a.third a.bracket scope
        return .range first second third : Step RuntimeError Slice) m := by
    unfold slice
    rw [hrange]
    cases a.secondColon with
    | none => exact .inr rfl
    | some colon =>
        cases a.third with
        | none => exact .inl ⟨_, _, rfl⟩
        | some e => exact .inr rfl
  rcases hparts with ⟨fault, colon, hfail⟩ | hparts
  · rw [hfail] at hs
    cases hs
  · -- If one of the parts fails then there is no slice.
    rw [hparts] at hs
    obtain ⟨start, m₁, -, hs⟩ := Step.exists_ok_of_bind hs
    obtain ⟨stop, m₂, -, hs⟩ := Step.exists_ok_of_bind hs
    obtain ⟨step, m₃, -, hs⟩ := Step.exists_ok_of_bind hs
    cases hs
    exact ⟨start, stop, step, rfl⟩

end Evaluator

/-! ## Reads before and after a store -/

/-- What is in a list or a dictionary is the same in both heaps. -/
def Heap.SameAt (h h' : Heap) : Value → Prop
  | .list r => h.lists.get? r = h'.lists.get? r
  | .dict r => h.dicts.get? r = h'.dicts.get? r
  | _ => True

/-- This is what reading `c[k]` comes to, through whatever expressions and in whatever state, if
    only what is in `c` is as it is in the heap. -/
def Heap.Reads (h : Heap) (c k : Value) (found : Except Fault Value) : Prop :=
  ∀ ev a scope m n, Evaluator.Indexes ev a scope m c k n → n.heap.SameAt h c →
    ev.read a scope m = (Step.ofExcept found).blame a.bracket n

/-- To read at an index through expressions is to look at the item on the heap. -/
theorem Heap.reads_item (h : Heap) {c : Value} (hc : c.isContainer = true) (k : Value) :
    h.Reads c k (h.item c k) := by
  intro ev a scope m n hindexes hsame
  rw [hindexes.read hc]
  cases c with
  | list r => rw [Heap.item_list_congr hsame]
  | dict r => rw [Heap.item_dict_congr hsame]
  | _ => cases hc

/-- What a program indexes is held. -/
theorem Evaluator.Indexes.holds {limit fuel : Nat} {a : Access} {scope : Ref .scope}
    {m n : Machine} {c k : Value} (h : (withFuel limit fuel).Indexes a scope m c k n)
    (hm : m.heap.Tidy) (hscope : (Object.scope scope).In m.heap) (hc : c.isContainer = true) :
    n.heap.Holds c := by
  obtain ⟨-, e, m₁, -, hobject, hk⟩ := h
  obtain ⟨htidy₁, hin₁⟩ := tidy_expression limit fuel a.object hm hscope
  obtain ⟨hlarger₁, hc₁⟩ := hin₁ c m₁ hobject
  rw [hobject] at htidy₁
  obtain ⟨htidy, hin⟩ := tidy_expression limit fuel e htidy₁
    (Nat.lt_of_lt_of_le hscope hlarger₁.scopes)
  obtain ⟨hlarger, -⟩ := hin k n hk
  rw [hk] at htidy
  cases c with
  | list r => exact .list r
  | dict r =>
      obtain ⟨d, hd, hmade⟩ := Heap.Tidy.dict htidy (Nat.lt_of_lt_of_le hc₁ hlarger.dicts)
      exact .dict hd hmade
  | _ => cases hc

/-- **Indexed reads and stores agree.** Let `c` be a list or a dictionary.

    At one index `k`, the store `c[k] = v` succeeds exactly if the read `c[k]` does, which for a
    dictionary is if `k` is hashable. A store that fails changes nothing, and the read fails with
    the same error. After a store that succeeds, all reads of `c` at the same slot give `v`, and all
    other reads of lists and dictionaries give what they gave before.

    A store to a range fails and changes nothing. So does the read of a dictionary, with the same
    error, and the read of a list if the parts of the range are not good.

    What this asks of `c` is so in every run: a tidy heap holds all that expressions come to, and
    runs start with tidy heaps and only go to tidy ones (`tidy_runProgram`). -/
theorem indexed_store_agrees (c v : Value) :
    (∀ (ev : Evaluator) a scope m k n, ev.Indexes a scope m c k n → n.heap.Holds c →
      ((ev.store a v scope m).isOk = true ↔ (ev.read a scope m).isOk = true)
      ∧ (∀ r, c = .dict r → ((ev.store a v scope m).isOk = true ↔ k.hashable = true))
      ∧ ((∃ e, ev.store a v scope m = .error e n ∧ ev.read a scope m = .error e n)
        ∨ ∃ n', ev.store a v scope m = .ok () n'
          ∧ (∀ k', c.SameSlot k k' → n'.heap.Reads c k' (.ok v))
          ∧ ∀ c' k', c'.isContainer = true → ¬(c' = c ∧ c.SameSlot k k') →
            ∃ found, n.heap.Reads c' k' found ∧ n'.heap.Reads c' k' found))
    ∧ (∀ (ev : Evaluator) a scope m n, a.isIndex = false →
      ev.expression a.object scope m = .ok c n →
      (∀ r, c = .dict r → ev.store a v scope m = .error (.atToken .expectedKey a.bracket) n
        ∧ ev.read a scope m = .error (.atToken .expectedKey a.bracket) n)
      ∧ ∀ r, c = .list r →
        (∀ e n', ev.slice a scope n = .error e n' →
          ev.store a v scope m = .error e n' ∧ ev.read a scope m = .error e n')
        ∧ ∀ s n', ev.slice a scope n = .ok s n' →
          ev.store a v scope m = .error (.atToken .invalidAccess a.bracket) n')
    ∧ ∀ limit fuel a scope m k n, m.heap.Tidy → (Object.scope scope).In m.heap →
      (Evaluator.withFuel limit fuel).Indexes a scope m c k n → c.isContainer = true →
      n.heap.Holds c := by
  refine ⟨fun ev a scope m k n hindexes hc => ?_, fun ev a scope m n hrange hobject => ?_, ?_⟩
  · rcases hindexes.store_cases hc v with
      ⟨fault, hrefuses, hstore, hread⟩ | ⟨u, h', hstores, hstore, hread⟩
    · refine ⟨by rw [hstore, hread]; rfl, ?_, .inl ⟨_, hstore, hread⟩⟩
      rintro r rfl
      rw [hstore, hrefuses.unhashable]
      exact Iff.rfl
    · refine ⟨by rw [hstore, hread]; rfl, ?_, .inr ⟨_, hstore, fun k' hslot => ?_, ?_⟩⟩
      · rintro r rfl
        rw [hstore, hstores.hashable]
        exact Iff.rfl
      · rw [← hstores.here k' hslot]
        exact Heap.reads_item h' hc.isContainer k'
      · intro c' k' hc' hslot
        refine ⟨n.heap.item c' k', n.heap.reads_item hc' k', ?_⟩
        rw [← hstores.elsewhere c' k' hslot]
        exact Heap.reads_item h' hc' k'
  · constructor
    · rintro r rfl
      -- Both fail before the dictionary is asked for anything.
      have hkey := Evaluator.key_of_range hrange ev scope n
      constructor
      · exact (Step.bind_of_ok hobject).trans (Step.bind_of_error hkey)
      · exact (Step.bind_of_ok hobject).trans (Step.bind_of_error hkey)
    · rintro r rfl
      constructor
      · intro e n' hslice
        constructor
        · exact (Step.bind_of_ok hobject).trans (Step.bind_of_error hslice)
        · exact (Step.bind_of_ok hobject).trans (Step.bind_of_error hslice)
      · intro s n' hslice
        -- A range is read, but it cannot be assigned to.
        obtain ⟨start, stop, step, rfl⟩ := Evaluator.slice_of_range hrange hslice
        exact (Step.bind_of_ok hobject).trans (Step.bind_of_ok hslice)
  · exact fun limit fuel a scope m k n hm hscope hindexes hc => hindexes.holds hm hscope hc

/-- Two variables `d` and `e` stand for one dictionary, which is empty. -/
def Machine.onAliases : Machine :=
  let h := (Heap.empty.newDict .empty).2.newScope none
  ⟨(h.2.declare ⟨0⟩ "d" (.dict ⟨0⟩)).declare ⟨0⟩ "e" (.dict ⟨0⟩), .root, .empty⟩

/-- `d[nil] = true`, and then `e[nil]` is read. -/
theorem indexed_store_agrees_alias :
    let slot := fun x => Access.mk (.var (.plain .identifier x 1)) (.plain .leftBracket "[" 1)
      (some (.literal .nil)) none none none none
    let ev := Evaluator.withFuel 10 1
    ∃ n, ev.store (slot "d") (.bool true) ⟨0⟩ .onAliases = .ok () n
      ∧ ev.read (slot "e") ⟨0⟩ n = .ok (.bool true) n := by
  intro slot ev
  have hindexes : ∀ x m, m.heap.own? ⟨0⟩ x = some (.dict ⟨0⟩) →
      ev.Indexes (slot x) ⟨0⟩ m (.dict ⟨0⟩) .nil m := by
    intro x m hx
    have hvar : evaluate 10 1 (slot x).object ⟨0⟩ m = .ok (.dict ⟨0⟩) m := evaluate_var hx 0
    exact ⟨rfl, _, m, rfl, hvar, rfl⟩
  have hd := hindexes "d" .onAliases rfl
  obtain ⟨hagree, -, -⟩ := indexed_store_agrees (.dict ⟨0⟩) (.bool true)
  obtain ⟨-, hhashable, hcases⟩ := hagree ev (slot "d") ⟨0⟩ .onAliases .nil .onAliases hd
    (.dict rfl .empty)
  rcases hcases with ⟨e, hstore, -⟩ | ⟨n, hstore, hhere, -⟩
  · have hok := (hhashable ⟨0⟩ rfl).mpr rfl
    rw [hstore] at hok
    cases hok
  · have hdone := (hd.store rfl (.bool true)).trans
      (Step.blame_attempt_of_ok (Heap.setItem_of_hashable rfl _ _ _))
    obtain ⟨-, rfl⟩ := Outcome.ok.inj (hstore.symm.trans hdone)
    exact ⟨_, hstore, hhere .nil rfl ev (slot "e") ⟨0⟩ _ _ (hindexes "e" _ rfl) rfl⟩

end Script
