import Script.Proofs.Evaluation.Isolation
import Script.Proofs.Value.Dictionary
import Script.Run

/-!
# `Proofs.Evaluation.Upkeep` — the heap of a run is tidy

As data, a reference may point to a cell that is not there, and a dictionary may have an index that
does not fit its entries. In a run neither happens. The heap stays *tidy*: what its cells refer to
is there, and its dictionaries were made by the operations of dictionaries (`Heap.Tidy`).

The first half is isolation from the empty heap, since what is new compared with the empty heap is
what is there. The second half has a discipline of its own, under which a program may handle
anything.
-/

namespace Script

/-! ## Dictionaries -/

/-- Every dictionary was made by operations. -/
def Heap.DictsMade (h : Heap) : Prop := ∀ r d, h.dicts.get? r = some d → d.Made

namespace Heap.DictsMade

variable {h h' : Heap}

theorem of_eq (hh : h.DictsMade) (heq : h'.dicts = h.dicts) : h'.DictsMade := by
  intro r d hd
  rw [heq] at hd
  exact hh r d hd

theorem dictionary (hh : h.DictsMade) (r : Ref .dict) : (h.dictionary r).Made := by
  unfold Heap.dictionary
  cases hd : h.dicts.get? r with
  | none => exact .empty
  | some d => exact hh r d hd

theorem newDict (hh : h.DictsMade) {d : Dict} (hd : d.Made) : (h.newDict d).2.DictsMade := by
  intro r d' hd'
  obtain hold | ⟨-, rfl⟩ := Store.get?_push_cases hd'
  · exact hh r d' hold
  · exact hd

theorem insertEntry (hh : h.DictsMade) (r : Ref .dict) (k v : Value) :
    (h.insertEntry r k v).2.DictsMade := by
  cases hk : k.hashable with
  | false =>
      rw [insertEntry_of_unhashable hk]
      exact hh
  | true =>
      intro r' d hd
      rw [Heap.insertEntry, Value.dictKey_of_hashable hk] at hd
      by_cases hr : r' = r
      · subst hr
        rw [Store.get?_modify_self] at hd
        obtain ⟨d₀, hd₀, rfl⟩ := Option.map_eq_some_iff.mp hd
        exact (hh r' d₀ hd₀).put hk v
      · rw [Store.get?_modify_ne hr] at hd
        exact hh r' d hd

end Heap.DictsMade

/-- A program may handle anything, and dictionaries are made by operations. -/
def Discipline.recording : Discipline where
  sound := Heap.DictsMade
  later _ _ := True
  later_refl _ := trivial
  later_trans _ _ := trivial
  Place := Unit
  value _ _ := True
  makeable _ _ := True
  callable _ _ := True
  runs _ _ _ := True
  bindable _ _ := True
  reads _ _ _ := True
  binds _ _ _ := True
  home _ _ _ := True
  method _ _ _ := True
  name _ := True
  dict := Dict.Made

namespace Discipline

variable {h h' : Heap}

/-- Most operations leave the dictionaries alone. -/
theorem recording_goes (hh : h.DictsMade) (heq : h'.dicts = h.dicts) : recording.Goes h h' :=
  ⟨hh.of_eq heq, trivial⟩

theorem recording_liberal : recording.Liberal where
  place := ⟨()⟩
  dict_ofEntries hd := ⟨_, .ofEntries hd⟩
  dict_union ha hb := Dict.Made.union ha hb
  dictionary r hh := hh.dictionary r
  newScope _ _ hh := ⟨recording_goes hh rfl, trivial⟩
  newBuiltin _ hh := recording_goes hh rfl
  newHost _ hh := recording_goes hh rfl
  newList _ hh := recording_goes hh rfl
  newDict hh hd := ⟨hh.newDict hd, trivial⟩
  newFunction _ hh := recording_goes hh rfl
  newClass _ hh := recording_goes hh rfl
  newInstance _ hh := recording_goes hh rfl
  declare _ _ hh _ := recording_goes hh rfl
  assign _ _ _ hh := recording_goes hh (by rw [Heap.assign_frame])
  setElement _ _ _ hh := recording_goes hh (by rw [Heap.setElement_frame])
  insertEntry r k v hh := ⟨hh.insertEntry r k v, trivial⟩
  setField _ _ _ hh := recording_goes hh rfl
  setMember _ _ _ hh := recording_goes hh (by rw [Heap.setMember_frame])

theorem recording_lawful : recording.Lawful := recording_liberal.lawful

end Discipline

/-! ## Tidy heaps -/

/-- What the cells refer to is there, and every dictionary was made by operations. -/
structure Heap.Tidy (h : Heap) : Prop where
  closed : Heap.empty.Apart h
  made : h.DictsMade

/-- What is new compared with the empty heap is what is there. -/
theorem Object.new_empty_iff {h : Heap} {o : Object} : o.New .empty h ↔ o.In h := by
  have hfresh : ∀ {kind : CellKind} {α : Type} {s : Store kind α} {r : Ref kind},
      Store.empty.Fresh s r ↔ r.index < s.size := by
    intro kind α s r
    exact and_iff_right (Nat.zero_le _)
  cases o with
  | scope s => exact hfresh
  | value v => cases v <;> first | exact hfresh | exact Iff.rfl

namespace Heap.Tidy

variable {h : Heap}

theorem empty : Heap.empty.Tidy := ⟨.refl _, fun _ _ hd => by cases hd⟩

/-- A dictionary that is there was made by operations. -/
theorem dict (hh : h.Tidy) {r : Ref .dict} (hr : (Object.value (.dict r)).In h) :
    ∃ d, h.dicts.get? r = some d ∧ d.Made := by
  cases hd : h.dicts.get? r with
  | none => exact absurd hr (Nat.not_lt.mpr (Store.get?_eq_none_iff.mp hd))
  | some d => exact ⟨d, rfl, hh.made r d hd⟩

/-- A run starts with a tidy heap. -/
theorem newProgramScope (hh : h.Tidy) (script : Option String) :
    (h.newProgramScope script).2.Tidy
      ∧ (Object.scope (h.newProgramScope script).1).In (h.newProgramScope script).2 := by
  obtain ⟨go, _, hscope⟩ := (Discipline.isolation_lawful .empty).newProgramScope hh.closed script
  obtain ⟨go', -⟩ := Discipline.recording_lawful.newProgramScope hh.made script
  exact ⟨⟨go.sound, go'.sound⟩, Object.new_empty_iff.mp hscope⟩

end Heap.Tidy

/-- If a step keeps to both disciplines, then from a tidy heap it only goes to tidy ones. -/
theorem Step.tidy_of_follows {ε α : Type} {x : Step ε α} {m : Machine} {Q R : Heap → α → Prop}
    (hm : m.heap.Tidy)
    (hx : Follows (Discipline.isolation .empty).toCourse m.stack m.heap x x Q)
    (hx' : Follows Discipline.recording.toCourse m.stack m.heap x x R) :
    (x m).Leaves fun m' => m'.heap.Tidy := by
  have hclosed := (hx m rfl rfl hm.closed).2.leaves
  have hmade := (hx' m rfl rfl hm.made).2.leaves
  cases hxm : x m with
  | ok a m' =>
      rw [hxm] at hclosed hmade
      exact ⟨hclosed.2.sound, hmade.2.sound⟩
  | error e m' =>
      rw [hxm] at hclosed hmade
      exact ⟨hclosed.2.sound, hmade.2.sound⟩
  | outOfFuel => trivial

namespace Evaluator

variable {scope : Ref .scope} {m : Machine}

/-- An expression leaves the heap tidy, however its evaluation ends, and what it comes to is
    there. What was there still is. -/
theorem tidy_expression (limit fuel : Nat) (e : Expr) (hm : m.heap.Tidy)
    (hscope : (Object.scope scope).In m.heap) :
    ((withFuel limit fuel).expression e scope m).Leaves (fun m' => m'.heap.Tidy)
    ∧ ∀ v m', (withFuel limit fuel).expression e scope m = .ok v m' →
      m.heap.Larger m'.heap ∧ (Object.value v).In m'.heap := by
  have hclosed := (obeys_withFuel (Discipline.isolation_lawful .empty) limit fuel ()).expression
    (σ := m.stack) (h := m.heap) (e := e) (fun _ _ _ _ => trivial) (Object.new_empty_iff.mpr hscope)
  refine ⟨Step.tidy_of_follows hm hclosed (R := fun _ _ => True) ?_, fun v m' hok => ?_⟩
  · exact (obeys_withFuel Discipline.recording_lawful limit fuel ()).expression
      (fun _ _ _ _ => trivial) trivial
  · have hmeets := (hclosed m rfl rfl hm.closed).2
    rw [hok] at hmeets
    obtain ⟨-, go, hv⟩ := hmeets
    exact ⟨go.later, Object.new_empty_iff.mp hv⟩

theorem tidy_program (limit fuel : Nat) (program : Program) (hm : m.heap.Tidy)
    (hscope : (Object.scope scope).In m.heap) (hstack : m.stack = .root) :
    ((withFuel limit fuel).program program scope m).Leaves fun m' => m'.heap.Tidy := by
  obtain ⟨heap, stack, world⟩ := m
  subst hstack
  refine Step.tidy_of_follows hm (Q := fun _ _ => True) (R := fun _ _ => True) ?_ ?_
  · exact (obeys_withFuel (Discipline.isolation_lawful .empty) limit fuel ()).program
      (Discipline.isolation_lawful .empty) (j := ()) (fun _ _ _ _ => trivial)
      (Object.new_empty_iff.mpr hscope)
  · exact (obeys_withFuel Discipline.recording_lawful limit fuel ()).program
      Discipline.recording_lawful (j := ()) (fun _ _ _ _ => trivial) trivial

end Evaluator

/-- However the run of a program ends, the heap is tidy. -/
theorem tidy_runProgram (fuel : Nat) (settings : Settings) (world : World) (program : Program) :
    (runProgram fuel settings world program).Leaves fun m => m.heap.Tidy := by
  obtain ⟨hheap, hscope⟩ := Heap.Tidy.empty.newProgramScope settings.path
  exact Evaluator.tidy_program (m := ⟨_, .root, world⟩) _ fuel program hheap hscope rfl

end Script
