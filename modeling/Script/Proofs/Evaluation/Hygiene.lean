import Script.Proofs.Evaluation.Obedience
import Script.Proofs.Heap.Scopes

/-!
# `Proofs.Evaluation.Hygiene` — which scopes get new names

A statement may declare names in the scope in which it runs, and an expression declares nothing.
Everything else that is declared on the way, in blocks, handlers, loops, calls, methods and modules,
goes into scopes that are made on the way. Assignments reach scopes that were there before, but only
names that these bind already.

The main statement is `scopes_hygienic`. It is about arbitrary trees, scopes and heaps.
-/

namespace Script

namespace Heap

variable {who : Ref .scope → Prop} {h₀ h h' : Heap}

/-- A scope itself binds a name. -/
def Binds (h : Heap) (s : Ref .scope) (name : String) : Prop :=
  ∃ scope ∈ h.scopes.get? s, name ∈ scope.bindings.names

/-- The scopes of `h` are there in `h'` and have the same scopes around them. They bind the same
    names, and those in `who` may bind more. -/
structure ScopesKept (who : Ref .scope → Prop) (h h' : Heap) : Prop where
  size : h.scopes.size ≤ h'.scopes.size
  parent : ∀ s, s.index < h.scopes.size → h'.parent? s = h.parent? s
  grow : ∀ s, s.index < h.scopes.size → ∀ name, h.Binds s name → h'.Binds s name
  same : ∀ s, s.index < h.scopes.size → ¬ who s → ∀ name, h'.Binds s name → h.Binds s name

namespace ScopesKept

theorem refl (h : Heap) : h.ScopesKept who h :=
  ⟨Nat.le_refl _, fun _ _ => rfl, fun _ _ _ hn => hn, fun _ _ _ _ hn => hn⟩

/-- Only the scopes matter. -/
theorem of_eq (hk : h₀.ScopesKept who h) (he : h'.scopes = h.scopes) : h₀.ScopesKept who h' := by
  obtain ⟨hsize, hparent, hgrow, hsame⟩ := hk
  unfold Binds parent? at *
  constructor <;> simpa only [he, Binds, parent?]

theorem newScope (hk : h₀.ScopesKept who h) (parent : Option (Ref .scope)) :
    h₀.ScopesKept who (h.newScope parent).2 := by
  have hget : ∀ s, s.index < h₀.scopes.size →
      (h.newScope parent).2.scopes.get? s = h.scopes.get? s :=
    fun s hs => Store.get?_push_of_lt (Nat.lt_of_lt_of_le hs hk.size) _
  constructor
  · exact Nat.le_trans hk.size (by simp [Heap.newScope])
  · intro s hs
    simpa only [parent?, hget s hs] using hk.parent s hs
  · intro s hs
    simpa only [Binds, hget s hs] using hk.grow s hs
  · intro s hs
    simpa only [Binds, hget s hs] using hk.same s hs

end ScopesKept

/-- What a scope binds after a declaration: the new name, and what it bound before. -/
theorem binds_declare {s s' : Ref .scope} {name name' : String} {v : Value} :
    (h.declare s name v).Binds s' name'
      ↔ h.Binds s' name' ∨ (s' = s ∧ name' = name ∧ s.index < h.scopes.size) := by
  unfold Binds declare
  by_cases hs : s' = s
  · subst hs
    simp only [Store.get?_modify_self]
    cases hscope : h.scopes.get? s' with
    | none =>
        have hsize := Store.get?_eq_none_iff.mp hscope
        simp [Nat.not_lt.mpr hsize]
    | some scope =>
        have hlt := Store.lt_size_of_get? hscope
        simp only [Option.map_some, Option.mem_some_iff, exists_eq_left', Bindings.mem_names_set,
          true_and, hlt, and_true]
        exact Or.comm
  · simp [Store.get?_modify_ne hs, hs]

namespace ScopesKept

/-- A declaration in a scope that may get new names, or in one that binds the name already. -/
theorem declare (hk : h₀.ScopesKept who h) {s : Ref .scope} {name : String}
    (hs : who s ∨ h₀.scopes.size ≤ s.index ∨ h.Binds s name) (v : Value) :
    h₀.ScopesKept who (h.declare s name v) := by
  constructor
  · rw [declare_scopes_size]
    exact hk.size
  · intro s' hs'
    rw [parent?_declare]
    exact hk.parent s' hs'
  · intro s' hs' name' hn
    exact binds_declare.mpr (.inl (hk.grow s' hs' name' hn))
  · intro s' hs' hwho name' hn
    obtain hn | ⟨rfl, rfl, -⟩ := binds_declare.mp hn
    · exact hk.same s' hs' hwho name' hn
    · obtain hin | hnew | hbound := hs
      · exact absurd hin hwho
      · exact absurd hs' (Nat.not_lt.mpr hnew)
      · exact hk.same s' hs' hwho name' hbound

end ScopesKept

/-- The nearest scope that binds a name binds it. -/
theorem binds_nearest? {s d : Ref .scope} {name : String}
    (hd : h.scopes.nearest? s name = some d) : h.Binds d name := by
  fun_induction Store.nearest? h.scopes s name with
  | case1 => cases hd
  | case2 s scope hs hc =>
      cases hd
      exact ⟨scope, hs, Bindings.mem_names_iff.mpr hc⟩
  | case3 => cases hd
  | case4 s scope hs hc p hp hlt ih => exact ih hd
  | case5 => cases hd

/-- An assignment only reaches scopes that bind the name. -/
theorem ScopesKept.assign (hk : h₀.ScopesKept who h) (s : Ref .scope) (name : String) (v : Value) :
    h₀.ScopesKept who (h.assign s name v).2 := by
  unfold Heap.assign
  split
  · rename_i d hd
    exact hk.declare (.inr (.inr (binds_nearest? hd))) v
  · exact hk

end Heap

/-! ## The discipline -/

/-- Names are declared in the scopes in `who` and in scopes that `h₀` does not have. -/
def Discipline.hygiene (h₀ : Heap) (who : Ref .scope → Prop) : Discipline where
  sound h := h₀.ScopesKept who h
  later _ _ := True
  later_refl _ := trivial
  later_trans _ _ := trivial
  Place := Unit
  value _ _ := True
  makeable _ _ := True
  callable _ _ := True
  runs _ _ _ := True
  bindable _ _ := True
  reads _ _ _ := True
  binds _ _ s := who s ∨ h₀.scopes.size ≤ s.index
  home _ _ _ := True
  method _ _ _ := True
  name _ := True
  dict _ := True

namespace Discipline

variable {h₀ h : Heap} {who : Ref .scope → Prop}

theorem hygiene_goes {h' : Heap} (hk : h₀.ScopesKept who h') : (hygiene h₀ who).Goes h h' :=
  ⟨hk, trivial⟩

/-- A scope that is made gets a number that `h₀` does not have. -/
theorem hygiene_newScope (hk : h₀.ScopesKept who h) (parent : Option (Ref .scope)) :
    (hygiene h₀ who).Makes h (h.newScope parent) ((hygiene h₀ who).binds ()) :=
  ⟨hygiene_goes (hk.newScope parent), .inr hk.size⟩

theorem hygiene_liberal (h₀ : Heap) (who : Ref .scope → Prop) : (hygiene h₀ who).Liberal where
  place := ⟨()⟩
  binds_later _ hs := hs
  newScope _ parent hk := hygiene_newScope hk parent
  newBuiltin _ hk := hygiene_goes (hk.of_eq rfl)
  newHost _ hk := hygiene_goes (hk.of_eq rfl)
  newList _ hk := hygiene_goes (hk.of_eq rfl)
  newDict hk _ := hygiene_goes (hk.of_eq rfl)
  newFunction _ hk := hygiene_goes (hk.of_eq rfl)
  newClass _ hk := hygiene_goes (hk.of_eq rfl)
  newInstance _ hk := hygiene_goes (hk.of_eq rfl)
  declare _ v hk hs := hygiene_goes (hk.declare (hs.imp_right .inl) v)
  assign s name v hk := hygiene_goes (hk.assign s name v)
  setElement _ _ _ hk := hygiene_goes (hk.of_eq (by rw [Heap.setElement_frame]))
  insertEntry _ _ _ hk := hygiene_goes (hk.of_eq (by rw [Heap.insertEntry_frame]))
  setField _ _ _ hk := hygiene_goes (hk.of_eq rfl)
  setMember _ _ _ hk := hygiene_goes (hk.of_eq (by rw [Heap.setMember_frame]))

theorem hygiene_lawful (h₀ : Heap) (who : Ref .scope → Prop) : (hygiene h₀ who).Lawful :=
  (hygiene_liberal h₀ who).lawful

end Discipline

/-! ## Arbitrary statements and expressions -/

/-- A step that follows the discipline leaves the scopes of the heap it starts from. -/
theorem Step.Follows.scopesKept {ε α : Type} {x y : Step ε α} {m : Machine}
    {who : Ref .scope → Prop} {Q : Heap → α → Prop}
    (hx : Step.Follows (Discipline.hygiene m.heap who).toCourse m.stack m.heap x y Q) :
    (x m).Leaves fun m' => m.heap.ScopesKept who m'.heap :=
  (hx m rfl rfl (.refl m.heap)).2.leaves.mono fun _ hm => hm.2.sound

/-- **Scopes are hygienic.** Whatever the tree, the scope, the heap and the call stack, and however
    the evaluation ends: of the scopes that were there before, a statement adds names at most to the
    one in which it runs, and a block and an expression to none. No scope loses a name, and the
    scope around a scope stays what it was. -/
theorem scopes_hygienic (limit fuel : Nat) (scope : Ref .scope) (m : Machine) :
    (∀ s, (runStatement limit fuel s scope m).Leaves fun m' =>
      m.heap.ScopesKept (· = scope) m'.heap)
    ∧ (∀ ss, (runStatement limit fuel (.block ss) scope m).Leaves fun m' =>
      m.heap.ScopesKept (fun _ => False) m'.heap)
    ∧ ∀ e, (evaluate limit fuel e scope m).Leaves fun m' =>
      m.heap.ScopesKept (fun _ => False) m'.heap := by
  have hbinds : ∀ {P : String → Prop} {ns : List Node}, (∀ x, P x) → AllBind P ns :=
    fun hP _ _ x _ => hP x
  refine ⟨fun s => ?_, fun ss => ?_, fun e => ?_⟩
  · have hev := Evaluator.obeys_withFuel (Discipline.hygiene_lawful m.heap (· = scope)) limit fuel ()
    exact (hev.statementHere (hbinds fun _ => trivial) (.inl rfl)).scopesKept
  · -- A block declares nothing in the scope around it: all it needs is to look names up there.
    have lawful := Discipline.hygiene_lawful m.heap fun _ => False
    cases fuel with
    | zero => exact trivial
    | succ fuel =>
        have hev := Evaluator.obeys_withFuel lawful limit fuel ()
        rw [runStatement_succ]
        exact (hev.block lawful (hbinds fun _ => trivial) trivial).scopesKept
  · have hev := Evaluator.obeys_withFuel (Discipline.hygiene_lawful m.heap fun _ => False) limit fuel ()
    exact (hev.expression (hbinds fun _ => trivial) trivial).scopesKept

end Script
