import Script.Proofs.Heap.Scopes

/-!
# `Proofs.Heap.Chains` — the nearest scope that binds a name

The scopes from one scope outwards form a chain (`Heap.Chain`), and the first scope on it that binds
a name is the nearest one (`Heap.Nearest`). Both are said by what a scope itself binds and by the
scope around it; neither looks at the numbers of scopes, at which `Store.nearest?` stops.

`Heap.ScopesMade` holds of the heaps that come of making scopes, declaring names and assigning to
them in any order. There a scope is older than the scopes inside it, so every chain comes to an end
and going outwards never stops short. The main statement is `scope_chain_semantics`.
-/

namespace Script

namespace Heap

/-! ## Making scopes -/

/-- Heaps that come of making scopes, declaring names and assigning to them in any order. -/
inductive ScopesMade : Heap → Prop
  | start {h} : h.scopes = .empty → ScopesMade h
  | outermost {h} : ScopesMade h → ScopesMade (h.newScope none).2
  | inside {h s} : ScopesMade h → s.index < h.scopes.size → ScopesMade (h.newScope (some s)).2
  | declare {h s} (name : String) (v : Value) : ScopesMade h → s.index < h.scopes.size →
      ScopesMade (h.declare s name v)
  | assign {h s} (name : String) (v : Value) : ScopesMade h → s.index < h.scopes.size →
      ScopesMade (h.assign s name v).2

/-- The scopes from a scope outwards, up to an outermost one. -/
inductive Chain (h : Heap) : Ref .scope → List (Ref .scope) → Prop
  | outermost {s} : h.parent? s = none → Chain h s [s]
  | inside {s p outer} : h.parent? s = some p → Chain h p outer → Chain h s (s :: outer)

variable {h h' : Heap} {s s' p d : Ref .scope} {name : String} {v : Value}

/-- The scope around a scope is older than the scope. -/
def Outward (h : Heap) : Prop := ∀ s p, h.parent? s = some p → p.index < s.index

/-- What is around a scope after a scope was made. -/
theorem parent?_newScope_cases {parent : Option (Ref .scope)}
    (hp : (h.newScope parent).2.parent? s = some p) :
    h.parent? s = some p ∨ s = h.scopes.next ∧ parent = some p := by
  obtain ⟨scope, hscope, hparent⟩ := Option.bind_eq_some_iff.mp hp
  obtain hold | ⟨hs, rfl⟩ := Store.get?_push_cases hscope
  · exact .inl (Option.bind_eq_some_iff.mpr ⟨scope, hold, hparent⟩)
  · exact .inr ⟨hs, hparent⟩

theorem Outward.newScope (hh : h.Outward) {parent : Option (Ref .scope)}
    (hparent : ∀ p ∈ parent, p.index < h.scopes.size) : (h.newScope parent).2.Outward := by
  intro s p hp
  obtain hold | ⟨rfl, hnew⟩ := parent?_newScope_cases hp
  · exact hh s p hold
  · exact hparent p hnew

theorem Outward.declare (hh : h.Outward) (s : Ref .scope) (name : String) (v : Value) :
    (h.declare s name v).Outward := by
  intro s' p hp
  rw [parent?_declare] at hp
  exact hh s' p hp

theorem Outward.assign (hh : h.Outward) (s : Ref .scope) (name : String) (v : Value) :
    (h.assign s name v).2.Outward := by
  unfold Heap.assign
  split
  · exact hh.declare _ name v
  · exact hh

theorem ScopesMade.outward (hh : h.ScopesMade) : h.Outward := by
  induction hh with
  | start hempty =>
      intro s p hp
      simp [parent?, hempty, Store.empty, Store.get?] at hp
  | outermost _ ih => exact ih.newScope (by simp)
  | inside _ hs ih => exact ih.newScope (by simpa using hs)
  | declare name v _ _ ih => exact ih.declare _ name v
  | assign name v _ _ ih => exact ih.assign _ name v

/-! ## Chains -/

theorem Chain.first {outer : List (Ref .scope)} (hc : h.Chain s (s' :: outer)) : s' = s := by
  cases hc <;> rfl

/-- Behind the first scope a chain ends, or goes on as the chain of the scope around it. -/
theorem Chain.rest {outer : List (Ref .scope)} (hc : h.Chain s (s' :: outer)) :
    h.parent? s = none ∧ outer = [] ∨ ∃ p, h.parent? s = some p ∧ h.Chain p outer := by
  cases hc with
  | outermost hs => exact .inl ⟨hs, rfl⟩
  | inside hp houter => exact .inr ⟨_, hp, houter⟩

theorem Chain.unique {chain chain' : List (Ref .scope)} (hc : h.Chain s chain)
    (hc' : h.Chain s chain') : chain = chain' := by
  induction hc generalizing chain' with
  | outermost hs =>
      cases hc' with
      | outermost _ => rfl
      | inside hp _ =>
          rw [hs] at hp
          cases hp
  | inside hp _ ih =>
      cases hc' with
      | outermost hs =>
          rw [hs] at hp
          cases hp
      | inside hp' hc' =>
          obtain rfl := Option.some.inj (hp.symm.trans hp')
          rw [ih hc']

/-- Going outwards comes to an end, since each scope on the way is older than the one before. -/
theorem Outward.exists_chain (hh : h.Outward) (s : Ref .scope) : ∃ chain, h.Chain s chain := by
  cases hp : h.parent? s with
  | none => exact ⟨[s], .outermost hp⟩
  | some p =>
      have hlt := hh s p hp
      obtain ⟨outer, houter⟩ := hh.exists_chain p
      exact ⟨s :: outer, .inside hp houter⟩
  termination_by s.index

/-- The first scope on the chain of `s` that binds the name. -/
def Nearest (h : Heap) (s : Ref .scope) (name : String) (d : Ref .scope) : Prop :=
  ∃ inner outer, h.Chain s (inner ++ d :: outer) ∧ (∀ s' ∈ inner, h.own? s' name = none)
    ∧ (h.own? d name).isSome = true

theorem Nearest.isSome_own? (hd : h.Nearest s name d) : (h.own? d name).isSome = true := by
  obtain ⟨_, _, _, _, hsome⟩ := hd
  exact hsome

/-- The nearest scope is the scope itself, or it is the nearest one seen from the scope around. -/
theorem Nearest.cases (hd : h.Nearest s name d) :
    d = s ∨ h.own? s name = none ∧ ∃ p, h.parent? s = some p ∧ h.Nearest p name d := by
  obtain ⟨inner, outer, hchain, hinner, hsome⟩ := hd
  cases inner with
  | nil => exact .inl hchain.first
  | cons s' inner =>
      obtain rfl : s' = s := hchain.first
      obtain ⟨hs, hinner⟩ := List.forall_mem_cons.mp hinner
      obtain ⟨-, hend⟩ | ⟨p, hp, hrest⟩ := hchain.rest
      · simp at hend
      · exact .inr ⟨hs, p, hp, inner, outer, hrest, hinner, hsome⟩

/-- A scope that binds the name itself is the nearest one, and no other is. -/
theorem Outward.nearest_own (hh : h.Outward) (hs : (h.own? s name).isSome = true) :
    h.Nearest s name d ↔ d = s := by
  constructor
  · intro hd
    obtain rfl | ⟨hnone, -⟩ := hd.cases
    · rfl
    · rw [hnone] at hs
      cases hs
  · rintro rfl
    obtain ⟨chain, hchain⟩ := hh.exists_chain d
    cases hchain with
    | outermost hp => exact ⟨[], [], .outermost hp, List.forall_mem_nil _, hs⟩
    | inside hp houter => exact ⟨[], _, .inside hp houter, List.forall_mem_nil _, hs⟩

/-- From a scope that does not bind the name, what is nearest is nearest from the scope around. -/
theorem nearest_parent (hs : h.own? s name = none) (hp : h.parent? s = some p) :
    h.Nearest s name d ↔ h.Nearest p name d := by
  constructor
  · intro hd
    obtain rfl | ⟨-, p', hp', hd'⟩ := hd.cases
    · have hsome := hd.isSome_own?
      rw [hs] at hsome
      cases hsome
    · obtain rfl := Option.some.inj (hp.symm.trans hp')
      exact hd'
  · rintro ⟨inner, outer, hchain, hinner, hsome⟩
    exact ⟨s :: inner, outer, .inside hp hchain, List.forall_mem_cons.mpr ⟨hs, hinner⟩, hsome⟩

/-- From an outermost scope that does not bind the name, nothing is nearest. -/
theorem not_nearest (hs : h.own? s name = none) (hp : h.parent? s = none) :
    ¬ h.Nearest s name d := by
  intro hd
  obtain rfl | ⟨-, p, hp', -⟩ := hd.cases
  · have hsome := hd.isSome_own?
    rw [hs] at hsome
    cases hsome
  · rw [hp] at hp'
    cases hp'

/-! ## Looking names up -/

/-- Where going outwards stops is the nearest scope on the chain. -/
theorem Outward.nearest?_eq_some_iff (hh : h.Outward) :
    h.scopes.nearest? s name = some d ↔ h.Nearest s name d := by
  -- Along the chain; the last case is the stop at a scope that is not older, which cannot come up.
  fun_induction Store.nearest? h.scopes s name with
  | case1 s hs =>
      have hown : h.own? s name = none := by rw [own?, hs]; rfl
      have hparent : h.parent? s = none := by rw [parent?, hs]; rfl
      simpa using not_nearest hown hparent
  | case2 s scope hs hbound =>
      have hown : (h.own? s name).isSome = true := by rw [own?, hs]; exact hbound
      rw [hh.nearest_own hown, Option.some.injEq]
      exact eq_comm
  | case3 s scope hs hfree hparent =>
      have hown : h.own? s name = none := by
        rw [own?, hs]
        exact Option.not_isSome_iff_eq_none.mp hfree
      have hnone : h.parent? s = none := by rw [parent?, hs]; exact hparent
      simpa using not_nearest hown hnone
  | case4 s scope hs hfree p hparent hlt ih =>
      have hown : h.own? s name = none := by
        rw [own?, hs]
        exact Option.not_isSome_iff_eq_none.mp hfree
      have hp : h.parent? s = some p := by rw [parent?, hs]; exact hparent
      rw [ih, nearest_parent hown hp]
  | case5 s scope hs hfree p hparent hge =>
      have hp : h.parent? s = some p := by rw [parent?, hs]; exact hparent
      exact absurd (hh s p hp) hge

theorem Outward.lookup_eq_some_iff (hh : h.Outward) :
    h.lookup s name = some v ↔ ∃ d, h.Nearest s name d ∧ h.own? d name = some v := by
  simp only [← hh.nearest?_eq_some_iff]
  exact Option.bind_eq_some_iff

theorem Outward.nearest?_eq_none_iff (hh : h.Outward) :
    h.scopes.nearest? s name = none ↔ ¬ ∃ d, h.Nearest s name d := by
  simp only [← hh.nearest?_eq_some_iff, Option.eq_none_iff_forall_ne_some, not_exists, ne_eq]

/-! ## Changing one binding -/

/-- `h'` is `h` with another binding of one name in one scope. -/
structure Rebound (h h' : Heap) (d : Ref .scope) (name : String) (v : Value) : Prop where
  rest : { h' with scopes := h.scopes } = h
  size : h'.scopes.size = h.scopes.size
  parent : ∀ s, h'.parent? s = h.parent? s
  here : h'.own? d name = some v
  elsewhere : ∀ s name', s ≠ d ∨ name' ≠ name → h'.own? s name' = h.own? s name'

theorem rebound_declare (hs : s.index < h.scopes.size) (name : String) (v : Value) :
    h.Rebound (h.declare s name v) s name v where
  rest := rfl
  size := declare_scopes_size s name v
  parent s' := parent?_declare s s' name v
  here := own?_declare_self hs
  elsewhere _ _ hne := hne.elim own?_declare_of_scope_ne own?_declare_of_ne

namespace Rebound

variable {name' : String}

/-- A scope that bound the name keeps its place: the same scopes bind the same names. -/
theorem isSome_own? (hr : h.Rebound h' d name v) (hd : (h.own? d name).isSome = true)
    (s : Ref .scope) (name' : String) : (h'.own? s name').isSome = (h.own? s name').isSome := by
  by_cases hsame : s = d ∧ name' = name
  · obtain ⟨rfl, rfl⟩ := hsame
    rw [hr.here, hd]
    rfl
  · rw [hr.elsewhere s name' (Classical.not_and_iff_not_or_not.mp hsame)]

theorem chain_iff (hr : h.Rebound h' d name v) {chain : List (Ref .scope)} :
    h'.Chain s chain ↔ h.Chain s chain := by
  constructor
  · intro hc
    induction hc with
    | outermost hs => exact .outermost (hr.parent _ ▸ hs)
    | inside hp _ ih => exact .inside (hr.parent _ ▸ hp) ih
  · intro hc
    induction hc with
    | outermost hs => exact .outermost ((hr.parent _).trans hs)
    | inside hp _ ih => exact .inside ((hr.parent _).trans hp) ih

theorem nearest_iff (hr : h.Rebound h' d name v) (hd : (h.own? d name).isSome = true)
    {d' : Ref .scope} : h'.Nearest s name' d' ↔ h.Nearest s name' d' := by
  simp only [Nearest, hr.chain_iff, ← Option.isNone_iff_eq_none, ← Option.not_isSome,
    hr.isSome_own? hd]

/-- The new value is seen from the scopes from which the changed binding is the nearest. -/
theorem lookup_of_nearest (hr : h.Rebound h' d name v) (hd : (h.own? d name).isSome = true)
    (hh' : h'.Outward) (hs : h.Nearest s name d) : h'.lookup s name = some v :=
  hh'.lookup_eq_some_iff.mpr ⟨d, (hr.nearest_iff hd).mpr hs, hr.here⟩

/-- All else means what it did. -/
theorem lookup_of_not_nearest (hr : h.Rebound h' d name v) (hd : (h.own? d name).isSome = true)
    (hh : h.Outward) (hh' : h'.Outward) (hs : ¬ (name' = name ∧ h.Nearest s name d)) :
    h'.lookup s name' = h.lookup s name' := by
  apply Option.ext
  intro w
  rw [hh.lookup_eq_some_iff, hh'.lookup_eq_some_iff]
  refine exists_congr fun d' => ?_
  rw [hr.nearest_iff hd]
  refine and_congr_right fun hd' => ?_
  have hne : d' ≠ d ∨ name' ≠ name := by
    rw [← Classical.not_and_iff_not_or_not]
    rintro ⟨rfl, rfl⟩
    exact hs ⟨rfl, hd'⟩
  rw [hr.elsewhere d' name' hne]

end Rebound

/-- An assignment that reaches a scope changes the binding there. -/
theorem Outward.assign_of_nearest (hh : h.Outward) (hd : h.Nearest s name d) (v : Value) :
    (h.assign s name v).1 = .ok () ∧ h.Rebound (h.assign s name v).2 d name v := by
  obtain ⟨w, hw⟩ := Option.isSome_iff_exists.mp hd.isSome_own?
  have hnearest := hh.nearest?_eq_some_iff.mpr hd
  rw [Heap.assign, hnearest]
  exact ⟨rfl, rebound_declare (lt_size_of_own? hw) name v⟩

theorem Outward.assign_of_not_nearest (hh : h.Outward) (hs : ¬ ∃ d, h.Nearest s name d)
    (v : Value) : h.assign s name v = (.error .undefinedVariable, h) := by
  simp only [Heap.assign, hh.nearest?_eq_none_iff.mpr hs]

end Heap

open Heap

/-- **What names mean along a chain of scopes.** In every heap that comes of making scopes,
    declaring names and assigning to them: a scope is older than those inside it, and the chain of
    scopes around a scope ends. A name means what the nearest scope on the chain binds it to. An
    assignment succeeds if there is such a scope, and then changes the binding there and nothing
    else, so that the name means the new value from exactly the scopes from which that scope is the
    nearest; if there is none, it fails and changes nothing. A declaration changes the binding of
    the name in the scope itself and nothing else. -/
theorem scope_chain_semantics {h : Heap} (hh : h.ScopesMade) :
    (∀ s p, h.parent? s = some p → p.index < s.index)
    ∧ (∀ s, ∃ chain, h.Chain s chain ∧ ∀ chain', h.Chain s chain' → chain' = chain)
    ∧ (∀ s name v, h.lookup s name = some v ↔ ∃ d, h.Nearest s name d ∧ h.own? d name = some v)
    ∧ (∀ s name v, (h.assign s name v).1 = .ok () ↔ ∃ d, h.Nearest s name d)
    ∧ (∀ s name v d, h.Nearest s name d →
        h.Rebound (h.assign s name v).2 d name v
        ∧ ∀ s' name',
          (name' = name ∧ h.Nearest s' name d → (h.assign s name v).2.lookup s' name' = some v)
          ∧ (¬ (name' = name ∧ h.Nearest s' name d) →
            (h.assign s name v).2.lookup s' name' = h.lookup s' name'))
    ∧ (∀ s name v, (¬ ∃ d, h.Nearest s name d) →
        h.assign s name v = (.error .undefinedVariable, h))
    ∧ ∀ s name v, s.index < h.scopes.size → h.Rebound (h.declare s name v) s name v := by
  have hout := hh.outward
  refine ⟨hout, fun s => ?_, fun s name v => hout.lookup_eq_some_iff, fun s name v => ?_,
    fun s name v d hd => ?_, fun s name v hs => hout.assign_of_not_nearest hs v,
    fun s name v hs => rebound_declare hs name v⟩
  · obtain ⟨chain, hchain⟩ := hout.exists_chain s
    exact ⟨chain, hchain, fun _ hchain' => hchain'.unique hchain⟩
  · constructor
    · intro hok
      refine Classical.byContradiction fun hnone => ?_
      rw [hout.assign_of_not_nearest hnone v] at hok
      cases hok
    · rintro ⟨d, hd⟩
      exact (hout.assign_of_nearest hd v).1
  -- Chains stay as they are, so what is nearest before the assignment is so behind it.
  · have hr := (hout.assign_of_nearest hd v).2
    have hsome := hd.isSome_own?
    have hout' := hout.assign s name v
    refine ⟨hr, fun s' name' => ⟨?_, hr.lookup_of_not_nearest hsome hout hout'⟩⟩
    rintro ⟨rfl, hs'⟩
    exact hr.lookup_of_nearest hsome hout' hs'

/-- Three scopes, each inside the one before, of which the first two bind `x`. -/
def Heap.threeScopes : Heap :=
  let h := (Heap.empty.newScope none).2.declare ⟨0⟩ "x" (.bool true)
  let h := (h.newScope (some ⟨0⟩)).2.declare ⟨1⟩ "x" (.bool false)
  (h.newScope (some ⟨1⟩)).2

/-- An assignment to `x` in the innermost of the three scopes is seen in the scope in the middle,
    and not in the outermost one. -/
theorem scope_chain_semantics_threeScopes :
    Heap.threeScopes.ScopesMade ∧ Heap.threeScopes.Nearest ⟨2⟩ "x" ⟨1⟩
    ∧ (Heap.threeScopes.assign ⟨2⟩ "x" .nil).2.lookup ⟨1⟩ "x" = some .nil
    ∧ (Heap.threeScopes.assign ⟨2⟩ "x" .nil).2.lookup ⟨0⟩ "x" = some (.bool true) := by
  have hmade : Heap.threeScopes.ScopesMade :=
    .inside (.declare _ _ (.inside (.declare _ _ (.outermost (.start rfl)) (by decide))
      (by decide)) (by decide)) (by decide)
  have hout := hmade.outward
  have hmiddle : Heap.threeScopes.Nearest ⟨1⟩ "x" ⟨1⟩ := (hout.nearest_own rfl).mpr rfl
  have hinner : Heap.threeScopes.Nearest ⟨2⟩ "x" ⟨1⟩ := (nearest_parent rfl rfl).mpr hmiddle
  obtain ⟨-, -, hlookup, -, hassign, -⟩ := scope_chain_semantics hmade
  obtain ⟨-, hseen⟩ := hassign ⟨2⟩ "x" .nil ⟨1⟩ hinner
  refine ⟨hmade, hinner, (hseen ⟨1⟩ "x").1 ⟨rfl, hmiddle⟩, ?_⟩
  have houter : ¬ ("x" = "x" ∧ Heap.threeScopes.Nearest ⟨0⟩ "x" ⟨1⟩) := by
    rintro ⟨-, hd⟩
    exact absurd ((hout.nearest_own rfl).mp hd) (by decide)
  rw [(hseen ⟨0⟩ "x").2 houter]
  exact (hlookup ⟨0⟩ "x" (.bool true)).mpr ⟨⟨0⟩, (hout.nearest_own rfl).mpr rfl, rfl⟩

end Script
