import Script.Proofs.Evaluation.Weakening

/-!
# `Proofs.Evaluation.FreshVariables` — a part of an expression under a name of its own

To evaluate a part of an expression first, and to give its value a name, changes an expression into
another one that is evaluated with one more variable. This module has what such changes are stated
with: evaluations that come to an end (`Evaluates`), declarations in front of them
(`EvaluatesAfter`), names that neither the expression nor a function on the heap can see (`Fresh`),
and ends that are the same but for such names (`EndsAlike`).

A fresh variable does not change what an expression comes to (`Evaluates.beside`), and an expression
with a value ends as the variable that has it does (`EndsBeside.of_values`).
-/

namespace Script

variable {limit : Nat} {scope : Ref .scope}

/-! ## Evaluations that come to an end -/

/-- The evaluation comes to an end, given enough fuel. -/
def Evaluates (limit : Nat) (e : Expr) (scope : Ref .scope) (m : Machine)
    (out : Outcome RuntimeError Value) : Prop :=
  out ≠ .outOfFuel ∧ ∃ fuel, evaluate limit fuel e scope m = out

/-- The declaration `let t = o` and then an expression. -/
def evaluateAfter (limit fuel : Nat) (t : Token) (o e : Expr) (scope : Ref .scope) :
    Step RuntimeError Value := do
  let _ ← (Evaluator.withFuel limit fuel).statement (.declare t (some o)) scope
  (Evaluator.withFuel limit fuel).expression e scope

/-- The declaration `let t = o` and then the evaluation of `e` come to an end, given enough fuel. -/
def EvaluatesAfter (limit : Nat) (t : Token) (o e : Expr) (scope : Ref .scope) (m : Machine)
    (out : Outcome RuntimeError Value) : Prop :=
  out ≠ .outOfFuel ∧ ∃ fuel, evaluateAfter limit fuel t o e scope m = out

/-- The machine in which the scope binds one more name. -/
def Machine.declare (m : Machine) (scope : Ref .scope) (name : String) (v : Value) : Machine :=
  { m with heap := m.heap.declare scope name v }

namespace Evaluates

variable {e : Expr} {m : Machine} {out out' : Outcome RuntimeError Value}

theorem of_ne {fuel : Nat} (h : evaluate limit fuel e scope m ≠ .outOfFuel) :
    Evaluates limit e scope m (evaluate limit fuel e scope m) := ⟨h, fuel, rfl⟩

/-- Once there is enough fuel, there is enough. -/
theorem eventually (h : Evaluates limit e scope m out) :
    ∃ n, ∀ fuel, n ≤ fuel → evaluate limit fuel e scope m = out := by
  obtain ⟨hends, n, rfl⟩ := h
  exact ⟨n, fun fuel hle => evaluate_mono hle hends⟩

/-- An evaluation has one end, however much fuel it is given. -/
theorem unique (h : Evaluates limit e scope m out) (h' : Evaluates limit e scope m out') :
    out = out' := by
  obtain ⟨n, hn⟩ := h.eventually
  obtain ⟨n', hn'⟩ := h'.eventually
  rw [← hn (max n n') (Nat.le_max_left ..), hn' (max n n') (Nat.le_max_right ..)]

/-- With any fuel there is too little or the outcome is the same. -/
theorem eq_of_ne (h : Evaluates limit e scope m out) {fuel : Nat}
    (hends : evaluate limit fuel e scope m ≠ .outOfFuel) : evaluate limit fuel e scope m = out :=
  (of_ne hends).unique h

end Evaluates

/-- A variable of the scope itself needs one unit of fuel and changes nothing. -/
theorem evaluate_var {m : Machine} {t : Token} {u : Value}
    (h : m.heap.own? scope t.lexeme = some u) (fuel : Nat) :
    evaluate limit (fuel + 1) (.var t) scope m = .ok u m := by
  rw [evaluate_succ]
  unfold Evaluator.expressionStep Evaluator.meaning
  simp only [Step.bind_apply, Step.inspect, Heap.lookup_of_own? h]
  rfl

/-- A variable of the scope comes to what the scope has for it. -/
theorem Evaluates.var {m : Machine} {t : Token} {u : Value}
    (h : m.heap.own? scope t.lexeme = some u) : Evaluates limit (.var t) scope m (.ok u m) :=
  ⟨by simp, 1, evaluate_var h 0⟩

/-- A declaration evaluates what it declares with less fuel by one, and binds the name. -/
theorem evaluateAfter_succ (limit fuel : Nat) (t : Token) (o e : Expr) (scope : Ref .scope)
    (m : Machine) :
    evaluateAfter limit (fuel + 1) t o e scope m = match evaluate limit fuel o scope m with
      | .ok u m₁ => evaluate limit (fuel + 1) e scope (m₁.declare scope t.lexeme u)
      | .error error m₁ => .error error m₁
      | .outOfFuel => .outOfFuel := by
  have hdeclare : (Evaluator.withFuel limit (fuel + 1)).statement (.declare t (some o)) scope m
      = ((Evaluator.withFuel limit fuel).expression o scope >>= fun u =>
        Step.change (·.declare scope t.lexeme u) >>= fun _ => pure Flow.run) m :=
    congrFun (Evaluator.withFuel_statement ..) m
  have hobject : evaluate limit fuel o scope m
      = (Evaluator.withFuel limit fuel).expression o scope m := rfl
  rw [evaluateAfter, Step.bind_apply, hdeclare, Step.bind_apply, hobject]
  cases (Evaluator.withFuel limit fuel).expression o scope m <;> rfl

/-- `let t = o` evaluates `o`, and then there is the variable. -/
theorem evaluatesAfter_iff {t : Token} {o e : Expr} {m : Machine}
    {out : Outcome RuntimeError Value} :
    EvaluatesAfter limit t o e scope m out ↔
      (∃ error m₁, Evaluates limit o scope m (.error error m₁) ∧ out = .error error m₁)
      ∨ ∃ u m₁, Evaluates limit o scope m (.ok u m₁)
        ∧ Evaluates limit e scope (m₁.declare scope t.lexeme u) out := by
  constructor
  · rintro ⟨hends, fuel, hfuel⟩
    cases fuel with
    | zero => exact absurd hfuel.symm hends
    | succ fuel =>
        rw [evaluateAfter_succ] at hfuel
        cases ho : evaluate limit fuel o scope m with
        | ok u m₁ =>
            rw [ho] at hfuel
            exact .inr ⟨u, m₁, ⟨by simp, fuel, ho⟩, hends, fuel + 1, hfuel⟩
        | error error m₁ =>
            rw [ho] at hfuel
            exact .inl ⟨error, m₁, ⟨by simp, fuel, ho⟩, hfuel.symm⟩
        | outOfFuel =>
            rw [ho] at hfuel
            exact absurd hfuel.symm hends
  · rintro (⟨error, m₁, ho, rfl⟩ | ⟨u, m₁, ho, he⟩)
    · obtain ⟨hends, fuel, hfuel⟩ := ho
      exact ⟨hends, fuel + 1, by rw [evaluateAfter_succ, hfuel]⟩
    -- The two may need different amounts of fuel, and the greater one is enough for both.
    · obtain ⟨n, hn⟩ := ho.eventually
      obtain ⟨n', hn'⟩ := he.eventually
      refine ⟨he.1, max n n' + 1, ?_⟩
      rw [evaluateAfter_succ, hn _ (Nat.le_max_left ..)]
      exact hn' _ (Nat.le_succ_of_le (Nat.le_max_right ..))

/-! ## The same but for some variables -/

/-- The heap without some variables of a scope. -/
def Heap.withoutAll (h : Heap) (scope : Ref .scope) (ts : List String) : Heap :=
  ts.foldl (·.without scope ·) h

/-- It does not matter which of two variables is taken away first. -/
theorem Heap.without_comm (h : Heap) (scope : Ref .scope) (t t' : String) :
    (h.without scope t).without scope t' = (h.without scope t').without scope t := by
  simp only [without, Store.modify_modify, Bindings.without, List.filter_filter, Bool.and_comm]

theorem Heap.withoutAll_append (h : Heap) (scope : Ref .scope) (ts us : List String) :
    h.withoutAll scope (ts ++ us) = (h.withoutAll scope ts).withoutAll scope us :=
  List.foldl_append

/-- It does not matter which variables go first. -/
theorem Heap.withoutAll_comm (h : Heap) (scope : Ref .scope) (ts us : List String) :
    (h.withoutAll scope ts).withoutAll scope us = (h.withoutAll scope us).withoutAll scope ts := by
  rw [← withoutAll_append, ← withoutAll_append]
  exact List.perm_append_comm.foldl_eq' (fun t _ t' _ h => h.without_comm scope t t') h

/-- Machines that are the same but for some variables of a scope. -/
structure Machine.SameBut (scope : Ref .scope) (ts : List String) (m m' : Machine) : Prop where
  heap : m.heap.withoutAll scope ts = m'.heap.withoutAll scope ts
  stack : m.stack = m'.stack
  world : m.world = m'.world

/-- The same value or the same error, in machines that are the same but for some variables. -/
inductive Outcome.SameBut (scope : Ref .scope) (ts : List String) :
    Outcome RuntimeError Value → Outcome RuntimeError Value → Prop
  | ok {v m m'} : m.SameBut scope ts m' → SameBut scope ts (.ok v m) (.ok v m')
  | error {e m m'} : m.SameBut scope ts m' → SameBut scope ts (.error e m) (.error e m')

section SameBut

variable {ts us : List String} {m m' m'' : Machine} {out out' out'' : Outcome RuntimeError Value}

theorem Machine.SameBut.symm (h : m.SameBut scope ts m') : m'.SameBut scope ts m :=
  ⟨h.heap.symm, h.stack.symm, h.world.symm⟩

/-- First the same but for some variables, and then but for some others. -/
theorem Machine.SameBut.trans (h : m.SameBut scope ts m') (h' : m'.SameBut scope us m'') :
    m.SameBut scope (ts ++ us) m'' where
  heap := by
    rw [Heap.withoutAll_append, h.heap, Heap.withoutAll_comm, h'.heap, Heap.withoutAll_comm,
      Heap.withoutAll_append]
  stack := h.stack.trans h'.stack
  world := h.world.trans h'.world

theorem Outcome.SameBut.symm (h : out.SameBut scope ts out') : out'.SameBut scope ts out := by
  cases h with
  | ok hm => exact .ok hm.symm
  | error hm => exact .error hm.symm

/-- Differences add up: the variables of both may be different at the end. -/
theorem Outcome.SameBut.trans (h : out.SameBut scope ts out') (h' : out'.SameBut scope us out'') :
    out.SameBut scope (ts ++ us) out'' := by
  cases h with
  | ok hm =>
      cases h' with
      | ok hm' => exact .ok (hm.trans hm')
  | error hm =>
      cases h' with
      | error hm' => exact .error (hm.trans hm')

/-- An evaluation that comes to an end is the same but for nothing. -/
theorem Outcome.SameBut.refl (hends : out ≠ .outOfFuel) : out.SameBut scope ts out := by
  cases out with
  | ok v m => exact .ok ⟨rfl, rfl, rfl⟩
  | error error m => exact .error ⟨rfl, rfl, rfl⟩
  | outOfFuel => exact absurd rfl hends

theorem Machine.Beside.sameBut {x : Aside} (h : m.Beside (some x) m') :
    m.SameBut x.scope [x.name] m' := ⟨h.heap.1, h.stack, h.world⟩

/-- What ends beside another run ends the same but for the variable. -/
theorem Outcome.Beside.sameBut {x : Aside} {Q : Value → Prop} (h : out.Beside (some x) Q out')
    (hends : out ≠ .outOfFuel) : out' ≠ .outOfFuel ∧ out.SameBut x.scope [x.name] out' := by
  cases h with
  | ok _ hm => exact ⟨by simp, .ok hm.sameBut⟩
  | error hm => exact ⟨by simp, .error hm.sameBut⟩
  | outOfFuel => exact absurd rfl hends

end SameBut

/-- Either can end as the other does, the same but for some variables of a scope. -/
structure EndsAlike (scope : Ref .scope) (ts : List String)
    (ends ends' : Outcome RuntimeError Value → Prop) : Prop where
  there : ∀ out, ends out → ∃ out', ends' out' ∧ out.SameBut scope ts out'
  back : ∀ out', ends' out' → ∃ out, ends out ∧ out.SameBut scope ts out'

/-- From one to the next, where the variables of both are allowed to differ. -/
theorem EndsAlike.trans {ts us : List String} {a b c : Outcome RuntimeError Value → Prop}
    (h : EndsAlike scope ts a b) (h' : EndsAlike scope us b c) :
    EndsAlike scope (ts ++ us) a c where
  there out ha := by
    obtain ⟨mid, hb, hsame⟩ := h.there out ha
    obtain ⟨out', hc, hsame'⟩ := h'.there mid hb
    exact ⟨out', hc, hsame.trans hsame'⟩
  back out' hc := by
    obtain ⟨mid, hb, hsame'⟩ := h'.back out' hc
    obtain ⟨out, ha, hsame⟩ := h.back mid hb
    exact ⟨out, ha, hsame.trans hsame'⟩

/-- What begins with `o` ends as `let t = o` and `e` do, if it does once `o` has a value. -/
theorem EndsAlike.after {ts : List String} {ends : Outcome RuntimeError Value → Prop} {t : Token}
    {o e : Expr} {m : Machine}
    (hobject : ∀ {out}, ends out → ∃ object, Evaluates limit o scope m object)
    (herror : ∀ {error n}, Evaluates limit o scope m (.error error n) →
      ∀ out, ends out ↔ out = .error error n)
    (hvalue : ∀ {u n}, Evaluates limit o scope m (.ok u n) →
      EndsAlike scope ts ends (Evaluates limit e scope (n.declare scope t.lexeme u))) :
    EndsAlike scope ts ends (EvaluatesAfter limit t o e scope m) where
  there out h := by
    obtain ⟨object, ho⟩ := hobject h
    cases object with
    | outOfFuel => exact absurd rfl ho.1
    | error error n =>
        cases (herror ho out).mp h
        exact ⟨_, evaluatesAfter_iff.mpr (.inl ⟨error, n, ho, rfl⟩), .refl (by simp)⟩
    | ok u n =>
        obtain ⟨out', h', hsame⟩ := (hvalue ho).there out h
        exact ⟨out', evaluatesAfter_iff.mpr (.inr ⟨u, n, ho, h'⟩), hsame⟩
  back out' h' := by
    obtain ⟨error, n, ho, rfl⟩ | ⟨u, n, ho, h'⟩ := evaluatesAfter_iff.mp h'
    · exact ⟨_, (herror ho _).mpr rfl, .refl (by simp)⟩
    · exact (hvalue ho).back out' h'

/-! ## Two expressions that come to the same -/

section Beside

variable {σ : Option Aside} {e e' : Expr} {m m' : Machine} {d : Nat}

/-- With any fuel for the left one, and `d` more for the right one, the expressions end beside each
    other. -/
def EndsBeside (limit : Nat) (σ : Option Aside) (scope : Ref .scope) (d : Nat) (e e' : Expr)
    (m m' : Machine) : Prop :=
  ∀ fuel, (evaluate limit fuel e scope m).Beside σ (fun _ => True)
    (evaluate limit (fuel + d) e' scope m')

namespace EndsBeside

/-- Only fuel for one step and more has to be looked at. -/
theorem of_succ (h : ∀ fuel, ((Evaluator.withFuel limit fuel).expressionStep e scope m).Beside σ
      (fun _ => True) ((Evaluator.withFuel limit (fuel + d)).expressionStep e' scope m')) :
    EndsBeside limit σ scope d e e' m m' := by
  intro fuel
  cases fuel with
  | zero => exact .outOfFuel
  | succ fuel =>
      rw [Nat.add_right_comm, evaluate_succ, evaluate_succ]
      exact h fuel

/-- An expression that does not mention the variable ends beside itself. -/
theorem of_unaware (he : Unaware σ scope e.nodes) (hm : m.Beside σ m') :
    EndsBeside limit σ scope d e e m m' := fun fuel =>
  (Evaluator.beside_withFuel limit (Nat.le_add_right fuel d)).expression he m m' hm

/-- Two expressions that come to the same value, given that much more fuel for the right one. -/
theorem of_values {u : Value} {n n' : Machine} (h : Evaluates limit e scope m (.ok u n))
    (h' : Evaluates limit e' scope m' (.ok u n')) (hn : n.Beside σ n') :
    ∃ d, EndsBeside limit σ scope d e e' m m' := by
  obtain ⟨d, hd⟩ := h'.eventually
  refine ⟨d, fun fuel => ?_⟩
  by_cases hends : evaluate limit fuel e scope m = .outOfFuel
  · rw [hends]
    exact .outOfFuel
  · rw [h.eq_of_ne hends, hd _ (Nat.le_add_left d fuel)]
    exact .ok trivial hn

end EndsBeside

/-- What comes to an end on the left comes to the same end on the right. -/
theorem Evaluates.beside {x : Aside} (hx : EndsBeside limit (some x) scope d e e' m m')
    {out : Outcome RuntimeError Value} (h : Evaluates limit e scope m out) :
    ∃ out', Evaluates limit e' scope m' out' ∧ out.Beside (some x) (fun _ => True) out' := by
  obtain ⟨hends, fuel, rfl⟩ := h
  exact ⟨_, .of_ne ((hx fuel).sameBut hends).1, hx fuel⟩

end Beside

/-! ## A fresh variable -/

/-- The scope is there, and neither the parts nor a function on the heap that sees it mention the
    name. -/
structure Fresh (t : String) (scope : Ref .scope) (h : Heap) (ns : List Node) : Prop where
  present : scope.index < h.scopes.size
  ne_this : t ≠ "this"
  ne_super : t ≠ "super"
  parts : Unmentioned t ns
  functions : ∀ f, h.Stored f → h.Away scope f.closure ∨ Unmentioned t f.declaration.nodes

namespace Fresh

variable {t : String} {h : Heap} {ns : List Node} {m m₁ : Machine} {e : Expr} {u : Value}

/-- The variable and what it stands for in two runs. -/
def aside (hfresh : Fresh t scope h ns) (left right : Option Value) : Aside :=
  ⟨scope, t, left, right, fun _ => False, hfresh.ne_this, hfresh.ne_super⟩

theorem sound (hfresh : Fresh t scope h ns) (left right : Option Value) :
    (hfresh.aside left right).Sound h :=
  ⟨hfresh.present, fun _ hr => hr.elim, hfresh.functions⟩

theorem unaware (hfresh : Fresh t scope h ns) (left right : Option Value) :
    Unaware (some (hfresh.aside left right)) scope ns :=
  avoids_some.mpr (.inr hfresh.parts)

/-- An evaluation leaves a fresh name fresh: it runs beside itself. -/
theorem after (hfresh : Fresh t scope m.heap ns)
    (he : Unaware (some (hfresh.aside (m.heap.own? scope t) (m.heap.own? scope t))) scope e.nodes)
    (hends : Evaluates limit e scope m (.ok u m₁)) : Fresh t scope m₁.heap ns := by
  obtain ⟨_, -, hsame⟩ :=
    hends.beside (.of_unaware (d := 0) he ⟨⟨rfl, hfresh.sound _ _, rfl, rfl⟩, rfl, rfl⟩)
  cases hsame with
  | ok _ hm₁ =>
      have hx := hm₁.heap.2.1
      exact ⟨hx.scope, hfresh.ne_this, hfresh.ne_super, hfresh.parts, hx.functions⟩

/-- With the variable and without it. -/
theorem beside_declare (hfresh : Fresh t scope m.heap ns) (u : Value) :
    m.Beside (some (hfresh.aside (m.heap.own? scope t) (some u))) (m.declare scope t u)
      ∧ (m.declare scope t u).Beside (some (hfresh.aside (some u) (m.heap.own? scope t))) m := by
  have hdrop : m.heap.without scope t = (m.heap.declare scope t u).without scope t :=
    (Heap.without_declare ..).symm
  have hown : (m.heap.declare scope t u).own? scope t = some u :=
    Heap.own?_declare_self hfresh.present
  refine ⟨⟨⟨hdrop, hfresh.sound _ _, rfl, hown⟩, rfl, rfl⟩, ⟨⟨hdrop.symm, ?_, hown, rfl⟩, rfl, rfl⟩⟩
  exact Heap.Beside.sound_right (x := hfresh.aside (some u) (m.heap.own? scope t)) hdrop
    (hfresh.sound _ _)

/-- A fresh name stays fresh when another one is declared. -/
theorem declare (hfresh : Fresh t scope h ns) {name : String} (hne : name ≠ t) (v : Value) :
    Fresh t scope (h.declare scope name v) ns := by
  have hx : (hfresh.aside none none).Sound (h.declare scope name v) :=
    ((hfresh.sound none none).declare (.inr hne) v).sound
  exact ⟨hx.scope, hfresh.ne_this, hfresh.ne_super, hfresh.parts, hx.functions⟩

/-- An evaluation leaves the value of a fresh variable as it is. -/
theorem own?_after (hfresh : Fresh t scope m.heap ns)
    (he : Unaware (some (hfresh.aside (some u) (m.heap.own? scope t))) scope e.nodes) {v : Value}
    (hends : Evaluates limit e scope (m.declare scope t u) (.ok v m₁)) :
    m₁.heap.own? scope t = some u := by
  obtain ⟨_, -, hsame⟩ := hends.beside (.of_unaware (d := 0) he (hfresh.beside_declare u).2)
  cases hsame with
  | ok _ hm₁ => exact hm₁.heap.2.2.1

end Fresh

end Script
