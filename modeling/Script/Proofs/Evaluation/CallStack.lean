import Script.Proofs.Evaluation.Agreement

/-!
# `Proofs.Evaluation.CallStack` — the call stack during a run

The pass of `Proofs.Evaluation.Agreement` goes from the parts of a node to the node. Here it is
closed over the fuel (`agree_withFuel`): a watch that admits every balanced evaluation never stops
the evaluator. The main statement is `evaluation_balanced`: from any call stack within the limit
every evaluation leaves the stack as it was, whether it ends with a value or with an error; all
evaluations on the way start within the limit; and the evaluator never loses track of its frames.
-/

namespace Script

variable {placed : Prop} {limit : Nat} {ε α : Type}

/-! ## Closing the pass over the fuel -/

/-- A watch that has nothing against balanced evaluations within the limit. -/
structure Watch.Admits (w : Watch) (placed : Prop) (limit : Nat) : Prop where
  statement : ∀ {s m o}, m.stack.Fits limit → (placed → s.exitsPlaced m.stack.insideLoop = true) →
    o.Ends (Heap.ExitsPlaced placed) m.stack (Flow.LeavesOnly m.stack.insideLoop)
      (RuntimeError.Reportable placed) → w.statement s m o
  expression : ∀ {e m o}, m.stack.Fits limit → (placed → e.exitsPlaced = true) →
    o.Ends (Heap.ExitsPlaced placed) m.stack (fun _ => True) (RuntimeError.Reportable placed) →
    w.expression e m o
  body : ∀ {b m o}, m.stack.Fits limit → (placed → b.exitsPlaced = true) →
    o.Ends (Heap.ExitsPlaced placed) m.stack (Flow.LeavesOnly false)
      (RuntimeError.Reportable placed) → w.body b m o

theorem Evaluator.withFuel_zero (limit : Nat) :
    Evaluator.withFuel limit 0
      = ⟨limit, 0, fun _ _ _ => .outOfFuel, fun _ _ _ => .outOfFuel, fun _ _ _ => .outOfFuel⟩ :=
  rfl

/-- A watched evaluator agrees with the plain one if the watch admits balanced evaluations. -/
theorem Evaluator.agree_withFuel {w : Watch} (hw : w.Admits placed limit)
    (hmodules : placed → ∀ source program, compile source = .ok program →
      exitsPlacedBlock false program = true) (fuel : Nat) :
    Evaluator.Agree placed limit (w.evaluator limit fuel) (.withFuel limit fuel) := by
  induction fuel with
  | zero =>
      rw [Evaluator.withFuel_zero]
      exact ⟨rfl, rfl, rfl, hmodules, fun _ _ => .exhausted, fun _ _ => .exhausted,
        fun _ _ _ => .exhausted⟩
  | succ fuel ih =>
      refine ⟨rfl, rfl, rfl, hmodules, ?_, ?_, ?_⟩
      · intro σ s scope hσ hs m hm hK
        have hstep : Balanced placed σ
            ((w.evaluator limit fuel).statementStep s scope)
            ((Evaluator.withFuel limit fuel).statementStep s scope) _ := ih.statementStep hσ s hs
        obtain ⟨heq, hends⟩ := hstep m hm hK
        have hadmitted := hw.statement (s := s) (by rwa [hm]) (by rwa [hm]) (by rwa [hm])
        simp only [Watch.evaluator, Evaluator.withFuel, Outcome.onlyIf_of hadmitted]
        exact ⟨by rw [heq, runStatement_succ], hends⟩
      · intro σ e scope hσ he m hm hK
        have hstep : Balanced placed σ
            ((w.evaluator limit fuel).expressionStep e scope)
            ((Evaluator.withFuel limit fuel).expressionStep e scope) := ih.expressionStep hσ e he
        obtain ⟨heq, hends⟩ := hstep m hm hK
        have hadmitted := hw.expression (e := e) (by rwa [hm]) he (by rwa [hm])
        simp only [Watch.evaluator, Evaluator.withFuel, Outcome.onlyIf_of hadmitted]
        exact ⟨by rw [heq, evaluate_succ], hends⟩
      · intro σ b scope hσ hloop hb m hm hK
        have hstep : Balanced placed σ
            ((w.evaluator limit fuel).bodyStep b scope)
            ((Evaluator.withFuel limit fuel).bodyStep b scope) _ := ih.bodyStep hσ hloop b hb
        obtain ⟨heq, hends⟩ := hstep m hm hK
        have hadmitted := hw.body (b := b) (by rwa [hm]) hb (by rwa [hm])
        simp only [Watch.evaluator, Evaluator.withFuel, Outcome.onlyIf_of hadmitted]
        exact ⟨by rw [heq, runBody_succ], hends⟩

/-! ## Balance of arbitrary trees -/

/-- An outcome that leaves the call stack `σ` and is no fault of the evaluator's own. -/
def Outcome.Restores (σ : CallStack) : Outcome RuntimeError α → Prop
  | .ok _ m => m.stack = σ
  | .error e m => m.stack = σ ∧ e.fault.isInternal = false
  | .outOfFuel => True

theorem Outcome.Ends.restores {K : Heap → Prop} {σ : CallStack} {Q : α → Prop}
    {o : Outcome RuntimeError α} (h : o.Ends K σ Q (RuntimeError.Reportable placed)) :
    o.Restores σ := by
  cases o with
  | ok a m => exact h.1
  | error e m => exact ⟨h.1, h.2.2.1⟩
  | outOfFuel => trivial

/-- Every evaluation starts within the limit on calls and restores the call stack. -/
def Watch.balance (limit : Nat) : Watch where
  statement _ m o := m.stack.depth ≤ limit ∧ o.Restores m.stack
  expression _ m o := m.stack.depth ≤ limit ∧ o.Restores m.stack
  body _ m o := m.stack.depth ≤ limit ∧ o.Restores m.stack

theorem Watch.balance_admits (limit : Nat) : (Watch.balance limit).Admits placed limit where
  statement hσ _ ho := ⟨hσ.depth, ho.restores⟩
  expression hσ _ ho := ⟨hσ.depth, ho.restores⟩
  body hσ _ ho := ⟨hσ.depth, ho.restores⟩

/-- **Evaluation is balanced.** From a call stack with its root frame and within the limit on calls,
    the evaluation of any statement and of any expression restores the call stack and ends in no
    fault of the evaluator's own. So does every evaluation on the way, which moreover starts within
    the limit: watching for it makes no difference. -/
theorem evaluation_balanced (limit fuel : Nat) (m : Machine) (hroot : m.stack.frames ≠ [])
    (hdepth : m.stack.depth ≤ limit) (scope : Ref .scope) :
    (∀ s, (runStatement limit fuel s scope m).Restores m.stack
      ∧ ((Watch.balance limit).evaluator limit fuel).statement s scope m
        = runStatement limit fuel s scope m)
    ∧ ∀ e, (evaluate limit fuel e scope m).Restores m.stack
      ∧ ((Watch.balance limit).evaluator limit fuel).expression e scope m
        = evaluate limit fuel e scope m := by
  -- Nothing is assumed of the tree or of the functions on the heap: no exit has to be placed.
  have hagree : Evaluator.Agree False limit _ _ :=
    Evaluator.agree_withFuel (Watch.balance_admits limit) False.elim fuel
  have hheap : m.heap.ExitsPlaced False := fun _ _ _ hp => hp.elim
  have hfits : m.stack.Fits limit := ⟨hroot, hdepth⟩
  constructor
  · intro s
    have hs : Balanced False m.stack (_ : Step RuntimeError Flow) (runStatement limit fuel s scope) _ :=
      hagree.statement hfits False.elim
    obtain ⟨heq, hends⟩ := hs m rfl hheap
    exact ⟨(heq ▸ hends).restores, heq⟩
  · intro e
    have he : Balanced False m.stack (_ : Step RuntimeError Value) (evaluate limit fuel e scope) :=
      hagree.expression hfits False.elim
    obtain ⟨heq, hends⟩ := he m rfl hheap
    exact ⟨(heq ▸ hends).restores, heq⟩

/-- A call at the limit, inside two loops of a function: it fails, and the stack is as it was. -/
theorem evaluation_balanced_at_limit :
    let m : Machine := ⟨.empty, ⟨[⟨"f", 2⟩, ⟨"", 0⟩]⟩, .empty⟩
    let call : Expr := .call (.function ⟨none, [], .block []⟩) (.plain .rightParen ")" 1) []
    m.stack.frames ≠ [] ∧ m.stack.depth ≤ 1 ∧ (evaluate 1 3 call ⟨0⟩ m).Restores m.stack :=
  ⟨by decide, by decide,
    ((evaluation_balanced 1 3 _ (by decide) (by decide) ⟨0⟩).2 _).1⟩

end Script
