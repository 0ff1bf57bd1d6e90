import Script.Run
import Script.Proofs.Evaluation.CallStack
import Script.Proofs.Parser.Exits

/-!
# `Proofs.Evaluation.LoopExits` — the parser and the evaluator agree on loops

The parser refuses an exit that no loop is open around, and the evaluator checks again when it meets
one. The two keep separate books: the parser's loops are those in the text, the evaluator's those
that are running. They agree (`accepted_exits_inside_loops`): in a run of an accepted source the
check of the evaluator never fails. The invariant has to hold of every function on the heap, since
a function may be called from a place with other loops than the one where it was written.
-/

namespace Script

/-- Whether a statement is an exit. -/
def Stmt.isExit : Stmt → Bool
  | .breakLoop _ | .continueLoop _ => true
  | _ => false

/-- An outcome that is no complaint about an exit outside of a loop. -/
def Outcome.AcceptsExits {α : Type} : Outcome RuntimeError α → Prop
  | .error e _ => e.fault ≠ .onlyAllowedInsideLoop
  | _ => True

/-- An outcome that does not leave a round of a loop: if it has a flow, the flow is `run` or
    `returned`. -/
def Outcome.RunsOrReturns : Outcome RuntimeError Flow → Prop
  | .ok .broke _ | .ok .continued _ => False
  | _ => True

/-- No evaluation complains about an exit. Where no loop is open, no exit is met and no statement
    leaves a round of a loop; and no body of a function does. -/
def Watch.exits : Watch where
  statement s m o := o.AcceptsExits
    ∧ (m.stack.insideLoop = false → s.isExit = false ∧ o.RunsOrReturns)
  expression _ _ o := o.AcceptsExits
  body _ _ o := o.AcceptsExits ∧ o.RunsOrReturns

theorem Outcome.Ends.acceptsExits {K : Heap → Prop} {σ : CallStack} {α : Type} {Q : α → Prop}
    {o : Outcome RuntimeError α} (h : o.Ends K σ Q (RuntimeError.Reportable True)) :
    o.AcceptsExits := by
  cases o with
  | error e m => exact h.2.2.2 trivial
  | ok a m => trivial
  | outOfFuel => trivial

theorem Outcome.Ends.runsOrReturns {K : Heap → Prop} {σ : CallStack}
    {o : Outcome RuntimeError Flow} {E : RuntimeError → Prop}
    (h : o.Ends K σ (Flow.LeavesOnly false) E) : o.RunsOrReturns := by
  cases o with
  | ok flow m =>
      obtain ⟨_, _, hflow⟩ := h
      cases flow with
      | broke => cases hflow
      | continued => cases hflow
      | run => trivial
      | returned v => trivial
  | error e m => trivial
  | outOfFuel => trivial

theorem Watch.exits_admits (limit : Nat) : Watch.exits.Admits True limit where
  statement := by
    intro s m o _ hs ho
    refine ⟨ho.acceptsExits, fun hloop => ?_⟩
    rw [hloop] at hs ho
    refine ⟨?_, ho.runsOrReturns⟩
    cases s with
    | breakLoop t => exact absurd (hs trivial) (by simp [Stmt.exitsPlaced])
    | continueLoop t => exact absurd (hs trivial) (by simp [Stmt.exitsPlaced])
    | _ => rfl
  expression _ _ ho := ho.acceptsExits
  body _ _ ho := ⟨ho.acceptsExits, ho.runsOrReturns⟩

/-- A run of a program in a new scope under a watch. -/
noncomputable def Watch.runProgram (w : Watch) (fuel : Nat) (settings : Settings) (world : World)
    (program : Program) : Outcome RuntimeError Unit :=
  let (scope, heap) := Heap.empty.newProgramScope settings.path
  (w.evaluator settings.maxCallDepth fuel).program program scope ⟨heap, .root, world⟩

/-- **Exits are only met inside loops.** A run of an accepted source, with any settings and any
    files to import from, goes the same way when it is watched for exits: no `break` or `continue`
    is ever met without a loop around it, so that is no error of any evaluation, also not of one
    under a `try`; a statement with no loop around it, such as those of the program itself and of
    the modules it imports, runs on or returns; and so does every body of a function. -/
theorem accepted_exits_inside_loops {source : String} {program : Program}
    (h : compile source = .ok program) (fuel : Nat) (settings : Settings) (world : World) :
    Watch.exits.runProgram fuel settings world program
        = runProgram fuel settings world program
      ∧ (runProgram fuel settings world program).AcceptsExits := by
  have hagree : Evaluator.Agree True settings.maxCallDepth
      (Watch.exits.evaluator settings.maxCallDepth fuel) (.withFuel settings.maxCallDepth fuel) :=
    Evaluator.agree_withFuel (Watch.exits_admits _) (fun _ _ _ => exitsPlaced_of_compile) fuel
  let start := Heap.empty.newProgramScope settings.path
  have hheap : start.2.ExitsPlaced True :=
    Heap.Functions.of_eq Heap.functions_empty (Heap.newProgramScope_functions _)
  have hprogram : Balanced True .root
      ((Watch.exits.evaluator settings.maxCallDepth fuel).program program start.1)
      ((settings.evaluator fuel).program program start.1) :=
    hagree.program CallStack.fits_root program fun _ => exitsPlaced_of_compile h
  obtain ⟨heq, hends⟩ := hprogram ⟨start.2, .root, world⟩ rfl hheap
  exact ⟨heq, (heq ▸ hends).acceptsExits⟩

/-- A function with a loop, called from a loop of its own, with exits under `try`. -/
theorem accepted_exits_inside_loops_nested :
    ∃ program,
      compile (
          "let f = fn(n) \x7b while true \x7b try break catch e \x7b\x7d \x7d \x7d\n"
            ++ "for i in [1, 2] \x7b f(i)\ncontinue \x7d\n") = .ok program
        ∧ Watch.exits.runProgram 40 {} .empty program = runProgram 40 {} .empty program :=
  Exists.imp (fun _ h => ⟨h, (accepted_exits_inside_loops h 40 {} .empty).1⟩)
    (exists_eq_ok (by decide +kernel))

end Script
