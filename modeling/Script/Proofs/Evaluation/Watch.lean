import Script.Proofs.Evaluation.Course
import Script.Run

/-!
# `Proofs.Evaluation.Watch` — what happens in the course of a run

A run is one function application, so what happens *during* it cannot be read off its outcome. A
`Watch` makes it visible. It says which evaluations of a statement, an expression or a function
body are in order, given the machine at the start and the outcome. The watched evaluator does what
the plain one does, but as soon as an evaluation is not in order it stops as if out of fuel, which
nothing in a program can catch. So if the watched and the plain evaluator give the same outcome,
and it is not `outOfFuel`, then every evaluation on the way was in order: in the bodies of
functions, under a `try` that would have hidden an error, and in imported modules.

Parentheses apart, every node is evaluated as a part of another one, and a function is only ever
entered to evaluate its body, so these evaluations are all there is.
-/

namespace Script

/-- Which evaluations are in order: of a statement, an expression or the body of a function, from
    a machine, with an outcome. -/
structure Watch where
  statement : Stmt → Machine → Outcome RuntimeError Flow → Prop
  expression : Expr → Machine → Outcome RuntimeError Value → Prop
  body : FunctionBody → Machine → Outcome RuntimeError Flow → Prop

/-- An outcome if it is in order, and otherwise none. -/
noncomputable def Outcome.onlyIf {ε α : Type} (inOrder : Outcome ε α → Prop) (o : Outcome ε α) :
    Outcome ε α :=
  open Classical in if inOrder o then o else .outOfFuel

theorem Outcome.onlyIf_of {ε α : Type} {inOrder : Outcome ε α → Prop} {o : Outcome ε α}
    (h : inOrder o) : o.onlyIf inOrder = o := by
  simp [onlyIf, h]

/-- The evaluator with an amount of fuel that stops at the first evaluation out of order. -/
noncomputable def Watch.evaluator (w : Watch) (limit : Nat) : Nat → Evaluator
  | 0 => ⟨limit, 0, fun _ _ _ => .outOfFuel, fun _ _ _ => .outOfFuel, fun _ _ _ => .outOfFuel⟩
  | fuel + 1 =>
    { limit
      rounds := fuel + 1
      statement := fun s scope m =>
        ((w.evaluator limit fuel).statementStep s scope m).onlyIf (w.statement s m)
      expression := fun e scope m =>
        ((w.evaluator limit fuel).expressionStep e scope m).onlyIf (w.expression e m)
      body := fun b scope m =>
        ((w.evaluator limit fuel).bodyStep b scope m).onlyIf (w.body b m) }

/-- A watch for which everything is in order. -/
def Watch.idle : Watch := ⟨fun _ _ _ => True, fun _ _ _ => True, fun _ _ _ => True⟩

/-- The watched evaluator, with interruptions: where `stop` says so, the evaluation of an expression
    ends at once with an error. A run that would never end, or not within its fuel, is cut short in
    this way at any point, and what has happened up to there can be seen. -/
noncomputable def Watch.interrupted (w : Watch)
    (stop : Expr → Ref .scope → Machine → Option RuntimeError) (limit : Nat) : Nat → Evaluator
  | 0 => ⟨limit, 0, fun _ _ _ => .outOfFuel, fun _ _ _ => .outOfFuel, fun _ _ _ => .outOfFuel⟩
  | fuel + 1 =>
    { limit
      rounds := fuel + 1
      statement := fun s scope m =>
        ((w.interrupted stop limit fuel).statementStep s scope m).onlyIf (w.statement s m)
      expression := fun e scope m => (stop e scope m).elim
        (((w.interrupted stop limit fuel).expressionStep e scope m).onlyIf (w.expression e m))
        fun error => .error error m
      body := fun b scope m =>
        ((w.interrupted stop limit fuel).bodyStep b scope m).onlyIf (w.body b m) }

/-- Without a watch and without interruptions it is the evaluator itself. -/
theorem Watch.idle_interrupted (limit fuel : Nat) :
    Watch.idle.interrupted (fun _ _ _ => none) limit fuel = .withFuel limit fuel := by
  induction fuel with
  | zero => simp only [interrupted, Evaluator.withFuel, runStatement, evaluate, runBody]
  | succ fuel ih =>
      rw [interrupted, ih, Evaluator.withFuel]
      refine (Evaluator.mk.injEq ..).mpr ⟨rfl, rfl, ?_, ?_, ?_⟩
      · funext s scope m
        rw [runStatement_succ]
        exact Outcome.onlyIf_of trivial
      · funext e scope m
        rw [evaluate_succ]
        exact Outcome.onlyIf_of trivial
      · funext b scope m
        rw [runBody_succ]
        exact Outcome.onlyIf_of trivial

/-- A run of a program in a new scope under a watch, with interruptions. -/
noncomputable def Watch.runInterrupted (w : Watch)
    (stop : Expr → Ref .scope → Machine → Option RuntimeError) (fuel : Nat) (settings : Settings)
    (world : World) (program : Program) : Outcome RuntimeError Unit :=
  let (scope, heap) := Heap.empty.newProgramScope settings.path
  (w.interrupted stop settings.maxCallDepth fuel).program program scope ⟨heap, .root, world⟩

/-- Without a watch and without interruptions it is the run itself. -/
theorem Watch.idle_runInterrupted (fuel : Nat) (settings : Settings) (world : World)
    (program : Program) :
    Watch.idle.runInterrupted (fun _ _ _ => none) fuel settings world program
      = runProgram fuel settings world program := by
  unfold Watch.runInterrupted
  rw [Watch.idle_interrupted]
  rfl

/-- If two outcomes are the same and both are in order, then watching makes no difference to
    them. -/
theorem Outcome.Meets.onlyIf {ε α : Type} {c : Course} {σ : CallStack} {h : Heap}
    {Q : Heap → α → Prop} {o o' : Outcome ε α} {P P' : Outcome ε α → Prop} (ho : o.Meets c σ h Q)
    (heq : o = o') (hP : P o) (hP' : P' o') :
    o.onlyIf P = o'.onlyIf P' ∧ (o.onlyIf P).Meets c σ h Q := by
  rw [onlyIf_of hP, onlyIf_of hP']
  exact ⟨heq, ho⟩

end Script
