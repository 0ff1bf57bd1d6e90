import Script.Eval.Statement

/-!
# `Eval` — evaluation with fuel

Evaluating a node with `n + 1` units of fuel evaluates its parts with `n` units, and lets a loop go
round `n` times. Fuel is a bound and nothing else: an evaluation that ends within its fuel ends in
the same way with more.
-/

namespace Script

mutual

/-- Runs a statement in a scope. -/
def runStatement (limit : Nat) : Nat → Stmt → Ref .scope → Machine → Outcome RuntimeError Flow
  | 0, _, _, _ => .outOfFuel
  | fuel + 1, s, scope, m =>
    Evaluator.statementStep
      ⟨limit, fuel, fun s r m => runStatement limit fuel s r m,
        fun e r m => evaluate limit fuel e r m, fun b r m => runBody limit fuel b r m⟩ s scope m

/-- The value of an expression in a scope. -/
def evaluate (limit : Nat) : Nat → Expr → Ref .scope → Machine → Outcome RuntimeError Value
  | 0, _, _, _ => .outOfFuel
  | fuel + 1, e, scope, m =>
    Evaluator.expressionStep
      ⟨limit, fuel, fun s r m => runStatement limit fuel s r m,
        fun e r m => evaluate limit fuel e r m, fun b r m => runBody limit fuel b r m⟩ e scope m

/-- Runs the body of a function in the scope of a call. -/
def runBody (limit : Nat) : Nat → FunctionBody → Ref .scope → Machine → Outcome RuntimeError Flow
  | 0, _, _, _ => .outOfFuel
  | fuel + 1, b, scope, m =>
    Evaluator.bodyStep
      ⟨limit, fuel, fun s r m => runStatement limit fuel s r m,
        fun e r m => evaluate limit fuel e r m, fun b r m => runBody limit fuel b r m⟩ b scope m

end

/-- The evaluator with an amount of fuel. -/
def Evaluator.withFuel (limit fuel : Nat) : Evaluator :=
  ⟨limit, fuel, fun s r m => runStatement limit fuel s r m, fun e r m => evaluate limit fuel e r m,
    fun b r m => runBody limit fuel b r m⟩

theorem runStatement_succ (limit fuel : Nat) (s : Stmt) (scope : Ref .scope) (m : Machine) :
    runStatement limit (fuel + 1) s scope m
      = Evaluator.statementStep (.withFuel limit fuel) s scope m := by
  rw [runStatement]
  rfl

theorem evaluate_succ (limit fuel : Nat) (e : Expr) (scope : Ref .scope) (m : Machine) :
    evaluate limit (fuel + 1) e scope m
      = Evaluator.expressionStep (.withFuel limit fuel) e scope m := by
  rw [evaluate]
  rfl

theorem runBody_succ (limit fuel : Nat) (b : FunctionBody) (scope : Ref .scope) (m : Machine) :
    runBody limit (fuel + 1) b scope m
      = Evaluator.bodyStep (.withFuel limit fuel) b scope m := by
  rw [runBody]
  rfl

theorem Evaluator.withFuel_statement (limit fuel : Nat) (s : Stmt) (scope : Ref .scope) :
    (withFuel limit (fuel + 1)).statement s scope = (withFuel limit fuel).statementStep s scope :=
  funext fun m => runStatement_succ limit fuel s scope m

theorem Evaluator.withFuel_expression (limit fuel : Nat) (e : Expr) (scope : Ref .scope) :
    (withFuel limit (fuel + 1)).expression e scope = (withFuel limit fuel).expressionStep e scope :=
  funext fun m => evaluate_succ limit fuel e scope m

theorem Evaluator.withFuel_body (limit fuel : Nat) (b : FunctionBody) (scope : Ref .scope) :
    (withFuel limit (fuel + 1)).body b scope = (withFuel limit fuel).bodyStep b scope :=
  funext fun m => runBody_succ limit fuel b scope m

end Script
