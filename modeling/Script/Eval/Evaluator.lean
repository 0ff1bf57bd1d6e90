import Script.Heap.Scope
import Script.Machine
import Script.Tree

/-!
# `Eval.Evaluator` — evaluating the parts of a node

Each kind of statement and expression is evaluated in terms of its parts. An `Evaluator` is a way
to evaluate the parts; `Script.Eval` ties the knot by taking, for the parts, the evaluator with one
unit of fuel less.
-/

namespace Script

/-- How a statement ends when it does not fail. -/
inductive Flow where
  | run
  | returned (value : Value)
  | broke
  | continued
  deriving DecidableEq

/-- What a call gives whose body ends so. -/
def Flow.value : Flow → Value
  | .returned v => v
  | _ => .nil

/-- A way to evaluate the parts of a node. -/
structure Evaluator where
  /-- The number of calls that may be open at once. -/
  limit : Nat
  /-- How often a loop may go round. -/
  rounds : Nat
  statement : Stmt → Ref .scope → Step RuntimeError Flow
  expression : Expr → Ref .scope → Step RuntimeError Value
  /-- Runs the body of a function in the scope of a call. -/
  body : FunctionBody → Ref .scope → Step RuntimeError Flow

namespace Evaluator

/-- Runs statements up to the first that does not simply run on. -/
def statements (ev : Evaluator) : List Stmt → Ref .scope → Step RuntimeError Flow
  | [], _ => pure .run
  | s :: rest, scope => do
    match ← ev.statement s scope with
    | .run => ev.statements rest scope
    | flow => pure flow

/-- Runs a program: statements up to the first `return`. -/
def program (ev : Evaluator) : Program → Ref .scope → Step RuntimeError Unit
  | [], _ => pure ()
  | s :: rest, scope => do
    match ← ev.statement s scope with
    | .returned _ => pure ()
    | _ => ev.program rest scope

/-- The values of expressions, evaluated from left to right. -/
def values (ev : Evaluator) : List Expr → Ref .scope → Step RuntimeError (List Value)
  | [], _ => pure []
  | e :: rest, scope => do
    let v ← ev.expression e scope
    let vs ← ev.values rest scope
    return v :: vs

/-- The values of the keys and values of a dictionary, evaluated in the order written. -/
def entries (ev : Evaluator) :
    List (Expr × Expr) → Ref .scope → Step RuntimeError (List (Value × Value))
  | [], _ => pure []
  | (key, value) :: rest, scope => do
    let k ← ev.expression key scope
    let v ← ev.expression value scope
    let es ← ev.entries rest scope
    return (k, v) :: es

end Evaluator

end Script
