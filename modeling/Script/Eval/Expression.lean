import Script.Eval.Access
import Script.Eval.Call
import Script.Eval.Property
import Script.Heap.Operators

/-!
# `Eval.Expression` — evaluating an expression in terms of its parts

Parts are evaluated from left to right; in an assignment the value comes before the target.
-/

namespace Script

namespace Evaluator

open Step (inspect allocate attempt failAt blame ofExcept fail)

/-- Finishes the application of an operator. -/
def finish (ev : Evaluator) (applied : Except Fault Applied) (token : Token) :
    Step RuntimeError Value := do
  let applied ← blame token (ofExcept applied)
  match ← allocate (·.carryOut applied) with
  | .resolved v => return v
  | .call callee arguments => ev.callValue callee arguments token

/-- An operator between two expressions. -/
def binary (ev : Evaluator) (left : Expr) (operator : Token) (right : Expr) (scope : Ref .scope) :
    Step RuntimeError Value := do
  let l ← ev.expression left scope
  let r ← ev.expression right scope
  match Operator.ofBinary? operator.kind with
  | some op => ev.finish (← inspect (·.binary op l r)) operator
  | none => failAt .undefinedOperation operator

/-- An operator before an expression. -/
def unary (ev : Evaluator) (operator : Token) (operand : Expr) (scope : Ref .scope) :
    Step RuntimeError Value := do
  let v ← ev.expression operand scope
  match operator.kind with
  | .kwNot => return .bool !v.truthy
  | .minus => ev.finish (← inspect (·.unary .neg v)) operator
  | _ => failAt .undefinedOperation operator

/-- `and` and `or`: the second side is evaluated only if the first does not decide. -/
def logical (ev : Evaluator) (left : Expr) (operator : Token) (right : Expr) (scope : Ref .scope) :
    Step RuntimeError Value := do
  let l := (← ev.expression left scope).truthy
  match operator.kind with
  | .kwOr => if l then return .bool true else return .bool (← ev.expression right scope).truthy
  | .kwAnd => if l then return .bool (← ev.expression right scope).truthy else return .bool false
  | _ => failAt .undefinedOperation operator

/-- Stores in a variable, or through an access. -/
def assign (ev : Evaluator) (name : Token) (value : Expr) (access : Option Access)
    (scope : Ref .scope) : Step RuntimeError Value := do
  let v ← ev.expression value scope
  match access with
  | some a => ev.store a v scope
  | none => blame name (attempt (·.assign scope name.lexeme v))
  return v

/-- Stores in a property, or through an access. -/
def set (ev : Evaluator) (object : Expr) (name : Token) (value : Expr) (access : Option Access)
    (scope : Ref .scope) : Step RuntimeError Value := do
  let o ← ev.expression object scope
  if isBare o then failAt .expectedObject name
  else
    let v ← ev.expression value scope
    match access with
    | some a => ev.store a v scope
    | none => setProperty o name v
    return v

/-- What a name means. -/
def meaning (name : String) (token : Token) (scope : Ref .scope) : Step RuntimeError Value := do
  match ← inspect (·.lookup scope name) with
  | some v => return v
  | none => failAt .undefinedVariable token

/-- A function made in a scope. -/
def closure (declaration : FunctionDecl) (scope : Ref .scope) : Step RuntimeError Value := do
  return .function (← allocate (·.newFunction ⟨declaration, scope, false⟩))

/-- Evaluates an expression, given how to evaluate its parts. Parentheses take no fuel. -/
def expressionStep (ev : Evaluator) : Expr → Ref .scope → Step RuntimeError Value
  | .list elements _, scope => do
    let vs ← ev.values elements scope
    allocate (·.newList vs.toArray)
  | .dict entries brace, scope => do
    let es ← ev.entries entries scope
    let dict ← blame brace (ofExcept (Dict.ofEntries es))
    allocate (·.newDict dict)
  | .assign name value access, scope => ev.assign name value access scope
  | .access a, scope => ev.read a scope
  | .binary left operator right, scope => ev.binary left operator right scope
  | .call callee paren arguments, scope => do
    let f ← ev.expression callee scope
    let vs ← ev.values arguments scope
    ev.callValue f vs paren
  | .get object name, scope => do property (← ev.expression object scope) name
  | .set object name value access, scope => ev.set object name value access scope
  | .super keyword method, scope => superMethod keyword method scope
  | .grouping inner, scope => expressionStep ev inner scope
  | .literal value, _ => pure value.value
  | .logical left operator right, scope => ev.logical left operator right scope
  | .this keyword, scope => meaning "this" keyword scope
  | .unary operator operand, scope => ev.unary operator operand scope
  | .var name, scope => meaning name.lexeme name scope
  | .function declaration, scope => closure declaration scope

end Evaluator

end Script
