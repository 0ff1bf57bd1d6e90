import Script.Eval.Builtins
import Script.Heap.Class

/-!
# `Eval.Call` — calling functions, classes and builtins

A call runs the body of a function in a new scope inside the scope of the function, with the
parameters bound to the arguments. Calling a class makes an instance and runs its `init` method, if
it has one, bound to the instance.
-/

namespace Script

namespace Evaluator

open Step (inspect observe allocate change failAt blame inFunction)

/-- Runs the body of a function, given how to evaluate its parts. An expression is returned. -/
def bodyStep (ev : Evaluator) (b : FunctionBody) (scope : Ref .scope) : Step RuntimeError Flow :=
  match b with
  | .block statements => ev.statements statements scope
  | .expression e => do return .returned (← ev.expression e scope)

/-- Calls a function. An initializer gives the instance that it is bound to. -/
def callFunction (ev : Evaluator) (f : Function) (arguments : List Value) (token : Token) :
    Step RuntimeError Value := do
  if arguments.length ≠ f.declaration.parameters.length then
    failAt .invalidNumberOfArguments token
  else if ev.limit ≤ (← observe (·.stack.depth)) then failAt .maxRecursion token
  else
    let scope ← allocate (·.newScope (some f.closure))
    change (·.declareAll scope ((f.declaration.parameters.map (·.lexeme)).zip arguments))
    let flow ← inFunction f.declaration.title token (ev.body f.declaration.body scope)
    if f.isInitializer then
      match ← inspect (·.lookup f.closure "this") with
      | some this => return this
      | none => failAt .undefinedVariable token
    else return flow.value

/-- Makes an instance of a class. -/
def instantiate (ev : Evaluator) (c : Ref .cls) (arguments : List Value) (token : Token) :
    Step RuntimeError Value := do
  let instance_ ← allocate (·.newInstance c)
  match ← inspect (·.method? c "init") with
  | some init =>
    let bound ← allocate (·.bind init instance_)
    let _ ← ev.callFunction bound arguments token
    return .inst instance_
  | none =>
    if arguments.isEmpty then return .inst instance_
    else failAt .invalidNumberOfArguments token

/-- Calls a value. -/
def callValue (ev : Evaluator) (callee : Value) (arguments : List Value) (token : Token) :
    Step RuntimeError Value := do
  match callee with
  | .function r =>
    match ← inspect (·.functions.get? r) with
    | some f => ev.callFunction f arguments token
    | none => failAt .onlyFunctions token
  | .cls c => ev.instantiate c arguments token
  | .builtin r =>
    match ← inspect (·.builtins.get? r) with
    | some b => blame token (b.call ev arguments)
    | none => failAt .onlyFunctions token
  | _ => failAt .onlyFunctions token

end Evaluator

end Script
