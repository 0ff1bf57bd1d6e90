import Script.Eval.Expression

/-!
# `Eval.Statement` — running a statement in terms of its parts

A block runs in a scope of its own, and so does the handler of a `try` statement. The branches of an
`if` statement and the parts of a `while` or classic `for` loop run in the scope around them. A
`for … in` loop has one scope for all its rounds.
-/

namespace Script

/-- The rows that a `for … in` loop with `n` names goes through: one value for each name. -/
def Heap.rows (h : Heap) (n : Nat) : Value → Except Fault (List (List Value))
  | .list r =>
    if n = 1 then .ok ((h.elements r).toList.map ([·]))
    else (h.elements r).toList.mapM unpack
  | .dict r =>
    if 2 < n then .error .expectedIdentifiersDict
    else .ok ((h.dictionary r).toList.map fun e => if n = 1 then [e.1] else [e.1, e.2])
  | _ => .error .expectedCollection
where
  /-- The values of a list that has to be as long as there are names. -/
  unpack : Value → Except Fault (List Value)
    | .list inner =>
      if (h.elements inner).size = n then .ok (h.elements inner).toList
      else .error .wrongNumberOfValues
    | _ => .error .cannotUnpack

namespace Evaluator

open Step (inspect observe allocate change failAt blame ofExcept inLoop exhausted)

/-- Runs a loop while its condition holds, and `after` after each round. -/
def loop (condition : Step RuntimeError Value) (body : Step RuntimeError Flow)
    (after : Step RuntimeError Unit) : Nat → Step RuntimeError Flow
  | 0 => exhausted
  | n + 1 => do
    if (← condition).truthy then
      match ← body with
      | .returned v => return .returned v
      | .broke => return .run
      | _ => do
        after
        loop condition body after n
    else return .run

/-- Runs a body once for each row, with the names bound to the values of the row. -/
def eachRow (ev : Evaluator) (names : List String) (body : Stmt) (scope : Ref .scope) :
    List (List Value) → Step RuntimeError Flow
  | [] => pure .run
  | row :: rest => do
    change (·.declareAll scope (names.zip row))
    match ← ev.statement body scope with
    | .returned v => return .returned v
    | .broke => return .run
    | _ => ev.eachRow names body scope rest

/-- Runs the first branch whose condition holds, or else the last one. -/
def branches (ev : Evaluator) (elseBranch : Option (List Stmt)) (scope : Ref .scope) :
    List ElifBranch → Step RuntimeError Flow
  | [] =>
    match elseBranch with
    | some statements => ev.statements statements scope
    | none => pure .run
  | branch :: rest => do
    if (← ev.expression branch.condition scope).truthy then ev.statements branch.body scope
    else ev.branches elseBranch scope rest

/-- A value if there is an expression for it, else `nil`. -/
def optional (ev : Evaluator) (e : Option Expr) (scope : Ref .scope) : Step RuntimeError Value :=
  match e with
  | some e => ev.expression e scope
  | none => pure .nil

/-- Ends a round of a loop, which has to be open. -/
def leaveRound (keyword : Token) (flow : Flow) : Step RuntimeError Flow := do
  if ← observe (·.stack.insideLoop) then return flow
  else failAt .onlyAllowedInsideLoop keyword

/-- The class that another one extends, if it names one. -/
def superClass (c : ClassDecl) (scope : Ref .scope) : Step RuntimeError (Option (Ref .cls)) := do
  match c.superClass with
  | none => return none
  | some name =>
    match ← inspect (·.lookup scope name.lexeme) with
    | some (.cls r) => return some r
    | some _ => failAt .expectedClass c.name
    | none => failAt .undefinedVariable name

/-- The scope in which the methods of a class are made. It has `super` if there is a class above. -/
def methodScope (above : Option (Ref .cls)) (scope : Ref .scope) :
    Step RuntimeError (Ref .scope) := do
  match above with
  | none => return scope
  | some c =>
    let inner ← allocate (·.newScope (some scope))
    change (·.declare inner "super" (.cls c))
    return inner

/-- The methods of a class. Of two methods with the same name the later one counts. -/
def methods (initializers : Bool) (scope : Ref .scope) :
    List FunctionDecl → Bindings (Ref .function) → Step RuntimeError (Bindings (Ref .function))
  | [], table => pure table
  | d :: rest, table => do
    let ref ← allocate (·.newFunction ⟨d, scope, initializers && d.title == "init"⟩)
    methods initializers scope rest (table.set d.title ref)

/-- Declares a class. -/
def declareClass (c : ClassDecl) (scope : Ref .scope) : Step RuntimeError Flow := do
  let above ← superClass c scope
  let inner ← methodScope above scope
  let own ← methods true inner c.methods .empty
  let static ← methods false inner c.staticMethods .empty
  let ref ← allocate (·.newClass ⟨c.name.lexeme, above, own, static⟩)
  change (·.declare scope c.name.lexeme (.cls ref))
  return .run

/-- Runs a statement, given how to evaluate its parts. -/
def statementStep (ev : Evaluator) (s : Stmt) (scope : Ref .scope) : Step RuntimeError Flow :=
  match s with
  | .expr e => do
    let _ ← ev.expression e scope
    return .run
  | .tryCatch body name handler =>
    Step.rescue (ev.statement body scope) (!·.fault.isInternal) fun e => do
      let inner ← allocate (·.newScope (some scope))
      change (·.declare inner name.lexeme (.string e.fault.message))
      ev.statement handler inner
  | .forLoop _ initializer condition increment body => do
    match initializer with
    | some s => let _ ← ev.statement s scope
    | none => pure ()
    let after : Step RuntimeError Unit := do
      let _ ← ev.expression increment scope
      return ()
    inLoop (loop (ev.expression condition scope) (ev.statement body scope) after ev.rounds)
  | .forIn keyword identifiers collection body => do
    let c ← ev.expression collection scope
    let rows ← blame keyword (ofExcept (← inspect (·.rows identifiers.length c)))
    let inner ← allocate (·.newScope (some scope))
    inLoop (ev.eachRow (identifiers.map (·.lexeme)) body inner rows)
  | .declare name initializer => do
    let v ← ev.optional initializer scope
    change (·.declare scope name.lexeme v)
    return .run
  | .block statements => do
    let inner ← allocate (·.newScope (some scope))
    ev.statements statements inner
  | .whileLoop _ condition body =>
    inLoop (loop (ev.expression condition scope) (ev.statement body scope) (pure ()) ev.rounds)
  | .ret _ value => do return .returned (← ev.optional value scope)
  | .breakLoop keyword => leaveRound keyword .broke
  | .continueLoop keyword => leaveRound keyword .continued
  | .ifElse _ condition thenBranch elifs elseBranch => do
    if (← ev.expression condition scope).truthy then ev.statements thenBranch scope
    else ev.branches elseBranch scope elifs
  | .function d => do
    let v ← closure d scope
    change (·.declare scope d.title v)
    return .run
  | .cls c => declareClass c scope

end Evaluator

end Script
