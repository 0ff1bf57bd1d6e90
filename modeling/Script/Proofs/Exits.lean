import Script.Tree

/-!
# `Proofs.Exits` — where `break` and `continue` stand

An exit (`break` or `continue`) is *placed* if it stands inside a loop of the function that it is
in. A function starts afresh: a loop around it does not count for the exits in its body. The
parser sees to it that all exits are placed, and the evaluator relies on it.
-/

namespace Script

mutual

/-- Whether every exit in an expression is placed. Exits are found in the bodies of functions. -/
def Expr.exitsPlaced : Expr → Bool
  | .list elements _ => exitsPlacedAll elements
  | .dict entries _ => exitsPlacedEntries entries
  | .assign _ value access => value.exitsPlaced && exitsPlacedAccess? access
  | .access a => a.exitsPlaced
  | .binary left _ right => left.exitsPlaced && right.exitsPlaced
  | .call callee _ arguments => callee.exitsPlaced && exitsPlacedAll arguments
  | .get object _ => object.exitsPlaced
  | .set object _ value access =>
    object.exitsPlaced && value.exitsPlaced && exitsPlacedAccess? access
  | .super _ _ => true
  | .grouping inner => inner.exitsPlaced
  | .literal _ => true
  | .logical left _ right => left.exitsPlaced && right.exitsPlaced
  | .this _ => true
  | .unary _ operand => operand.exitsPlaced
  | .var _ => true
  | .function d => d.exitsPlaced

/-- Whether every exit in expressions is placed. -/
def exitsPlacedAll : List Expr → Bool
  | [] => true
  | e :: rest => e.exitsPlaced && exitsPlacedAll rest

/-- Whether every exit in the entries of a dictionary is placed. -/
def exitsPlacedEntries : List (Expr × Expr) → Bool
  | [] => true
  | (key, value) :: rest => key.exitsPlaced && value.exitsPlaced && exitsPlacedEntries rest

/-- Whether every exit in an expression that may be missing is placed. -/
def exitsPlaced? : Option Expr → Bool
  | none => true
  | some e => e.exitsPlaced

/-- Whether every exit in an access is placed. -/
def Access.exitsPlaced : Access → Bool
  | ⟨object, _, first, _, second, _, third⟩ =>
    object.exitsPlaced && exitsPlaced? first && exitsPlaced? second && exitsPlaced? third

/-- Whether every exit in an access that may be missing is placed. -/
def exitsPlacedAccess? : Option Access → Bool
  | none => true
  | some a => a.exitsPlaced

/-- Whether every exit in a function is placed. No loop around the function counts. -/
def FunctionDecl.exitsPlaced : FunctionDecl → Bool
  | ⟨_, _, body⟩ => body.exitsPlaced

/-- Whether every exit in the body of a function is placed. -/
def FunctionBody.exitsPlaced : FunctionBody → Bool
  | .block statements => exitsPlacedBlock false statements
  | .expression e => e.exitsPlaced

/-- Whether every exit in a statement is placed, given whether a loop is open around it. -/
def Stmt.exitsPlaced (loop : Bool) : Stmt → Bool
  | .expr e => e.exitsPlaced
  | .tryCatch body _ handler => body.exitsPlaced loop && handler.exitsPlaced loop
  | .forLoop _ initializer condition increment body =>
    exitsPlacedStmt? loop initializer && condition.exitsPlaced && increment.exitsPlaced
      && body.exitsPlaced true
  | .forIn _ _ collection body => collection.exitsPlaced && body.exitsPlaced true
  | .declare _ initializer => exitsPlaced? initializer
  | .block statements => exitsPlacedBlock loop statements
  | .whileLoop _ condition body => condition.exitsPlaced && body.exitsPlaced true
  | .ret _ value => exitsPlaced? value
  | .breakLoop _ => loop
  | .continueLoop _ => loop
  | .ifElse _ condition thenBranch elifs elseBranch =>
    condition.exitsPlaced && exitsPlacedBlock loop thenBranch && exitsPlacedElifs loop elifs
      && exitsPlacedBlock? loop elseBranch
  | .function d => d.exitsPlaced
  | .cls d => d.exitsPlaced

/-- Whether every exit in a statement that may be missing is placed. -/
def exitsPlacedStmt? (loop : Bool) : Option Stmt → Bool
  | none => true
  | some s => s.exitsPlaced loop

/-- Whether every exit in statements is placed. -/
def exitsPlacedBlock (loop : Bool) : List Stmt → Bool
  | [] => true
  | s :: rest => s.exitsPlaced loop && exitsPlacedBlock loop rest

/-- Whether every exit in statements that may be missing is placed. -/
def exitsPlacedBlock? (loop : Bool) : Option (List Stmt) → Bool
  | none => true
  | some statements => exitsPlacedBlock loop statements

/-- Whether every exit in the `elif` branches of a statement is placed. -/
def exitsPlacedElifs (loop : Bool) : List ElifBranch → Bool
  | [] => true
  | ⟨condition, body⟩ :: rest =>
    condition.exitsPlaced && exitsPlacedBlock loop body && exitsPlacedElifs loop rest

/-- Whether every exit in a class is placed. -/
def ClassDecl.exitsPlaced : ClassDecl → Bool
  | ⟨_, _, methods, staticMethods⟩ =>
    exitsPlacedMethods methods && exitsPlacedMethods staticMethods

/-- Whether every exit in methods is placed. -/
def exitsPlacedMethods : List FunctionDecl → Bool
  | [] => true
  | d :: rest => d.exitsPlaced && exitsPlacedMethods rest

end

end Script
