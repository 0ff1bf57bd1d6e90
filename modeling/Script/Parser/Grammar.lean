import Script.Tree
import Script.Parser.Reader

/-!
# `Parser.Grammar` — the productions of the language

Every production is a parser over a `Level`, which holds the parsers for what is nested one level
deeper. A nested part is only ever read after at least one token of the construct around it, so one
level more than there are tokens is enough, and `Level.ofDepth` builds them one upon the other.
Likewise every repetition reads a token in each round, so the `rounds` of a level, as many as there
are levels from it on, never run out.

Precedence from loose to tight: assignment, `or`, `and`, equality, comparison, sums, products,
power, prefix operators, and then calls, properties and indices. Binary operators associate to the
left, assignment to the right.
-/

namespace Script

open TokenReader

/-- The greatest number of parameters of a function, and of arguments of a call. -/
def maxParameters : Nat := 255

/-- The constant that a token stands for, if it is one. -/
def Token.constant? (t : Token) : Option Constant :=
  match t.kind with
  | .number | .string =>
    match t.literal with
    | some (.number x) => some (.number x)
    | some (.string s) => some (.string s)
    | none => none
  | .kwFalse => some (.bool false)
  | .kwTrue => some (.bool true)
  | .kwNil => some .nil
  | _ => none

/-- A method as it is written in a class: of instances, or of the class itself. -/
structure Member where
  isStatic : Bool
  function : FunctionDecl

/-- The methods of the class itself, or those of instances. -/
def Member.select (isStatic : Bool) (members : List Member) : List FunctionDecl :=
  (members.filter (·.isStatic == isStatic)).map (·.function)

/-- The class with these methods. -/
def ClassDecl.ofMembers (name : Token) (superClass : Option Token) (members : List Member) :
    ClassDecl :=
  { name
    superClass
    methods := Member.select false members
    staticMethods := Member.select true members }

/-- The parsers for what is nested one level deeper. -/
structure Level (m : Type → Type) where
  /-- A bound on the rounds of any repetition. -/
  rounds : Nat
  expression : m Expr
  prefixed : m Expr
  declaration : m Stmt

variable {m : Type → Type} [Monad m] [TokenReader m]

namespace Grammar

variable (g : Level m)

/-! ## Functions and blocks -/

/-- Statements up to the closing brace of a block. -/
def statements : Nat → m (List Stmt)
  | 0 => exhausted
  | n + 1 => do
    skipNewlines
    if (← eat? .rightBrace).isSome then return []
    if ← atEnd then fail .expectedClosingBrace
    let statement ← g.declaration
    return statement :: (← statements n)

/-- A block after its opening brace. -/
def block : m (List Stmt) := statements g g.rounds

/-- A block with its opening brace. -/
def bracedBlock : m (List Stmt) := do
  let _ ← expect .leftBrace .expectedOpeningBrace
  block g

/-- The parameters from the one after `count` others on. -/
def parametersAfter : Nat → Nat → m (List Token)
  | 0, _ => exhausted
  | n + 1, count => do
    if maxParameters ≤ count then fail .maxParameters
    let parameter ← expect .identifier .expectedParameter
    if (← eat? .comma).isSome then return parameter :: (← parametersAfter n (count + 1))
    return [parameter]

/-- The parameters of a function, without the parentheses. -/
def parameters : m (List Token) := do
  if ← nextIs .rightParen then return []
  parametersAfter g.rounds 0

/-- What a function does: a block, or an expression. -/
def functionBody : m FunctionBody := do
  if (← eat? .leftBrace).isSome then return .block (← block g)
  return .expression (← g.expression)

/-- A function from its parameters on. -/
def functionRest (name : Option Token) : m FunctionDecl := do
  let _ ← expect .leftParen .expectedParen
  let parameters ← parameters g
  let _ ← expect .rightParen .unclosedParen
  let body ← functionBody g
  return { name, parameters, body }

/-- A function from its name on. -/
def namedFunction : m FunctionDecl := do
  let name ← expect .identifier .expectedFunctionName
  inFunction name.lexeme (functionRest g (some name))

/-- A function without a name. Its frame is named after the depth it has. -/
def lambda : m FunctionDecl := do
  let stack ← callStack
  inFunction s!"lambda{stack.depth + 1}" (functionRest g none)

/-! ## Expressions -/

/-- Expressions with commas between them, from the one after `count` others on, up to the closing
    token. A comma may stand before the closing token. -/
def argumentsAfter (closing : TokenKind) : Nat → Nat → m (List Expr)
  | 0, _ => exhausted
  | n + 1, count => do
    if closing = .rightParen ∧ maxParameters ≤ count then fail .maxArguments
    let argument ← g.expression
    if (← eat? .comma).isNone then return [argument]
    if ← nextIs closing then return [argument]
    return argument :: (← argumentsAfter closing n (count + 1))

/-- The expressions up to a closing token. -/
def arguments (closing : TokenKind) : m (List Expr) := do
  if ← nextIs closing then return []
  argumentsAfter g closing g.rounds 0

/-- The entries of a dictionary up to its closing brace. -/
def entries : Nat → m (List (Expr × Expr))
  | 0 => exhausted
  | n + 1 => do
    if ← nextIs .rightBrace then return []
    let key ← g.expression
    let _ ← expect .colon .expectedColon
    let value ← g.expression
    if (← eat? .comma).isNone then return [(key, value)]
    return (key, value) :: (← entries n)

/-- `super(…)` calls the initializer of the superclass; otherwise a method is named. -/
def superMethod (keyword : Token) : m Expr := do
  if ← nextIs .leftParen then
    return .super keyword (Token.plain .identifier "init" keyword.line)
  let _ ← expect .dot .expectedDot
  return .super keyword (← expect .identifier .expectedIdentifier)

/-- How an expression goes on that begins with the token, if one does. -/
def primaryAfter (t : Token) : Option (m Expr) :=
  match t.constant?, t.kind with
  | some c, _ => some (pure (.literal c))
  | none, .identifier => some (pure (.var t))
  | none, .kwThis => some (pure (.this t))
  | none, .leftParen => some do
    let inner ← g.expression
    let _ ← expect .rightParen .unclosedParen
    return .grouping inner
  | none, .leftBracket => some do
    let elements ← arguments g .rightBracket
    return .list elements (← expect .rightBracket .unclosedBracket)
  | none, .leftBrace => some do
    let entries ← entries g g.rounds
    return .dict entries (← expect .rightBrace .unclosedDict)
  | none, .kwFn => some do return .function (← lambda g)
  | none, .kwSuper => some (superMethod t)
  | none, _ => none

/-- An operand without operators. -/
def primary : m Expr := dispatch (primaryAfter g) (fail .undefinedExpression)

/-- A part of a slice, which may be missing. -/
def sliceComponent : m (Option Expr) := do
  if ← nextIs .colon then return none
  if ← nextIs .rightBracket then return none
  if ← atEnd then return none
  return some (← g.expression)

/-- The parts of a slice after its first colon. -/
def sliceRest (object : Expr) (bracket : Token) (first : Option Expr) (firstColon : Token) :
    m Access := do
  let second ← sliceComponent g
  match ← eat? .colon with
  | some secondColon =>
    let third ← sliceComponent g
    return { object, bracket, first, firstColon := some firstColon, second,
             secondColon := some secondColon, third }
  | none =>
    return { object, bracket, first, firstColon := some firstColon, second,
             secondColon := none, third := none }

/-- An index or a slice, after its opening bracket and without the closing one. -/
def accessParts (object : Expr) (bracket : Token) : m Access := do
  match ← eat? .colon with
  | some colon => sliceRest g object bracket none colon
  | none =>
    let first ← g.expression
    match ← eat? .colon with
    | some colon => sliceRest g object bracket (some first) colon
    | none =>
      return { object, bracket, first := some first, firstColon := none, second := none,
               secondColon := none, third := none }

/-- How an expression is extended by the token, if it is: a call, a property or an index. -/
def suffixAfter (e : Expr) (t : Token) : Option (m Expr) :=
  match t.kind with
  | .leftParen => some do
    let arguments ← arguments g .rightParen
    let paren ← expect .rightParen .unclosedArguments
    return .call e paren arguments
  | .dot => some do
    return .get e (← expect .identifier .expectedProperty)
  | .leftBracket => some do
    let access ← accessParts g e t
    let _ ← expect .rightBracket .unclosedSlice
    return .access access
  | _ => none

/-- An expression with all calls, properties and indices that follow it. -/
def suffixes : Nat → Expr → m Expr
  | 0, _ => exhausted
  | n + 1, e =>
    dispatch (fun t => (suffixAfter g e t).map (· >>= suffixes n)) (pure e)

/-- An operand with its suffixes. -/
def call : m Expr := do
  let e ← primary g
  suffixes g g.rounds e

/-- Prefix operators and their operand. -/
def prefixed : m Expr :=
  dispatch
    (fun t =>
      if t.kind = .kwNot ∨ t.kind = .minus then some do return .unary t (← g.prefixed) else none)
    (call g)

/-- Further operands of operators that associate to the left. -/
def operands (operators : List TokenKind) (build : Expr → Token → Expr → Expr)
    (operand : m Expr) : Nat → Expr → m Expr
  | 0, _ => exhausted
  | n + 1, left => do
    match ← eatAny? operators with
    | some operator =>
      let right ← operand
      operands operators build operand n (build left operator right)
    | none => return left

/-- One level of precedence: operands between operators that associate to the left. -/
def leftAssoc (operators : List TokenKind) (build : Expr → Token → Expr → Expr)
    (operand : m Expr) : m Expr := do
  let left ← operand
  operands operators build operand g.rounds left

def power : m Expr := leftAssoc g [.caret] .binary (prefixed g)

def product : m Expr := leftAssoc g [.slash, .percent, .star] .binary (power g)

def sum : m Expr := leftAssoc g [.plus, .minus] .binary (product g)

def comparison : m Expr :=
  leftAssoc g [.greater, .greaterEqual, .less, .lessEqual] .binary (sum g)

def equality : m Expr := leftAssoc g [.equalEqual, .bangEqual] .binary (comparison g)

def conjunction : m Expr := leftAssoc g [.kwAnd] .logical (equality g)

def disjunction : m Expr := leftAssoc g [.kwOr] .logical (conjunction g)

/-- The assignment of a value to a target: a variable or a property, or a place inside one that a
    chain of accesses leads to. -/
def assignment? (target value : Expr) : Option Expr :=
  match target.accessRoot with
  | .var name => some (.assign name value target.access?)
  | .get object name => some (.set object name value target.access?)
  | _ => none

/-- An expression. -/
def expression : m Expr := do
  let target ← disjunction g
  match ← eat? .equal with
  | none => return target
  | some equal =>
    let value ← g.expression
    match assignment? target value with
    | some e => return e
    | none => raise ⟨.undefinedStatement, equal.line⟩

/-! ## Statements -/

/-- A declaration after `let`. -/
def letRest : m Stmt := do
  let name ← expect .identifier .expectedIdentifier
  if (← eat? .equal).isSome then return .declare name (some (← expression g))
  return .declare name none

/-- The methods of a class up to its closing brace, in the order in which they are written. Those
    of the class itself are marked by `class`. -/
def members : Nat → m (List Member)
  | 0 => exhausted
  | n + 1 => do
    if ← nextIs .rightBrace then return []
    if ← atEnd then return []
    let mark ← eat? .kwClass
    let function ← namedFunction g
    return { isStatic := mark.isSome, function } :: (← members n)

/-- The superclass of a class, if one is named. -/
def superClass : m (Option Token) := do
  if (← eat? .less).isSome then return some (← expect .identifier .expectedIdentifier)
  return none

/-- A class after `class`: its name, its superclass, and its methods as they are written. -/
def classText : m (Token × Option Token × List Member) := do
  let name ← expect .identifier .expectedIdentifier
  let superClass ← superClass
  let _ ← expect .leftBrace .expectedOpeningBrace
  let members ← members g g.rounds
  let _ ← expect .rightBrace .expectedClosingBrace
  return (name, superClass, members)

/-- A class after `class`, its methods sorted into those of instances and those of the class. -/
def classRest : m Stmt := do
  let (name, superClass, members) ← classText g
  return .cls (ClassDecl.ofMembers name superClass members)

/-- The loop variables of `for … in`; commas between them may be left out. -/
def loopVariables : Nat → m (List Token)
  | 0 => exhausted
  | n + 1 => do
    match ← eat? .identifier with
    | some identifier =>
      let _ ← eat? .comma
      return identifier :: (← loopVariables n)
    | none => return []

/-- A loop over a collection, after `for`. -/
def forInRest (keyword : Token) : m Stmt := do
  let identifiers ← loopVariables g.rounds
  let _ ← expect .kwIn .expectedIn
  let collection ← expression g
  let body ← g.declaration
  return .forIn keyword identifiers collection body

/-- The initializer of a counting loop with its semicolon. Anything but a declaration is reported
    and then read as the condition. -/
def forInitializer : m (Option Stmt) := do
  if (← eat? .semicolon).isSome then return none
  if (← eat? .kwLet).isSome then
    let initializer ← letRest g
    let _ ← expect .semicolon .expectedSemicolon
    return some initializer
  report ⟨.expectedInit, ← lineHere⟩
  return none

/-- A loop after `for`. -/
def forRest (keyword : Token) : m Stmt := do
  if ← nextIs .identifier then forInRest g keyword
  else
    let initializer ← forInitializer g
    let condition ← expression g
    let _ ← expect .semicolon .expectedSemicolon
    let increment ← expression g
    let body ← g.declaration
    return .forLoop keyword initializer condition increment body

/-- A `while` loop after its keyword. -/
def whileRest (keyword : Token) : m Stmt := do
  let condition ← expression g
  let body ← g.declaration
  return .whileLoop keyword condition body

/-- A `try` statement after its keyword. -/
def tryRest : m Stmt := do
  let body ← g.declaration
  let _ ← expect .kwCatch .expectedCatch
  let name ← expect .identifier .expectedIdentifier
  let handler ← g.declaration
  return .tryCatch body name handler

/-- The `elif` branches of an `if` statement. -/
def elifBranches : Nat → m (List ElifBranch)
  | 0 => exhausted
  | n + 1 => do
    if (← eat? .kwElif).isSome then
      let condition ← expression g
      let body ← bracedBlock g
      return { condition, body } :: (← elifBranches n)
    return []

/-- An `if` statement after its keyword. -/
def ifRest (keyword : Token) : m Stmt := do
  let condition ← expression g
  let thenBranch ← bracedBlock g
  let elifs ← elifBranches g g.rounds
  if (← eat? .kwElse).isSome then
    return .ifElse keyword condition thenBranch elifs (some (← bracedBlock g))
  return .ifElse keyword condition thenBranch elifs none

/-- A `return` statement after its keyword. A line feed right after the keyword ends it. -/
def returnRest (keyword : Token) : m Stmt := do
  match ← kindHere with
  | .newline | .rightBrace | .eof => return .ret keyword none
  | _ => return .ret keyword (some (← expression g))

/-- A `break` or `continue`. Outside of a loop it is reported. -/
def loopExit (statement : Token → Stmt) (keyword : Token) : m Stmt := do
  if !(← callStack).insideLoop then report ⟨.onlyInsideLoop, keyword.line⟩
  return statement keyword

/-- How a statement goes on that begins with the token, unless it is an expression. -/
def statementAfter (t : Token) : Option (m Stmt) :=
  match t.kind with
  | .kwClass => some (classRest g)
  | .kwFn => some do return .function (← namedFunction g)
  | .kwLet => some (letRest g)
  | .kwFor => some (inLoop (forRest g t))
  | .kwTry => some (tryRest g)
  | .kwIf => some (ifRest g t)
  | .kwReturn => some (returnRest g t)
  | .kwBreak => some (loopExit .breakLoop t)
  | .kwContinue => some (loopExit .continueLoop t)
  | .kwWhile => some (inLoop (whileRest g t))
  | .leftBrace => some do return .block (← block g)
  | _ => none

/-- A statement. -/
def declaration : m Stmt :=
  dispatch (statementAfter g) do return .expr (← expression g)

/-- A statement of the program itself, which a line feed has to end. -/
def topDeclaration : m Stmt := do
  let statement ← declaration g
  expectNewline
  return statement

/-- The statements of a program up to the end marker. A fault in one of them is reported, and
    reading resumes at the next place where a statement may begin; a fatal fault ends it. -/
def program : Nat → m (List Stmt)
  | 0 => exhausted
  | n + 1 => do
    skipNewlines
    if ← atEnd then return []
    match ← attempt (topDeclaration g) with
    | .ok statement => return statement :: (← program n)
    | .error e =>
      report e
      if e.fault.isFatal then return []
      resume
      program n

end Grammar

/-! ## Levels -/

namespace Level

/-- Nothing can be nested. -/
def bottom : Level m :=
  { rounds := 0
    expression := exhausted
    prefixed := exhausted
    declaration := exhausted }

/-- The productions over a level, as the level above it. -/
def above (g : Level m) : Level m :=
  { rounds := g.rounds + 1
    expression := Grammar.expression g
    prefixed := Grammar.prefixed g
    declaration := Grammar.declaration g }

/-- As many levels as the depth says. -/
def ofDepth (depth : Nat) : Level m := Nat.repeat above depth bottom

@[simp] theorem ofDepth_zero : (ofDepth 0 : Level m) = bottom := rfl

@[simp] theorem ofDepth_succ (n : Nat) : (ofDepth (n + 1) : Level m) = (ofDepth n).above := rfl

@[simp] theorem rounds_ofDepth (n : Nat) : (ofDepth n : Level m).rounds = n := by
  induction n with
  | zero => rfl
  | succ n ih => simp [above, ih]

end Level

end Script
