import Script.Parser.Grammar
import Script.Proofs.Parser.Reads
import Script.Proofs.Tree.Words

/-!
# `Proofs.Tree.Nodes` — what holds at every node of a parsed tree

`nodes` lists the parts of a tree, the tree itself first. A property of all trees that the parser
builds is said about one node at a time (`Node.Formed`), and then asked of all nodes: names are
identifiers, operands are operands of their operator, and nothing that follows an expression could
have belonged to it.
-/

namespace Script

/-! ## Ends of expressions and statements -/

/-- Kinds of tokens that the expression in front of them takes in. -/
def TokenKind.absorbed : TokenKind → Bool
  | leftParen | dot | leftBracket | equal | caret | slash | percent | star | plus | minus | greater
  | greaterEqual | less | lessEqual | equalEqual | bangEqual | kwAnd | kwOr => true
  | _ => false

/-- What a token of the kind begins: numbers and strings both begin with a constant. -/
def TokenKind.lead : TokenKind → TokenKind
  | string => number
  | kind => kind

/-- The kind of the first word. -/
def Expr.firstKind : Expr → TokenKind
  | .list _ _ => .leftBracket
  | .dict _ _ => .leftBrace
  | .assign name _ none => name.kind
  | .assign _ _ (some ⟨object, _, _, _, _, _, _⟩) => object.firstKind
  | .access ⟨object, _, _, _, _, _, _⟩ => object.firstKind
  | .binary left _ _ => left.firstKind
  | .call callee _ _ => callee.firstKind
  | .get object _ => object.firstKind
  | .set object _ _ none => object.firstKind
  | .set _ _ _ (some ⟨object, _, _, _, _, _, _⟩) => object.firstKind
  | .super keyword _ => keyword.kind
  | .grouping _ => .leftParen
  | .literal c => c.word.kind.lead
  | .logical left _ _ => left.firstKind
  | .this keyword => keyword.kind
  | .unary operator _ => operator.kind
  | .var name => name.kind
  | .function _ => .kwFn

/-- The kind of the first word. -/
def Stmt.firstKind : Stmt → TokenKind
  | .expr e => e.firstKind
  | .tryCatch _ _ _ => .kwTry
  | .forLoop keyword _ _ _ _ => keyword.kind
  | .forIn keyword _ _ _ => keyword.kind
  | .declare _ _ => .kwLet
  | .block _ => .leftBrace
  | .whileLoop keyword _ _ => keyword.kind
  | .ret keyword _ => keyword.kind
  | .breakLoop keyword => keyword.kind
  | .continueLoop keyword => keyword.kind
  | .ifElse keyword _ _ _ _ => keyword.kind
  | .function _ => .kwFn
  | .cls _ => .kwClass

/-- Whether the function does what an expression says. -/
def FunctionDecl.isBrief : FunctionDecl → Bool
  | ⟨_, _, .expression _⟩ => true
  | ⟨_, _, .block _⟩ => false

/-- Whether the expression ends with the expression of a function, which takes whatever may go on
    with it. -/
def Expr.isOpen : Expr → Bool
  | .function d => d.isBrief
  | .unary _ operand => operand.isOpen
  | .binary _ _ right => right.isOpen
  | .logical _ _ right => right.isOpen
  | _ => false

/-- Whether the expression is an assignment. -/
def Expr.isAssignment : Expr → Bool
  | .assign _ _ _ | .set _ _ _ _ => true
  | _ => false

/-- Whether the expression is no operation with two operands and no assignment. -/
def Expr.isTerm : Expr → Bool
  | .binary _ _ _ | .logical _ _ _ | .assign _ _ _ | .set _ _ _ _ => false
  | _ => true

/-- Whether calls, properties and indices may follow the expression. -/
def Expr.isTarget : Expr → Bool
  | .unary _ _ => false
  | e => e.isTerm

/-- Whether the statement ends with an expression. -/
def Stmt.endsOpen : Stmt → Bool
  | .expr _ => true
  | .tryCatch _ _ handler => handler.endsOpen
  | .forLoop _ _ _ _ body => body.endsOpen
  | .forIn _ _ _ body => body.endsOpen
  | .declare _ initializer => initializer.isSome
  | .whileLoop _ _ body => body.endsOpen
  | .ret _ value => value.isSome
  | .function d => d.isBrief
  | _ => false

/-- Whether the statement declares a variable. -/
def Stmt.isDeclaration : Stmt → Bool
  | .declare _ _ => true
  | _ => false

/-! ## Nodes -/

/-- A part of a tree. -/
inductive Node where
  | expr (e : Expr)
  | access (a : Access)
  | function (d : FunctionDecl)
  | stmt (s : Stmt)
  /-- Statements that follow each other. -/
  | stmts (ss : List Stmt)
  | cls (d : ClassDecl)

mutual

/-- The parts of an expression. -/
def Expr.nodes : Expr → List Node
  | .list elements bracket => .expr (.list elements bracket) :: nodesList elements
  | .dict entries brace => .expr (.dict entries brace) :: nodesEntries entries
  | .assign name value access =>
    .expr (.assign name value access) :: (value.nodes ++ nodesAccess? access)
  | .access a => .expr (.access a) :: a.nodes
  | .binary left operator right =>
    .expr (.binary left operator right) :: (left.nodes ++ right.nodes)
  | .call callee paren arguments =>
    .expr (.call callee paren arguments) :: (callee.nodes ++ nodesList arguments)
  | .get object name => .expr (.get object name) :: object.nodes
  | .set object name value access =>
    .expr (.set object name value access) :: (object.nodes ++ (value.nodes ++ nodesAccess? access))
  | .super keyword method => [.expr (.super keyword method)]
  | .grouping inner => .expr (.grouping inner) :: inner.nodes
  | .literal c => [.expr (.literal c)]
  | .logical left operator right =>
    .expr (.logical left operator right) :: (left.nodes ++ right.nodes)
  | .this keyword => [.expr (.this keyword)]
  | .unary operator operand => .expr (.unary operator operand) :: operand.nodes
  | .var name => [.expr (.var name)]
  | .function d => .expr (.function d) :: d.nodes

/-- The parts of expressions. -/
def nodesList : List Expr → List Node
  | [] => []
  | e :: rest => e.nodes ++ nodesList rest

/-- The parts of the entries of a dictionary. -/
def nodesEntries : List (Expr × Expr) → List Node
  | [] => []
  | (key, value) :: rest => key.nodes ++ (value.nodes ++ nodesEntries rest)

/-- The parts of an index or a slice. -/
def Access.nodes : Access → List Node
  | ⟨object, bracket, first, firstColon, second, secondColon, third⟩ =>
    .access ⟨object, bracket, first, firstColon, second, secondColon, third⟩
      :: (object.nodes ++ (nodes? first ++ (nodes? second ++ nodes? third)))

/-- The parts of an access that may be missing. -/
def nodesAccess? : Option Access → List Node
  | none => []
  | some a => a.nodes

/-- The parts of an expression that may be missing. -/
def nodes? : Option Expr → List Node
  | none => []
  | some e => e.nodes

/-- The parts of a function. -/
def FunctionDecl.nodes : FunctionDecl → List Node
  | ⟨name, parameters, body⟩ => .function ⟨name, parameters, body⟩ :: body.nodes

/-- The parts of what a function does. -/
def FunctionBody.nodes : FunctionBody → List Node
  | .block statements => .stmts statements :: nodesLines statements
  | .expression e => e.nodes

/-- The parts of a statement. -/
def Stmt.nodes : Stmt → List Node
  | .expr e => .stmt (.expr e) :: e.nodes
  | .tryCatch body name handler =>
    .stmt (.tryCatch body name handler) :: (body.nodes ++ handler.nodes)
  | .forLoop keyword initializer condition increment body =>
    .stmt (.forLoop keyword initializer condition increment body)
      :: (nodesStmt? initializer ++ (condition.nodes ++ (increment.nodes ++ body.nodes)))
  | .forIn keyword identifiers collection body =>
    .stmt (.forIn keyword identifiers collection body) :: (collection.nodes ++ body.nodes)
  | .declare name initializer => .stmt (.declare name initializer) :: nodes? initializer
  | .block statements => .stmt (.block statements) :: .stmts statements :: nodesLines statements
  | .whileLoop keyword condition body =>
    .stmt (.whileLoop keyword condition body) :: (condition.nodes ++ body.nodes)
  | .ret keyword value => .stmt (.ret keyword value) :: nodes? value
  | .breakLoop keyword => [.stmt (.breakLoop keyword)]
  | .continueLoop keyword => [.stmt (.continueLoop keyword)]
  | .ifElse keyword condition thenBranch elifs elseBranch =>
    .stmt (.ifElse keyword condition thenBranch elifs elseBranch)
      :: (condition.nodes ++ (.stmts thenBranch :: (nodesLines thenBranch
        ++ (nodesElifs elifs ++ nodesElse elseBranch))))
  | .function d => .stmt (.function d) :: d.nodes
  | .cls d => .stmt (.cls d) :: d.nodes

/-- The parts of a statement that may be missing. -/
def nodesStmt? : Option Stmt → List Node
  | none => []
  | some s => s.nodes

/-- The parts of statements. -/
def nodesLines : List Stmt → List Node
  | [] => []
  | s :: rest => s.nodes ++ nodesLines rest

/-- The parts of `elif` branches. -/
def nodesElifs : List ElifBranch → List Node
  | [] => []
  | ⟨condition, body⟩ :: rest =>
    condition.nodes ++ (.stmts body :: (nodesLines body ++ nodesElifs rest))

/-- The parts of an `else` branch that may be missing. -/
def nodesElse : Option (List Stmt) → List Node
  | none => []
  | some statements => .stmts statements :: nodesLines statements

/-- The parts of a class. -/
def ClassDecl.nodes : ClassDecl → List Node
  | ⟨name, superClass, methods, staticMethods⟩ =>
    .cls ⟨name, superClass, methods, staticMethods⟩
      :: (nodesMethods methods ++ nodesMethods staticMethods)

/-- The parts of methods. -/
def nodesMethods : List FunctionDecl → List Node
  | [] => []
  | d :: rest => d.nodes ++ nodesMethods rest

end

/-- The parts of a program. -/
def Program.nodes (program : Program) : List Node := .stmts program :: nodesLines program

/-- The names that a node itself declares or assigns to. A function has its own name among them:
    the statement that it is, if it is one, declares it. -/
def Node.binders : Node → List String
  | .expr (.assign name _ none) => [name.lexeme]
  | .function d => d.title :: d.parameters.map (·.lexeme)
  | .stmt (.tryCatch _ name _) => [name.lexeme]
  | .stmt (.forIn _ identifiers _ _) => identifiers.map (·.lexeme)
  | .stmt (.declare name _) => [name.lexeme]
  | .cls d => [d.name.lexeme]
  | _ => []

/-- The nodes declare and assign to names in `P` only. -/
abbrev AllBind (P : String → Prop) (ns : List Node) : Prop := ∀ n ∈ ns, ∀ x ∈ n.binders, P x

/-! ## Formed nodes -/

/-- Whether the token is a name. -/
def Token.isName (t : Token) : Bool := t.kind == .identifier

/-- The left operand ends before the operator, and neither operand is an assignment. -/
def OperandsFormed (left right : Expr) : Prop :=
  left.isAssignment = false ∧ left.isOpen = false ∧ right.isAssignment = false

/-- A call, a property or an index may follow the expression, and is not taken in by its end. -/
def Expr.TargetFormed (e : Expr) : Prop := e.isTarget = true ∧ e.isOpen = false

/-- What the parser sees to at an expression. -/
def Expr.Formed : Expr → Prop
  | .list _ bracket => bracket.kind = .rightBracket
  | .dict _ brace => brace.kind = .rightBrace
  | .assign name _ none => name.isName = true
  | .assign name _ (some a) => (Expr.access a).accessRoot = .var name
  | .access _ => True
  | .binary left operator right =>
    (∃ k < 5, operator.kind ∈ tierOperators k) ∧ OperandsFormed left right
  | .call callee paren arguments =>
    paren.kind = .rightParen ∧ callee.TargetFormed ∧ arguments.length ≤ maxParameters
  | .get object name => object.TargetFormed ∧ name.isName = true
  | .set object name _ none => object.TargetFormed ∧ name.isName = true
  | .set object name _ (some a) => (Expr.access a).accessRoot = .get object name
  | .super keyword method => keyword.kind = .kwSuper ∧ method.isName = true
  | .grouping _ => True
  | .literal _ => True
  | .logical left operator right =>
    (∃ k, 5 ≤ k ∧ operator.kind ∈ tierOperators k) ∧ OperandsFormed left right
  | .this keyword => keyword.kind = .kwThis
  | .unary operator operand =>
    (operator.kind = .kwNot ∨ operator.kind = .minus) ∧ operand.isTerm = true
  | .var name => name.isName = true
  | .function d => d.name = none

/-- What the parser sees to at an index or a slice. -/
structure Access.Formed (a : Access) : Prop where
  object : a.object.TargetFormed
  bracket : a.bracket.kind = .leftBracket
  index : a.firstColon = none → a.first.isSome = true ∧ a.second = none ∧ a.secondColon = none
  short : a.secondColon = none → a.third = none
  firstColon : ∀ t ∈ a.firstColon, t.kind = .colon
  secondColon : ∀ t ∈ a.secondColon, t.kind = .colon

/-- What the parser sees to at a function. -/
structure FunctionDecl.Formed (d : FunctionDecl) : Prop where
  name : ∀ t ∈ d.name, t.isName = true
  parameters : ∀ t ∈ d.parameters, t.isName = true
  count : d.parameters.length ≤ maxParameters
  body : ∀ e, d.body = .expression e → e.firstKind ≠ .leftBrace

/-- What the parser sees to at a statement. The body of a loop begins with nothing that the
    expression before it takes in. -/
def Stmt.Formed : Stmt → Prop
  | .expr e => e.firstKind.opensStatement = false
  | .tryCatch _ name _ => name.isName = true
  | .forLoop keyword initializer _ _ body =>
    keyword.kind = .kwFor ∧ (∀ s ∈ initializer, s.isDeclaration = true)
      ∧ body.firstKind.absorbed = false
  | .forIn keyword identifiers _ body =>
    keyword.kind = .kwFor ∧ (∀ t ∈ identifiers, t.isName = true) ∧ identifiers ≠ []
      ∧ body.firstKind.absorbed = false
  | .declare name _ => name.isName = true
  | .block _ => True
  | .whileLoop keyword _ body => keyword.kind = .kwWhile ∧ body.firstKind.absorbed = false
  | .ret keyword _ => keyword.kind = .kwReturn
  | .breakLoop keyword => keyword.kind = .kwBreak
  | .continueLoop keyword => keyword.kind = .kwContinue
  | .ifElse keyword _ _ _ _ => keyword.kind = .kwIf
  | .function d => d.name.isSome = true
  | .cls _ => True

/-- Each statement begins with nothing that the statement before it takes in. -/
def SettledLines : List Stmt → Prop
  | s :: s' :: rest =>
    (s.endsOpen = true → s'.firstKind.absorbed = false) ∧ SettledLines (s' :: rest)
  | _ => True

/-- What the parser sees to at a class. -/
structure ClassDecl.Formed (d : ClassDecl) : Prop where
  name : d.name.isName = true
  superClass : ∀ t ∈ d.superClass, t.isName = true
  methods : ∀ m ∈ d.methods, m.name.isSome = true
  staticMethods : ∀ m ∈ d.staticMethods, m.name.isSome = true

/-- What the parser sees to at a node. -/
def Node.Formed : Node → Prop
  | .expr e => e.Formed
  | .access a => a.Formed
  | .function d => d.Formed
  | .stmt s => s.Formed
  | .stmts ss => SettledLines ss
  | .cls d => d.Formed

/-- All nodes are formed. -/
abbrev AllFormed (ns : List Node) : Prop := ∀ n ∈ ns, n.Formed

end Script
