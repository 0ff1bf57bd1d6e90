import Script.Token

/-!
# `Tree` — the structure of a program

A program is a list of statements. Nodes keep the tokens they were built from, since errors are
reported at tokens and tokens carry the names. Parentheses stay in the tree as `grouping`.
-/

namespace Script

/-- A value written in the program. -/
inductive Constant where
  | nil
  | bool (value : Bool)
  | number (value : Float)
  | string (value : String)
  deriving DecidableEq, Inhabited

mutual

/-- An expression. -/
inductive Expr where
  | list (elements : List Expr) (bracket : Token)
  | dict (entries : List (Expr × Expr)) (brace : Token)
  /-- Stores in a variable, or through `access` in what the variable holds. -/
  | assign (name : Token) (value : Expr) (access : Option Access)
  | access (access : Access)
  | binary (left : Expr) (operator : Token) (right : Expr)
  | call (callee : Expr) (paren : Token) (arguments : List Expr)
  | get (object : Expr) (name : Token)
  /-- Stores in a property, or through `access` in what the property holds. -/
  | set (object : Expr) (name : Token) (value : Expr) (access : Option Access)
  | super (keyword : Token) (method : Token)
  | grouping (inner : Expr)
  | literal (value : Constant)
  | logical (left : Expr) (operator : Token) (right : Expr)
  | this (keyword : Token)
  | unary (operator : Token) (operand : Expr)
  | var (name : Token)
  | function (declaration : FunctionDecl)

/-- An index or a slice `object[first:second:third]`; any part may be missing. -/
structure Access where
  object : Expr
  bracket : Token
  first : Option Expr
  firstColon : Option Token
  second : Option Expr
  secondColon : Option Token
  third : Option Expr

/-- What a function does: statements, or one expression whose value it returns. -/
inductive FunctionBody where
  | block (statements : List Stmt)
  | expression (value : Expr)

/-- A function, a method, or a function without a name. -/
structure FunctionDecl where
  name : Option Token
  parameters : List Token
  body : FunctionBody

/-- A class with its methods and the methods of the class itself. -/
structure ClassDecl where
  name : Token
  superClass : Option Token
  methods : List FunctionDecl
  staticMethods : List FunctionDecl

/-- A further condition of an `if` statement and what it guards. -/
structure ElifBranch where
  condition : Expr
  body : List Stmt

/-- A statement. -/
inductive Stmt where
  | expr (value : Expr)
  | tryCatch (body : Stmt) (name : Token) (handler : Stmt)
  /-- `for initializer; condition; increment body`. -/
  | forLoop (keyword : Token) (initializer : Option Stmt) (condition increment : Expr) (body : Stmt)
  /-- `for identifiers in collection body`. -/
  | forIn (keyword : Token) (identifiers : List Token) (collection : Expr) (body : Stmt)
  | declare (name : Token) (initializer : Option Expr)
  | block (statements : List Stmt)
  | whileLoop (keyword : Token) (condition : Expr) (body : Stmt)
  | ret (keyword : Token) (value : Option Expr)
  | breakLoop (keyword : Token)
  | continueLoop (keyword : Token)
  | ifElse (keyword : Token) (condition : Expr) (thenBranch : List Stmt) (elifs : List ElifBranch)
      (elseBranch : Option (List Stmt))
  | function (declaration : FunctionDecl)
  | cls (declaration : ClassDecl)

end

instance : Inhabited Expr := ⟨.literal .nil⟩

instance : Inhabited Stmt := ⟨.block []⟩

/-- A program. -/
abbrev Program := List Stmt

/-- Whether an access selects one element: it has no colon. -/
def Access.isIndex (a : Access) : Bool := a.firstColon.isNone && a.secondColon.isNone

/-- The name under which a function is known. -/
def FunctionDecl.title (d : FunctionDecl) : String :=
  match d.name with
  | some token => token.lexeme
  | none => "anonymous"

/-- The access that an expression is, if it is one. -/
def Expr.access? : Expr → Option Access
  | .access a => some a
  | _ => none

/-- What a chain of accesses starts from: `a.b` for `a.b[0][1]`. -/
def Expr.accessRoot : Expr → Expr
  | .access ⟨object, _, _, _, _, _, _⟩ => object.accessRoot
  | e => e

end Script
