import Script.Tree
import Script.Decimal.Layout
import Script.Text.Indentation

/-!
# `Tree.Source` — a tree written back as source text

Every statement of a block stands on a line of its own, four spaces further in than the block.
Operands of operators are put in parentheses if they are themselves operations or assignments, so
the text reads back as the same tree whatever the precedence of the operators.
-/

namespace Script

open Text (indentation)

/-- Texts with a comma and a blank between them. -/
def commaSeparated : List String → String
  | [] => ""
  | [s] => s
  | s :: rest => s ++ ", " ++ commaSeparated rest

/-- One character as it is written in a string literal. -/
def escapeChar : Char → List Char
  | '\\' => ['\\', '\\']
  | '"' => ['\\', '"']
  | '\n' => ['\\', 'n']
  | '\r' => ['\\', 'r']
  | '\t' => ['\\', 't']
  | '\x07' => ['\\', 'a']
  | '\x08' => ['\\', 'b']
  | '\x0b' => ['\\', 'v']
  | '\x0c' => ['\\', 'f']
  | c => [c]

/-- The text between the quotes of a string literal. -/
def escape (s : String) : String := String.ofList (s.toList.flatMap escapeChar)

/-- A constant as it is written in a program. -/
def Constant.source : Constant → String
  | .nil => "nil"
  | .bool b => if b then "true" else "false"
  | .number x => Decimal.plain x
  | .string s => "\"" ++ escape s ++ "\""

/-- The names of parameters or loop variables. -/
def sourceNames (names : List Token) : String := commaSeparated (names.map (·.lexeme))

/-- Whether an operand is put in parentheses. -/
def Expr.needsParens : Expr → Bool
  | .binary _ _ _ | .logical _ _ _ | .assign _ _ _ => true
  | _ => false

/-- Puts a text in parentheses if asked to. -/
def parenthesized (parens : Bool) (s : String) : String := if parens then "(" ++ s ++ ")" else s

/-- Lines between braces that stand at a depth of nesting. -/
def braced (lines : String) (depth : Nat) : String :=
  "\x7b\n" ++ lines ++ indentation depth ++ "\x7d"

mutual

/-- An expression as source text. The depth is that of the statement it stands in. -/
def Expr.source : Expr → Nat → String
  | .list elements _, depth => "[" ++ sourceList elements depth ++ "]"
  | .dict entries _, depth => "\x7b" ++ sourceEntries entries depth ++ "\x7d"
  | .assign name value access, depth =>
    (match access with
      | some a => a.source depth
      | none => name.lexeme) ++ " = " ++ value.source depth
  | .access a, depth => a.source depth
  | .binary left operator right, depth =>
    parenthesized left.needsParens (left.source depth) ++ " " ++ operator.lexeme ++ " "
      ++ parenthesized right.needsParens (right.source depth)
  | .call callee _ arguments, depth =>
    callee.source depth ++ "(" ++ sourceList arguments depth ++ ")"
  | .get object name, depth => object.source depth ++ "." ++ name.lexeme
  | .set object name value access, depth =>
    (match access with
      | some a => a.source depth
      | none => object.source depth ++ "." ++ name.lexeme) ++ " = " ++ value.source depth
  | .super _ method, _ => "super." ++ method.lexeme
  | .grouping inner, depth => "(" ++ inner.source depth ++ ")"
  | .literal c, _ => c.source
  | .logical left operator right, depth =>
    parenthesized left.needsParens (left.source depth) ++ " " ++ operator.lexeme ++ " "
      ++ parenthesized right.needsParens (right.source depth)
  | .this _, _ => "this"
  | .unary operator operand, depth =>
    (if operator.lexeme = "not" then "not " else operator.lexeme)
      ++ parenthesized operand.needsParens (operand.source depth)
  | .var name, _ => name.lexeme
  | .function d, depth => "fn " ++ d.source depth

/-- Expressions with commas between them. -/
def sourceList : List Expr → Nat → String
  | [], _ => ""
  | [e], depth => e.source depth
  | e :: rest, depth => e.source depth ++ ", " ++ sourceList rest depth

/-- The entries of a dictionary. -/
def sourceEntries : List (Expr × Expr) → Nat → String
  | [], _ => ""
  | [(key, value)], depth => key.source depth ++ ": " ++ value.source depth
  | (key, value) :: rest, depth =>
    key.source depth ++ ": " ++ value.source depth ++ ", " ++ sourceEntries rest depth

/-- An index or a slice. -/
def Access.source : Access → Nat → String
  | ⟨object, _, first, firstColon, second, secondColon, third⟩, depth =>
    object.source depth ++ "[" ++ sourceOption first depth
      ++ (if firstColon.isSome then ":" ++ sourceOption second depth else "")
      ++ (if secondColon.isSome then ":" ++ sourceOption third depth else "") ++ "]"

/-- A part of a slice, which may be missing. -/
def sourceOption : Option Expr → Nat → String
  | none, _ => ""
  | some e, depth => e.source depth

/-- A function from its name on. -/
def FunctionDecl.source : FunctionDecl → Nat → String
  | ⟨name, parameters, body⟩, depth =>
    (match name with
      | some token => token.lexeme
      | none => "") ++ "(" ++ sourceNames parameters ++ ") " ++ body.source depth

/-- What a function does. -/
def FunctionBody.source : FunctionBody → Nat → String
  | .block statements, depth => braced (sourceLines statements (depth + 1)) depth
  | .expression e, depth => e.source depth

/-- A statement as source text, without the blanks in front and the line feed behind. -/
def Stmt.source : Stmt → Nat → String
  | .expr e, depth => e.source depth
  | .tryCatch body name handler, depth =>
    "try " ++ body.source depth ++ " catch " ++ name.lexeme ++ " " ++ handler.source depth
  | .forLoop _ initializer condition increment body, depth =>
    "for "
      ++ (match initializer with
        | some s => s.source depth
        | none => "")
      ++ "; " ++ condition.source depth ++ "; " ++ increment.source depth ++ " "
      ++ body.source depth
  | .forIn _ identifiers collection body, depth =>
    "for " ++ sourceNames identifiers ++ " in " ++ collection.source depth ++ " "
      ++ body.source depth
  | .declare name initializer, depth =>
    match initializer with
    | some e => "let " ++ name.lexeme ++ " = " ++ e.source depth
    | none => "let " ++ name.lexeme
  | .block statements, depth => braced (sourceLines statements (depth + 1)) depth
  | .whileLoop _ condition body, depth =>
    "while " ++ condition.source depth ++ " " ++ body.source depth
  | .ret _ value, depth =>
    match value with
    | some e => "return " ++ e.source depth
    | none => "return"
  | .breakLoop _, _ => "break"
  | .continueLoop _, _ => "continue"
  | .ifElse _ condition thenBranch elifs elseBranch, depth =>
    "if " ++ condition.source depth ++ " "
      ++ braced (sourceLines thenBranch (depth + 1)) depth ++ sourceElifs elifs depth
      ++ (match elseBranch with
        | some statements => " else " ++ braced (sourceLines statements (depth + 1)) depth
        | none => "")
  | .function d, depth => "fn " ++ d.source depth
  | .cls d, depth => d.source depth

/-- Statements, each on a line of its own. -/
def sourceLines : List Stmt → Nat → String
  | [], _ => ""
  | s :: rest, depth => indentation depth ++ s.source depth ++ "\n" ++ sourceLines rest depth

/-- The `elif` branches of an `if` statement. -/
def sourceElifs : List ElifBranch → Nat → String
  | [], _ => ""
  | ⟨condition, body⟩ :: rest, depth =>
    " elif " ++ condition.source depth ++ " " ++ braced (sourceLines body (depth + 1)) depth
      ++ sourceElifs rest depth

/-- A class. The methods of instances come first. -/
def ClassDecl.source : ClassDecl → Nat → String
  | ⟨name, superClass, methods, staticMethods⟩, depth =>
    "class " ++ name.lexeme
      ++ (match superClass with
        | some token => " < " ++ token.lexeme
        | none => "")
      ++ " " ++ braced (sourceMethods methods "" (depth + 1)
        ++ sourceMethods staticMethods "class " (depth + 1)) depth

/-- Methods, each on a line of its own behind a mark. -/
def sourceMethods : List FunctionDecl → String → Nat → String
  | [], _, _ => ""
  | d :: rest, mark, depth =>
    indentation depth ++ mark ++ d.source depth ++ "\n" ++ sourceMethods rest mark depth

end

/-- A program as source text. -/
def Program.source (program : Program) : String := sourceLines program 0

end Script
