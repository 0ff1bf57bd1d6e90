import Script.Tree
import Script.Token.Listing
import Script.Text.Indentation

/-!
# `Tree.Outline` — a tree shown node by node

The outline of a tree gives every node by name with its parts, one part to a line, four spaces
further in than the node.
-/

namespace Script

open Text (indentation)

/-- A named node with named or numbered parts, a sequence, or a word. -/
inductive Outline where
  | word (text : String)
  | record (name : String) (fields : List (String × Outline))
  | tuple (name : String) (items : List Outline)
  | sequence (items : List Outline)

namespace Outline

mutual

/-- The text of an outline whose first line stands at a depth of nesting. -/
def render : Outline → Nat → String
  | .word text, _ => text
  | .record name fields, depth => name ++ " \x7b\n" ++ renderFields fields (depth + 1)
      ++ indentation depth ++ "\x7d"
  | .tuple name items, depth => name ++ "(\n" ++ renderItems items (depth + 1) ++ indentation depth
      ++ ")"
  | .sequence [], _ => "[]"
  | .sequence (item :: items), depth =>
    "[\n" ++ indentation (depth + 1) ++ item.render (depth + 1) ++ ",\n"
      ++ renderItems items (depth + 1) ++ indentation depth ++ "]"

/-- Parts, each on a line of its own. -/
def renderItems : List Outline → Nat → String
  | [], _ => ""
  | item :: rest, depth =>
    indentation depth ++ item.render depth ++ ",\n" ++ renderItems rest depth

/-- Named parts, each on a line of its own. -/
def renderFields : List (String × Outline) → Nat → String
  | [], _ => ""
  | (name, value) :: rest, depth =>
    indentation depth ++ name ++ ": " ++ value.render depth ++ ",\n" ++ renderFields rest depth

end

/-- A part that may be missing. -/
def option : Option Outline → Outline
  | some o => .tuple "Some" [o]
  | none => .word "None"

end Outline

def Literal.outline : Literal → Outline
  | .number x => .tuple "Number" [.word (Decimal.explicit x)]
  | .string s => .tuple "String" [.word (Text.quoted s)]

def Token.outline (t : Token) : Outline :=
  .record "Token" [
    ("kind", .word t.kind.detailed),
    ("lexeme", .word (Text.quoted t.lexeme)),
    ("literal", .option (t.literal.map Literal.outline)),
    ("line", .word (toString t.line))]

def Constant.outline : Constant → Outline
  | .nil => .word "Nil"
  | .bool b => .tuple "Bool" [.word (if b then "true" else "false")]
  | .number x => .tuple "Number" [.word (Decimal.explicit x)]
  | .string s => .tuple "String" [.word (Text.quoted s)]

/-- Tokens in a row. -/
def outlineTokens (tokens : List Token) : Outline := .sequence (tokens.map Token.outline)

/-- A token that may be missing. -/
def outlineToken? (token : Option Token) : Outline := .option (token.map Token.outline)

mutual

def Expr.outline : Expr → Outline
  | .list elements bracket =>
    .record "List" [("elements", .sequence (outlineExprs elements)), ("bracket", bracket.outline)]
  | .dict entries brace =>
    .record "Dict" [("entries", .sequence (outlineEntries entries)), ("brace", brace.outline)]
  | .assign name value access =>
    .record "Assign" [
      ("name", name.outline), ("value", value.outline), ("access", outlineAccess? access)]
  | .access a => .tuple "Access" [a.outline]
  | .binary left operator right =>
    .record "Binary" [
      ("left", left.outline), ("operator", operator.outline), ("right", right.outline)]
  | .call callee paren arguments =>
    .record "Call" [
      ("callee", callee.outline), ("paren", paren.outline),
      ("arguments", .sequence (outlineExprs arguments))]
  | .get object name => .record "Get" [("object", object.outline), ("name", name.outline)]
  | .set object name value access =>
    .record "Set" [
      ("object", object.outline), ("name", name.outline), ("value", value.outline),
      ("access", outlineAccess? access)]
  | .super keyword method =>
    .record "Super" [("keyword", keyword.outline), ("method", method.outline)]
  | .grouping inner => .tuple "Grouping" [inner.outline]
  | .literal c => .tuple "Literal" [c.outline]
  | .logical left operator right =>
    .record "Logical" [
      ("left", left.outline), ("operator", operator.outline), ("right", right.outline)]
  | .this keyword => .tuple "This" [keyword.outline]
  | .unary operator operand =>
    .record "Unary" [("operator", operator.outline), ("operand", operand.outline)]
  | .var name => .tuple "Variable" [name.outline]
  | .function d => .tuple "Function" [d.outline]

def outlineExprs : List Expr → List Outline
  | [] => []
  | e :: rest => e.outline :: outlineExprs rest

def outlineEntries : List (Expr × Expr) → List Outline
  | [] => []
  | (key, value) :: rest => .tuple "" [key.outline, value.outline] :: outlineEntries rest

def outlineExpr? : Option Expr → Outline
  | none => .option none
  | some e => .option (some e.outline)

def outlineAccess? : Option Access → Outline
  | none => .option none
  | some a => .option (some a.outline)

def Access.outline : Access → Outline
  | ⟨object, bracket, first, firstColon, second, secondColon, third⟩ =>
    .record "Access" [
      ("object", object.outline), ("bracket", bracket.outline), ("first", outlineExpr? first),
      ("first_colon", outlineToken? firstColon), ("second", outlineExpr? second),
      ("second_colon", outlineToken? secondColon), ("third", outlineExpr? third)]

def FunctionBody.outline : FunctionBody → Outline
  | .block statements => .tuple "Block" [.sequence (outlineStmts statements)]
  | .expression e => .tuple "Expression" [e.outline]

def FunctionDecl.outline : FunctionDecl → Outline
  | ⟨name, parameters, body⟩ =>
    .record "FunctionDecl" [
      ("name", outlineToken? name), ("parameters", outlineTokens parameters),
      ("body", body.outline)]

def outlineFunctions : List FunctionDecl → List Outline
  | [] => []
  | d :: rest => d.outline :: outlineFunctions rest

def ClassDecl.outline : ClassDecl → Outline
  | ⟨name, superClass, methods, staticMethods⟩ =>
    .record "ClassDecl" [
      ("name", name.outline), ("super_class", outlineToken? superClass),
      ("methods", .sequence (outlineFunctions methods)),
      ("static_methods", .sequence (outlineFunctions staticMethods))]

def outlineElifs : List ElifBranch → List Outline
  | [] => []
  | ⟨condition, body⟩ :: rest =>
    .record "ElifBranch" [
      ("condition", condition.outline), ("body", .sequence (outlineStmts body))]
      :: outlineElifs rest

def Stmt.outline : Stmt → Outline
  | .expr e => .tuple "Expression" [e.outline]
  | .tryCatch body name handler =>
    .record "TryCatch" [
      ("body", body.outline), ("name", name.outline), ("handler", handler.outline)]
  | .forLoop keyword initializer condition increment body =>
    .record "ClassicFor" [
      ("keyword", keyword.outline),
      ("initializer",
        match initializer with
        | some s => .option (some s.outline)
        | none => .option none),
      ("condition", condition.outline), ("increment", increment.outline), ("body", body.outline)]
  | .forIn keyword identifiers collection body =>
    .record "EnhancedFor" [
      ("keyword", keyword.outline), ("identifiers", outlineTokens identifiers),
      ("collection", collection.outline), ("body", body.outline)]
  | .declare name initializer =>
    .record "Let" [("name", name.outline), ("initializer", outlineExpr? initializer)]
  | .block statements => .tuple "Block" [.sequence (outlineStmts statements)]
  | .whileLoop keyword condition body =>
    .record "While" [
      ("keyword", keyword.outline), ("condition", condition.outline), ("body", body.outline)]
  | .ret keyword value =>
    .record "Return" [("keyword", keyword.outline), ("value", outlineExpr? value)]
  | .breakLoop keyword => .tuple "Break" [keyword.outline]
  | .continueLoop keyword => .tuple "Continue" [keyword.outline]
  | .ifElse keyword condition thenBranch elifs elseBranch =>
    .record "If" [
      ("keyword", keyword.outline), ("condition", condition.outline),
      ("then_branch", .sequence (outlineStmts thenBranch)),
      ("elifs", .sequence (outlineElifs elifs)),
      ("else_branch",
        match elseBranch with
        | some statements => .option (some (.sequence (outlineStmts statements)))
        | none => .option none)]
  | .function d => .tuple "Function" [d.outline]
  | .cls d => .tuple "Class" [d.outline]

def outlineStmts : List Stmt → List Outline
  | [] => []
  | s :: rest => s.outline :: outlineStmts rest

end

/-- The outline of a program as text. -/
def Program.outline (program : Program) : String :=
  (Outline.sequence (outlineStmts program)).render 0

end Script
