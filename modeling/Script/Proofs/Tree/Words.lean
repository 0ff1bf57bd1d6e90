import Script.Tree

/-!
# `Proofs.Tree.Words` — a tree taken apart into the words it stands for

A *word* is a token without its line and, if it is a literal, without the way its value was written.
The words of a tree stand in the order of the program text. Nodes give the words of the tokens they
keep; the other words, such as the parentheses of a call, have one spelling each (`Word.mark`).

Commas and line feeds are not in the tree, and a constant is a value that can be written in more
than one way. What stands in their place is a parameter of the flattening: the *style*. The bare
style leaves commas and line feeds out and has one word for each constant.
-/

namespace Script

/-- The text of a token, or the value it stands for. -/
inductive Meaning where
  | text (lexeme : String)
  | value (literal : Literal)
  deriving DecidableEq

/-- What a token says apart from the line it is on. -/
structure Word where
  kind : TokenKind
  meaning : Meaning
  deriving DecidableEq

/-- The word that a token is. -/
def Token.word (t : Token) : Word :=
  { kind := t.kind
    meaning := match t.literal with
      | some v => .value v
      | none => .text t.lexeme }

/-- The only text of a kind, for the kinds that have only one. -/
def TokenKind.spelling : TokenKind → String
  | leftParen => "("
  | rightParen => ")"
  | leftBracket => "["
  | rightBracket => "]"
  | leftBrace => "\x7b"
  | rightBrace => "\x7d"
  | comma => ","
  | dot => "."
  | colon => ":"
  | semicolon => ";"
  | minus => "-"
  | plus => "+"
  | slash => "/"
  | percent => "%"
  | star => "*"
  | caret => "^"
  | bangEqual => "!="
  | equal => "="
  | equalEqual => "=="
  | less => "<"
  | lessEqual => "<="
  | greater => ">"
  | greaterEqual => ">="
  | kwAnd => "and"
  | kwBreak => "break"
  | kwCatch => "catch"
  | kwClass => "class"
  | kwContinue => "continue"
  | kwElif => "elif"
  | kwElse => "else"
  | kwFalse => "false"
  | kwFn => "fn"
  | kwFor => "for"
  | kwIf => "if"
  | kwIn => "in"
  | kwLet => "let"
  | kwNil => "nil"
  | kwNot => "not"
  | kwOr => "or"
  | kwReturn => "return"
  | kwSuper => "super"
  | kwThis => "this"
  | kwTrue => "true"
  | kwTry => "try"
  | kwWhile => "while"
  | newline => "\n"
  | number | string | identifier | eof => ""

/-- The word of a kind that has only one text. -/
def Word.mark (kind : TokenKind) : Word := ⟨kind, .text kind.spelling⟩

/-- The word of a name. -/
def Word.name (lexeme : String) : Word := ⟨.identifier, .text lexeme⟩

/-- The word that a constant is written as. -/
def Constant.word : Constant → Word
  | .nil => .mark .kwNil
  | .bool b => .mark (if b then .kwTrue else .kwFalse)
  | .number x => ⟨.number, .value (.number x)⟩
  | .string s => ⟨.string, .value (.string s)⟩

@[simp] theorem Token.word_kind (t : Token) : t.word.kind = t.kind := rfl

@[simp] theorem Word.mark_kind (kind : TokenKind) : (Word.mark kind).kind = kind := rfl

/-! ## Flattening -/

/-- What the words of a tree are made of beside its tokens. -/
structure Style where
  /-- What a constant is written as. -/
  constant : Constant → List Word
  /-- What stands between the elements of a list. -/
  comma : List Word
  /-- What stands behind an opening brace and behind each statement. -/
  feed : List Word

/-- Only what is in the tree. -/
def Style.bare : Style := ⟨fun c => [c.word], [], []⟩

/-- The words of names with commas between them. -/
def wordsNames (σ : Style) : List Token → List Word
  | [] => []
  | [t] => [t.word]
  | t :: rest => t.word :: (σ.comma ++ wordsNames σ rest)

/-- The words of a token that may be missing. -/
def wordsToken? : Option Token → List Word
  | none => []
  | some t => [t.word]

/-- Words that stand behind a token, and are missing if it is. -/
def wordsBehind (t : Option Token) (ws : List Word) : List Word :=
  match t with
  | some t => t.word :: ws
  | none => []

/-- The words that name the superclass of a class. -/
def wordsSuper : Option Token → List Word
  | some t => [.mark .less, t.word]
  | none => []

/-- Words between braces. -/
def wordsBraced (σ : Style) (inner : List Word) : List Word :=
  .mark .leftBrace :: (σ.feed ++ (inner ++ [.mark .rightBrace]))

mutual

/-- The words of an expression. -/
def Expr.words (σ : Style) : Expr → List Word
  | .list elements bracket => .mark .leftBracket :: (wordsList σ elements ++ [bracket.word])
  | .dict entries brace => .mark .leftBrace :: (wordsEntries σ entries ++ [brace.word])
  | .assign name value none => name.word :: .mark .equal :: value.words σ
  | .assign _ value (some a) => a.words σ ++ .mark .equal :: value.words σ
  | .access a => a.words σ
  | .binary left operator right => left.words σ ++ operator.word :: right.words σ
  | .call callee paren arguments =>
    callee.words σ ++ .mark .leftParen :: (wordsList σ arguments ++ [paren.word])
  | .get object name => object.words σ ++ [.mark .dot, name.word]
  | .set object name value none =>
    object.words σ ++ .mark .dot :: name.word :: .mark .equal :: value.words σ
  | .set _ _ value (some a) => a.words σ ++ .mark .equal :: value.words σ
  | .super keyword method => [keyword.word, .mark .dot, method.word]
  | .grouping inner => .mark .leftParen :: (inner.words σ ++ [.mark .rightParen])
  | .literal c => σ.constant c
  | .logical left operator right => left.words σ ++ operator.word :: right.words σ
  | .this keyword => [keyword.word]
  | .unary operator operand => operator.word :: operand.words σ
  | .var name => [name.word]
  | .function d => .mark .kwFn :: d.words σ

/-- The words of expressions with commas between them. -/
def wordsList (σ : Style) : List Expr → List Word
  | [] => []
  | [e] => e.words σ
  | e :: rest => e.words σ ++ (σ.comma ++ wordsList σ rest)

/-- The words of the entries of a dictionary. -/
def wordsEntries (σ : Style) : List (Expr × Expr) → List Word
  | [] => []
  | [(key, value)] => key.words σ ++ .mark .colon :: value.words σ
  | (key, value) :: rest =>
    key.words σ ++ .mark .colon :: (value.words σ ++ (σ.comma ++ wordsEntries σ rest))

/-- The words of an index or a slice. -/
def Access.words (σ : Style) : Access → List Word
  | ⟨object, bracket, first, firstColon, second, secondColon, third⟩ =>
    object.words σ ++ bracket.word :: (words? σ first
      ++ (wordsBehind firstColon (words? σ second)
        ++ (wordsBehind secondColon (words? σ third) ++ [.mark .rightBracket])))

/-- The words of an expression that may be missing. -/
def words? (σ : Style) : Option Expr → List Word
  | none => []
  | some e => e.words σ

/-- The words of a function from its name on. -/
def FunctionDecl.words (σ : Style) : FunctionDecl → List Word
  | ⟨name, parameters, body⟩ =>
    wordsToken? name
      ++ .mark .leftParen :: (wordsNames σ parameters ++ .mark .rightParen :: body.words σ)

/-- The words of what a function does. -/
def FunctionBody.words (σ : Style) : FunctionBody → List Word
  | .block statements => wordsBraced σ (wordsLines σ statements)
  | .expression e => e.words σ

/-- The words of a statement. -/
def Stmt.words (σ : Style) : Stmt → List Word
  | .expr e => e.words σ
  | .tryCatch body name handler =>
    .mark .kwTry :: (body.words σ ++ .mark .kwCatch :: name.word :: handler.words σ)
  | .forLoop keyword initializer condition increment body =>
    keyword.word :: (wordsStmt? σ initializer ++ .mark .semicolon ::
      (condition.words σ ++ .mark .semicolon :: (increment.words σ ++ body.words σ)))
  | .forIn keyword identifiers collection body =>
    keyword.word :: (wordsNames σ identifiers ++ .mark .kwIn :: (collection.words σ ++ body.words σ))
  | .declare name none => [.mark .kwLet, name.word]
  | .declare name (some e) => .mark .kwLet :: name.word :: .mark .equal :: e.words σ
  | .block statements => wordsBraced σ (wordsLines σ statements)
  | .whileLoop keyword condition body => keyword.word :: (condition.words σ ++ body.words σ)
  | .ret keyword value => keyword.word :: words? σ value
  | .breakLoop keyword => [keyword.word]
  | .continueLoop keyword => [keyword.word]
  | .ifElse keyword condition thenBranch elifs elseBranch =>
    keyword.word :: (condition.words σ ++ (wordsBraced σ (wordsLines σ thenBranch)
      ++ (wordsElifs σ elifs ++ wordsElse σ elseBranch)))
  | .function d => .mark .kwFn :: d.words σ
  | .cls d => d.words σ

/-- The words of a statement that may be missing. -/
def wordsStmt? (σ : Style) : Option Stmt → List Word
  | none => []
  | some s => s.words σ

/-- The words of statements. -/
def wordsLines (σ : Style) : List Stmt → List Word
  | [] => []
  | s :: rest => s.words σ ++ (σ.feed ++ wordsLines σ rest)

/-- The words of `elif` branches. -/
def wordsElifs (σ : Style) : List ElifBranch → List Word
  | [] => []
  | ⟨condition, body⟩ :: rest =>
    .mark .kwElif :: (condition.words σ ++ (wordsBraced σ (wordsLines σ body) ++ wordsElifs σ rest))

/-- The words of an `else` branch. -/
def wordsElse (σ : Style) : Option (List Stmt) → List Word
  | none => []
  | some statements => .mark .kwElse :: wordsBraced σ (wordsLines σ statements)

/-- The words of a class. The methods of instances come first. -/
def ClassDecl.words (σ : Style) : ClassDecl → List Word
  | ⟨name, superClass, methods, staticMethods⟩ =>
    .mark .kwClass :: name.word ::
      (wordsSuper superClass
        ++ wordsBraced σ (wordsMethods σ [] methods ++ wordsMethods σ [.mark .kwClass] staticMethods))

/-- The words of methods, each behind a mark. -/
def wordsMethods (σ : Style) (mark : List Word) : List FunctionDecl → List Word
  | [] => []
  | d :: rest => mark ++ (d.words σ ++ (σ.feed ++ wordsMethods σ mark rest))

end

/-- The words of a program. -/
def Program.words (σ : Style) (program : Program) : List Word := wordsLines σ program

end Script
