/-!
# `Token` — the words of a program

A token is a kind, the text it was read from, the value it stands for if it is a literal, and the
line it begins on. Line feeds are tokens, since they end statements; blanks and comments are not.
-/

namespace Script

/-- What sort of word a token is. -/
inductive TokenKind where
  | leftParen | rightParen
  | leftBracket | rightBracket
  | leftBrace | rightBrace
  | comma | dot | colon | semicolon
  | minus | plus | slash | percent | star | caret
  | bangEqual | equal | equalEqual | less | lessEqual | greater | greaterEqual
  | number | string | identifier
  | kwAnd | kwBreak | kwCatch | kwClass | kwContinue | kwElif | kwElse | kwFalse | kwFn | kwFor
  | kwIf | kwIn | kwLet | kwNil | kwNot | kwOr | kwReturn | kwSuper | kwThis | kwTrue | kwTry
  | kwWhile
  | newline
  | eof
  deriving Repr, DecidableEq, Inhabited

namespace TokenKind

/-- Every kind, in the order of declaration. -/
def all : List TokenKind := [
  leftParen, rightParen, leftBracket, rightBracket, leftBrace, rightBrace, comma, dot, colon,
  semicolon, minus, plus, slash, percent, star, caret, bangEqual, equal, equalEqual, less,
  lessEqual, greater, greaterEqual, number, string, identifier, kwAnd, kwBreak, kwCatch, kwClass,
  kwContinue, kwElif, kwElse, kwFalse, kwFn, kwFor, kwIf, kwIn, kwLet, kwNil, kwNot, kwOr,
  kwReturn, kwSuper, kwThis, kwTrue, kwTry, kwWhile, newline, eof]

/-- The reserved words. -/
def keywords : List (String × TokenKind) := [
  ("and", kwAnd), ("break", kwBreak), ("catch", kwCatch), ("class", kwClass),
  ("continue", kwContinue), ("elif", kwElif), ("else", kwElse), ("false", kwFalse), ("fn", kwFn),
  ("for", kwFor), ("if", kwIf), ("in", kwIn), ("let", kwLet), ("nil", kwNil), ("not", kwNot),
  ("or", kwOr), ("return", kwReturn), ("super", kwSuper), ("this", kwThis), ("true", kwTrue),
  ("try", kwTry), ("while", kwWhile)]

/-- The kind of a reserved word. -/
def keyword? (word : String) : Option TokenKind := keywords.lookup word

/-- The kind of a word: reserved, or an identifier. -/
def ofWord (word : String) : TokenKind := (keyword? word).getD identifier

/-- Kinds at which reading resumes after a faulty statement. -/
def startsStatement : TokenKind → Bool
  | kwClass | kwFn | kwLet | kwFor | kwIf | kwWhile | kwReturn => true
  | _ => false

/-- The name of a kind in token listings. -/
def name : TokenKind → String
  | leftParen => "LEFT_PAREN"
  | rightParen => "RIGHT_PAREN"
  | leftBracket => "LEFT_BRACKET"
  | rightBracket => "RIGHT_BRACKET"
  | leftBrace => "LEFT_BRACE"
  | rightBrace => "RIGHT_BRACE"
  | comma => "COMMA"
  | dot => "DOT"
  | colon => "COLON"
  | semicolon => "SEMICOLON"
  | minus => "MINUS"
  | plus => "PLUS"
  | slash => "SLASH"
  | percent => "PERCENT"
  | star => "STAR"
  | caret => "CARET"
  | bangEqual => "BANG_EQUAL"
  | equal => "EQUAL"
  | equalEqual => "EQUAL_EQUAL"
  | less => "LESS"
  | lessEqual => "LESS_EQUAL"
  | greater => "GREATER"
  | greaterEqual => "GREATER_EQUAL"
  | number => "NUMBER"
  | string => "STRING"
  | identifier => "IDENTIFIER"
  | kwAnd => "AND"
  | kwBreak => "BREAK"
  | kwCatch => "CATCH"
  | kwClass => "CLASS"
  | kwContinue => "CONTINUE"
  | kwElif => "ELIF"
  | kwElse => "ELSE"
  | kwFalse => "FALSE"
  | kwFn => "FN"
  | kwFor => "FOR"
  | kwIf => "IF"
  | kwIn => "IN"
  | kwLet => "LET"
  | kwNil => "NIL"
  | kwNot => "NOT"
  | kwOr => "OR"
  | kwReturn => "RETURN"
  | kwSuper => "SUPER"
  | kwThis => "THIS"
  | kwTrue => "TRUE"
  | kwTry => "TRY"
  | kwWhile => "WHILE"
  | newline => "NEWLINE"
  | eof => "EOF"

/-- The kind with a given listing name. -/
def ofName? (s : String) : Option TokenKind := all.find? (·.name == s)

end TokenKind

/-- The value that a literal token stands for. -/
inductive Literal where
  | number (value : Float)
  | string (value : String)
  deriving DecidableEq, Inhabited

/-- One word of a program. -/
structure Token where
  kind : TokenKind
  lexeme : String
  literal : Option Literal
  /-- The line on which the token begins, counted from one. -/
  line : Nat
  deriving DecidableEq, Inhabited

/-- A token that stands for no value. -/
def Token.plain (kind : TokenKind) (lexeme : String) (line : Nat) : Token :=
  { kind, lexeme, literal := none, line }

/-- Why a piece of text is no token. -/
inductive LexicalFault where
  | illegalCharacter (c : Char)
  | strayBang
  | unclosedString
  | invalidEscape (c : Char)
  deriving Repr, DecidableEq

/-- A fault and the line on which the faulty text begins. -/
structure LexicalError where
  fault : LexicalFault
  line : Nat
  deriving Repr, DecidableEq

/-- The wording of a fault. -/
def LexicalFault.message : LexicalFault → String
  | illegalCharacter _ => "Illegal character"
  | strayBang => "'!' cannot be used here"
  | unclosedString => "Closing \" was expected"
  | invalidEscape _ => "Invalid escape sequence"

/-- The code under which a fault is reported. -/
def LexicalFault.code : LexicalFault → String
  | illegalCharacter _ => "LX001"
  | strayBang => "LX002"
  | unclosedString => "LX003"
  | invalidEscape _ => "LX004"

end Script
