import Script.Token
import Script.Text.Quoted
import Script.Decimal.Layout

/-!
# `Token.Listing` — tokens and lexical errors as lines of text

Two listings. The *brief* one gives a token as `(line) KIND lexeme value`. The *detailed* one
spells out every field, and is also how a token appears inside a detailed tree.
-/

namespace Script

/-- How much a listing says. -/
inductive ListingStyle where
  | brief
  | detailed
  deriving Repr, DecidableEq

/-! ## The brief listing -/

/-- The value of a literal token. -/
def Literal.brief : Literal → String
  | .number x => Decimal.explicit x
  | .string s => Text.quoted s

/-- One line for a token. A line feed is shown by its escape sequence. -/
def Token.brief (t : Token) : String :=
  let lexeme := if t.kind = .newline then "\\n" else t.lexeme
  let value := (t.literal.map Literal.brief).getD "null"
  s!"({t.line}) {t.kind.name} {lexeme} {value}"

/-- One line for an error. -/
def LexicalError.brief (e : LexicalError) : String :=
  let what := match e.fault with
    | .illegalCharacter c => "ILLEGAL_CHARACTER " ++ c.toString
    | .strayBang => "WRONG_BANG !"
    | .unclosedString => "UNTERMINATED_STRING null"
    | .invalidEscape c => "INVALID_ESCAPE \\" ++ c.toString
  s!"({e.line}) ERROR {what}"

/-! ## The detailed listing -/

/-- The name of a kind in detailed listings. -/
def TokenKind.detailed : TokenKind → String
  | .leftParen => "LeftParenthesis"
  | .rightParen => "RightParenthesis"
  | .leftBracket => "LeftBracket"
  | .rightBracket => "RightBracket"
  | .leftBrace => "LeftBrace"
  | .rightBrace => "RightBrace"
  | .comma => "Comma"
  | .dot => "Dot"
  | .colon => "Colon"
  | .semicolon => "Semicolon"
  | .minus => "Minus"
  | .plus => "Plus"
  | .slash => "Slash"
  | .percent => "Percent"
  | .star => "Star"
  | .caret => "Caret"
  | .bangEqual => "BangEqual"
  | .equal => "Equal"
  | .equalEqual => "EqualEqual"
  | .less => "LessThan"
  | .lessEqual => "LessThanEqual"
  | .greater => "GreaterThan"
  | .greaterEqual => "GreaterThanEqual"
  | .number => "NumericLiteral"
  | .string => "StringLiteral"
  | .identifier => "Ident"
  | .kwAnd => "KeywordAnd"
  | .kwBreak => "KeywordBreak"
  | .kwCatch => "KeywordCatch"
  | .kwClass => "KeywordClass"
  | .kwContinue => "KeywordContinue"
  | .kwElif => "KeywordElif"
  | .kwElse => "KeywordElse"
  | .kwFalse => "KeywordFalse"
  | .kwFn => "KeywordFn"
  | .kwFor => "KeywordFor"
  | .kwIf => "KeywordIf"
  | .kwIn => "KeywordIn"
  | .kwLet => "KeywordLet"
  | .kwNil => "KeywordNil"
  | .kwNot => "KeywordNot"
  | .kwOr => "KeywordOr"
  | .kwReturn => "KeywordReturn"
  | .kwSuper => "KeywordSuper"
  | .kwThis => "KeywordThis"
  | .kwTrue => "KeywordTrue"
  | .kwTry => "KeywordTry"
  | .kwWhile => "KeywordWhile"
  | .newline => "Newline"
  | .eof => "Eof"

/-- A literal by its sort and value. -/
def Literal.detailed : Literal → String
  | .number x => "Number(" ++ Decimal.explicit x ++ ")"
  | .string s => "String(" ++ Text.quoted s ++ ")"

/-- One line for a token, with every field. -/
def Token.detailed (t : Token) : String :=
  let literal := match t.literal with
    | some l => "Some(" ++ l.detailed ++ ")"
    | none => "None"
  "Token \x7b kind: " ++ t.kind.detailed ++ ", lexeme: " ++ Text.quoted t.lexeme
    ++ ", literal: " ++ literal ++ ", line: " ++ toString t.line ++ " \x7d"

/-- A fault by its sort and the character it is about. -/
def LexicalFault.detailed : LexicalFault → String
  | .illegalCharacter c => "IllegalCharacter(" ++ Text.quotedChar c ++ ")"
  | .strayBang => "WrongBang"
  | .unclosedString => "UnclosedString"
  | .invalidEscape c => "InvalidEscape(" ++ Text.quotedChar c ++ ")"

/-- One line for an error, with every field. -/
def LexicalError.detailed (e : LexicalError) : String :=
  "LexicalError \x7b kind: " ++ e.fault.detailed ++ ", line: " ++ toString e.line ++ " \x7d"

/-! ## Choosing -/

def Token.listed (style : ListingStyle) (t : Token) : String :=
  match style with
  | .brief => t.brief
  | .detailed => t.detailed

def LexicalError.listed (style : ListingStyle) (e : LexicalError) : String :=
  match style with
  | .brief => e.brief
  | .detailed => e.detailed

end Script
