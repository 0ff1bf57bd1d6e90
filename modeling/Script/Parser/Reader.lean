import Script.Token
import Script.Parser.Error

/-!
# `Parser.Reader` — what reads tokens

The productions of the grammar are written for any reader of tokens. A reader stands at a place
among tokens, of which the last is an end marker, and knows the functions and loops that are open
around the place. It fails with a fault, or reports a fault and goes on.

Line feeds end statements, but nothing inside a statement cares for them. So looking ahead follows
one rule: `dispatch` and `nextIs` look past line feeds at the next token, and pass the line feeds
only if that token is the one looked for.
-/

namespace Script

/-- What the productions need of a reader. -/
class TokenReader (m : Type → Type) where
  /-- Fails with an error. -/
  raise {α : Type} : ParserError → m α
  /-- Fails at the next token. -/
  fail {α : Type} : ParserFault → m α
  /-- Reports an error and goes on. -/
  report : ParserError → m Unit
  /-- Runs a parser and gives its error, if it fails. The place is where it failed. -/
  attempt {α : Type} : m α → m (Except ParserError α)
  /-- Ends for want of rounds or levels. -/
  exhausted {α : Type} : m α
  /-- The line of the very next token. -/
  lineHere : m Nat
  /-- The kind of the very next token. -/
  kindHere : m TokenKind
  /-- The functions and loops open around the place. -/
  callStack : m CallStack
  /-- Looks past line feeds at the next token. If `accept` has a parser for it, the token is read
      and that parser goes on; otherwise `otherwise` runs from the same place. -/
  dispatch {α : Type} (accept : Token → Option (m α)) (otherwise : m α) : m α
  /-- Whether the next token after any line feeds is of the kind. If it is, the line feeds are
      read; otherwise the place stays. -/
  nextIs : TokenKind → m Bool
  /-- Whether the end marker is the very next token. -/
  atEnd : m Bool
  /-- Reads any line feeds. -/
  skipNewlines : m Unit
  /-- Reads a line feed, which has to be the very next token. -/
  expectNewline : m Unit
  /-- Moves on to where a new statement may begin: at least one token, and then up to a token that
      starts a statement. -/
  resume : m Unit
  /-- Runs a parser inside a loop. -/
  inLoop {α : Type} : m α → m α
  /-- Runs a parser inside a function. -/
  inFunction {α : Type} (name : String) : m α → m α

namespace TokenReader

variable {m : Type → Type} [Monad m] [TokenReader m]

/-- Reads the next token if it is of one of the kinds. -/
def eatAny? (kinds : List TokenKind) : m (Option Token) :=
  dispatch (fun t => if kinds.contains t.kind then some (pure (some t)) else none) (pure none)

/-- Reads the next token if it is of the kind. -/
def eat? (kind : TokenKind) : m (Option Token) := eatAny? [kind]

/-- Reads the next token, which has to be of the kind. -/
def expect (kind : TokenKind) (fault : ParserFault) : m Token :=
  dispatch (fun t => if t.kind = kind then some (pure t) else none) (fail fault)

end TokenReader

end Script
