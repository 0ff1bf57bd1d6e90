import Script.Parser.Reader

/-!
# `Parser.Cursor` — reading from a list of tokens

The reader that runs is a cursor: the tokens still unread, the functions and loops that are open
around the place, and the faults that were reported without stopping. A failing parser leaves the
cursor where it failed, because reading resumes from there.
-/

namespace Script

/-- A place in a list of tokens. -/
structure Cursor where
  /-- The tokens before the end marker that are still unread. -/
  rest : List Token
  /-- The line of the end marker. -/
  endLine : Nat
  /-- The functions and loops open around the place. -/
  stack : CallStack
  /-- Faults that did not stop the reading, in order. -/
  reported : List ParserError

namespace Cursor

/-- At the front of a list of tokens. The first end marker ends the list; if there is none, it
    stands on the line of the last token. -/
def ofTokens (tokens : List Token) : Cursor :=
  { rest := tokens.takeWhile (·.kind != .eof)
    endLine :=
      match tokens.dropWhile (·.kind != .eof) with
      | marker :: _ => marker.line
      | [] => (tokens.getLast?.map (·.line)).getD 1
    stack := .root
    reported := [] }

/-- The line of the next token. -/
def line (c : Cursor) : Nat :=
  match c.rest with
  | t :: _ => t.line
  | [] => c.endLine

/-- The kind of the next token. -/
def kind (c : Cursor) : TokenKind :=
  match c.rest with
  | t :: _ => t.kind
  | [] => .eof

/-- The unread tokens after any line feeds. -/
def pastNewlines (c : Cursor) : List Token := c.rest.dropWhile (·.kind == .newline)

/-- The kind of the next token after any line feeds. -/
def nextKind (c : Cursor) : TokenKind :=
  match c.pastNewlines with
  | t :: _ => t.kind
  | [] => .eof

/-- Moves on to where a new statement may begin: at least one token, and then up to a token that
    starts a statement. -/
def resume (c : Cursor) : Cursor :=
  { c with rest := (c.rest.drop 1).dropWhile (!·.kind.startsStatement) }

end Cursor

/-- A parser: it reads a value, or fails, and moves the cursor in either case. -/
abbrev ParseM := EStateM ParserError Cursor

namespace ParseM

variable {α : Type}

/-- Fails at the next token. -/
def fail (fault : ParserFault) : ParseM α := fun c => .error ⟨fault, c.line⟩ c

/-- Reports an error and goes on. -/
def report (e : ParserError) : ParseM Unit := fun c =>
  .ok () { c with reported := c.reported ++ [e] }

/-- Runs a parser and gives its error, if it fails. -/
def attempt (p : ParseM α) : ParseM (Except ParserError α) := fun c =>
  match p c with
  | .ok a c => .ok (.ok a) c
  | .error e c => .ok (.error e) c

/-- Chooses by the next token after any line feeds. -/
def dispatch (accept : Token → Option (ParseM α)) (otherwise : ParseM α) : ParseM α := fun c =>
  match c.pastNewlines with
  | t :: rest =>
    match accept t with
    | some p => p { c with rest }
    | none => otherwise c
  | [] => otherwise c

/-- Whether the next token after any line feeds is of the kind. -/
def nextIs (kind : TokenKind) : ParseM Bool := fun c =>
  if c.nextKind = kind then .ok true { c with rest := c.pastNewlines } else .ok false c

/-- Whether the end marker is the very next token. -/
def atEnd : ParseM Bool := fun c => .ok c.rest.isEmpty c

/-- Reads any line feeds. -/
def skipNewlines : ParseM Unit := fun c => .ok () { c with rest := c.pastNewlines }

/-- Reads a line feed, which has to be the very next token. -/
def expectNewline : ParseM Unit := fun c =>
  match c.rest with
  | t :: rest => if t.kind = .newline then .ok () { c with rest } else fail .expectedNewline c
  | [] => fail .expectedNewline c

/-- Runs a parser inside a loop. -/
def inLoop (p : ParseM α) : ParseM α := fun c =>
  match p { c with stack := c.stack.enterLoop } with
  | .ok a c => .ok a { c with stack := c.stack.leaveLoop }
  | .error e c => .error e { c with stack := c.stack.leaveLoop }

/-- Runs a parser inside a function. -/
def inFunction (name : String) (p : ParseM α) : ParseM α := fun c =>
  match p { c with stack := c.stack.enter name } with
  | .ok a c =>
    match c.stack.leave name with
    | .ok stack => .ok a { c with stack }
    | .error fault => fail (.internal fault) c
  | .error e c =>
    match c.stack.leave name with
    | .ok stack => .error e { c with stack }
    | .error fault => fail (.internal fault) c

end ParseM

/-- The reader that runs. Its bounds never run out, so how it would end then does not matter. -/
instance : TokenReader ParseM where
  raise e := fun c => .error e c
  fail := ParseM.fail
  report := ParseM.report
  attempt := ParseM.attempt
  exhausted := ParseM.fail .undefinedExpression
  lineHere := fun c => .ok c.line c
  kindHere := fun c => .ok c.kind c
  callStack := fun c => .ok c.stack c
  dispatch := ParseM.dispatch
  nextIs := ParseM.nextIs
  atEnd := ParseM.atEnd
  skipNewlines := ParseM.skipNewlines
  expectNewline := ParseM.expectNewline
  resume := fun c => .ok () c.resume
  inLoop := ParseM.inLoop
  inFunction := ParseM.inFunction

end Script
