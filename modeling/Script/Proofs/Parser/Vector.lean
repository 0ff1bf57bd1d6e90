import Script.Parser

/-!
# `Proofs.Parser.Vector` — reading tokens by position

The reader that runs holds the tokens it has still to read, and nothing of what is behind the first
end marker. Here the same grammar is read another way: all tokens stay in a vector, and the reader
moves a position in it. Every look at a token is checked. A look outside of the vector halts the
reading without any outcome, and so does a bound that runs out.
-/

namespace Script

/-- Why a reading halts without an outcome. -/
inductive Halt where
  /-- A token was looked for outside of the vector. -/
  | outside
  /-- There were no rounds or levels left. -/
  | exhausted

/-- A place in a vector of tokens. -/
structure Place where
  /-- All the tokens, read or not. -/
  tokens : Array Token
  /-- The position of the very next token. -/
  position : Nat
  /-- The functions and loops open around the place. -/
  stack : CallStack
  /-- Faults that did not stop the reading, in order. -/
  reported : List ParserError

/-- The tokens with an end marker behind them, unless the last of them is one. It stands on the
    line of the last token. -/
def closed (tokens : List Token) : List Token :=
  match tokens.getLast? with
  | none => [.plain .eof "" 1]
  | some t => if t.kind = .eof then tokens else tokens ++ [.plain .eof "" t.line]

namespace Place

/-- At the front of a list of tokens. -/
def ofTokens (tokens : List Token) : Place :=
  { tokens := (closed tokens).toArray
    position := 0
    stack := .root
    reported := [] }

/-- The very next token. -/
def token (s : Place) : Except Halt Token :=
  match s.tokens[s.position]? with
  | some t => .ok t
  | none => .error .outside

/-- The place with another position. -/
def movedTo (s : Place) (position : Nat) : Place := { s with position }

end Place

/-- The first position from `i` on with a token to stop at. -/
def seek (stop : Token → Bool) (tokens : Array Token) (i : Nat) : Except Halt Nat :=
  if h : i < tokens.size then
    if stop tokens[i] then .ok i else seek stop tokens (i + 1)
  else .error .outside
termination_by tokens.size - i

/-- A reader by position: it halts, or it has an outcome and moves in either case. -/
abbrev Scan := ExceptT ParserError (StateT Place (Except Halt))

namespace Scan

variable {α : Type}

/-- The position after any line feeds. -/
def pastNewlines (s : Place) : Except Halt Nat := seek (·.kind != .newline) s.tokens s.position

/-- Fails at the next token. -/
def fail (fault : ParserFault) : Scan α := fun s => do
  let t ← s.token
  return (.error ⟨fault, t.line⟩, s)

/-- Chooses by the next token after any line feeds. Nothing is read at the end marker. -/
def dispatch (accept : Token → Option (Scan α)) (otherwise : Scan α) : Scan α := fun s => do
  let i ← pastNewlines s
  let t ← (s.movedTo i).token
  if t.kind = .eof then otherwise s
  else
    match accept t with
    | some p => p (s.movedTo (i + 1))
    | none => otherwise s

/-- Whether the next token after any line feeds is of the kind. -/
def nextIs (kind : TokenKind) : Scan Bool := fun s => do
  let i ← pastNewlines s
  let t ← (s.movedTo i).token
  if t.kind = kind then return (.ok true, s.movedTo i) else return (.ok false, s)

/-- Reads any line feeds. -/
def skipNewlines : Scan Unit := fun s => do
  let i ← pastNewlines s
  return (.ok (), s.movedTo i)

/-- Reads a line feed, which has to be the very next token. -/
def expectNewline : Scan Unit := fun s => do
  let t ← s.token
  if t.kind = .newline then return (.ok (), s.movedTo (s.position + 1))
  else fail .expectedNewline s

/-- Moves on to where a new statement may begin, or to the end marker. -/
def resume : Scan Unit := fun s => do
  let t ← s.token
  -- The end marker is not passed, so that seeking finds it again.
  let next := if t.kind = .eof then s.position else s.position + 1
  let i ← seek (fun t => t.kind == .eof || t.kind.startsStatement) s.tokens next
  return (.ok (), s.movedTo i)

/-- Runs a reader inside a loop. -/
def inLoop (p : Scan α) : Scan α := fun s => do
  let (r, s) ← p { s with stack := s.stack.enterLoop }
  return (r, { s with stack := s.stack.leaveLoop })

/-- Runs a reader inside a function. -/
def inFunction (name : String) (p : Scan α) : Scan α := fun s => do
  let (r, s) ← p { s with stack := s.stack.enter name }
  match s.stack.leave name with
  | .ok stack => return (r, { s with stack })
  | .error fault => fail (.internal fault) s

instance : TokenReader Scan where
  raise e := fun s => .ok (.error e, s)
  fail := Scan.fail
  report e := fun s => .ok (.ok (), { s with reported := s.reported ++ [e] })
  attempt p := fun s => do
    let (r, s) ← p s
    return (.ok r, s)
  exhausted := fun _ => .error .exhausted
  lineHere := fun s => do return (.ok (← s.token).line, s)
  kindHere := fun s => do return (.ok (← s.token).kind, s)
  callStack := fun s => .ok (.ok s.stack, s)
  dispatch := Scan.dispatch
  nextIs := Scan.nextIs
  atEnd := fun s => do return (.ok ((← s.token).kind == .eof), s)
  skipNewlines := Scan.skipNewlines
  expectNewline := Scan.expectNewline
  resume := Scan.resume
  inLoop := Scan.inLoop
  inFunction := Scan.inFunction

/-- Reads a list of tokens as a program by position, with this many levels and rounds. -/
def parse (depth : Nat) (tokens : List Token) :
    Except Halt (Except (List ParserError) Program) := do
  let reading : Scan Program := Grammar.program (Level.ofDepth depth) depth
  match ← reading (Place.ofTokens tokens) with
  | (.ok statements, s) =>
    return if s.reported.isEmpty then .ok statements else .error s.reported
  | (.error e, s) => return .error (s.reported ++ [e])

end Scan

end Script
