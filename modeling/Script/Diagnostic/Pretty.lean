import Script.Diagnostic
import Script.Source.Lines
import Script.Text.Blank
import Script.Text.Width

/-!
# `Diagnostic.Pretty` — reports with a drawing of the source line

This is the renderer of the command line; how a program runs does not depend on it. The report shows
the line of the problem, draws a line under it and puts the message at the end of an arrow from its
middle. Colours are terminal escape sequences, one for each drawn character.

The line is located by its range of bytes, and that range is then read as a range of characters; the
two differ when the text before it is not plain ASCII. If the range ends up outside the text nothing
is drawn, and if it ends up across the end of a line that line is left blank.
-/

namespace Script

/-- A text in a colour, which is a list of terminal attributes. -/
def paint (colour text : String) : String := "\x1b[" ++ colour ++ "m" ++ text ++ "\x1b[0m"

/-- The colour of the frame. -/
def frameColour : String := "38;5;246"

/-- The colour of the frame beside lines that are not source lines. -/
def sideColour : String := "38;5;240"

/-- The colour of source text outside the range. -/
def plainColour : String := "38;5;249"

/-- The colour of the range and of what points at it. -/
def markColour : String := "91"

/-- A line of characters and the offset at which it starts. -/
structure PlacedLine where
  offset : Nat
  characters : List Char
  deriving Inhabited

/-- The characters that end a line; a carriage return and the line feed after it end one line. -/
def endsLine (c : Char) : Bool :=
  c == '\r' || c == '\n' || c == '\x0b' || c == '\x0c' || c == '\u0085' || c == '\u2028'
    || c == '\u2029'

/-- The lines of a text with their ends. `line` is what was read of the current line, backwards. -/
def placedLinesFrom (offset : Nat) (line : List Char) : List Char → List PlacedLine
  | [] => if line.isEmpty then [] else [⟨offset, line.reverse⟩]
  | '\r' :: '\n' :: rest =>
    ⟨offset, ('\n' :: '\r' :: line).reverse⟩
      :: placedLinesFrom (offset + line.length + 2) [] rest
  | c :: rest =>
    if endsLine c then
      ⟨offset, (c :: line).reverse⟩ :: placedLinesFrom (offset + line.length + 1) [] rest
    else placedLinesFrom offset (c :: line) rest

/-- The lines of a text with their ends. The empty text has one line. -/
def placedLines (source : String) : List PlacedLine :=
  if source.isEmpty then [⟨0, []⟩] else placedLinesFrom 0 [] source.toList

/-- The number of columns that a character at a column takes: a tab goes up to the next multiple of
    four, and any other blank is drawn as one space. -/
def columnsOf (c : Char) (column : Nat) : Nat :=
  if c = '\t' then 4 - column % 4
  else if Text.isBlank c then 1
  else Text.width c

/-- A text repeated. -/
def times (n : Nat) (text : String) : String := String.join (List.replicate n text)

namespace Pretty

/-- A range on a line, given by positions in the line. Blanks at the end of the line are not part
    of `line`, but the range may reach into them. -/
structure Marked where
  line : List Char
  start : Nat
  stop : Nat

/-- Whether a column lies in the range. -/
def Marked.covers (m : Marked) (column : Nat) : Bool := m.start ≤ column && column < m.stop

/-- The middle of the range, where the arrow starts; `offset` is where the line starts. -/
def Marked.middle (m : Marked) (offset : Nat) : Nat :=
  (m.start + offset + (m.stop + offset)) / 2 - offset

/-- The source line, character by character. -/
def Marked.text (m : Marked) : String :=
  String.join (m.line.mapIdx fun column c =>
    let colour := if m.covers column then markColour else plainColour
    if Text.isBlank c then times (columnsOf c column) (paint colour " ")
    else paint colour (String.ofList [c]))

/-- A row under the line. A position is as wide as the character above it, or one column where the
    line has ended: `first` is drawn at its start and `fill` in the rest of it. -/
def Marked.row (m : Marked) (length : Nat) (drawn : Nat → String × String) : String :=
  String.join ((List.range length).map fun column =>
    let (first, fill) := drawn column
    match (m.line[column]?.map (columnsOf · column)).getD 1 with
    | 0 => ""
    | width + 1 => first ++ times width fill)

/-- The line under the range, with the start of the arrow. -/
def Marked.underline (m : Marked) (middle length : Nat) : String :=
  let dash := paint markColour "─"
  m.row length fun column =>
    if column = middle then
      if m.covers column then (paint markColour "┬", dash)
      else (paint markColour "│", paint markColour " ")
    else if m.covers column then (dash, dash)
    else (" ", " ")

/-- The arrow from the middle of the range to the right. -/
def Marked.arrow (m : Marked) (middle length : Nat) : String :=
  let dash := paint markColour "─"
  m.row length fun column =>
    if column < middle then (" ", " ")
    else if column = middle then (paint markColour "╰", dash)
    else (dash, dash)

/-- What stands at the end of the arrow. -/
def label (p : Problem) : String :=
  paint markColour p.message ++
    match p.lexeme? with
    | some lexeme => " at `" ++ paint "93" lexeme ++ "`"
    | none => ""

/-- The drawing of a problem whose range starts on a line. -/
def drawing (p : Problem) (path : String) (span : Span) (index : Nat) (line : PlacedLine) :
    String :=
  let number := toString (index + 1)
  let width := number.length
  let m : Marked :=
    { line := Text.dropTrailingBlanks line.characters
      start := span.start - line.offset
      stop := span.stop - line.offset }
  let gutter := times (width + 2) " "
  let side := " " ++ paint sideColour (times (width + 1) " " ++ "│") ++ " "
  let head := gutter ++ paint frameColour "╭" ++ paint frameColour "─" ++ paint frameColour "["
    ++ " " ++ path ++ ":" ++ number ++ ":" ++ toString (m.start + 1) ++ " "
    ++ paint frameColour "]" ++ "\n" ++ gutter ++ paint frameColour "│" ++ "\n"
  let middle := m.middle line.offset
  let length := m.stop + 2
  let body :=
    if line.characters.length < m.stop then side ++ "\n"
    else
      " " ++ paint frameColour (number ++ " │") ++ " " ++ m.text ++ "\n"
        ++ side ++ m.underline middle length ++ "\n"
        ++ side ++ m.arrow middle length ++ " " ++ label p ++ "\n"
  head ++ body ++ paint frameColour (times (width + 2) "─" ++ "╯") ++ "\n"

/-- The last line that starts at or before an offset, with its index. -/
def lineAt (offset : Nat) (lines : List PlacedLine) : Nat × PlacedLine :=
  let before := lines.takeWhile (·.offset ≤ offset)
  (before.length - 1, before.getLastD default)

end Pretty

/-- The report of a problem in a source text at a path. -/
def Problem.pretty (p : Problem) (source path : String) : String :=
  let head := paint "31" ("[" ++ p.code ++ "] Error:") ++ " " ++ p.title ++ "\n"
  let span := lineSpan source p.line
  let length := source.length
  if length < span.start || (span.start < span.stop && length < span.stop - 1) then head
  else
    let (index, line) := Pretty.lineAt span.start (placedLines source)
    head ++ Pretty.drawing p path span index line

end Script
