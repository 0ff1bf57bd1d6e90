import Script.Token
import Script.Text.Letter
import Script.Decimal.Reader

/-!
# `Token.Scanner` — source text cut into tokens

The scanner drops trivia (blanks and comments) and then takes one *fragment* of the text: a token
or a fault, together with the characters it covers and the characters that remain. What it covers
and what remains make up what was there (`fragment_split`), so nothing is lost, and the line moves
on by the line feeds that were covered. At the end of the text a missing final line feed is
supplied, since every statement needs one, and then the end marker follows.
-/

namespace Script

/-! ## Fragments -/

/-- What was found at the front of a text, the characters it covers, and the characters after. -/
structure Fragment where
  found : Except LexicalFault (TokenKind × Option Literal)
  text : List Char
  rest : List Char

/-- The blanks between tokens; a line feed is not one of them. -/
def isTokenBlank (c : Char) : Bool := c == ' ' || c == '\r' || c == '\t'

/-- Drops blanks and comments. `commented` says that the text begins inside a comment, which lasts
    up to the next line feed. -/
def skipTrivia (commented : Bool) : List Char → List Char
  | [] => []
  | c :: cs =>
    if commented then
      if c = '\n' then c :: cs else skipTrivia true cs
    else if c = '#' then skipTrivia true cs
    else if isTokenBlank c then skipTrivia false cs
    else c :: cs

/-- Characters that are a token whatever follows. -/
def symbol? : Char → Option TokenKind
  | '(' => some .leftParen
  | ')' => some .rightParen
  | '[' => some .leftBracket
  | ']' => some .rightBracket
  | '\x7b' => some .leftBrace
  | '\x7d' => some .rightBrace
  | ',' => some .comma
  | '.' => some .dot
  | ':' => some .colon
  | ';' => some .semicolon
  | '-' => some .minus
  | '+' => some .plus
  | '/' => some .slash
  | '%' => some .percent
  | '*' => some .star
  | '^' => some .caret
  | '\n' => some .newline
  | _ => none

/-- Characters that join a following `=`: what they are alone, and what they are joined. -/
def joining? : Char → Option (Except LexicalFault TokenKind × TokenKind)
  | '!' => some (.error .strayBang, .bangEqual)
  | '=' => some (.ok .equal, .equalEqual)
  | '<' => some (.ok .less, .lessEqual)
  | '>' => some (.ok .greater, .greaterEqual)
  | _ => none

/-- The first character of a word. -/
def startsWord (c : Char) : Bool := Text.isAlphabetic c || c == '_'

/-- The other characters of a word. -/
def continuesWord (c : Char) : Bool := Text.isAlphanumeric c || c == '_'

/-- A reserved word or an identifier. -/
def wordFragment (c : Char) (cs : List Char) : Fragment :=
  let text := c :: cs.takeWhile continuesWord
  { found := .ok (TokenKind.ofWord (String.ofList text), none)
    text
    rest := cs.dropWhile continuesWord }

/-- The digits of a number: those before the point, and those after it. A point belongs to the
    number only if a digit follows it. -/
def numberDigits (cs : List Char) : List Char × Option (List Char) :=
  (cs.takeWhile Char.isDigit,
    match cs.dropWhile Char.isDigit with
    | '.' :: d :: more => if d.isDigit then some ((d :: more).takeWhile Char.isDigit) else none
    | _ => none)

/-- Decimal digits with an optional fraction. -/
def numberFragment (cs : List Char) : Fragment :=
  match numberDigits cs with
  | (whole, none) =>
    { found := .ok (.number, some (.number (Decimal.nearestFraction whole [])))
      text := whole
      rest := cs.dropWhile Char.isDigit }
  | (whole, some fraction) =>
    { found := .ok (.number, some (.number (Decimal.nearestFraction whole fraction)))
      text := whole ++ '.' :: fraction
      rest := ((cs.dropWhile Char.isDigit).drop 1).dropWhile Char.isDigit }

/-- The character that a backslash and a letter stand for. -/
def unescape? : Char → Option Char
  | 'a' => some '\x07'
  | 'b' => some '\x08'
  | 'f' => some '\x0c'
  | 'n' => some '\n'
  | 'r' => some '\r'
  | 't' => some '\t'
  | 'v' => some '\x0b'
  | '\\' => some '\\'
  | '"' => some '"'
  | _ => none

/-- The inside of a string literal, up to its closing quote. -/
structure StringBody where
  /-- Whether the closing quote was found. -/
  closed : Bool
  /-- The first character that no escape sequence has after its backslash. -/
  invalid : Option Char
  /-- The characters that the literal stands for. -/
  value : List Char
  /-- The characters read, the closing quote included. -/
  text : List Char
  rest : List Char

/-- Reads the inside of a string literal. A faulty escape sequence does not end the literal. -/
def stringBody : List Char → StringBody
  | [] => { closed := false, invalid := none, value := [], text := [], rest := [] }
  | '"' :: cs => { closed := true, invalid := none, value := [], text := ['"'], rest := cs }
  | '\\' :: [] => { closed := false, invalid := none, value := [], text := ['\\'], rest := [] }
  | '\\' :: e :: cs =>
    let body := stringBody cs
    match unescape? e with
    | some c => { body with value := c :: body.value, text := '\\' :: e :: body.text }
    | none => { body with invalid := some e, text := '\\' :: e :: body.text }
  | c :: cs =>
    let body := stringBody cs
    { body with value := c :: body.value, text := c :: body.text }

/-- A string literal, after its opening quote. -/
def stringFragment (cs : List Char) : Fragment :=
  let body := stringBody cs
  { found :=
      if !body.closed then .error .unclosedString
      else match body.invalid with
        | some c => .error (.invalidEscape c)
        | none => .ok (.string, some (.string (String.ofList body.value)))
    text := '"' :: body.text
    rest := body.rest }

/-- The fragment at the front of a text that begins with no trivia. -/
def fragment (c : Char) (cs : List Char) : Fragment :=
  match symbol? c with
  | some kind => { found := .ok (kind, none), text := [c], rest := cs }
  | none =>
    match joining? c, cs with
    | some (_, joined), '=' :: rest => { found := .ok (joined, none), text := [c, '='], rest }
    | some (alone, _), _ => { found := alone.map (·, none), text := [c], rest := cs }
    | none, _ =>
      if c = '"' then stringFragment cs
      else if c.isDigit then numberFragment (c :: cs)
      else if startsWord c then wordFragment c cs
      else { found := .error (.illegalCharacter c), text := [c], rest := cs }

/-! ## Nothing is lost -/

theorem stringBody_split (cs : List Char) : (stringBody cs).text ++ (stringBody cs).rest = cs := by
  fun_induction stringBody cs with
  | case1 => rfl
  | case2 => rfl
  | case3 => rfl
  | case4 e cs body c hc ih => simpa [body] using ih
  | case5 e cs body hc ih => simpa [body] using ih
  | case6 c cs _ _ _ body ih => simpa [body] using ih

theorem numberFragment_split (cs : List Char) :
    (numberFragment cs).text ++ (numberFragment cs).rest = cs := by
  unfold numberFragment numberDigits
  split
  · rename_i whole hd
    obtain ⟨rfl, _⟩ := Prod.mk.inj hd
    exact List.takeWhile_append_dropWhile
  · rename_i whole fraction hd
    obtain ⟨rfl, hf⟩ := Prod.mk.inj hd
    split at hf
    · rename_i d more hdrop
      split at hf
      · simp only [Option.some.injEq] at hf
        subst hf
        calc _ = cs.takeWhile Char.isDigit ++ cs.dropWhile Char.isDigit := by
              simp [hdrop]
          _ = cs := List.takeWhile_append_dropWhile
      · exact absurd hf (by simp)
    · exact absurd hf (by simp)

/-- A fragment covers the front of the text. -/
theorem fragment_split (c : Char) (cs : List Char) :
    (fragment c cs).text ++ (fragment c cs).rest = c :: cs := by
  unfold fragment
  split
  · rfl
  · split
    · rfl
    · rfl
    · split
      · rename_i hq
        subst hq
        simp [stringFragment, stringBody_split]
      · split
        · exact numberFragment_split _
        · split
          · simp [wordFragment]
          · rfl

/-- A fragment covers at least one character. -/
theorem fragment_rest_length (c : Char) (cs : List Char) :
    (fragment c cs).rest.length ≤ cs.length := by
  have hsplit := congrArg List.length (fragment_split c cs)
  simp only [List.length_append, List.length_cons] at hsplit
  suffices h : (fragment c cs).text ≠ [] by
    have := List.length_pos_iff.mpr h
    omega
  unfold fragment
  split
  · simp
  · split
    · simp
    · simp
    · split
      · simp [stringFragment]
      · split
        · rename_i hd
          unfold numberFragment numberDigits
          split
          · rename_i whole heq
            obtain ⟨rfl, _⟩ := Prod.mk.inj heq
            simp [hd]
          · simp
        · split
          · simp [wordFragment]
          · simp

theorem skipTrivia_length (commented : Bool) (cs : List Char) :
    (skipTrivia commented cs).length ≤ cs.length := by
  fun_induction skipTrivia commented cs <;> simp_all <;> omega

/-! ## The scanner -/

/-- Where scanning stands: the text still unread, the line it begins on, and the kind of the token
    that was read last. Faults leave that kind alone. -/
structure Scanner where
  rest : List Char
  line : Nat
  latest : Option TokenKind

namespace Scanner

/-- At the front of a source text. -/
def ofSource (source : String) : Scanner :=
  { rest := source.toList, line := 1, latest := none }

/-- A token or a lexical error. -/
abbrev Item := Except LexicalError Token

/-- The token or error that a fragment is, when it begins on `line`. -/
def itemOf (f : Fragment) (line : Nat) : Item :=
  match f.found with
  | .ok (kind, literal) => .ok { kind, lexeme := String.ofList f.text, literal, line }
  | .error fault => .error { fault, line }

/-- The scanner after a fragment. -/
def after (s : Scanner) (f : Fragment) : Scanner :=
  { rest := f.rest
    line := s.line + f.text.count '\n'
    latest := match f.found with
      | .ok (kind, _) => some kind
      | .error _ => s.latest }

/-- The next item of the text, or nothing at its end. -/
def step? (s : Scanner) : Option (Item × Scanner) :=
  match skipTrivia false s.rest with
  | [] => none
  | c :: cs => some (itemOf (fragment c cs) s.line, s.after (fragment c cs))

/-- Each item shortens the text. -/
theorem step?_rest_length {s s' : Scanner} {item : Item} (h : s.step? = some (item, s')) :
    s'.rest.length < s.rest.length := by
  unfold step? at h
  split at h
  · exact absurd h (by simp)
  · rename_i c cs htrivia
    simp only [Option.some.injEq, Prod.mk.injEq] at h
    obtain ⟨_, rfl⟩ := h
    have hskip := skipTrivia_length false s.rest
    rw [htrivia] at hskip
    have hrest := fragment_rest_length c cs
    simp only [after, List.length_cons] at *
    omega

/-- Whether the text ended without a line feed after its last token. -/
def lacksNewline (s : Scanner) : Bool :=
  match s.latest with
  | some kind => kind != .newline && kind != .eof
  | none => false

/-- At the end of the text: the missing line feed, or the end marker. -/
def finish (s : Scanner) : Token × Scanner :=
  let kind := if s.lacksNewline then .newline else .eof
  (Token.plain kind "" s.line, { s with rest := [], latest := some kind })

/-- The next item: of the text, or of its end. -/
def next (s : Scanner) : Item × Scanner :=
  match s.step? with
  | some found => found
  | none => (.ok s.finish.1, s.finish.2)

/-- What ends the stream, and the scanner behind it. -/
def ending (s : Scanner) : List Item × Scanner :=
  if s.lacksNewline then
    let (newline, s) := s.finish
    let (eof, s) := s.finish
    ([.ok newline, .ok eof], s)
  else
    let (eof, s) := s.finish
    ([.ok eof], s)

/-- Every item up to the end marker, and the scanner behind it. -/
def items (s : Scanner) : List Item × Scanner :=
  match _h : s.step? with
  | none => s.ending
  | some (item, s') =>
    let (rest, last) := s'.items
    (item :: rest, last)
termination_by s.rest.length
decreasing_by exact step?_rest_length (by assumption)

end Scanner

/-- The tokens of a list of items. -/
def tokensOf (items : List Scanner.Item) : List Token :=
  items.filterMap fun
    | .ok token => some token
    | .error _ => none

/-- The errors of a list of items. -/
def errorsOf (items : List Scanner.Item) : List LexicalError :=
  items.filterMap fun
    | .ok _ => none
    | .error e => some e

/-- All tokens and all errors of a source text, each in order. -/
def tokenize (source : String) : List Token × List LexicalError :=
  let items := (Scanner.ofSource source).items.1
  (tokensOf items, errorsOf items)

end Script
