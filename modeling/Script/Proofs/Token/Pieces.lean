import Script.Proofs.Token.Cutting

/-!
# `Proofs.Token.Pieces` — a source text as the pieces that the scanner takes

Each call of the scanner takes a *piece* of the text: it skips trivia and then covers the text of
one item, a token or an error. The pieces are said by where the scanner stands (`Scanner.piece`),
before the call, after the trivia and after the call. What trivia is (`Trivia`) and which text
belongs to an item (`TextOf`) is said without the scanner.

The main statement is `pieces_make_up_source`: nothing lies between the pieces, and they are all of
the source.
-/

namespace Script

/-- What one call of the scanner reads: the trivia that it skips, and the text of an item. -/
structure Piece where
  trivia : List Char
  text : List Char
  item : Scanner.Item

/-- The characters of a piece. -/
def Piece.chars (p : Piece) : List Char := p.trivia ++ p.text

namespace Scanner

/-- What the next call reads. Its item begins behind the trivia, and ends where the scanner stands
    after the call. -/
def piece (s : Scanner) : Piece :=
  let start := skipTrivia false s.rest
  { trivia := s.rest.take (s.rest.length - start.length)
    text := start.take (start.length - s.next.2.rest.length)
    item := s.next.1 }

/-- What a number of calls read, one after the other. -/
def calls (s : Scanner) : Nat → List Piece
  | 0 => []
  | n + 1 => s.piece :: s.next.2.calls n

/-- What the calls for the items of the text read. -/
def pieces (s : Scanner) : List Piece := s.calls s.items.1.length

end Scanner

/-! ## Trivia -/

/-- Blanks and then a comment or none, in front of `rest`. A comment goes up to a line feed or to
    the end of the text. -/
inductive Trivia (rest : List Char) : List Char → Prop
  | nil : Trivia rest []
  | blank {c cs} : c = ' ' ∨ c = '\r' ∨ c = '\t' → Trivia rest cs → Trivia rest (c :: cs)
  | comment {cs} : '\n' ∉ cs → rest = [] ∨ rest.head? = some '\n' → Trivia rest ('#' :: cs)

theorem Trivia.count_newline {rest cs : List Char} (h : Trivia rest cs) : cs.count '\n' = 0 := by
  rw [List.count_eq_zero]
  induction h with
  | nil => exact List.not_mem_nil
  | blank hc _ ih =>
      obtain rfl | rfl | rfl := hc <;> simpa using ih
  | comment hcs _ => simpa using hcs

/-- What is skipped inside a comment. -/
theorem skipTrivia_comment (cs : List Char) :
    ∃ body, cs = body ++ skipTrivia true cs ∧ '\n' ∉ body
      ∧ (skipTrivia true cs = [] ∨ (skipTrivia true cs).head? = some '\n') := by
  induction cs with
  | nil => exact ⟨[], rfl, List.not_mem_nil, .inl rfl⟩
  | cons c cs ih =>
      by_cases hc : c = '\n'
      · subst hc
        exact ⟨[], rfl, List.not_mem_nil, .inr rfl⟩
      · obtain ⟨body, hsplit, hbody, hend⟩ := ih
        have hskip : skipTrivia true (c :: cs) = skipTrivia true cs := by simp [skipTrivia, hc]
        rw [hskip]
        refine ⟨c :: body, by rw [List.cons_append, ← hsplit], ?_, hend⟩
        simpa [Ne.symm hc] using hbody

/-- What is skipped is trivia. -/
theorem skipTrivia_split (cs : List Char) :
    ∃ trivia, cs = trivia ++ skipTrivia false cs ∧ Trivia (skipTrivia false cs) trivia := by
  induction cs with
  | nil => exact ⟨[], rfl, .nil⟩
  | cons c cs ih =>
      by_cases hhash : c = '#'
      · subst hhash
        obtain ⟨body, hsplit, hbody, hend⟩ := skipTrivia_comment cs
        have hskip : skipTrivia false ('#' :: cs) = skipTrivia true cs := rfl
        rw [hskip]
        exact ⟨'#' :: body, by rw [List.cons_append, ← hsplit], .comment hbody hend⟩
      · by_cases hblank : isTokenBlank c = true
        · obtain ⟨trivia, hsplit, htrivia⟩ := ih
          have hskip : skipTrivia false (c :: cs) = skipTrivia false cs := by
            simp [skipTrivia, hhash, hblank]
          rw [hskip]
          exact ⟨c :: trivia, by rw [List.cons_append, ← hsplit],
            .blank (isTokenBlank_iff.mp hblank) htrivia⟩
        · have hskip : skipTrivia false (c :: cs) = c :: cs := by simp [skipTrivia, hhash, hblank]
          rw [hskip]
          exact ⟨[], rfl, .nil⟩

/-! ## The text of an item -/

/-- What may stand between the quotes of a string, and the characters behind its backslashes. -/
inductive Quoted : List Char → List Char → Prop
  | nil : Quoted [] []
  | plain {c cs es} : c ≠ '"' → c ≠ '\\' → Quoted cs es → Quoted (c :: cs) es
  | escape {e cs es} : Quoted cs es → Quoted ('\\' :: e :: cs) (e :: es)

/-- The text that belongs to an item in front of `rest`. -/
inductive TextOf : Scanner.Item → List Char → List Char → Prop
  | token {t : Token} {rest} : t.kind ≠ .eof → t.lexeme ≠ "" → TextOf (.ok t) t.lexeme.toList rest
  /-- The line feed that is missing at the end of the source. -/
  | newline {line} : TextOf (.ok (.plain .newline "" line)) [] []
  | eof {line} : TextOf (.ok (.plain .eof "" line)) [] []
  | illegalCharacter {c line rest} : TextOf (.error ⟨.illegalCharacter c, line⟩) [c] rest
  | strayBang {line rest} : rest.head? ≠ some '=' → TextOf (.error ⟨.strayBang, line⟩) ['!'] rest
  /-- A string without its closing quote goes up to the end of the source. -/
  | unclosedString {body es tail line} : Quoted body es → tail = [] ∨ tail = ['\\'] →
      TextOf (.error ⟨.unclosedString, line⟩) ('"' :: (body ++ tail)) []
  /-- A string with a faulty escape sequence goes up to its closing quote. -/
  | invalidEscape {body es c line rest} : Quoted body es →
      es.find? (fun e => (unescape? e).isNone) = some c →
      TextOf (.error ⟨.invalidEscape c, line⟩) ('"' :: (body ++ ['"'])) rest

/-- The inside of a string literal goes up to its closing quote, or to the end of the text. -/
theorem stringBody_quoted (cs : List Char) :
    ∃ body es tail, Quoted body es ∧ (stringBody cs).text = body ++ tail
      ∧ (stringBody cs).invalid = es.find? (fun e => (unescape? e).isNone)
      ∧ if (stringBody cs).closed then tail = ['"']
        else (tail = [] ∨ tail = ['\\']) ∧ (stringBody cs).rest = [] := by
  fun_induction stringBody cs with
  | case1 => exact ⟨[], [], [], .nil, rfl, rfl, .inl rfl, rfl⟩
  | case2 => exact ⟨[], [], ['"'], .nil, rfl, rfl, rfl⟩
  | case3 => exact ⟨[], [], ['\\'], .nil, rfl, rfl, .inr rfl, rfl⟩
  | case4 e cs body c hc ih =>
      obtain ⟨inside, es, tail, hquoted, htext, hinvalid, hend⟩ := ih
      exact ⟨'\\' :: e :: inside, e :: es, tail, hquoted.escape, by simp [body, htext],
        by simp [body, hinvalid, hc], hend⟩
  | case5 e cs body hc ih =>
      obtain ⟨inside, es, tail, hquoted, htext, hinvalid, hend⟩ := ih
      exact ⟨'\\' :: e :: inside, e :: es, tail, hquoted.escape, by simp [body, htext],
        by simp [hc], hend⟩
  | case6 c cs hquote hlone hslash body ih =>
      obtain ⟨inside, es, tail, hquoted, htext, hinvalid, hend⟩ := ih
      refine ⟨c :: inside, es, tail, .plain ?_ ?_ hquoted, by simp [body, htext], hinvalid, hend⟩
      · rintro rfl
        exact hquote rfl
      · rintro rfl
        -- A backslash is read alone at the end of the text, and else with the character behind it.
        cases cs with
        | nil => exact hlone rfl rfl
        | cons e cs => exact hslash e cs rfl rfl

theorem textOf_stringFragment {cs : List Char} {fault : LexicalFault}
    (h : (stringFragment cs).found = .error fault) (line : Nat) :
    TextOf (.error ⟨fault, line⟩) (stringFragment cs).text (stringFragment cs).rest := by
  obtain ⟨body, es, tail, hquoted, htext, hinvalid, hend⟩ := stringBody_quoted cs
  simp only [stringFragment, htext] at h ⊢
  cases hclosed : (stringBody cs).closed with
  | false =>
      simp only [hclosed, Bool.not_false, if_true, Except.error.injEq] at h
      simp only [hclosed, Bool.false_eq_true, if_false] at hend
      obtain ⟨htail, hrest⟩ := hend
      rw [← h, hrest]
      exact .unclosedString hquoted htail
  | true =>
      simp only [hclosed, if_true] at hend
      simp only [hclosed, Bool.not_true, Bool.false_eq_true, if_false] at h
      split at h
      · rename_i c hc
        cases h
        rw [hend]
        exact .invalidEscape hquoted (hinvalid.symm.trans hc)
      · cases h

theorem textOf_of_error {c : Char} {cs : List Char} {fault : LexicalFault}
    (h : (fragment c cs).found = .error fault) (line : Nat) :
    TextOf (.error ⟨fault, line⟩) (fragment c cs).text (fragment c cs).rest := by
  revert h
  fun_cases fragment c cs with
  | case1 => exact fun h => by cases h
  | case2 => exact fun h => by cases h
  | case3 cs _ alone joined hjoining hrest =>
      intro h
      -- Of the characters that join a `=` only `!` means nothing alone.
      obtain ⟨rfl, rfl⟩ : c = '!' ∧ alone = .error .strayBang := by
        unfold joining? at hjoining
        split at hjoining <;> cases hjoining <;> first | exact ⟨rfl, rfl⟩ | cases h
      cases h
      refine .strayBang fun hhead => ?_
      obtain ⟨rest, hrest'⟩ := List.head?_eq_some_iff.mp hhead
      exact hrest rest hrest'
  | case4 => exact fun h => textOf_stringFragment h line
  | case5 =>
      intro h
      unfold numberFragment at h
      split at h <;> cases h
  | case6 => exact fun h => by cases h
  | case7 =>
      intro h
      cases h
      exact .illegalCharacter

theorem fragment_text_ne_nil (c : Char) (cs : List Char) : (fragment c cs).text ≠ [] := by
  intro htext
  have hsplit := congrArg List.length (fragment_split c cs)
  have hrest := fragment_rest_length c cs
  rw [htext, List.nil_append, List.length_cons] at hsplit
  omega

/-- A fragment is the text of its item. -/
theorem textOf_fragment (c : Char) (cs : List Char) (line : Nat) :
    TextOf (Scanner.itemOf (fragment c cs) line) (fragment c cs).text (fragment c cs).rest := by
  unfold Scanner.itemOf
  split
  · rename_i kind literal hfound
    have hgenuine := genuine_fragment c cs kind literal line hfound
    have hlexeme : String.ofList (fragment c cs).text ≠ "" := by
      simpa using fragment_text_ne_nil c cs
    have htoken : TextOf _ _ (fragment c cs).rest := .token hgenuine.kind_ne_eof hlexeme
    rwa [String.toList_ofList] at htoken
  · rename_i fault hfound
    exact textOf_of_error hfound line

/-! ## The pieces, one after the other -/

/-- The pieces that a scanner takes. -/
inductive Scanner.Takes : Scanner → List Piece → Prop
  /-- The text ends behind a line feed. -/
  | eof {s : Scanner} : Trivia [] s.rest → Takes s [⟨s.rest, [], .ok (.plain .eof "" s.line)⟩]
  /-- The text ends within a line. -/
  | newline {s : Scanner} : Trivia [] s.rest →
      Takes s [⟨s.rest, [], .ok (.plain .newline "" s.line)⟩, ⟨[], [], .ok (.plain .eof "" s.line)⟩]
  | found {s : Scanner} {trivia c cs ps} : s.rest = trivia ++ c :: cs → Trivia (c :: cs) trivia →
      Takes (s.after (fragment c cs)) ps →
      Takes s (⟨trivia, (fragment c cs).text, itemOf (fragment c cs) s.line⟩ :: ps)

namespace Scanner

theorem next_of_step?_eq_none {s : Scanner} (h : s.step? = none) :
    s.next = (.ok s.finish.1, s.finish.2) := by
  simp [next, h]

/-- At the end of the text what is left is trivia. -/
theorem piece_of_nil {s : Scanner} (h : skipTrivia false s.rest = []) :
    s.piece = ⟨s.rest, [], .ok s.finish.1⟩ := by
  have hstep : s.step? = none := by simp [step?, h]
  simp [piece, h, next_of_step?_eq_none hstep]

theorem take_front (front back : List Char) :
    (front ++ back).take ((front ++ back).length - back.length) = front := by
  simp

theorem piece_of_cons {s : Scanner} {trivia : List Char} {c : Char} {cs : List Char}
    (hrest : s.rest = trivia ++ c :: cs) (h : skipTrivia false s.rest = c :: cs) :
    s.piece = ⟨trivia, (fragment c cs).text, itemOf (fragment c cs) s.line⟩ := by
  have hnext : s.next = (itemOf (fragment c cs) s.line, s.after (fragment c cs)) := by
    simp [next, step?, h]
  have htrivia := take_front trivia (c :: cs)
  have htext := take_front (fragment c cs).text (fragment c cs).rest
  rw [fragment_split] at htext
  simp only [piece, h, hnext, after, htext]
  rw [hrest, htrivia]

/-- The calls at the end of the text. -/
theorem takes_ending {s : Scanner} (h : skipTrivia false s.rest = []) :
    s.Takes (s.calls s.ending.1.length)
      ∧ (s.calls s.ending.1.length).map Piece.item = s.ending.1 := by
  obtain ⟨trivia, hsplit, htrivia⟩ := skipTrivia_split s.rest
  rw [h, List.append_nil] at hsplit
  rw [h, ← hsplit] at htrivia
  have hnext : s.next.2 = s.finish.2 := by
    rw [next_of_step?_eq_none (by simp [step?, h])]
  cases hlacks : s.lacksNewline with
  | false =>
      have hending : s.ending.1 = [.ok (.plain .eof "" s.line)] := by simp [ending, finish, hlacks]
      have hpiece : s.piece = ⟨s.rest, [], .ok (.plain .eof "" s.line)⟩ := by
        simp [piece_of_nil h, finish, hlacks]
      rw [hending, List.length_singleton, calls, calls, hpiece]
      exact ⟨.eof htrivia, rfl⟩
  | true =>
      have hfinish : s.finish
          = (.plain .newline "" s.line, { s with rest := [], latest := some .newline }) := by
        simp [finish, hlacks]
      have hending : s.ending.1 = [.ok (.plain .newline "" s.line), .ok (.plain .eof "" s.line)] := by
        simp only [ending, hlacks, hfinish, if_true]
        rfl
      rw [hending, List.length_cons, List.length_singleton, calls, calls, calls, piece_of_nil h,
        hnext, hfinish, piece_of_nil rfl]
      exact ⟨.newline htrivia, rfl⟩

/-- The calls for the items give the items. -/
theorem takes_pieces (s : Scanner) : s.Takes s.pieces ∧ s.pieces.map Piece.item = s.items.1 := by
  unfold pieces
  -- One call for one item: the number of calls goes down with the recursion of `items`.
  fun_induction items s with
  | case1 s hstep =>
      cases hskip : skipTrivia false s.rest with
      | nil => exact takes_ending hskip
      | cons c cs =>
          simp only [step?, hskip] at hstep
          cases hstep
  | case2 s item s' hstep rest last hitems ih =>
      have hnext : s.next = (item, s') := by simp [next, hstep]
      rw [hitems] at ih
      rw [List.length_cons, calls, hnext]
      refine ⟨?_, ?_⟩
      · cases hskip : skipTrivia false s.rest with
        | nil =>
            simp only [step?, hskip] at hstep
            cases hstep
        | cons c cs =>
            obtain ⟨trivia, hsplit, htrivia⟩ := skipTrivia_split s.rest
            rw [hskip] at hsplit htrivia
            simp only [step?, hskip, Option.some.injEq, Prod.mk.injEq] at hstep
            rw [piece_of_cons hsplit hskip]
            exact .found hsplit htrivia (hstep.2 ▸ ih.1)
      · rw [List.map_cons, ih.2, piece, hnext]

namespace Takes

variable {s : Scanner} {ps : List Piece}

/-- The pieces are all of the text. -/
theorem chars (h : s.Takes ps) : ps.flatMap Piece.chars = s.rest := by
  induction h with
  | eof _ => simp [Piece.chars]
  | newline _ => simp [Piece.chars]
  | found hrest _ _ ih =>
      rw [List.flatMap_cons, ih, hrest, Piece.chars, List.append_assoc]
      exact congrArg _ (fragment_split _ _)

/-- Only the last piece has the end marker. -/
theorem eof_last (h : s.Takes ps) : ∃ front line,
    ps.map Piece.item = front ++ [.ok (.plain .eof "" line)] ∧ ∀ t, .ok t ∈ front → t.kind ≠ .eof := by
  induction h with
  | eof _ => exact ⟨[], _, rfl, fun t ht => by cases ht⟩
  | newline _ =>
      refine ⟨[.ok (.plain .newline "" _)], _, rfl, fun t ht => ?_⟩
      cases List.mem_singleton.mp ht
      exact fun hkind => by cases hkind
  | @found s _ c cs _ _ _ _ ih =>
      obtain ⟨front, line, hitems, hfront⟩ := ih
      refine ⟨itemOf (fragment c cs) s.line :: front, line, ?_, fun t ht => ?_⟩
      · rw [List.map_cons, hitems, List.cons_append]
      · obtain ht | ht := List.mem_cons.mp ht
        · exact (genuine_of_itemOf ht.symm).kind_ne_eof
        · exact hfront t ht

/-- Where the scanner stands in front of a piece. -/
theorem behind (h : s.Takes ps) {before after : List Piece} {p : Piece}
    (hps : ps = before ++ p :: after) : ∃ s' : Scanner, s'.Takes (p :: after)
      ∧ s'.line = s.line + (before.flatMap Piece.chars).count '\n' := by
  induction h generalizing before with
  | @eof s htrivia =>
      cases before with
      | nil =>
          cases hps
          exact ⟨s, .eof htrivia, rfl⟩
      | cons q before => simp at hps
  | @newline s htrivia =>
      cases before with
      | nil =>
          cases hps
          exact ⟨s, .newline htrivia, rfl⟩
      | cons q before =>
          cases before with
          | nil =>
              cases hps
              -- Behind the line feed that is added at the end nothing is left of the text.
              refine ⟨{ s with rest := [] }, .eof .nil, ?_⟩
              simp [Piece.chars, htrivia.count_newline]
          | cons q' before => simp at hps
  | @found s trivia c cs ps hrest htrivia htakes ih =>
      cases before with
      | nil =>
          cases hps
          exact ⟨s, .found hrest htrivia htakes, rfl⟩
      | cons q before =>
          cases hps
          obtain ⟨s', htakes', hline⟩ := ih rfl
          refine ⟨s', htakes', ?_⟩
          simp [hline, Scanner.after, Piece.chars, htrivia.count_newline, Nat.add_assoc]

/-- The first piece is trivia and the text of its item, in front of the pieces behind it. -/
theorem reads {p : Piece} (h : s.Takes (p :: ps)) :
    Trivia (p.text ++ ps.flatMap Piece.chars) p.trivia
      ∧ TextOf p.item p.text (ps.flatMap Piece.chars) := by
  cases h with
  | eof htrivia => exact ⟨htrivia, .eof⟩
  | newline htrivia => exact ⟨htrivia, .newline⟩
  | @found _ trivia c cs _ _ htrivia htakes =>
      rw [htakes.chars]
      refine ⟨?_, textOf_fragment c cs s.line⟩
      change Trivia ((fragment c cs).text ++ (fragment c cs).rest) trivia
      rwa [fragment_split]

end Takes

end Scanner

/-- **Nothing of a source is lost.** The calls of the scanner give the tokens and the errors of the
    source up to the end marker. The pieces that they take lie one behind the other and make up the
    source, and each one is trivia and then the text of its item: the lexeme of a token, which is
    empty at most at the end of the source, or what was found to be faulty. -/
theorem pieces_make_up_source (source : String) :
    let pieces := (Scanner.ofSource source).pieces
    tokenize source = (tokensOf (pieces.map Piece.item), errorsOf (pieces.map Piece.item))
    ∧ (∃ front line, pieces.map Piece.item = front ++ [.ok (.plain .eof "" line)]
      ∧ ∀ t, .ok t ∈ front → t.kind ≠ .eof)
    ∧ pieces.flatMap Piece.chars = source.toList
    ∧ ∀ before p after, pieces = before ++ p :: after →
      Trivia (p.text ++ after.flatMap Piece.chars) p.trivia
        ∧ TextOf p.item p.text (after.flatMap Piece.chars) := by
  obtain ⟨htakes, hitems⟩ := (Scanner.ofSource source).takes_pieces
  refine ⟨by rw [hitems]; rfl, htakes.eof_last, htakes.chars, fun before p after hpieces => ?_⟩
  obtain ⟨_, hbehind, _⟩ := htakes.behind hpieces
  exact hbehind.reads

/-- A comment, a stray `!`, a string with a faulty escape sequence, an illegal character, and a
    string that goes up to the end of the source. -/
theorem pieces_make_up_source_faulty :
    let source := "\tx # y\n!\"\\q\" @\r\"z"
    let pieces := (Scanner.ofSource source).pieces
    pieces.map (fun p => (String.ofList p.trivia, String.ofList p.text))
      = [("\t", "x"), (" # y", "\n"), ("", "!"), ("", "\"\\q\""), (" ", "@"), ("\r", "\"z"), ("", "")]
    ∧ (tokenize source).2.map LexicalError.fault
      = [.strayBang, .invalidEscape 'q', .illegalCharacter '@', .unclosedString]
    ∧ pieces.flatMap Piece.chars = source.toList :=
  ⟨by decide +kernel, by decide +kernel, (pieces_make_up_source _).2.2.1⟩

end Script
