import Script.Proofs.Token.Pieces

/-!
# `Proofs.Token.Spacing` — tokens with blanks between them

What the scanner takes for a token may depend on what follows: `=` is another token in front of `=`,
and a name goes on as far as it can. In front of a blank it does not. There a token is determined by
its own text (`fragment_respaced`), so the lexemes of a source can be written down again with any
blanks behind them (`tokenize_spaced`).
-/

namespace Script

/-- The lexemes of tokens, each with a gap behind it. -/
def spaced (ts : List Token) (gaps : List (List Char)) : List Char :=
  (List.zipWith (fun t gap => t.lexeme.toList ++ gap) ts gaps).flatten

theorem spaced_cons (t : Token) (ts : List Token) (gap : List Char) (gaps : List (List Char)) :
    spaced (t :: ts) (gap :: gaps) = t.lexeme.toList ++ (gap ++ spaced ts gaps) := by
  simp [spaced]

/-! ## Blanks -/

theorem breaks_of_isTokenBlank {b : Char} (h : isTokenBlank b = true) (rest : List Char) :
    breaks (b :: rest) = true := by
  obtain rfl | rfl | rfl := isTokenBlank_iff.mp h <;> simp [breaks] <;> decide

theorem skipTrivia_blanks {blanks : List Char} (h : ∀ c ∈ blanks, isTokenBlank c = true)
    (cs : List Char) : skipTrivia false (blanks ++ cs) = skipTrivia false cs := by
  induction blanks with
  | nil => rfl
  | cons b blanks ih =>
      obtain ⟨hb, hblanks⟩ := List.forall_mem_cons.mp h
      have hhash : b ≠ '#' := by
        rintro rfl
        cases hb
      rw [List.cons_append, skipTrivia, if_neg Bool.false_ne_true, if_neg hhash, if_pos hb,
        ih hblanks]

/-- Without the lexemes only gaps are left. -/
theorem blank_of_mem_spaced {ts : List Token} {gaps : List (List Char)}
    (hts : ∀ t ∈ ts, t.lexeme = "") (hgaps : ∀ gap ∈ gaps, ∀ c ∈ gap, isTokenBlank c = true) :
    ∀ c ∈ spaced ts gaps, isTokenBlank c = true := by
  induction ts generalizing gaps with
  | nil => simp [spaced]
  | cons t ts ih =>
      cases gaps with
      | nil => simp [spaced]
      | cons gap gaps =>
          obtain ⟨ht, hts⟩ := List.forall_mem_cons.mp hts
          obtain ⟨hgap, hgaps⟩ := List.forall_mem_cons.mp hgaps
          rw [spaced_cons, ht, String.toList_empty, List.nil_append]
          exact List.forall_mem_append.mpr ⟨hgap, ih hts hgaps⟩

/-! ## A token in front of a blank -/

/-- The inside of a string is determined by its own text. -/
theorem Quoted.stringBody_eq {body es : List Char} (h : Quoted body es) : ∃ invalid value,
    ∀ rest, stringBody (body ++ '"' :: rest) = ⟨true, invalid, value, body ++ ['"'], rest⟩ := by
  induction h with
  | nil => exact ⟨none, [], fun _ => rfl⟩
  | @plain c cs es hquote hslash _ ih =>
      obtain ⟨invalid, value, ih⟩ := ih
      refine ⟨invalid, c :: value, fun rest => ?_⟩
      rw [List.cons_append, stringBody, ih rest] <;> simp_all
  | @escape e cs es _ ih =>
      obtain ⟨invalid, value, ih⟩ := ih
      cases he : unescape? e with
      | some c => exact ⟨invalid, c :: value, fun rest => by simp [stringBody, he, ih rest]⟩
      | none => exact ⟨some e, value, fun rest => by simp [stringBody, he, ih rest]⟩

theorem stringFragment_respaced {cs : List Char} {found : TokenKind × Option Literal}
    (h : (stringFragment cs).found = .ok found) (rest : List Char) :
    stringFragment ((stringFragment cs).text.tail ++ rest)
      = ⟨(stringFragment cs).found, (stringFragment cs).text, rest⟩ := by
  obtain ⟨body, es, tail, hquoted, htext, _, hend⟩ := stringBody_quoted cs
  cases hclosed : (stringBody cs).closed with
  | false => simp [stringFragment, hclosed] at h
  | true =>
      simp only [hclosed, if_true] at hend
      subst hend
      obtain ⟨invalid, value, hbody⟩ := hquoted.stringBody_eq
      -- The text that was read has the closing quote behind the same body, so it gives the same.
      have hcs : stringBody cs = ⟨true, invalid, value, body ++ ['"'], (stringBody cs).rest⟩ := by
        rw [← hbody, ← List.singleton_append, ← List.append_assoc, ← htext, stringBody_split]
      have hagain := hbody rest
      simp only [stringFragment, List.tail_cons, htext]
      rw [List.append_assoc, List.singleton_append, hagain, hcs]

/-- The digits of a number in front of a break are the digits of the number. -/
theorem numberFragment_respaced (cs : List Char) {rest : List Char} (h : breaks rest = true) :
    numberFragment ((numberFragment cs).text ++ rest)
      = ⟨(numberFragment cs).found, (numberFragment cs).text, rest⟩ := by
  have hdigits : ∀ ds : List Char, ∀ c ∈ ds.takeWhile Char.isDigit, c.isDigit = true :=
    fun _ => List.all_eq_true.mp List.all_takeWhile
  fun_cases numberFragment cs with
  | case1 whole hparts =>
      obtain ⟨rfl, _⟩ := Prod.mk.inj hparts
      exact numberFragment_whole (hdigits cs) h
  | case2 whole fraction hparts =>
      obtain ⟨rfl, hfraction⟩ := Prod.mk.inj hparts
      split at hfraction
      · rename_i d more _
        split at hfraction
        · rename_i hd
          cases hfraction
          have hds := hdigits (d :: more)
          rw [List.takeWhile_cons_of_pos hd] at hds ⊢
          rw [List.append_assoc, List.cons_append]
          exact numberFragment_fraction (hdigits cs) hds h
        · cases hfraction
      · cases hfraction

theorem wordFragment_respaced (c : Char) (cs : List Char) {rest : List Char}
    (h : breaks rest = true) :
    wordFragment c (cs.takeWhile continuesWord ++ rest)
      = ⟨(wordFragment c cs).found, (wordFragment c cs).text, rest⟩ := by
  have hword : ∀ d ∈ cs.takeWhile continuesWord, continuesWord d = true :=
    List.all_eq_true.mp List.all_takeWhile
  obtain ⟨htake, hdrop⟩ := span_of_breaks hword (takeWhile_eq_nil_of_breaks h fun _ => .inl)
  simp only [wordFragment, htake, hdrop]

theorem fragment_text_eq_cons (c : Char) (cs : List Char) :
    (fragment c cs).text = c :: (fragment c cs).text.tail := by
  have hsplit := fragment_split c cs
  cases htext : (fragment c cs).text with
  | nil => exact absurd htext (fragment_text_ne_nil c cs)
  | cons d text =>
      rw [htext] at hsplit
      rw [(List.cons.inj hsplit).1, List.tail_cons]

/-- In front of a blank a token is determined by its own text. -/
theorem fragment_respaced {c : Char} {cs : List Char} {found : TokenKind × Option Literal}
    (h : (fragment c cs).found = .ok found) {b : Char} (hb : isTokenBlank b = true)
    (rest : List Char) :
    fragment c ((fragment c cs).text.tail ++ b :: rest)
      = ⟨.ok found, (fragment c cs).text, b :: rest⟩ := by
  have hbreaks := breaks_of_isTokenBlank hb rest
  rw [← h]
  revert h
  fun_cases fragment c cs with
  | case1 _ kind hsymbol =>
      intro h
      simp [fragment, hsymbol]
  | case2 hsymbol alone joined _ hjoining =>
      intro h
      simp [fragment, hsymbol, hjoining]
  | case3 _ hsymbol alone joined hjoining _ =>
      intro h
      -- Only a `=` behind it would make another token of it.
      obtain rfl | rfl | rfl := isTokenBlank_iff.mp hb <;> simp [fragment, hsymbol, hjoining]
  | case4 _ hsymbol hjoining hquote =>
      subst hquote
      intro h
      exact stringFragment_respaced h _
  | case5 _ hsymbol hjoining hquote hdigit =>
      intro h
      have hcons := fragment_text_eq_cons c cs
      rw [fragment_of_isDigit cs hdigit] at hcons
      rw [fragment_of_isDigit _ hdigit, ← List.cons_append, ← hcons]
      exact numberFragment_respaced (c :: cs) hbreaks
  | case6 _ hsymbol hjoining hquote hdigit hword =>
      intro h
      rw [fragment_of_startsWord _ hword]
      exact wordFragment_respaced c cs hbreaks
  | case7 => exact fun h => by cases h

/-! ## The stream of tokens -/

namespace Scanner

theorem step?_blanks {blanks : List Char} (h : ∀ c ∈ blanks, isTokenBlank c = true)
    (cs : List Char) (line : Nat) (latest : Option TokenKind) :
    step? ⟨blanks ++ cs, line, latest⟩ = step? ⟨cs, line, latest⟩ := by
  unfold step?
  rw [skipTrivia_blanks h]
  rfl

/-- A step that gives a token gives it again from the token's own text, with blanks on both
    sides. -/
theorem step?_respaced {s s' : Scanner} {t : Token} (h : s.step? = some (.ok t, s'))
    {lead gap : List Char} (hlead : ∀ c ∈ lead, isTokenBlank c = true) (hne : gap ≠ [])
    (hgap : ∀ c ∈ gap, isTokenBlank c = true) (more : List Char) :
    step? ⟨lead ++ (t.lexeme.toList ++ (gap ++ more)), s.line, s.latest⟩
      = some (.ok t, ⟨gap ++ more, s'.line, s'.latest⟩) := by
  rw [step?_blanks hlead]
  unfold step? at h
  split at h
  · cases h
  · rename_i c cs _
    simp only [Option.some.injEq, Prod.mk.injEq] at h
    obtain ⟨hitem, rfl⟩ := h
    cases hfound : (fragment c cs).found with
    | error fault =>
        simp only [itemOf, hfound] at hitem
        cases hitem
    | ok found =>
        obtain ⟨kind, literal⟩ := found
        simp only [itemOf, hfound, Except.ok.injEq] at hitem
        subst hitem
        obtain ⟨b, blanks, rfl⟩ := List.exists_cons_of_ne_nil hne
        have hfragment := fragment_respaced hfound (hgap b List.mem_cons_self) (blanks ++ more)
        have hrest : (String.ofList (fragment c cs).text).toList ++ (b :: blanks ++ more)
            = c :: ((fragment c cs).text.tail ++ b :: (blanks ++ more)) := by
          rw [String.toList_ofList, ← List.cons_append, ← fragment_text_eq_cons, List.cons_append]
        rw [step?_of_fragment hrest hfragment]
        simp [after, hfound]

/-- What ends the stream has no text. -/
theorem lexeme_of_ending {s : Scanner} : ∀ t ∈ tokensOf s.ending.1, t.lexeme = "" := by
  unfold ending
  split <;> simp [tokensOf, finish, Token.plain]

/-- The tokens of a text without errors, with blanks behind them. -/
theorem items_spaced (s : Scanner) (herrors : errorsOf s.items.1 = []) {gaps : List (List Char)}
    (hlength : gaps.length = (tokensOf s.items.1).length)
    (hgaps : ∀ gap ∈ gaps, gap ≠ [] ∧ ∀ c ∈ gap, isTokenBlank c = true)
    (lead : List Char) (hlead : ∀ c ∈ lead, isTokenBlank c = true) :
    (items ⟨lead ++ spaced (tokensOf s.items.1) gaps, s.line, s.latest⟩).1 = s.items.1 := by
  -- The gap behind a token stands in front of the tokens that follow, so it is their `lead`.
  fun_induction items s generalizing gaps lead with
  | case1 s hstep =>
      -- What ends the stream depends on the line and on the token before, not on the blanks left.
      have hblank : ∀ c ∈ lead ++ spaced (tokensOf s.ending.1) gaps, isTokenBlank c = true := by
        intro c hc
        obtain hc | hc := List.mem_append.mp hc
        · exact hlead c hc
        · exact blank_of_mem_spaced lexeme_of_ending (fun gap hgap => (hgaps gap hgap).2) c hc
      have hend : step? ⟨lead ++ spaced (tokensOf s.ending.1) gaps, s.line, s.latest⟩ = none := by
        rw [← List.append_nil (lead ++ _), step?_blanks hblank]
        rfl
      rw [items_of_step?_eq_none hend]
      rfl
  | case2 s item s' hstep rest last hitems ih =>
      rw [hitems] at ih
      cases item with
      | error e => cases herrors
      | ok t =>
          cases gaps with
          | nil => cases hlength
          | cons gap gaps =>
              obtain ⟨⟨hne, hgap⟩, hgaps⟩ := List.forall_mem_cons.mp hgaps
              change (items ⟨lead ++ spaced (t :: tokensOf rest) (gap :: gaps), _, _⟩).1 = _
              rw [spaced_cons, items_of_step?_eq_some (step?_respaced hstep hlead hne hgap _),
                ih herrors (Nat.succ.inj hlength) hgaps gap hgap]

end Scanner

/-- **Tokens stay what they are when they are spaced out.** The lexemes of a source without errors,
    written down again with at least one blank behind each, are a text without errors that has the
    same tokens. They keep their lines too, since a line feed is a token or lies inside a string. -/
theorem tokenize_spaced (source : String) (herrors : (tokenize source).2 = [])
    (gaps : List (List Char)) (hlength : gaps.length = (tokenize source).1.length)
    (hgaps : ∀ gap ∈ gaps, gap ≠ [] ∧ ∀ c ∈ gap, c = ' ' ∨ c = '\t' ∨ c = '\r') :
    tokenize (String.ofList (spaced (tokenize source).1 gaps)) = ((tokenize source).1, []) := by
  have hblank : ∀ gap ∈ gaps, gap ≠ [] ∧ ∀ c ∈ gap, isTokenBlank c = true := by
    intro gap hgap
    obtain ⟨hne, hcs⟩ := hgaps gap hgap
    refine ⟨hne, fun c hc => ?_⟩
    obtain rfl | rfl | rfl := hcs c hc <;> rfl
  have hitems := Scanner.items_spaced (Scanner.ofSource source) herrors hlength hblank
    [] (fun c hc => by cases hc)
  have hsource : Scanner.ofSource (String.ofList (spaced (tokenize source).1 gaps))
      = ⟨[] ++ spaced (tokenize source).1 gaps, 1, none⟩ := by
    simp [Scanner.ofSource]
  calc tokenize (String.ofList (spaced (tokenize source).1 gaps))
      = tokenize source := by
        rw [tokenize, hsource]
        exact congrArg (fun items => (tokensOf items, errorsOf items)) hitems
    _ = ((tokenize source).1, []) := by rw [← herrors]

/-- A string of two lines, a joined symbol and a fraction, in front of a comment that ends the
    text. -/
theorem tokenize_spaced_joined_fraction :
    let source := "x=\"a\n\\\"\"==1.5# z"
    let gaps := [[' '], ['\t', '\r'], [' '], ['\r'], ['\t'], [' ', ' '], [' ']]
    let text := "x =\t\r\"a\n\\\"\" ==\r1.5\t   "
    (tokenize source).2 = [] ∧ gaps.length = (tokenize source).1.length
    ∧ String.ofList (spaced (tokenize source).1 gaps) = text
    ∧ (tokenize source).1.map (fun t => (t.kind, t.line))
      = [(.identifier, 1), (.equal, 1), (.string, 1), (.equalEqual, 2), (.number, 2), (.newline, 2),
        (.eof, 2)]
    ∧ tokenize text = ((tokenize source).1, []) := by
  intro source gaps text
  have herrors : (tokenize source).2 = [] := by decide +kernel
  have hlength : gaps.length = (tokenize source).1.length := by decide +kernel
  have htext : String.ofList (spaced (tokenize source).1 gaps) = text := by decide +kernel
  refine ⟨herrors, hlength, htext, by decide +kernel, ?_⟩
  rw [← htext]
  exact tokenize_spaced source herrors gaps hlength (by simp [gaps])

end Script
