import Script.Proofs.Token.Pieces

/-!
# `Proofs.Token.Stream` — the shape of the token stream

The scanner is called again and again, and may be called on after the end of the text. What it gives
there depends on the kind of the token that it gave last, which errors and trivia leave alone. So
the scanner's memory is tied to the tokens that were given so far (`Scanner.latest_advance`), and
each call is one of three (`Scanner.next_cases`): it finds an item in the text, or it supplies the
missing line feed, or it gives the end marker. Behind the last two there is nothing left to find
(`Scanner.Spent`).

The main statement is `token_stream_shaped`.
-/

namespace Script

namespace Scanner

variable {s : Scanner}

/-- The scanner after a number of calls. -/
def advance (s : Scanner) : Nat → Scanner
  | 0 => s
  | n + 1 => (s.advance n).next.2

/-- What the call after `n` calls gives. -/
def call (s : Scanner) (n : Nat) : Item := (s.advance n).next.1

/-- What the first `n` calls give. -/
def given (s : Scanner) (n : Nat) : List Item := (List.range n).map s.call

/-- The line feed that is missing at the end of the text. -/
def Supplied (item : Item) : Prop := ∃ line, item = .ok (.plain .newline "" line)

/-! ## One call -/

/-- The scanner is at the end of the text, and no line feed is missing. -/
structure Spent (s : Scanner) : Prop where
  rest : s.rest = []
  complete : s.lacksNewline = false

theorem next_of_nil (h : skipTrivia false s.rest = []) :
    s.next = (.ok s.finish.1, s.finish.2) :=
  next_of_step?_eq_none (by simp [step?, h])

theorem finish_of_lacksNewline (h : s.lacksNewline = true) :
    s.finish = (.plain .newline "" s.line, { s with rest := [], latest := some .newline }) := by
  simp [finish, h]

theorem finish_of_complete (h : s.lacksNewline = false) :
    s.finish = (.plain .eof "" s.line, { s with rest := [], latest := some .eof }) := by
  simp [finish, h]

/-- What a call does: it finds an item, it supplies a line feed, or it gives the end marker. -/
theorem next_cases (s : Scanner) :
    (∃ trivia c cs, s.rest = trivia ++ c :: cs ∧ Trivia (c :: cs) trivia
      ∧ s.next = (itemOf (fragment c cs) s.line, s.after (fragment c cs)))
    ∨ (Trivia [] s.rest ∧ s.lacksNewline = true
      ∧ s.next = (.ok (.plain .newline "" s.line), { s with rest := [], latest := some .newline }))
    ∨ (Trivia [] s.rest ∧ s.lacksNewline = false
      ∧ s.next = (.ok (.plain .eof "" s.line), { s with rest := [], latest := some .eof })) := by
  obtain ⟨trivia, hsplit, htrivia⟩ := skipTrivia_split s.rest
  cases hskip : skipTrivia false s.rest with
  | cons c cs =>
      rw [hskip] at hsplit htrivia
      exact .inl ⟨trivia, c, cs, hsplit, htrivia, by simp [next, step?, hskip]⟩
  | nil =>
      rw [hskip, List.append_nil] at hsplit
      rw [hskip, ← hsplit] at htrivia
      cases hlacks : s.lacksNewline with
      | true => exact .inr (.inl ⟨htrivia, rfl, by rw [next_of_nil hskip, finish_of_lacksNewline hlacks]⟩)
      | false => exact .inr (.inr ⟨htrivia, rfl, by rw [next_of_nil hskip, finish_of_complete hlacks]⟩)

/-- Behind a supplied line feed nothing is left. -/
theorem spent_of_supplied (h : Supplied s.next.1) : s.next.2.Spent := by
  obtain ⟨line, hitem⟩ := h
  obtain ⟨trivia, c, cs, -, -, hnext⟩ | ⟨-, -, hnext⟩ | ⟨-, -, hnext⟩ := s.next_cases
  · rw [hnext] at hitem
    -- What is found in the text has a lexeme that is not empty.
    have htext := textOf_fragment c cs s.line
    rw [show itemOf (fragment c cs) s.line = _ from hitem] at htext
    generalize htaken : (fragment c cs).text = taken, (fragment c cs).rest = rest at htext
    cases htext with
    | token _ hlexeme => exact absurd rfl hlexeme
    | newline => exact absurd htaken (fragment_text_ne_nil c cs)
  · rw [hnext]
    exact ⟨rfl, rfl⟩
  · rw [hnext]
    exact ⟨rfl, rfl⟩

/-- The end marker is given when no line feed is missing, and nothing is left behind it. -/
theorem complete_of_eof {t : Token} (h : s.next.1 = .ok t) (hkind : t.kind = .eof) :
    s.lacksNewline = false ∧ t = .plain .eof "" s.line ∧ s.next.2.Spent ∧ s.next.2.line = s.line := by
  obtain ⟨trivia, c, cs, -, -, hnext⟩ | ⟨-, -, hnext⟩ | ⟨-, hlacks, hnext⟩ := s.next_cases
  · rw [hnext] at h
    exact absurd hkind (genuine_of_itemOf h).kind_ne_eof
  · rw [hnext] at h
    cases h
    cases hkind
  · rw [hnext] at h ⊢
    cases h
    exact ⟨hlacks, rfl, ⟨rfl, rfl⟩, rfl⟩

/-- A call at the end gives the end marker, and there it stays. -/
theorem Spent.next (hs : s.Spent) :
    s.next.1 = .ok (.plain .eof "" s.line) ∧ s.next.2.Spent ∧ s.next.2.line = s.line := by
  have hnext : s.next = (.ok (.plain .eof "" s.line), { s with rest := [], latest := some .eof }) := by
    rw [next_of_nil (by rw [hs.rest]; rfl), finish_of_complete hs.complete]
  rw [hnext]
  exact ⟨rfl, ⟨rfl, rfl⟩, rfl⟩

/-- The scanner remembers the kind of a token that it gives, and an error leaves its memory
    alone. -/
theorem latest_next (s : Scanner) :
    s.next.2.latest = ((tokensOf [s.next.1]).getLast?.map Token.kind).or s.latest := by
  obtain ⟨trivia, c, cs, -, -, hnext⟩ | ⟨-, -, hnext⟩ | ⟨-, -, hnext⟩ := s.next_cases
  · rw [hnext]
    cases hfound : (fragment c cs).found with
    | ok found => simp [itemOf, after, hfound, tokensOf]
    | error fault => simp [itemOf, after, hfound, tokensOf]
  · rw [hnext]
    rfl
  · rw [hnext]
    rfl

/-- What a call reads: an item of the text with at least one character, or the rest of the text, if
    it is trivia, in front of a line feed or an end marker that is not in the text. -/
inductive Reads (s : Scanner) : Item → Scanner → Prop
  | found {trivia text item s'} : s.rest = trivia ++ text ++ s'.rest →
      Trivia (text ++ s'.rest) trivia → text ≠ [] → TextOf item text s'.rest → Reads s item s'
  | supplied {line s'} : Trivia [] s.rest → s'.rest = [] →
      Reads s (.ok (.plain .newline "" line)) s'
  | ended {line s'} : Trivia [] s.rest → s'.rest = [] → Reads s (.ok (.plain .eof "" line)) s'

theorem reads_next (s : Scanner) : s.Reads s.next.1 s.next.2 := by
  obtain ⟨trivia, c, cs, hrest, htrivia, hnext⟩ | ⟨htrivia, -, hnext⟩ | ⟨htrivia, -, hnext⟩ :=
    s.next_cases
  · rw [hnext]
    have hsplit := fragment_split c cs
    have htext : s.rest = trivia ++ (fragment c cs).text ++ (s.after (fragment c cs)).rest := by
      rw [hrest, List.append_assoc, after, hsplit]
    refine .found htext ?_ (fragment_text_ne_nil c cs) (textOf_fragment c cs s.line)
    rw [after, hsplit]
    exact htrivia
  · rw [hnext]
    exact .supplied htrivia rfl
  · rw [hnext]
    exact .ended htrivia rfl

/-! ## Many calls -/

theorem given_succ (s : Scanner) (n : Nat) : s.given (n + 1) = s.given n ++ [s.call n] := by
  simp [given, List.range_succ]

theorem advance_next (s : Scanner) (n : Nat) : s.next.2.advance n = s.advance (n + 1) := by
  induction n with
  | zero => rfl
  | succ n ih => rw [advance, ih]; rfl

/-- The pieces that a number of calls take have the items that the calls give. -/
theorem items_calls (s : Scanner) (n : Nat) : (s.calls n).map Piece.item = s.given n := by
  induction n generalizing s with
  | zero => rfl
  | succ n ih =>
      have hcall : s.next.2.call = fun k => s.call (k + 1) :=
        funext fun k => by rw [call, advance_next]; rfl
      rw [calls, List.map_cons, ih, given, given, hcall, List.range_succ_eq_map, List.map_cons,
        List.map_map]
      rfl

theorem mem_tokensOf_given {n : Nat} {t : Token} (ht : t ∈ tokensOf (s.given n)) :
    ∃ k < n, s.call k = .ok t := by
  obtain ⟨item, hitem, hok⟩ := List.mem_filterMap.mp ht
  obtain ⟨k, hk, rfl⟩ := List.mem_map.mp hitem
  refine ⟨k, List.mem_range.mp hk, ?_⟩
  cases hcall : s.call k with
  | ok t' =>
      rw [hcall] at hok
      cases hok
      rfl
  | error e =>
      rw [hcall] at hok
      cases hok

/-- The scanner remembers the kind of the last token that it has given. -/
theorem latest_advance (hs : s.latest = none) (n : Nat) :
    (s.advance n).latest = ((tokensOf (s.given n)).getLast?).map Token.kind := by
  induction n with
  | zero => exact hs
  | succ n ih =>
      rw [advance, latest_next, ih, given_succ, tokensOf_append, List.getLast?_append, Option.map_or]
      rfl

/-- Where nothing is left, all further calls give the end marker on the same line. -/
theorem Spent.call {n : Nat} (hs : (s.advance n).Spent) {k : Nat} (hk : n ≤ k) :
    s.call k = .ok (.plain .eof "" (s.advance n).line) := by
  have hadvance : (s.advance k).Spent ∧ (s.advance k).line = (s.advance n).line := by
    induction hk with
    | refl => exact ⟨hs, rfl⟩
    | step _ ih =>
        obtain ⟨-, hspent, hline⟩ := ih.1.next
        exact ⟨hspent, hline.trans ih.2⟩
  rw [Scanner.call, hadvance.1.next.1, hadvance.2]

/-- Behind a supplied line feed all calls give the end marker. -/
theorem Supplied.later {n k : Nat} (hn : Supplied (s.call n)) (hk : n < k) :
    ¬ Supplied (s.call k) := by
  have hspent : (s.advance (n + 1)).Spent := spent_of_supplied hn
  rintro ⟨line, hline⟩
  rw [hspent.call hk] at hline
  cases hline

/-- There are no more calls than characters, and two at the end. -/
theorem Takes.length_le {ps : List Piece} (h : s.Takes ps) : ps.length ≤ s.rest.length + 2 := by
  induction h with
  | eof _ => simp
  | newline _ => simp
  | @found s trivia c cs ps hrest _ _ ih =>
      have hfragment := fragment_rest_length c cs
      simp only [after] at ih
      rw [hrest, List.length_append, List.length_cons, List.length_cons]
      omega

/-- The items of a text are what the calls up to the first end marker give. -/
theorem exists_first_eof (s : Scanner) :
    ∃ n line, n ≤ s.rest.length + 1 ∧ s.items.1 = s.given (n + 1)
      ∧ (∀ k < n, ∀ t, s.call k = .ok t → t.kind ≠ .eof) ∧ s.call n = .ok (.plain .eof "" line) := by
  obtain ⟨htakes, hitems⟩ := s.takes_pieces
  obtain ⟨front, line, hlast, hfront⟩ := htakes.eof_last
  have hlength : s.items.1.length = front.length + 1 := by
    rw [← hitems, hlast, List.length_append, List.length_singleton]
  have hgiven : s.items.1 = s.given (front.length + 1) := by
    rw [← hlength, ← items_calls]
    exact hitems.symm
  have hsplit : s.given front.length ++ [s.call front.length]
      = front ++ [.ok (.plain .eof "" line)] := by
    rw [← given_succ, ← hgiven, ← hitems, hlast]
  obtain ⟨hbefore, hcall⟩ := List.append_inj' hsplit rfl
  refine ⟨front.length, line, ?_, hgiven, fun k hk t ht => hfront t ?_, List.head_eq_of_cons_eq hcall⟩
  · have hpieces := htakes.length_le
    rw [← List.length_map Piece.item, hitems, hlength] at hpieces
    omega
  · rw [← hbefore, ← ht]
    exact List.mem_map_of_mem (List.mem_range.mpr hk)

end Scanner

/-- **The shape of the token stream.** Whatever the source, the scanner comes to the end marker,
    after no more calls than there are characters and one for a line feed that is missing. The
    tokens and the errors of the source are what the calls up to there give. All further calls give
    the end marker again, on the same line.

    So the tokens end with an end marker and hold no other one. If there are other tokens, then the
    one in front of it is a line feed.

    A call finds an item of at least one character, or it comes to the end of the source and gives a
    line feed or the end marker there. At most one line feed is given that is not in the source. -/
theorem token_stream_shaped (source : String) :
    let s := Scanner.ofSource source
    ∃ n line, n ≤ source.toList.length + 1
      ∧ tokenize source = (tokensOf (s.given (n + 1)), errorsOf (s.given (n + 1)))
      ∧ (∀ k < n, ∀ t, s.call k = .ok t → t.kind ≠ .eof)
      ∧ (∀ k, n ≤ k → s.call k = .ok (.plain .eof "" line))
      ∧ (∃ front, (tokenize source).1 = front ++ [.plain .eof "" line]
        ∧ (∀ t ∈ front, t.kind ≠ .eof) ∧ (front = [] ∨ ∃ t ∈ front.getLast?, t.kind = .newline))
      ∧ (∀ k, (s.advance k).Reads (s.call k) (s.advance (k + 1)))
      ∧ ∀ k k', Scanner.Supplied (s.call k) → Scanner.Supplied (s.call k') → k = k' := by
  intro s
  obtain ⟨n, line, hn, hitems, hbefore, hcall⟩ := s.exists_first_eof
  have htokenize : tokenize source = (tokensOf (s.given (n + 1)), errorsOf (s.given (n + 1))) := by
    rw [← hitems]
    rfl
  obtain ⟨hcomplete, hmarker, hspent, hline⟩ := Scanner.complete_of_eof hcall rfl
  obtain rfl : line = (s.advance n).line := congrArg Token.line hmarker
  have htokens : tokensOf (s.given (n + 1))
      = tokensOf (s.given n) ++ [.plain .eof "" (s.advance n).line] := by
    rw [Scanner.given_succ, tokensOf_append, hcall]
    rfl
  have hfront : ∀ t ∈ tokensOf (s.given n), t.kind ≠ .eof := by
    intro t ht
    obtain ⟨k, hk, hcall⟩ := Scanner.mem_tokensOf_given ht
    exact hbefore k hk t hcall
  refine ⟨n, (s.advance n).line, hn, htokenize, hbefore, fun k hk => ?_,
    ⟨tokensOf (s.given n), by rw [htokenize, htokens], hfront, ?_⟩,
    fun k => (s.advance k).reads_next, fun k k' hk hk' => ?_⟩
  · obtain rfl | hk := Nat.eq_or_lt_of_le hk
    · exact hcall
    · have hlater := Scanner.Spent.call (n := n + 1) hspent hk
      rw [hlater, Scanner.advance, hline]
  · -- The last token is what the scanner remembers, and no line feed is missing behind it.
    have hlatest := Scanner.latest_advance (s := s) rfl n
    cases hlast : (tokensOf (s.given n)).getLast? with
    | none => exact .inl (List.getLast?_eq_none_iff.mp hlast)
    | some t =>
        refine .inr ⟨t, rfl, ?_⟩
        have hnot := hfront t (List.mem_of_getLast? hlast)
        rw [hlast] at hlatest
        simpa [Scanner.lacksNewline, hlatest, hnot] using hcomplete
  · rcases Nat.lt_trichotomy k k' with hlt | rfl | hlt
    · exact absurd hk' (hk.later hlt)
    · rfl
    · exact absurd hk (hk'.later hlt)

/-- The source ends within a line, behind a faulty character and a comment. -/
theorem token_stream_shaped_unfinished :
    let source := "x = \"a\n\" ! # b"
    let s := Scanner.ofSource source
    (tokenize source).1.map (fun t => (t.kind, t.lexeme))
      = [(.identifier, "x"), (.equal, "="), (.string, "\"a\n\""), (.newline, ""), (.eof, "")]
    ∧ (tokenize source).2.map LexicalError.fault = [.strayBang]
    ∧ (s.call 4).toOption = some (.plain .newline "" 2)
    ∧ ∀ k, 5 ≤ k → (s.call k).toOption = some (.plain .eof "" 2) := by
  intro source s
  obtain ⟨n, line, -, -, hbefore, hlater, -⟩ := token_stream_shaped source
  have hfifth : (s.call 5).toOption = some (.plain .eof "" 2) := by decide +kernel
  have hn : n ≤ 5 := by
    refine Nat.not_lt.mp fun hlt => ?_
    cases hcall : s.call 5 with
    | ok t =>
        rw [hcall] at hfifth
        exact hbefore 5 hlt t hcall (congrArg Token.kind (Option.some.inj hfifth))
    | error e =>
        rw [hcall] at hfifth
        cases hfifth
  obtain rfl : line = 2 := by
    rw [hlater 5 hn] at hfifth
    exact congrArg Token.line (Option.some.inj hfifth)
  refine ⟨by decide +kernel, by decide +kernel, by decide +kernel, fun k hk => ?_⟩
  rw [hlater k (Nat.le_trans hn hk)]
  rfl

end Script
