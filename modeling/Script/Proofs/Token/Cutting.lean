import Script.Proofs.Token.Genuine
import Script.Proofs.Token.Strings

/-!
# `Proofs.Token.Cutting` — texts that are cut into given words

`Cut text words` says that the scanner cuts the text into the words and finds no fault in it. The
text is taken from its end: what stands in front of a text that is already cut is one more blank or
one more token. A token that could go on, such as a name, needs a *break* behind it.
-/

namespace Script

/-- The text is cut into the words. -/
inductive Cut : List Char → List Word → Prop
  | nil : Cut [] []
  | blank {cs ws} : Cut cs ws → Cut (' ' :: cs) ws
  | token {c cs kind literal text rest ws} {w : Word} :
      fragment c cs = ⟨.ok (kind, literal), text, rest⟩ →
      w = Token.word ⟨kind, String.ofList text, literal, 0⟩ → Cut rest ws → Cut (c :: cs) (w :: ws)

theorem isTokenBlank_iff {c : Char} :
    isTokenBlank c = true ↔ c = ' ' ∨ c = '\r' ∨ c = '\t' := by
  simp [isTokenBlank, or_assoc]

/-- Whether a name or a number ends where the text begins. -/
def breaks : List Char → Bool
  | [] => true
  | '.' :: c :: _ => !c.isDigit
  | c :: _ => !continuesWord c && !c.isDigit

/-- At a break no run of characters begins that could belong to a name or a number. -/
theorem takeWhile_eq_nil_of_breaks {p : Char → Bool} {cs : List Char} (h : breaks cs = true)
    (hp : ∀ c, p c = true → continuesWord c = true ∨ c.isDigit = true) : cs.takeWhile p = [] := by
  fun_cases breaks cs with
  | case1 => rfl
  | case2 d _ =>
      have hdot : p '.' = false := by
        cases hpd : p '.' with
        | false => rfl
        | true =>
            have habsurd : ¬ (continuesWord '.' = true ∨ Char.isDigit '.' = true) := by decide
            exact absurd (hp _ hpd) habsurd
      simp [hdot]
  | case3 c cs hdot =>
      simp only [breaks, Bool.and_eq_true, Bool.not_eq_true'] at h
      have hpc : p c = false := by
        cases hpc : p c with
        | false => rfl
        | true =>
            have := hp c hpc
            simp [h] at this
      simp [hpc]

theorem dropWhile_eq_of_takeWhile {p : Char → Bool} {cs : List Char} (h : cs.takeWhile p = []) :
    cs.dropWhile p = cs := by
  have := List.takeWhile_append_dropWhile (p := p) (l := cs)
  rwa [h, List.nil_append] at this

/-- A run of characters of a class ends at a break. -/
theorem span_of_breaks {p : Char → Bool} {cs rest : List Char} (hcs : ∀ c ∈ cs, p c = true)
    (hrest : rest.takeWhile p = []) :
    (cs ++ rest).takeWhile p = cs ∧ (cs ++ rest).dropWhile p = rest := by
  rw [List.takeWhile_append_of_pos hcs, List.dropWhile_append_of_pos hcs, hrest,
    dropWhile_eq_of_takeWhile hrest]
  simp

/-! ## Symbols -/

/-- A character that is a token by itself needs no break behind it. -/
theorem cut_symbol {c : Char} {kind : TokenKind} {rest : List Char} {ws : List Word}
    (h : symbol? c = some kind) (hcut : Cut rest ws) : Cut (c :: rest) (.mark kind :: ws) := by
  have hfragment : fragment c rest = ⟨.ok (kind, none), [c], rest⟩ := by
    simp [fragment, h]
  refine .token hfragment ?_ hcut
  unfold symbol? at h
  split at h <;> cases h <;> decide

/-- An operator or a reserved word with a blank behind it. -/
theorem cut_mark (kind : TokenKind) {rest : List Char} {ws : List Word} (h : kind.isMark = true)
    (hcut : Cut rest ws) : Cut (kind.spelling.toList ++ ' ' :: rest) (.mark kind :: ws) := by
  cases kind <;> first | exact .token rfl rfl hcut.blank | cases h

/-! ## Names and reserved words -/

theorem toNat_of_isDigit {c : Char} (h : c.isDigit = true) : 48 ≤ c.toNat ∧ c.toNat ≤ 57 := by
  simpa [Char.isDigit, UInt32.le_iff_toNat_le] using h

/-- A digit begins no word, since it is neither a letter nor `_`. -/
theorem not_startsWord_of_isDigit {c : Char} (h : c.isDigit = true) : startsWord c = false := by
  obtain ⟨hlo, hhi⟩ := toNat_of_isDigit h
  have halpha : c.isAlpha = false := by
    change (decide (c.val ≥ 'A'.val ∧ c.val ≤ 'Z'.val)
      || (decide (c.val ≥ 'a'.val) && decide (c.val ≤ 'z'.val))) = false
    simp [UInt32.le_iff_toNat_le]
    omega
  have hunder : c ≠ '_' := by
    rintro rfl
    cases h
  rw [startsWord, Text.isAlphabetic_ascii (by omega), halpha]
  simpa using hunder

/-- The scanner goes for a word at a character that begins one, because no other sort of token
    begins with it. -/
theorem fragment_of_startsWord {c : Char} (cs : List Char) (h : startsWord c = true) :
    fragment c cs = wordFragment c cs := by
  have hsymbol : symbol? c = none := by
    unfold symbol?
    split <;> first | rfl | exact absurd h (by decide)
  have hjoining : joining? c = none := by
    unfold joining?
    split <;> first | rfl | exact absurd h (by decide)
  have hquote : c ≠ '"' := by
    rintro rfl
    exact absurd h (by decide)
  have hdigit : c.isDigit = false := by
    cases hdigit : c.isDigit with
    | false => rfl
    | true =>
        rw [not_startsWord_of_isDigit hdigit] at h
        cases h
  simp [fragment, hsymbol, hjoining, hquote, hdigit, h]

/-- A word with a break behind it. -/
theorem cut_word {c : Char} {cs rest : List Char} {ws : List Word} (hc : startsWord c = true)
    (hcs : ∀ d ∈ cs, continuesWord d = true) (hrest : breaks rest = true) (hcut : Cut rest ws) :
    Cut (c :: (cs ++ rest))
      (⟨TokenKind.ofWord (String.ofList (c :: cs)), .text (String.ofList (c :: cs))⟩ :: ws) := by
  have hspan := span_of_breaks hcs (takeWhile_eq_nil_of_breaks hrest fun _ => .inl)
  refine .token (fragment_of_startsWord _ hc) ?_ ?_
  · rw [hspan.1]
    rfl
  · rw [hspan.2]
    exact hcut

/-- A reserved word with a break behind it. -/
theorem cut_keyword (kind : TokenKind) {rest : List Char} {ws : List Word}
    (h : kind ∈ TokenKind.keywords.map Prod.snd) (hrest : breaks rest = true)
    (hcut : Cut rest ws) : Cut (kind.spelling.toList ++ rest) (.mark kind :: ws) := by
  have hall : ∀ k ∈ TokenKind.keywords.map Prod.snd, k.spelling.toList ≠ []
      ∧ k.spelling.toList.head?.all startsWord = true
      ∧ k.spelling.toList.tail.all continuesWord = true
      ∧ TokenKind.ofWord k.spelling = k := by decide
  obtain ⟨hne, hhead, htail, hkind⟩ := hall kind h
  cases hchars : kind.spelling.toList with
  | nil => exact absurd hchars hne
  | cons c cs =>
      rw [hchars] at hhead htail
      rw [List.tail_cons] at htail
      have hword := cut_word hhead (List.all_eq_true.mp htail) hrest hcut
      have htext : String.ofList (c :: cs) = kind.spelling := by
        rw [← hchars, String.ofList_toList]
      rw [htext, hkind] at hword
      exact hword

/-! ## Numbers -/

/-- The text that the number is printed as is one number token, and the token stands for it. -/
def Decimal.ReadsBack (x : Float) : Prop :=
  (plain x).toList.head?.any Char.isDigit = true
    ∧ (numberFragment (plain x).toList).rest = []
    ∧ (numberFragment (plain x).toList).found = .ok (.number, some (.number x))

/-- At a digit the scanner goes for a number. -/
theorem fragment_of_isDigit {c : Char} (cs : List Char) (h : c.isDigit = true) :
    fragment c cs = numberFragment (c :: cs) := by
  have hsymbol : symbol? c = none := by
    unfold symbol?
    split <;> first | rfl | exact absurd h (by decide)
  have hjoining : joining? c = none := by
    unfold joining?
    split <;> first | rfl | exact absurd h (by decide)
  have hquote : c ≠ '"' := by
    rintro rfl
    exact absurd h (by decide)
  simp [fragment, hsymbol, hjoining, hquote, h]

theorem takeWhile_isDigit_of_breaks {cs : List Char} (h : breaks cs = true) :
    cs.takeWhile Char.isDigit = [] :=
  takeWhile_eq_nil_of_breaks h fun _ => .inr

/-- Digits with a break behind them. -/
theorem numberFragment_whole {whole rest : List Char}
    (hwhole : ∀ c ∈ whole, Char.isDigit c = true) (hrest : breaks rest = true) :
    numberFragment (whole ++ rest)
      = ⟨.ok (.number, some (.number (Decimal.nearestFraction whole []))), whole, rest⟩ := by
  obtain ⟨htake, hdrop⟩ := span_of_breaks hwhole (takeWhile_isDigit_of_breaks hrest)
  have hparts : numberDigits (whole ++ rest) = (whole, none) := by
    unfold numberDigits
    rw [htake, hdrop]
    split
    · rename_i d more
      simp only [breaks, Bool.not_eq_true'] at hrest
      simp [hrest]
    · rfl
  simp only [numberFragment, hparts, hdrop]

/-- Digits, a point and digits with a break behind them. -/
theorem numberFragment_fraction {whole rest : List Char} {d : Char} {ds : List Char}
    (hwhole : ∀ c ∈ whole, Char.isDigit c = true) (hds : ∀ c ∈ d :: ds, Char.isDigit c = true)
    (hrest : breaks rest = true) :
    numberFragment (whole ++ '.' :: (d :: ds ++ rest))
      = ⟨.ok (.number, some (.number (Decimal.nearestFraction whole (d :: ds)))),
          whole ++ '.' :: d :: ds, rest⟩ := by
  have hpoint : ('.' :: (d :: ds ++ rest)).takeWhile Char.isDigit = [] := rfl
  obtain ⟨htake, hdrop⟩ := span_of_breaks hwhole hpoint
  obtain ⟨htake', hdrop'⟩ := span_of_breaks hds (takeWhile_isDigit_of_breaks hrest)
  have hd := hds d List.mem_cons_self
  rw [List.cons_append] at htake hdrop htake' hdrop'
  have hparts : numberDigits (whole ++ '.' :: (d :: ds ++ rest)) = (whole, some (d :: ds)) := by
    simp only [numberDigits, List.cons_append, htake, hdrop, hd, if_true, htake']
  simp only [numberFragment, hparts]
  simp only [List.cons_append, hdrop, List.drop_one, List.tail_cons, hdrop']

/-- The texts that are one number. -/
theorem digits_of_numberFragment {cs : List Char} (h : (numberFragment cs).rest = []) :
    (∀ c ∈ cs, Char.isDigit c = true)
      ∨ ∃ whole d ds, cs = whole ++ '.' :: d :: ds ∧ (∀ c ∈ whole, Char.isDigit c = true)
        ∧ ∀ c ∈ d :: ds, Char.isDigit c = true := by
  have hall : ∀ {ds : List Char}, ds.dropWhile Char.isDigit = [] → ∀ c ∈ ds, c.isDigit = true := by
    intro ds hds
    have hspan := List.takeWhile_append_dropWhile (p := Char.isDigit) (l := ds)
    rw [hds, List.append_nil] at hspan
    rw [← hspan]
    exact List.all_eq_true.mp List.all_takeWhile
  unfold numberFragment at h
  split at h
  · exact .inl (hall h)
  · rename_i whole fraction hparts
    obtain ⟨rfl, hfraction⟩ := Prod.mk.inj hparts
    split at hfraction
    · rename_i d ds hdrop
      simp only [hdrop, List.drop_one, List.tail_cons] at h
      refine .inr ⟨cs.takeWhile Char.isDigit, d, ds, ?_, ?_, hall h⟩
      · rw [← hdrop, List.takeWhile_append_dropWhile]
      · exact List.all_eq_true.mp List.all_takeWhile
    · cases hfraction

/-- A number that takes up a whole text is the same with a break behind it. -/
theorem numberFragment_append {cs rest : List Char} (hcs : (numberFragment cs).rest = [])
    (hrest : breaks rest = true) :
    numberFragment (cs ++ rest) = ⟨(numberFragment cs).found, cs, rest⟩ := by
  obtain hwhole | ⟨whole, d, ds, rfl, hwhole, hds⟩ := digits_of_numberFragment hcs
  · have halone := numberFragment_whole hwhole (show breaks [] = true from rfl)
    rw [List.append_nil] at halone
    rw [numberFragment_whole hwhole hrest, halone]
  · have halone := numberFragment_fraction hwhole hds (show breaks [] = true from rfl)
    rw [List.append_nil] at halone
    rw [List.append_assoc, List.cons_append, numberFragment_fraction hwhole hds hrest, halone]

/-- A number with a break behind it. -/
theorem cut_number {x : Float} {rest : List Char} {ws : List Word} (hx : Decimal.ReadsBack x)
    (hrest : breaks rest = true) (hcut : Cut rest ws) :
    Cut ((Decimal.plain x).toList ++ rest) (Constant.word (.number x) :: ws) := by
  obtain ⟨hdigit, hall, hfound⟩ := hx
  have hfragment := numberFragment_append hall hrest
  cases hchars : (Decimal.plain x).toList with
  | nil =>
      rw [hchars] at hdigit
      cases hdigit
  | cons c cs =>
      rw [hchars] at hdigit hfragment hfound
      rw [hfound] at hfragment
      exact .token ((fragment_of_isDigit _ hdigit).trans hfragment) rfl hcut

/-! ## Strings -/

/-- A string is closed by its quote, so nothing is asked of the text behind it. -/
theorem cut_string (s : String) {rest : List Char} {ws : List Word} (hcut : Cut rest ws) :
    Cut ((Constant.source (.string s)).toList ++ rest) (Constant.word (.string s) :: ws) := by
  have hfragment := fragment_source_string s rest
  rw [toList_source_string] at hfragment ⊢
  rw [List.cons_append, List.append_assoc, List.singleton_append]
  exact .token hfragment rfl hcut

/-! ## Streams -/

namespace Scanner

/-- A fragment that is a token is found by the next step. There is no blank or comment to skip in
    front of it. -/
theorem step?_of_fragment {s : Scanner} {c : Char} {cs text rest : List Char} {kind : TokenKind}
    {literal : Option Literal} (hrest : s.rest = c :: cs)
    (h : fragment c cs = ⟨.ok (kind, literal), text, rest⟩) :
    s.step? = some (.ok ⟨kind, String.ofList text, literal, s.line⟩,
      ⟨rest, s.line + text.count '\n', some kind⟩) := by
  have htrivia : skipTrivia false (c :: cs) = c :: cs := by
    have hhash : c ≠ '#' := by
      rintro rfl
      cases h
    have hblank : isTokenBlank c = false := by
      cases hblank : isTokenBlank c with
      | false => rfl
      | true =>
          obtain rfl | rfl | rfl := isTokenBlank_iff.mp hblank <;> cases h
    simp [skipTrivia, hhash, hblank]
  simp [step?, hrest, htrivia, itemOf, after, h]

theorem items_of_step?_eq_none {s : Scanner} (h : s.step? = none) : s.items = s.ending := by
  rw [items]
  split
  · rfl
  · rename_i hsome
    rw [h] at hsome
    cases hsome

/-- The stream begins with what the next step finds. -/
theorem items_of_step?_eq_some {s s' : Scanner} {item : Item} (h : s.step? = some (item, s')) :
    s.items.1 = item :: s'.items.1 := by
  rw [items]
  split
  · rename_i hnone
    rw [h] at hnone
    cases hnone
  · rename_i hsome
    rw [h] at hsome
    cases hsome
    rfl

/-- A blank is skipped and leaves no trace in the stream. -/
theorem items_blank (cs : List Char) (line : Nat) (latest : Option TokenKind) :
    (items ⟨' ' :: cs, line, latest⟩).1 = (items ⟨cs, line, latest⟩).1 := by
  have hstep : step? ⟨' ' :: cs, line, latest⟩ = step? ⟨cs, line, latest⟩ := rfl
  cases hcs : step? ⟨cs, line, latest⟩ with
  | none =>
      rw [items_of_step?_eq_none hcs, items_of_step?_eq_none (hstep.trans hcs)]
      rfl
  | some found => rw [items_of_step?_eq_some hcs, items_of_step?_eq_some (hstep.trans hcs)]

/-- A text that is cut into words is a stream of tokens that are the words. -/
theorem items_of_cut {cs : List Char} {ws : List Word} (h : Cut cs ws) (line : Nat)
    (latest : Option TokenKind) : ∃ (ts : List Token) (s : Scanner),
      (items ⟨cs, line, latest⟩).1 = ts.map .ok ++ s.ending.1 ∧ ts.map Token.word = ws
        ∧ s.latest = ws.foldl (fun _ w => some w.kind) latest := by
  induction h generalizing line latest with
  | nil => exact ⟨[], _, congrArg Prod.fst (items_of_step?_eq_none rfl), rfl, rfl⟩
  | blank _ ih =>
      rw [items_blank]
      exact ih line latest
  | token hfragment hw _ ih =>
      have hstep := step?_of_fragment (s := ⟨_, line, latest⟩) rfl hfragment
      obtain ⟨ts, s, hitems, hwords, hlatest⟩ := ih _ _
      refine ⟨_ :: ts, s, (items_of_step?_eq_some hstep).trans (congrArg _ hitems), ?_, ?_⟩
      · rw [List.map_cons, hwords, hw]
        rfl
      · rw [hlatest, List.foldl_cons, hw]
        rfl

end Scanner

theorem tokensOf_append (xs ys : List Scanner.Item) :
    tokensOf (xs ++ ys) = tokensOf xs ++ tokensOf ys :=
  List.filterMap_append

theorem errorsOf_append (xs ys : List Scanner.Item) :
    errorsOf (xs ++ ys) = errorsOf xs ++ errorsOf ys :=
  List.filterMap_append

theorem tokensOf_map_ok (ts : List Token) : tokensOf (ts.map .ok) = ts := by
  induction ts with
  | nil => rfl
  | cons t ts ih => exact congrArg (t :: ·) ih

theorem errorsOf_map_ok (ts : List Token) : errorsOf (ts.map .ok) = [] := by
  induction ts with
  | nil => rfl
  | cons t ts ih => exact ih

/-- A text that is cut into words has the words as its tokens, up to what its end adds. -/
theorem tokenize_of_items {source : String} {ws : List Word} (h : Cut source.toList ws) :
    ∃ (ts : List Token) (s : Scanner), tokenize source
        = (ts ++ tokensOf s.ending.1, errorsOf s.ending.1) ∧ ts.map Token.word = ws
      ∧ s.latest = ws.foldl (fun _ w => some w.kind) none := by
  obtain ⟨ts, s, hitems, hwords, hlatest⟩ := Scanner.items_of_cut h 1 none
  refine ⟨ts, s, ?_, hwords, hlatest⟩
  unfold tokenize Scanner.ofSource
  rw [hitems]
  simp only [tokensOf_append, errorsOf_append, tokensOf_map_ok, errorsOf_map_ok, List.nil_append]

/-- A text of whole lines that is cut into words has the words as its tokens, and no errors. -/
theorem tokenize_of_cut {source : String} {ws : List Word} (h : Cut source.toList ws)
    (hend : ws = [] ∨ ∃ us, ws = us ++ [.mark .newline]) :
    ∃ ts line, tokenize source = (ts ++ [.plain .eof "" line], []) ∧ ts.map Token.word = ws := by
  obtain ⟨ts, s, htokens, hwords, hlatest⟩ := tokenize_of_items h
  have hlacks : s.lacksNewline = false := by
    obtain rfl | ⟨us, rfl⟩ := hend
    · simp [Scanner.lacksNewline, hlatest]
    · simp [Scanner.lacksNewline, hlatest]
  have hending : s.ending.1 = [.ok (.plain .eof "" s.line)] := by
    simp [Scanner.ending, Scanner.finish, hlacks]
  rw [hending] at htokens
  exact ⟨ts, s.line, htokens, hwords⟩

/-- No word of a text is an end marker. -/
theorem Cut.kind_ne_eof {cs : List Char} {ws : List Word} (h : Cut cs ws) :
    ∀ w ∈ ws, w.kind ≠ .eof := by
  induction h with
  | nil => exact nofun
  | blank _ ih => exact ih
  | @token c cs _ _ _ _ _ _ hfragment hw _ ih =>
      refine List.forall_mem_cons.mpr ⟨?_, ih⟩
      have hgenuine := genuine_fragment c cs
      rw [hfragment] at hgenuine
      rw [hw]
      exact (hgenuine _ _ 0 rfl).kind_ne_eof

/-- A text that is cut into words, but ends within a line, has one more token: the line feed that is
    missing. -/
theorem tokenize_of_cut_within {source : String} {us : List Word} {w : Word}
    (h : Cut source.toList (us ++ [w])) (hnewline : w.kind ≠ .newline) :
    ∃ ts line line', tokenize source
        = (ts ++ [.plain .newline "" line] ++ [.plain .eof "" line'], [])
      ∧ ts.map Token.word = us ++ [w] := by
  obtain ⟨ts, s, htokens, hwords, hlatest⟩ := tokenize_of_items h
  have heof := h.kind_ne_eof w (by simp)
  have hlacks : s.lacksNewline = true := by
    simp [Scanner.lacksNewline, hlatest, hnewline, heof]
  have hending : s.ending.1 = [.ok (.plain .newline "" s.line), .ok (.plain .eof "" s.line)] := by
    simp only [Scanner.ending, Scanner.finish, hlacks, if_true]
    rfl
  rw [hending] at htokens
  exact ⟨ts, s.line, s.line, by rw [htokens, List.append_assoc]; rfl, hwords⟩

end Script
