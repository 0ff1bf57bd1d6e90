import Script.Token.Scanner
import Script.Proofs.Tree.Words

/-!
# `Proofs.Token.Genuine` — what the tokens of a text look like

A token that the scanner finds is of one of few forms (`Token.Genuine`): the kinds with one
spelling have that spelling, a name is a word that is not reserved, and only literals stand for a
value. The end marker comes last and only once.
-/

namespace Script

/-- Whether a token of the kind always has the same text. -/
def TokenKind.isMark : TokenKind → Bool
  | number | string | identifier | newline | eof => false
  | _ => true

/-- The forms of the tokens of a text. -/
inductive Token.Genuine : Token → Prop
  | mark {kind line} : kind.isMark = true → Genuine (.plain kind kind.spelling line)
  | name {c cs line} : startsWord c = true → (∀ d ∈ cs, continuesWord d = true) →
      TokenKind.ofWord (String.ofList (c :: cs)) = .identifier →
      Genuine (.plain .identifier (String.ofList (c :: cs)) line)
  | number {lexeme x line} : Genuine ⟨.number, lexeme, some (.number x), line⟩
  | string {lexeme s line} : Genuine ⟨.string, lexeme, some (.string s), line⟩
  | newline {lexeme line} : Genuine (.plain .newline lexeme line)

namespace Token.Genuine

theorem kind_ne_eof {t : Token} (h : t.Genuine) : t.kind ≠ .eof := by
  cases h with
  | mark hkind =>
      rintro rfl
      cases hkind
  | _ => exact nofun

theorem word_eq_mark {t : Token} (h : t.Genuine) (hkind : t.kind.isMark = true) :
    t.word = .mark t.kind := by
  cases h with
  | mark _ => rfl
  | _ => cases hkind

end Token.Genuine

/-! ## Fragments -/

theorem ofWord_eq (word : String) :
    TokenKind.ofWord word = .identifier
      ∨ (TokenKind.ofWord word).isMark = true ∧ word = (TokenKind.ofWord word).spelling := by
  unfold TokenKind.ofWord TokenKind.keyword?
  cases hlookup : TokenKind.keywords.lookup word with
  | none => exact .inl rfl
  | some kind =>
      have hmem : (word, kind) ∈ TokenKind.keywords := by
        obtain ⟨front, back, hkeywords, _⟩ := List.lookup_eq_some_iff.mp hlookup
        rw [hkeywords]
        simp
      have hall : ∀ p ∈ TokenKind.keywords, p.2.isMark = true ∧ p.1 = p.2.spelling := by decide
      exact .inr (hall _ hmem)

theorem symbol?_spelling {c : Char} {kind : TokenKind} (h : symbol? c = some kind) :
    kind = .newline ∨ kind.isMark = true ∧ String.ofList [c] = kind.spelling := by
  unfold symbol? at h
  split at h <;> cases h <;> first | exact .inl rfl | exact .inr ⟨rfl, by decide⟩

theorem joining?_spelling {c : Char} {alone : Except LexicalFault TokenKind} {joined : TokenKind}
    (h : joining? c = some (alone, joined)) :
    (joined.isMark = true ∧ String.ofList [c, '='] = joined.spelling)
      ∧ ∀ kind, alone = .ok kind → kind.isMark = true ∧ String.ofList [c] = kind.spelling := by
  unfold joining? at h
  split at h <;> cases h <;> refine ⟨⟨rfl, by decide⟩, fun kind hkind => ?_⟩ <;> cases hkind <;>
    exact ⟨rfl, by decide⟩

/-- If the fragment is a token, it is a genuine one. -/
def Fragment.Genuine (f : Fragment) : Prop :=
  ∀ kind literal line, f.found = .ok (kind, literal) →
    Token.Genuine ⟨kind, String.ofList f.text, literal, line⟩

theorem genuine_stringFragment (cs : List Char) : (stringFragment cs).Genuine := by
  intro kind literal line h
  unfold stringFragment at h
  simp only at h
  split at h
  · cases h
  · split at h
    · cases h
    · cases h
      exact .string

theorem genuine_numberFragment (cs : List Char) : (numberFragment cs).Genuine := by
  intro kind literal line h
  unfold numberFragment at h
  split at h
  · cases h
    exact .number
  · cases h
    exact .number

theorem genuine_wordFragment {c : Char} (cs : List Char) (hc : startsWord c = true) :
    (wordFragment c cs).Genuine := by
  intro kind literal line h
  have htake : ∀ d ∈ cs.takeWhile continuesWord, continuesWord d = true :=
    List.all_eq_true.mp List.all_takeWhile
  simp only [wordFragment, Except.ok.injEq, Prod.mk.injEq] at h ⊢
  generalize cs.takeWhile continuesWord = text at h htake ⊢
  obtain ⟨rfl, rfl⟩ := h
  obtain hname | ⟨hmark, htext⟩ := ofWord_eq (String.ofList (c :: text))
  · rw [hname]
    exact .name hc htake hname
  · generalize TokenKind.ofWord (String.ofList (c :: text)) = kind at hmark htext ⊢
    rw [htext]
    exact .mark hmark

theorem genuine_fragment (c : Char) (cs : List Char) : (fragment c cs).Genuine := by
  unfold fragment
  split
  case h_1 kind hsymbol =>
    intro _ _ _ h
    cases h
    obtain rfl | ⟨hmark, htext⟩ := symbol?_spelling hsymbol
    · exact .newline
    · rw [htext]
      exact .mark hmark
  case h_2 =>
    split
    case h_1 alone joined rest hjoining =>
      intro _ _ _ h
      cases h
      obtain ⟨⟨hmark, htext⟩, _⟩ := joining?_spelling hjoining
      rw [htext]
      exact .mark hmark
    case h_2 alone joined hjoining _ =>
      intro _ _ _ h
      cases alone with
      | error fault => cases h
      | ok alone =>
          cases h
          obtain ⟨hmark, htext⟩ := (joining?_spelling hjoining).2 _ rfl
          rw [htext]
          exact .mark hmark
    case h_3 =>
      split
      · exact genuine_stringFragment _
      · split
        · exact genuine_numberFragment _
        · split
          · exact genuine_wordFragment _ (by assumption)
          · intro _ _ _ h
            cases h

/-! ## Streams -/

namespace Scanner

theorem genuine_of_itemOf {c : Char} {cs : List Char} {line : Nat} {t : Token}
    (h : itemOf (fragment c cs) line = .ok t) : t.Genuine := by
  unfold itemOf at h
  split at h
  · rename_i kind literal hfound
    cases h
    exact genuine_fragment c cs kind literal line hfound
  · cases h

theorem genuine_of_step? {s s' : Scanner} {t : Token} (h : s.step? = some (.ok t, s')) :
    t.Genuine := by
  unfold step? at h
  split at h
  · cases h
  · simp only [Option.some.injEq, Prod.mk.injEq] at h
    exact genuine_of_itemOf h.1

/-- The stream ends with the end marker, and a line feed at most stands before it. -/
theorem tokensOf_ending (s : Scanner) :
    ∃ ts line, tokensOf s.ending.1 = ts ++ [.plain .eof "" line] ∧ ∀ t ∈ ts, t.Genuine := by
  unfold ending
  split
  · rename_i hlacks
    refine ⟨[.plain .newline "" s.line], s.line, ?_, ?_⟩
    · have hfinish : s.finish
          = (.plain .newline "" s.line, { s with rest := [], latest := some .newline }) := by
        simp [finish, hlacks]
      rw [hfinish]
      rfl
    · simp only [List.mem_singleton, forall_eq]
      exact .newline
  · rename_i hlacks
    exact ⟨[], s.line, by simp [finish, hlacks, tokensOf], by simp⟩

/-- The tokens of a text are genuine up to the end marker, which comes last. -/
theorem tokensOf_items (s : Scanner) :
    ∃ ts line, tokensOf s.items.1 = ts ++ [.plain .eof "" line] ∧ ∀ t ∈ ts, t.Genuine := by
  fun_induction items s with
  | case1 s hstep => exact tokensOf_ending s
  | case2 s item s' hstep rest last hitems ih =>
      rw [hitems] at ih
      obtain ⟨ts, line, htokens, hgenuine⟩ := ih
      cases item with
      | error e => exact ⟨ts, line, htokens, hgenuine⟩
      | ok t =>
          refine ⟨t :: ts, line, congrArg (t :: ·) htokens, ?_⟩
          simp only [List.mem_cons, forall_eq_or_imp]
          exact ⟨genuine_of_step? hstep, hgenuine⟩

end Scanner

/-- The tokens of a source are genuine up to the end marker, which comes last. -/
theorem tokenize_eq (source : String) :
    ∃ ts line, (tokenize source).1 = ts ++ [.plain .eof "" line] ∧ ∀ t ∈ ts, t.Genuine :=
  (Scanner.ofSource source).tokensOf_items

end Script
