import Script.Proofs.Token.Cutting
import Script.Proofs.Tree.Grouping
import Script.Proofs.Tree.Nodes
import Script.Proofs.Tree.Spelling

/-!
# `Proofs.Printer.Scanning` — the words of a printed program

The printed text of a program is cut into the words that the program has in the printed style, where
it has the groupings that are printed with it. What is printed after a name or a number never goes
on with it, since it begins with a blank or with a symbol.

A number that is not finite is printed as a name.
-/

namespace Script

/-- Whether the number is neither an infinity nor undefined. -/
def Decimal.isFinite (x : Float) : Bool :=
  match Binary.ofFloat x with
  | .finite _ _ _ => true
  | _ => false

/-- What a constant is printed as. -/
def Constant.printed : Constant → List Word
  | .number x =>
    match Decimal.Binary.ofFloat x with
    | .finite _ _ _ => [Constant.word (.number x)]
    | .infinite true => [.mark .minus, .name "inf"]
    | .infinite false => [.name "inf"]
    | .notANumber => [.name "NaN"]
  | c => [c.word]

/-- The style of printed programs. -/
def Style.printed : Style := ⟨Constant.printed, [.mark .comma], [.mark .newline]⟩

@[simp] theorem Style.printed_constant (c : Constant) : Style.printed.constant c = c.printed := rfl

@[simp] theorem Style.printed_comma : Style.printed.comma = [.mark .comma] := rfl

@[simp] theorem Style.printed_feed : Style.printed.feed = [.mark .newline] := rfl

/-- The words that a tree can be printed with. -/
inductive Word.Printable : Word → Prop
  | mark {kind} : kind.isMark = true → Printable (.mark kind)
  | name {c cs} : startsWord c = true → (∀ d ∈ cs, continuesWord d = true) →
      TokenKind.ofWord (String.ofList (c :: cs)) = .identifier →
      Printable (.name (String.ofList (c :: cs)))
  | number {x} : (Decimal.isFinite x = true → Decimal.ReadsBack x) →
      Printable (Constant.word (.number x))
  | string {s} : Printable (Constant.word (.string s))

/-- All words are printable. -/
abbrev AllPrintable (ws : List Word) : Prop := ∀ w ∈ ws, w.Printable

/-! ## Tokens -/

theorem Token.eq_of_word {t : Token} {kind : TokenKind} {text : String}
    (h : t.word = ⟨kind, .text text⟩) : t = ⟨kind, text, none, t.line⟩ := by
  obtain ⟨kind, lexeme, literal, line⟩ := t
  cases literal with
  | none => cases h; rfl
  | some v => cases h

/-- A word that can be printed and is of a kind with one spelling is spelled so. -/
theorem eq_mark_of_printable {t : Token} {kind : TokenKind} (h : t.word.Printable)
    (hkind : t.kind = kind) (hmark : kind.isMark = true) :
    t.word = .mark kind ∧ t.lexeme = kind.spelling := by
  generalize hw : t.word = w at h
  have hkind' : kind = w.kind := by rw [← hw, ← hkind, Token.word_kind]
  subst hkind'
  cases h with
  | mark _ => exact ⟨rfl, congrArg Token.lexeme (Token.eq_of_word hw)⟩
  | _ => cases hmark

/-- A blank is printed behind an operator, so it is cut off there. -/
theorem cut_operator {t : Token} {rest : List Char} {ws : List Word} (h : t.word.Printable)
    (hmark : t.kind.isMark = true) (hcut : Cut rest ws) :
    Cut (t.lexeme.toList ++ ' ' :: rest) (t.word :: ws) := by
  obtain ⟨hword, hlexeme⟩ := eq_mark_of_printable h rfl hmark
  rw [hword, hlexeme]
  exact cut_mark _ hmark hcut

/-- A name, as the characters it consists of. -/
theorem name_of_printable {t : Token} (h : t.word.Printable) (hname : t.isName = true) :
    ∃ c cs, t.lexeme = String.ofList (c :: cs) ∧ startsWord c = true
      ∧ (∀ d ∈ cs, continuesWord d = true) ∧ t.word = .name t.lexeme
      ∧ TokenKind.ofWord t.lexeme = .identifier := by
  simp only [Token.isName, beq_iff_eq] at hname
  generalize hw : t.word = w at h
  have hkind : w.kind = .identifier := by rw [← hw, Token.word_kind, hname]
  cases h with
  | mark hmark =>
      rw [Word.mark_kind] at hkind
      subst hkind
      cases hmark
  | name hc hcs hword =>
      rw [Token.eq_of_word hw]
      exact ⟨_, _, rfl, hc, hcs, rfl, hword⟩
  | number _ => cases hkind
  | string => cases hkind

/-- A name is cut where it ends, if what is printed behind it does not go on with it. -/
theorem cut_name {t : Token} {rest : List Char} {ws : List Word} (h : t.word.Printable)
    (hname : t.isName = true) (hrest : breaks rest = true) (hcut : Cut rest ws) :
    Cut (t.lexeme.toList ++ rest) (t.word :: ws) := by
  obtain ⟨c, cs, hlexeme, hc, hcs, hword, hkind⟩ := name_of_printable h hname
  rw [hword]
  rw [hlexeme] at hkind ⊢
  have hcut := cut_word hc hcs hrest hcut
  rw [hkind] at hcut
  rw [String.toList_ofList]
  exact hcut

/-- A point and a name end what stands before them. -/
theorem breaks_property {t : Token} (h : t.word.Printable) (hname : t.isName = true)
    (rest : List Char) : breaks ('.' :: (t.lexeme.toList ++ rest)) = true := by
  obtain ⟨c, cs, hlexeme, hc, -⟩ := name_of_printable h hname
  have hdigit : c.isDigit = false := by
    cases hdigit : c.isDigit with
    | false => rfl
    | true =>
        rw [not_startsWord_of_isDigit hdigit] at hc
        cases hc
  simp [hlexeme, breaks, hdigit]

/-- A constant is a keyword, a string or a number. A number that is finite has to read back; the
    others are printed as words, and these are cut as names, behind the sign if there is one. -/
theorem cut_constant {c : Constant} {rest : List Char} {ws : List Word} (h : c.word.Printable)
    (hrest : breaks rest = true) (hcut : Cut rest ws) :
    Cut (c.source.toList ++ rest) (c.printed ++ ws) := by
  cases c with
  | nil => exact cut_keyword .kwNil (by decide) hrest hcut
  | bool b =>
      cases b with
      | true => exact cut_keyword .kwTrue (by decide) hrest hcut
      | false => exact cut_keyword .kwFalse (by decide) hrest hcut
  | string s => exact cut_string s hcut
  | number x =>
      -- What is not finite is printed as a word, and that is read as a name.
      have hname : ∀ (c : Char) (cs : List Char), startsWord c = true →
          (cs.all continuesWord) = true → TokenKind.ofWord (String.ofList (c :: cs)) = .identifier →
          Cut (c :: (cs ++ rest)) (.name (String.ofList (c :: cs)) :: ws) := by
        intro c cs hc hcs hkind
        have hcut := cut_word hc (List.all_eq_true.mp hcs) hrest hcut
        rwa [hkind] at hcut
      cases hbinary : Decimal.Binary.ofFloat x with
      | finite negative m q =>
          have hback : Decimal.ReadsBack x := by
            cases h with
            | number hx => exact hx (by simp [Decimal.isFinite, hbinary])
          simp only [Constant.printed, hbinary]
          exact cut_number hback hrest hcut
      | infinite negative =>
          cases negative with
          | true =>
              simp only [Constant.source, Constant.printed, Decimal.plain, Decimal.write, hbinary]
              exact cut_symbol (show symbol? '-' = some .minus from rfl)
                (hname 'i' ['n', 'f'] (by decide) (by decide) (by decide))
          | false =>
              simp only [Constant.source, Constant.printed, Decimal.plain, Decimal.write, hbinary]
              exact hname 'i' ['n', 'f'] (by decide) (by decide) (by decide)
      | notANumber =>
          simp only [Constant.source, Constant.printed, Decimal.plain, Decimal.write, hbinary]
          exact hname 'N' ['a', 'N'] (by decide) (by decide) (by decide)

/-- Blanks in front of a line are cut away. -/
theorem cut_indentation (depth : Nat) {rest : List Char} {ws : List Word} (hcut : Cut rest ws) :
    Cut ((Text.indentation depth).toList ++ rest) ws := by
  rw [Text.indentation, String.toList_ofList]
  induction 4 * depth with
  | zero => exact hcut
  | succ n ih => exact ih.blank

/-- Names with commas and blanks between them. -/
theorem cut_sourceNames : ∀ {ts : List Token} {rest : List Char} {ws : List Word},
    (∀ t ∈ ts, t.isName = true) → AllPrintable (wordsNames .bare ts) → breaks rest = true →
      Cut rest ws → Cut ((sourceNames ts).toList ++ rest) (wordsNames .printed ts ++ ws)
  | [], _, _, _, _, _, hcut => by simpa [sourceNames, commaSeparated, wordsNames] using hcut
  | [t], _, _, hts, hw, hrest, hcut => by
    simpa [sourceNames, commaSeparated, wordsNames] using
      cut_name (hw _ List.mem_cons_self) (hts _ List.mem_cons_self) hrest hcut
  | t :: t' :: ts, _, _, hts, hw, hrest, hcut => by
    obtain ⟨ht, hts⟩ := List.forall_mem_cons.mp hts
    obtain ⟨hwt, hw⟩ := List.forall_mem_cons.mp hw
    have hrest := cut_sourceNames hts hw hrest hcut
    simp only [sourceNames, List.map_cons] at hrest
    simp only [sourceNames, commaSeparated, wordsNames, Style.printed_comma, List.map_cons,
      String.toList_append, String.reduceToList, List.append_assoc, List.cons_append,
      List.nil_append]
    exact cut_name hwt ht rfl (cut_symbol rfl hrest.blank)

/-- An operand is cut into its words, with parentheses around them where they are printed. -/
theorem cut_operand {e : Expr} {depth : Nat} {rest : List Char} {ws : List Word}
    (he : ∀ {rest : List Char} {ws : List Word}, breaks rest = true → Cut rest ws →
      Cut ((e.source depth).toList ++ rest) (e.grouped.words .printed ++ ws))
    (hrest : breaks rest = true) (hcut : Cut rest ws) :
    Cut ((parenthesized e.needsParens (e.source depth)).toList ++ rest)
      (e.grouped.wrapped.words .printed ++ ws) := by
  have hparens : e.grouped.needsParens = e.needsParens :=
    Expr.needsParens_map Expr.needsParens_groupOperands e
  unfold Expr.wrapped parenthesized
  rw [hparens]
  split
  · simp only [String.toList_append, String.reduceToList, List.append_assoc, List.cons_append,
      List.nil_append, Expr.words]
    exact cut_symbol rfl (he rfl (cut_symbol rfl hcut))
  · exact he hrest hcut

/-- Lines between braces, with the indentation of the closing one. -/
theorem cut_braced {lines : String} (depth : Nat) {rest : List Char} {us ws : List Word}
    (hlines : ∀ {rest : List Char} {ws : List Word}, Cut rest ws →
      Cut (lines.toList ++ rest) (us ++ ws)) (hcut : Cut rest ws) :
    Cut ((braced lines depth).toList ++ rest) (wordsBraced .printed us ++ ws) := by
  simp only [braced, wordsBraced, Style.printed_feed, String.toList_append, String.reduceToList,
    List.append_assoc, List.cons_append, List.nil_append]
  exact cut_symbol rfl (cut_symbol rfl (hlines (cut_indentation depth (cut_symbol rfl hcut))))

/-! ## Trees -/

theorem isMark_of_mem_tierOperators {k : Nat} {kind : TokenKind} (h : kind ∈ tierOperators k) :
    kind.isMark = true := by
  unfold tierOperators at h
  split at h <;> revert kind <;> decide

/-- What stands behind a colon, if there is one. -/
theorem cut_colon {t : Option Token} {text : String} {rest : List Char} {us vs ws : List Word}
    (ht : ∀ t' ∈ t, t'.kind = .colon) (hw : AllPrintable (wordsBehind t us))
    (htext : AllPrintable us → Cut (text.toList ++ rest) (vs ++ ws)) (hcut : Cut rest ws) :
    Cut ((if t.isSome then ":" ++ text else "").toList ++ rest) (wordsBehind t vs ++ ws) := by
  cases t with
  | none => exact hcut
  | some t =>
      obtain ⟨hwt, hwus⟩ := List.forall_mem_cons.mp hw
      have hword := (eq_mark_of_printable hwt (ht t rfl) rfl).1
      simp only [Option.isSome_some, if_true, wordsBehind, hword, String.toList_append,
        String.reduceToList, List.cons_append, List.nil_append]
      exact cut_symbol rfl (htext hwus)

theorem breaks_colon {c : Bool} {text : String} {rest : List Char} (hrest : breaks rest = true) :
    breaks ((if c then ":" ++ text else "").toList ++ rest) = true := by
  cases c with
  | true =>
      simp only [if_true, String.toList_append, String.reduceToList, List.cons_append]
      rfl
  | false => exact hrest

section Trees

attribute [local simp] Expr.source Expr.map Expr.words Expr.groupOperands sourceList mapList
  sourceEntries mapEntries Access.source Access.map Access.words sourceOption map? words?
  mapAccess? FunctionDecl.source FunctionDecl.map FunctionDecl.words FunctionBody.source
  FunctionBody.map FunctionBody.words wordsBehind wordsToken? Stmt.source Stmt.map Stmt.words
  wordsStmt? mapStmt? sourceLines mapLines wordsLines sourceElifs mapElifs wordsElifs mapElse
  wordsElse ClassDecl.source ClassDecl.map ClassDecl.words wordsSuper sourceMethods mapMethods
  wordsMethods

-- From the back to the front: a node is cut into its words in front of text that is cut already.
mutual

/-- The printed text of an expression is cut into its words in the printed style, if what follows it
    breaks off names and numbers. One case for each constructor, mutual with statements through
    functions. -/
theorem Expr.cut_source : ∀ (e : Expr), AllFormed e.nodes → AllPrintable (e.words .bare) →
    ∀ (depth : Nat) {rest : List Char} {ws : List Word}, breaks rest = true → Cut rest ws →
      Cut ((e.source depth).toList ++ rest) (e.grouped.words .printed ++ ws)
  | .list es bracket, hf, hw, depth, _, _, _, hcut => by
    obtain ⟨hbracket, hes⟩ := List.forall_mem_cons.mp hf
    simp only [Expr.words, List.forall_mem_cons, List.forall_mem_append] at hw
    obtain ⟨-, hwes, hwb, -⟩ := hw
    simp [(eq_mark_of_printable hwb hbracket rfl).1]
    exact cut_symbol rfl (cut_sourceList es hes hwes depth rfl (cut_symbol rfl hcut))
  | .dict kvs brace, hf, hw, depth, _, _, _, hcut => by
    obtain ⟨hbrace, hkvs⟩ := List.forall_mem_cons.mp hf
    simp only [Expr.words, List.forall_mem_cons, List.forall_mem_append] at hw
    obtain ⟨-, hwkvs, hwb, -⟩ := hw
    simp [(eq_mark_of_printable hwb hbrace rfl).1]
    exact cut_symbol rfl (cut_sourceEntries kvs hkvs hwkvs depth rfl (cut_symbol rfl hcut))
  | .assign name value none, hf, hw, depth, _, _, hrest, hcut => by
    simp only [Expr.nodes, AllFormed, List.forall_mem_cons, List.forall_mem_append] at hf
    simp only [Expr.words, List.forall_mem_cons] at hw
    simp
    exact cut_name hw.1 hf.1 rfl
      (cut_mark .equal rfl (value.cut_source hf.2.1 hw.2.2 depth hrest hcut)).blank
  | .assign name value (some a), hf, hw, depth, _, _, hrest, hcut => by
    simp only [Expr.nodes, nodesAccess?, AllFormed, List.forall_mem_cons,
      List.forall_mem_append] at hf
    simp only [Expr.words, List.forall_mem_cons, List.forall_mem_append] at hw
    simp
    exact a.cut_source hf.2.2 hw.1 depth
      (cut_mark .equal rfl (value.cut_source hf.2.1 hw.2.2 depth hrest hcut)).blank
  | .access a, hf, hw, depth, _, _, hrest, hcut => by
    simpa using a.cut_source (List.forall_mem_cons.mp hf).2 hw depth hcut
  | .binary left operator right, hf, hw, depth, _, _, hrest, hcut => by
    simp only [Expr.nodes, AllFormed, List.forall_mem_cons, List.forall_mem_append] at hf
    simp only [Expr.words, List.forall_mem_cons, List.forall_mem_append] at hw
    obtain ⟨⟨⟨k, -, hop⟩, -⟩, hleft, hright⟩ := hf
    have hright := cut_operand (right.cut_source hright hw.2.2 depth) hrest hcut
    have hop := cut_operator hw.2.1 (isMark_of_mem_tierOperators hop) hright
    simpa using cut_operand (left.cut_source hleft hw.1 depth) rfl hop.blank
  | .logical left operator right, hf, hw, depth, _, _, hrest, hcut => by
    simp only [Expr.nodes, AllFormed, List.forall_mem_cons, List.forall_mem_append] at hf
    simp only [Expr.words, List.forall_mem_cons, List.forall_mem_append] at hw
    obtain ⟨⟨⟨k, -, hop⟩, -⟩, hleft, hright⟩ := hf
    have hright := cut_operand (right.cut_source hright hw.2.2 depth) hrest hcut
    have hop := cut_operator hw.2.1 (isMark_of_mem_tierOperators hop) hright
    simpa using cut_operand (left.cut_source hleft hw.1 depth) rfl hop.blank
  | .call callee paren es, hf, hw, depth, _, _, _, hcut => by
    simp only [Expr.nodes, AllFormed, List.forall_mem_cons, List.forall_mem_append] at hf
    simp only [Expr.words, List.forall_mem_cons, List.forall_mem_append] at hw
    obtain ⟨⟨hparen, -⟩, hcallee, hes⟩ := hf
    obtain ⟨hwcallee, -, hwes, hwparen, -⟩ := hw
    simp [(eq_mark_of_printable hwparen hparen rfl).1]
    exact callee.cut_source hcallee hwcallee depth rfl
      (cut_symbol rfl (cut_sourceList es hes hwes depth rfl (cut_symbol rfl hcut)))
  | .get object name, hf, hw, depth, rest, _, hrest, hcut => by
    obtain ⟨⟨-, hname⟩, hobject⟩ := List.forall_mem_cons.mp hf
    simp only [Expr.words, List.forall_mem_cons, List.forall_mem_append] at hw
    obtain ⟨hwobject, -, hwname, -⟩ := hw
    simp
    exact object.cut_source hobject hwobject depth (breaks_property hwname hname rest)
      (cut_symbol rfl (cut_name hwname hname hrest hcut))
  | .set object name value none, hf, hw, depth, _, _, hrest, hcut => by
    simp only [Expr.nodes, AllFormed, List.forall_mem_cons, List.forall_mem_append] at hf
    simp only [Expr.words, List.forall_mem_cons, List.forall_mem_append] at hw
    obtain ⟨⟨-, hname⟩, hobject, hvalue, -⟩ := hf
    obtain ⟨hwobject, -, hwname, -, hwvalue⟩ := hw
    simp
    exact object.cut_source hobject hwobject depth (breaks_property hwname hname _)
      (cut_symbol rfl (cut_name hwname hname rfl
        (cut_mark .equal rfl (value.cut_source hvalue hwvalue depth hrest hcut)).blank))
  | .set object name value (some a), hf, hw, depth, _, _, hrest, hcut => by
    simp only [Expr.nodes, nodesAccess?, AllFormed, List.forall_mem_cons,
      List.forall_mem_append] at hf
    simp only [Expr.words, List.forall_mem_cons, List.forall_mem_append] at hw
    obtain ⟨-, -, hvalue, ha⟩ := hf
    simp
    exact a.cut_source ha hw.1 depth
      (cut_mark .equal rfl (value.cut_source hvalue hw.2.2 depth hrest hcut)).blank
  | .super keyword method, hf, hw, depth, rest, _, hrest, hcut => by
    obtain ⟨⟨hkeyword, hname⟩, -⟩ := List.forall_mem_cons.mp hf
    simp only [Expr.words, List.forall_mem_cons] at hw
    obtain ⟨hwkeyword, -, hwname, -⟩ := hw
    simp [(eq_mark_of_printable hwkeyword hkeyword rfl).1]
    exact cut_keyword .kwSuper (by decide) (breaks_property hwname hname rest)
      (cut_symbol rfl (cut_name hwname hname hrest hcut))
  | .grouping inner, hf, hw, depth, _, _, _, hcut => by
    simp only [Expr.words, List.forall_mem_cons, List.forall_mem_append] at hw
    simp
    exact cut_symbol rfl
      (inner.cut_source (List.forall_mem_cons.mp hf).2 hw.2.1 depth rfl (cut_symbol rfl hcut))
  | .literal c, _, hw, _, _, _, hrest, hcut => by
    simpa using cut_constant (hw _ List.mem_cons_self) hrest hcut
  | .this keyword, hf, hw, _, _, _, hrest, hcut => by
    have hkeyword := (List.forall_mem_cons.mp hf).1
    simp [(eq_mark_of_printable (hw _ List.mem_cons_self) hkeyword rfl).1]
    exact cut_keyword .kwThis (by decide) hrest hcut
  | .unary operator operand, hf, hw, depth, _, _, hrest, hcut => by
    obtain ⟨⟨hop, -⟩, hoperand⟩ := List.forall_mem_cons.mp hf
    obtain ⟨hwop, hwoperand⟩ := List.forall_mem_cons.mp hw
    have hoperand := cut_operand (operand.cut_source hoperand hwoperand depth) hrest hcut
    obtain hop | hop := hop
    · obtain ⟨hword, hlexeme⟩ := eq_mark_of_printable hwop hop rfl
      simp [hword, hlexeme, TokenKind.spelling]
      exact cut_mark .kwNot rfl hoperand
    · obtain ⟨hword, hlexeme⟩ := eq_mark_of_printable hwop hop rfl
      simp [hword, hlexeme, TokenKind.spelling]
      exact cut_symbol rfl hoperand
  | .var name, hf, hw, _, _, _, hrest, hcut => by
    simpa using cut_name (hw _ List.mem_cons_self) (List.forall_mem_cons.mp hf).1 hrest hcut
  | .function d, hf, hw, depth, _, _, hrest, hcut => by
    simp
    exact cut_mark .kwFn rfl
      (d.cut_source (List.forall_mem_cons.mp hf).2 (List.forall_mem_cons.mp hw).2 depth hrest hcut)

/-- The elements of a list, with commas and blanks between them. -/
theorem cut_sourceList : ∀ (es : List Expr), AllFormed (nodesList es) →
    AllPrintable (wordsList .bare es) →
    ∀ (depth : Nat) {rest : List Char} {ws : List Word}, breaks rest = true → Cut rest ws →
      Cut ((sourceList es depth).toList ++ rest)
        (wordsList .printed (mapList id Expr.groupOperands es) ++ ws)
  | [], _, _, _, _, _, _, hcut => by simpa [wordsList] using hcut
  | [e], hf, hw, depth, _, _, hrest, hcut => by
    simpa [wordsList] using
      e.cut_source (List.forall_mem_append.mp hf).1 hw depth hrest hcut
  | e :: e' :: es, hf, hw, depth, _, _, hrest, hcut => by
    obtain ⟨he, hes⟩ := List.forall_mem_append.mp hf
    rw [wordsList_bare_cons] at hw
    obtain ⟨hwe, hwes⟩ := List.forall_mem_append.mp hw
    have htail := cut_sourceList (e' :: es) hes hwes depth hrest hcut
    simp only [mapList] at htail
    simp [wordsList]
    exact e.cut_source he hwe depth rfl (cut_symbol rfl htail.blank)

theorem cut_sourceEntries : ∀ (kvs : List (Expr × Expr)), AllFormed (nodesEntries kvs) →
    AllPrintable (wordsEntries .bare kvs) →
    ∀ (depth : Nat) {rest : List Char} {ws : List Word}, breaks rest = true → Cut rest ws →
      Cut ((sourceEntries kvs depth).toList ++ rest)
        (wordsEntries .printed (mapEntries id Expr.groupOperands kvs) ++ ws)
  | [], _, _, _, _, _, _, hcut => by simpa [wordsEntries] using hcut
  | [(key, value)], hf, hw, depth, _, _, hrest, hcut => by
    simp only [nodesEntries, AllFormed, List.forall_mem_append] at hf
    simp only [wordsEntries, List.forall_mem_append, List.forall_mem_cons] at hw
    simp [wordsEntries]
    exact key.cut_source hf.1 hw.1 depth rfl
      (cut_symbol rfl (value.cut_source hf.2.1 hw.2.2 depth hrest hcut).blank)
  | (key, value) :: kv :: kvs, hf, hw, depth, _, _, hrest, hcut => by
    rw [wordsEntries_bare_cons] at hw
    simp only [List.forall_mem_append, List.forall_mem_cons] at hw
    obtain ⟨hwkey, -, hwvalue, hwkvs⟩ := hw
    obtain ⟨hkey, hf⟩ := List.forall_mem_append.mp hf
    obtain ⟨hvalue, hkvs⟩ := List.forall_mem_append.mp hf
    have htail := cut_sourceEntries (kv :: kvs) hkvs hwkvs depth hrest hcut
    simp only [mapEntries] at htail
    simp [wordsEntries]
    exact key.cut_source hkey hwkey depth rfl
      (cut_symbol rfl (value.cut_source hvalue hwvalue depth rfl (cut_symbol rfl htail.blank)).blank)

/-- Behind brackets nothing can go on, so what follows need not break anything off. -/
theorem Access.cut_source : ∀ (a : Access), AllFormed a.nodes → AllPrintable (a.words .bare) →
    ∀ (depth : Nat) {rest : List Char} {ws : List Word}, Cut rest ws →
      Cut ((a.source depth).toList ++ rest)
        ((a.map id Expr.groupOperands).words .printed ++ ws)
  | ⟨object, bracket, first, firstColon, second, secondColon, third⟩, hf, hw, depth, _, _,
      hcut => by
    simp only [Access.nodes, AllFormed, List.forall_mem_cons, List.forall_mem_append] at hf
    simp only [Access.words, List.forall_mem_cons, List.forall_mem_append] at hw
    obtain ⟨⟨-, hbracket, -, -, hfirstColon, hsecondColon⟩, hobject, hfirst, hsecond, hthird⟩ := hf
    obtain ⟨hwobject, hwbracket, hwfirst, hwsecond, hwthird, -⟩ := hw
    have hclosed := cut_symbol (show symbol? ']' = some .rightBracket from rfl) hcut
    have hthird := cut_colon hsecondColon hwthird
      (fun hw => cut_sourceOption third hthird hw depth rfl hclosed) hclosed
    have hsecond := cut_colon hfirstColon hwsecond
      (fun hw => cut_sourceOption second hsecond hw depth (breaks_colon rfl) hthird) hthird
    have hfirst := cut_sourceOption first hfirst hwfirst depth (breaks_colon (breaks_colon rfl)) hsecond
    simp only [Access.source, Access.map, Access.words, id, Option.map_id, String.toList_append,
      String.reduceToList, List.append_assoc, List.cons_append, List.nil_append,
      (eq_mark_of_printable hwbracket hbracket rfl).1]
    exact object.cut_source hobject hwobject depth rfl (cut_symbol rfl hfirst)

theorem cut_sourceOption : ∀ (e : Option Expr), AllFormed (nodes? e) →
    AllPrintable (words? .bare e) →
    ∀ (depth : Nat) {rest : List Char} {ws : List Word}, breaks rest = true → Cut rest ws →
      Cut ((sourceOption e depth).toList ++ rest)
        (words? .printed (map? id Expr.groupOperands e) ++ ws)
  | none, _, _, _, _, _, _, hcut => by simpa using hcut
  | some e, hf, hw, depth, _, _, hrest, hcut => e.cut_source hf hw depth hrest hcut

theorem FunctionDecl.cut_source : ∀ (d : FunctionDecl), AllFormed d.nodes →
    AllPrintable (d.words .bare) →
    ∀ (depth : Nat) {rest : List Char} {ws : List Word}, breaks rest = true → Cut rest ws →
      Cut ((d.source depth).toList ++ rest)
        ((d.map id Expr.groupOperands).words .printed ++ ws)
  | ⟨name, parameters, body⟩, hf, hw, depth, _, _, hrest, hcut => by
    obtain ⟨⟨hname, hparameters, -, -⟩, hbody⟩ := List.forall_mem_cons.mp hf
    simp only [FunctionDecl.words, List.forall_mem_cons, List.forall_mem_append] at hw
    obtain ⟨hwname, -, hwparameters, -, hwbody⟩ := hw
    have hbody := body.cut_source hbody hwbody depth hrest hcut
    have hparameters := cut_sourceNames hparameters hwparameters rfl
      (cut_symbol (show symbol? ')' = some .rightParen from rfl) hbody.blank)
    have hparameters := cut_symbol (show symbol? '(' = some .leftParen from rfl) hparameters
    cases name with
    | none => simpa using hparameters
    | some t => simpa using cut_name (hwname _ List.mem_cons_self) (hname t rfl) rfl hparameters

theorem FunctionBody.cut_source : ∀ (b : FunctionBody), AllFormed b.nodes →
    AllPrintable (b.words .bare) →
    ∀ (depth : Nat) {rest : List Char} {ws : List Word}, breaks rest = true → Cut rest ws →
      Cut ((b.source depth).toList ++ rest)
        ((b.map id Expr.groupOperands).words .printed ++ ws)
  | .block ss, hf, hw, depth, _, _, hrest, hcut => by
    simp only [FunctionBody.words, wordsBraced, List.forall_mem_cons, List.forall_mem_append] at hw
    exact cut_braced depth (cut_sourceLines ss (List.forall_mem_cons.mp hf).2 hw.2.2.1 (depth + 1)) hcut
  | .expression e, hf, hw, depth, _, _, hrest, hcut => e.cut_source hf hw depth hrest hcut

/-- The same for statements, with the keywords and the blanks that are printed between their
    parts. -/
theorem Stmt.cut_source : ∀ (s : Stmt), AllFormed s.nodes → AllPrintable (s.words .bare) →
    ∀ (depth : Nat) {rest : List Char} {ws : List Word}, breaks rest = true → Cut rest ws →
      Cut ((s.source depth).toList ++ rest) ((s.map id Expr.groupOperands).words .printed ++ ws)
  | .expr e, hf, hw, depth, _, _, hrest, hcut =>
    e.cut_source (List.forall_mem_cons.mp hf).2 hw depth hrest hcut
  | .tryCatch body name handler, hf, hw, depth, _, _, hrest, hcut => by
    simp only [Stmt.nodes, AllFormed, List.forall_mem_cons, List.forall_mem_append] at hf
    simp only [Stmt.words, List.forall_mem_cons, List.forall_mem_append] at hw
    obtain ⟨hname, hbody, hhandler⟩ := hf
    obtain ⟨-, hwbody, -, hwname, hwhandler⟩ := hw
    have hhandler := handler.cut_source hhandler hwhandler depth hrest hcut
    have hname := cut_name hwname hname rfl hhandler.blank
    simp
    exact cut_mark .kwTry rfl
      (body.cut_source hbody hwbody depth rfl (cut_mark .kwCatch rfl hname).blank)
  | .forLoop keyword initializer condition increment body, hf, hw, depth, _, _, hrest, hcut => by
    simp only [Stmt.nodes, AllFormed, List.forall_mem_cons, List.forall_mem_append] at hf
    simp only [Stmt.words, List.forall_mem_cons, List.forall_mem_append] at hw
    obtain ⟨⟨hkeyword, -⟩, hinitializer, hcondition, hincrement, hbody⟩ := hf
    obtain ⟨hwkeyword, hwinitializer, -, hwcondition, -, hwincrement, hwbody⟩ := hw
    have hbody := body.cut_source hbody hwbody depth hrest hcut
    have hincrement := increment.cut_source hincrement hwincrement depth rfl hbody.blank
    have hcondition := condition.cut_source hcondition hwcondition depth rfl
      (cut_symbol (show symbol? ';' = some .semicolon from rfl) hincrement.blank)
    have hinitializer := cut_sourceStmt? initializer hinitializer hwinitializer depth rfl
      (cut_symbol (show symbol? ';' = some .semicolon from rfl) hcondition.blank)
    have hfor := cut_mark .kwFor rfl hinitializer
    cases initializer with
    | none =>
        simp [(eq_mark_of_printable hwkeyword hkeyword rfl).1]
        exact hfor
    | some s =>
        simp [(eq_mark_of_printable hwkeyword hkeyword rfl).1]
        exact hfor
  | .forIn keyword identifiers collection body, hf, hw, depth, _, _, hrest, hcut => by
    simp only [Stmt.nodes, AllFormed, List.forall_mem_cons, List.forall_mem_append] at hf
    simp only [Stmt.words, List.forall_mem_cons, List.forall_mem_append] at hw
    obtain ⟨⟨hkeyword, hnames, -⟩, hcollection, hbody⟩ := hf
    obtain ⟨hwkeyword, hwnames, -, hwcollection, hwbody⟩ := hw
    have hbody := body.cut_source hbody hwbody depth hrest hcut
    have hcollection := collection.cut_source hcollection hwcollection depth rfl hbody.blank
    have hnames := cut_sourceNames hnames hwnames rfl (cut_mark .kwIn rfl hcollection).blank
    simp [(eq_mark_of_printable hwkeyword hkeyword rfl).1]
    exact cut_mark .kwFor rfl hnames
  | .declare name none, hf, hw, _, _, _, hrest, hcut => by
    simp only [Stmt.words, List.forall_mem_cons] at hw
    simp
    exact cut_mark .kwLet rfl (cut_name hw.2.1 (List.forall_mem_cons.mp hf).1 hrest hcut)
  | .declare name (some e), hf, hw, depth, _, _, hrest, hcut => by
    obtain ⟨hname, he⟩ := List.forall_mem_cons.mp hf
    simp only [Stmt.words, List.forall_mem_cons] at hw
    obtain ⟨-, hwname, -, hwe⟩ := hw
    simp
    exact cut_mark .kwLet rfl (cut_name hwname hname rfl
      (cut_mark .equal rfl (e.cut_source he hwe depth hrest hcut)).blank)
  | .block ss, hf, hw, depth, _, _, hrest, hcut => by
    simp only [Stmt.nodes, AllFormed, List.forall_mem_cons] at hf
    simp only [Stmt.words, wordsBraced, List.forall_mem_cons, List.forall_mem_append] at hw
    exact cut_braced depth (cut_sourceLines ss hf.2.2 hw.2.2.1 (depth + 1)) hcut
  | .whileLoop keyword condition body, hf, hw, depth, _, _, hrest, hcut => by
    simp only [Stmt.nodes, AllFormed, List.forall_mem_cons, List.forall_mem_append] at hf
    simp only [Stmt.words, List.forall_mem_cons, List.forall_mem_append] at hw
    obtain ⟨⟨hkeyword, -⟩, hcondition, hbody⟩ := hf
    obtain ⟨hwkeyword, hwcondition, hwbody⟩ := hw
    have hbody := body.cut_source hbody hwbody depth hrest hcut
    simp [(eq_mark_of_printable hwkeyword hkeyword rfl).1]
    exact cut_mark .kwWhile rfl (condition.cut_source hcondition hwcondition depth rfl hbody.blank)
  | .ret keyword none, hf, hw, _, _, _, hrest, hcut => by
    have hkeyword := (List.forall_mem_cons.mp hf).1
    simp [(eq_mark_of_printable (hw _ List.mem_cons_self) hkeyword rfl).1]
    exact cut_keyword .kwReturn (by decide) hrest hcut
  | .ret keyword (some e), hf, hw, depth, _, _, hrest, hcut => by
    obtain ⟨hkeyword, he⟩ := List.forall_mem_cons.mp hf
    obtain ⟨hwkeyword, hwe⟩ := List.forall_mem_cons.mp hw
    simp [(eq_mark_of_printable hwkeyword hkeyword rfl).1]
    exact cut_mark .kwReturn rfl (e.cut_source he hwe depth hrest hcut)
  | .breakLoop keyword, hf, hw, _, _, _, hrest, hcut => by
    have hkeyword := (List.forall_mem_cons.mp hf).1
    simp [(eq_mark_of_printable (hw _ List.mem_cons_self) hkeyword rfl).1]
    exact cut_keyword .kwBreak (by decide) hrest hcut
  | .continueLoop keyword, hf, hw, _, _, _, hrest, hcut => by
    have hkeyword := (List.forall_mem_cons.mp hf).1
    simp [(eq_mark_of_printable (hw _ List.mem_cons_self) hkeyword rfl).1]
    exact cut_keyword .kwContinue (by decide) hrest hcut
  | .ifElse keyword condition thenBranch elifs elseBranch, hf, hw, depth, _, _, hrest, hcut => by
    simp only [Stmt.nodes, AllFormed, List.forall_mem_cons, List.forall_mem_append] at hf
    simp only [Stmt.words, wordsBraced, List.forall_mem_cons, List.forall_mem_append] at hw
    obtain ⟨hkeyword, hcondition, -, hthen, helifs, helse⟩ := hf
    obtain ⟨hwkeyword, hwcondition, ⟨-, -, hwthen, -⟩, hwelifs, hwelse⟩ := hw
    have helse := cut_sourceElse elseBranch helse hwelse depth hcut
    have helifs := cut_sourceElifs elifs helifs hwelifs depth helse
    have hthen := cut_braced depth (cut_sourceLines thenBranch hthen hwthen (depth + 1)) helifs
    have hcondition := condition.cut_source hcondition hwcondition depth rfl hthen.blank
    have hif := cut_mark .kwIf rfl hcondition
    cases elseBranch with
    | none =>
        simp [(eq_mark_of_printable hwkeyword hkeyword rfl).1]
        exact hif
    | some ss =>
        simp at hif
        simp [(eq_mark_of_printable hwkeyword hkeyword rfl).1]
        exact hif
  | .function d, hf, hw, depth, _, _, hrest, hcut => by
    simp
    exact cut_mark .kwFn rfl
      (d.cut_source (List.forall_mem_cons.mp hf).2 (List.forall_mem_cons.mp hw).2 depth hrest hcut)
  | .cls d, hf, hw, depth, _, _, _, hcut =>
    d.cut_source (List.forall_mem_cons.mp hf).2 hw depth hcut

theorem cut_sourceStmt? : ∀ (s : Option Stmt), AllFormed (nodesStmt? s) →
    AllPrintable (wordsStmt? .bare s) →
    ∀ (depth : Nat) {rest : List Char} {ws : List Word}, breaks rest = true → Cut rest ws →
      Cut ((match s with | some s => s.source depth | none => "").toList ++ rest)
        (wordsStmt? .printed (mapStmt? id Expr.groupOperands s) ++ ws)
  | none, _, _, _, _, _, _, hcut => by simpa using hcut
  | some s, hf, hw, depth, _, _, hrest, hcut => s.cut_source hf hw depth hrest hcut

theorem cut_sourceElifs : ∀ (bs : List ElifBranch), AllFormed (nodesElifs bs) →
    AllPrintable (wordsElifs .bare bs) →
    ∀ (depth : Nat) {rest : List Char} {ws : List Word}, Cut rest ws →
      Cut ((sourceElifs bs depth).toList ++ rest)
        (wordsElifs .printed (mapElifs id Expr.groupOperands bs) ++ ws)
  | [], _, _, _, _, _, hcut => by simpa using hcut
  | ⟨condition, body⟩ :: bs, hf, hw, depth, _, _, hcut => by
    simp only [nodesElifs, AllFormed, List.forall_mem_cons, List.forall_mem_append] at hf
    simp only [wordsElifs, wordsBraced, List.forall_mem_cons, List.forall_mem_append] at hw
    obtain ⟨hcondition, -, hbody, hbs⟩ := hf
    obtain ⟨-, hwcondition, ⟨-, -, hwbody, -⟩, hwbs⟩ := hw
    have htail := cut_sourceElifs bs hbs hwbs depth hcut
    have hbody := cut_braced depth (cut_sourceLines body hbody hwbody (depth + 1)) htail
    simp
    exact (cut_mark .kwElif rfl
      (condition.cut_source hcondition hwcondition depth rfl hbody.blank)).blank

theorem cut_sourceElse : ∀ (ss : Option (List Stmt)), AllFormed (nodesElse ss) →
    AllPrintable (wordsElse .bare ss) →
    ∀ (depth : Nat) {rest : List Char} {ws : List Word}, Cut rest ws →
      Cut ((match ss with
          | some statements => " else " ++ braced (sourceLines statements (depth + 1)) depth
          | none => "").toList ++ rest)
        (wordsElse .printed (mapElse id Expr.groupOperands ss) ++ ws)
  | none, _, _, _, _, _, hcut => by simpa using hcut
  | some ss, hf, hw, depth, _, _, hcut => by
    simp only [wordsElse, wordsBraced, List.forall_mem_cons, List.forall_mem_append] at hw
    have hbody := cut_braced depth
      (cut_sourceLines ss (List.forall_mem_cons.mp hf).2 hw.2.2.2.1 (depth + 1)) hcut
    simp
    exact (cut_mark .kwElse rfl hbody).blank

/-- A class, with its methods and behind them the methods of the class itself, which have `class` in
    front of them. -/
theorem ClassDecl.cut_source : ∀ (d : ClassDecl), AllFormed d.nodes → AllPrintable (d.words .bare) →
    ∀ (depth : Nat) {rest : List Char} {ws : List Word}, Cut rest ws →
      Cut ((d.source depth).toList ++ rest) ((d.map id Expr.groupOperands).words .printed ++ ws)
  | ⟨name, superClass, methods, staticMethods⟩, hf, hw, depth, _, _, hcut => by
    simp only [ClassDecl.nodes, AllFormed, List.forall_mem_cons, List.forall_mem_append] at hf
    simp only [ClassDecl.words, wordsBraced, List.forall_mem_cons, List.forall_mem_append] at hw
    obtain ⟨⟨hname, hsuper, -, -⟩, hmethods, hstatics⟩ := hf
    obtain ⟨-, hwname, hwsuper, -, -, ⟨hwmethods, hwstatics⟩, -⟩ := hw
    have hmembers : ∀ {rest : List Char} {ws : List Word}, Cut rest ws →
        Cut ((sourceMethods methods "" (depth + 1)
            ++ sourceMethods staticMethods "class " (depth + 1)).toList ++ rest)
          ((wordsMethods .printed [] (mapMethods id Expr.groupOperands methods)
            ++ wordsMethods .printed [.mark .kwClass]
              (mapMethods id Expr.groupOperands staticMethods)) ++ ws) := by
      intro rest ws hcut
      have hstatics := cut_sourceMethods staticMethods hstatics "class " hwstatics
        (cut_mark .kwClass rfl) (depth + 1) hcut
      rw [String.toList_append, List.append_assoc, List.append_assoc]
      exact cut_sourceMethods methods hmethods "" hwmethods id (depth + 1) hstatics
    have hbody := (cut_braced depth hmembers hcut).blank
    cases superClass with
    | none =>
        simp
        exact cut_mark .kwClass rfl (cut_name hwname hname rfl hbody)
    | some t =>
        simp only [wordsSuper, List.forall_mem_cons] at hwsuper
        simp
        exact cut_mark .kwClass rfl (cut_name hwname hname rfl
          (cut_mark .less rfl (cut_name hwsuper.2.1 (hsuper t rfl) rfl hbody)).blank)

theorem cut_sourceMethods : ∀ (ds : List FunctionDecl), AllFormed (nodesMethods ds) →
    ∀ (mark : String) {us : List Word}, AllPrintable (wordsMethods .bare us ds) →
    (∀ {rest : List Char} {ws : List Word}, Cut rest ws → Cut (mark.toList ++ rest) (us ++ ws)) →
    ∀ (depth : Nat) {rest : List Char} {ws : List Word}, Cut rest ws →
      Cut ((sourceMethods ds mark depth).toList ++ rest)
        (wordsMethods .printed us (mapMethods id Expr.groupOperands ds) ++ ws)
  | [], _, _, _, _, _, _, _, _, hcut => by simpa using hcut
  | d :: ds, hf, mark, _, hw, hmark, depth, _, _, hcut => by
    obtain ⟨hd, hds⟩ := List.forall_mem_append.mp hf
    simp only [wordsMethods, List.forall_mem_append] at hw
    have htail := cut_sourceMethods ds hds mark hw.2.2.2 hmark depth hcut
    have hd := d.cut_source hd hw.2.1 depth rfl
      (cut_symbol (show symbol? '\n' = some .newline from rfl) htail)
    simpa using cut_indentation depth (hmark hd)

/-- The lines of a program or a block, each with its indentation in front and a line feed behind
    it. -/
theorem cut_sourceLines : ∀ (ss : List Stmt), AllFormed (nodesLines ss) →
    AllPrintable (wordsLines .bare ss) →
    ∀ (depth : Nat) {rest : List Char} {ws : List Word}, Cut rest ws →
      Cut ((sourceLines ss depth).toList ++ rest)
        (wordsLines .printed (mapLines id Expr.groupOperands ss) ++ ws)
  | [], _, _, _, _, _, hcut => by simpa using hcut
  | s :: ss, hf, hw, depth, _, _, hcut => by
    obtain ⟨hs, hss⟩ := List.forall_mem_append.mp hf
    simp only [wordsLines, List.forall_mem_append] at hw
    have htail := cut_sourceLines ss hss hw.2.2 depth hcut
    have hs := s.cut_source hs hw.1 depth rfl
      (cut_symbol (show symbol? '\n' = some .newline from rfl) htail)
    simpa using cut_indentation depth hs

end

end Trees

end Script
