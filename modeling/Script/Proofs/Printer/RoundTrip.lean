import Script.Proofs.Parser.Accepted
import Script.Proofs.Parser.Exits
import Script.Proofs.Printer.Statements

/-!
# `Proofs.Printer.RoundTrip` — printed text is read as what was printed

The printed text of an expression, and of a program whose nodes are legible, is accepted again, and
what it is read as differs from what was printed in the lines of tokens and in groupings only.

That a number is printed as digits that stand for it is not shown here. It is asked of the numbers
that the source has (`NumbersReadBack`), and it can be decided for each of them.
-/

namespace Script

theorem Decimal.readsBack_iff (x : Float) : ReadsBack x ↔
    (plain x).toList.head?.any Char.isDigit = true
      ∧ (numberFragment (plain x).toList).rest = []
      ∧ (numberFragment (plain x).toList).found.toOption = some (.number, some (.number x)) := by
  unfold ReadsBack
  cases (numberFragment (plain x).toList).found <;> simp [Except.toOption]

instance (x : Float) : Decidable (Decimal.ReadsBack x) :=
  decidable_of_iff _ (Decimal.readsBack_iff x).symm

/-- A number that is finite is printed as itself. -/
def Literal.ReadsBack : Literal → Prop
  | .number x => Decimal.isFinite x = true → Decimal.ReadsBack x
  | .string _ => True

instance : DecidablePred Literal.ReadsBack
  | .number x => inferInstanceAs (Decidable (Decimal.isFinite x = true → Decimal.ReadsBack x))
  | .string _ => inferInstanceAs (Decidable True)

/-- The finite numbers among the tokens are printed as themselves. -/
abbrev NumbersReadBack (ts : List Token) : Prop := ∀ t ∈ ts, ∀ v ∈ t.literal, v.ReadsBack

/-! ## Words of accepted programs -/

theorem printable_of_genuine {t : Token} (h : t.Genuine) (hkind : t.kind ≠ .newline)
    (hnumber : ∀ v ∈ t.literal, v.ReadsBack) : t.word.Printable := by
  cases h with
  | mark hmark => exact .mark hmark
  | name hc hcs hword => exact .name hc hcs hword
  | number => exact .number (hnumber _ rfl)
  | string => exact .string
  | newline => exact absurd rfl hkind

/-- The parts of a parsed program can be printed. -/
theorem printable_of_parse {source : String} {program : Program}
    (hparse : parse (tokenize source).1 = .ok program)
    (hnumbers : NumbersReadBack (tokenize source).1) :
    AllFormed program.nodes ∧ Parts Word.Printable (nodesLines program) (program.words .bare) := by
  refine parts_of_parse hparse (fun t ht hgenuine hkind => ?_) (.mark rfl) ?_
  · exact printable_of_genuine hgenuine hkind (hnumbers t ht)
  · have hrest : ['n', 'i', 't'].all continuesWord = true := by decide
    exact @Word.Printable.name 'i' _ (by decide) (List.all_eq_true.mp hrest) (by decide)

/-! ## Expressions without functions -/

/-- Whether the part is a function expression. -/
def Node.isFunction : Node → Bool
  | .expr (.function _) => true
  | _ => false

/-- Whether the part is an expression or an access. -/
def Node.isPlain : Node → Bool
  | .expr _ | .access _ => true
  | _ => false

/-- No part is a function expression. -/
abbrev NoFunctions (ns : List Node) : Prop := ∀ n ∈ ns, n.isFunction = false

/-- All parts are expressions or accesses. -/
abbrev AllPlain (ns : List Node) : Prop := ∀ n ∈ ns, n.isPlain = true

theorem AllPlain.expr {e : Expr} {ns : List Node} (h : AllPlain ns) : AllPlain (.expr e :: ns) :=
  List.forall_mem_cons.mpr ⟨rfl, h⟩

theorem plain_and {b b' : Bool} {ns ns' : List Node} (h : b = true ∧ AllPlain ns)
    (h' : b' = true ∧ AllPlain ns') : (b && b') = true ∧ AllPlain (ns ++ ns') :=
  ⟨by rw [h.1, h'.1]; rfl, List.forall_mem_append.mpr ⟨h.2, h'.2⟩⟩

mutual

/-- Without functions there are no statements in an expression, and no exits. -/
theorem Expr.plain : ∀ (e : Expr), NoFunctions e.nodes → e.exitsPlaced = true ∧ AllPlain e.nodes
  | .list es _, h => (plainList es (List.forall_mem_cons.mp h).2).imp_right .expr
  | .dict kvs _, h => (plainEntries kvs (List.forall_mem_cons.mp h).2).imp_right .expr
  | .assign _ value access, h => by
    obtain ⟨hvalue, haccess⟩ := List.forall_mem_append.mp (List.forall_mem_cons.mp h).2
    exact (plain_and (value.plain hvalue) (plainAccess? access haccess)).imp_right .expr
  | .access a, h => (a.plain (List.forall_mem_cons.mp h).2).imp_right .expr
  | .binary left _ right, h => by
    obtain ⟨hleft, hright⟩ := List.forall_mem_append.mp (List.forall_mem_cons.mp h).2
    exact (plain_and (left.plain hleft) (right.plain hright)).imp_right .expr
  | .call callee _ es, h => by
    obtain ⟨hcallee, hes⟩ := List.forall_mem_append.mp (List.forall_mem_cons.mp h).2
    exact (plain_and (callee.plain hcallee) (plainList es hes)).imp_right .expr
  | .get object _, h => (object.plain (List.forall_mem_cons.mp h).2).imp_right .expr
  | .set object _ value access, h => by
    obtain ⟨hobject, h⟩ := List.forall_mem_append.mp (List.forall_mem_cons.mp h).2
    obtain ⟨hvalue, haccess⟩ := List.forall_mem_append.mp h
    have hplain := plain_and (plain_and (object.plain hobject) (value.plain hvalue))
      (plainAccess? access haccess)
    rw [List.append_assoc] at hplain
    exact hplain.imp_right .expr
  | .super _ _, _ => ⟨rfl, .expr nofun⟩
  | .grouping inner, h => (inner.plain (List.forall_mem_cons.mp h).2).imp_right .expr
  | .literal _, _ => ⟨rfl, .expr nofun⟩
  | .logical left _ right, h => by
    obtain ⟨hleft, hright⟩ := List.forall_mem_append.mp (List.forall_mem_cons.mp h).2
    exact (plain_and (left.plain hleft) (right.plain hright)).imp_right .expr
  | .this _, _ => ⟨rfl, .expr nofun⟩
  | .unary _ operand, h => (operand.plain (List.forall_mem_cons.mp h).2).imp_right .expr
  | .var _, _ => ⟨rfl, .expr nofun⟩
  | .function _, h => nomatch (List.forall_mem_cons.mp h).1

theorem plainList : ∀ (es : List Expr), NoFunctions (nodesList es) →
    exitsPlacedAll es = true ∧ AllPlain (nodesList es)
  | [], _ => ⟨rfl, nofun⟩
  | e :: es, h => by
    obtain ⟨he, hes⟩ := List.forall_mem_append.mp h
    exact plain_and (e.plain he) (plainList es hes)

theorem plainEntries : ∀ (kvs : List (Expr × Expr)), NoFunctions (nodesEntries kvs) →
    exitsPlacedEntries kvs = true ∧ AllPlain (nodesEntries kvs)
  | [], _ => ⟨rfl, nofun⟩
  | (key, value) :: kvs, h => by
    obtain ⟨hkey, h⟩ := List.forall_mem_append.mp h
    obtain ⟨hvalue, hkvs⟩ := List.forall_mem_append.mp h
    have hplain := plain_and (plain_and (key.plain hkey) (value.plain hvalue))
      (plainEntries kvs hkvs)
    rwa [List.append_assoc] at hplain

theorem Access.plain : ∀ (a : Access), NoFunctions a.nodes → a.exitsPlaced = true ∧ AllPlain a.nodes
  | ⟨object, _, first, _, second, _, third⟩, h => by
    obtain ⟨hobject, h⟩ := List.forall_mem_append.mp (List.forall_mem_cons.mp h).2
    obtain ⟨hfirst, h⟩ := List.forall_mem_append.mp h
    obtain ⟨hsecond, hthird⟩ := List.forall_mem_append.mp h
    have hplain := plain_and (plain_and (plain_and (object.plain hobject) (plain? first hfirst))
      (plain? second hsecond)) (plain? third hthird)
    simp only [List.append_assoc] at hplain
    exact hplain.imp_right fun hnodes => List.forall_mem_cons.mpr ⟨rfl, hnodes⟩

theorem plainAccess? : ∀ (a : Option Access), NoFunctions (nodesAccess? a) →
    exitsPlacedAccess? a = true ∧ AllPlain (nodesAccess? a)
  | none, _ => ⟨rfl, nofun⟩
  | some a, h => a.plain h

theorem plain? : ∀ (e : Option Expr), NoFunctions (nodes? e) →
    exitsPlaced? e = true ∧ AllPlain (nodes? e)
  | none, _ => ⟨rfl, nofun⟩
  | some e, h => e.plain h

end

/-- In an expression without functions only numbers have to be looked at. -/
theorem legible_of_plain {ns : List Node} (h : AllPlain ns)
    (hfinite : ∀ x, .expr (.literal (.number x)) ∈ ns → Decimal.isFinite x = true) :
    AllLegible ns := by
  intro n hn
  have hplain := h n hn
  unfold Node.Legible
  split
  · exact hfinite _ hn
  all_goals first | cases hplain | trivial

/-! ## Texts -/

/-- What stands before the end marker is genuine. -/
theorem genuine_of_tokenize {source : String} {ts : List Token} {line : Nat} {errors}
    (h : tokenize source = (ts ++ [.plain .eof "" line], errors)) : ∀ t ∈ ts, t.Genuine := by
  obtain ⟨ts', line', htokens, hgenuine⟩ := tokenize_eq source
  rw [h] at htokens
  obtain rfl := List.append_inj_left' htokens rfl
  exact hgenuine

/-- A text whose tokens the grammar reads is accepted. -/
theorem compile_eq_ok_of_reads {source : String} {ts : List Token} {line : Nat} {program : Program}
    (h : tokenize source = (ts ++ [.plain .eof "" line], []))
    (hreads : Reads false ts (.program program) []) : compile source = .ok program := by
  refine Iff.mpr compile_eq_ok_iff ⟨by rw [h], ?_⟩
  rw [h, beforeEnd_append_eof (genuine_of_tokenize h)]
  exact hreads

/-- The text of one statement is read as that statement. -/
theorem Stmt.compile_source {s : Stmt} (hf : AllFormed s.nodes) (hw : AllPrintable (s.words .bare))
    (hs : s.Rereads false) (hcloses : Closes (s.grouped.words .printed)) (depth : Nat) :
    ∃ s' : Stmt, s'.map Token.unlined id = s.grouped.map Token.unlined id
      ∧ compile (s.source depth) = .ok [s'] := by
  obtain ⟨us, w, hlast, hnewline⟩ := hcloses
  have hcut := s.cut_source hf hw depth rfl .nil
  rw [List.append_nil, List.append_nil, hlast] at hcut
  obtain ⟨ts, line, line', htokens, hwords⟩ := tokenize_of_cut_within hcut hnewline
  have hgenuine := (List.forall_mem_append.mp (genuine_of_tokenize htokens)).1
  have hspelled : Spelled ts (s.grouped.words .printed) := ⟨hwords.trans hlast.symm, hgenuine⟩
  have hnone : ∀ s' ∈ ([] : List Stmt), s'.Rereads false := by simp
  have hempty : Spelled [] [] := ⟨rfl, by simp⟩
  have hends : s.Ends [.plain .newline "" line] :=
    Stmt.Ends.line hnone trivial rfl hempty [] (.inr rfl)
  obtain ⟨s', hs', hreads⟩ := hs.statement hspelled hends
  obtain ⟨-, -, -, hfeeds, -⟩ := hspelled.opens hs.opens rfl [.plain .newline "" line]
  refine ⟨s', hs', compile_eq_ok_of_reads htokens (.programMore ?_ (hfeeds ▸ hreads) rfl
    (.programEnd rfl))⟩
  rw [hfeeds]
  simp

/-- **Expressions are printed faithfully.** The printed text of an expression of a parsed program is
    read as the expression again, up to lines and groupings. The expression has no functions in it,
    and only finite numbers. -/
theorem expression_source_faithful {source : String} {program : Program} {e : Expr}
    (hparse : parse (tokenize source).1 = .ok program) (he : .expr e ∈ program.nodes)
    (hfunctions : NoFunctions e.nodes)
    (hfinite : ∀ x, .expr (.literal (.number x)) ∈ e.nodes → Decimal.isFinite x = true)
    (hnumbers : NumbersReadBack (tokenize source).1) (depth : Nat) :
    ∃ x e', compile ("let x = " ++ e.source depth) = .ok [.declare x (some e')]
      ∧ x.lexeme = "x" ∧ e'.erased = e.erased := by
  obtain ⟨hformed, hparts⟩ := printable_of_parse hparse hnumbers
  have he : .expr e ∈ nodesLines program := (List.mem_cons.mp he).resolve_left (by simp)
  have hf : AllFormed e.nodes := fun n hn =>
    hformed n (List.mem_cons_of_mem _ (hparts.nodes e he hn))
  -- Without functions there are no statements in `e`, so there is no exit and no block to mind.
  obtain ⟨hexits, hplain⟩ := e.plain hfunctions
  have hrereads := e.rereads hf (legible_of_plain hplain hfinite) hexits
  let x : Token := .plain .identifier "x" 0
  have hx : x.isName = true := rfl
  have hxword : x.word.Printable := @Word.Printable.name 'x' [] (by decide) (by simp) (by decide)
  have hwords : AllPrintable ((Stmt.declare x (some e)).words .bare) :=
    List.forall_mem_cons.mpr ⟨.mark rfl, List.forall_mem_cons.mpr ⟨hxword,
      List.forall_mem_cons.mpr ⟨.mark rfl, hparts.inner _ he⟩⟩⟩
  have hcloses : Closes ((Stmt.declare x (some e)).grouped.words .printed) :=
    (((e.closes_words hf).cons _).cons _).cons _
  obtain ⟨s', hs', hcompile⟩ := Stmt.compile_source (s := .declare x (some e))
    (List.forall_mem_cons.mpr ⟨hx, hf⟩) hwords (.declare hx fun e' he' => by cases he'; exact hrereads)
    hcloses depth
  have htext : (Stmt.declare x (some e)).source depth = "let x = " ++ e.source depth := by
    simp [Stmt.source, x, Token.plain]
  rw [htext] at hcompile
  cases s' with
  | declare x' initializer =>
      cases initializer with
      | none => cases (Stmt.declare.inj hs').2
      | some e' =>
          simp only [Stmt.grouped, Stmt.map, map?, Stmt.declare.injEq, Option.some.injEq] at hs'
          have hlexeme : x'.lexeme = "x" := congrArg Token.lexeme hs'.1
          exact ⟨x', e', hcompile, hlexeme, Expr.erased_eq_of_unlined hs'.2⟩
  | _ => cases hs'

/-- The expression that a program consists of. -/
def Program.expression? : Program → Option Expr
  | [.expr e] => some e
  | _ => none

theorem Program.eq_of_expression? {program : Program} {e : Expr}
    (h : program.expression? = some e) : program = [.expr e] := by
  unfold Program.expression? at h
  split at h
  · cases h
    rfl
  · cases h

/-- An assignment to an element of a property, with operands that are printed in parentheses. -/
theorem expression_source_faithful_assignment :
    ∃ e, parse (tokenize "f(2.5 - (a - b), -x)[i:].y[0] = [not c or d, \"q\\n\"]\n").1
        = .ok [.expr e]
      ∧ ∃ x e', compile ("let x = " ++ e.source 0) = .ok [.declare x (some e')]
        ∧ x.lexeme = "x" ∧ e'.erased = e.erased := by
  obtain ⟨program, hparse, hcheck⟩ := exists_eq_ok_of_any
    (x := parse (tokenize "f(2.5 - (a - b), -x)[i:].y[0] = [not c or d, \"q\\n\"]\n").1)
    (p := fun program => program.expression?.any fun (e : Expr) =>
      decide (NoFunctions e.nodes ∧ AllLegible e.nodes)) (by decide +kernel)
  obtain ⟨e, hprogram, hcheck⟩ := (Option.any_eq_true _ _).mp hcheck
  obtain rfl := Program.eq_of_expression? hprogram
  obtain ⟨hfunctions, hlegible⟩ := of_decide_eq_true hcheck
  have he : .expr e ∈ Program.nodes [.expr e] :=
    List.mem_cons_of_mem _ (List.mem_append_left _ (List.mem_cons_of_mem _ e.mem_nodes))
  exact ⟨e, hparse, expression_source_faithful hparse he hfunctions (fun _ hx => hlegible _ hx)
    (by decide +kernel) 0⟩

/-- Printed lines are whole lines. -/
theorem wordsLines_printed_ends (ss : List Stmt) :
    wordsLines .printed ss = [] ∨ ∃ us, wordsLines .printed ss = us ++ [.mark .newline] := by
  induction ss with
  | nil => exact .inl rfl
  | cons s ss ih =>
      refine .inr ?_
      simp only [wordsLines, Style.printed_feed]
      obtain hnil | ⟨us, hus⟩ := ih
      · exact ⟨s.words .printed, by rw [hnil, List.append_nil]⟩
      · exact ⟨s.words .printed ++ .mark .newline :: us, by rw [hus]; simp⟩

/-- **Programs are printed faithfully, if legibly.** The printed text of an accepted program is
    accepted, as the same program up to lines and groupings, and so prints the same once more. -/
theorem program_source_faithful {source : String} {program : Program}
    (hcompile : compile source = .ok program) (hlegible : AllLegible program.nodes)
    (hnumbers : NumbersReadBack (tokenize source).1) :
    ∃ program', compile program.source = .ok program' ∧ program'.erased = program.erased
      ∧ program'.source = program.source := by
  have hparse : parse (tokenize source).1 = .ok program :=
    Iff.mpr parse_eq_ok_iff (Iff.mp compile_eq_ok_iff hcompile).2
  obtain ⟨hformed, hparts⟩ := printable_of_parse hparse hnumbers
  obtain ⟨-, hformed⟩ := List.forall_mem_cons.mp hformed
  obtain ⟨hsettled, hlegible⟩ := List.forall_mem_cons.mp hlegible
  have hrereads := rereadsLines false program hformed hlegible (exitsPlaced_of_compile hcompile)
  have hcut := cut_sourceLines program hformed hparts.words 0 .nil
  rw [List.append_nil, List.append_nil] at hcut
  obtain ⟨ts, line, htokens, hwords⟩ := tokenize_of_cut hcut (wordsLines_printed_ends _)
  have hspelled : Spelled ts (wordsLines .printed (mapLines id Expr.groupOperands program)) :=
    ⟨hwords, genuine_of_tokenize htokens⟩
  obtain ⟨program', hsame, hreads⟩ := reads_program hrereads hsettled hspelled
  exact ⟨program', compile_eq_ok_of_reads htokens hreads, Program.erased_eq_of_unlined hsame,
    Program.source_eq_of_unlined hsame⟩

/-- A class, a loop and a conditional. -/
theorem program_source_faithful_class :
    ∃ program, compile "class A < B \x7b\n init(x) super(x,)\n class of(n) \x7b
        for i in n if i \x7b return A(i - (0.5 - n)) \x7d else \x7b continue \x7d \x7d \x7d"
        = .ok program
      ∧ ∃ program', compile program.source = .ok program' ∧ program'.erased = program.erased
        ∧ program'.source = program.source := by
  have hcheck : (match compile "class A < B \x7b\n init(x) super(x,)\n class of(n) \x7b
        for i in n if i \x7b return A(i - (0.5 - n)) \x7d else \x7b continue \x7d \x7d \x7d" with
      | .ok program => decide (AllLegible program.nodes)
      | _ => false) = true := by decide +kernel
  split at hcheck
  · rename_i program hcompile
    exact ⟨program, hcompile, program_source_faithful hcompile (of_decide_eq_true hcheck)
      (by decide +kernel)⟩
  · cases hcheck

/-- The second line is printed as `(a + b) + c`, which the first line takes in as arguments. -/
theorem program_source_glued :
    ∃ program program', compile "x\na + b + c\n" = .ok program
      ∧ compile program.source = .ok program' ∧ program'.erased ≠ program.erased := by
  obtain ⟨program, hcompile, hcheck⟩ := exists_eq_ok_of_any (x := compile "x\na + b + c\n")
    (p := fun program => (compile program.source).toOption.any fun program' =>
      decide (program'.erased.length ≠ program.erased.length)) (by decide +kernel)
  obtain ⟨program', hagain, hlength⟩ := exists_eq_ok_of_any hcheck
  refine ⟨program, program', hcompile, hagain, fun h => ?_⟩
  exact of_decide_eq_true hlength (congrArg List.length h)

end Script
