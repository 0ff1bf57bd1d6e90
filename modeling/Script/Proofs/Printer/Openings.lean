import Mathlib
import Script.Proofs.Printer.Scanning

/-!
# `Proofs.Printer.Openings` — where printed trees begin and end

A printed expression begins with one of few kinds of words, and a printed statement with those or
with one of its keywords. The kind is that of the tree with its groupings (`Expr.grouped`): an
operand in parentheses in front of an operation puts a parenthesis in front of the statement, which
the statement before it may take in. So not every tree is printed *legibly* (`Node.Legible`).
-/

namespace Script

/-! ## Legible nodes -/

/-- Whether the statement ends with `return` and no value behind it. -/
def Stmt.endsBare : Stmt → Bool
  | .tryCatch _ _ handler => handler.endsBare
  | .forLoop _ _ _ _ body => body.endsBare
  | .forIn _ _ _ body => body.endsBare
  | .whileLoop _ _ body => body.endsBare
  | .ret _ value => value.isNone
  | _ => false

/-- The statement with the groupings that its printed text shows. -/
abbrev Stmt.grouped (s : Stmt) : Stmt := s.map id Expr.groupOperands

/-- What is printed at a node ends where it should: a number is printed as digits, and neither an
    expression nor `return` takes in what is printed behind it. -/
def Node.Legible : Node → Prop
  | .expr (.literal (.number x)) => Decimal.isFinite x = true
  | .stmt (.tryCatch body _ _) => body.endsBare = false
  | .stmt (.forLoop _ _ _ _ body) => body.grouped.firstKind.absorbed = false
  | .stmt (.forIn _ _ _ body) => body.grouped.firstKind.absorbed = false
  | .stmt (.whileLoop _ _ body) => body.grouped.firstKind.absorbed = false
  | .stmts ss => SettledLines (mapLines id Expr.groupOperands ss)
  | _ => True

instance decidableSettledLines : DecidablePred SettledLines
  | [] => isTrue trivial
  | [_] => isTrue trivial
  | s :: s' :: rest =>
    have := decidableSettledLines (s' :: rest)
    inferInstanceAs (Decidable ((s.endsOpen = true → s'.firstKind.absorbed = false) ∧ _))

instance : DecidablePred Node.Legible := fun n => by
  unfold Node.Legible
  split <;> infer_instance

/-- All nodes are legible. -/
abbrev AllLegible (ns : List Node) : Prop := ∀ n ∈ ns, n.Legible

/-! ## First words -/

/-- Kinds of tokens that begin an expression. -/
def TokenKind.opensExpression : TokenKind → Bool
  | leftParen | leftBracket | leftBrace | identifier | number | string | kwTrue | kwFalse | kwNil
  | kwThis | kwSuper | kwFn | kwNot | minus => true
  | _ => false

/-- Kinds of tokens that begin a statement. -/
def TokenKind.opensLine (kind : TokenKind) : Bool := kind.opensStatement || kind.opensExpression

theorem TokenKind.opensLine_of_opensExpression {kind : TokenKind}
    (h : kind.opensExpression = true) : kind.opensLine = true := by
  simp [opensLine, h]

/-- The words begin with a kind of the class that begins what `first` begins. -/
def Opens (kinds : TokenKind → Bool) (ws : List Word) (first : TokenKind) : Prop :=
  ∃ w rest, ws = w :: rest ∧ kinds w.kind = true ∧ w.kind.lead = first.lead

theorem Opens.append {kinds : TokenKind → Bool} {ws : List Word} {first : TokenKind}
    (h : Opens kinds ws first) (vs : List Word) : Opens kinds (ws ++ vs) first := by
  obtain ⟨w, rest, rfl, hkind, hfirst⟩ := h
  exact ⟨w, rest ++ vs, rfl, hkind, hfirst⟩

theorem Opens.line {ws : List Word} {first : TokenKind}
    (h : Opens TokenKind.opensExpression ws first) : Opens TokenKind.opensLine ws first := by
  obtain ⟨w, rest, rfl, hkind, hfirst⟩ := h
  exact ⟨w, rest, rfl, TokenKind.opensLine_of_opensExpression hkind, hfirst⟩

theorem opens_cons {kinds : TokenKind → Bool} {w : Word} (h : kinds w.kind = true)
    (rest : List Word) : Opens kinds (w :: rest) w.kind :=
  ⟨w, rest, rfl, h, rfl⟩

theorem opens_wrapped {e : Expr}
    (h : Opens TokenKind.opensExpression (e.words .printed) e.firstKind) :
    Opens TokenKind.opensExpression (e.wrapped.words .printed) e.wrapped.firstKind := by
  unfold Expr.wrapped
  split
  · exact opens_cons rfl _
  · exact h

theorem opens_constant {c : Constant} (h : (Node.expr (.literal c)).Legible) :
    Opens TokenKind.opensExpression c.printed c.word.kind := by
  cases c with
  | nil => exact opens_cons rfl _
  | bool b => cases b <;> exact opens_cons rfl _
  | string s => exact opens_cons rfl _
  | number x =>
      cases hbinary : Decimal.Binary.ofFloat x with
      | finite negative m q =>
          simp only [Constant.printed, hbinary]
          exact opens_cons rfl _
      | infinite negative => simp [Node.Legible, Decimal.isFinite, hbinary] at h
      | notANumber => simp [Node.Legible, Decimal.isFinite, hbinary] at h

theorem lead_lead (kind : TokenKind) : kind.lead.lead = kind.lead := by
  cases kind <;> rfl

/-! ## Last words -/

/-- The words end with one that is no line feed. -/
def Closes (ws : List Word) : Prop := ∃ front w, ws = front ++ [w] ∧ w.kind ≠ .newline

theorem Closes.prepend {ws : List Word} (h : Closes ws) (us : List Word) : Closes (us ++ ws) := by
  obtain ⟨front, w, rfl, hkind⟩ := h
  exact ⟨us ++ front, w, by simp, hkind⟩

theorem Closes.cons {ws : List Word} (h : Closes ws) (w : Word) : Closes (w :: ws) :=
  h.prepend [w]

theorem closes_singleton {w : Word} (h : w.kind ≠ .newline) : Closes [w] := ⟨[], w, rfl, h⟩

theorem closes_wrapped {e : Expr} (h : Closes (e.words .printed)) :
    Closes (e.wrapped.words .printed) := by
  unfold Expr.wrapped
  split
  · exact ((closes_singleton (by decide)).prepend _).cons _
  · exact h

theorem closes_constant (c : Constant) : Closes c.printed := by
  cases c with
  | nil => exact closes_singleton (by decide)
  | bool b => cases b <;> exact closes_singleton (by decide)
  | string s => exact closes_singleton fun h => by cases h
  | number x =>
      simp only [Constant.printed]
      split
      · exact closes_singleton fun h => by cases h
      · exact (closes_singleton (by decide)).cons _
      · exact closes_singleton (by decide)
      · exact closes_singleton (by decide)

theorem closes_of_kind {t : Token} {kind : TokenKind} (h : t.kind = kind) (hkind : kind ≠ .newline) :
    Closes [t.word] :=
  closes_singleton (by rwa [Token.word_kind, h])

theorem closes_name {t : Token} (h : t.isName = true) : Closes [t.word] :=
  closes_of_kind (beq_iff_eq.mp h) (by decide)

section Trees

attribute [local simp] Expr.map Expr.words Expr.groupOperands mapAccess? Access.map Access.words
  Expr.firstKind

/-- A printed expression does not end with a line feed. -/
theorem Expr.closes_words : ∀ (e : Expr), AllFormed e.nodes → Closes (e.grouped.words .printed)
  | .list _ _, hf =>
    ((closes_of_kind (List.forall_mem_cons.mp hf).1 (by decide)).prepend _).cons _
  | .dict _ _, hf =>
    ((closes_of_kind (List.forall_mem_cons.mp hf).1 (by decide)).prepend _).cons _
  | .assign _ value none, hf => by
    simp only [Expr.nodes, AllFormed, List.forall_mem_cons, List.forall_mem_append] at hf
    simpa using ((value.closes_words hf.2.1).cons _).cons _
  | .assign _ value (some a), hf => by
    simp only [Expr.nodes, AllFormed, List.forall_mem_cons, List.forall_mem_append] at hf
    simpa using ((value.closes_words hf.2.1).cons _).prepend _
  | .access ⟨_, _, _, _, _, _, _⟩, _ =>
    (((((closes_singleton (by decide)).prepend _).prepend _).prepend _).cons _).prepend _
  | .binary _ _ right, hf => by
    simp only [Expr.nodes, AllFormed, List.forall_mem_cons, List.forall_mem_append] at hf
    simpa using ((closes_wrapped (right.closes_words hf.2.2)).cons _).prepend _
  | .call _ _ _, hf =>
    (((closes_of_kind (List.forall_mem_cons.mp hf).1.1 (by decide)).prepend _).cons _).prepend _
  | .get _ _, hf => ((closes_name (List.forall_mem_cons.mp hf).1.2).cons _).prepend _
  | .set _ _ value none, hf => by
    simp only [Expr.nodes, AllFormed, List.forall_mem_cons, List.forall_mem_append] at hf
    simpa using ((((value.closes_words hf.2.2.1).cons _).cons _).cons _).prepend _
  | .set _ _ value (some a), hf => by
    simp only [Expr.nodes, AllFormed, List.forall_mem_cons, List.forall_mem_append] at hf
    simpa using ((value.closes_words hf.2.2.1).cons _).prepend _
  | .super _ _, hf => ((closes_name (List.forall_mem_cons.mp hf).1.2).cons _).cons _
  | .grouping _, _ => ((closes_singleton (by decide)).prepend _).cons _
  | .literal c, _ => closes_constant c
  | .logical _ _ right, hf => by
    simp only [Expr.nodes, AllFormed, List.forall_mem_cons, List.forall_mem_append] at hf
    simpa using ((closes_wrapped (right.closes_words hf.2.2)).cons _).prepend _
  | .this _, hf => closes_of_kind (List.forall_mem_cons.mp hf).1 (by decide)
  | .unary _ operand, hf => by
    simpa using (closes_wrapped (operand.closes_words (List.forall_mem_cons.mp hf).2)).cons _
  | .var _, hf => closes_name (List.forall_mem_cons.mp hf).1
  | .function ⟨_, _, .block _⟩, _ =>
    (((((((closes_singleton (by decide)).prepend _).prepend _).cons _).cons _).prepend _).cons
      _).prepend _ |>.cons _
  | .function ⟨_, _, .expression e⟩, hf => by
    have he := e.closes_words (List.forall_mem_cons.mp (List.forall_mem_cons.mp hf).2).2
    exact (((he.cons _).prepend _).cons _).prepend _ |>.cons _

end Trees

end Script
