import Script.Operator
import Script.Proofs.Parser.Formed

/-!
# `Proofs.Parser.WellFormed` — what the evaluator may rely on in a parsed tree

A tree can have shapes that no source text has: a call with a thousand arguments, an operator that
means nothing between two operands, a slice with a third part and no second colon, an assignment
through an access to some other variable. The evaluator meets such shapes with a fault or with an
answer that makes no sense. It never has to, since every node of a parsed program is well formed
(`parsed_nodes_wellFormed`).

`Node.WellFormed` is stated without the helpers of the parser. In particular what a chain of
accesses starts from is said by a relation of its own (`Access.StartsFrom`), and the bounds are
numbers.
-/

namespace Script

/-! ## Well-formed nodes -/

/-- The chain of accesses that ends in this one starts from an expression, which is no access:
    `a.b` for `a.b[0][1]`. -/
inductive Access.StartsFrom : Access → Expr → Prop
  | here {a : Access} : (∀ b, a.object ≠ .access b) → a.StartsFrom a.object
  | further {a b : Access} {e : Expr} : a.object = .access b → b.StartsFrom e → a.StartsFrom e

/-- What is written in the brackets of an access makes sense. -/
structure Access.WellFormed (a : Access) : Prop where
  /-- Without a colon there is an index, and nothing else. -/
  index : a.firstColon = none →
    a.first ≠ none ∧ a.second = none ∧ a.secondColon = none ∧ a.third = none
  /-- A third part stands behind a second colon. -/
  step : a.third ≠ none → a.secondColon ≠ none

/-- The expression has operators that mean something, not too many arguments, and if it assigns
    through an access, then to what the access starts from. -/
def Expr.WellFormed : Expr → Prop
  | .binary _ operator _ => ∃ op, Operator.ofBinary? operator.kind = some op
  | .logical _ operator _ => operator.kind = .kwAnd ∨ operator.kind = .kwOr
  | .unary operator _ => operator.kind = .kwNot ∨ operator.kind = .minus
  | .call _ _ arguments => arguments.length ≤ 255
  | .assign name _ (some a) => a.StartsFrom (.var name)
  | .set object name _ (some a) => a.StartsFrom (.get object name)
  | _ => True

/-- A loop over a collection has a variable, and a counting loop begins with a declaration. -/
def Stmt.WellFormed : Stmt → Prop
  | .forIn _ identifiers _ _ => 1 ≤ identifiers.length
  | .forLoop _ (some initializer) _ _ _ => ∃ name value, initializer = .declare name value
  | _ => True

/-- What can be relied on at a node. -/
def Node.WellFormed : Node → Prop
  | .expr e => e.WellFormed
  | .access a => a.WellFormed
  | .function d => d.parameters.length ≤ 255
  | .stmt s => s.WellFormed
  | .stmts _ => True
  | .cls _ => True

/-! ## Formed nodes are well formed -/

theorem ofBinary_of_mem_tierOperators {k : Nat} {kind : TokenKind} (hk : k < 5)
    (h : kind ∈ tierOperators k) : ∃ op, Operator.ofBinary? kind = some op := by
  have hsome : (Operator.ofBinary? kind).isSome = true := by
    unfold tierOperators at h
    split at h
    · revert kind; decide
    · revert kind; decide
    · revert kind; decide
    · revert kind; decide
    · revert kind; decide
    · omega
    · omega
    · cases h
  exact Option.isSome_iff_exists.mp hsome

theorem logical_of_mem_tierOperators {k : Nat} {kind : TokenKind} (hk : 5 ≤ k)
    (h : kind ∈ tierOperators k) : kind = .kwAnd ∨ kind = .kwOr := by
  unfold tierOperators at h
  split at h
  · omega
  · omega
  · omega
  · omega
  · omega
  · exact .inl (List.mem_singleton.mp h)
  · exact .inr (List.mem_singleton.mp h)
  · cases h

theorem Expr.accessRoot_of_ne {e : Expr} (h : ∀ a, e ≠ .access a) : e.accessRoot = e := by
  unfold Expr.accessRoot
  split
  · exact absurd rfl (h _)
  · rfl

/-- What a chain of accesses starts from is found by going down the chain. -/
theorem Access.startsFrom_accessRoot (a : Access) : a.StartsFrom (Expr.access a).accessRoot := by
  -- Over all expressions, since it is the object of an access that the recursion goes on with.
  have hchain : ∀ e : Expr, ∀ a : Access, e = .access a → a.StartsFrom e.accessRoot := by
    intro e
    fun_induction Expr.accessRoot e with
    | case1 object bracket first firstColon second secondColon third ih =>
        rintro a ⟨⟩
        by_cases hobject : ∃ b, object = .access b
        · obtain ⟨b, hb⟩ := hobject
          exact .further hb (ih b hb)
        · have hne : ∀ b, object ≠ .access b := fun b hb => hobject ⟨b, hb⟩
          rw [Expr.accessRoot_of_ne hne]
          exact .here hne
    | case2 e hnot =>
        rintro ⟨object, bracket, first, firstColon, second, secondColon, third⟩ he
        exact (hnot object bracket first firstColon second secondColon third he).elim
  exact hchain _ a rfl

theorem Expr.Formed.wellFormed {e : Expr} (h : e.Formed) : e.WellFormed := by
  cases e with
  | binary left operator right =>
      obtain ⟨⟨k, hk, hmem⟩, -⟩ := h
      exact ofBinary_of_mem_tierOperators hk hmem
  | logical left operator right =>
      obtain ⟨⟨k, hk, hmem⟩, -⟩ := h
      exact logical_of_mem_tierOperators hk hmem
  | unary operator operand => exact h.1
  | call callee paren arguments => exact h.2.2
  | assign name value access =>
      cases access with
      | none => trivial
      | some a =>
          have hroot : (Expr.access a).accessRoot = .var name := h
          show a.StartsFrom (.var name)
          rw [← hroot]
          exact a.startsFrom_accessRoot
  | set object name value access =>
      cases access with
      | none => trivial
      | some a =>
          have hroot : (Expr.access a).accessRoot = .get object name := h
          show a.StartsFrom (.get object name)
          rw [← hroot]
          exact a.startsFrom_accessRoot
  | _ => trivial

theorem Access.Formed.wellFormed {a : Access} (h : a.Formed) : a.WellFormed where
  index := by
    intro hcolon
    obtain ⟨hfirst, hsecond, hsecondColon⟩ := h.index hcolon
    exact ⟨Option.isSome_iff_ne_none.mp hfirst, hsecond, hsecondColon, h.short hsecondColon⟩
  step := by
    intro hthird hsecondColon
    exact hthird (h.short hsecondColon)

theorem Stmt.Formed.wellFormed {s : Stmt} (h : s.Formed) : s.WellFormed := by
  cases s with
  | forIn keyword identifiers collection body =>
      obtain ⟨-, -, hne, -⟩ := h
      exact List.length_pos_iff.mpr hne
  | forLoop keyword initializer condition increment body =>
      obtain ⟨-, hdeclares, -⟩ := h
      cases initializer with
      | none => trivial
      | some s =>
          have hs := hdeclares s rfl
          cases s with
          | declare name value => exact ⟨name, value, rfl⟩
          | _ => cases hs
  | _ => trivial

theorem Node.Formed.wellFormed {n : Node} (h : n.Formed) : n.WellFormed := by
  cases n with
  | expr e => exact Expr.Formed.wellFormed h
  | access a => exact Access.Formed.wellFormed h
  | function d => exact h.count
  | stmt s => exact Stmt.Formed.wellFormed h
  | stmts ss => trivial
  | cls d => trivial

/-! ## Parsed programs -/

/-- **Parsed trees are well formed.** Whatever list of tokens the parser accepts, whether a source
    text has it or not, every node of the program is well formed. -/
theorem parsed_nodes_wellFormed {tokens : List Token} {program : Program}
    (h : parse tokens = .ok program) : ∀ n ∈ program.nodes, n.WellFormed := by
  obtain ⟨hformed, hsettled, -⟩ := (Iff.mp parse_eq_ok_iff h).formed
  have hnodes : AllFormed program.nodes := List.forall_mem_cons.mpr ⟨hsettled, hformed⟩
  intro n hn
  exact (hnodes n hn).wellFormed

/-- Assignments through chains of accesses, slices, operators of all sorts, both kinds of `for`, and
    functions inside of all this. -/
theorem parsed_nodes_wellFormed_nested :
    ∃ program, parse (tokenize (
          "for k, v in f(a[1:2:3], b.c[::4][-x]) \x7b o.p[k][v:] = fn(x) not x and y + 1 \x7d\n"
            ++ "for let i = 0; i < n; i = i + 1 \x7b xs[i][0] = ys[i] ^ 2 \x7d\n")).1 = .ok program
      ∧ ∀ n ∈ program.nodes, n.WellFormed := by
  obtain ⟨program, hparse⟩ := exists_eq_ok (x := parse (tokenize (
    "for k, v in f(a[1:2:3], b.c[::4][-x]) \x7b o.p[k][v:] = fn(x) not x and y + 1 \x7d\n"
      ++ "for let i = 0; i < n; i = i + 1 \x7b xs[i][0] = ys[i] ^ 2 \x7d\n")).1) (by decide +kernel)
  exact ⟨program, hparse, parsed_nodes_wellFormed hparse⟩

end Script
