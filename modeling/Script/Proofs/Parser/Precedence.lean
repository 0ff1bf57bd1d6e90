import Script.Proofs.Parser.Programs
import Script.Proofs.Printer.Rereading

/-!
# `Proofs.Parser.Precedence` — operators, their levels and their sides

An `OperatorTree` is a tree of operators over names, constants and trees in parentheses, with every
token that it is written with. Operators have levels (`TokenKind.level?`), given here as a table and
not by the tiers of the grammar. A tree is graded if its shape is the one that the levels ask for:
on the left of a binary operator stands nothing looser than the operator, on its right only what is
tighter, and behind a prefix operator another one or an operand.

The tokens of a graded tree are read as that tree (`parse_graded`). In the induction a tree is read
together with the operands that follow it on its own tier (`OperatorTree.Read.chain`): what stands
on the left of an operator of the same level is read by the loop that reads the operator too.
-/

namespace Script

/-- The level of a binary operator. -/
def TokenKind.level? : TokenKind → Option Nat
  | .kwOr => some 0
  | .kwAnd => some 1
  | .equalEqual | .bangEqual => some 2
  | .greater | .greaterEqual | .less | .lessEqual => some 3
  | .plus | .minus => some 4
  | .slash | .percent | .star => some 5
  | .caret => some 6
  | _ => none

/-- A tree of operators, with the tokens that it is written with. -/
inductive OperatorTree where
  | name (t : Token) (ht : t.kind = .identifier)
  | constant (t : Token) (c : Constant) (ht : t.constant? = some c)
  | parens (opening : Token) (inner : OperatorTree) (closing : Token)
      (ho : opening.kind = .leftParen) (hc : closing.kind = .rightParen)
  | unary (op : Token) (operand : OperatorTree) (hop : op.kind = .kwNot ∨ op.kind = .minus)
  | binary (left : OperatorTree) (op : Token) (level : Nat) (right : OperatorTree)
      (hop : op.kind.level? = some level)

namespace OperatorTree

/-- The tokens of the tree in order. -/
def tokens : OperatorTree → List Token
  | name t _ => [t]
  | constant t _ _ => [t]
  | parens opening inner closing _ _ => opening :: (inner.tokens ++ [closing])
  | unary op operand _ => op :: operand.tokens
  | binary left op _ right _ => left.tokens ++ op :: right.tokens

/-- The expression that the tree stands for. -/
def expr : OperatorTree → Expr
  | name t _ => .var t
  | constant _ c _ => .literal c
  | parens _ inner _ _ _ => .grouping inner.expr
  | unary op operand _ => .unary op operand.expr
  | binary left op _ right _ =>
    if op.kind = .kwAnd ∨ op.kind = .kwOr then .logical left.expr op right.expr
    else .binary left.expr op right.expr

/-- The level of the outermost operator. Prefix operators are tighter than the binary ones, and what
    has no operator is tightest. -/
def level : OperatorTree → Nat
  | name _ _ | constant _ _ _ | parens _ _ _ _ _ => 8
  | unary _ _ _ => 7
  | binary _ _ level _ _ => level

/-- Every operator has operands of the levels that it asks for. -/
def Graded : OperatorTree → Prop
  | name _ _ | constant _ _ _ => True
  | parens _ inner _ _ _ => inner.Graded
  | unary _ operand _ => 7 ≤ operand.level ∧ operand.Graded
  | binary left _ level right _ =>
    level ≤ left.level ∧ level < right.level ∧ left.Graded ∧ right.Graded

end OperatorTree

/-! ## Levels and tiers -/

/-- The kinds of the tokens that stand for constants. -/
theorem Token.kind_of_constant? {t : Token} {c : Constant} (h : t.constant? = some c) :
    t.kind ∈ [TokenKind.number, .string, .kwFalse, .kwTrue, .kwNil] := by
  refine Decidable.byContradiction fun hkind => ?_
  rw [Grammar.constant?_eq_none hkind] at h
  cases h

/-- The levels count upwards as the tiers count downwards. -/
theorem TokenKind.mem_tierOperators {kind : TokenKind} {n : Nat} (h : kind.level? = some n) :
    n ≤ 6 ∧ kind ∈ tierOperators (6 - n) := by
  cases kind <;> cases h <;> decide

/-- The node of an operator is a logical one on the two loosest tiers. -/
theorem tierNode_of_level {op : Token} {n : Nat} (h : op.kind.level? = some n) (left right : Expr) :
    tierNode (6 - n) left op right
      = if op.kind = .kwAnd ∨ op.kind = .kwOr then .logical left op right
        else .binary left op right := by
  generalize op.kind = kind at h ⊢
  cases kind <;> cases h <;> rfl

/-- The rest begins with nothing that belongs to an operand of the tier. -/
structure StopsTier (k : Nat) (rest : List Token) : Prop where
  suffix : (nextKind rest).opensSuffix = false
  operators : ∀ i < k, nextKind rest ∉ tierOperators i

namespace StopsTier

variable {k : Nat} {rest : List Token}

theorem mono {j : Nat} (h : StopsTier k rest) (hjk : j ≤ k) : StopsTier j rest :=
  ⟨h.suffix, fun i hi => h.operators i (Nat.lt_of_lt_of_le hi hjk)⟩

/-- An operator ends the operands on its left. -/
theorem of_operator {op : Token} (hop : op.kind ∈ tierOperators k) (rest : List Token) :
    StopsTier k (op :: rest) := by
  have hnext := (eats_of_kind (t := op) rfl (ne_newline_of_mem_tierOperators hop) rest).nextKind
  refine ⟨?_, fun i hi => ?_⟩
  · rw [hnext]
    exact opensSuffix_of_mem_tierOperators hop
  · rw [hnext]
    exact not_mem_lower_tier hop hi

theorem of_not_absorbed (h : (nextKind rest).absorbed = false) (k : Nat) : StopsTier k rest :=
  ⟨(ends_of_not_absorbed h).1, fun i _ => (ends_of_not_absorbed h).2.2 i⟩

end StopsTier

/-! ## Reading a tree -/

namespace OperatorTree

/-- The tokens of the tree are read as the tree on every tier that takes its level, and on the tier
    of the level itself together with the operands that follow. -/
structure Read (tree : OperatorTree) : Prop where
  tier {l : Bool} {k : Nat} {rest : List Token} : 7 ≤ tree.level + k → StopsTier k rest →
    Reads l (tree.tokens ++ rest) (.tier k tree.expr) rest
  chain {l : Bool} {k : Nat} {rest rest' : List Token} {e : Expr} : 6 ≤ tree.level + k →
    StopsTier k rest → Reads l rest (.operands k tree.expr e) rest' →
    Reads l (tree.tokens ++ rest) (.tier (k + 1) e) rest'

/-- A tree that is read on the lowest tier is read on all of them. -/
theorem Read.of_term {tree : OperatorTree}
    (h : ∀ {l : Bool} {rest : List Token}, (nextKind rest).opensSuffix = false →
      Reads l (tree.tokens ++ rest) (.tier 0 tree.expr) rest) : tree.Read := by
  have htier : ∀ {l : Bool} {k : Nat} {rest : List Token}, StopsTier k rest →
      Reads l (tree.tokens ++ rest) (.tier k tree.expr) rest := fun {l k rest} hrest =>
    (h hrest.suffix).raise (Nat.zero_le k) fun i _ hi => hrest.operators i hi
  exact ⟨fun _ => htier, fun _ hrest hmore => .tierChain (htier hrest) hmore⟩

/-- Operands without prefix operators. -/
theorem Read.of_primary {tree : OperatorTree}
    (h : ∀ {l : Bool} {rest : List Token}, Reads l (tree.tokens ++ rest) (.primary tree.expr) rest) :
    tree.Read := by
  refine of_term fun {l rest} hsuffix => ?_
  have hprimary : Reads l (tree.tokens ++ rest) (.primary tree.expr) rest := h
  obtain ⟨hnot, hminus⟩ := hprimary.primary_first
  exact .tierCall hnot hminus hprimary (.suffixesEnd hsuffix)

theorem Read.name {t : Token} (ht : t.kind = .identifier) : (OperatorTree.name t ht).Read :=
  of_primary (.primaryVar (eats_of_kind ht (by decide) _))

theorem Read.constant {t : Token} {c : Constant} (ht : t.constant? = some c) :
    (OperatorTree.constant t c ht).Read := by
  have hkind : t.kind ≠ .newline := ne_of_mem_of_not_mem (Token.kind_of_constant? ht) (by decide)
  exact of_primary (.primaryConstant (eats_of_kind rfl hkind _) ht)

theorem Read.parens {opening closing : Token} {inner : OperatorTree} (hinner : inner.Read)
    (ho : opening.kind = .leftParen) (hc : closing.kind = .rightParen) :
    (OperatorTree.parens opening inner closing ho hc).Read := by
  refine of_primary fun {l rest} => ?_
  have hclosing := eats_of_kind hc (by decide) rest
  have hends := hclosing.not_absorbed rfl
  have hexpr : Reads l (inner.tokens ++ closing :: rest) (.expression inner.expr) (closing :: rest) :=
    .exprTier (hinner.tier (Nat.le_add_left 7 _) (.of_not_absorbed hends 7))
      (ends_of_not_absorbed hends).2.1
  have htokens : (OperatorTree.parens opening inner closing ho hc).tokens ++ rest
      = opening :: (inner.tokens ++ closing :: rest) := by simp [tokens]
  rw [htokens]
  exact .primaryGrouping (eats_of_kind ho (by decide) _) hexpr hclosing

theorem Read.unary {op : Token} {operand : OperatorTree} (hoperand : operand.Read)
    (hop : op.kind = .kwNot ∨ op.kind = .minus) (hlevel : 7 ≤ operand.level) :
    (OperatorTree.unary op operand hop).Read := by
  have hkind : op.kind ≠ .newline := by
    intro hkind
    rw [hkind] at hop
    simp at hop
  refine of_term fun {l rest} hsuffix => ?_
  have hstops : StopsTier 0 rest := ⟨hsuffix, fun i hi => absurd hi (Nat.not_lt_zero i)⟩
  exact .tierUnary (eats_of_kind rfl hkind _) hop (hoperand.tier hlevel hstops)

/-- On the tier of its operator a tree is read with what follows: the left operand is read with the
    operator, which comes next on the same tier, and then the right operand. -/
theorem Read.binary_chain {left right : OperatorTree} {op : Token} {n : Nat} (hleft : left.Read)
    (hright : right.Read) (hop : op.kind.level? = some n) (hleftLevel : n ≤ left.level)
    (hrightLevel : n < right.level) {l : Bool} {rest rest' : List Token} {e : Expr}
    (hrest : StopsTier (6 - n) rest)
    (hmore : Reads l rest (.operands (6 - n) (OperatorTree.binary left op n right hop).expr e) rest') :
    Reads l ((OperatorTree.binary left op n right hop).tokens ++ rest) (.tier (6 - n + 1) e) rest' := by
  obtain ⟨hn, hmem⟩ := TokenKind.mem_tierOperators hop
  have heats := eats_of_kind (t := op) rfl (ne_newline_of_mem_tierOperators hmem)
    (right.tokens ++ rest)
  have hoperand : Reads l (right.tokens ++ rest) (.tier (6 - n) right.expr) rest :=
    hright.tier (by omega) hrest
  rw [expr, ← tierNode_of_level hop] at hmore
  have htokens : (OperatorTree.binary left op n right hop).tokens ++ rest
      = left.tokens ++ op :: (right.tokens ++ rest) := by simp [tokens]
  rw [htokens]
  exact hleft.chain (by omega) (.of_operator hmem _) (.operandsMore heats hmem hoperand hmore)

theorem Read.binary {left right : OperatorTree} {op : Token} {n : Nat} (hleft : left.Read)
    (hright : right.Read) (hop : op.kind.level? = some n) (hleftLevel : n ≤ left.level)
    (hrightLevel : n < right.level) : (OperatorTree.binary left op n right hop).Read := by
  have hn := (TokenKind.mem_tierOperators hop).1
  -- On the tiers above its own the tree is an operand.
  have htier : ∀ {l : Bool} {k : Nat} {rest : List Token}, 7 ≤ n + k → StopsTier k rest →
      Reads l ((OperatorTree.binary left op n right hop).tokens ++ rest)
        (.tier k (OperatorTree.binary left op n right hop).expr) rest := by
    intro l k rest hk hrest
    have hend : Reads l rest (.operands (6 - n) (OperatorTree.binary left op n right hop).expr _) rest :=
      .operandsEnd (hrest.operators (6 - n) (by omega))
    have hnode := hleft.binary_chain hright hop hleftLevel hrightLevel (hrest.mono (by omega)) hend
    exact hnode.raise (by omega) fun i _ hi => hrest.operators i hi
  refine ⟨htier, fun {l k rest rest' e} hk hrest hmore => ?_⟩
  obtain hk | hk := Nat.eq_or_lt_of_le hk
  · obtain rfl : 6 - n = k := by
      change 6 = n + k at hk
      omega
    exact hleft.binary_chain hright hop hleftLevel hrightLevel hrest hmore
  · exact .tierChain (htier hk hrest) hmore

theorem Graded.read {tree : OperatorTree} (h : tree.Graded) : tree.Read := by
  induction tree with
  | name t ht => exact .name ht
  | constant t c ht => exact .constant ht
  | parens opening inner closing ho hc ih => exact (ih h).parens ho hc
  | unary op operand hop ih => exact (ih h.2).unary hop h.1
  | binary left op n right hop ihleft ihright =>
      obtain ⟨hleft, hright, hgleft, hgright⟩ := h
      exact (ihleft hgleft).binary (ihright hgright) hop hleft hright

/-! ## The statement -/

/-- No token of a tree ends the program. -/
theorem kind_ne_eof (tree : OperatorTree) : ∀ t ∈ tree.tokens, t.kind ≠ .eof := by
  induction tree with
  | name t ht => simp [tokens, ht]
  | constant t c ht =>
      rw [tokens, List.forall_mem_singleton]
      exact ne_of_mem_of_not_mem (Token.kind_of_constant? ht) (by decide)
  | parens opening inner closing ho hc ih =>
      rw [tokens, List.forall_mem_cons, List.forall_mem_append, List.forall_mem_singleton]
      exact ⟨by simp [ho], ih, by simp [hc]⟩
  | unary op operand hop ih =>
      rw [tokens, List.forall_mem_cons]
      exact ⟨by rcases hop with hop | hop <;> simp [hop], ih⟩
  | binary left op n right hop ihleft ihright =>
      rw [tokens, List.forall_mem_append, List.forall_mem_cons]
      refine ⟨ihleft, ?_, ihright⟩
      intro hkind
      rw [hkind] at hop
      cases hop

/-- A tree begins as an expression does and no other statement. -/
theorem exists_first (tree : OperatorTree) : ∃ t ts, tree.tokens = t :: ts
    ∧ t.kind.opensStatement = false ∧ t.kind ≠ .newline := by
  induction tree with
  | name t ht => exact ⟨t, [], rfl, by simp [ht, TokenKind.opensStatement], by simp [ht]⟩
  | constant t c ht =>
      have hall : ∀ kind ∈ [TokenKind.number, .string, .kwFalse, .kwTrue, .kwNil],
          kind.opensStatement = false ∧ kind ≠ .newline := by decide
      exact ⟨t, [], rfl, hall _ (Token.kind_of_constant? ht)⟩
  | parens opening inner closing ho hc _ =>
      exact ⟨opening, _, rfl, by simp [ho, TokenKind.opensStatement], by simp [ho]⟩
  | unary op operand hop _ =>
      refine ⟨op, _, rfl, ?_⟩
      rcases hop with hop | hop <;> simp [hop, TokenKind.opensStatement]
  | binary left op n right hop ihleft _ =>
      obtain ⟨t, ts, htokens, hfirst⟩ := ihleft
      exact ⟨t, ts ++ op :: right.tokens, by rw [tokens, htokens, List.cons_append], hfirst⟩

end OperatorTree

/-- **Operators have a precedence and a side.** The tokens of a graded tree, with the end of a line
    and the end of the program behind them, are one statement, which is the expression of the
    tree. -/
theorem parse_graded {tree : OperatorTree} (h : tree.Graded) {feed marker : Token}
    (hfeed : feed.kind = .newline) (hmarker : marker.kind = .eof) :
    parse (tree.tokens ++ [feed, marker]) = .ok [.expr tree.expr] := by
  have hbefore : beforeEnd (tree.tokens ++ [feed, marker]) = tree.tokens ++ [feed] := by
    have heof : ∀ t ∈ tree.tokens, (t.kind != .eof) = true := by simpa using tree.kind_ne_eof
    rw [beforeEnd, List.takeWhile_append_of_pos heof]
    simp [hfeed, hmarker]
  obtain ⟨t, ts, htokens, hopens, hnewline⟩ := tree.exists_first
  have heats := eats_of_kind (t := t) rfl hnewline (ts ++ [feed])
  have hfeeds : afterFeeds (tree.tokens ++ [feed]) = tree.tokens ++ [feed] := by
    rw [htokens]
    exact heats.1
  have hstops : (nextKind [feed]).absorbed = false := by simp [nextKind, afterFeeds, hfeed]; rfl
  -- No operator goes on behind the line feed, so the tree is read as a whole on the last tier.
  have hexpr : Reads false (tree.tokens ++ [feed]) (.expression tree.expr) [feed] :=
    .exprTier (h.read.tier (Nat.le_add_left 7 _) (.of_not_absorbed hstops 7))
      (ends_of_not_absorbed hstops).2.1
  have hstatement : Reads false (tree.tokens ++ [feed]) (.statement (.expr tree.expr)) [feed] := by
    refine .exprStmt ?_ hexpr
    rw [htokens, List.cons_append, heats.nextKind]
    exact hopens
  rw [parse_eq_ok_iff, hbefore]
  have hend : Reads false [] (.program []) [] := .programEnd rfl
  refine .programMore ?_ ?_ hfeed hend
  · rw [hfeeds, htokens]
    exact List.cons_ne_nil t _
  · rw [hfeeds]
    exact hstatement

/-- The tree of `not a == -b ^ c - true or (e)`. -/
def OperatorTree.sample : OperatorTree :=
  let a := name (.plain .identifier "a" 1) rfl
  let b := name (.plain .identifier "b" 1) rfl
  let c := name (.plain .identifier "c" 1) rfl
  let d := constant (.plain .kwTrue "true" 1) (.bool true) rfl
  let e := parens (.plain .leftParen "(" 1) (name (.plain .identifier "e" 1) rfl)
    (.plain .rightParen ")" 1) rfl rfl
  let power := binary (unary (.plain .minus "-" 1) b (.inr rfl)) (.plain .caret "^" 1) 6 c rfl
  let difference := binary power (.plain .minus "-" 1) 4 d rfl
  let equality := binary (unary (.plain .kwNot "not" 1) a (.inl rfl))
    (.plain .equalEqual "==" 1) 2 difference rfl
  binary equality (.plain .kwOr "or" 1) 0 e rfl

theorem parse_graded_sample :
    parse (OperatorTree.sample.tokens ++ [.plain .newline "\n" 1, .plain .eof "" 2])
      = .ok [.expr OperatorTree.sample.expr] := by
  have hgraded : OperatorTree.sample.Graded := by
    simp [OperatorTree.sample, OperatorTree.Graded, OperatorTree.level]
  exact parse_graded hgraded rfl rfl

end Script
