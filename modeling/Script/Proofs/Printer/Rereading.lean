import Script.Proofs.Parser.Formed
import Script.Proofs.Printer.Openings

/-!
# `Proofs.Printer.Rereading` — the words of a printed tree are read as the tree

Tokens that spell the words of a printed tree are read as that tree, with the groupings that are
printed and with the lines of the tokens. The proof is by induction on the tree. An operand that is
no term is printed in parentheses, so every operand is read on the tier of the prefix operators and
precedence decides nothing. Calls, properties and indices stand behind what they belong to: a target
is read together with whatever suffixes follow it (`Rereads.target`).

What follows must not be taken in: the induction carries which kinds of tokens may come next.
-/

namespace Script

/-! ## Tokens that spell words -/

/-- Genuine tokens that are the words. -/
structure Spelled (ts : List Token) (ws : List Word) : Prop where
  words : ts.map Token.word = ws
  genuine : ∀ t ∈ ts, t.Genuine

namespace Spelled

theorem eq_nil {ts : List Token} (h : Spelled ts []) : ts = [] := List.map_eq_nil_iff.mp h.words

/-- The tokens that spell a word and others are one token and those that spell the others. -/
theorem cons {ts : List Token} {w : Word} {ws : List Word} (h : Spelled ts (w :: ws)) :
    ∃ t us, ts = t :: us ∧ t.Genuine ∧ t.word = w ∧ Spelled us ws := by
  obtain ⟨t, us, rfl, hw, hws⟩ := List.map_eq_cons_iff.mp h.words
  obtain ⟨ht, hus⟩ := List.forall_mem_cons.mp h.genuine
  exact ⟨t, us, rfl, ht, hw, hws, hus⟩

/-- Tokens that spell two texts one after the other can be cut between them. -/
theorem append {ts : List Token} {ws vs : List Word} (h : Spelled ts (ws ++ vs)) :
    ∃ us us', ts = us ++ us' ∧ Spelled us ws ∧ Spelled us' vs := by
  obtain ⟨us, us', rfl, hws, hvs⟩ := List.map_eq_append_iff.mp h.words
  obtain ⟨hus, hus'⟩ := List.forall_mem_append.mp h.genuine
  exact ⟨us, us', rfl, ⟨hws, hus⟩, ⟨hvs, hus'⟩⟩

theorem last {ts : List Token} {w : Word} (h : Spelled ts [w]) :
    ∃ t, ts = [t] ∧ t.Genuine ∧ t.word = w := by
  obtain ⟨t, us, rfl, ht, hw, hus⟩ := h.cons
  obtain rfl := hus.eq_nil
  exact ⟨t, rfl, ht, hw⟩

end Spelled

/-- A genuine token that stands for no value is, up to its line, the word that it is. -/
theorem Token.Genuine.unlined_eq {t t' : Token} (h : t.Genuine) (hword : t.word = t'.word)
    (hnumber : t'.kind ≠ .number) (hstring : t'.kind ≠ .string) : t.unlined = t'.unlined := by
  have hkind : t.kind = t'.kind := congrArg Word.kind hword
  have hliteral : t.literal = none := by
    cases h with
    | number => exact absurd hkind.symm hnumber
    | string => exact absurd hkind.symm hstring
    | _ => rfl
  have hmeaning := congrArg Word.meaning hword
  obtain ⟨kind, lexeme, literal, line⟩ := t
  obtain ⟨kind', lexeme', literal', line'⟩ := t'
  cases hkind
  cases hliteral
  cases literal' with
  | none =>
      cases hmeaning
      rfl
  | some v => cases hmeaning

theorem eats_of_kind {t : Token} {kind : TokenKind} (h : t.kind = kind) (hkind : kind ≠ .newline)
    (rest : List Token) : Eats kind (t :: rest) t rest :=
  (eats_cons (by rwa [h])).mpr ⟨rfl, rfl, h⟩

theorem eats_mark {t : Token} {kind : TokenKind} (h : t.word = .mark kind) (hkind : kind ≠ .newline)
    (rest : List Token) : Eats kind (t :: rest) t rest :=
  eats_of_kind (congrArg Word.kind h) hkind rest

/-- A token that is not absorbed by an expression ends it, also behind line feeds. -/
theorem Eats.not_absorbed {ts rest : List Token} {t : Token} {kind : TokenKind}
    (h : Eats kind ts t rest) (hkind : kind.absorbed = false) :
    (Script.nextKind ts).absorbed = false := by
  rw [h.nextKind]
  exact hkind

/-- A name in front of other tokens, which is the name of the tree up to its line. -/
theorem eats_name {t t' : Token} (h : t.Genuine) (hword : t.word = t'.word)
    (hname : t'.isName = true) (rest : List Token) :
    Eats .identifier (t :: rest) t rest ∧ t.unlined = t'.unlined := by
  have hkind : t'.kind = .identifier := beq_iff_eq.mp hname
  refine ⟨eats_of_kind ((congrArg Word.kind hword).trans hkind) (by decide) rest, ?_⟩
  exact h.unlined_eq hword (by simp [hkind]) (by simp [hkind])

/-- A token of the tree with one spelling, in front of other tokens. -/
theorem eats_token {t t' : Token} {kind : TokenKind} (h : t.Genuine) (hword : t.word = t'.word)
    (hkind : t'.kind = kind) (hmark : kind.isMark = true) (rest : List Token) :
    Eats kind (t :: rest) t rest ∧ t.unlined = t'.unlined := by
  subst hkind
  have hnewline : t'.kind ≠ .newline := by
    intro hnewline
    rw [hnewline] at hmark
    cases hmark
  refine ⟨eats_of_kind (congrArg Word.kind hword) hnewline rest, h.unlined_eq hword ?_ ?_⟩
  · intro hnumber
    rw [hnumber] at hmark
    cases hmark
  · intro hstring
    rw [hstring] at hmark
    cases hmark

/-- Tokens that spell words with a known beginning. -/
theorem Spelled.opens {kinds : TokenKind → Bool} {us : List Token} {ws : List Word}
    {first : TokenKind} (h : Spelled us ws) (hopens : Opens kinds ws first)
    (hkinds : kinds .newline = false) (rest : List Token) :
    kinds (nextKind (us ++ rest)) = true ∧ kinds (headKind (us ++ rest)) = true
      ∧ (nextKind (us ++ rest)).lead = first.lead ∧ afterFeeds (us ++ rest) = us ++ rest
      ∧ us ≠ [] := by
  obtain ⟨w, ws, rfl, hw, hlead⟩ := hopens
  obtain ⟨t, us, rfl, -, rfl, -⟩ := h.cons
  have hnewline : t.kind ≠ .newline := by
    intro hnewline
    rw [Token.word_kind, hnewline, hkinds] at hw
    cases hw
  have heats := eats_of_kind rfl hnewline (us ++ rest)
  rw [List.cons_append, heats.nextKind]
  exact ⟨hw, hw, hlead, heats.1, nofun⟩

/-! ## Tiers -/

/-- What is not absorbed is neither a suffix, nor an equal sign, nor an operator of any tier. These
    are the three ways in which an expression could go on. -/
theorem ends_of_not_absorbed {kind : TokenKind} (h : kind.absorbed = false) :
    kind.opensSuffix = false ∧ kind ≠ .equal ∧ ∀ k, kind ∉ tierOperators k := by
  refine ⟨?_, ?_, fun k hk => ?_⟩
  · cases hsuffix : kind.opensSuffix with
    | false => rfl
    | true =>
        rw [absorbed_of_opensSuffix hsuffix] at h
        cases h
  · rintro rfl
    cases h
  · rw [absorbed_of_mem_tierOperators hk] at h
    cases h

/-- What is read on a tier is read on the tiers above if none of their operators follows. -/
theorem Reads.raise {l : Bool} {ts rest : List Token} {e : Expr} {j k : Nat} (hjk : j ≤ k)
    (h : Reads l ts (.tier j e) rest)
    (hrest : ∀ i, j ≤ i → i < k → nextKind rest ∉ tierOperators i) :
    Reads l ts (.tier k e) rest := by
  induction hjk with
  | refl => exact h
  | @step k hjk ih =>
      exact .tierChain (ih fun i hji hik => hrest i hji (Nat.lt_succ_of_lt hik))
        (.operandsEnd (hrest k hjk (Nat.lt_succ_self k)))

theorem tier_lt {k : Nat} {kind : TokenKind} (h : kind ∈ tierOperators k) : k < 7 := by
  refine Nat.lt_of_not_le fun hk => ?_
  obtain ⟨n, rfl⟩ := Nat.exists_eq_add_of_le' hk
  exact absurd h List.not_mem_nil

theorem opensSuffix_of_mem_tierOperators {k : Nat} {kind : TokenKind} (h : kind ∈ tierOperators k) :
    kind.opensSuffix = false := by
  have hall : ∀ k < 7, ∀ kind ∈ tierOperators k, kind.opensSuffix = false := by decide
  exact hall k (tier_lt h) kind h

theorem ne_newline_of_mem_tierOperators {k : Nat} {kind : TokenKind} (h : kind ∈ tierOperators k) :
    kind ≠ .newline := by
  have hall : ∀ k < 7, ∀ kind ∈ tierOperators k, kind ≠ .newline := by decide
  exact hall k (tier_lt h) kind h

/-- An operator belongs to one tier only, so a lower tier ends before it. -/
theorem not_mem_lower_tier {i k : Nat} {kind : TokenKind} (h : kind ∈ tierOperators k)
    (hik : i < k) : kind ∉ tierOperators i := by
  have hall : ∀ k < 7, ∀ kind ∈ tierOperators k, ∀ i < k, kind ∉ tierOperators i := by decide
  exact hall k (tier_lt h) kind h i hik

/-- An operation between operands of the lowest tier. -/
theorem Reads.operation {l : Bool} {ts mid rest : List Token} {k : Nat} {op : Token}
    {left right : Expr} (hop : op.kind ∈ tierOperators k)
    (hleft : Reads l ts (.tier 0 left) (op :: mid)) (hright : Reads l mid (.tier 0 right) rest)
    (hrest : (nextKind rest).absorbed = false) :
    Reads l ts (.tier 7 (tierNode k left op right)) rest := by
  have hends := (ends_of_not_absorbed hrest).2.2
  have heats := eats_of_kind (t := op) rfl (ne_newline_of_mem_tierOperators hop) mid
  have hleft' : Reads l ts (.tier k left) (op :: mid) :=
    hleft.raise (Nat.zero_le k) fun i _ hik => by
      rw [heats.nextKind]
      exact not_mem_lower_tier hop hik
  have hright' : Reads l mid (.tier k right) rest := hright.raise (Nat.zero_le k) fun i _ _ => hends i
  have hnode : Reads l ts (.tier (k + 1) (tierNode k left op right)) rest :=
    .tierChain hleft' (.operandsMore heats hop hright' (.operandsEnd (hends k)))
  exact hnode.raise (tier_lt hop) fun i _ _ => hends i

/-! ## Expressions -/

/-- The expression without the lines of its tokens. -/
abbrev Expr.unlined (e : Expr) : Expr := e.map Token.unlined id

/-- Tokens that spell the printed expression are read as the expression, as a term if it is one, and
    if it is a target also together with the suffixes that follow. -/
structure Rereads (e : Expr) : Prop where
  opens : Opens TokenKind.opensExpression (e.grouped.words .printed) e.grouped.firstKind
  expression {l : Bool} {us rest : List Token} : Spelled us (e.grouped.words .printed) →
    (nextKind rest).absorbed = false →
    ∃ e', e'.unlined = e.grouped.unlined ∧ Reads l (us ++ rest) (.expression e') rest
  term {l : Bool} {us rest : List Token} : e.isTerm = true → Spelled us (e.grouped.words .printed) →
    (nextKind rest).opensSuffix = false → (e.isOpen = true → (nextKind rest).absorbed = false) →
    ∃ e', e'.unlined = e.grouped.unlined ∧ Reads l (us ++ rest) (.tier 0 e') rest
  target {l : Bool} {us rest : List Token} : e.isTarget = true →
    Spelled us (e.grouped.words .printed) → (e.isOpen = true → (nextKind rest).absorbed = false) →
    ∃ e', e'.unlined = e.grouped.unlined ∧ ∀ {e'' rest'}, Reads l rest (.suffixes e' e'') rest' →
      Reads l (us ++ rest) (.tier 0 e'') rest'

namespace Rereads

variable {e : Expr}
  (hopens : Opens TokenKind.opensExpression (e.grouped.words .printed) e.grouped.firstKind)
include hopens

/-- It is enough to read an expression that is no term on its own: what else is asked concerns
    terms. -/
theorem of_expression (hterm : e.isTerm = false)
    (h : ∀ {l : Bool} {us rest : List Token}, Spelled us (e.grouped.words .printed) →
      (nextKind rest).absorbed = false →
      ∃ e', e'.unlined = e.grouped.unlined ∧ Reads l (us ++ rest) (.expression e') rest) :
    Rereads e where
  opens := hopens
  expression := h
  term hterm' := by
    rw [hterm] at hterm'
    cases hterm'
  target htarget := by
    rw [Expr.isTerm_of_isTarget htarget] at hterm
    cases hterm

/-- It is enough to read a term that is no target as a prefixed expression. -/
theorem of_term (htarget : e.isTarget = false)
    (h : ∀ {l : Bool} {us rest : List Token}, Spelled us (e.grouped.words .printed) →
      (nextKind rest).opensSuffix = false → (e.isOpen = true → (nextKind rest).absorbed = false) →
      ∃ e', e'.unlined = e.grouped.unlined ∧ Reads l (us ++ rest) (.tier 0 e') rest) :
    Rereads e where
  opens := hopens
  expression hus hrest := by
    obtain ⟨hsuffix, hequal, htiers⟩ := ends_of_not_absorbed hrest
    obtain ⟨e', he, hreads⟩ := h hus hsuffix fun _ => hrest
    exact ⟨e', he, .exprTier (hreads.raise (Nat.zero_le 7) fun i _ _ => htiers i) hequal⟩
  term _ := h
  target htarget' := by
    rw [htarget] at htarget'
    cases htarget'

/-- For a target it is enough to read it together with any suffixes that follow. -/
theorem of_target
    (h : ∀ {l : Bool} {us rest : List Token}, Spelled us (e.grouped.words .printed) →
      (e.isOpen = true → (nextKind rest).absorbed = false) →
      ∃ e', e'.unlined = e.grouped.unlined ∧ ∀ {e'' rest'}, Reads l rest (.suffixes e' e'') rest' →
        Reads l (us ++ rest) (.tier 0 e'') rest') :
    Rereads e := by
  have hterm : ∀ {l : Bool} {us rest : List Token}, Spelled us (e.grouped.words .printed) →
      (nextKind rest).opensSuffix = false → (e.isOpen = true → (nextKind rest).absorbed = false) →
      ∃ e', e'.unlined = e.grouped.unlined ∧ Reads l (us ++ rest) (.tier 0 e') rest := by
    intro l us rest hus hsuffix hopen
    obtain ⟨e', he, hreads⟩ := h (l := l) hus hopen
    exact ⟨e', he, hreads (.suffixesEnd hsuffix)⟩
  refine ⟨hopens, fun hus hrest => ?_, fun _ => hterm, fun _ => h⟩
  obtain ⟨hsuffix, hequal, htiers⟩ := ends_of_not_absorbed hrest
  obtain ⟨e', he, hreads⟩ := hterm hus hsuffix fun _ => hrest
  exact ⟨e', he, .exprTier (hreads.raise (Nat.zero_le 7) fun i _ _ => htiers i) hequal⟩

end Rereads

/-- An operand that begins a term begins with no prefix operator. -/
theorem Reads.primary_first {l : Bool} {ts rest : List Token} {e : Expr}
    (h : Reads l ts (.primary e) rest) : nextKind ts ≠ .kwNot ∧ nextKind ts ≠ .minus := by
  cases h with
  | primaryConstant ht hc =>
      rw [ht.nextKind]
      unfold Token.constant? at hc
      constructor <;> intro hkind <;> rw [hkind] at hc <;> cases hc
  | primaryVar ht => simp [ht.nextKind]
  | primaryThis ht => simp [ht.nextKind]
  | primaryGrouping ht => simp [ht.nextKind]
  | primaryList ht => simp [ht.nextKind]
  | primaryDict ht => simp [ht.nextKind]
  | primaryFunction ht => simp [ht.nextKind]
  | primarySuper ht => simp [ht.nextKind]
  | primarySuperInit ht => simp [ht.nextKind]

/-- For an operand that stands in front of its suffixes it is enough that it is read as a primary
    expression. -/
theorem Rereads.of_primary {e : Expr}
    (hopens : Opens TokenKind.opensExpression (e.grouped.words .printed) e.grouped.firstKind)
    (h : ∀ {l : Bool} {us rest : List Token}, Spelled us (e.grouped.words .printed) →
      (e.isOpen = true → (nextKind rest).absorbed = false) →
      ∃ e', e'.unlined = e.grouped.unlined ∧ Reads l (us ++ rest) (.primary e') rest) :
    Rereads e := by
  refine of_target hopens fun {l us rest} hus hopen => ?_
  obtain ⟨e', he, hreads⟩ := h (l := l) hus hopen
  obtain ⟨hnot, hminus⟩ := hreads.primary_first
  exact ⟨e', he, fun hsuffixes => .tierCall hnot hminus hreads hsuffixes⟩

/-- An operand is read on the lowest tier, with its parentheses if it is printed with them. -/
theorem Rereads.operand {e : Expr} (h : Rereads e) (hassign : e.isAssignment = false) {l : Bool}
    {us rest : List Token} (hus : Spelled us (e.grouped.wrapped.words .printed))
    (hsuffix : (nextKind rest).opensSuffix = false)
    (hopen : e.isOpen = true → (nextKind rest).absorbed = false) :
    ∃ e', e'.unlined = e.grouped.wrapped.unlined ∧ Reads l (us ++ rest) (.tier 0 e') rest := by
  have hparens : e.grouped.needsParens = e.needsParens :=
    Expr.needsParens_map Expr.needsParens_groupOperands e
  -- Between parentheses stands any expression; what is printed without them is on the lowest tier.
  unfold Expr.wrapped at hus ⊢
  rw [hparens] at hus ⊢
  split at hus
  · rename_i hneeds
    obtain ⟨t, _, rfl, -, ht, hbehind⟩ := hus.cons
    obtain ⟨us, _, rfl, hinner, hlast⟩ := hbehind.append
    obtain ⟨t', rfl, -, ht'⟩ := hlast.last
    have hclosing := eats_mark ht' (by decide) rest
    obtain ⟨e', he, hreads⟩ := h.expression (l := l) hinner (hclosing.not_absorbed rfl)
    have hprimary := Reads.primaryGrouping (eats_mark ht (by decide) _) hreads hclosing
    obtain ⟨hnot, hminus⟩ := hprimary.primary_first
    refine ⟨.grouping e', ?_, ?_⟩
    · rw [if_pos hneeds]
      exact congrArg Expr.grouping he
    · simpa using Reads.tierCall hnot hminus hprimary (.suffixesEnd hsuffix)
  · rename_i hneeds
    rw [if_neg hneeds]
    refine h.term ?_ hus hsuffix hopen
    cases e <;> first | rfl | exact absurd rfl hneeds | cases hassign

/-- Whether the kind closes a list of expressions. -/
def TokenKind.ClosesList (kind : TokenKind) : Prop := kind = .rightParen ∨ kind = .rightBracket

theorem TokenKind.ClosesList.ends {kind : TokenKind} (h : kind.ClosesList) :
    kind.absorbed = false ∧ kind ≠ .newline ∧ kind ≠ .comma ∧ kind.opensExpression = false := by
  obtain rfl | rfl := h <;> decide

/-- Words that begin as an expression does begin with no other kind. -/
theorem Spelled.nextKind_ne {us : List Token} {ws : List Word} {first : TokenKind}
    (h : Spelled us ws) (hopens : Opens TokenKind.opensExpression ws first) (kind : TokenKind)
    (hkind : kind.opensExpression = false) (rest : List Token) : nextKind (us ++ rest) ≠ kind := by
  intro hnext
  have hopens' := (h.opens hopens rfl rest).1
  rw [hnext, hkind] at hopens'
  cases hopens'

theorem Rereads.opens_list {e : Expr} (h : Rereads e) (es : List Expr) :
    Opens TokenKind.opensExpression (wordsList .printed (mapList id Expr.groupOperands (e :: es)))
      e.grouped.firstKind := by
  cases es with
  | nil => exact h.opens
  | cons e' es => exact h.opens.append _

/-- Printed arguments are read back, up to the closing token. No comma is printed behind the last
    one, which is why the token there has to end the list. -/
theorem reads_arguments {closing : TokenKind} (hclosing : closing.ClosesList) {l : Bool}
    {t : Token} (ht : t.kind = closing) {rest : List Token} :
    ∀ {es : List Expr}, (∀ e ∈ es, Rereads e) → es ≠ [] → ∀ {n : Nat} {us : List Token},
      (closing = .rightParen → n + es.length ≤ maxParameters) →
      Spelled us (wordsList .printed (mapList id Expr.groupOperands es)) →
      ∃ es', mapList Token.unlined id es'
          = mapList Token.unlined id (mapList id Expr.groupOperands es)
        ∧ Reads l (us ++ t :: rest) (.arguments closing n es') (t :: rest)
  | [], _, hne, _, _, _, _ => absurd rfl hne
  | [e], h, _, n, us, hn, hus => by
    obtain ⟨habsorbed, hnewline, hcomma, -⟩ := hclosing.ends
    have heats := eats_of_kind ht hnewline rest
    obtain ⟨e', he, hreads⟩ := (h e List.mem_cons_self).expression (l := l) hus
      (heats.not_absorbed habsorbed)
    refine ⟨[e'], by simp only [mapList, he], .argumentsLast (fun hc => hn hc) hreads ?_⟩
    rw [heats.nextKind]
    exact hcomma
  | e :: e' :: es, h, _, n, us, hn, hus => by
    simp only [mapList, wordsList, Style.printed_comma] at hus
    obtain ⟨us, _, rfl, hfront, hbehind⟩ := hus.append
    obtain ⟨comma, us', rfl, -, hcomma, hus'⟩ := hbehind.cons
    have htail : ∀ e ∈ e' :: es, Rereads e := fun e he => h e (List.mem_cons_of_mem _ he)
    have heats := eats_mark hcomma (by decide) (us' ++ t :: rest)
    obtain ⟨e₁, he, hreads⟩ := (h e List.mem_cons_self).expression (l := l) hfront
      (heats.not_absorbed rfl)
    have hn' : closing = .rightParen → n + 1 + (e' :: es).length ≤ maxParameters := by
      intro hc
      have := hn hc
      simp only [List.length_cons] at this ⊢
      omega
    obtain ⟨es', hes, hreads'⟩ := reads_arguments hclosing ht htail nofun hn' hus'
    -- An expression comes behind the comma, so it is not one that stands before the end.
    have hnext := hus'.nextKind_ne ((htail e' List.mem_cons_self).opens_list es) closing
      hclosing.ends.2.2.2 (t :: rest)
    refine ⟨e₁ :: es', by simp only [mapList, he]; exact congrArg _ hes, ?_⟩
    rw [List.append_assoc]
    refine .argumentsMore (fun hc => ?_) hreads heats hnext hreads'
    have := hn hc
    simp only [List.length_cons] at this
    omega

/-- Expressions between brackets or parentheses. -/
theorem reads_argumentList {closing : TokenKind} (hclosing : closing.ClosesList) {l : Bool}
    {t : Token} (ht : t.kind = closing) {us rest : List Token} {es : List Expr}
    (h : ∀ e ∈ es, Rereads e) (hn : closing = .rightParen → es.length ≤ maxParameters)
    (hus : Spelled us (wordsList .printed (mapList id Expr.groupOperands es))) :
    ∃ es', mapList Token.unlined id es'
        = mapList Token.unlined id (mapList id Expr.groupOperands es)
      ∧ Reads l (us ++ t :: rest) (.argumentList closing es') (t :: rest) := by
  have heats := eats_of_kind ht hclosing.ends.2.1 rest
  cases es with
  | nil =>
      obtain rfl := hus.eq_nil
      have hnone := Reads.argumentListNone (l := l) heats.nextKind
      rw [heats.1] at hnone
      exact ⟨[], rfl, hnone⟩
  | cons e es =>
      obtain ⟨es', hes, hreads⟩ := reads_arguments hclosing (l := l) (n := 0) ht h nofun
        (by simpa using hn) hus
      have hnext := hus.nextKind_ne ((h e List.mem_cons_self).opens_list es) closing
        hclosing.ends.2.2.2 (t :: rest)
      exact ⟨es', hes, .argumentList hnext hreads⟩

theorem Expr.TargetFormed.absurd_open {e : Expr} (h : e.TargetFormed) {p : Prop}
    (hopen : e.isOpen = true) : p := by
  rw [h.2] at hopen
  cases hopen

section Expressions

attribute [local simp] Expr.map Expr.groupOperands mapAccess? Access.map

/-- Between brackets the elements are read back as arguments are. -/
theorem Rereads.list {es : List Expr} {bracket : Token} (h : ∀ e ∈ es, Rereads e)
    (hbracket : bracket.kind = .rightBracket) : Rereads (.list es bracket) := by
  refine of_primary (opens_cons rfl _) fun {l us rest} hus _ => ?_
  obtain ⟨t, _, rfl, -, ht, hbehind⟩ := hus.cons
  obtain ⟨us, _, rfl, hes, hlast⟩ := hbehind.append
  obtain ⟨t', rfl, ht', hword⟩ := hlast.last
  obtain ⟨hclosing, hunlined⟩ := eats_token ht' hword hbracket rfl rest
  obtain ⟨es', hes', hreads⟩ := reads_argumentList (.inr rfl) (l := l) hclosing.2 h nofun hes
  refine ⟨.list es' t', by simp [hes', hunlined], ?_⟩
  simpa using Reads.primaryList (eats_mark ht (by decide) _) hreads hclosing

/-- Printed entries are read back, each with its colon, up to the closing brace. -/
theorem reads_entries {l : Bool} {t : Token} (ht : t.kind = .rightBrace) {rest : List Token} :
    ∀ {kvs : List (Expr × Expr)}, (∀ kv ∈ kvs, Rereads kv.1 ∧ Rereads kv.2) → ∀ {us : List Token},
      Spelled us (wordsEntries .printed (mapEntries id Expr.groupOperands kvs)) →
      ∃ kvs', mapEntries Token.unlined id kvs'
          = mapEntries Token.unlined id (mapEntries id Expr.groupOperands kvs)
        ∧ Reads l (us ++ t :: rest) (.entries kvs') (t :: rest)
  | [], _, us, hus => by
    obtain rfl := hus.eq_nil
    have heats := eats_of_kind ht (by decide) rest
    have hend := Reads.entriesEnd (l := l) heats.nextKind
    rw [heats.1] at hend
    exact ⟨[], rfl, hend⟩
  | [(key, value)], h, us, hus => by
    obtain ⟨hkey, hvalue⟩ := h (key, value) List.mem_cons_self
    obtain ⟨us, _, rfl, hfront, hbehind⟩ := hus.append
    obtain ⟨colon, us', rfl, -, hcolon, hus'⟩ := hbehind.cons
    have heats := eats_of_kind ht (by decide) rest
    have hcolon := eats_mark hcolon (by decide) (us' ++ t :: rest)
    obtain ⟨key', hkey', hreads⟩ := hkey.expression (l := l) hfront (hcolon.not_absorbed rfl)
    obtain ⟨value', hvalue', hreads'⟩ := hvalue.expression (l := l) hus' (heats.not_absorbed rfl)
    refine ⟨[(key', value')], by simp only [mapEntries, hkey', hvalue'], ?_⟩
    have hnext := hfront.nextKind_ne hkey.opens .rightBrace rfl
      (colon :: (us' ++ t :: rest))
    rw [List.append_assoc]
    exact .entriesLast hnext hreads hcolon hreads' (by simp [heats.nextKind])
  | (key, value) :: kv :: kvs, h, us, hus => by
    obtain ⟨hkey, hvalue⟩ := h (key, value) List.mem_cons_self
    simp only [mapEntries, wordsEntries, Style.printed_comma] at hus
    obtain ⟨us, _, rfl, hfront, hbehind⟩ := hus.append
    obtain ⟨colon, _, rfl, -, hcolon, hbehind⟩ := hbehind.cons
    obtain ⟨us', _, rfl, hus', hbehind⟩ := hbehind.append
    obtain ⟨comma, us'', rfl, -, hcomma, hus''⟩ := hbehind.cons
    have htail : ∀ kv' ∈ kv :: kvs, Rereads kv'.1 ∧ Rereads kv'.2 := fun kv' hkv =>
      h kv' (List.mem_cons_of_mem _ hkv)
    have hcomma := eats_mark hcomma (by decide) (us'' ++ t :: rest)
    have hcolon := eats_mark hcolon (by decide) (us' ++ comma :: (us'' ++ t :: rest))
    obtain ⟨key', hkey', hreads⟩ := hkey.expression (l := l) hfront (hcolon.not_absorbed rfl)
    obtain ⟨value', hvalue', hreads'⟩ := hvalue.expression (l := l) hus' (hcomma.not_absorbed rfl)
    obtain ⟨kvs', hkvs, hreads''⟩ := reads_entries (l := l) ht htail hus''
    refine ⟨(key', value') :: kvs', ?_, ?_⟩
    · simp only [mapEntries, hkey', hvalue']
      exact congrArg _ hkvs
    · have hnext := hfront.nextKind_ne hkey.opens .rightBrace rfl
        (colon :: (us' ++ comma :: (us'' ++ t :: rest)))
      simpa using Reads.entriesMore hnext hreads hcolon hreads' hcomma hreads''

theorem Rereads.dict {kvs : List (Expr × Expr)} {brace : Token}
    (h : ∀ kv ∈ kvs, Rereads kv.1 ∧ Rereads kv.2) (hbrace : brace.kind = .rightBrace) :
    Rereads (.dict kvs brace) := by
  refine of_primary (opens_cons rfl _) fun {l us rest} hus _ => ?_
  obtain ⟨t, _, rfl, -, ht, hbehind⟩ := hus.cons
  obtain ⟨us, _, rfl, hkvs, hlast⟩ := hbehind.append
  obtain ⟨t', rfl, ht', hword⟩ := hlast.last
  obtain ⟨hclosing, hunlined⟩ := eats_token ht' hword hbrace rfl rest
  obtain ⟨kvs', hkvs', hreads⟩ := reads_entries (l := l) hclosing.2 h hkvs
  refine ⟨.dict kvs' t', by simp [hkvs', hunlined], ?_⟩
  simpa using Reads.primaryDict (eats_mark ht (by decide) _) hreads hclosing

/-- A call stands behind its callee, which is a target, so it is one of its suffixes. -/
theorem Rereads.call {callee : Expr} {paren : Token} {es : List Expr} (hcallee : Rereads callee)
    (hes : ∀ e ∈ es, Rereads e) (htarget : callee.TargetFormed) (hparen : paren.kind = .rightParen)
    (hcount : es.length ≤ maxParameters) : Rereads (.call callee paren es) := by
  refine of_target (hcallee.opens.append _) fun {l us rest} hus _ => ?_
  obtain ⟨us, _, rfl, hfront, hbehind⟩ := hus.append
  obtain ⟨t, _, rfl, -, ht, hbehind⟩ := hbehind.cons
  obtain ⟨us', _, rfl, hus', hlast⟩ := hbehind.append
  obtain ⟨t', rfl, ht', hword⟩ := hlast.last
  obtain ⟨hclosing, hunlined⟩ := eats_token ht' hword hparen rfl rest
  obtain ⟨es', hes', hreads⟩ :=
    reads_argumentList (.inl rfl) (l := l) hclosing.2 hes (fun _ => hcount) hus'
  obtain ⟨callee', hcallee', hsuffixes⟩ := hcallee.target (l := l) htarget.1 hfront
    htarget.absurd_open
  refine ⟨.call callee' t' es', by simp [hcallee', hes', hunlined], fun hrest => ?_⟩
  simpa using hsuffixes (.suffixesCall (eats_mark ht (by decide) _) hreads hclosing hrest)

/-- A property stands behind its object, and is one of its suffixes. -/
theorem Rereads.get {object : Expr} {name : Token} (hobject : Rereads object)
    (htarget : object.TargetFormed) (hname : name.isName = true) : Rereads (.get object name) := by
  refine of_target (hobject.opens.append _) fun {l us rest} hus _ => ?_
  obtain ⟨us, _, rfl, hfront, hbehind⟩ := hus.append
  obtain ⟨dot, _, rfl, -, hdot, hlast⟩ := hbehind.cons
  obtain ⟨t, rfl, ht, hword⟩ := hlast.last
  obtain ⟨heats, hunlined⟩ := eats_name ht hword hname rest
  obtain ⟨object', hobject', hsuffixes⟩ := hobject.target (l := l) htarget.1 hfront
    htarget.absurd_open
  refine ⟨.get object' t, by simp [hobject', hunlined], fun hrest => ?_⟩
  simpa using hsuffixes (.suffixesGet (eats_mark hdot (by decide) _) heats hrest)

/-! ### Indices and slices -/

/-- A component that is missing leaves nothing between the colons, and reading decides by what
    follows. -/
theorem reads_component {e : Option Expr} (h : ∀ e' ∈ e, Rereads e') {l : Bool} {t : Token}
    (ht : t.kind = .colon ∨ t.kind = .rightBracket) {us rest : List Token}
    (hus : Spelled us (words? .printed (map? id Expr.groupOperands e))) :
    ∃ e', map? Token.unlined id e' = map? Token.unlined id (map? id Expr.groupOperands e)
      ∧ Reads l (us ++ t :: rest) (.component e') (t :: rest) := by
  have heats : Eats t.kind (t :: rest) t rest := by
    refine eats_of_kind rfl ?_ rest
    obtain ht | ht := ht <;> simp [ht]
  cases e with
  | none =>
      obtain rfl := hus.eq_nil
      have hnone : Reads l (t :: rest) (.component none) (afterFeeds (t :: rest)) :=
        .componentNone (by rwa [heats.nextKind])
      rw [heats.1] at hnone
      exact ⟨none, rfl, hnone⟩
  | some e =>
      have hrest : (nextKind (t :: rest)).absorbed = false := by
        rw [heats.nextKind]
        obtain ht | ht := ht <;> rw [ht] <;> rfl
      have he := h e rfl
      obtain ⟨e', he', hreads⟩ := he.expression (l := l) hus hrest
      refine ⟨some e', by simp only [map?, he'], ?_⟩
      exact .component (hus.nextKind_ne he.opens .colon rfl _)
        (hus.nextKind_ne he.opens .rightBracket rfl _) (by simp) hreads

/-- What stands between the brackets of an index or a slice. -/
theorem reads_access {a : Access} (ha : a.Formed) (hfirst : ∀ e ∈ a.first, Rereads e)
    (hsecond : ∀ e ∈ a.second, Rereads e) (hthird : ∀ e ∈ a.third, Rereads e) {l : Bool} {t : Token}
    (ht : t.kind = .rightBracket) {us rest : List Token}
    (hus : Spelled us (words? .printed (map? id Expr.groupOperands a.first)
      ++ (wordsBehind a.firstColon (words? .printed (map? id Expr.groupOperands a.second))
        ++ wordsBehind a.secondColon (words? .printed (map? id Expr.groupOperands a.third))))) :
    ∃ first firstColon second secondColon third,
      map? Token.unlined id first = map? Token.unlined id (map? id Expr.groupOperands a.first)
      ∧ firstColon.map Token.unlined = a.firstColon.map Token.unlined
      ∧ map? Token.unlined id second = map? Token.unlined id (map? id Expr.groupOperands a.second)
      ∧ secondColon.map Token.unlined = a.secondColon.map Token.unlined
      ∧ map? Token.unlined id third = map? Token.unlined id (map? id Expr.groupOperands a.third)
      ∧ ∀ object bracket, Reads l (us ++ t :: rest)
          (.access ⟨object, bracket, first, firstColon, second, secondColon, third⟩) (t :: rest) := by
  obtain ⟨object, bracket, first, firstColon, second, secondColon, third⟩ := a
  obtain ⟨-, -, hindex, hshort, hcolon, hcolon'⟩ := ha
  have heats := eats_of_kind ht (by decide) rest
  obtain ⟨us, _, rfl, husFirst, hbehind⟩ := hus.append
  cases firstColon with
  | none =>
      obtain ⟨hsome, rfl, rfl⟩ := hindex rfl
      obtain rfl := hshort rfl
      obtain ⟨e, rfl⟩ := Option.isSome_iff_exists.mp hsome
      obtain rfl := hbehind.eq_nil
      have he := hfirst e rfl
      obtain ⟨e', he', hreads⟩ := he.expression (l := l) husFirst (heats.not_absorbed rfl)
      refine ⟨some e', none, none, none, none, by simp only [map?, he'], rfl, rfl, rfl, rfl, ?_⟩
      intro object bracket
      rw [List.append_nil]
      exact .accessIndex (husFirst.nextKind_ne he.opens .colon rfl _) hreads
        (by simp [heats.nextKind])
  | some colon =>
      obtain ⟨t₁, _, rfl, ht₁, hword₁, hbehind⟩ := hbehind.cons
      obtain ⟨usSecond, usThird, rfl, husSecond, husThird⟩ := hbehind.append
      -- the part behind the first colon
      have hslice : ∃ second' secondColon' third',
          map? Token.unlined id second' = map? Token.unlined id (map? id Expr.groupOperands second)
          ∧ secondColon'.map Token.unlined = secondColon.map Token.unlined
          ∧ map? Token.unlined id third' = map? Token.unlined id (map? id Expr.groupOperands third)
          ∧ ∀ object bracket first', Reads l (usSecond ++ (usThird ++ t :: rest))
              (.slice ⟨object, bracket, first', some t₁, second', secondColon', third'⟩)
              (t :: rest) := by
        cases secondColon with
        | none =>
            obtain rfl := hshort rfl
            obtain rfl := husThird.eq_nil
            obtain ⟨second', hsecond', hreads⟩ := reads_component hsecond (l := l) (.inr ht) husSecond
            refine ⟨second', none, none, hsecond', rfl, rfl, fun object bracket first' => ?_⟩
            exact .sliceShort hreads (by simp [heats.nextKind])
        | some colon' =>
            obtain ⟨t₂, usThird, rfl, ht₂, hword₂, husThird⟩ := husThird.cons
            obtain ⟨heats₂, hunlined₂⟩ := eats_token ht₂ hword₂ (hcolon' colon' rfl) rfl
              (usThird ++ t :: rest)
            obtain ⟨second', hsecond', hreads⟩ :=
              reads_component hsecond (l := l) (.inl heats₂.2) husSecond
            obtain ⟨third', hthird', hreads'⟩ :=
              reads_component hthird (l := l) (.inr ht) husThird
            refine ⟨second', some t₂, third', hsecond', congrArg some hunlined₂, hthird', ?_⟩
            exact fun object bracket first' => .slice hreads heats₂ hreads'
      obtain ⟨second', secondColon', third', hsecond', hcolon₂, hthird', hreads⟩ := hslice
      obtain ⟨heats₁, hunlined₁⟩ := eats_token ht₁ hword₁ (hcolon colon rfl) rfl
        (usSecond ++ (usThird ++ t :: rest))
      cases first with
      | none =>
          obtain rfl := husFirst.eq_nil
          refine ⟨none, some t₁, second', secondColon', third', rfl, congrArg some hunlined₁,
            hsecond', hcolon₂, hthird', fun object bracket => ?_⟩
          simpa using Reads.accessSlice heats₁ rfl rfl (hreads object bracket none)
      | some e =>
          have he := hfirst e rfl
          obtain ⟨e', he', hreads'⟩ := he.expression (l := l) husFirst (heats₁.not_absorbed rfl)
          refine ⟨some e', some t₁, second', secondColon', third', by simp only [map?, he'],
            congrArg some hunlined₁, hsecond', hcolon₂, hthird', fun object bracket => ?_⟩
          simpa using Reads.accessFirstSlice (husFirst.nextKind_ne he.opens .colon rfl _) hreads'
            heats₁ rfl rfl (hreads object bracket (some e'))

/-- An index or a slice, together with the suffixes that follow. -/
theorem reads_target_access {a : Access} (ha : a.Formed) (hobject : Rereads a.object)
    (hfirst : ∀ e ∈ a.first, Rereads e) (hsecond : ∀ e ∈ a.second, Rereads e)
    (hthird : ∀ e ∈ a.third, Rereads e) {l : Bool} {us rest : List Token}
    (hus : Spelled us ((a.map id Expr.groupOperands).words .printed)) :
    ∃ a' : Access, a'.map Token.unlined id = (a.map id Expr.groupOperands).map Token.unlined id
      ∧ ∀ {e rest'}, Reads l rest (.suffixes (.access a') e) rest' →
        Reads l (us ++ rest) (.tier 0 e) rest' := by
  have hwords : (a.map id Expr.groupOperands).words .printed
      = a.object.grouped.words .printed ++ a.bracket.word ::
        ((words? .printed (map? id Expr.groupOperands a.first)
          ++ (wordsBehind a.firstColon (words? .printed (map? id Expr.groupOperands a.second))
            ++ wordsBehind a.secondColon (words? .printed (map? id Expr.groupOperands a.third))))
          ++ [.mark .rightBracket]) := by
    cases a
    simp [Access.words]
  rw [hwords] at hus
  obtain ⟨us, _, rfl, hfront, hbehind⟩ := hus.append
  obtain ⟨t, _, rfl, ht, hword, hbehind⟩ := hbehind.cons
  obtain ⟨us', _, rfl, hus', hlast⟩ := hbehind.append
  obtain ⟨t', rfl, -, hword'⟩ := hlast.last
  have hclosing := eats_mark hword' (by decide) rest
  obtain ⟨heats, hunlined⟩ := eats_token ht hword ha.bracket rfl (us' ++ t' :: rest)
  obtain ⟨first', firstColon', second', secondColon', third', h₁, h₂, h₃, h₄, h₅, hreads⟩ :=
    reads_access ha hfirst hsecond hthird (l := l) hclosing.2 hus'
  obtain ⟨object', hobject', hsuffixes⟩ := hobject.target (l := l) ha.object.1 hfront
    ha.object.absurd_open
  refine ⟨⟨object', t, first', firstColon', second', secondColon', third'⟩, ?_, fun hrest => ?_⟩
  · cases a
    simp only [Access.map, hobject', hunlined, h₁, h₂, h₃, h₄, h₅, id, Option.map_id]
  · simpa using hsuffixes (.suffixesAccess heats rfl rfl (hreads object' t) hclosing hrest)

/-- An index or a slice stands behind its object, and is one of its suffixes. -/
theorem Rereads.access {a : Access} (ha : a.Formed) (hobject : Rereads a.object)
    (hfirst : ∀ e ∈ a.first, Rereads e) (hsecond : ∀ e ∈ a.second, Rereads e)
    (hthird : ∀ e ∈ a.third, Rereads e) : Rereads (.access a) := by
  have hopens : Opens TokenKind.opensExpression ((Expr.access a).grouped.words .printed)
      (Expr.access a).grouped.firstKind := by
    cases a
    exact hobject.opens.append _
  refine of_target hopens fun {l us rest} hus _ => ?_
  obtain ⟨a', ha', hsuffixes⟩ := reads_target_access ha hobject hfirst hsecond hthird (l := l) hus
  exact ⟨.access a', congrArg Expr.access ha', hsuffixes⟩

/-! ### Operands of one token, groupings and operations -/

theorem Rereads.super {keyword method : Token} (hkeyword : keyword.kind = .kwSuper)
    (hmethod : method.isName = true) : Rereads (.super keyword method) := by
  have hopens : Opens TokenKind.opensExpression [keyword.word, .mark .dot, method.word]
      keyword.kind := opens_cons (by simp [hkeyword, TokenKind.opensExpression]) _
  refine of_primary hopens fun {l us rest} hus _ => ?_
  obtain ⟨t, _, rfl, ht, hword, hbehind⟩ := hus.cons
  obtain ⟨dot, _, rfl, -, hdot, hlast⟩ := hbehind.cons
  obtain ⟨t', rfl, ht', hword'⟩ := hlast.last
  obtain ⟨heats, hunlined⟩ := eats_token ht hword hkeyword rfl (dot :: t' :: rest)
  obtain ⟨heats', hunlined'⟩ := eats_name ht' hword' hmethod rest
  exact ⟨.super t t', by simp [hunlined, hunlined'],
    .primarySuper heats (eats_mark hdot (by decide) _) heats'⟩

theorem Rereads.this {keyword : Token} (hkeyword : keyword.kind = .kwThis) :
    Rereads (.this keyword) := by
  have hopens : Opens TokenKind.opensExpression [keyword.word] keyword.kind :=
    opens_cons (by simp [hkeyword, TokenKind.opensExpression]) _
  refine of_primary hopens fun {l us rest} hus _ => ?_
  obtain ⟨t, rfl, ht, hword⟩ := hus.last
  obtain ⟨heats, hunlined⟩ := eats_token ht hword hkeyword rfl rest
  exact ⟨.this t, by simp [hunlined], .primaryThis heats⟩

theorem Rereads.var {name : Token} (hname : name.isName = true) : Rereads (.var name) := by
  have hkind : name.kind = .identifier := beq_iff_eq.mp hname
  have hopens : Opens TokenKind.opensExpression [name.word] name.kind :=
    opens_cons (by simp [hkind, TokenKind.opensExpression]) _
  refine of_primary hopens fun {l us rest} hus _ => ?_
  obtain ⟨t, rfl, ht, hword⟩ := hus.last
  obtain ⟨heats, hunlined⟩ := eats_name ht hword hname rest
  exact ⟨.var t, by simp [hunlined], .primaryVar heats⟩

/-- Parentheses that are in the tree are printed, and read back as a grouping. -/
theorem Rereads.grouping {e : Expr} (h : Rereads e) : Rereads (.grouping e) := by
  refine of_primary (opens_cons rfl _) fun {l us rest} hus _ => ?_
  obtain ⟨t, _, rfl, -, ht, hbehind⟩ := hus.cons
  obtain ⟨us, _, rfl, hinner, hlast⟩ := hbehind.append
  obtain ⟨t', rfl, -, ht'⟩ := hlast.last
  have hclosing := eats_mark ht' (by decide) rest
  obtain ⟨e', he, hreads⟩ := h.expression (l := l) hinner (hclosing.not_absorbed rfl)
  refine ⟨.grouping e', by simp [he], ?_⟩
  simpa using Reads.primaryGrouping (eats_mark ht (by decide) _) hreads hclosing

/-- A token that is the word of a constant stands for the constant. -/
theorem constant?_of_word {t : Token} {c : Constant} (h : t.word = c.word) :
    t.constant? = some c ∧ t.kind ≠ .newline := by
  obtain ⟨kind, lexeme, literal, line⟩ := t
  cases c with
  | nil =>
      cases literal <;> cases h
      exact ⟨rfl, nofun⟩
  | bool b => cases b <;> cases literal <;> cases h <;> exact ⟨rfl, nofun⟩
  | number x =>
      cases literal <;> cases h
      exact ⟨rfl, nofun⟩
  | string s =>
      cases literal <;> cases h
      exact ⟨rfl, nofun⟩

/-- A legible constant is spelled by one word, since only numbers that are not finite are printed
    otherwise. -/
theorem Rereads.literal {c : Constant} (hc : (Node.expr (.literal c)).Legible) :
    Rereads (.literal c) := by
  have hprinted : c.printed = [c.word] := by
    cases c with
    | number x =>
        cases hbinary : Decimal.Binary.ofFloat x with
        | finite negative m q => simp only [Constant.printed, hbinary]
        | infinite negative => simp [Node.Legible, Decimal.isFinite, hbinary] at hc
        | notANumber => simp [Node.Legible, Decimal.isFinite, hbinary] at hc
    | _ => rfl
  have hopens : Opens TokenKind.opensExpression ((Expr.literal c).grouped.words .printed)
      (Expr.literal c).grouped.firstKind := by
    obtain ⟨w, rest, hwords, hkind, hlead⟩ := opens_constant hc
    exact ⟨w, rest, hwords, hkind, hlead.trans (lead_lead _).symm⟩
  refine of_primary hopens fun {l us rest} hus _ => ?_
  have hus' : Spelled us [c.word] := hprinted ▸ hus
  obtain ⟨t, rfl, -, hword⟩ := hus'.last
  obtain ⟨hconstant, hnewline⟩ := constant?_of_word hword
  exact ⟨.literal c, rfl, .primaryConstant (eats_of_kind rfl hnewline rest) hconstant⟩

/-- The operand of a prefix operator is read on the tier of terms, like the whole. -/
theorem Rereads.unary {operator : Token} {operand : Expr} (h : Rereads operand)
    (hop : operator.kind = .kwNot ∨ operator.kind = .minus) (hterm : operand.isTerm = true) :
    Rereads (.unary operator operand) := by
  have hopens : Opens TokenKind.opensExpression
      (operator.word :: operand.grouped.wrapped.words .printed) operator.kind :=
    opens_cons (by obtain hop | hop := hop <;> simp [hop, TokenKind.opensExpression]) _
  refine of_term hopens rfl fun {l us rest} hus hsuffix hopen => ?_
  obtain ⟨t, us, rfl, ht, hword, hbehind⟩ := hus.cons
  have hmark : operator.kind.isMark = true := by
    obtain hop | hop := hop <;> rw [hop] <;> rfl
  obtain ⟨heats, hunlined⟩ := eats_token ht hword rfl hmark (us ++ rest)
  obtain ⟨operand', hoperand, hreads⟩ := h.operand (l := l)
    (Expr.isAssignment_of_isTerm hterm) hbehind hsuffix hopen
  refine ⟨.unary t operand', by simp [hunlined, hoperand], ?_⟩
  have hkind : t.kind = operator.kind := heats.2
  rw [← hkind] at hop
  exact .tierUnary ⟨heats.1, rfl⟩ hop hreads

/-- The two operands of an operation and the operator between them. -/
theorem reads_operation {left right : Expr} {operator : Token} {k : Nat} (hleft : Rereads left)
    (hright : Rereads right) (hop : operator.kind ∈ tierOperators k)
    (hoperands : OperandsFormed left right) {l : Bool} {us rest : List Token}
    (hus : Spelled us (left.grouped.wrapped.words .printed
      ++ operator.word :: right.grouped.wrapped.words .printed))
    (hrest : (nextKind rest).absorbed = false) :
    ∃ left' operator' right', left'.unlined = left.grouped.wrapped.unlined
      ∧ Token.unlined operator' = operator.unlined
      ∧ right'.unlined = right.grouped.wrapped.unlined
      ∧ Reads l (us ++ rest) (.expression (tierNode k left' operator' right')) rest := by
  obtain ⟨hassign, hclosed, hassign'⟩ := hoperands
  obtain ⟨us, _, rfl, hfront, hbehind⟩ := hus.append
  obtain ⟨t, us', rfl, ht, hword, hbehind⟩ := hbehind.cons
  obtain ⟨heats, hunlined⟩ := eats_token ht hword rfl (isMark_of_mem_tierOperators hop)
    (us' ++ rest)
  obtain ⟨hsuffix, hequal, -⟩ := ends_of_not_absorbed hrest
  obtain ⟨right', hright', hreads'⟩ := hright.operand (l := l) hassign' hbehind hsuffix
    fun _ => hrest
  obtain ⟨left', hleft', hreads⟩ := hleft.operand (l := l) hassign hfront
    (by rw [heats.nextKind]; exact opensSuffix_of_mem_tierOperators hop)
    (fun hopen => by rw [hclosed] at hopen; cases hopen)
  refine ⟨left', t, right', hleft', hunlined, hright', .exprTier ?_ hequal⟩
  rw [← heats.2] at hop
  simpa using hreads.operation hop hreads' hrest

/-- Operands are terms or stand in parentheses, so the operator joins just the two of them, whatever
    its tier. -/
theorem Rereads.binary {left right : Expr} {operator : Token} (hleft : Rereads left)
    (hright : Rereads right) (hop : ∃ k < 5, operator.kind ∈ tierOperators k)
    (hoperands : OperandsFormed left right) : Rereads (.binary left operator right) := by
  obtain ⟨k, hk, hop⟩ := hop
  refine of_expression ((opens_wrapped hleft.opens).append _) rfl fun {l us rest} hus hrest => ?_
  obtain ⟨left', operator', right', hleft', hoperator, hright', hreads⟩ :=
    reads_operation hleft hright hop hoperands (l := l) hus hrest
  simp only [tierNode, if_pos hk] at hreads
  exact ⟨_, by simp [hleft', hright', hoperator], hreads⟩

/-- The same for the operators `and` and `or`, which are the two highest tiers. -/
theorem Rereads.logical {left right : Expr} {operator : Token} (hleft : Rereads left)
    (hright : Rereads right) (hop : ∃ k, 5 ≤ k ∧ operator.kind ∈ tierOperators k)
    (hoperands : OperandsFormed left right) : Rereads (.logical left operator right) := by
  obtain ⟨k, hk, hop⟩ := hop
  refine of_expression ((opens_wrapped hleft.opens).append _) rfl fun {l us rest} hus hrest => ?_
  obtain ⟨left', operator', right', hleft', hoperator, hright', hreads⟩ :=
    reads_operation hleft hright hop hoperands (l := l) hus hrest
  simp only [tierNode, if_neg (Nat.not_lt.mpr hk)] at hreads
  exact ⟨_, by simp [hleft', hright', hoperator], hreads⟩

/-! ### Assignments -/

/-- What a chain of accesses starts from is rebuilt with the chain. -/
theorem Expr.accessRoot_map {f : Token → Token} {g : Expr → Expr}
    (haccess : ∀ a, g (.access a) = .access a)
    (hother : ∀ e, e.access? = none → (g e).access? = none) (e : Expr) :
    (e.map f g).accessRoot = e.accessRoot.map f g := by
  have hroot : ∀ e : Expr, e.access? = none → e.accessRoot = e := by
    intro e he
    cases e <;> first | rfl | cases he
  fun_induction Expr.accessRoot e with
  | case1 object _ _ _ _ _ _ ih => simpa only [Expr.map, haccess, Access.map, accessRoot] using ih
  | case2 e hne =>
      refine hroot _ ?_
      cases e with
      | access a =>
          obtain ⟨_, _, _, _, _, _, _⟩ := a
          exact absurd rfl (hne _ _ _ _ _ _ _)
      | _ => exact hother _ rfl

/-- The root of a printed chain of accesses, read back. -/
theorem unlined_accessRoot {a a' : Access}
    (h : a'.map Token.unlined id = (a.map id Expr.groupOperands).map Token.unlined id) :
    (Expr.access a').accessRoot.unlined = (Expr.access a).accessRoot.grouped.unlined := by
  have hunlined : ∀ e : Expr, e.unlined.accessRoot = e.accessRoot.unlined :=
    Expr.accessRoot_map (fun _ => rfl) (fun _ h => h)
  have hgrouped : ∀ e : Expr, e.grouped.accessRoot = e.accessRoot.grouped :=
    Expr.accessRoot_map (fun _ => rfl) (fun e he => by cases e <;> first | rfl | cases he)
  rw [← hunlined, ← hgrouped, ← hunlined]
  exact congrArg (fun b => (Expr.access b).accessRoot) h

theorem Expr.eq_var_of_unlined {e : Expr} {t : Token} (h : e.unlined = .var t) :
    ∃ name, e = .var name ∧ name.unlined = t := by
  cases e with
  | var name =>
      cases h
      exact ⟨name, rfl, rfl⟩
  | _ => cases h

theorem Expr.eq_get_of_unlined {e object : Expr} {t : Token} (h : e.unlined = .get object t) :
    ∃ object' name, e = .get object' name ∧ object'.unlined = object ∧ name.unlined = t := by
  cases e with
  | get object' name =>
      cases h
      exact ⟨object', name, rfl, rfl, rfl⟩
  | _ => cases h

/-- A target, an equals sign and a value. -/
theorem reads_assignment {l : Bool} {ts mid rest : List Token} {t : Token} {target value e : Expr}
    (ht : t.word = .mark .equal) (htarget : Reads l ts (.tier 0 target) (t :: mid))
    (hvalue : Reads l mid (.expression value) rest)
    (hassign : Grammar.assignment? target value = some e) : Reads l ts (.expression e) rest := by
  have heats := eats_mark ht (by decide) mid
  refine .exprAssign (htarget.raise (Nat.zero_le 7) fun i _ hi => ?_) heats hvalue hassign
  have hall : ∀ i < 7, TokenKind.equal ∉ tierOperators i := by decide
  rw [heats.nextKind]
  exact hall i hi

/-- What is assigned is an expression of its own, and the name in front of the equal sign is the
    target. -/
theorem Rereads.assign {name : Token} {value : Expr} (hname : name.isName = true)
    (hvalue : Rereads value) : Rereads (.assign name value none) := by
  have hkind : name.kind = .identifier := beq_iff_eq.mp hname
  have hopens : Opens TokenKind.opensExpression
      (name.word :: .mark .equal :: value.grouped.words .printed) name.kind :=
    opens_cons (by simp [hkind, TokenKind.opensExpression]) _
  refine of_expression hopens rfl fun {l us rest} hus hrest => ?_
  obtain ⟨t, _, rfl, ht, hword, hbehind⟩ := hus.cons
  obtain ⟨t', us, rfl, -, hequal, hbehind⟩ := hbehind.cons
  obtain ⟨value', hvalue', hreads⟩ := hvalue.expression (l := l) hbehind hrest
  obtain ⟨heats, hunlined⟩ := eats_name ht hword hname (t' :: (us ++ rest))
  have hprimary := Reads.primaryVar (l := l) heats
  obtain ⟨hnot, hminus⟩ := hprimary.primary_first
  have htarget := Reads.tierCall hnot hminus hprimary
    (.suffixesEnd (by rw [(eats_mark hequal (by decide) _).nextKind]; rfl))
  exact ⟨.assign t value' none, by simp [hunlined, hvalue'],
    reads_assignment hequal htarget hreads rfl⟩

/-- The target is a property behind its object. -/
theorem Rereads.set {object : Expr} {name : Token} {value : Expr} (hobject : Rereads object)
    (htarget : object.TargetFormed) (hname : name.isName = true) (hvalue : Rereads value) :
    Rereads (.set object name value none) := by
  refine of_expression (hobject.opens.append _) rfl fun {l us rest} hus hrest => ?_
  obtain ⟨us, _, rfl, hfront, hbehind⟩ := hus.append
  obtain ⟨dot, _, rfl, -, hdot, hbehind⟩ := hbehind.cons
  obtain ⟨t, _, rfl, ht, hword, hbehind⟩ := hbehind.cons
  obtain ⟨t', us', rfl, -, hequal, hbehind⟩ := hbehind.cons
  obtain ⟨value', hvalue', hreads⟩ := hvalue.expression (l := l) hbehind hrest
  obtain ⟨heats, hunlined⟩ := eats_name ht hword hname (t' :: (us' ++ rest))
  obtain ⟨object', hobject', hsuffixes⟩ := hobject.target (l := l) htarget.1 hfront
    htarget.absurd_open
  have hget := hsuffixes (.suffixesGet (eats_mark hdot (by decide) _) heats
    (.suffixesEnd (by rw [(eats_mark hequal (by decide) _).nextKind]; rfl)))
  have hassign : Grammar.assignment? (.get object' t) value' = some (.set object' t value' none) :=
    rfl
  refine ⟨.set object' t value' none, by simp [hobject', hunlined, hvalue'], ?_⟩
  simpa using reads_assignment hequal hget hreads hassign

/-- A place that a chain of accesses leads to, an equals sign and a value. -/
theorem reads_access_assignment {a : Access} (ha : a.Formed) (hobject : Rereads a.object)
    (hfirst : ∀ e ∈ a.first, Rereads e) (hsecond : ∀ e ∈ a.second, Rereads e)
    (hthird : ∀ e ∈ a.third, Rereads e) {value : Expr} (hvalue : Rereads value) {l : Bool}
    {us rest : List Token} (hus : Spelled us ((a.map id Expr.groupOperands).words .printed
      ++ .mark .equal :: value.grouped.words .printed))
    (hrest : (nextKind rest).absorbed = false) :
    ∃ a' value', a'.map Token.unlined id = (a.map id Expr.groupOperands).map Token.unlined id
      ∧ value'.unlined = value.grouped.unlined
      ∧ ∀ {e}, Grammar.assignment? (.access a') value' = some e →
        Reads l (us ++ rest) (.expression e) rest := by
  obtain ⟨us, _, rfl, hfront, hbehind⟩ := hus.append
  obtain ⟨t, us', rfl, -, hequal, hbehind⟩ := hbehind.cons
  obtain ⟨value', hvalue', hreads⟩ := hvalue.expression (l := l) hbehind hrest
  obtain ⟨a', ha', hsuffixes⟩ :=
    reads_target_access ha hobject hfirst hsecond hthird (l := l) hfront
  have htarget := hsuffixes
    (.suffixesEnd (by rw [(eats_mark hequal (by decide) (us' ++ rest)).nextKind]; rfl))
  refine ⟨a', value', ha', hvalue', fun hassign => ?_⟩
  simpa using reads_assignment hequal htarget hreads hassign

section AccessAssignment

variable {a : Access} (ha : a.Formed) (hobject : Rereads a.object)
  (hfirst : ∀ e ∈ a.first, Rereads e) (hsecond : ∀ e ∈ a.second, Rereads e)
  (hthird : ∀ e ∈ a.third, Rereads e) {value : Expr} (hvalue : Rereads value)
include ha hobject hfirst hsecond hthird hvalue

/-- An assignment through brackets is printed as the access, and the variable is what the chain of
    brackets begins with. -/
theorem Rereads.assignAccess {name : Token} (hroot : (Expr.access a).accessRoot = .var name) :
    Rereads (.assign name value (some a)) := by
  have hopens : Opens TokenKind.opensExpression
      ((Expr.assign name value (some a)).grouped.words .printed)
      (Expr.assign name value (some a)).grouped.firstKind := by
    cases a
    exact (hobject.opens.append _).append _
  refine of_expression hopens rfl fun {l us rest} hus hrest => ?_
  obtain ⟨a', value', ha', hvalue', hreads⟩ :=
    reads_access_assignment ha hobject hfirst hsecond hthird hvalue (l := l) hus hrest
  have hunlined := unlined_accessRoot ha'
  rw [hroot] at hunlined
  obtain ⟨name', hname, hname'⟩ := Expr.eq_var_of_unlined hunlined
  refine ⟨.assign name' value' (some a'), ?_, hreads ?_⟩
  · simp only [Expr.map, mapAccess?, Expr.groupOperands, id, hname', hvalue', ha']
  · simp only [Grammar.assignment?, hname, Expr.access?]

/-- The same for a chain of brackets that begins with a property. -/
theorem Rereads.setAccess {object : Expr} {name : Token}
    (hroot : (Expr.access a).accessRoot = .get object name) :
    Rereads (.set object name value (some a)) := by
  have hopens : Opens TokenKind.opensExpression
      ((Expr.set object name value (some a)).grouped.words .printed)
      (Expr.set object name value (some a)).grouped.firstKind := by
    cases a
    exact (hobject.opens.append _).append _
  refine of_expression hopens rfl fun {l us rest} hus hrest => ?_
  obtain ⟨a', value', ha', hvalue', hreads⟩ :=
    reads_access_assignment ha hobject hfirst hsecond hthird hvalue (l := l) hus hrest
  have hunlined := unlined_accessRoot ha'
  rw [hroot] at hunlined
  obtain ⟨object', name', hget, hobject', hname'⟩ := Expr.eq_get_of_unlined hunlined
  refine ⟨.set object' name' value' (some a'), ?_, hreads ?_⟩
  · simp only [Expr.map, mapAccess?, Expr.groupOperands, id, hobject', hname', hvalue', ha']
  · simp only [Grammar.assignment?, hget, Expr.access?]

end AccessAssignment

end Expressions

end Script
