import Script.Proofs.Parser.Exact

/-!
# `Proofs.Parser.Productions` — every production decides its phrase

The productions are gone through one by one, from the parts to the whole. Over a level that is exact
on fewer tokens than it has rounds, each of them is exact as well, and on one token more if it is
one of those that make up the next level. A loop of `n` rounds is exact on fewer than `n` tokens,
because each round reads a token.
-/

namespace Script

open TokenReader

/-! ## Lengths -/

/-- The least number of tokens that a phrase is made of, as far as it matters. -/
def Phrase.least : Phrase → Nat
  | .statement _ | .block _ | .braced _ | .binding _ | .initializer _ | .classText _ _ _ | .named _
  | .function _ | .parameters _ _ | .body _ | .expression _ | .tier _ _ | .primary _
  | .arguments _ _ _ => 1
  | _ => 0

/-- A phrase takes as many tokens as it is known to be made of. The induction is on the rules, and
    each of them drops its own tokens. -/
theorem Reads.length_le {l : Bool} {ts rest : List Token} {ph : Phrase} (h : Reads l ts ph rest) :
    rest.length + ph.least ≤ ts.length := by
  induction h with
  | _ =>
      simp only [Phrase.least, List.length_cons, List.length_nil] at *
      grind [→ Eats.length_lt, afterFeeds_length_le]

/-! ## Relations of the productions -/

/-- The relation of a nonterminal. -/
def reading {α : Type} (phrase : α → Phrase) : Reading α := fun l ts a rest =>
  Reads l ts (phrase a) rest

namespace Grammar

/-- The parser of a tier. -/
def tierParser (g : Level ParseM) : Nat → ParseM Expr
  | 0 => prefixed g
  | k + 1 => leftAssoc g (tierOperators k) (tierNode k) (tierParser g k)

/-! A construct is told by its first token. What it reads behind that token, kind by kind: -/

/-- What an operand reads behind its first token. -/
def primaryReading (t : Token) : Reading Expr := fun l ts e rest =>
  match t.constant?, t.kind with
  | some c, _ => e = .literal c ∧ rest = ts
  | none, .identifier => e = .var t ∧ rest = ts
  | none, .kwThis => e = .this t ∧ rest = ts
  | none, .leftParen => ∃ inner mid, Reads l ts (.expression inner) mid ∧
      ∃ closing, Eats .rightParen mid closing rest ∧ e = .grouping inner
  | none, .leftBracket => ∃ es mid, Reads l ts (.argumentList .rightBracket es) mid ∧
      ∃ closing, Eats .rightBracket mid closing rest ∧ e = .list es closing
  | none, .leftBrace => ∃ kvs mid, Reads l ts (.entries kvs) mid ∧
      ∃ closing, Eats .rightBrace mid closing rest ∧ e = .dict kvs closing
  | none, .kwFn => ∃ f, (f.name = none ∧ Reads false ts (.function f) rest) ∧ e = .function f
  | none, .kwSuper => nextKind ts = .leftParen ∧ e = .super t (.plain .identifier "init" t.line)
        ∧ rest = afterFeeds ts
      ∨ nextKind ts ≠ .leftParen ∧ ∃ dot mid, Eats .dot ts dot mid ∧
        ∃ name, Eats .identifier mid name rest ∧ e = .super t name
  | none, _ => False

/-- What a suffix reads behind its first token. -/
def suffixReading (e₀ : Expr) (t : Token) : Reading Expr := fun l ts e rest =>
  match t.kind with
  | .leftParen => ∃ es mid, Reads l ts (.argumentList .rightParen es) mid ∧
      ∃ closing, Eats .rightParen mid closing rest ∧ e = .call e₀ closing es
  | .dot => ∃ name, Eats .identifier ts name rest ∧ e = .get e₀ name
  | .leftBracket => ∃ a mid, ((a.object = e₀ ∧ a.bracket = t) ∧ Reads l ts (.access a) mid) ∧
      ∃ closing, Eats .rightBracket mid closing rest ∧ e = .access a
  | _ => False

/-- What a statement reads behind its first token, unless it is an expression. -/
def statementReading (t : Token) : Reading Stmt := fun l ts s rest =>
  match t.kind with
  | .kwClass => ∃ text : Token × Option Token × List Member,
      Reads l ts (.classText text.1 text.2.1 text.2.2) rest
        ∧ s = .cls (.ofMembers text.1 text.2.1 text.2.2)
  | .kwFn => ∃ f, Reads l ts (.named f) rest ∧ s = .function f
  | .kwLet => Reads l ts (.binding s) rest
  | .kwFor => nextKind ts = .identifier ∧
      (∃ names t₂, Reads true (afterFeeds ts) (.loopVariables names) t₂ ∧
        ∃ keyword t₃, Eats .kwIn t₂ keyword t₃ ∧ ∃ e t₄, Reads true t₃ (.expression e) t₄ ∧
          ∃ body, Reads true t₄ (.statement body) rest ∧ s = .forIn t names e body)
      ∨ nextKind ts ≠ .identifier ∧ ∃ i t₂, Reads true ts (.initializer i) t₂ ∧
        ∃ c t₃, Reads true t₂ (.expression c) t₃ ∧ ∃ semicolon t₄, Eats .semicolon t₃ semicolon t₄ ∧
          ∃ e t₅, Reads true t₄ (.expression e) t₅ ∧
            ∃ body, Reads true t₅ (.statement body) rest ∧ s = .forLoop t i c e body
  | .kwTry => ∃ body t₂, Reads l ts (.statement body) t₂ ∧ ∃ keyword t₃, Eats .kwCatch t₂ keyword t₃ ∧
      ∃ name t₄, Eats .identifier t₃ name t₄ ∧
        ∃ handler, Reads l t₄ (.statement handler) rest ∧ s = .tryCatch body name handler
  | .kwIf => ∃ c t₂, Reads l ts (.expression c) t₂ ∧ ∃ ss t₃, Reads l t₂ (.braced ss) t₃ ∧
      ∃ bs t₄, Reads l t₃ (.elifs bs) t₄ ∧
        ((∃ keyword t₅, Eats .kwElse t₄ keyword t₅ ∧
            ∃ ss', Reads l t₅ (.braced ss') rest ∧ s = .ifElse t c ss bs (some ss'))
          ∨ nextKind t₄ ≠ .kwElse ∧ s = .ifElse t c ss bs none ∧ rest = t₄)
  | .kwReturn => (headKind ts).endsReturn = true ∧ s = .ret t none ∧ rest = ts
      ∨ ¬ (headKind ts).endsReturn = true ∧
        ∃ e, Reads l ts (.expression e) rest ∧ s = .ret t (some e)
  | .kwBreak => l = true ∧ s = .breakLoop t ∧ rest = ts
  | .kwContinue => l = true ∧ s = .continueLoop t ∧ rest = ts
  | .kwWhile => ∃ c mid, Reads true ts (.expression c) mid ∧
      ∃ body, Reads true mid (.statement body) rest ∧ s = .whileLoop t c body
  | .leftBrace => ∃ ss, Reads l ts (.block ss) rest ∧ s = .block ss
  | _ => False

end Grammar

/-! ## Levels -/

/-- Going on after a phrase. -/
theorem Exact.andThen {α β : Type} {d : Nat} {p : ParseM α} {f : α → ParseM β}
    {phrase : α → Phrase} {S : α → Reading β} (hp : Exact d p (reading phrase))
    (hf : ∀ a, Exact d (f a) (S a)) : Exact d (p >>= f) ((reading phrase).andThen S) :=
  hp.bind (fun h hts => by have := Reads.length_le h; omega) hf

/-- Going on after a phrase that is not empty, with one token less. -/
theorem Exact.andThen_succ {α β : Type} {d : Nat} {p : ParseM α} {f : α → ParseM β}
    {phrase : α → Phrase} {S : α → Reading β} (hp : Exact (d + 1) p (reading phrase))
    (hphrase : ∀ a, (phrase a).least = 1) (hf : ∀ a, Exact d (f a) (S a)) :
    Exact (d + 1) (p >>= f) ((reading phrase).andThen S) :=
  hp.bind (fun {_ _ a _} h hts => by have := Reads.length_le h; have := hphrase a; omega) hf

/-- The parsers of the level are exact on fewer tokens than it has rounds. -/
structure Level.Exact (g : Level ParseM) : Prop where
  expression : Script.Exact g.rounds g.expression (reading .expression)
  prefixed : Script.Exact g.rounds g.prefixed (reading (.tier 0))
  declaration : Script.Exact g.rounds g.declaration (reading .statement)

namespace Grammar

variable {g : Level ParseM}

/-! ## Blocks and functions -/

/-- Blocks, by induction on the rounds. A statement takes at least one token, so the next round is
    exact on one token less. -/
theorem exact_statements (hg : g.Exact) :
    ∀ n ≤ g.rounds, Exact n (statements g n) (reading .block)
  | 0, _ => .exhausted
  | n + 1, hn => by
      have ih := exact_statements hg n (Nat.le_of_succ_le hn)
      refine (Exact.skipNewlines_bind (.ifEat_succ (by decide) (.pure _) (.ifEnd (.fail_bind _ _)
        ((hg.declaration.mono hn).andThen_succ (fun _ => rfl) fun s => ih.map _)))).congr ?_
      intro l ts ss rest _
      simp only [eats_afterFeeds, nextKind_afterFeeds]
      constructor
      · rintro (⟨t, mid, ht, rfl, rfl⟩ | ⟨hk, ⟨_, h⟩ | ⟨hne, s, mid, hs, ss, hss, rfl⟩⟩)
        · exact .blockEnd ht
        · exact h.elim
        · exact .blockMore hk hne hs hss
      · intro h
        cases h with
        | blockEnd ht => exact .inl ⟨_, _, ht, rfl, rfl⟩
        | blockMore hk hne hs hss => exact .inr ⟨hk, .inr ⟨hne, _, _, hs, _, hss, rfl⟩⟩

theorem exact_block (hg : g.Exact) : Exact g.rounds (block g) (reading .block) :=
  exact_statements hg g.rounds (Nat.le_refl _)

/-- The opening brace is one token more, behind which the block is read. -/
theorem exact_bracedBlock (hg : g.Exact) :
    Exact (g.rounds + 1) (bracedBlock g) (reading .braced) := by
  refine (Exact.expect_bind_succ fun _ => exact_block hg).congr ?_
  intro l ts ss rest _
  constructor
  · rintro ⟨t, mid, ht, hss⟩
    exact .braced ht hss
  · intro h
    cases h with
    | braced ht hss => exact ⟨_, _, ht, hss⟩

/-- Parameters, with the count of those that have been read, since the rules have the bound in them
    as well. -/
theorem exact_parametersAfter :
    ∀ n count, Exact n (parametersAfter n count) (reading (.parameters count))
  | 0, _ => .exhausted
  | n + 1, count => by
      have ih := exact_parametersAfter n (count + 1)
      rw [parametersAfter]
      by_cases hmax : maxParameters ≤ count
      · rw [if_pos hmax]
        refine (Exact.fail_bind _ _).congr ?_
        intro l ts ps rest _
        refine ⟨False.elim, ?_⟩
        intro h
        cases h with
        | parametersLast hcount => omega
        | parametersMore hcount => omega
      · rw [if_neg hmax]
        refine (Exact.expect_bind fun p => .ifEat_succ (by decide) (ih.map _) (.pure _)).congr ?_
        intro l ts ps rest _
        constructor
        · rintro ⟨p, mid, hp, ⟨comma, mid', hcomma, ps, hps, rfl⟩ | ⟨hk, rfl, rfl⟩⟩
          · exact .parametersMore (by omega) hp hcomma hps
          · exact .parametersLast (by omega) hp hk
        · intro h
          cases h with
          | parametersLast _ hp hk => exact ⟨_, _, hp, .inr ⟨hk, rfl, rfl⟩⟩
          | parametersMore _ hp hcomma hps => exact ⟨_, _, hp, .inl ⟨_, _, hcomma, _, hps, rfl⟩⟩

theorem exact_parameters (g : Level ParseM) :
    Exact g.rounds (parameters g) (reading .parameterList) := by
  refine (Exact.ifNext (.pure _) (exact_parametersAfter g.rounds 0)).congr ?_
  intro l ts ps rest _
  constructor
  · rintro (⟨hk, rfl, rfl⟩ | ⟨hk, hps⟩)
    · exact .parameterListNone hk
    · exact .parameterList hk hps
  · intro h
    cases h with
    | parameterListNone hk => exact .inl ⟨hk, rfl, rfl⟩
    | parameterList hk hps => exact .inr ⟨hk, hps⟩

/-- The rules tell a block from an expression by its brace, as the parser does. -/
theorem exact_functionBody (hg : g.Exact) :
    Exact g.rounds (functionBody g) (reading .body) := by
  refine (Exact.ifEat (by decide) ((exact_block hg).map _) (hg.expression.map _)).congr ?_
  intro l ts b rest _
  constructor
  · rintro (⟨t, mid, ht, ss, hss, rfl⟩ | ⟨hk, e, he, rfl⟩)
    · exact .bodyBlock ht hss
    · exact .bodyExpr hk he
  · intro h
    cases h with
    | bodyBlock ht hss => exact .inl ⟨_, _, ht, _, hss, rfl⟩
    | bodyExpr hk he => exact .inr ⟨hk, _, he, rfl⟩

/-- Behind the opening parenthesis the parameters are read with one token less, and the body behind
    the closing one. -/
theorem exact_functionRest (hg : g.Exact) (name : Option Token) :
    Exact (g.rounds + 1) (functionRest g name) (fun l ts f rest =>
      f.name = name ∧ Reads l ts (.function f) rest) := by
  refine (Exact.expect_bind_succ fun _ => (exact_parameters g).andThen fun ps =>
    Exact.expect_bind fun _ => (exact_functionBody hg).map _).congr ?_
  intro l ts f rest _
  constructor
  · rintro ⟨opening, t₁, hopening, ps, t₂, hps, closing, t₃, hclosing, b, hb, rfl⟩
    exact ⟨rfl, .function hopening hps hclosing hb⟩
  · rintro ⟨rfl, h⟩
    cases h with
    | function hopening hps hclosing hb => exact ⟨_, _, hopening, _, _, hps, _, _, hclosing, _, hb, rfl⟩

/-- The name opens a frame for the parser, and the rules read the same function outside of every
    loop. -/
theorem exact_namedFunction (hg : g.Exact) :
    Exact (g.rounds + 1) (namedFunction g) (reading .named) := by
  refine (Exact.expect_bind_succ fun name =>
    ((exact_functionRest hg (some name)).mono (Nat.le_succ _)).inFunction name.lexeme).congr ?_
  intro l ts f rest _
  constructor
  · rintro ⟨name, mid, hname, hf, h⟩
    exact .named hname hf h
  · intro h
    cases h with
    | named hname hf h => exact ⟨_, _, hname, hf, h⟩

/-- A function without a name has a frame too. That is why its body is read outside of every loop,
    whatever is open around it. -/
theorem exact_lambda (hg : g.Exact) :
    Exact g.rounds (lambda g) (fun _ ts f rest => f.name = none ∧ Reads false ts (.function f) rest)
    := by
  have h := fun name => ((exact_functionRest hg none).mono (Nat.le_succ _)).inFunction name
  exact ⟨fun hrun => (h _).moves hrun, fun hs hc => (h _).reads hs hc⟩

/-! ## Operands -/

/-- Arguments: behind an expression stands a comma or the list ends, and behind the comma it may end
    as well. -/
theorem exact_argumentsAfter (hg : g.Exact) (closing : TokenKind) :
    ∀ n ≤ g.rounds, ∀ count,
      Exact n (argumentsAfter g closing n count) (reading (.arguments closing count))
  | 0, _, _ => .exhausted
  | n + 1, hn, count => by
      have ih := exact_argumentsAfter hg closing n (Nat.le_of_succ_le hn) (count + 1)
      rw [argumentsAfter]
      by_cases hmax : closing = .rightParen ∧ maxParameters ≤ count
      -- At the limit the parser fails, and no rule for arguments applies.
      · rw [if_pos hmax]
        refine (Exact.fail_bind _ _).congr ?_
        intro l ts es rest _
        refine ⟨False.elim, ?_⟩
        intro h
        have hcount : ¬ count < maxParameters := Nat.not_lt.mpr hmax.2
        cases h with
        | argumentsLast h => exact hcount (h hmax.1)
        | argumentsTrailing h => exact hcount (h hmax.1)
        | argumentsMore h => exact hcount (h hmax.1)
      · rw [if_neg hmax]
        have hcount : closing = .rightParen → count < maxParameters := by
          intro hclosing
          exact Nat.not_le.mp fun h => hmax ⟨hclosing, h⟩
        refine ((hg.expression.mono hn).andThen_succ (fun _ => rfl) fun e => .unlessEat (by decide)
          (.ifNext (.pure _) (ih.map _)) (.pure _)).congr ?_
        intro l ts es rest _
        constructor
        · rintro ⟨e, mid, he, ⟨comma, mid', hcomma, ⟨hk, rfl, rfl⟩ | ⟨hk, es, hes, rfl⟩⟩ |
            ⟨hk, rfl, rfl⟩⟩
          · exact .argumentsTrailing hcount he hcomma hk
          · exact .argumentsMore hcount he hcomma hk hes
          · exact .argumentsLast hcount he hk
        · intro h
          cases h with
          | argumentsLast _ he hk => exact ⟨_, _, he, .inr ⟨hk, rfl, rfl⟩⟩
          | argumentsTrailing _ he hcomma hk =>
              exact ⟨_, _, he, .inl ⟨_, _, hcomma, .inl ⟨hk, rfl, rfl⟩⟩⟩
          | argumentsMore _ he hcomma hk hes =>
              exact ⟨_, _, he, .inl ⟨_, _, hcomma, .inr ⟨hk, _, hes, rfl⟩⟩⟩

theorem exact_arguments (hg : g.Exact) (closing : TokenKind) :
    Exact g.rounds (arguments g closing) (reading (.argumentList closing)) := by
  refine (Exact.ifNext (.pure _)
    (exact_argumentsAfter hg closing g.rounds (Nat.le_refl _) 0)).congr ?_
  intro l ts es rest _
  constructor
  · rintro (⟨hk, rfl, rfl⟩ | ⟨hk, hes⟩)
    · exact .argumentListNone hk
    · exact .argumentList hk hes
  · intro h
    cases h with
    | argumentListNone hk => exact .inl ⟨hk, rfl, rfl⟩
    | argumentList hk hes => exact .inr ⟨hk, hes⟩

/-- Entries: the rules ask for a colon between key and value, and allow a comma before the closing
    brace. -/
theorem exact_entries (hg : g.Exact) : ∀ n ≤ g.rounds, Exact n (entries g n) (reading .entries)
  | 0, _ => .exhausted
  | n + 1, hn => by
      have ih := exact_entries hg n (Nat.le_of_succ_le hn)
      refine (Exact.ifNext (.pure _) ((hg.expression.mono hn).andThen_succ (fun _ => rfl) fun key =>
        .expect_bind fun _ => (hg.expression.mono (Nat.le_of_succ_le hn)).andThen
          fun value => .unlessEat (by decide) (ih.map _) (.pure _))).congr ?_
      intro l ts kvs rest _
      constructor
      · rintro (⟨hk, rfl, rfl⟩ | ⟨hk, key, t₁, hkey, colon, t₂, hcolon, value, t₃, hvalue,
          ⟨comma, t₄, hcomma, kvs, hkvs, rfl⟩ | ⟨hcomma, rfl, rfl⟩⟩)
        · exact .entriesEnd hk
        · exact .entriesMore hk hkey hcolon hvalue hcomma hkvs
        · exact .entriesLast hk hkey hcolon hvalue hcomma
      · intro h
        cases h with
        | entriesEnd hk => exact .inl ⟨hk, rfl, rfl⟩
        | entriesLast hk hkey hcolon hvalue hcomma =>
            exact .inr ⟨hk, _, _, hkey, _, _, hcolon, _, _, hvalue, .inr ⟨hcomma, rfl, rfl⟩⟩
        | entriesMore hk hkey hcolon hvalue hcomma hkvs =>
            exact .inr ⟨hk, _, _, hkey, _, _, hcolon, _, _, hvalue,
              .inl ⟨_, _, hcomma, _, hkvs, rfl⟩⟩

/-- `super` stands for the initializer if a parenthesis follows, and otherwise a dot and a name have
    to. -/
theorem exact_superMethod (t : Token) :
    Exact g.rounds (superMethod t) (fun _ ts e rest =>
      nextKind ts = .leftParen ∧ e = .super t (.plain .identifier "init" t.line)
          ∧ rest = afterFeeds ts
        ∨ nextKind ts ≠ .leftParen ∧ ∃ dot mid, Eats .dot ts dot mid ∧
          ∃ name, Eats .identifier mid name rest ∧ e = .super t name) :=
  .ifNext (.pure _) (.expect_bind fun _ => Exact.expect.map _)

/-- Kind by kind, what the parser of an operand does behind the first token is what the relation of
    this kind says. -/
theorem exact_primaryAfter (hg : g.Exact) {t : Token} {p : ParseM Expr}
    (hp : primaryAfter g t = some p) : Exact g.rounds p (primaryReading t) := by
  unfold primaryAfter at hp
  split at hp
  case h_1 hconstant =>
    cases hp
    unfold primaryReading
    simp only [hconstant]
    exact .pure _
  case h_9 => cases hp
  all_goals
    cases hp
    rename_i hconstant hk
    unfold primaryReading
    simp only [hconstant, hk]
  case h_2 => exact .pure _
  case h_3 => exact .pure _
  case h_4 => exact hg.expression.andThen fun _ => Exact.expect.map _
  case h_5 => exact (exact_arguments hg _).andThen fun _ => Exact.expect.map _
  case h_6 =>
    exact (exact_entries hg g.rounds (Nat.le_refl _)).andThen
      fun _ => Exact.expect.map _
  case h_7 => exact (exact_lambda hg).map _
  case h_8 => exact exact_superMethod t

theorem constant?_eq_none {t : Token} (h : t.kind ∉ [.number, .string, .kwFalse, .kwTrue, .kwNil]) :
    t.constant? = none := by
  unfold Token.constant?
  split <;> simp_all

/-- The rules for operands have one case for each kind of a first token. This is the converse of
    `exact_primaryAfter`, with the first token in front. -/
theorem exact_primary (hg : g.Exact) : Exact (g.rounds + 1) (primary g) (reading .primary) := by
  refine (Exact.dispatch (Nat.le_refl _) (fun t p hp => exact_primaryAfter hg hp) (.fail _)).congr ?_
  intro l ts e rest _
  constructor
  · rintro (⟨t, mid, hfeeds, _, h⟩ | ⟨_, h⟩)
    · unfold primaryReading at h
      split at h
      case h_1 hconstant =>
        obtain ⟨rfl, rfl⟩ := h
        exact .primaryConstant ⟨hfeeds, rfl⟩ hconstant
      all_goals rename_i hconstant hk
      · obtain ⟨rfl, rfl⟩ := h
        exact .primaryVar ⟨hfeeds, hk⟩
      · obtain ⟨rfl, rfl⟩ := h
        exact .primaryThis ⟨hfeeds, hk⟩
      · obtain ⟨inner, mid', hinner, closing, hclosing, rfl⟩ := h
        exact .primaryGrouping ⟨hfeeds, hk⟩ hinner hclosing
      · obtain ⟨es, mid', hes, closing, hclosing, rfl⟩ := h
        exact .primaryList ⟨hfeeds, hk⟩ hes hclosing
      · obtain ⟨kvs, mid', hkvs, closing, hclosing, rfl⟩ := h
        exact .primaryDict ⟨hfeeds, hk⟩ hkvs hclosing
      · obtain ⟨f, ⟨hname, hf⟩, rfl⟩ := h
        exact .primaryFunction ⟨hfeeds, hk⟩ hname hf
      · obtain ⟨hparen, rfl, rfl⟩ | ⟨_, dot, mid', hdot, name, hname, rfl⟩ := h
        · exact .primarySuperInit ⟨hfeeds, hk⟩ hparen
        · exact .primarySuper ⟨hfeeds, hk⟩ hdot hname
      · exact h.elim
    · exact h.elim
  · intro h
    -- The first token leads into the same branch of the production and of its reading.
    suffices hbranch : ∃ t mid, afterFeeds ts = t :: mid ∧ (primaryAfter g t).isSome
        ∧ primaryReading t l mid e rest from .inl hbranch
    unfold primaryReading primaryAfter
    cases h with
    | primaryConstant ht hc => exact ⟨_, _, ht.1, by simp [hc], by simp [hc]⟩
    | primaryVar ht =>
        have hc := constant?_eq_none (by rw [ht.2]; decide)
        exact ⟨_, _, ht.1, by simp [hc, ht.2], by simp [hc, ht.2]⟩
    | primaryThis ht =>
        have hc := constant?_eq_none (by rw [ht.2]; decide)
        exact ⟨_, _, ht.1, by simp [hc, ht.2], by simp [hc, ht.2]⟩
    | primaryGrouping ht he hclosing =>
        refine ⟨_, _, ht.1, ?_⟩
        simp only [constant?_eq_none (by rw [ht.2]; decide), ht.2]
        exact ⟨rfl, _, _, he, _, hclosing, rfl⟩
    | primaryList ht hes hclosing =>
        refine ⟨_, _, ht.1, ?_⟩
        simp only [constant?_eq_none (by rw [ht.2]; decide), ht.2]
        exact ⟨rfl, _, _, hes, _, hclosing, rfl⟩
    | primaryDict ht hkvs hclosing =>
        refine ⟨_, _, ht.1, ?_⟩
        simp only [constant?_eq_none (by rw [ht.2]; decide), ht.2]
        exact ⟨rfl, _, _, hkvs, _, hclosing, rfl⟩
    | primaryFunction ht hname hf =>
        refine ⟨_, _, ht.1, ?_⟩
        simp only [constant?_eq_none (by rw [ht.2]; decide), ht.2]
        exact ⟨rfl, _, ⟨hname, hf⟩, rfl⟩
    | primarySuper ht hdot hname =>
        refine ⟨_, _, ht.1, ?_⟩
        simp only [constant?_eq_none (by rw [ht.2]; decide), ht.2]
        exact ⟨rfl, .inr ⟨by rw [hdot.nextKind]; decide, _, _, hdot, _, hname, rfl⟩⟩
    | primarySuperInit ht hparen =>
        refine ⟨_, _, ht.1, ?_⟩
        simp only [constant?_eq_none (by rw [ht.2]; decide), ht.2]
        exact ⟨rfl, .inl ⟨hparen, trivial, trivial⟩⟩

/-! ## Suffixes -/

/-- A component is missing if a colon, the closing bracket or the end of the tokens follows, and the
    rules have one case for each. -/
theorem exact_sliceComponent (hg : g.Exact) :
    Exact g.rounds (sliceComponent g) (reading .component) := by
  refine (Exact.ifNext (.pure _) (.ifNext (.pure _) (.ifEnd (.pure _)
    (hg.expression.map _)))).congr ?_
  intro l ts e rest _
  constructor
  · rintro (⟨hk, rfl, rfl⟩ | ⟨hcolon, ⟨hk, rfl, rfl⟩ | ⟨hbracket, ⟨rfl, rfl, rfl⟩ |
      ⟨hne, e, he, rfl⟩⟩⟩)
    · exact .componentNone (.inl hk)
    · exact .componentNone (.inr hk)
    · exact .componentMissing
    · exact .component hcolon hbracket hne he
  · intro h
    cases h with
    | componentNone hk =>
        by_cases hcolon : nextKind ts = .colon
        · exact .inl ⟨hcolon, rfl, rfl⟩
        · exact .inr ⟨hcolon, .inl ⟨hk.resolve_left hcolon, rfl, rfl⟩⟩
    | componentMissing =>
        exact .inr ⟨by decide, .inr ⟨by decide, .inl ⟨rfl, rfl, rfl⟩⟩⟩
    | component hcolon hbracket hne he =>
        exact .inr ⟨hcolon, .inr ⟨hbracket, .inr ⟨hne, _, he, rfl⟩⟩⟩

/-- What follows the first colon of a slice. The second colon may be missing, and with it the
    step. -/
theorem exact_sliceRest (hg : g.Exact) (object : Expr) (bracket : Token) (first : Option Expr)
    (colon : Token) :
    Exact g.rounds (sliceRest g object bracket first colon) (fun l ts a rest =>
      (a.object = object ∧ a.bracket = bracket) ∧ (a.first = first ∧ a.firstColon = some colon)
        ∧ Reads l ts (.slice a) rest) := by
  refine .congr ((exact_sliceComponent hg).andThen fun second => .eat_bind (by decide)
    (fun colon' => (exact_sliceComponent hg).map _) (.pure _)) ?_
  intro l ts a rest _
  constructor
  · rintro ⟨second, mid, hsecond, ⟨colon', mid', hcolon, third, hthird, rfl⟩ | ⟨hk, rfl, rfl⟩⟩
    · exact ⟨⟨rfl, rfl⟩, ⟨rfl, rfl⟩, .slice hsecond hcolon hthird⟩
    · exact ⟨⟨rfl, rfl⟩, ⟨rfl, rfl⟩, .sliceShort hsecond hk⟩
  · rintro ⟨⟨rfl, rfl⟩, ⟨rfl, hfirst⟩, h⟩
    cases h with
    | slice hsecond hcolon hthird =>
        cases hfirst
        exact ⟨_, _, hsecond, .inl ⟨_, _, hcolon, _, hthird, rfl⟩⟩
    | sliceShort hsecond hk =>
        cases hfirst
        exact ⟨_, _, hsecond, .inr ⟨hk, rfl, rfl⟩⟩

/-- An index, or a slice: which one it is, is decided by a colon behind the first component. -/
theorem exact_accessParts (hg : g.Exact) (object : Expr) (bracket : Token) :
    Exact g.rounds (accessParts g object bracket) (fun l ts a rest =>
      (a.object = object ∧ a.bracket = bracket) ∧ Reads l ts (.access a) rest) := by
  refine .congr (.eat_bind (by decide) (fun colon => exact_sliceRest hg object bracket none colon)
    (hg.expression.andThen fun first => .eat_bind (by decide)
      (fun colon => exact_sliceRest hg object bracket (some first) colon) (.pure _))) ?_
  intro l ts a rest _
  constructor
  · rintro (⟨colon, mid, hcolon, ho, ⟨hfirst, hfc⟩, h⟩ | ⟨hk, first, mid, hfirst,
      ⟨colon, mid', hcolon, ho, ⟨hf, hfc⟩, h⟩ | ⟨hk', rfl, rfl⟩⟩)
    · exact ⟨ho, .accessSlice hcolon hfirst hfc h⟩
    · exact ⟨ho, .accessFirstSlice hk hfirst hcolon hf hfc h⟩
    · exact ⟨⟨rfl, rfl⟩, .accessIndex hk hfirst hk'⟩
  · rintro ⟨ho, h⟩
    cases h with
    | accessSlice hcolon hfirst hfc h => exact .inl ⟨_, _, hcolon, ho, ⟨hfirst, hfc⟩, h⟩
    | accessFirstSlice hk hfirst hcolon hf hfc h =>
        exact .inr ⟨hk, _, _, hfirst, .inl ⟨_, _, hcolon, ho, ⟨hf, hfc⟩, h⟩⟩
    | accessIndex hk hfirst hk' =>
        obtain ⟨rfl, rfl⟩ := ho
        exact .inr ⟨hk, _, _, hfirst, .inr ⟨hk', rfl, rfl⟩⟩

/-- Kind by kind, what the parser of a suffix does behind its first token. -/
theorem exact_suffixAfter (hg : g.Exact) {e₀ : Expr} {t : Token} {p : ParseM Expr}
    (hp : suffixAfter g e₀ t = some p) : Exact g.rounds p (suffixReading e₀ t) := by
  unfold suffixAfter at hp
  split at hp
  case h_4 => cases hp
  all_goals
    cases hp
    rename_i hk
    unfold suffixReading
    simp only [hk]
  · exact (exact_arguments hg _).andThen fun _ => Exact.expect.map _
  · exact Exact.expect.map _
  · refine (exact_accessParts hg e₀ t).bind (e := g.rounds) ?_ fun a => Exact.expect.map _
    intro l ts a mid h hts
    exact Nat.lt_of_le_of_lt h.2.length_le hts

/-- A suffix takes no tokens back. It is what the induction on rounds needs besides the token that
    opens it. -/
theorem suffixReading_length_le {e₀ e : Expr} {t : Token} {l : Bool} {ts rest : List Token}
    (h : suffixReading e₀ t l ts e rest) : rest.length ≤ ts.length := by
  unfold suffixReading at h
  split at h
  · obtain ⟨es, mid, hes, closing, hclosing, _⟩ := h
    have := hes.length_le
    have := hclosing.length_lt
    omega
  · obtain ⟨name, hname, _⟩ := h
    exact Nat.le_of_lt hname.length_lt
  · obtain ⟨a, mid, ⟨_, ha⟩, closing, hclosing, _⟩ := h
    have := ha.length_le
    have := hclosing.length_lt
    omega
  · exact h.elim

theorem suffixAfter_isSome (g : Level ParseM) (e₀ : Expr) (t : Token) :
    (suffixAfter g e₀ t).isSome = t.kind.opensSuffix := by
  unfold suffixAfter TokenKind.opensSuffix
  split <;> simp_all

/-- Suffixes, by induction on the rounds: either the next token opens none, or one is read and the
    others behind it. -/
theorem exact_suffixes (hg : g.Exact) :
    ∀ n ≤ g.rounds, ∀ e₀, Exact n (suffixes g n e₀) (reading (.suffixes e₀))
  | 0, _, _ => .exhausted
  | n + 1, hn, e₀ => by
      have ih := exact_suffixes hg n (Nat.le_of_succ_le hn)
      refine .congr (.dispatch (Nat.le_refl (n + 1)) (T := fun t => (suffixReading e₀ t).andThen
        fun e => reading (.suffixes e)) ?_ (.pure _)) ?_
      · intro t p hp
        obtain ⟨q, hq, rfl⟩ := Option.map_eq_some_iff.mp hp
        refine ((exact_suffixAfter hg hq).mono (Nat.le_of_succ_le hn)).bind ?_ ih
        intro l ts e mid h hts
        exact Nat.lt_of_le_of_lt (suffixReading_length_le h) hts
      · intro l ts e rest _
        have hnone : (∀ t mid, afterFeeds ts = t :: mid →
            (suffixAfter g e₀ t).map (· >>= suffixes g n) = none)
            ↔ (nextKind ts).opensSuffix = false := by
          rw [← forall_next (Q := fun k => k.opensSuffix = false) rfl]
          simp [← suffixAfter_isSome g e₀]
        simp only [Option.isSome_map, suffixAfter_isSome, hnone]
        constructor
        · rintro (⟨t, mid, hfeeds, _, e', mid', h, hrest⟩ | ⟨hk, rfl, rfl⟩)
          · unfold suffixReading at h
            split at h
            all_goals rename_i hk
            · obtain ⟨es, mid, hes, closing, hclosing, rfl⟩ := h
              exact .suffixesCall ⟨hfeeds, hk⟩ hes hclosing hrest
            · obtain ⟨name, hname, rfl⟩ := h
              exact .suffixesGet ⟨hfeeds, hk⟩ hname hrest
            · obtain ⟨a, mid, ⟨⟨ho, hb⟩, ha⟩, closing, hclosing, rfl⟩ := h
              exact .suffixesAccess ⟨hfeeds, hk⟩ ho hb ha hclosing hrest
            · exact h.elim
          · exact .suffixesEnd hk
        · intro h
          cases h with
          | suffixesEnd hk => exact .inr ⟨hk, rfl, rfl⟩
          | suffixesCall ht hes hclosing hrest =>
              refine .inl ⟨_, _, ht.1, by rw [ht.2]; rfl, _, _, ?_, hrest⟩
              simp only [suffixReading, ht.2]
              exact ⟨_, _, hes, _, hclosing, rfl⟩
          | suffixesGet ht hname hrest =>
              refine .inl ⟨_, _, ht.1, by rw [ht.2]; rfl, _, _, ?_, hrest⟩
              simp only [suffixReading, ht.2]
              exact ⟨_, hname, rfl⟩
          | suffixesAccess ht ho hb ha hclosing hrest =>
              refine .inl ⟨_, _, ht.1, by rw [ht.2]; rfl, _, _, ?_, hrest⟩
              simp only [suffixReading, ht.2]
              exact ⟨_, _, ⟨⟨ho, hb⟩, ha⟩, _, hclosing, rfl⟩

theorem exact_call (hg : g.Exact) :
    Exact (g.rounds + 1) (call g) (fun l ts e rest =>
      ∃ e₀ mid, Reads l ts (.primary e₀) mid ∧ Reads l mid (.suffixes e₀ e) rest) :=
  (exact_primary hg).andThen_succ (fun _ => rfl) fun e => exact_suffixes hg g.rounds (Nat.le_refl _) e

/-! ## Operators -/

theorem eof_notMem_tierOperators (k : Nat) : .eof ∉ tierOperators k := by
  unfold tierOperators
  split <;> decide

/-- A prefix operator and its operand, which is of the level below, or a call. -/
theorem exact_prefixed (hg : g.Exact) : Exact (g.rounds + 1) (prefixed g) (reading (.tier 0)) := by
  refine .congr (.dispatch (Nat.le_refl (g.rounds + 1)) (T := fun t l ts e rest =>
    ∃ e', Reads l ts (.tier 0 e') rest ∧ e = .unary t e') ?_ (exact_call hg)) ?_
  · intro t p hp
    split at hp
    · cases hp
      exact hg.prefixed.map _
    · cases hp
  · intro l ts e rest _
    have hnone : (∀ t mid, afterFeeds ts = t :: mid → ¬ (t.kind = .kwNot ∨ t.kind = .minus))
        ↔ ¬ (nextKind ts = .kwNot ∨ nextKind ts = .minus) :=
      forall_next (Q := fun k => ¬ (k = .kwNot ∨ k = .minus)) (by decide)
    simp only [Option.isSome_ite, ite_eq_right_iff, reduceCtorEq, imp_false, hnone]
    constructor
    · rintro (⟨t, mid, hfeeds, hk, e, he, rfl⟩ | ⟨hk, e₀, mid, h₀, he⟩)
      · exact .tierUnary ⟨hfeeds, rfl⟩ hk he
      · exact .tierCall (fun h => hk (.inl h)) (fun h => hk (.inr h)) h₀ he
    · intro h
      cases h with
      | tierUnary ht hk he => exact .inl ⟨_, _, ht.1, hk, _, he, rfl⟩
      | tierCall hnot hminus h₀ he => exact .inr ⟨not_or.mpr ⟨hnot, hminus⟩, _, _, h₀, he⟩

/-- Operators of one tier with their operands. The parser stops where no such operator follows, and
    so do the rules. -/
theorem exact_operands {k : Nat} {operand : ParseM Expr}
    (hoperand : Exact g.rounds operand (reading (.tier k))) :
    ∀ n ≤ g.rounds, ∀ left, Exact n (operands (tierOperators k) (tierNode k) operand n left)
      (reading (.operands k left))
  | 0, _, _ => .exhausted
  | n + 1, hn, left => by
      have ih := exact_operands hoperand n (Nat.le_of_succ_le hn)
      refine .congr (.eatAny_bind (Nat.le_refl (n + 1)) (eof_notMem_tierOperators k)
        (fun op => (hoperand.mono (Nat.le_of_succ_le hn)).andThen fun right => ih _) (.pure _)) ?_
      intro l ts e rest _
      constructor
      · rintro (⟨op, mid, hop, hmem, right, mid', hright, h⟩ | ⟨hk, rfl, rfl⟩)
        · exact .operandsMore hop hmem hright h
        · exact .operandsEnd hk
      · intro h
        cases h with
        | operandsEnd hk => exact .inr ⟨hk, rfl, rfl⟩
        | operandsMore hop hmem hright h => exact .inl ⟨_, _, hop, hmem, _, _, hright, h⟩

/-- By induction on the tier: its operands are those of the tier below. -/
theorem exact_tierParser (hg : g.Exact) (k : Nat) :
    Exact (g.rounds + 1) (tierParser g k) (reading (.tier k)) := by
  induction k with
  | zero => exact exact_prefixed hg
  | succ k ih =>
      refine .congr (ih.andThen_succ (fun _ => rfl) fun left =>
        exact_operands (ih.mono (Nat.le_succ _)) g.rounds (Nat.le_refl _) left) ?_
      intro l ts e rest _
      constructor
      · rintro ⟨left, mid, hleft, h⟩
        exact .tierChain hleft h
      · intro h
        cases h with
        | tierChain hleft h => exact ⟨_, _, hleft, h⟩

/-- The end of an assignment: it has to have a target that can be assigned to. -/
theorem exact_assignment (d : Nat) (target value : Expr) (e : ParserError) :
    Exact d (match assignment? target value with
        | some a => (pure a : ParseM Expr)
        | none => raise e)
      (fun _ ts a rest => assignment? target value = some a ∧ rest = ts) := by
  cases assignment? target value with
  | none => exact (Exact.raise e).congr (by simp)
  | some a => exact (Exact.pure a).congr (by simp [eq_comm])

/-- An expression is one of the highest tier, with an assignment behind it if an equal sign
    follows. -/
theorem exact_expression (hg : g.Exact) :
    Exact (g.rounds + 1) (expression g) (reading .expression) := by
  have htier : Exact (g.rounds + 1) (disjunction g) (reading (.tier 7)) := exact_tierParser hg 7
  refine .congr (htier.andThen_succ (fun _ => rfl) fun target => .eat_bind (by decide) (fun t =>
    hg.expression.andThen fun value => exact_assignment _ target value _)
    (.pure _)) ?_
  intro l ts e rest _
  constructor
  · rintro ⟨target, mid, htarget, ⟨t, mid', ht, value, rest', hvalue, he, rfl⟩ | ⟨hk, rfl, rfl⟩⟩
    · exact .exprAssign htarget ht hvalue he
    · exact .exprTier htarget hk
  · intro h
    cases h with
    | exprTier htarget hk => exact ⟨_, _, htarget, .inr ⟨hk, rfl, rfl⟩⟩
    | exprAssign htarget ht hvalue he =>
        exact ⟨_, _, htarget, .inl ⟨_, _, ht, _, _, hvalue, he, rfl⟩⟩

/-! ## Parts of statements -/

theorem exact_letRest (hg : g.Exact) : Exact g.rounds (letRest g) (reading .binding) := by
  have he := (exact_expression hg).mono (Nat.le_succ _)
  refine .congr (.expect_bind fun name => .ifEat (by decide) (he.map _) (.pure _)) ?_
  intro l ts s rest _
  constructor
  · rintro ⟨name, mid, hname, ⟨t, mid', ht, e, he, rfl⟩ | ⟨hk, rfl, rfl⟩⟩
    · exact .binding hname ht he
    · exact .bindingBare hname hk
  · intro h
    cases h with
    | binding hname ht he => exact ⟨_, _, hname, .inl ⟨_, _, ht, _, he, rfl⟩⟩
    | bindingBare hname hk => exact ⟨_, _, hname, .inr ⟨hk, rfl, rfl⟩⟩

theorem exact_superClass : Exact g.rounds superClass (reading .superClass) := by
  refine .congr (.ifEat (by decide) (Exact.expect.map _) (.pure _)) ?_
  intro l ts name rest _
  constructor
  · rintro (⟨t, mid, ht, name, hname, rfl⟩ | ⟨hk, rfl, rfl⟩)
    · exact .superClass ht hname
    · exact .superClassNone hk
  · intro h
    cases h with
    | superClass ht hname => exact .inl ⟨_, _, ht, _, hname, rfl⟩
    | superClassNone hk => exact .inr ⟨hk, rfl, rfl⟩

/-- Members of a class up to its closing brace, where the mark in front decides which kind of method
    it is. -/
theorem exact_members (hg : g.Exact) : ∀ n ≤ g.rounds, Exact n (members g n) (reading .members)
  | 0, _ => .exhausted
  | n + 1, hn => by
      have ih := exact_members hg n (Nat.le_of_succ_le hn)
      have hnamed : Exact (n + 1) (namedFunction g) (reading .named) :=
        (exact_namedFunction hg).mono (Nat.le_succ_of_le hn)
      refine .congr (.ifNext (.pure _) (.ifEnd (.pure _) (.eat_bind (by decide)
        (fun _ => hnamed.andThen_succ (fun _ => rfl) fun f => ih.map _)
        (hnamed.andThen_succ (fun _ => rfl) fun f => ih.map _)))) ?_
      intro l ts ms rest _
      constructor
      · rintro (⟨hk, rfl, rfl⟩ | ⟨hbrace, ⟨rfl, rfl, rfl⟩ |
          ⟨hne, ⟨t, mid, ht, f, mid', hf, ms, hms, rfl⟩ | ⟨hk, f, mid, hf, ms, hms, rfl⟩⟩⟩)
        · exact .membersEnd hk
        · exact .membersMissing
        · exact .membersStatic ht hf hms
        · exact .membersMethod hbrace hne hk hf hms
      · intro h
        cases h with
        | membersEnd hk => exact .inl ⟨hk, rfl, rfl⟩
        | membersMissing => exact .inr ⟨by decide, .inl ⟨rfl, rfl, rfl⟩⟩
        | membersStatic ht hf hms =>
            refine .inr ⟨by rw [ht.nextKind]; decide, .inr ⟨?_, .inl ⟨_, _, ht, _, _, hf, _, hms, rfl⟩⟩⟩
            rintro rfl
            cases ht.1
        | membersMethod hbrace hne hk hf hms =>
            exact .inr ⟨hbrace, .inr ⟨hne, .inr ⟨hk, _, _, hf, _, hms, rfl⟩⟩⟩

/-- Name, superclass and members of a class, with both braces. -/
theorem exact_classText (hg : g.Exact) :
    Exact g.rounds (classText g) (reading fun (name, super, ms) => .classText name super ms) := by
  refine .congr (.expect_bind fun name => Exact.andThen exact_superClass
    fun super => .expect_bind fun _ =>
      (exact_members hg g.rounds (Nat.le_refl _)).andThen fun ms =>
        Exact.expect.map _) ?_
  rintro l ts ⟨name, super, ms⟩ rest _
  constructor
  · rintro ⟨name, t₁, hname, super, t₂, hsuper, opening, t₃, hopening, ms, t₄, hms, closing,
      hclosing, heq⟩
    cases heq
    exact .classText hname hsuper hopening hms hclosing
  · intro h
    cases h with
    | classText hname hsuper hopening hms hclosing =>
        exact ⟨_, _, hname, _, _, hsuper, _, _, hopening, _, _, hms, _, hclosing, rfl⟩

/-- Names with commas between them, each of which takes a token. -/
theorem exact_loopVariables : ∀ n, Exact n (loopVariables n) (reading .loopVariables)
  | 0 => .exhausted
  | n + 1 => by
      have ih := exact_loopVariables n
      refine .congr (.eat_bind_succ (by decide) (fun name => .eat_bind (by decide)
        (fun _ => ih.map _) (ih.map _)) (.pure _)) ?_
      intro l ts names rest _
      constructor
      · rintro (⟨name, mid, hname, ⟨comma, mid', hcomma, names, hnames, rfl⟩ |
          ⟨hk, names, hnames, rfl⟩⟩ | ⟨hk, rfl, rfl⟩)
        · exact .loopVariablesComma hname hcomma hnames
        · exact .loopVariablesMore hname hk hnames
        · exact .loopVariablesEnd hk
      · intro h
        cases h with
        | loopVariablesEnd hk => exact .inr ⟨hk, rfl, rfl⟩
        | loopVariablesMore hname hk hnames =>
            exact .inl ⟨_, _, hname, .inr ⟨hk, _, hnames, rfl⟩⟩
        | loopVariablesComma hname hcomma hnames =>
            exact .inl ⟨_, _, hname, .inl ⟨_, _, hcomma, _, hnames, rfl⟩⟩

/-- Branches as long as `elif` follows. -/
theorem exact_elifBranches (hg : g.Exact) :
    ∀ n ≤ g.rounds, Exact n (elifBranches g n) (reading .elifs)
  | 0, _ => .exhausted
  | n + 1, hn => by
      have ih := exact_elifBranches hg n (Nat.le_of_succ_le hn)
      have he := (exact_expression hg).mono (show n ≤ g.rounds + 1 by omega)
      have hb := (exact_bracedBlock hg).mono (show n ≤ g.rounds + 1 by omega)
      refine .congr (.ifEat_succ (by decide) (he.andThen fun c => hb.andThen fun ss => ih.map _)
        (.pure _)) ?_
      intro l ts bs rest _
      constructor
      · rintro (⟨t, t₁, ht, c, t₂, hc, ss, t₃, hss, bs, hbs, rfl⟩ | ⟨hk, rfl, rfl⟩)
        · exact .elifsMore ht hc hss hbs
        · exact .elifsEnd hk
      · intro h
        cases h with
        | elifsEnd hk => exact .inr ⟨hk, rfl, rfl⟩
        | elifsMore ht hc hss hbs =>
            exact .inl ⟨_, _, ht, _, _, hc, _, _, hss, _, hbs, rfl⟩

/-- A parser that reports has no success without a report. -/
theorem exact_missingInitializer (d : Nat) :
    Exact d (do
        report ⟨.expectedInit, ← lineHere⟩
        return none : ParseM (Option Stmt)) (fun _ _ _ _ => False) where
  moves := by
    intro c a c' hrun
    cases hrun
    exact ⟨c.rest, [⟨.expectedInit, c.line⟩], rfl⟩
  reads := by
    intro c a rest _ _
    refine ⟨?_, False.elim⟩
    intro hrun
    injection hrun with _ hc
    have := congrArg (List.length ∘ Cursor.reported) hc
    simp at this

/-- The initializer of a counting loop is a declaration or a lone semicolon. With anything else
    there is a report and so no success. -/
theorem exact_forInitializer (hg : g.Exact) :
    Exact g.rounds (forInitializer g) (reading .initializer) := by
  refine .congr (.ifEat (by decide) (.pure _) (.ifEat (by decide) ((exact_letRest hg).andThen
    fun s => Exact.expect.map _) (exact_missingInitializer _))) ?_
  intro l ts i rest _
  constructor
  · rintro (⟨t, mid, ht, rfl, rfl⟩ | ⟨_, ⟨t, mid, ht, s, mid', hs, semicolon, hsemicolon, rfl⟩ |
      ⟨_, h⟩⟩)
    · exact .initializerNone ht
    · exact .initializerLet ht hs hsemicolon
    · exact h.elim
  · intro h
    cases h with
    | initializerNone ht => exact .inl ⟨_, _, ht, rfl, rfl⟩
    | initializerLet ht hs hsemicolon =>
        exact .inr ⟨by rw [ht.nextKind]; decide, .inl ⟨_, _, ht, _, _, hs, _, hsemicolon, rfl⟩⟩

/-! ## Statements -/

/-- `return` stands alone at the end of a line, of a block or of the tokens. -/
theorem exact_returnRest (hg : g.Exact) (t : Token) :
    Exact g.rounds (returnRest g t) (fun l ts s rest =>
      (headKind ts).endsReturn = true ∧ s = .ret t none ∧ rest = ts
        ∨ ¬ (headKind ts).endsReturn = true ∧
          ∃ e, Reads l ts (.expression e) rest ∧ s = .ret t (some e)) := by
  refine .choose (P := fun ts => (headKind ts).endsReturn = true) (s := id)
    (fun _ => Nat.le_refl _) ?_ (.pure _) (((exact_expression hg).mono (Nat.le_succ _)).map _)
  intro c
  have hrun : (kindHere : ParseM TokenKind) c = .ok (headKind c.rest) c := rfl
  unfold returnRest
  show EStateM.bind (kindHere : ParseM TokenKind) _ c = _
  unfold EStateM.bind
  rw [hrun]
  generalize headKind c.rest = k
  cases k <;> rfl

/-- An exit outside of a loop is read like one inside, with a report. -/
theorem loopExit_eq (statement : Token → Stmt) (t : Token) (c : Cursor) :
    (loopExit statement t : ParseM Stmt) c =
      if c.stack.insideLoop = true then .ok (statement t) c
      else .ok (statement t) { c with reported := c.reported ++ [⟨.onlyInsideLoop, t.line⟩] } := by
  show (if (!c.stack.insideLoop) = true then _ else _ : ParseM Stmt) c = _
  cases c.stack.insideLoop <;> rfl

/-- An exit is read without a report only inside of a loop, which the rules express by the flag
    `l`. -/
theorem exact_loopExit (d : Nat) (statement : Token → Stmt) (t : Token) :
    Exact d (loopExit statement t) (fun l ts s rest => l = true ∧ s = statement t ∧ rest = ts)
    where
  moves := by
    intro c s c' hrun
    rw [loopExit_eq] at hrun
    split at hrun
    · cases hrun
      exact ⟨c.rest, [], by simp⟩
    · cases hrun
      exact ⟨c.rest, _, rfl⟩
  reads := by
    intro c s rest _ _
    rw [loopExit_eq]
    split
    · rename_i hl
      simp only [hl, true_and]
      constructor
      · intro hrun
        injection hrun with hs hc
        exact ⟨hs.symm, (congrArg Cursor.rest hc).symm⟩
      · rintro ⟨rfl, rfl⟩
        rfl
    · rename_i hl
      refine ⟨?_, fun h => absurd h.1 hl⟩
      intro hrun
      injection hrun with _ hc
      -- A run that reads something reports nothing, and here there is a report.
      have := congrArg (List.length ∘ Cursor.reported) hc
      simp at this

/-- Kind by kind, what the parser of a statement does behind its first token. -/
theorem exact_statementAfter (hg : g.Exact) {t : Token} {p : ParseM Stmt}
    (hp : statementAfter g t = some p) : Exact g.rounds p (statementReading t) := by
  have he := (exact_expression hg).mono (Nat.le_succ _)
  have hb := (exact_bracedBlock hg).mono (Nat.le_succ _)
  unfold statementAfter at hp
  split at hp
  case h_12 => cases hp
  all_goals
    cases hp
    rename_i hk
    unfold statementReading
    simp only [hk]
  case h_1 => exact (exact_classText hg).map _
  case h_2 => exact ((exact_namedFunction hg).mono (Nat.le_succ _)).map _
  case h_3 => exact exact_letRest hg
  case h_4 =>
    refine .congr (.inLoop (.ifNext
      ((exact_loopVariables g.rounds).andThen fun names =>
        .expect_bind fun _ => he.andThen fun e =>
          hg.declaration.map _)
      ((exact_forInitializer hg).andThen fun i => he.andThen
        fun c => .expect_bind fun _ => he.andThen fun e =>
          hg.declaration.map _))) fun _ => Iff.rfl
  case h_5 =>
    exact hg.declaration.andThen fun body => .expect_bind fun _ =>
      .expect_bind fun name => hg.declaration.map _
  case h_6 =>
    exact he.andThen fun c => hb.andThen fun ss =>
      (exact_elifBranches hg g.rounds (Nat.le_refl _)).andThen fun bs =>
        .ifEat (by decide) (hb.map _) (.pure _)
  case h_7 => exact exact_returnRest hg t
  case h_8 => exact exact_loopExit _ _ t
  case h_9 => exact exact_loopExit _ _ t
  case h_10 =>
    exact .inLoop (he.andThen fun c => hg.declaration.map _)
  case h_11 => exact (exact_block hg).map _

theorem statementAfter_isSome (g : Level ParseM) (t : Token) :
    (statementAfter g t).isSome = t.kind.opensStatement := by
  unfold statementAfter TokenKind.opensStatement
  split <;> simp_all

/-- The rules for statements, told apart by the first token. -/
theorem reads_statement_iff {l : Bool} {ts rest : List Token} {s : Stmt} :
    Reads l ts (.statement s) rest ↔
      (∃ t mid, afterFeeds ts = t :: mid ∧ t.kind.opensStatement = true
          ∧ statementReading t l mid s rest)
        ∨ (nextKind ts).opensStatement = false ∧
          ∃ e, Reads l ts (.expression e) rest ∧ s = .expr e := by
  constructor
  · intro h
    unfold statementReading
    cases h with
    | exprStmt hk he => exact .inr ⟨hk, _, he, rfl⟩
    | classStmt ht h =>
        refine .inl ⟨_, _, ht.1, by rw [ht.2]; rfl, ?_⟩
        simp only [ht.2]
        exact ⟨(_, _, _), h, rfl⟩
    | functionStmt ht h =>
        refine .inl ⟨_, _, ht.1, by rw [ht.2]; rfl, ?_⟩
        simp only [ht.2]
        exact ⟨_, h, rfl⟩
    | letStmt ht h =>
        refine .inl ⟨_, _, ht.1, by rw [ht.2]; rfl, ?_⟩
        simp only [ht.2]
        exact h
    | forInStmt ht hk hnames hin he hs =>
        refine .inl ⟨_, _, ht.1, by rw [ht.2]; rfl, ?_⟩
        simp only [ht.2]
        exact .inl ⟨hk, _, _, hnames, _, _, hin, _, _, he, _, hs, rfl⟩
    | forStmt ht hk hi hc hsemicolon he hs =>
        refine .inl ⟨_, _, ht.1, by rw [ht.2]; rfl, ?_⟩
        simp only [ht.2]
        exact .inr ⟨hk, _, _, hi, _, _, hc, _, _, hsemicolon, _, _, he, _, hs, rfl⟩
    | tryStmt ht hbody hcatch hname hhandler =>
        refine .inl ⟨_, _, ht.1, by rw [ht.2]; rfl, ?_⟩
        simp only [ht.2]
        exact ⟨_, _, hbody, _, _, hcatch, _, _, hname, _, hhandler, rfl⟩
    | ifStmt ht hc hss hbs hk =>
        refine .inl ⟨_, _, ht.1, by rw [ht.2]; rfl, ?_⟩
        simp only [ht.2]
        exact ⟨_, _, hc, _, _, hss, _, _, hbs, .inr ⟨hk, rfl, rfl⟩⟩
    | ifElseStmt ht hc hss hbs helse hss' =>
        refine .inl ⟨_, _, ht.1, by rw [ht.2]; rfl, ?_⟩
        simp only [ht.2]
        exact ⟨_, _, hc, _, _, hss, _, _, hbs, .inl ⟨_, _, helse, _, hss', rfl⟩⟩
    | returnStmt ht hk =>
        exact .inl ⟨_, _, ht.1, by rw [ht.2]; rfl, by simp [ht.2, hk]⟩
    | returnValueStmt ht hk he =>
        refine .inl ⟨_, _, ht.1, by rw [ht.2]; rfl, ?_⟩
        simp only [ht.2]
        exact .inr ⟨by rw [hk]; decide, _, he, rfl⟩
    | breakStmt ht =>
        exact .inl ⟨_, _, ht.1, by rw [ht.2]; rfl, by simp [ht.2]⟩
    | continueStmt ht =>
        exact .inl ⟨_, _, ht.1, by rw [ht.2]; rfl, by simp [ht.2]⟩
    | whileStmt ht hc hs =>
        refine .inl ⟨_, _, ht.1, by rw [ht.2]; rfl, ?_⟩
        simp only [ht.2]
        exact ⟨_, _, hc, _, hs, rfl⟩
    | blockStmt ht hss =>
        refine .inl ⟨_, _, ht.1, by rw [ht.2]; rfl, ?_⟩
        simp only [ht.2]
        exact ⟨_, hss, rfl⟩
  · rintro (⟨t, mid, hfeeds, _, h⟩ | ⟨hk, e, he, rfl⟩)
    · unfold statementReading at h
      split at h
      all_goals rename_i hk
      · obtain ⟨⟨name, super, ms⟩, h, rfl⟩ := h
        exact .classStmt ⟨hfeeds, hk⟩ h
      · obtain ⟨f, h, rfl⟩ := h
        exact .functionStmt ⟨hfeeds, hk⟩ h
      · exact .letStmt ⟨hfeeds, hk⟩ h
      · obtain ⟨hident, names, t₂, hnames, keyword, t₃, hin, e, t₄, he, body, hbody, rfl⟩ |
          ⟨hident, i, t₂, hi, c, t₃, hc, semicolon, t₄, hsemicolon, e, t₅, he, body, hbody, rfl⟩ := h
        · exact .forInStmt ⟨hfeeds, hk⟩ hident hnames hin he hbody
        · exact .forStmt ⟨hfeeds, hk⟩ hident hi hc hsemicolon he hbody
      · obtain ⟨body, t₂, hbody, keyword, t₃, hcatch, name, t₄, hname, handler, hhandler, rfl⟩ := h
        exact .tryStmt ⟨hfeeds, hk⟩ hbody hcatch hname hhandler
      · obtain ⟨c, t₂, hc, ss, t₃, hss, bs, t₄, hbs, ⟨keyword, t₅, helse, ss', hss', rfl⟩ |
          ⟨helse, rfl, rfl⟩⟩ := h
        · exact .ifElseStmt ⟨hfeeds, hk⟩ hc hss hbs helse hss'
        · exact .ifStmt ⟨hfeeds, hk⟩ hc hss hbs helse
      · obtain ⟨hend, rfl, rfl⟩ | ⟨hend, e, he, rfl⟩ := h
        · exact .returnStmt ⟨hfeeds, hk⟩ hend
        · exact .returnValueStmt ⟨hfeeds, hk⟩ (by simpa using hend) he
      · obtain ⟨rfl, rfl, rfl⟩ := h
        exact .breakStmt ⟨hfeeds, hk⟩
      · obtain ⟨rfl, rfl, rfl⟩ := h
        exact .continueStmt ⟨hfeeds, hk⟩
      · obtain ⟨c, mid', hc, body, hbody, rfl⟩ := h
        exact .whileStmt ⟨hfeeds, hk⟩ hc hbody
      · obtain ⟨ss, hss, rfl⟩ := h
        exact .blockStmt ⟨hfeeds, hk⟩ hss
      · exact h.elim
    · exact .exprStmt hk he

/-- A statement begins with one of the keywords or is an expression, and the parser and the rules
    agree on which. -/
theorem exact_declaration (hg : g.Exact) :
    Exact (g.rounds + 1) (declaration g) (reading .statement) := by
  refine .congr (.dispatch (Nat.le_refl _) (fun t p hp => exact_statementAfter hg hp)
    ((exact_expression hg).map _)) ?_
  intro l ts s rest _
  have hnone : (∀ t mid, afterFeeds ts = t :: mid → statementAfter g t = none)
      ↔ (nextKind ts).opensStatement = false := by
    rw [← forall_next (Q := fun k => k.opensStatement = false) rfl]
    simp [← statementAfter_isSome g]
  simp only [hnone, statementAfter_isSome]
  exact Iff.symm reads_statement_iff

end Grammar

/-! ## The levels -/

theorem Level.exact_bottom : (Level.bottom : Level ParseM).Exact :=
  ⟨.exhausted, .exhausted, .exhausted⟩

theorem Level.Exact.above {g : Level ParseM} (hg : g.Exact) : g.above.Exact :=
  ⟨Grammar.exact_expression hg, Grammar.exact_prefixed hg, Grammar.exact_declaration hg⟩

/-- By induction on the depth: what a level reads has one token more than what the level below reads
    for it. -/
theorem Level.exact_ofDepth (n : Nat) : (Level.ofDepth n).Exact := by
  induction n with
  | zero => exact Level.exact_bottom
  | succ n ih => exact Level.Exact.above ih

/-- At the top a statement has to be followed by a line feed, which is taken with it. -/
theorem Grammar.exact_topDeclaration {g : Level ParseM} (hg : g.Exact) :
    Exact (g.rounds + 1) (topDeclaration g) (fun l ts s rest =>
      ∃ feed, Reads l ts (.statement s) (feed :: rest) ∧ feed.kind = .newline) := by
  refine .congr ((Grammar.exact_declaration hg).andThen fun s => .expectNewline_bind (.pure _)) ?_
  intro l ts s rest _
  constructor
  · rintro ⟨s, mid, hs, feed, mid', rfl, hfeed, rfl, rfl⟩
    exact ⟨feed, hs, hfeed⟩
  · rintro ⟨feed, hs, hfeed⟩
    exact ⟨_, _, hs, feed, _, rfl, hfeed, rfl, rfl⟩

end Script
