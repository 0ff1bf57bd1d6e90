import Script.Proofs.Printer.Rereading

/-!
# `Proofs.Printer.Statements` — printed statements are read back

As `Proofs.Printer.Rereading` for functions, statements and classes, and from all of them the
induction over whole trees (`Expr.rereads`, `Stmt.rereads`). A statement is followed by a line feed
in most places; what it asks of the tokens behind it is said by `Stmt.Ends`.
-/

namespace Script

section Statements

attribute [local simp] Expr.map Expr.groupOperands mapAccess? Access.map map? FunctionDecl.map
  FunctionBody.map Stmt.map mapStmt? mapLines mapElifs mapElse ClassDecl.map mapMethods

/-! ## Functions -/

/-- Printed parameters are read back one by one. The count goes along, since the rules have the
    bound on parameters in them. -/
theorem reads_parameters {l : Bool} {rest : List Token} (hrest : nextKind rest ≠ .comma) :
    ∀ {ps : List Token}, (∀ t ∈ ps, t.isName = true) → ps ≠ [] → ∀ {n : Nat} {us : List Token},
      n + ps.length ≤ maxParameters → Spelled us (wordsNames .printed ps) →
      ∃ ps', ps'.map Token.unlined = ps.map Token.unlined
        ∧ Reads l (us ++ rest) (.parameters n ps') rest
  | [], _, hne, _, _, _, _ => absurd rfl hne
  | [name], hps, _, n, us, hn, hus => by
    obtain ⟨t, rfl, ht, hword⟩ := hus.last
    obtain ⟨heats, hunlined⟩ := eats_name ht hword (hps _ List.mem_cons_self) rest
    exact ⟨[t], by simp [hunlined], .parametersLast hn heats hrest⟩
  | name :: name' :: ps, hps, _, n, us, hn, hus => by
    obtain ⟨t, _, rfl, ht, hword, hbehind⟩ := hus.cons
    obtain ⟨comma, us, rfl, -, hcomma, hbehind⟩ := hbehind.cons
    simp only [List.length_cons] at hn
    obtain ⟨heats, hunlined⟩ := eats_name ht hword (hps _ List.mem_cons_self)
      (comma :: (us ++ rest))
    obtain ⟨ps', hps', hreads⟩ := reads_parameters hrest (n := n + 1)
      (fun t ht => hps t (List.mem_cons_of_mem _ ht)) nofun (by simp only [List.length_cons]; omega)
      hbehind
    refine ⟨t :: ps', by simpa [hunlined] using hps', ?_⟩
    exact .parametersMore (by omega) heats (eats_mark hcomma (by decide) _) hreads

theorem opens_wordsNames {name : Token} (hname : name.isName = true) (names : List Token) :
    Opens TokenKind.opensExpression (wordsNames .printed (name :: names)) .identifier := by
  have hkind : name.kind = .identifier := beq_iff_eq.mp hname
  cases names with
  | nil => exact ⟨name.word, _, rfl, by simp [hkind, TokenKind.opensExpression], by simp [hkind]⟩
  | cons name' names =>
      exact ⟨name.word, _, rfl, by simp [hkind, TokenKind.opensExpression], by simp [hkind]⟩

/-- The parameters with their closing parenthesis, where there may be none at all. -/
theorem reads_parameterList {l : Bool} {t : Token} (ht : t.kind = .rightParen)
    {us rest : List Token} {ps : List Token} (hps : ∀ t ∈ ps, t.isName = true)
    (hcount : ps.length ≤ maxParameters) (hus : Spelled us (wordsNames .printed ps)) :
    ∃ ps', ps'.map Token.unlined = ps.map Token.unlined
      ∧ Reads l (us ++ t :: rest) (.parameterList ps') (t :: rest) := by
  have heats := eats_of_kind ht (by decide) rest
  cases ps with
  | nil =>
      obtain rfl := hus.eq_nil
      have hnone := Reads.parameterListNone (l := l) heats.nextKind
      rw [heats.1] at hnone
      exact ⟨[], rfl, hnone⟩
  | cons name ps =>
      obtain ⟨ps', hps', hreads⟩ := reads_parameters (l := l) (n := 0)
        (by rw [heats.nextKind]; decide) hps nofun (by simpa using hcount) hus
      refine ⟨ps', hps', .parameterList ?_ hreads⟩
      exact hus.nextKind_ne (opens_wordsNames (hps name List.mem_cons_self) ps) .rightParen rfl _

/-- Tokens that spell what a printed function does are read as that. -/
def FunctionBody.Rereads (b : FunctionBody) : Prop :=
  ∀ {us rest : List Token}, Spelled us ((b.map id Expr.groupOperands).words .printed) →
    (∀ e, b = .expression e → (nextKind rest).absorbed = false) →
    ∃ b' : FunctionBody,
      b'.map Token.unlined id = (b.map id Expr.groupOperands).map Token.unlined id
        ∧ Reads false (us ++ rest) (.body b') rest

/-- A function from its parameters on. -/
theorem reads_function {ps : List Token} {b : FunctionBody} (hb : b.Rereads)
    (hps : ∀ t ∈ ps, t.isName = true) (hcount : ps.length ≤ maxParameters) {us rest : List Token}
    (hus : Spelled us (.mark .leftParen :: (wordsNames .printed ps ++
      .mark .rightParen :: (b.map id Expr.groupOperands).words .printed)))
    (hrest : ∀ e, b = .expression e → (nextKind rest).absorbed = false) :
    ∃ ps' b', ps'.map Token.unlined = ps.map Token.unlined
      ∧ b'.map Token.unlined id = (b.map id Expr.groupOperands).map Token.unlined id
      ∧ ∀ name, Reads false (us ++ rest) (.function ⟨name, ps', b'⟩) rest := by
  obtain ⟨t, _, rfl, -, ht, hbehind⟩ := hus.cons
  obtain ⟨us, _, rfl, hfront, hbehind⟩ := hbehind.append
  obtain ⟨t', us', rfl, -, ht', hbehind⟩ := hbehind.cons
  have hclosing := eats_mark ht' (by decide) (us' ++ rest)
  obtain ⟨ps', hps', hreads⟩ := reads_parameterList (l := false) hclosing.2 hps hcount hfront
  obtain ⟨b', hb', hreads'⟩ := hb hbehind hrest
  refine ⟨ps', b', hps', hb', fun name => ?_⟩
  simpa using Reads.function (eats_mark ht (by decide) _) hreads hclosing hreads'

/-- Tokens that spell a printed function are read as the function. -/
structure FunctionDecl.Rereads (d : FunctionDecl) : Prop where
  named {l : Bool} {us rest : List Token} : d.name.isSome = true →
    Spelled us ((d.map id Expr.groupOperands).words .printed) →
    (d.isBrief = true → (nextKind rest).absorbed = false) →
    ∃ d' : FunctionDecl, d'.map Token.unlined id = (d.map id Expr.groupOperands).map Token.unlined id
      ∧ Reads l (us ++ rest) (.named d') rest
  unnamed {us rest : List Token} : d.name = none →
    Spelled us ((d.map id Expr.groupOperands).words .printed) →
    (d.isBrief = true → (nextKind rest).absorbed = false) →
    ∃ d' : FunctionDecl, d'.map Token.unlined id = (d.map id Expr.groupOperands).map Token.unlined id
      ∧ d'.name = none ∧ Reads false (us ++ rest) (.function d') rest

/-- A function is read back if its body is: parameters and parentheses are always printed. -/
theorem FunctionDecl.Rereads.of_body {d : FunctionDecl} (hd : d.Formed) (hb : d.body.Rereads) :
    d.Rereads := by
  obtain ⟨name, ps, b⟩ := d
  obtain ⟨hname, hps, hcount, -⟩ := hd
  have hends : ∀ {rest : List Token}, (FunctionDecl.isBrief ⟨name, ps, b⟩ = true →
      (nextKind rest).absorbed = false) → ∀ e, b = .expression e →
      (nextKind rest).absorbed = false := by
    rintro rest hrest e rfl
    exact hrest rfl
  refine ⟨fun {l us rest} hsome hus hrest => ?_, fun {us rest} hnone hus hrest => ?_⟩
  · obtain ⟨token, rfl⟩ := Option.isSome_iff_exists.mp hsome
    simp only [FunctionDecl.map, FunctionDecl.words, List.map_id, Option.map_some] at hus
    obtain ⟨t, us, rfl, ht, hword, hbehind⟩ := hus.cons
    obtain ⟨ps', b', hps', hb', hreads⟩ := reads_function hb hps hcount hbehind (hends hrest)
    obtain ⟨heats, hunlined⟩ := eats_name ht hword (hname token rfl) (us ++ rest)
    refine ⟨⟨some t, ps', b'⟩, ?_, .named heats rfl (hreads (some t))⟩
    simp only [FunctionDecl.map, Option.map_some, hunlined, List.map_id, hps', hb', id]
  · obtain rfl : name = none := hnone
    simp only [FunctionDecl.map, FunctionDecl.words, List.map_id, Option.map_none] at hus
    obtain ⟨ps', b', hps', hb', hreads⟩ := reads_function hb hps hcount hus (hends hrest)
    refine ⟨⟨none, ps', b'⟩, ?_, rfl, hreads none⟩
    simp only [FunctionDecl.map, Option.map_none, List.map_id, hps', hb']

theorem Rereads.function {d : FunctionDecl} (hd : d.Rereads) (hname : d.name = none) :
    Rereads (.function d) := by
  refine of_primary (opens_cons rfl _) fun {l us rest} hus hopen => ?_
  obtain ⟨t, us, rfl, -, ht, hbehind⟩ := hus.cons
  obtain ⟨d', hd', hname', hreads⟩ := hd.unnamed hname hbehind hopen
  exact ⟨.function d', by simp [hd'], .primaryFunction (eats_mark ht (by decide) _) hname' hreads⟩

/-! ## What follows a statement -/

/-- Kinds of tokens that go on with a statement which could end before them. -/
def TokenKind.continuesStatement : TokenKind → Bool
  | equal | kwElif | kwElse => true
  | _ => false

/-- The tokens do not go on with the statement in front of them. -/
structure Stmt.Ends (s : Stmt) (rest : List Token) : Prop where
  fresh : (nextKind rest).continuesStatement = false
  closed : s.endsOpen = true → (nextKind rest).absorbed = false
  bare : s.endsBare = true → (headKind rest).endsReturn = true

/-- Tokens that spell the printed statement are read as the statement, inside a loop if `l`. -/
structure Stmt.Rereads (l : Bool) (s : Stmt) : Prop where
  opens : Opens TokenKind.opensLine (s.grouped.words .printed) s.grouped.firstKind
  statement {us rest : List Token} : Spelled us (s.grouped.words .printed) → s.Ends rest →
    ∃ s' : Stmt, s'.map Token.unlined id = s.grouped.map Token.unlined id
      ∧ Reads l (us ++ rest) (.statement s') rest

theorem fresh_of_opensLine {kind : TokenKind} (h : kind.opensLine = true) :
    kind.continuesStatement = false := by
  cases kind <;> first | rfl | cases h

/-- Groupings do not change how a statement ends. -/
theorem Stmt.endsOpen_map {f : Token → Token} {g : Expr → Expr} :
    ∀ s : Stmt, (s.map f g).endsOpen = s.endsOpen
  | .expr _ => rfl
  | .tryCatch _ _ handler => handler.endsOpen_map
  | .forLoop _ _ _ _ body => body.endsOpen_map
  | .forIn _ _ _ body => body.endsOpen_map
  | .declare _ initializer => by cases initializer <;> rfl
  | .block _ => rfl
  | .whileLoop _ _ body => body.endsOpen_map
  | .ret _ value => by cases value <;> rfl
  | .breakLoop _ => rfl
  | .continueLoop _ => rfl
  | .ifElse _ _ _ _ _ => rfl
  | .function ⟨_, _, .block _⟩ => rfl
  | .function ⟨_, _, .expression _⟩ => rfl
  | .cls _ => rfl

/-- What is said of neighbouring lines is said of those behind the first one too. -/
theorem settledLines_tail {s : Stmt} {ss : List Stmt} (h : SettledLines (s :: ss)) :
    SettledLines ss := by
  cases ss with
  | nil => trivial
  | cons s' ss => exact h.2

/-- A statement on a line of its own ends with the line: the next line begins with another
    statement, or ends the block. -/
theorem Stmt.Ends.line {l : Bool} {s : Stmt} {ss : List Stmt} (hss : ∀ s ∈ ss, s.Rereads l)
    (hsettled : SettledLines (mapLines id Expr.groupOperands (s :: ss))) {feed : Token}
    (hfeed : feed.kind = .newline) {us : List Token}
    (hus : Spelled us (wordsLines .printed (mapLines id Expr.groupOperands ss))) (tail : List Token)
    (htail : nextKind tail = .rightBrace ∨ nextKind tail = .eof) :
    s.Ends (feed :: (us ++ tail)) := by
  have hnext : nextKind (feed :: (us ++ tail)) = nextKind (us ++ tail) := nextKind_newline hfeed
  have hbare : (headKind (feed :: (us ++ tail))).endsReturn = true := by
    simp [headKind, hfeed, TokenKind.endsReturn]
  cases ss with
  | nil =>
      obtain rfl := hus.eq_nil
      refine ⟨?_, fun _ => ?_, fun _ => hbare⟩
      · rw [hnext]
        obtain htail | htail := htail <;> simp [htail, TokenKind.continuesStatement]
      · rw [hnext]
        obtain htail | htail := htail <;> simp [htail, TokenKind.absorbed]
  | cons s' ss =>
      have hopens := ((hss s' List.mem_cons_self).opens).append
        (Style.printed.feed ++ wordsLines .printed (mapLines id Expr.groupOperands ss))
      obtain ⟨hfirst, -, hlead, -⟩ := hus.opens hopens rfl tail
      refine ⟨?_, fun hopen => ?_, fun _ => hbare⟩
      · rw [hnext]
        exact fresh_of_opensLine hfirst
      · -- Line feeds are passed over, so an open end would reach for the first token of `s'`.
        rw [hnext, ← absorbed_lead, hlead, absorbed_lead]
        exact hsettled.1 (by rwa [Stmt.endsOpen_map])

/-! ## Blocks and programs -/

/-- A line feed in front of a block is not a part of it. -/
theorem Reads.block_newline {l : Bool} {t : Token} {ts rest : List Token} {ss : List Stmt}
    (ht : t.kind = .newline) (h : Reads l ts (.block ss) rest) :
    Reads l (t :: ts) (.block ss) rest := by
  cases h with
  | blockEnd hclosing => exact .blockEnd ⟨(afterFeeds_newline ht).trans hclosing.1, hclosing.2⟩
  | blockMore hnext hfeeds hs hss =>
      rw [← nextKind_newline ht] at hnext
      rw [← afterFeeds_newline ht] at hfeeds hs
      exact .blockMore hnext hfeeds hs hss

/-- The statements of a block are read back, each with its line feed, up to the closing brace.
    Neighbouring lines must not run into each other, which is `SettledLines`. -/
theorem reads_block {l : Bool} {t : Token} (ht : t.kind = .rightBrace) {rest : List Token} :
    ∀ {ss : List Stmt}, (∀ s ∈ ss, s.Rereads l) →
      SettledLines (mapLines id Expr.groupOperands ss) → ∀ {us : List Token},
      Spelled us (wordsLines .printed (mapLines id Expr.groupOperands ss)) →
      ∃ ss', mapLines Token.unlined id ss'
          = mapLines Token.unlined id (mapLines id Expr.groupOperands ss)
        ∧ Reads l (us ++ t :: rest) (.block ss') rest
  | [], _, _, us, hus => by
    obtain rfl := hus.eq_nil
    exact ⟨[], rfl, .blockEnd (eats_of_kind ht (by decide) rest)⟩
  | s :: ss, hss, hsettled, us, hus => by
    obtain ⟨us, _, rfl, hfront, hbehind⟩ := hus.append
    obtain ⟨feed, us', rfl, -, hfeed, hbehind⟩ := hbehind.cons
    have hkind : feed.kind = .newline := congrArg Word.kind hfeed
    have htail : ∀ s ∈ ss, s.Rereads l := fun s hs => hss s (List.mem_cons_of_mem _ hs)
    have hs := hss s List.mem_cons_self
    have hends := Stmt.Ends.line htail hsettled hkind hbehind (t :: rest)
      (.inl (eats_of_kind ht (by decide) rest).nextKind)
    obtain ⟨s', hs', hreads⟩ := hs.statement hfront hends
    obtain ⟨ss', hss', hreads'⟩ := reads_block ht htail (settledLines_tail hsettled) hbehind
    obtain ⟨hnext, -, -, hfeeds, -⟩ := hfront.opens hs.opens rfl (feed :: (us' ++ t :: rest))
    refine ⟨s' :: ss', by simp only [mapLines, hs', hss'], ?_⟩
    rw [List.append_assoc, List.cons_append]
    rw [← hfeeds] at hreads
    refine .blockMore ?_ ?_ hreads (hreads'.block_newline hkind)
    · intro hbrace
      rw [hbrace] at hnext
      cases hnext
    · rw [hfeeds]
      simp

/-- A block with its braces. -/
theorem reads_braces {l : Bool} {ss : List Stmt} (hss : ∀ s ∈ ss, s.Rereads l)
    (hsettled : SettledLines (mapLines id Expr.groupOperands ss)) {us : List Token}
    (hus : Spelled us
      (wordsBraced .printed (wordsLines .printed (mapLines id Expr.groupOperands ss))))
    (rest : List Token) :
    ∃ ss' t mid, mapLines Token.unlined id ss'
        = mapLines Token.unlined id (mapLines id Expr.groupOperands ss)
      ∧ Eats .leftBrace (us ++ rest) t mid ∧ Reads l mid (.block ss') rest := by
  simp only [wordsBraced, Style.printed_feed, List.cons_append, List.nil_append] at hus
  obtain ⟨t, _, rfl, -, ht, hbehind⟩ := hus.cons
  obtain ⟨feed, _, rfl, -, hfeed, hbehind⟩ := hbehind.cons
  obtain ⟨us, _, rfl, hlines, hlast⟩ := hbehind.append
  obtain ⟨t', rfl, -, ht'⟩ := hlast.last
  obtain ⟨ss', hss', hreads⟩ := reads_block (congrArg Word.kind ht') hss hsettled hlines
  refine ⟨ss', t, feed :: (us ++ t' :: rest), hss', ?_, ?_⟩
  · simpa using eats_mark ht (by decide) (feed :: (us ++ t' :: rest))
  · exact hreads.block_newline (congrArg Word.kind hfeed)

/-- The same for a program, which ends with its tokens instead of a brace. -/
theorem reads_program : ∀ {ss : List Stmt}, (∀ s ∈ ss, s.Rereads false) →
    SettledLines (mapLines id Expr.groupOperands ss) → ∀ {us : List Token},
    Spelled us (wordsLines .printed (mapLines id Expr.groupOperands ss)) →
    ∃ ss', mapLines Token.unlined id ss'
        = mapLines Token.unlined id (mapLines id Expr.groupOperands ss)
      ∧ Reads false us (.program ss') []
  | [], _, _, us, hus => by
    obtain rfl := hus.eq_nil
    exact ⟨[], rfl, .programEnd rfl⟩
  | s :: ss, hss, hsettled, us, hus => by
    obtain ⟨us, _, rfl, hfront, hbehind⟩ := hus.append
    obtain ⟨feed, us', rfl, -, hfeed, hbehind⟩ := hbehind.cons
    have hkind : feed.kind = .newline := congrArg Word.kind hfeed
    have htail : ∀ s ∈ ss, s.Rereads false := fun s hs => hss s (List.mem_cons_of_mem _ hs)
    have hs := hss s List.mem_cons_self
    have hends := Stmt.Ends.line htail hsettled hkind hbehind [] (.inr rfl)
    rw [List.append_nil] at hends
    obtain ⟨s', hs', hreads⟩ := hs.statement hfront hends
    obtain ⟨ss', hss', hreads'⟩ := reads_program htail (settledLines_tail hsettled) hbehind
    obtain ⟨-, -, -, hfeeds, hne⟩ := hfront.opens hs.opens rfl (feed :: us')
    refine ⟨s' :: ss', by simp only [mapLines, hs', hss'], ?_⟩
    rw [← hfeeds] at hreads
    refine .programMore ?_ hreads hkind hreads'
    rw [hfeeds]
    simp

/-! ## Statements -/

theorem opens_keyword {keyword : Token} {kind : TokenKind} (hkeyword : keyword.kind = kind)
    (hkind : kind.opensLine = true) (ws : List Word) :
    Opens TokenKind.opensLine (keyword.word :: ws) keyword.kind := by
  subst hkeyword
  exact opens_cons hkind ws

/-- An expression as a statement. Its first word must not be one that begins another kind of
    statement. -/
theorem Stmt.Rereads.expr {l : Bool} {e : Expr} (h : Script.Rereads e)
    (hopens : e.grouped.firstKind.opensStatement = false) : (Stmt.expr e).Rereads l := by
  refine ⟨h.opens.line, fun {us rest} hus hends => ?_⟩
  obtain ⟨e', he, hreads⟩ := h.expression (l := l) hus (hends.closed rfl)
  refine ⟨.expr e', by simp [he], .exprStmt ?_ hreads⟩
  have hlead := (hus.opens h.opens rfl rest).2.2.1
  rw [← opensStatement_lead, hlead, opensStatement_lead]
  exact hopens

/-- The body of `try` is printed without a line feed behind it, so it must not end with a bare
    `return`, which would take in `catch`. -/
theorem Stmt.Rereads.tryCatch {l : Bool} {body handler : Stmt} {name : Token}
    (hbody : body.Rereads l) (hhandler : handler.Rereads l) (hname : name.isName = true)
    (hbare : body.endsBare = false) : (Stmt.tryCatch body name handler).Rereads l := by
  refine ⟨opens_cons rfl _, fun {us rest} hus hends => ?_⟩
  obtain ⟨t, _, rfl, -, ht, hbehind⟩ := hus.cons
  obtain ⟨us, _, rfl, hfront, hbehind⟩ := hbehind.append
  obtain ⟨t', _, rfl, -, ht', hbehind⟩ := hbehind.cons
  obtain ⟨name', us', rfl, hgenuine, hword, hbehind⟩ := hbehind.cons
  have hcatch := eats_mark ht' (by decide) (name' :: (us' ++ rest))
  -- `catch` would be read as the value of a `return` without one.
  have hbodyEnds : body.Ends (t' :: name' :: (us' ++ rest)) := by
    refine ⟨by rw [hcatch.nextKind]; rfl, fun _ => hcatch.not_absorbed rfl, fun h => ?_⟩
    rw [hbare] at h
    cases h
  obtain ⟨body', hbody', hreads⟩ := hbody.statement hfront hbodyEnds
  obtain ⟨handler', hhandler', hreads'⟩ :=
    hhandler.statement hbehind ⟨hends.fresh, hends.closed, hends.bare⟩
  obtain ⟨heats, hunlined⟩ := eats_name hgenuine hword hname (us' ++ rest)
  refine ⟨.tryCatch body' name' handler', by simp [hbody', hunlined, hhandler'], ?_⟩
  simpa using Reads.tryStmt (eats_mark ht (by decide) _) hreads hcatch heats hreads'

/-- A declaration after `let`. -/
theorem reads_binding {name : Token} {initializer : Option Expr} (hname : name.isName = true)
    (h : ∀ e ∈ initializer, Script.Rereads e) {l : Bool} {us rest : List Token}
    (hus : Spelled us ((Stmt.declare name initializer).grouped.words .printed))
    (hequal : nextKind rest ≠ .equal)
    (hrest : initializer.isSome = true → (nextKind rest).absorbed = false) :
    ∃ t mid s', Stmt.map Token.unlined id s'
        = (Stmt.declare name initializer).grouped.map Token.unlined id
      ∧ Eats .kwLet (us ++ rest) t mid ∧ Reads l mid (.binding s') rest := by
  cases initializer with
  | none =>
      obtain ⟨t, _, rfl, -, ht, hbehind⟩ := hus.cons
      obtain ⟨t', rfl, hgenuine, hword⟩ := hbehind.last
      obtain ⟨heats, hunlined⟩ := eats_name hgenuine hword hname rest
      exact ⟨t, _, .declare t' none, by simp [hunlined], eats_mark ht (by decide) _,
        .bindingBare heats hequal⟩
  | some e =>
      obtain ⟨t, _, rfl, -, ht, hbehind⟩ := hus.cons
      obtain ⟨t', _, rfl, hgenuine, hword, hbehind⟩ := hbehind.cons
      obtain ⟨t'', us, rfl, -, ht'', hbehind⟩ := hbehind.cons
      obtain ⟨heats, hunlined⟩ := eats_name hgenuine hword hname (t'' :: (us ++ rest))
      obtain ⟨e', he, hreads⟩ := (h e rfl).expression (l := l) hbehind (hrest rfl)
      exact ⟨t, _, .declare t' (some e'), by simp [hunlined, he], eats_mark ht (by decide) _,
        .binding heats (eats_mark ht'' (by decide) _) hreads⟩

/-- A declaration, with what it is initialized to if there is anything. -/
theorem Stmt.Rereads.declare {l : Bool} {name : Token} {initializer : Option Expr}
    (hname : name.isName = true) (h : ∀ e ∈ initializer, Script.Rereads e) :
    (Stmt.declare name initializer).Rereads l := by
  have hopens : Opens TokenKind.opensLine ((Stmt.declare name initializer).grouped.words .printed)
      .kwLet := by
    cases initializer <;> exact opens_cons rfl _
  refine ⟨hopens, fun {us rest} hus hends => ?_⟩
  have hequal : nextKind rest ≠ .equal := by
    intro hequal
    have := hends.fresh
    rw [hequal] at this
    cases this
  obtain ⟨t, mid, s', hs', ht, hreads⟩ := reads_binding hname h (l := l) hus hequal hends.closed
  exact ⟨s', hs', .letStmt ht hreads⟩

theorem Stmt.Rereads.block {l : Bool} {ss : List Stmt} (hss : ∀ s ∈ ss, s.Rereads l)
    (hsettled : SettledLines (mapLines id Expr.groupOperands ss)) : (Stmt.block ss).Rereads l := by
  refine ⟨opens_cons rfl _, fun {us rest} hus _ => ?_⟩
  obtain ⟨ss', t, mid, hss', ht, hreads⟩ := reads_braces hss hsettled hus rest
  exact ⟨.block ss', by simp [hss'], .blockStmt ht hreads⟩

/-- The body of a loop stands right behind an expression. -/
theorem Stmt.Rereads.not_absorbed {l : Bool} {s : Stmt} (h : s.Rereads l)
    (hkind : s.grouped.firstKind.absorbed = false) {us : List Token}
    (hus : Spelled us (s.grouped.words .printed)) (rest : List Token) :
    (nextKind (us ++ rest)).absorbed = false := by
  have hlead := (hus.opens h.opens rfl rest).2.2.1
  rw [← absorbed_lead, hlead, absorbed_lead]
  exact hkind

/-- The body of a loop is printed directly behind the condition, which must not take it in. -/
theorem Stmt.Rereads.whileLoop {l : Bool} {keyword : Token} {condition : Expr} {body : Stmt}
    (hkeyword : keyword.kind = .kwWhile) (hcondition : Script.Rereads condition)
    (hbody : body.Rereads true) (hkind : body.grouped.firstKind.absorbed = false) :
    (Stmt.whileLoop keyword condition body).Rereads l := by
  have hopens : Opens TokenKind.opensLine
      ((Stmt.whileLoop keyword condition body).grouped.words .printed) keyword.kind :=
    opens_keyword hkeyword rfl _
  refine ⟨hopens, fun {us rest} hus hends => ?_⟩
  obtain ⟨t, _, rfl, ht, hword, hbehind⟩ := hus.cons
  obtain ⟨us, us', rfl, hfront, hbehind⟩ := hbehind.append
  obtain ⟨heats, hunlined⟩ := eats_token ht hword hkeyword rfl (us ++ (us' ++ rest))
  obtain ⟨body', hbody', hreads'⟩ :=
    hbody.statement hbehind ⟨hends.fresh, hends.closed, hends.bare⟩
  obtain ⟨condition', hcondition', hreads⟩ := hcondition.expression (l := true) hfront
    (hbody.not_absorbed hkind hbehind rest)
  refine ⟨.whileLoop t condition' body', by simp [hunlined, hcondition', hbody'], ?_⟩
  simpa using Reads.whileStmt heats hreads hreads'

/-- The variables of a loop, with commas between them. -/
theorem reads_loopVariables {l : Bool} {t : Token} (ht : t.kind = .kwIn) {rest : List Token} :
    ∀ {names : List Token}, (∀ t ∈ names, t.isName = true) → ∀ {us : List Token},
      Spelled us (wordsNames .printed names) →
      ∃ names', names'.map Token.unlined = names.map Token.unlined
        ∧ Reads l (us ++ t :: rest) (.loopVariables names') (t :: rest)
  | [], _, us, hus => by
    obtain rfl := hus.eq_nil
    refine ⟨[], rfl, .loopVariablesEnd ?_⟩
    rw [List.nil_append, (eats_of_kind ht (by decide) rest).nextKind]
    decide
  | [name], hnames, us, hus => by
    obtain ⟨t', rfl, hgenuine, hword⟩ := hus.last
    obtain ⟨heats, hunlined⟩ := eats_name hgenuine hword (hnames _ List.mem_cons_self) (t :: rest)
    have hnext := (eats_of_kind ht (by decide) rest).nextKind
    refine ⟨[t'], by simp [hunlined], .loopVariablesMore heats ?_ (.loopVariablesEnd ?_)⟩
    · rw [hnext]
      decide
    · rw [hnext]
      decide
  | name :: name' :: names, hnames, us, hus => by
    obtain ⟨t', _, rfl, hgenuine, hword, hbehind⟩ := hus.cons
    obtain ⟨comma, us, rfl, -, hcomma, hbehind⟩ := hbehind.cons
    obtain ⟨heats, hunlined⟩ := eats_name hgenuine hword (hnames _ List.mem_cons_self)
      (comma :: (us ++ t :: rest))
    obtain ⟨names', hnames', hreads⟩ := reads_loopVariables (l := l) ht
      (fun t ht => hnames t (List.mem_cons_of_mem _ ht)) hbehind
    refine ⟨t' :: names', by simpa [hunlined] using hnames', ?_⟩
    exact .loopVariablesComma heats (eats_mark hcomma (by decide) _) hreads

/-- A loop over a collection: the names, `in`, the collection, and a body that the collection does
    not take in. -/
theorem Stmt.Rereads.forIn {l : Bool} {keyword : Token} {names : List Token} {collection : Expr}
    {body : Stmt} (hkeyword : keyword.kind = .kwFor) (hnames : ∀ t ∈ names, t.isName = true)
    (hne : names ≠ []) (hcollection : Script.Rereads collection) (hbody : body.Rereads true)
    (hkind : body.grouped.firstKind.absorbed = false) :
    (Stmt.forIn keyword names collection body).Rereads l := by
  have hopens : Opens TokenKind.opensLine
      ((Stmt.forIn keyword names collection body).grouped.words .printed) keyword.kind :=
    opens_keyword hkeyword rfl _
  refine ⟨hopens, fun {us rest} hus hends => ?_⟩
  simp only [Stmt.map, Stmt.words, List.map_id] at hus
  obtain ⟨t, _, rfl, ht, hword, hbehind⟩ := hus.cons
  obtain ⟨us, _, rfl, hfront, hbehind⟩ := hbehind.append
  obtain ⟨t', _, rfl, -, ht', hbehind⟩ := hbehind.cons
  obtain ⟨us', us'', rfl, hmiddle, hbehind⟩ := hbehind.append
  have hin := eats_mark ht' (by decide) (us' ++ (us'' ++ rest))
  obtain ⟨heats, hunlined⟩ := eats_token ht hword hkeyword rfl
    (us ++ t' :: (us' ++ (us'' ++ rest)))
  obtain ⟨body', hbody', hreads''⟩ :=
    hbody.statement hbehind ⟨hends.fresh, hends.closed, hends.bare⟩
  obtain ⟨collection', hcollection', hreads'⟩ := hcollection.expression (l := true) hmiddle
    (hbody.not_absorbed hkind hbehind rest)
  obtain ⟨names', hnames', hreads⟩ := reads_loopVariables (l := true) hin.2 hnames hfront
  obtain ⟨name, names, rfl⟩ := List.exists_cons_of_ne_nil hne
  obtain ⟨-, -, hlead, hfeeds, -⟩ := hfront.opens
    (opens_wordsNames (hnames name List.mem_cons_self) names) rfl (t' :: (us' ++ (us'' ++ rest)))
  -- A name behind `for` is what tells this loop from a counting one.
  have hnext : nextKind (us ++ t' :: (us' ++ (us'' ++ rest))) = .identifier := by
    revert hlead
    cases nextKind (us ++ t' :: (us' ++ (us'' ++ rest))) <;> decide
  rw [← hfeeds] at hreads
  refine ⟨.forIn t names' collection' body', ?_, ?_⟩
  · simp only [Stmt.map, hunlined, hnames', hcollection', hbody', List.map_id, id]
  · simpa using Reads.forInStmt heats hnext hreads hin hreads' hreads''

/-- The initializer of a counting loop and the semicolon behind it. -/
theorem reads_initializer {initializer : Option Stmt}
    (h : ∀ s ∈ initializer, ∃ name e, s = .declare name e ∧ name.isName = true
      ∧ ∀ e' ∈ e, Script.Rereads e') {l : Bool} {t : Token} (ht : t.kind = .semicolon)
    {us : List Token}
    (hus : Spelled us (wordsStmt? .printed (mapStmt? id Expr.groupOperands initializer)))
    (rest : List Token) :
    ∃ initializer', mapStmt? Token.unlined id initializer'
        = mapStmt? Token.unlined id (mapStmt? id Expr.groupOperands initializer)
      ∧ nextKind (us ++ t :: rest) ≠ .identifier
      ∧ Reads l (us ++ t :: rest) (.initializer initializer') rest := by
  have heats := eats_of_kind ht (by decide) rest
  cases initializer with
  | none =>
      obtain rfl := hus.eq_nil
      exact ⟨none, rfl, by simp [heats.nextKind], .initializerNone heats⟩
  | some s =>
      obtain ⟨name, e, rfl, hname, he⟩ := h s rfl
      obtain ⟨t', mid, s', hs', ht', hreads⟩ := reads_binding hname he (l := l) hus
        (by rw [heats.nextKind]; decide) fun _ => heats.not_absorbed rfl
      exact ⟨some s', by simp only [mapStmt?, hs'], by simp [ht'.nextKind],
        .initializerLet ht' hreads heats⟩

/-- A counting loop. Its initializer is a declaration or missing, since nothing else can be read
    there without a report. -/
theorem Stmt.Rereads.forLoop {l : Bool} {keyword : Token} {initializer : Option Stmt}
    {condition increment : Expr} {body : Stmt} (hkeyword : keyword.kind = .kwFor)
    (hinitializer : ∀ s ∈ initializer, ∃ name e, s = .declare name e ∧ name.isName = true
      ∧ ∀ e' ∈ e, Script.Rereads e')
    (hcondition : Script.Rereads condition) (hincrement : Script.Rereads increment)
    (hbody : body.Rereads true) (hkind : body.grouped.firstKind.absorbed = false) :
    (Stmt.forLoop keyword initializer condition increment body).Rereads l := by
  have hopens : Opens TokenKind.opensLine
      ((Stmt.forLoop keyword initializer condition increment body).grouped.words .printed)
      keyword.kind :=
    opens_keyword hkeyword rfl _
  refine ⟨hopens, fun {us rest} hus hends => ?_⟩
  obtain ⟨t, _, rfl, ht, hword, hbehind⟩ := hus.cons
  obtain ⟨us₁, _, rfl, hus₁, hbehind⟩ := hbehind.append
  obtain ⟨t₁, _, rfl, -, ht₁, hbehind⟩ := hbehind.cons
  obtain ⟨us₂, _, rfl, hus₂, hbehind⟩ := hbehind.append
  obtain ⟨t₂, _, rfl, -, ht₂, hbehind⟩ := hbehind.cons
  obtain ⟨us₃, us₄, rfl, hus₃, hus₄⟩ := hbehind.append
  obtain ⟨body', hbody', hreads₄⟩ :=
    hbody.statement hus₄ ⟨hends.fresh, hends.closed, hends.bare⟩
  obtain ⟨increment', hincrement', hreads₃⟩ := hincrement.expression (l := true) hus₃
    (hbody.not_absorbed hkind hus₄ rest)
  have hsemicolon := eats_mark ht₂ (by decide) (us₃ ++ (us₄ ++ rest))
  obtain ⟨condition', hcondition', hreads₂⟩ := hcondition.expression (l := true) hus₂
    (hsemicolon.not_absorbed rfl)
  obtain ⟨initializer', hinitializer', hnext, hreads₁⟩ := reads_initializer hinitializer (l := true)
    (congrArg Word.kind ht₁) hus₁ (us₂ ++ t₂ :: (us₃ ++ (us₄ ++ rest)))
  obtain ⟨heats, hunlined⟩ := eats_token ht hword hkeyword rfl
    (us₁ ++ t₁ :: (us₂ ++ t₂ :: (us₃ ++ (us₄ ++ rest))))
  refine ⟨.forLoop t initializer' condition' increment' body', ?_, ?_⟩
  · simp only [Stmt.map, hunlined, hinitializer', hcondition', hincrement', hbody', id]
  · simpa using Reads.forStmt heats hnext hreads₁ hreads₂ hsemicolon hreads₃ hreads₄

/-- `return` without a value is printed without anything behind it on the line. -/
theorem Stmt.Rereads.ret {l : Bool} {keyword : Token} {value : Option Expr}
    (hkeyword : keyword.kind = .kwReturn) (h : ∀ e ∈ value, Script.Rereads e) :
    (Stmt.ret keyword value).Rereads l := by
  have hopens : Opens TokenKind.opensLine ((Stmt.ret keyword value).grouped.words .printed)
      keyword.kind :=
    opens_keyword hkeyword rfl _
  refine ⟨hopens, fun {us rest} hus hends => ?_⟩
  obtain ⟨t, us, rfl, ht, hword, hbehind⟩ := hus.cons
  obtain ⟨heats, hunlined⟩ := eats_token ht hword hkeyword rfl (us ++ rest)
  cases value with
  | none =>
      obtain rfl := hbehind.eq_nil
      exact ⟨.ret t none, by simp [hunlined], .returnStmt heats (hends.bare rfl)⟩
  | some e =>
      have he := h e rfl
      obtain ⟨e', he', hreads⟩ := he.expression (l := l) hbehind (hends.closed rfl)
      refine ⟨.ret t (some e'), by simp [hunlined, he'], .returnValueStmt heats ?_ hreads⟩
      have hhead := (hbehind.opens he.opens rfl rest).2.1
      revert hhead
      cases headKind (us ++ rest) <;> decide

/-- An exit is read back inside of a loop only, because elsewhere reading it would be reported. -/
theorem Stmt.Rereads.breakLoop {keyword : Token} (hkeyword : keyword.kind = .kwBreak) :
    (Stmt.breakLoop keyword).Rereads true := by
  have hopens : Opens TokenKind.opensLine [keyword.word] keyword.kind :=
    opens_keyword hkeyword rfl _
  refine ⟨hopens, fun {us rest} hus _ => ?_⟩
  obtain ⟨t, rfl, ht, hword⟩ := hus.last
  obtain ⟨heats, hunlined⟩ := eats_token ht hword hkeyword rfl rest
  exact ⟨.breakLoop t, by simp [hunlined], .breakStmt heats⟩

theorem Stmt.Rereads.continueLoop {keyword : Token} (hkeyword : keyword.kind = .kwContinue) :
    (Stmt.continueLoop keyword).Rereads true := by
  have hopens : Opens TokenKind.opensLine [keyword.word] keyword.kind :=
    opens_keyword hkeyword rfl _
  refine ⟨hopens, fun {us rest} hus _ => ?_⟩
  obtain ⟨t, rfl, ht, hword⟩ := hus.last
  obtain ⟨heats, hunlined⟩ := eats_token ht hword hkeyword rfl rest
  exact ⟨.continueLoop t, by simp [hunlined], .continueStmt heats⟩

/-- The `elif` branches of a statement, in front of anything but a further branch. -/
theorem reads_elifs {l : Bool} {rest : List Token} (hrest : nextKind rest ≠ .kwElif) :
    ∀ {bs : List ElifBranch}, (∀ b ∈ bs, Script.Rereads b.condition
        ∧ (∀ s ∈ b.body, s.Rereads l) ∧ SettledLines (mapLines id Expr.groupOperands b.body)) →
      ∀ {us : List Token}, Spelled us (wordsElifs .printed (mapElifs id Expr.groupOperands bs)) →
      ∃ bs', mapElifs Token.unlined id bs'
          = mapElifs Token.unlined id (mapElifs id Expr.groupOperands bs)
        ∧ Reads l (us ++ rest) (.elifs bs') rest
  | [], _, us, hus => by
    obtain rfl := hus.eq_nil
    exact ⟨[], rfl, .elifsEnd hrest⟩
  | ⟨condition, body⟩ :: bs, h, us, hus => by
    obtain ⟨hcondition, hbody, hsettled⟩ := h _ List.mem_cons_self
    obtain ⟨t, _, rfl, -, ht, hbehind⟩ := hus.cons
    obtain ⟨us₁, _, rfl, hus₁, hbehind⟩ := hbehind.append
    obtain ⟨us₂, us₃, rfl, hus₂, hus₃⟩ := hbehind.append
    obtain ⟨bs', hbs', hreads₃⟩ := reads_elifs (l := l) hrest
      (fun b hb => h b (List.mem_cons_of_mem _ hb)) hus₃
    obtain ⟨body', t', mid, hbody', ht', hreads₂⟩ :=
      reads_braces hbody hsettled hus₂ (us₃ ++ rest)
    obtain ⟨condition', hcondition', hreads₁⟩ := hcondition.expression (l := l) hus₁
      (ht'.not_absorbed rfl)
    refine ⟨⟨condition', body'⟩ :: bs', by simp only [mapElifs, hcondition', hbody', hbs'], ?_⟩
    simpa using Reads.elifsMore (eats_mark ht (by decide) _) hreads₁ (.braced ht' hreads₂) hreads₃

/-- The condition, the block, the `elif` branches one after the other, and the `else` branch if
    there is one. -/
theorem Stmt.Rereads.ifElse {l : Bool} {keyword : Token} {condition : Expr} {ss : List Stmt}
    {bs : List ElifBranch} {ss' : Option (List Stmt)} (hkeyword : keyword.kind = .kwIf)
    (hcondition : Script.Rereads condition) (hss : ∀ s ∈ ss, s.Rereads l)
    (hsettled : SettledLines (mapLines id Expr.groupOperands ss))
    (hbs : ∀ b ∈ bs, Script.Rereads b.condition ∧ (∀ s ∈ b.body, s.Rereads l)
      ∧ SettledLines (mapLines id Expr.groupOperands b.body))
    (hss' : ∀ lines ∈ ss', (∀ s ∈ lines, s.Rereads l)
      ∧ SettledLines (mapLines id Expr.groupOperands lines)) :
    (Stmt.ifElse keyword condition ss bs ss').Rereads l := by
  have hopens : Opens TokenKind.opensLine
      ((Stmt.ifElse keyword condition ss bs ss').grouped.words .printed) keyword.kind :=
    opens_keyword hkeyword rfl _
  refine ⟨hopens, fun {us rest} hus hends => ?_⟩
  obtain ⟨t, _, rfl, ht, hword, hbehind⟩ := hus.cons
  obtain ⟨us₁, _, rfl, hus₁, hbehind⟩ := hbehind.append
  obtain ⟨us₂, _, rfl, hus₂, hbehind⟩ := hbehind.append
  obtain ⟨us₃, us₄, rfl, hus₃, hus₄⟩ := hbehind.append
  have hfresh : nextKind rest ≠ .kwElif ∧ nextKind rest ≠ .kwElse := by
    have hfresh := hends.fresh
    constructor <;> intro hkind <;> rw [hkind] at hfresh <;> cases hfresh
  -- Behind the branches there is `else`, or what follows the statement.
  have hnext : nextKind (us₄ ++ rest) ≠ .kwElif := by
    cases ss' with
    | none =>
        obtain rfl := hus₄.eq_nil
        exact hfresh.1
    | some lines =>
        obtain ⟨t', us', rfl, -, ht', -⟩ := hus₄.cons
        rw [List.cons_append, (eats_mark ht' (by decide) (us' ++ rest)).nextKind]
        decide
  obtain ⟨bs', hbs', hreads₃⟩ := reads_elifs (l := l) hnext hbs hus₃
  obtain ⟨lines, t', mid, hlines, ht', hreads₂⟩ :=
    reads_braces hss hsettled hus₂ (us₃ ++ (us₄ ++ rest))
  obtain ⟨condition', hcondition', hreads₁⟩ := hcondition.expression (l := l) hus₁
    (ht'.not_absorbed rfl)
  obtain ⟨heats, hunlined⟩ := eats_token ht hword hkeyword rfl
    (us₁ ++ (us₂ ++ (us₃ ++ (us₄ ++ rest))))
  cases ss' with
  | none =>
      obtain rfl := hus₄.eq_nil
      refine ⟨.ifElse t condition' lines bs' none, ?_, ?_⟩
      · simp only [Stmt.map, hunlined, hcondition', hlines, hbs', mapElse, id]
      · simpa using Reads.ifStmt heats hreads₁ (.braced ht' hreads₂) hreads₃ hfresh.2
  | some last =>
      obtain ⟨hlast, hsettled'⟩ := hss' last rfl
      obtain ⟨t₁, us', rfl, -, ht₁, hbehind⟩ := hus₄.cons
      obtain ⟨last', t₂, mid', hlast', ht₂, hreads₄⟩ := reads_braces hlast hsettled' hbehind rest
      refine ⟨.ifElse t condition' lines bs' (some last'), ?_, ?_⟩
      · simp only [Stmt.map, hunlined, hcondition', hlines, hbs', mapElse, hlast', id]
      · simpa using Reads.ifElseStmt heats hreads₁ (.braced ht' hreads₂) hreads₃
          (eats_mark ht₁ (by decide) _) (.braced ht₂ hreads₄)

theorem Stmt.Rereads.function {l : Bool} {d : FunctionDecl} (hd : d.Rereads)
    (hname : d.name.isSome = true) : (Stmt.function d).Rereads l := by
  refine ⟨opens_cons rfl _, fun {us rest} hus hends => ?_⟩
  obtain ⟨t, us, rfl, -, ht, hbehind⟩ := hus.cons
  obtain ⟨d', hd', hreads⟩ := hd.named (l := l) hname hbehind hends.closed
  exact ⟨.function d', by simp [hd'], .functionStmt (eats_mark ht (by decide) _) hreads⟩

/-! ## Classes -/

/-- A line feed in front of the methods of a class is not a part of them. -/
theorem Reads.members_newline {l : Bool} {t : Token} {ts rest : List Token} {ms : List Member}
    (ht : t.kind = .newline) (hts : ts ≠ []) (h : Reads l ts (.members ms) rest) :
    Reads l (t :: ts) (.members ms) rest := by
  have hnext : nextKind (t :: ts) = nextKind ts := nextKind_newline ht
  have hfeeds : afterFeeds (t :: ts) = afterFeeds ts := afterFeeds_newline ht
  cases h with
  | membersEnd hclosing =>
      rw [← hfeeds]
      exact .membersEnd (hnext.trans hclosing)
  | membersMissing => exact absurd rfl hts
  | membersMethod hbrace _ hclass hf hms =>
      refine .membersMethod (by rwa [hnext]) nofun (by rwa [hnext]) ?_ hms
      cases hf with
      | named hname hf hbody => exact .named ⟨hfeeds.trans hname.1, hname.2⟩ hf hbody
  | membersStatic hclass hf hms => exact .membersStatic ⟨hfeeds.trans hclass.1, hclass.2⟩ hf hms

theorem Reads.named_first {l : Bool} {ts rest : List Token} {f : FunctionDecl}
    (h : Reads l ts (.named f) rest) : nextKind ts = .identifier := by
  cases h with
  | named hname _ _ => exact hname.nextKind

/-- Methods of one sort, each on a line of its own, in front of other methods or the closing
    brace. -/
theorem reads_methods {l : Bool} (isStatic : Bool) {rest rest' : List Token} {ms : List Member}
    (hrest : nextKind rest = .kwClass ∨ nextKind rest = .rightBrace) (hne : rest ≠ [])
    (hms : Reads l rest (.members ms) rest') :
    ∀ {ds : List FunctionDecl}, (∀ d ∈ ds, d.Rereads ∧ d.name.isSome = true) → ∀ {us : List Token},
      Spelled us (wordsMethods .printed (if isStatic then [.mark .kwClass] else [])
        (mapMethods id Expr.groupOperands ds)) →
      ∃ ds', mapMethods Token.unlined id ds'
          = mapMethods Token.unlined id (mapMethods id Expr.groupOperands ds)
        ∧ (nextKind (us ++ rest)).absorbed = false
        ∧ (isStatic = true → nextKind (us ++ rest) = .kwClass ∨ nextKind (us ++ rest) = .rightBrace)
        ∧ us ++ rest ≠ []
        ∧ Reads l (us ++ rest) (.members (ds'.map (Member.mk isStatic) ++ ms)) rest'
  | [], _, us, hus => by
    obtain rfl := hus.eq_nil
    refine ⟨[], rfl, ?_, fun _ => hrest, hne, hms⟩
    obtain hrest | hrest := hrest <;> rw [List.nil_append, hrest] <;> rfl
  | d :: ds, h, us, hus => by
    obtain ⟨hd, hname⟩ := h d List.mem_cons_self
    simp only [mapMethods, wordsMethods, Style.printed_feed] at hus
    obtain ⟨us₁, _, rfl, hus₁, hbehind⟩ := hus.append
    obtain ⟨us₂, _, rfl, hus₂, hbehind⟩ := hbehind.append
    obtain ⟨feed, us₃, rfl, -, hfeed, hus₃⟩ := hbehind.cons
    obtain ⟨ds', hds', hnext, -, hne', hreads⟩ := reads_methods isStatic hrest hne hms
      (fun d hd => h d (List.mem_cons_of_mem _ hd)) hus₃
    have hkind : feed.kind = .newline := congrArg Word.kind hfeed
    have hreads' := hreads.members_newline hkind hne'
    have hends : (nextKind (feed :: (us₃ ++ rest))).absorbed = false := by
      rwa [nextKind_newline hkind]
    obtain ⟨d', hd', hnamed⟩ := hd.named (l := l) hname hus₂ fun _ => hends
    have hfirst := hnamed.named_first
    cases isStatic with
    | false =>
        obtain rfl := hus₁.eq_nil
        refine ⟨d' :: ds', by simp only [mapMethods, hd', hds'], ?_, nofun, by simp, ?_⟩
        · simp [hfirst, TokenKind.absorbed]
        · have hmethod := Reads.membersMethod (by rw [hfirst]; decide) (by simp)
            (by rw [hfirst]; decide) hnamed hreads'
          simpa using hmethod
    | true =>
        obtain ⟨t, rfl, -, ht⟩ := hus₁.last
        have heats := eats_mark ht (by decide) (us₂ ++ feed :: (us₃ ++ rest))
        refine ⟨d' :: ds', by simp only [mapMethods, hd', hds'], ?_, fun _ => .inl ?_, by simp, ?_⟩
        · simpa using heats.not_absorbed rfl
        · simpa using heats.nextKind
        · simpa using Reads.membersStatic heats hnamed hreads'

/-- Among members of one kind, those of a kind are all of them or none. -/
theorem Member.select_map (b b' : Bool) (ds : List FunctionDecl) :
    Member.select b (ds.map (Member.mk b')) = if b' = b then ds else [] := by
  induction ds with
  | nil => simp [Member.select]
  | cons d ds ih => by_cases h : b' = b <;> simp_all [Member.select]

theorem Member.select_append (b : Bool) (ms ms' : List Member) :
    Member.select b (ms ++ ms') = Member.select b ms ++ Member.select b ms' := by
  simp [Member.select]

/-- The superclass of a class, in front of its opening brace. -/
theorem reads_superClass {superClass : Option Token} (h : ∀ t ∈ superClass, t.isName = true)
    {l : Bool} {t : Token} (ht : t.kind = .leftBrace) {us : List Token}
    (hus : Spelled us (wordsSuper superClass)) (rest : List Token) :
    ∃ superClass', superClass'.map Token.unlined = superClass.map Token.unlined
      ∧ Reads l (us ++ t :: rest) (.superClass superClass') (t :: rest) := by
  cases superClass with
  | none =>
      obtain rfl := hus.eq_nil
      refine ⟨none, rfl, .superClassNone ?_⟩
      rw [List.nil_append, (eats_of_kind ht (by decide) rest).nextKind]
      decide
  | some name =>
      obtain ⟨less, _, rfl, -, hless, hbehind⟩ := hus.cons
      obtain ⟨t', rfl, hgenuine, hword⟩ := hbehind.last
      obtain ⟨heats, hunlined⟩ := eats_name hgenuine hword (h name rfl) (t :: rest)
      exact ⟨some t', congrArg some hunlined, .superClass (eats_mark hless (by decide) _) heats⟩

/-- The methods are printed first and then those of the class itself, with their mark. Reading sorts
    them again into the two lists. -/
theorem Stmt.Rereads.cls {l : Bool} {d : ClassDecl} (hd : d.Formed)
    (hmethods : ∀ m ∈ d.methods, m.Rereads) (hstatics : ∀ m ∈ d.staticMethods, m.Rereads) :
    (Stmt.cls d).Rereads l := by
  obtain ⟨name, superClass, methods, statics⟩ := d
  refine ⟨opens_cons rfl _, fun {us rest} hus _ => ?_⟩
  simp only [Stmt.map, Stmt.words, ClassDecl.map, ClassDecl.words, wordsBraced, Style.printed_feed,
    List.cons_append, List.nil_append, Option.map_id, id] at hus
  obtain ⟨t, _, rfl, -, ht, hbehind⟩ := hus.cons
  obtain ⟨name', _, rfl, hgenuine, hword, hbehind⟩ := hbehind.cons
  obtain ⟨us₁, _, rfl, hus₁, hbehind⟩ := hbehind.append
  obtain ⟨t₁, _, rfl, -, ht₁, hbehind⟩ := hbehind.cons
  obtain ⟨feed, _, rfl, -, hfeed, hbehind⟩ := hbehind.cons
  obtain ⟨_, _, rfl, hmembers, hlast⟩ := hbehind.append
  obtain ⟨us₂, us₃, rfl, hus₂, hus₃⟩ := hmembers.append
  obtain ⟨t₂, rfl, -, ht₂⟩ := hlast.last
  -- From the closing brace to the front, since what a method is read up to has to be known.
  have hclosing := eats_mark ht₂ (by decide) rest
  have hend := Reads.membersEnd (l := l) hclosing.nextKind
  rw [hclosing.1] at hend
  obtain ⟨statics', hstatics', -, hfirst, hne, hreads₃⟩ := reads_methods true
    (.inr hclosing.nextKind) nofun hend (fun m hm => ⟨hstatics m hm, hd.staticMethods m hm⟩) hus₃
  obtain ⟨methods', hmethods', -, -, hne', hreads₂⟩ := reads_methods false
    (hfirst rfl) hne hreads₃ (fun m hm => ⟨hmethods m hm, hd.methods m hm⟩) hus₂
  obtain ⟨superClass', hsuperClass', hreads₁⟩ := reads_superClass hd.superClass (l := l)
    (congrArg Word.kind ht₁) hus₁ (feed :: (us₂ ++ (us₃ ++ t₂ :: rest)))
  obtain ⟨heats, hunlined⟩ := eats_name hgenuine hword hd.name
    (us₁ ++ t₁ :: feed :: (us₂ ++ (us₃ ++ t₂ :: rest)))
  have htext := Reads.classText heats hreads₁ (eats_mark ht₁ (by decide) _)
    (hreads₂.members_newline (congrArg Word.kind hfeed) hne') hclosing
  refine ⟨_, ?_, by simpa using Reads.classStmt (eats_mark ht (by decide) _) htext⟩
  simp [ClassDecl.ofMembers, Member.select_append, Member.select_map, hunlined, hsuperClass',
    hmethods', hstatics']

/-! ## Trees -/

/-- In parentheses an expression begins with one, and otherwise as before. -/
theorem Expr.firstKind_wrapped (e : Expr) :
    e.wrapped.firstKind = e.firstKind ∨ e.wrapped.firstKind = .leftParen := by
  unfold wrapped
  split
  · exact .inr rfl
  · exact .inl rfl

/-- Groupings put nothing but a parenthesis in front of an expression. -/
theorem Expr.firstKind_grouped :
    ∀ e : Expr, e.grouped.firstKind = e.firstKind ∨ e.grouped.firstKind = .leftParen
  | .list _ _ => .inl rfl
  | .dict _ _ => .inl rfl
  | .assign _ _ none => .inl rfl
  | .assign _ _ (some ⟨object, _, _, _, _, _, _⟩) => object.firstKind_grouped
  | .access ⟨object, _, _, _, _, _, _⟩ => object.firstKind_grouped
  | .binary left _ _ =>
    left.grouped.firstKind_wrapped.elim (fun h => left.firstKind_grouped.imp h.trans h.trans) .inr
  | .call callee _ _ => callee.firstKind_grouped
  | .get object _ => object.firstKind_grouped
  | .set object _ _ none => object.firstKind_grouped
  | .set _ _ _ (some ⟨object, _, _, _, _, _, _⟩) => object.firstKind_grouped
  | .super _ _ => .inl rfl
  | .grouping _ => .inl rfl
  | .literal _ => .inl rfl
  | .logical left _ _ =>
    left.grouped.firstKind_wrapped.elim (fun h => left.firstKind_grouped.imp h.trans h.trans) .inr
  | .this _ => .inl rfl
  | .unary _ _ => .inl rfl
  | .var _ => .inl rfl
  | .function _ => .inl rfl

/-- An expression that is the body of a function must not begin with a brace, which would be read as
    a block. -/
theorem FunctionBody.Rereads.expression {e : Expr} (h : Script.Rereads e)
    (hfirst : e.firstKind ≠ .leftBrace) : (FunctionBody.expression e).Rereads := by
  intro us rest hus hrest
  obtain ⟨e', he, hreads⟩ := h.expression (l := false) hus (hrest e rfl)
  -- A brace in front would make a block of the body.
  refine ⟨.expression e', by simp [he], .bodyExpr (fun hbrace => ?_) hreads⟩
  have hlead := (hus.opens h.opens rfl rest).2.2.1
  rw [hbrace] at hlead
  obtain hkind | hkind := e.firstKind_grouped
  · rw [hkind] at hlead
    exact hfirst (lead_eq_leftBrace.mp hlead.symm)
  · rw [hkind] at hlead
    cases hlead

theorem FunctionBody.Rereads.block {ss : List Stmt} (hss : ∀ s ∈ ss, s.Rereads false)
    (hsettled : SettledLines (mapLines id Expr.groupOperands ss)) :
    (FunctionBody.block ss).Rereads := by
  intro us rest hus _
  obtain ⟨ss', t, mid, hss', ht, hreads⟩ := reads_braces hss hsettled hus rest
  exact ⟨.block ss', by simp [hss'], .bodyBlock ht hreads⟩

/-- Groupings in front only put parentheses there, which begin no statement but an expression. -/
theorem opensStatement_grouped {e : Expr} (h : e.firstKind.opensStatement = false) :
    e.grouped.firstKind.opensStatement = false := by
  obtain hkind | hkind := e.firstKind_grouped
  · rwa [hkind]
  · rw [hkind]
    rfl

-- Over the tree: `hf` and `hl` are about the nodes below a node, and `hx` passes on to its parts
-- whether a loop is open around them.
mutual

/-- Every well-formed and legible expression is read back: one case for each constructor, with the
    lemma about it. Functions lead on to statements, which makes the induction mutual. -/
theorem Expr.rereads : ∀ (e : Expr), AllFormed e.nodes → AllLegible e.nodes →
    e.exitsPlaced = true → Rereads e
  | .list es _, hf, hl, hx =>
    .list (rereadsList es (List.forall_mem_cons.mp hf).2 (List.forall_mem_cons.mp hl).2 hx)
      (List.forall_mem_cons.mp hf).1
  | .dict kvs _, hf, hl, hx =>
    .dict (rereadsEntries kvs (List.forall_mem_cons.mp hf).2 (List.forall_mem_cons.mp hl).2 hx)
      (List.forall_mem_cons.mp hf).1
  | .assign _ value none, hf, hl, hx => by
    simp only [Expr.nodes, AllFormed, AllLegible, List.forall_mem_cons,
      List.forall_mem_append] at hf hl
    simp only [Expr.exitsPlaced, Bool.and_eq_true] at hx
    exact .assign hf.1 (value.rereads hf.2.1 hl.2.1 hx.1)
  | .assign _ value (some a), hf, hl, hx => by
    simp only [Expr.nodes, nodesAccess?, AllFormed, AllLegible, List.forall_mem_cons,
      List.forall_mem_append] at hf hl
    simp only [Expr.exitsPlaced, exitsPlacedAccess?, Bool.and_eq_true] at hx
    obtain ⟨ha, hobject, hfirst, hsecond, hthird⟩ := a.rereads hf.2.2 hl.2.2 hx.2
    exact .assignAccess ha hobject hfirst hsecond hthird (value.rereads hf.2.1 hl.2.1 hx.1) hf.1
  | .access a, hf, hl, hx => by
    obtain ⟨ha, hobject, hfirst, hsecond, hthird⟩ :=
      a.rereads (List.forall_mem_cons.mp hf).2 (List.forall_mem_cons.mp hl).2 hx
    exact .access ha hobject hfirst hsecond hthird
  | .binary left _ right, hf, hl, hx => by
    simp only [Expr.nodes, AllFormed, AllLegible, List.forall_mem_cons,
      List.forall_mem_append] at hf hl
    simp only [Expr.exitsPlaced, Bool.and_eq_true] at hx
    exact .binary (left.rereads hf.2.1 hl.2.1 hx.1) (right.rereads hf.2.2 hl.2.2 hx.2) hf.1.1 hf.1.2
  | .call callee _ es, hf, hl, hx => by
    simp only [Expr.nodes, AllFormed, AllLegible, List.forall_mem_cons,
      List.forall_mem_append] at hf hl
    simp only [Expr.exitsPlaced, Bool.and_eq_true] at hx
    obtain ⟨hparen, htarget, hcount⟩ := hf.1
    exact .call (callee.rereads hf.2.1 hl.2.1 hx.1) (rereadsList es hf.2.2 hl.2.2 hx.2) htarget
      hparen hcount
  | .get object _, hf, hl, hx => by
    obtain ⟨⟨htarget, hname⟩, hobject⟩ := List.forall_mem_cons.mp hf
    exact .get (object.rereads hobject (List.forall_mem_cons.mp hl).2 hx) htarget hname
  | .set object _ value none, hf, hl, hx => by
    simp only [Expr.nodes, AllFormed, AllLegible, List.forall_mem_cons,
      List.forall_mem_append] at hf hl
    simp only [Expr.exitsPlaced, Bool.and_eq_true] at hx
    obtain ⟨⟨htarget, hname⟩, hobject, hvalue, -⟩ := hf
    exact .set (object.rereads hobject hl.2.1 hx.1.1) htarget hname
      (value.rereads hvalue hl.2.2.1 hx.1.2)
  | .set _ _ value (some a), hf, hl, hx => by
    simp only [Expr.nodes, nodesAccess?, AllFormed, AllLegible, List.forall_mem_cons,
      List.forall_mem_append] at hf hl
    simp only [Expr.exitsPlaced, exitsPlacedAccess?, Bool.and_eq_true] at hx
    obtain ⟨ha, hobject, hfirst, hsecond, hthird⟩ := a.rereads hf.2.2.2 hl.2.2.2 hx.2
    exact .setAccess ha hobject hfirst hsecond hthird (value.rereads hf.2.2.1 hl.2.2.1 hx.1.2) hf.1
  | .super _ _, hf, _, _ =>
    .super (List.forall_mem_cons.mp hf).1.1 (List.forall_mem_cons.mp hf).1.2
  | .grouping inner, hf, hl, hx =>
    .grouping (inner.rereads (List.forall_mem_cons.mp hf).2 (List.forall_mem_cons.mp hl).2 hx)
  | .literal _, _, hl, _ => .literal (List.forall_mem_cons.mp hl).1
  | .logical left _ right, hf, hl, hx => by
    simp only [Expr.nodes, AllFormed, AllLegible, List.forall_mem_cons,
      List.forall_mem_append] at hf hl
    simp only [Expr.exitsPlaced, Bool.and_eq_true] at hx
    exact .logical (left.rereads hf.2.1 hl.2.1 hx.1) (right.rereads hf.2.2 hl.2.2 hx.2) hf.1.1
      hf.1.2
  | .this _, hf, _, _ => .this (List.forall_mem_cons.mp hf).1
  | .unary _ operand, hf, hl, hx => by
    obtain ⟨⟨hop, hterm⟩, hoperand⟩ := List.forall_mem_cons.mp hf
    exact .unary (operand.rereads hoperand (List.forall_mem_cons.mp hl).2 hx) hop hterm
  | .var _, hf, _, _ => .var (List.forall_mem_cons.mp hf).1
  | .function d, hf, hl, hx =>
    .function (d.rereads (List.forall_mem_cons.mp hf).2 (List.forall_mem_cons.mp hl).2 hx)
      (List.forall_mem_cons.mp hf).1

theorem rereadsList : ∀ (es : List Expr), AllFormed (nodesList es) → AllLegible (nodesList es) →
    exitsPlacedAll es = true → ∀ e ∈ es, Rereads e
  | [], _, _, _ => nofun
  | e :: es, hf, hl, hx => by
    obtain ⟨he, hes⟩ := List.forall_mem_append.mp hf
    obtain ⟨hle, hles⟩ := List.forall_mem_append.mp hl
    simp only [exitsPlacedAll, Bool.and_eq_true] at hx
    exact List.forall_mem_cons.mpr ⟨e.rereads he hle hx.1, rereadsList es hes hles hx.2⟩

theorem rereadsEntries : ∀ (kvs : List (Expr × Expr)), AllFormed (nodesEntries kvs) →
    AllLegible (nodesEntries kvs) → exitsPlacedEntries kvs = true →
    ∀ kv ∈ kvs, Rereads kv.1 ∧ Rereads kv.2
  | [], _, _, _ => nofun
  | (key, value) :: kvs, hf, hl, hx => by
    simp only [nodesEntries, AllFormed, AllLegible, List.forall_mem_append] at hf hl
    simp only [exitsPlacedEntries, Bool.and_eq_true] at hx
    exact List.forall_mem_cons.mpr ⟨⟨key.rereads hf.1 hl.1 hx.1.1, value.rereads hf.2.1 hl.2.1 hx.1.2⟩,
      rereadsEntries kvs hf.2.2 hl.2.2 hx.2⟩

theorem Access.rereads : ∀ (a : Access), AllFormed a.nodes → AllLegible a.nodes →
    a.exitsPlaced = true → a.Formed ∧ Rereads a.object ∧ (∀ e ∈ a.first, Rereads e)
      ∧ (∀ e ∈ a.second, Rereads e) ∧ ∀ e ∈ a.third, Rereads e
  | ⟨object, _, first, _, second, _, third⟩, hf, hl, hx => by
    simp only [Access.nodes, AllFormed, AllLegible, List.forall_mem_cons,
      List.forall_mem_append] at hf hl
    simp only [Access.exitsPlaced, Bool.and_eq_true] at hx
    obtain ⟨ha, hobject, hfirst, hsecond, hthird⟩ := hf
    obtain ⟨-, hlobject, hlfirst, hlsecond, hlthird⟩ := hl
    exact ⟨ha, object.rereads hobject hlobject hx.1.1.1, rereads? first hfirst hlfirst hx.1.1.2,
      rereads? second hsecond hlsecond hx.1.2, rereads? third hthird hlthird hx.2⟩

theorem rereads? : ∀ (e : Option Expr), AllFormed (nodes? e) → AllLegible (nodes? e) →
    exitsPlaced? e = true → ∀ e' ∈ e, Rereads e'
  | none, _, _, _ => nofun
  | some e, hf, hl, hx => by
    rintro _ ⟨⟩
    exact e.rereads hf hl hx

theorem FunctionDecl.rereads : ∀ (d : FunctionDecl), AllFormed d.nodes → AllLegible d.nodes →
    d.exitsPlaced = true → d.Rereads
  | ⟨_, _, body⟩, hf, hl, hx => by
    obtain ⟨hd, hbody⟩ := List.forall_mem_cons.mp hf
    exact .of_body hd (body.rereads hbody (List.forall_mem_cons.mp hl).2 hx hd.body)

theorem FunctionBody.rereads : ∀ (b : FunctionBody), AllFormed b.nodes → AllLegible b.nodes →
    b.exitsPlaced = true → (∀ e, b = .expression e → e.firstKind ≠ .leftBrace) → b.Rereads
  | .block ss, hf, hl, hx, _ =>
    FunctionBody.Rereads.block
      (rereadsLines false ss (List.forall_mem_cons.mp hf).2 (List.forall_mem_cons.mp hl).2 hx)
      (List.forall_mem_cons.mp hl).1
  | .expression e, hf, hl, hx, hfirst =>
    FunctionBody.Rereads.expression (e.rereads hf hl hx) (hfirst e rfl)

/-- Every well-formed and legible statement is read back, inside of a loop if its exits need one. -/
theorem Stmt.rereads (l : Bool) : ∀ (s : Stmt), AllFormed s.nodes → AllLegible s.nodes →
    s.exitsPlaced l = true → s.Rereads l
  | .expr e, hf, hl, hx =>
    .expr (e.rereads (List.forall_mem_cons.mp hf).2 (List.forall_mem_cons.mp hl).2 hx)
      (opensStatement_grouped (List.forall_mem_cons.mp hf).1)
  | .tryCatch body _ handler, hf, hl, hx => by
    simp only [Stmt.nodes, AllFormed, AllLegible, List.forall_mem_cons,
      List.forall_mem_append] at hf hl
    simp only [Stmt.exitsPlaced, Bool.and_eq_true] at hx
    exact .tryCatch (body.rereads l hf.2.1 hl.2.1 hx.1) (handler.rereads l hf.2.2 hl.2.2 hx.2) hf.1
      hl.1
  | .forLoop _ initializer condition increment body, hf, hl, hx => by
    simp only [Stmt.nodes, AllFormed, AllLegible, List.forall_mem_cons,
      List.forall_mem_append] at hf hl
    simp only [Stmt.exitsPlaced, Bool.and_eq_true] at hx
    exact .forLoop hf.1.1 (rereadsStmt? l initializer hf.2.1 hl.2.1 hx.1.1.1 hf.1.2.1)
      (condition.rereads hf.2.2.1 hl.2.2.1 hx.1.1.2)
      (increment.rereads hf.2.2.2.1 hl.2.2.2.1 hx.1.2)
      (body.rereads true hf.2.2.2.2 hl.2.2.2.2 hx.2) hl.1
  | .forIn _ _ collection body, hf, hl, hx => by
    simp only [Stmt.nodes, AllFormed, AllLegible, List.forall_mem_cons,
      List.forall_mem_append] at hf hl
    simp only [Stmt.exitsPlaced, Bool.and_eq_true] at hx
    obtain ⟨⟨hkeyword, hnames, hne, -⟩, hcollection, hbody⟩ := hf
    exact .forIn hkeyword hnames hne (collection.rereads hcollection hl.2.1 hx.1)
      (body.rereads true hbody hl.2.2 hx.2) hl.1
  | .declare _ initializer, hf, hl, hx =>
    .declare (List.forall_mem_cons.mp hf).1
      (rereads? initializer (List.forall_mem_cons.mp hf).2 (List.forall_mem_cons.mp hl).2 hx)
  | .block ss, hf, hl, hx => by
    simp only [Stmt.nodes, AllFormed, AllLegible, List.forall_mem_cons] at hf hl
    exact .block (rereadsLines l ss hf.2.2 hl.2.2 hx) hl.2.1
  | .whileLoop _ condition body, hf, hl, hx => by
    simp only [Stmt.nodes, AllFormed, AllLegible, List.forall_mem_cons,
      List.forall_mem_append] at hf hl
    simp only [Stmt.exitsPlaced, Bool.and_eq_true] at hx
    exact .whileLoop hf.1.1 (condition.rereads hf.2.1 hl.2.1 hx.1)
      (body.rereads true hf.2.2 hl.2.2 hx.2) hl.1
  | .ret _ value, hf, hl, hx =>
    .ret (List.forall_mem_cons.mp hf).1
      (rereads? value (List.forall_mem_cons.mp hf).2 (List.forall_mem_cons.mp hl).2 hx)
  | .breakLoop _, hf, _, hx => by
    obtain rfl : l = true := hx
    exact .breakLoop (List.forall_mem_cons.mp hf).1
  | .continueLoop _, hf, _, hx => by
    obtain rfl : l = true := hx
    exact .continueLoop (List.forall_mem_cons.mp hf).1
  | .ifElse _ condition ss bs ss', hf, hl, hx => by
    simp only [Stmt.nodes, AllFormed, AllLegible, List.forall_mem_cons,
      List.forall_mem_append] at hf hl
    simp only [Stmt.exitsPlaced, Bool.and_eq_true] at hx
    obtain ⟨hkeyword, hcondition, -, hss, hbs, hss'⟩ := hf
    obtain ⟨-, hlcondition, hsettled, hlss, hlbs, hlss'⟩ := hl
    exact .ifElse hkeyword (condition.rereads hcondition hlcondition hx.1.1.1)
      (rereadsLines l ss hss hlss hx.1.1.2) hsettled (rereadsElifs l bs hbs hlbs hx.1.2)
      (rereadsElse l ss' hss' hlss' hx.2)
  | .function d, hf, hl, hx =>
    .function (d.rereads (List.forall_mem_cons.mp hf).2 (List.forall_mem_cons.mp hl).2 hx)
      (List.forall_mem_cons.mp hf).1
  | .cls ⟨_, _, methods, statics⟩, hf, hl, hx => by
    simp only [Stmt.nodes, ClassDecl.nodes, AllFormed, AllLegible, List.forall_mem_cons,
      List.forall_mem_append] at hf hl
    simp only [Stmt.exitsPlaced, ClassDecl.exitsPlaced, Bool.and_eq_true] at hx
    exact .cls hf.2.1 (rereadsMethods methods hf.2.2.1 hl.2.2.1 hx.1)
      (rereadsMethods statics hf.2.2.2 hl.2.2.2 hx.2)

/-- What a `for` loop begins with declares a name. -/
theorem rereadsStmt? (l : Bool) : ∀ (s : Option Stmt), AllFormed (nodesStmt? s) →
    AllLegible (nodesStmt? s) → exitsPlacedStmt? l s = true → (∀ s' ∈ s, s'.isDeclaration = true) →
    ∀ s' ∈ s, ∃ name e, s' = .declare name e ∧ name.isName = true ∧ ∀ e' ∈ e, Rereads e'
  | none, _, _, _, _ => nofun
  | some (.declare name e), hf, hl, hx, _ => by
    rintro _ ⟨⟩
    exact ⟨name, e, rfl, (List.forall_mem_cons.mp hf).1,
      rereads? e (List.forall_mem_cons.mp hf).2 (List.forall_mem_cons.mp hl).2 hx⟩
  | some (.expr _), _, _, _, hd | some (.tryCatch _ _ _), _, _, _, hd
  | some (.forLoop _ _ _ _ _), _, _, _, hd | some (.forIn _ _ _ _), _, _, _, hd
  | some (.block _), _, _, _, hd | some (.whileLoop _ _ _), _, _, _, hd
  | some (.ret _ _), _, _, _, hd | some (.breakLoop _), _, _, _, hd
  | some (.continueLoop _), _, _, _, hd | some (.ifElse _ _ _ _ _), _, _, _, hd
  | some (.function _), _, _, _, hd | some (.cls _), _, _, _, hd => nomatch hd _ rfl

/-- The form for programs and blocks: each of their statements is read back. -/
theorem rereadsLines (l : Bool) : ∀ (ss : List Stmt), AllFormed (nodesLines ss) →
    AllLegible (nodesLines ss) → exitsPlacedBlock l ss = true → ∀ s ∈ ss, s.Rereads l
  | [], _, _, _ => nofun
  | s :: ss, hf, hl, hx => by
    obtain ⟨hs, hss⟩ := List.forall_mem_append.mp hf
    obtain ⟨hls, hlss⟩ := List.forall_mem_append.mp hl
    simp only [exitsPlacedBlock, Bool.and_eq_true] at hx
    exact List.forall_mem_cons.mpr ⟨s.rereads l hs hls hx.1, rereadsLines l ss hss hlss hx.2⟩

theorem rereadsElifs (l : Bool) : ∀ (bs : List ElifBranch), AllFormed (nodesElifs bs) →
    AllLegible (nodesElifs bs) → exitsPlacedElifs l bs = true → ∀ b ∈ bs, Rereads b.condition
      ∧ (∀ s ∈ b.body, s.Rereads l) ∧ SettledLines (mapLines id Expr.groupOperands b.body)
  | [], _, _, _ => nofun
  | ⟨condition, body⟩ :: bs, hf, hl, hx => by
    simp only [nodesElifs, AllFormed, AllLegible, List.forall_mem_cons,
      List.forall_mem_append] at hf hl
    simp only [exitsPlacedElifs, Bool.and_eq_true] at hx
    obtain ⟨hcondition, -, hbody, hbs⟩ := hf
    obtain ⟨hlcondition, hsettled, hlbody, hlbs⟩ := hl
    exact List.forall_mem_cons.mpr ⟨⟨condition.rereads hcondition hlcondition hx.1.1,
      rereadsLines l body hbody hlbody hx.1.2, hsettled⟩, rereadsElifs l bs hbs hlbs hx.2⟩

theorem rereadsElse (l : Bool) : ∀ (ss : Option (List Stmt)), AllFormed (nodesElse ss) →
    AllLegible (nodesElse ss) → exitsPlacedBlock? l ss = true → ∀ lines ∈ ss,
      (∀ s ∈ lines, s.Rereads l) ∧ SettledLines (mapLines id Expr.groupOperands lines)
  | none, _, _, _ => nofun
  | some ss, hf, hl, hx => by
    rintro _ ⟨⟩
    exact ⟨rereadsLines l ss (List.forall_mem_cons.mp hf).2 (List.forall_mem_cons.mp hl).2 hx,
      (List.forall_mem_cons.mp hl).1⟩

theorem rereadsMethods : ∀ (ds : List FunctionDecl), AllFormed (nodesMethods ds) →
    AllLegible (nodesMethods ds) → exitsPlacedMethods ds = true → ∀ d ∈ ds, d.Rereads
  | [], _, _, _ => nofun
  | d :: ds, hf, hl, hx => by
    obtain ⟨hd, hds⟩ := List.forall_mem_append.mp hf
    obtain ⟨hld, hlds⟩ := List.forall_mem_append.mp hl
    simp only [exitsPlacedMethods, Bool.and_eq_true] at hx
    exact List.forall_mem_cons.mpr ⟨d.rereads hd hld hx.1, rereadsMethods ds hds hlds hx.2⟩

end

end Statements

end Script
