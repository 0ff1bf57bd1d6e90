import Script.Proofs.Parser.Simulation

/-!
# `Proofs.Parser.Totality` — every list of tokens has an outcome

The grammar is read alike by cursor and by position (`Grammar.sim_program`), however many levels
and rounds there are beyond the number of tokens. So neither runs out of them, and no look at a
token leaves the vector: each list of tokens has an outcome (`parse_total`).

What is nested in a production is read behind a token of it, and so is the next round of a
repetition. That is all that the proofs for the productions have to say. The levels then follow by
induction on how many tokens there are to read.
-/

namespace Script

open TokenReader

/-- What two levels have in common that last for less than `k` tokens: what they read is read alike,
    and is not empty. -/
structure Level.Sim (k : Nat) (g : Level ParseM) (g' : Level Scan) : Prop where
  rounds : k ≤ g.rounds
  rounds' : k ≤ g'.rounds
  expression : Script.Sim k 1 g.expression g'.expression
  prefixed : Script.Sim k 1 g.prefixed g'.prefixed
  declaration : Script.Sim k 1 g.declaration g'.declaration

namespace Grammar

variable {k n n' : Nat} {g : Level ParseM} {g' : Level Scan}

/-! ## Functions and blocks -/

/-- The statements of a block. A round reads a declaration, which takes at least one token, so that
    the next round has less to read and needs fewer rounds. -/
theorem sim_statements (hg : Level.Sim k g g') (hn : k ≤ n) (hn' : k ≤ n') :
    Sim k 0 (statements g n) (statements g' n') := by
  refine Sim.loop (p := fun n _ => statements g n) (q := fun n _ => statements g' n) ?_ hn hn' ()
  intro j n n' hj ih _
  have hdeclaration := hg.declaration.mono hj (Nat.le_refl 1)
  exact Sim.skipNewlines.andThen fun _ => .ifEat (.pure _) (.ifEnd (.fail_bind _) fun _ =>
    hdeclaration.andThen_succ fun s => (ih ()).map _)

theorem sim_block (hg : Level.Sim k g g') : Sim k 0 (block g) (block g') :=
  sim_statements hg hg.rounds hg.rounds'

theorem sim_bracedBlock (hg : Level.Sim k g g') : Sim k 1 (bracedBlock g) (bracedBlock g') :=
  (Sim.expect _ _).andThen fun _ => sim_block hg

/-- Parameters: each round takes a name and a comma before the next one begins. -/
theorem sim_parametersAfter (hn : k ≤ n) (hn' : k ≤ n') (count : Nat) :
    Sim k 0 (parametersAfter n count) (parametersAfter n' count) := by
  refine Sim.loop ?_ hn hn' count
  intro j n n' _ ih count
  refine .ite _ (.fail_bind _) ?_
  exact ((Sim.expect _ _).andThen_succ fun t => .ifEat ((ih _).map _) (.pure _)).weaken

theorem sim_parameters (hg : Level.Sim k g g') : Sim k 0 (parameters g) (parameters g') :=
  .ifNext (.pure _) (sim_parametersAfter hg.rounds hg.rounds' 0)

/-- A body may be a lone expression, so that nothing is promised about the tokens it takes. -/
theorem sim_functionBody (hg : Level.Sim k g g') : Sim k 0 (functionBody g) (functionBody g') :=
  .ifEat ((sim_block hg).map _) (hg.expression.map _)

/-- The opening parenthesis is the token behind which parameters and body are read. -/
theorem sim_functionRest (hg : Level.Sim k g g') (name : Option Token) :
    Sim k 1 (functionRest g name) (functionRest g' name) :=
  (Sim.expect _ _).andThen fun _ => (sim_parameters hg).andThen fun _ =>
    (Sim.expect _ _).andThen fun _ => (sim_functionBody hg).map _

theorem sim_namedFunction (hg : Level.Sim k g g') :
    Sim k 1 (namedFunction g) (namedFunction g') :=
  (Sim.expect _ _).andThen fun name => .inFunction _ (sim_functionRest hg (some name))

theorem sim_lambda (hg : Level.Sim k g g') : Sim k 0 (lambda g) (lambda g') :=
  Sim.callStack.andThen fun _ => .inFunction _ (sim_functionRest hg none)

/-! ## Expressions -/

/-- Arguments: an expression takes at least one token, and the comma another one, so there is a
    round for each. -/
theorem sim_argumentsAfter (hg : Level.Sim k g g') (closing : TokenKind) (hn : k ≤ n)
    (hn' : k ≤ n') (count : Nat) :
    Sim k 0 (argumentsAfter g closing n count) (argumentsAfter g' closing n' count) := by
  refine Sim.loop ?_ hn hn' count
  intro j n n' hj ih count
  have hexpression := hg.expression.mono hj (Nat.le_refl 1)
  exact .ite _ (.fail_bind _) (hexpression.andThen fun e =>
    .unlessEat_succ (.ifNext (.pure _) ((ih _).map _)) (.pure _)).weaken

theorem sim_arguments (hg : Level.Sim k g g') (closing : TokenKind) :
    Sim k 0 (arguments g closing) (arguments g' closing) :=
  .ifNext (.pure _) (sim_argumentsAfter hg closing hg.rounds hg.rounds' 0)

/-- Entries of a dictionary, each of them a key, a colon and a value. -/
theorem sim_entries (hg : Level.Sim k g g') (hn : k ≤ n) (hn' : k ≤ n') :
    Sim k 0 (entries g n) (entries g' n') := by
  refine Sim.loop (p := fun n _ => entries g n) (q := fun n _ => entries g' n) ?_ hn hn' ()
  intro j n n' hj ih _
  have hexpression := hg.expression.mono hj (Nat.le_refl 1)
  exact .ifNext (.pure _) (hexpression.andThen fun key => (Sim.expect _ _).andThen fun _ =>
    hexpression.andThen fun value => .unlessEat_succ ((ih ()).map _) (.pure _))

theorem sim_superMethod (keyword : Token) : Sim k 0 (superMethod keyword) (superMethod keyword) :=
  .ifNext (.pure _) ((Sim.expect _ _).andThen fun _ => (Sim.expect _ _).map _)

/-- Both readers choose by the same first token, so they go on with parsers that are alike or both
    with none. -/
theorem sim_primaryAfter (hg : Level.Sim k g g') (t : Token) :
    Option.Rel (Sim k 0) (primaryAfter g t) (primaryAfter g' t) := by
  unfold primaryAfter
  cases t.constant? with
  | some c => exact .some (.pure _)
  | none =>
      cases t.kind with
      | identifier => exact .some (.pure _)
      | kwThis => exact .some (.pure _)
      | leftParen => exact .some (hg.expression.andThen fun _ => (Sim.expect _ _).map _).weaken
      | leftBracket => exact .some ((sim_arguments hg _).andThen fun _ => (Sim.expect _ _).map _)
      | leftBrace =>
          exact .some ((sim_entries hg hg.rounds hg.rounds').andThen fun _ =>
            (Sim.expect _ _).map _)
      | kwFn => exact .some ((sim_lambda hg).map _)
      | kwSuper => exact .some (sim_superMethod t)
      | _ => exact .none

/-- The first token has been taken, so what is nested behind it is within the level below. This is
    where one level of nesting is paid for. -/
theorem sim_primary (hg : Level.Sim k g g') : Sim (k + 1) 1 (primary g) (primary g') :=
  .dispatch (Nat.le_refl _) (Nat.le_refl _) (sim_primaryAfter hg) (.fail _)

theorem sim_sliceComponent (hg : Level.Sim k g g') :
    Sim k 0 (sliceComponent g) (sliceComponent g') :=
  .ifNext (.pure _) (.ifNext (.pure _) (.ifEnd (.pure _) fun _ => (hg.expression.map _).weaken))

theorem sim_sliceRest (hg : Level.Sim k g g') (object : Expr) (bracket : Token)
    (first : Option Expr) (firstColon : Token) :
    Sim k 0 (sliceRest g object bracket first firstColon)
      (sliceRest g' object bracket first firstColon) :=
  (sim_sliceComponent hg).andThen fun _ =>
    .eat_bind (fun _ => (sim_sliceComponent hg).map _) (.pure _)

theorem sim_accessParts (hg : Level.Sim k g g') (object : Expr) (bracket : Token) :
    Sim k 0 (accessParts g object bracket) (accessParts g' object bracket) :=
  .eat_bind (fun _ => sim_sliceRest hg ..) (hg.expression.andThen fun _ =>
    .eat_bind (fun _ => sim_sliceRest hg ..) (.pure _))

/-- What a token behind an expression leads to, with the same choice on both sides. -/
theorem sim_suffixAfter (hg : Level.Sim k g g') (e : Expr) (t : Token) :
    Option.Rel (Sim k 0) (suffixAfter g e t) (suffixAfter g' e t) := by
  unfold suffixAfter
  cases t.kind with
  | leftParen => exact .some ((sim_arguments hg _).andThen fun _ => (Sim.expect _ _).map _)
  | dot => exact .some ((Sim.expect _ _).map _).weaken
  | leftBracket => exact .some ((sim_accessParts hg e t).andThen fun _ => (Sim.expect _ _).map _)
  | _ => exact .none

/-- Each suffix begins with a token of its own, and the next round has less to read. -/
theorem sim_suffixes (hg : Level.Sim k g g') (hn : k ≤ n) (hn' : k ≤ n') (e : Expr) :
    Sim k 0 (suffixes g n e) (suffixes g' n' e) := by
  refine Sim.loop ?_ hn hn' e
  intro j n n' hj ih e
  refine .dispatch (Nat.le_refl _) (Nat.zero_le _) (fun t => ?_) (.pure e)
  have hsuffix := sim_suffixAfter hg e t
  generalize suffixAfter g e t = o at hsuffix ⊢
  generalize suffixAfter g' e t = o' at hsuffix ⊢
  cases hsuffix with
  | none => exact .none
  | some h => exact .some ((h.mono (Nat.le_of_succ_le hj) (Nat.le_refl _)).andThen ih)

theorem sim_call (hg : Level.Sim k g g') : Sim (k + 1) 1 (call g) (call g') :=
  (sim_primary hg).andThen_succ fun e => sim_suffixes hg hg.rounds hg.rounds' e

/-- A prefix operator is followed by a prefixed expression of the level below; without one it is a
    call. -/
theorem sim_prefixed (hg : Level.Sim k g g') : Sim (k + 1) 1 (prefixed g) (prefixed g') := by
  refine .dispatch (Nat.le_refl _) (Nat.le_refl _) (fun t => ?_) (sim_call hg)
  split
  · exact .some (hg.prefixed.map _).weaken
  · exact .none

section Tiers

variable {operators : List TokenKind} {build : Expr → Token → Expr → Expr} {operand : ParseM Expr}
  {operand' : Scan Expr}

/-- Operators and operands of one precedence: a round takes the operator and then an operand. -/
theorem sim_operands (h : Sim (k + 1) 1 operand operand') (hn : k ≤ n) (hn' : k ≤ n')
    (left : Expr) :
    Sim k 0 (operands operators build operand n left)
      (operands operators build operand' n' left) := by
  refine Sim.loop ?_ hn hn' left
  intro j n n' hj ih left
  have hoperand := h.mono (show j ≤ k + 1 by omega) (Nat.le_refl 1)
  exact .eatAny_bind (Nat.le_refl _) (Nat.zero_le _)
    (fun operator => (hoperand.andThen fun right => ih _).weaken) (.pure left)

theorem sim_leftAssoc (hg : Level.Sim k g g') (h : Sim (k + 1) 1 operand operand') :
    Sim (k + 1) 1 (leftAssoc g operators build operand) (leftAssoc g' operators build operand') :=
  h.andThen_succ fun left => sim_operands h hg.rounds hg.rounds' left

end Tiers

/-- The tiers of precedence are built on prefixed expressions, each by `leftAssoc`, without going
    down a level. -/
theorem sim_disjunction (hg : Level.Sim k g g') :
    Sim (k + 1) 1 (disjunction g) (disjunction g') := by
  have hpower : Sim (k + 1) 1 (power g) (power g') := sim_leftAssoc hg (sim_prefixed hg)
  have hproduct : Sim (k + 1) 1 (product g) (product g') := sim_leftAssoc hg hpower
  have hsum : Sim (k + 1) 1 (sum g) (sum g') := sim_leftAssoc hg hproduct
  have hcomparison : Sim (k + 1) 1 (comparison g) (comparison g') := sim_leftAssoc hg hsum
  have hequality : Sim (k + 1) 1 (equality g) (equality g') := sim_leftAssoc hg hcomparison
  have hconjunction : Sim (k + 1) 1 (conjunction g) (conjunction g') := sim_leftAssoc hg hequality
  exact sim_leftAssoc hg hconjunction

/-- Whether a tree can be assigned to is the same question on both sides, since the trees are the
    same. -/
theorem sim_assignment (target value : Expr) (e : ParserError) :
    Sim k 0 (match assignment? target value with
        | some a => (pure a : ParseM Expr)
        | none => raise e)
      (match assignment? target value with
        | some a => pure a
        | none => raise e) := by
  cases assignment? target value with
  | some a => exact .pure a
  | none => exact .raise e

theorem sim_expression (hg : Level.Sim k g g') : Sim (k + 1) 1 (expression g) (expression g') :=
  (sim_disjunction hg).andThen fun target => .eat_bind_succ
    (fun _ => hg.expression.andThen fun value => sim_assignment target value _) (.pure target)

/-! ## Statements -/

theorem sim_letRest (hg : Level.Sim k g g') : Sim k 1 (letRest g) (letRest g') := by
  have hexpression := (sim_expression hg).mono (Nat.le_succ k) (Nat.le_refl 1)
  exact (Sim.expect _ _).andThen fun _ => .ifEat (hexpression.map _) (.pure _)

/-- Members of a class: each takes at least its name, and the mark of a method of the class itself
    may stand in front. -/
theorem sim_members (hg : Level.Sim k g g') (hn : k ≤ n) (hn' : k ≤ n') :
    Sim k 0 (members g n) (members g' n') := by
  refine Sim.loop (p := fun n _ => members g n) (q := fun n _ => members g' n) ?_ hn hn' ()
  intro j n n' hj ih _
  have hfunction := (sim_namedFunction hg).mono hj (Nat.le_refl 1)
  -- It is the function that counts as read, not the mark before it.
  exact .ifNext (.pure _) (.ifEnd (.pure _) fun _ => .eat_bind
    (fun _ => hfunction.andThen_succ fun _ => (ih ()).map _)
    (hfunction.andThen_succ fun _ => (ih ()).map _))

theorem sim_superClass : Sim k 0 (superClass : ParseM (Option Token)) superClass :=
  .ifEat ((Sim.expect _ _).map _) (.pure _)

theorem sim_classText (hg : Level.Sim k g g') : Sim k 1 (classText g) (classText g') :=
  (Sim.expect _ _).andThen fun _ => sim_superClass.andThen fun _ =>
    (Sim.expect _ _).andThen fun _ => (sim_members hg hg.rounds hg.rounds').andThen fun _ =>
      (Sim.expect _ _).map _

theorem sim_classRest (hg : Level.Sim k g g') : Sim k 1 (classRest g) (classRest g') :=
  (sim_classText hg).map _

/-- The names of a loop, with a comma before each next one. -/
theorem sim_loopVariables (hn : k ≤ n) (hn' : k ≤ n') :
    Sim k 0 (loopVariables n : ParseM (List Token)) (loopVariables n') := by
  refine Sim.loop (p := fun n _ => loopVariables n) (q := fun n _ => loopVariables n) ?_ hn hn' ()
  intro j n n' _ ih _
  exact .eat_bind_succ (fun _ => .eat_bind (fun _ => (ih ()).map _) ((ih ()).map _)) (.pure [])

theorem sim_forInRest (hg : Level.Sim k g g') (keyword : Token) :
    Sim k 0 (forInRest g keyword) (forInRest g' keyword) := by
  have hexpression := (sim_expression hg).mono (Nat.le_succ k) (Nat.le_refl 1)
  exact (sim_loopVariables hg.rounds hg.rounds').andThen fun _ => (Sim.expect _ _).andThen fun _ =>
    hexpression.andThen fun _ => hg.declaration.map _

theorem sim_forInitializer (hg : Level.Sim k g g') :
    Sim k 0 (forInitializer g) (forInitializer g') :=
  .ifEat (.pure _) (.ifEat ((sim_letRest hg).andThen fun _ => (Sim.expect _ _).map _)
    (Sim.lineHere.andThen fun _ => (Sim.report _).map _))

/-- Both readers look at the same token to tell the two kinds of `for` loops apart. -/
theorem sim_forRest (hg : Level.Sim k g g') (keyword : Token) :
    Sim k 0 (forRest g keyword) (forRest g' keyword) := by
  have hexpression := (sim_expression hg).mono (Nat.le_succ k) (Nat.le_refl 1)
  exact .ifNext (sim_forInRest hg keyword) ((sim_forInitializer hg).andThen fun _ =>
    hexpression.andThen fun _ => (Sim.expect _ _).andThen fun _ => hexpression.andThen fun _ =>
      hg.declaration.map _)

theorem sim_whileRest (hg : Level.Sim k g g') (keyword : Token) :
    Sim k 1 (whileRest g keyword) (whileRest g' keyword) := by
  have hexpression := (sim_expression hg).mono (Nat.le_succ k) (Nat.le_refl 1)
  exact hexpression.andThen fun _ => hg.declaration.map _

theorem sim_tryRest (hg : Level.Sim k g g') : Sim k 1 (tryRest g) (tryRest g') :=
  hg.declaration.andThen fun _ => (Sim.expect _ _).andThen fun _ =>
    (Sim.expect _ _).andThen fun _ => hg.declaration.map _

/-- Each `elif` branch takes its keyword, so there are rounds enough for all of them. -/
theorem sim_elifBranches (hg : Level.Sim k g g') (hn : k ≤ n) (hn' : k ≤ n') :
    Sim k 0 (elifBranches g n) (elifBranches g' n') := by
  refine Sim.loop (p := fun n _ => elifBranches g n) (q := fun n _ => elifBranches g' n)
    ?_ hn hn' ()
  intro j n n' hj ih _
  have hexpression := (sim_expression hg).mono (show j ≤ k + 1 by omega) (Nat.le_refl 1)
  have hblock := (sim_bracedBlock hg).mono (Nat.le_of_succ_le hj) (Nat.le_refl 1)
  exact .ifEat_succ (hexpression.andThen fun _ => hblock.andThen fun _ => (ih ()).map _) (.pure [])

theorem sim_ifRest (hg : Level.Sim k g g') (keyword : Token) :
    Sim k 1 (ifRest g keyword) (ifRest g' keyword) := by
  have hexpression := (sim_expression hg).mono (Nat.le_succ k) (Nat.le_refl 1)
  exact hexpression.andThen fun _ => (sim_bracedBlock hg).andThen fun _ =>
    (sim_elifBranches hg hg.rounds hg.rounds').andThen fun _ =>
      .ifEat ((sim_bracedBlock hg).map _) (.pure _)

/-- Whether a value follows `return` depends on the kind of the next token, which both readers
    see. -/
theorem sim_returnRest (hg : Level.Sim k g g') (keyword : Token) :
    Sim k 0 (returnRest g keyword) (returnRest g' keyword) := by
  have hexpression := (sim_expression hg).mono (Nat.le_succ k) (Nat.zero_le 1)
  refine Sim.kindHere.bind fun kind => ?_
  cases kind with
  | newline => exact .pure _
  | rightBrace => exact .pure _
  | eof => exact .pure _
  | _ => exact hexpression.map _

theorem sim_loopExit (statement : Token → Stmt) (keyword : Token) :
    Sim k 0 (loopExit statement keyword : ParseM Stmt) (loopExit statement keyword) :=
  Sim.callStack.andThen fun _ => .ite _ ((Sim.report _).map _) (.pure _)

/-- The table of statements. Each entry reads what is nested in it behind the keyword that chose
    it. -/
theorem sim_statementAfter (hg : Level.Sim k g g') (t : Token) :
    Option.Rel (Sim k 0) (statementAfter g t) (statementAfter g' t) := by
  unfold statementAfter
  cases t.kind with
  | kwClass => exact .some (sim_classRest hg).weaken
  | kwFn => exact .some ((sim_namedFunction hg).map _).weaken
  | kwLet => exact .some (sim_letRest hg).weaken
  | kwFor => exact .some (.inLoop (sim_forRest hg t))
  | kwTry => exact .some (sim_tryRest hg).weaken
  | kwIf => exact .some (sim_ifRest hg t).weaken
  | kwReturn => exact .some (sim_returnRest hg t)
  | kwBreak => exact .some (sim_loopExit _ t)
  | kwContinue => exact .some (sim_loopExit _ t)
  | kwWhile => exact .some (.inLoop (sim_whileRest hg t).weaken)
  | leftBrace => exact .some ((sim_block hg).map _)
  | _ => exact .none

theorem sim_declaration (hg : Level.Sim k g g') :
    Sim (k + 1) 1 (declaration g) (declaration g') :=
  .dispatch (Nat.le_refl _) (Nat.le_refl _) (sim_statementAfter hg) ((sim_expression hg).map _)

theorem sim_topDeclaration (hg : Level.Sim k g g') :
    Sim (k + 1) 1 (topDeclaration g) (topDeclaration g') :=
  (sim_declaration hg).andThen fun _ => Sim.expectNewline.map _

/-- Reading resumes behind the place of a fault, so that each round leaves less to read. -/
theorem sim_program (hg : Level.Sim k g g') (hn : k ≤ n) (hn' : k ≤ n') :
    Sim k 0 (program g n) (program g' n') := by
  refine Sim.loop (p := fun n _ => program g n) (q := fun n _ => program g' n) ?_ hn hn' ()
  intro j n n' hj ih _
  have htop := (sim_topDeclaration hg).mono (show j + 1 ≤ k + 1 by omega) (Nat.le_refl 1)
  refine Sim.skipNewlines.bind fun _ => .ifEnd (.pure []) fun hsome => ?_
  -- A fault may be found before anything is read. Then it is `resume` that moves on, and it can,
  -- because there is a token left.
  refine .attempt_bind htop (fun s => (ih ()).map _) fun e => (Sim.report e).bind fun _ => ?_
  exact .ite _ (.pure []) (.resume_bind (by omega) (ih ()))

end Grammar

/-! ## Levels and programs -/

namespace Level.Sim

/-- A level is made of the one below: what it reads may be longer by the token behind which the
    level below is entered. -/
theorem above {k : Nat} {g : Level ParseM} {g' : Level Scan} (hg : Level.Sim k g g') :
    Level.Sim (k + 1) g.above g'.above where
  rounds := Nat.succ_le_succ hg.rounds
  rounds' := Nat.succ_le_succ hg.rounds'
  expression := Grammar.sim_expression hg
  prefixed := Grammar.sim_prefixed hg
  declaration := Grammar.sim_declaration hg

/-- As many levels as there are tokens to read are enough, and more do not change anything. -/
theorem ofDepth {k n n' : Nat} (hn : k ≤ n) (hn' : k ≤ n') :
    Level.Sim k (Level.ofDepth n) (Level.ofDepth n') := by
  induction k generalizing n n' with
  | zero => exact ⟨Nat.zero_le _, Nat.zero_le _, .exhausted, .exhausted, .exhausted⟩
  | succ k ih =>
      obtain ⟨n, rfl⟩ := Nat.exists_eq_add_of_le' hn
      obtain ⟨n', rfl⟩ := Nat.exists_eq_add_of_le' hn'
      exact (ih (Nat.le_of_succ_le_succ hn) (Nat.le_of_succ_le_succ hn')).above

end Level.Sim

/-! ## The first end marker -/

theorem beforeEnd_append_dropWhile (tokens : List Token) :
    beforeEnd tokens ++ tokens.dropWhile (·.kind != .eof) = tokens :=
  List.takeWhile_append_dropWhile

/-- What the tokens are cut at is an end marker. -/
theorem kind_eq_eof_of_dropWhile {tokens behind : List Token} {marker : Token}
    (h : tokens.dropWhile (·.kind != .eof) = marker :: behind) : marker.kind = .eof := by
  have hhead := List.head?_dropWhile_not (·.kind != .eof) tokens
  rw [h] at hhead
  simpa using hhead

theorem kind_ne_eof_of_mem {tokens : List Token} {t : Token} (h : t ∈ beforeEnd tokens) :
    t.kind ≠ .eof := by
  have hall : (beforeEnd tokens).all (·.kind != .eof) = true := List.all_takeWhile
  simpa using List.all_eq_true.mp hall t h

/-- Without an end marker one is put behind the tokens. -/
theorem closed_of_unmarked {tokens : List Token} (h : ∀ t ∈ tokens, t.kind ≠ .eof) :
    closed tokens = tokens ++ [.plain .eof "" ((tokens.getLast?.map (·.line)).getD 1)] := by
  unfold closed
  cases hlast : tokens.getLast? with
  | none =>
      rw [List.getLast?_eq_none_iff.mp hlast]
      rfl
  | some t =>
      have hkind : t.kind ≠ .eof := h t (List.mem_of_getLast? hlast)
      simp only [if_neg hkind, Option.map_some, Option.getD_some]

/-- Nothing is put anywhere but behind the tokens. -/
theorem closed_eq_append (tokens : List Token) : ∃ extra, closed tokens = tokens ++ extra := by
  unfold closed
  split
  · rename_i hlast
    rw [List.getLast?_eq_none_iff.mp hlast]
    exact ⟨_, rfl⟩
  · split
    · exact ⟨[], (List.append_nil tokens).symm⟩
    · exact ⟨_, rfl⟩

/-- Both readers begin before the first end marker. -/
theorem sees_ofTokens (tokens : List Token) :
    Sees (Place.ofTokens tokens) (Cursor.ofTokens tokens) where
  ahead := by
    show ∃ marker behind, closed tokens = beforeEnd tokens ++ marker :: behind
      ∧ marker.kind = .eof ∧ marker.line = (Cursor.ofTokens tokens).endLine
    have hsplit := beforeEnd_append_dropWhile tokens
    unfold Cursor.ofTokens
    cases hdrop : tokens.dropWhile (·.kind != .eof) with
    | nil =>
        rw [hdrop, List.append_nil] at hsplit
        have hunmarked : ∀ t ∈ tokens, t.kind ≠ .eof := by
          intro t ht
          exact kind_ne_eof_of_mem (hsplit ▸ ht)
        have hclosed := closed_of_unmarked hunmarked
        rw [hsplit]
        exact ⟨_, [], hclosed, rfl, rfl⟩
    | cons marker behind =>
        -- A marker that is put behind the tokens stands behind the first one too.
        obtain ⟨extra, hextra⟩ := closed_eq_append tokens
        have hmarker := kind_eq_eof_of_dropWhile hdrop
        refine ⟨marker, behind ++ extra, ?_, hmarker, rfl⟩
        rw [hextra, ← List.cons_append, ← List.append_assoc, ← hdrop, hsplit]
  unmarked := fun _ ht => kind_ne_eof_of_mem ht
  stack := rfl
  reported := rfl

/-! ## The outcome -/

/-- Both readings have the same outcome, whatever the bound of the one by position beyond the number
    of tokens. -/
theorem Scan.parse_eq (tokens : List Token) {depth : Nat}
    (hdepth : (beforeEnd tokens).length < depth) :
    Scan.parse depth tokens = .ok (Script.parse tokens) := by
  have hrest : (Cursor.ofTokens tokens).rest.length = (beforeEnd tokens).length := rfl
  have hlevel : Level.Sim ((beforeEnd tokens).length + 1)
      (Level.ofDepth ((beforeEnd tokens).length + 1)) (Level.ofDepth depth) :=
    .ofDepth (Nat.le_refl _) hdepth
  have hprogram := (Grammar.sim_program hlevel (Nat.le_refl _) hdepth).agrees
    (sees_ofTokens tokens) (Nat.lt_succ_self _)
  unfold Scan.parse Script.parse
  simp only [hrest]
  generalize Grammar.program (m := ParseM) _ _ (Cursor.ofTokens tokens) = r at hprogram ⊢
  generalize Grammar.program (m := Scan) _ _ (Place.ofTokens tokens) = r' at hprogram ⊢
  -- Both sides conclude from what was reported, and that is the same.
  cases hprogram with
  | ok hs _ =>
      simp only [← hs.reported]
      rfl
  | error hs _ =>
      simp only [← hs.reported]
      rfl

/-- Without a fault there is no failure. -/
theorem parse_ne_error_nil (tokens : List Token) : parse tokens ≠ .error [] := by
  unfold parse
  simp only
  split
  · split
    · simp
    · rename_i hreported
      simpa using hreported
  · simp

/-- The tokens up to the first end marker, and the marker itself. -/
def throughEnd (tokens : List Token) : List Token :=
  beforeEnd tokens ++ (tokens.dropWhile (·.kind != .eof)).take 1

/-- What is behind the first end marker is never read. -/
theorem ofTokens_throughEnd (tokens : List Token) :
    Cursor.ofTokens (throughEnd tokens) = Cursor.ofTokens tokens := by
  have hunmarked : ∀ t ∈ beforeEnd tokens, (t.kind != .eof) = true := fun t ht => by
    simpa using kind_ne_eof_of_mem ht
  unfold throughEnd
  cases hdrop : tokens.dropWhile (·.kind != .eof) with
  | nil =>
      have hsplit := beforeEnd_append_dropWhile tokens
      rw [hdrop] at hsplit
      rw [List.take_nil, hsplit]
  | cons marker behind =>
      have hmarker := kind_eq_eof_of_dropWhile hdrop
      unfold Cursor.ofTokens
      rw [hdrop, List.takeWhile_append_of_pos hunmarked, List.dropWhile_append_of_pos hunmarked]
      simp [hmarker, beforeEnd]

/-- **Every list of tokens has an outcome.** Read by position, with any number of levels and rounds
    beyond the number of tokens, it is read to an end without a look outside of the vector, and the
    outcome is that of `parse`: a program, or at least one fault. What is behind the first end
    marker has no part in it. -/
theorem parse_total (tokens : List Token) :
    (∀ extra, Scan.parse ((beforeEnd tokens).length + 1 + extra) tokens = .ok (parse tokens))
      ∧ ((∃ program, parse tokens = .ok program) ∨ ∃ e errors, parse tokens = .error (e :: errors))
      ∧ parse (throughEnd tokens) = parse tokens := by
  refine ⟨fun extra => Scan.parse_eq tokens (by omega), ?_, ?_⟩
  · cases hparse : parse tokens with
    | ok program => exact .inl ⟨program, rfl⟩
    | error errors =>
        cases errors with
        | nil => exact absurd hparse (parse_ne_error_nil tokens)
        | cons e errors => exact .inr ⟨e, errors, rfl⟩
  · unfold parse
    rw [ofTokens_throughEnd]

end Script
