import Script.Proofs.Parser.Programs

/-!
# `Proofs.Parser.Frames` — the open functions and loops of the parser

Whether `break` may stand at a place is decided by the functions and loops that are open around it.
A fault leaves them by the shortest way, from any depth, and then reading goes on with the next
statement; a function or loop that stayed open would let `break` stand in statements that have
nothing to do with it. None stays open: a parser is *steady* (`ParseM.Steady`) if it leaves the open
functions and loops as it found them, however it ends, and every production is steady.

The statements of a program are read one attempt after the other (`Grammar.attempts`). The main
statement, `parser_frames_balanced`, says of every attempt that only the root frame is open after
it, and of all faults together that at most the last one is fatal and that none is the parser's own.
-/

namespace Script

open TokenReader

/-- Whether a fault is the parser's own: it lost track of the functions that are open. -/
def ParserFault.isInternal : ParserFault → Bool
  | .internal _ => true
  | _ => false

/-- The parser's own faults are fatal. -/
theorem ParserFault.isInternal_of_not_fatal {f : ParserFault} (hf : f.isFatal = false) :
    f.isInternal = false := by
  cases f <;> first | rfl | cases hf

/-! ## Steady parsers -/

/-- The same functions and loops are open at two cursors, and what was reported between them is not
    fatal. -/
structure Cursor.Keeps (c c' : Cursor) : Prop where
  stack : c'.stack = c.stack
  reported : ∃ more, c'.reported = c.reported ++ more ∧ ∀ e ∈ more, e.fault.isFatal = false

theorem Cursor.Keeps.refl (c : Cursor) : c.Keeps c :=
  ⟨rfl, [], (List.append_nil _).symm, by simp⟩

/-- What is kept twice is kept: the two lists of reports that are not fatal are put together. -/
theorem Cursor.Keeps.trans {c c' c'' : Cursor} (h : c.Keeps c') (h' : c'.Keeps c'') :
    c.Keeps c'' := by
  obtain ⟨more, hmore, hminor⟩ := h.reported
  obtain ⟨more', hmore', hminor'⟩ := h'.reported
  refine ⟨h'.stack.trans h.stack, more ++ more', ?_, ?_⟩
  · rw [hmore', hmore, List.append_assoc]
  · exact List.forall_mem_append.mpr ⟨hminor, hminor'⟩

/-- Moving on in the tokens touches neither. -/
theorem Cursor.Keeps.move (c : Cursor) (rest : List Token) : c.Keeps { c with rest } :=
  ⟨rfl, [], (List.append_nil _).symm, by simp⟩

/-- However the parser ends, what is open stays the same, and it finds no fault of its own. -/
structure ParseM.Steady {α : Type} (p : ParseM α) : Prop where
  ok : ∀ {c a c'}, p c = .ok a c' → c.Keeps c'
  error : ∀ {c e c'}, p c = .error e c' → c.Keeps c' ∧ e.fault.isInternal = false

namespace ParseM.Steady

variable {α β : Type} {p q : ParseM α} {f : α → ParseM β}

theorem pure (a : α) : Steady (Pure.pure a : ParseM α) where
  ok h := by
    cases h
    exact .refl _
  error h := by cases h

/-- An error that is raised leaves the cursor where it is, so only the fault itself has to be looked
    at. -/
theorem raise {e : ParserError} (he : e.fault.isInternal = false) :
    Steady (TokenReader.raise e : ParseM α) where
  ok h := by cases h
  error h := by
    cases h
    exact ⟨.refl _, he⟩

theorem fail {fault : ParserFault} (hf : fault.isInternal = false) :
    Steady (TokenReader.fail fault : ParseM α) where
  ok h := by cases h
  error h := by
    cases h
    exact ⟨.refl _, hf⟩

theorem exhausted : Steady (TokenReader.exhausted : ParseM α) :=
  fail rfl

/-- A report is no reason to stop. -/
theorem report {e : ParserError} (he : e.fault.isFatal = false) :
    Steady (TokenReader.report e : ParseM Unit) where
  ok h := by
    cases h
    exact ⟨rfl, [e], rfl, by simpa using he⟩
  error h := by cases h

/-- Looking at the place changes nothing. -/
theorem look (g : Cursor → α) : Steady (fun c => .ok (g c) c : ParseM α) where
  ok h := by
    cases h
    exact .refl _
  error h := by cases h

theorem lineHere : Steady (TokenReader.lineHere : ParseM Nat) := look Cursor.line

theorem kindHere : Steady (TokenReader.kindHere : ParseM TokenKind) := look Cursor.kind

theorem callStack : Steady (TokenReader.callStack : ParseM CallStack) := look Cursor.stack

theorem atEnd : Steady (TokenReader.atEnd : ParseM Bool) := look (·.rest.isEmpty)

/-- Line feeds are skipped by moving on in the tokens, which has nothing to do with what is open. -/
theorem skipNewlines : Steady (TokenReader.skipNewlines : ParseM Unit) where
  ok h := by
    cases h
    exact .move _ _
  error h := by cases h

/-- If the next token after line feeds is of the kind, the line feeds are skipped, and otherwise
    nothing is. The token itself is left in both cases. -/
theorem nextIs (kind : TokenKind) : Steady (TokenReader.nextIs kind : ParseM Bool) where
  ok {c a c'} h := by
    change ParseM.nextIs kind c = _ at h
    unfold ParseM.nextIs at h
    split at h
    · cases h
      exact .move _ _
    · cases h
      exact .refl _
  error {c e c'} h := by
    change ParseM.nextIs kind c = _ at h
    unfold ParseM.nextIs at h
    split at h <;> cases h

/-- A line feed has to be the very next token. Anything else is a fault of the text. -/
theorem expectNewline : Steady (TokenReader.expectNewline : ParseM Unit) where
  ok {c a c'} h := by
    change ParseM.expectNewline c = _ at h
    unfold ParseM.expectNewline at h
    split at h
    · split at h
      · cases h
        exact .move _ _
      · cases h
    · cases h
  error {c e c'} h := by
    change ParseM.expectNewline c = _ at h
    unfold ParseM.expectNewline at h
    split at h
    · split at h
      · cases h
      · cases h
        exact ⟨.refl _, rfl⟩
    · cases h
      exact ⟨.refl _, rfl⟩

/-! ### Parsers made of others -/

/-- Steady parsers one after the other are steady: this is what carries the property through every
    production that is a sequence. -/
theorem bind (hp : p.Steady) (hf : ∀ a, (f a).Steady) : Steady (p >>= f) where
  ok h := by
    obtain ⟨a, c₁, hfirst, hsecond⟩ := Exact.bind_ok.mp h
    exact (hp.ok hfirst).trans ((hf a).ok hsecond)
  error {c e c'} h := by
    change EStateM.bind p f c = _ at h
    unfold EStateM.bind at h
    split at h
    · rename_i a c₁ hfirst
      obtain ⟨hkeeps, he⟩ := (hf a).error h
      exact ⟨(hp.ok hfirst).trans hkeeps, he⟩
    · rename_i e₁ c₁ hfirst
      cases h
      exact hp.error hfirst

theorem map (hp : p.Steady) (f : α → β) : Steady (p >>= fun a => Pure.pure (f a)) :=
  hp.bind fun a => pure (f a)

/-- A choice is steady if both ways are, whichever is taken. -/
theorem ite {c : Prop} [Decidable c] (hp : p.Steady) (hq : q.Steady) :
    Steady (if c then p else q) := by
  split
  · exact hp
  · exact hq

/-- Whether a token is taken or not, the parser that goes on is steady. -/
theorem dispatch {accept : Token → Option (ParseM α)} (haccept : ∀ t, ∀ p ∈ accept t, Steady p)
    (hq : q.Steady) : Steady (TokenReader.dispatch accept q) := by
  have hcases : ∀ c, (∃ t, ∃ rest, ∃ p ∈ accept t, ParseM.dispatch accept q c = p { c with rest })
      ∨ ParseM.dispatch accept q c = q c := by
    intro c
    unfold ParseM.dispatch
    split
    · rename_i t rest _
      split
      · rename_i p hp
        exact .inl ⟨t, rest, p, hp, rfl⟩
      · exact .inr rfl
    · exact .inr rfl
  constructor
  · intro c a c' h
    change ParseM.dispatch accept q c = _ at h
    rcases hcases c with ⟨t, rest, p, hp, heq⟩ | heq
    · rw [heq] at h
      exact (Cursor.Keeps.move c rest).trans ((haccept t p hp).ok h)
    · rw [heq] at h
      exact hq.ok h
  · intro c e c' h
    change ParseM.dispatch accept q c = _ at h
    rcases hcases c with ⟨t, rest, p, hp, heq⟩ | heq
    · rw [heq] at h
      obtain ⟨hkeeps, he⟩ := (haccept t p hp).error h
      exact ⟨(Cursor.Keeps.move c rest).trans hkeeps, he⟩
    · rw [heq] at h
      exact hq.error h

/-- A token of one of some kinds is taken, or nothing is. -/
theorem eatAny (kinds : List TokenKind) :
    Steady (TokenReader.eatAny? kinds : ParseM (Option Token)) := by
  refine dispatch (fun t p hp => ?_) (pure none)
  split at hp
  · cases hp
    exact pure (some t)
  · cases hp

theorem eat (kind : TokenKind) : Steady (TokenReader.eat? kind : ParseM (Option Token)) :=
  eatAny [kind]

/-- If the expected token is missing, its fault is raised, which is one of the text and not of the
    parser. -/
theorem expect (kind : TokenKind) {fault : ParserFault} (hf : fault.isInternal = false) :
    Steady (TokenReader.expect kind fault : ParseM Token) := by
  refine dispatch (fun t p hp => ?_) (fail hf)
  split at hp
  · cases hp
    exact pure t
  · cases hp

/-- A loop that is entered is left, also when the parser inside fails. -/
theorem inLoop (hp : p.Steady) : Steady (TokenReader.inLoop p : ParseM α) := by
  have hleave : ∀ {c c' : Cursor}, Cursor.Keeps { c with stack := c.stack.enterLoop } c' →
      c.Keeps { c' with stack := c'.stack.leaveLoop } := by
    intro c c' h
    refine ⟨?_, h.reported⟩
    rw [h.stack]
    exact c.stack.leaveLoop_enterLoop
  constructor
  · intro c a c' h
    change ParseM.inLoop p c = _ at h
    unfold ParseM.inLoop at h
    split at h
    · rename_i hrun
      cases h
      exact hleave (hp.ok hrun)
    · cases h
  · intro c e c' h
    change ParseM.inLoop p c = _ at h
    unfold ParseM.inLoop at h
    split at h
    · cases h
    · rename_i hrun
      cases h
      obtain ⟨hkeeps, he⟩ := hp.error hrun
      exact ⟨hleave hkeeps, he⟩

/-- The function that is left is the one that was entered, so leaving it never fails. -/
theorem inFunction (name : String) (hp : p.Steady) :
    Steady (TokenReader.inFunction name p : ParseM α) := by
  have hleave : ∀ {c c' : Cursor}, Cursor.Keeps { c with stack := c.stack.enter name } c' →
      c'.stack.leave name = .ok c.stack ∧ c.Keeps { c' with stack := c.stack } := by
    intro c c' h
    refine ⟨?_, rfl, h.reported⟩
    rw [h.stack]
    exact c.stack.leave_enter name
  constructor
  · intro c a c' h
    change ParseM.inFunction name p c = _ at h
    unfold ParseM.inFunction at h
    split at h
    · rename_i hrun
      obtain ⟨hstack, hkeeps⟩ := hleave (hp.ok hrun)
      rw [hstack] at h
      cases h
      exact hkeeps
    · rename_i hrun
      obtain ⟨hstack, -⟩ := hleave (hp.error hrun).1
      rw [hstack] at h
      cases h
  · intro c e c' h
    change ParseM.inFunction name p c = _ at h
    unfold ParseM.inFunction at h
    split at h
    · rename_i hrun
      obtain ⟨hstack, -⟩ := hleave (hp.ok hrun)
      rw [hstack] at h
      cases h
    · rename_i hrun
      obtain ⟨hkeeps, he⟩ := hp.error hrun
      obtain ⟨hstack, hkeeps⟩ := hleave hkeeps
      rw [hstack] at h
      cases h
      exact ⟨hkeeps, he⟩

end ParseM.Steady

/-! ## Productions -/

open ParseM (Steady)

/-- The parsers of a level are steady. -/
structure Level.Steady (g : Level ParseM) : Prop where
  expression : ParseM.Steady g.expression
  prefixed : ParseM.Steady g.prefixed
  declaration : ParseM.Steady g.declaration

namespace Grammar

variable {g : Level ParseM}

/-! ### Functions and blocks -/

/-- The statements up to a closing brace, by induction on the rounds that are left: each round reads
    one statement. -/
theorem steady_statements (hg : g.Steady) (n : Nat) : Steady (statements g n) := by
  induction n with
  | zero => exact .exhausted
  | succ n ih =>
      refine .bind .skipNewlines fun _ => .bind (.eat _) fun _ => .ite (.pure _) ?_
      -- What stands behind a failure is not run, but it is a part of the parser.
      refine .bind .atEnd fun _ => .ite (.bind (.fail rfl) fun _ => ?_) ?_
      · exact .bind hg.declaration fun s => ih.map _
      · exact .bind hg.declaration fun s => ih.map _

theorem steady_block (hg : g.Steady) : Steady (block g) := steady_statements hg g.rounds

theorem steady_bracedBlock (hg : g.Steady) : Steady (bracedBlock g) :=
  .bind (.expect _ rfl) fun _ => steady_block hg

/-- The bound on parameters is checked before each of them; to go beyond it is a fatal fault. -/
theorem steady_parametersAfter (n count : Nat) :
    Steady (parametersAfter n count : ParseM (List Token)) := by
  induction n generalizing count with
  | zero => exact .exhausted
  | succ n ih =>
      have hone : Steady (do
          let parameter ← expect .identifier .expectedParameter
          if (← eat? .comma).isSome then
            return parameter :: (← (parametersAfter n (count + 1) : ParseM (List Token)))
          return [parameter]) :=
        .bind (.expect _ rfl) fun _ => .bind (.eat _) fun _ => .ite ((ih _).map _) (.pure _)
      exact .ite (.bind (.fail rfl) fun _ => hone) hone

theorem steady_parameters : Steady (parameters g) :=
  .bind (.nextIs _) fun _ => .ite (.pure _) (steady_parametersAfter _ _)

/-- The body is a block or one expression. The frame it is read in is opened by those who read the
    whole function. -/
theorem steady_functionBody (hg : g.Steady) : Steady (functionBody g) :=
  .bind (.eat _) fun _ => .ite ((steady_block hg).map _) (hg.expression.map _)

/-- Parameters and body of a function, whatever frame they are read in. -/
theorem steady_functionRest (hg : g.Steady) (name : Option Token) :
    Steady (functionRest g name) := by
  refine .bind (.expect _ rfl) fun _ => .bind steady_parameters fun _ => ?_
  exact .bind (.expect _ rfl) fun _ => (steady_functionBody hg).map _

theorem steady_namedFunction (hg : g.Steady) : Steady (namedFunction g) :=
  .bind (.expect _ rfl) fun name => .inFunction _ (steady_functionRest hg (some name))

/-- The name of the frame depends on the depth, but it is the same when the frame is left. -/
theorem steady_lambda (hg : g.Steady) : Steady (lambda g) :=
  .bind .callStack fun _ => .inFunction _ (steady_functionRest hg none)

/-! ### Expressions -/

/-- The arguments up to a closing token, one in each round. The bound on their number is checked
    before each, and to go beyond it is fatal but not internal. -/
theorem steady_argumentsAfter (hg : g.Steady) (closing : TokenKind) (n count : Nat) :
    Steady (argumentsAfter g closing n count) := by
  induction n generalizing count with
  | zero => exact .exhausted
  | succ n ih =>
      have hone : Steady (do
          let argument ← g.expression
          if (← eat? .comma).isNone then return [argument]
          if ← nextIs closing then return [argument]
          return argument :: (← argumentsAfter g closing n (count + 1))) := by
        refine .bind hg.expression fun _ => .bind (.eat _) fun _ => .ite (.pure _) ?_
        exact .bind (.nextIs _) fun _ => .ite (.pure _) ((ih _).map _)
      exact .ite (.bind (.fail rfl) fun _ => hone) hone

theorem steady_arguments (hg : g.Steady) (closing : TokenKind) : Steady (arguments g closing) :=
  .bind (.nextIs _) fun _ => .ite (.pure _) (steady_argumentsAfter hg closing _ _)

/-- Keys and values up to a closing brace, one pair in each round. -/
theorem steady_entries (hg : g.Steady) (n : Nat) : Steady (entries g n) := by
  induction n with
  | zero => exact .exhausted
  | succ n ih =>
      refine .bind (.nextIs _) fun _ => .ite (.pure _) (.bind hg.expression fun _ => ?_)
      refine .bind (.expect _ rfl) fun _ => .bind hg.expression fun _ => .bind (.eat _) fun _ => ?_
      exact .ite (.pure _) (ih.map _)

theorem steady_superMethod (keyword : Token) : Steady (superMethod keyword : ParseM Expr) := by
  refine .bind (.nextIs _) fun _ => .ite (.pure _) (.bind (.expect _ rfl) fun _ => ?_)
  exact (Steady.expect _ rfl).map _

/-- What a first token of an expression leads to. Only the function without a name opens a frame. -/
theorem steady_primaryAfter (hg : g.Steady) (t : Token) : ∀ p ∈ primaryAfter g t, Steady p := by
  intro p hp
  unfold primaryAfter at hp
  split at hp
  · cases hp
    exact .pure _
  · cases hp
    exact .pure _
  · cases hp
    exact .pure _
  · cases hp
    exact .bind hg.expression fun _ => (Steady.expect _ rfl).map _
  · cases hp
    exact .bind (steady_arguments hg _) fun _ => (Steady.expect _ rfl).map _
  · cases hp
    exact .bind (steady_entries hg _) fun _ => (Steady.expect _ rfl).map _
  · cases hp
    exact (steady_lambda hg).map _
  · cases hp
    exact steady_superMethod t
  · cases hp

theorem steady_primary (hg : g.Steady) : Steady (primary g) :=
  .dispatch (steady_primaryAfter hg) (.fail rfl)

theorem steady_sliceComponent (hg : g.Steady) : Steady (sliceComponent g) := by
  refine .bind (.nextIs _) fun _ => .ite (.pure _) (.bind (.nextIs _) fun _ => .ite (.pure _) ?_)
  exact .bind .atEnd fun _ => .ite (.pure _) (hg.expression.map _)

theorem steady_sliceRest (hg : g.Steady) (object : Expr) (bracket : Token) (first : Option Expr)
    (firstColon : Token) : Steady (sliceRest g object bracket first firstColon) := by
  refine .bind (steady_sliceComponent hg) fun _ => .bind (.eat _) fun colon => ?_
  cases colon with
  | some secondColon => exact (steady_sliceComponent hg).map _
  | none => exact .pure _

/-- What stands in brackets: an index, or a slice with its colons. There are three places where a
    component may be missing. -/
theorem steady_accessParts (hg : g.Steady) (object : Expr) (bracket : Token) :
    Steady (accessParts g object bracket) := by
  refine .bind (.eat _) fun colon => ?_
  cases colon with
  | some colon => exact steady_sliceRest hg ..
  | none =>
      refine .bind hg.expression fun first => .bind (.eat _) fun colon => ?_
      cases colon with
      | some colon => exact steady_sliceRest hg ..
      | none => exact .pure _

/-- What a token behind an expression leads to: a call, a property or brackets. -/
theorem steady_suffixAfter (hg : g.Steady) (e : Expr) (t : Token) :
    ∀ p ∈ suffixAfter g e t, Steady p := by
  intro p hp
  unfold suffixAfter at hp
  split at hp
  · cases hp
    exact .bind (steady_arguments hg _) fun _ => (Steady.expect _ rfl).map _
  · cases hp
    exact (Steady.expect _ rfl).map _
  · cases hp
    exact .bind (steady_accessParts hg e t) fun _ => (Steady.expect _ rfl).map _
  · cases hp

/-- Suffixes are read as long as there are any, one in each round. -/
theorem steady_suffixes (hg : g.Steady) (n : Nat) (e : Expr) : Steady (suffixes g n e) := by
  induction n generalizing e with
  | zero => exact .exhausted
  | succ n ih =>
      refine .dispatch (fun t p hp => ?_) (.pure e)
      obtain ⟨q, hq, rfl⟩ := Option.map_eq_some_iff.mp hp
      exact .bind (steady_suffixAfter hg e t q hq) ih

theorem steady_call (hg : g.Steady) : Steady (call g) :=
  .bind (steady_primary hg) fun e => steady_suffixes hg _ e

theorem steady_prefixed (hg : g.Steady) : Steady (prefixed g) := by
  refine .dispatch (fun t p hp => ?_) (steady_call hg)
  split at hp
  · cases hp
    exact hg.prefixed.map _
  · cases hp

/-- Operators of one precedence and their right operands, one pair in each round. The left operand
    grows by each. -/
theorem steady_operands {operators : List TokenKind} {build : Expr → Token → Expr → Expr}
    {operand : ParseM Expr} (h : Steady operand) (n : Nat) (left : Expr) :
    Steady (operands operators build operand n left) := by
  induction n generalizing left with
  | zero => exact .exhausted
  | succ n ih =>
      refine .bind (.eatAny _) fun operator => ?_
      cases operator with
      | some operator => exact .bind h fun right => ih _
      | none => exact .pure left

theorem steady_leftAssoc {operators : List TokenKind} {build : Expr → Token → Expr → Expr}
    {operand : ParseM Expr} (h : Steady operand) : Steady (leftAssoc g operators build operand) :=
  .bind h fun left => steady_operands h _ left

/-- The levels of precedence from prefix operators up to `or`: each is `leftAssoc` of the one
    below. -/
theorem steady_disjunction (hg : g.Steady) : Steady (disjunction g) := by
  have hpower : Steady (power g) := steady_leftAssoc (steady_prefixed hg)
  have hproduct : Steady (product g) := steady_leftAssoc hpower
  have hsum : Steady (sum g) := steady_leftAssoc hproduct
  have hcomparison : Steady (comparison g) := steady_leftAssoc hsum
  have hequality : Steady (equality g) := steady_leftAssoc hcomparison
  have hconjunction : Steady (conjunction g) := steady_leftAssoc hequality
  exact steady_leftAssoc hconjunction

/-- An expression may be an assignment. Whether the left side can be assigned to is decided by its
    tree, and if it cannot, that is an ordinary fault. -/
theorem steady_expression (hg : g.Steady) : Steady (expression g) := by
  refine .bind (steady_disjunction hg) fun target => .bind (.eat _) fun equal => ?_
  cases equal with
  | none => exact .pure target
  | some equal =>
      refine .bind hg.expression fun value => ?_
      split
      · exact .pure _
      · exact .raise rfl

/-! ### Statements -/

theorem steady_letRest (hg : g.Steady) : Steady (letRest g) :=
  .bind (.expect _ rfl) fun _ => .bind (.eat _) fun _ =>
    .ite ((steady_expression hg).map _) (.pure _)

/-- The members of a class, methods and methods of the class itself, one in each round. -/
theorem steady_members (hg : g.Steady) (n : Nat) : Steady (members g n) := by
  induction n with
  | zero => exact .exhausted
  | succ n ih =>
      refine .bind (.nextIs _) fun _ => .ite (.pure _) (.bind .atEnd fun _ => .ite (.pure _) ?_)
      exact .bind (.eat _) fun _ => .bind (steady_namedFunction hg) fun _ => ih.map _

theorem steady_superClass : Steady (superClass : ParseM (Option Token)) :=
  .bind (.eat _) fun _ => .ite ((Steady.expect _ rfl).map _) (.pure _)

theorem steady_classRest (hg : g.Steady) : Steady (classRest g) := by
  refine .bind (.bind (.expect _ rfl) fun _ => .bind steady_superClass fun _ => ?_) fun _ => .pure _
  refine .bind (.expect _ rfl) fun _ => .bind (steady_members hg _) fun _ => ?_
  exact (Steady.expect _ rfl).map _

/-- The names between `for` and `in`, separated by commas. -/
theorem steady_loopVariables (n : Nat) : Steady (loopVariables n : ParseM (List Token)) := by
  induction n with
  | zero => exact .exhausted
  | succ n ih =>
      refine .bind (.eat _) fun identifier => ?_
      cases identifier with
      | some identifier => exact .bind (.eat _) fun _ => ih.map _
      | none => exact .pure []

theorem steady_forInRest (hg : g.Steady) (keyword : Token) : Steady (forInRest g keyword) := by
  refine .bind (steady_loopVariables _) fun _ => .bind (.expect _ rfl) fun _ => ?_
  exact .bind (steady_expression hg) fun _ => hg.declaration.map _

/-- An initializer that is no declaration is reported, and reading goes on. -/
theorem steady_forInitializer (hg : g.Steady) : Steady (forInitializer g) := by
  refine .bind (.eat _) fun _ => .ite (.pure _) (.bind (.eat _) fun _ => .ite ?_ ?_)
  · exact .bind (steady_letRest hg) fun _ => (Steady.expect _ rfl).map _
  · exact .bind .lineHere fun _ => (Steady.report rfl).map _

/-- Either kind of `for` loop. A name behind the keyword decides for the loop over a collection. -/
theorem steady_forRest (hg : g.Steady) (keyword : Token) : Steady (forRest g keyword) := by
  refine .bind (.nextIs _) fun _ => .ite (steady_forInRest hg keyword) ?_
  refine .bind (steady_forInitializer hg) fun _ => .bind (steady_expression hg) fun _ => ?_
  refine .bind (.expect _ rfl) fun _ => .bind (steady_expression hg) fun _ => ?_
  exact hg.declaration.map _

theorem steady_whileRest (hg : g.Steady) (keyword : Token) : Steady (whileRest g keyword) :=
  .bind (steady_expression hg) fun _ => hg.declaration.map _

theorem steady_tryRest (hg : g.Steady) : Steady (tryRest g) := by
  refine .bind hg.declaration fun _ => .bind (.expect _ rfl) fun _ => ?_
  exact .bind (.expect _ rfl) fun _ => hg.declaration.map _

/-- The `elif` branches, as many as there are. -/
theorem steady_elifBranches (hg : g.Steady) (n : Nat) : Steady (elifBranches g n) := by
  induction n with
  | zero => exact .exhausted
  | succ n ih =>
      refine .bind (.eat _) fun _ => .ite (.bind (steady_expression hg) fun _ => ?_) (.pure _)
      exact .bind (steady_bracedBlock hg) fun _ => ih.map _

theorem steady_ifRest (hg : g.Steady) (keyword : Token) : Steady (ifRest g keyword) := by
  refine .bind (steady_expression hg) fun _ => .bind (steady_bracedBlock hg) fun _ => ?_
  refine .bind (steady_elifBranches hg _) fun _ => .bind (.eat _) fun _ => ?_
  exact .ite ((steady_bracedBlock hg).map _) (.pure _)

/-- `return` may stand without a value, which is decided by the token behind it. -/
theorem steady_returnRest (hg : g.Steady) (keyword : Token) : Steady (returnRest g keyword) := by
  refine .bind .kindHere fun kind => ?_
  split
  · exact .pure _
  · exact .pure _
  · exact .pure _
  · exact (steady_expression hg).map _

/-- An exit outside of a loop is reported, and reading goes on. -/
theorem steady_loopExit (statement : Token → Stmt) (keyword : Token) :
    Steady (loopExit statement keyword : ParseM Stmt) :=
  .bind .callStack fun _ => .ite ((Steady.report rfl).map _) (.pure _)

/-- What a first token of a statement leads to. The exits from loops are the only ones that look at
    what is open. -/
theorem steady_statementAfter (hg : g.Steady) (t : Token) : ∀ p ∈ statementAfter g t, Steady p := by
  intro p hp
  unfold statementAfter at hp
  split at hp
  · cases hp
    exact steady_classRest hg
  · cases hp
    exact (steady_namedFunction hg).map _
  · cases hp
    exact steady_letRest hg
  · cases hp
    exact .inLoop (steady_forRest hg t)
  · cases hp
    exact steady_tryRest hg
  · cases hp
    exact steady_ifRest hg t
  · cases hp
    exact steady_returnRest hg t
  · cases hp
    exact steady_loopExit _ t
  · cases hp
    exact steady_loopExit _ t
  · cases hp
    exact .inLoop (steady_whileRest hg t)
  · cases hp
    exact (steady_block hg).map _
  · cases hp

theorem steady_declaration (hg : g.Steady) : Steady (declaration g) :=
  .dispatch (steady_statementAfter hg) ((steady_expression hg).map _)

theorem steady_topDeclaration (hg : g.Steady) : Steady (topDeclaration g) :=
  .bind (steady_declaration hg) fun _ => Steady.expectNewline.map _

end Grammar

/-- By induction on the depth: the parsers of the next level are made of those of the level
    below. -/
theorem Level.steady_ofDepth (depth : Nat) : (Level.ofDepth depth : Level ParseM).Steady := by
  induction depth with
  | zero => exact ⟨.exhausted, .exhausted, .exhausted⟩
  | succ depth ih =>
      exact ⟨Grammar.steady_expression ih, Grammar.steady_prefixed ih,
        Grammar.steady_declaration ih⟩

/-! ## Attempts -/

/-- One attempt to read a statement of a program: where it started, and how it ended. -/
structure Attempt where
  start : Cursor
  result : EStateM.Result ParserError Cursor Stmt

namespace Attempt

/-- The attempt that a parser makes at a cursor. -/
def run (p : ParseM Stmt) (c : Cursor) : Attempt := ⟨c, p c⟩

@[simp] theorem start_run (p : ParseM Stmt) (c : Cursor) : (run p c).start = c := rfl

/-- The cursor after the attempt, however it ended. -/
def after (a : Attempt) : Cursor :=
  match a.result with
  | .ok _ c => c
  | .error _ c => c

/-- The statement, if the attempt succeeded. -/
def statement? (a : Attempt) : Option Stmt :=
  match a.result with
  | .ok s _ => some s
  | .error _ _ => none

/-- The fault that ended the attempt, if it failed. -/
def failure? (a : Attempt) : Option ParserError :=
  match a.result with
  | .ok _ _ => none
  | .error e _ => some e

/-- The faults of the attempt: those reported on the way, and then the one that ended it. -/
def faults (a : Attempt) : List ParserError :=
  a.after.reported.drop a.start.reported.length ++ a.failure?.toList

/-- Where the next attempt starts. After a fault reading resumes where a statement may begin, unless
    the fault is fatal. -/
def next? (a : Attempt) : Option Cursor :=
  match a.result with
  | .ok _ c => some c
  | .error e c =>
    if e.fault.isFatal then none else some { c with reported := c.reported ++ [e] }.resume

/-- What a steady parser attempts leaves the same functions and loops open. -/
structure Steady (a : Attempt) : Prop where
  keeps : a.start.Keeps a.after
  failure : ∀ e ∈ a.failure?, e.fault.isInternal = false

/-- However a steady parser ends, the attempt with it is steady. -/
theorem steady_run {p : ParseM Stmt} (hp : p.Steady) (c : Cursor) : (run p c).Steady := by
  unfold run
  cases hrun : p c with
  | ok s c' => exact ⟨hp.ok hrun, by simp [failure?]⟩
  | error e c' =>
      obtain ⟨hkeeps, he⟩ := hp.error hrun
      exact ⟨hkeeps, by simpa [failure?] using he⟩

variable {a : Attempt} {c : Cursor}

/-- The faults of an attempt are what it reported on the way, none of it fatal, and then the one
    that ended it. -/
theorem Steady.faults_eq (h : a.Steady) : ∃ noted, (∀ e ∈ noted, e.fault.isFatal = false)
    ∧ a.after.reported = a.start.reported ++ noted ∧ a.faults = noted ++ a.failure?.toList := by
  obtain ⟨noted, hnoted, hminor⟩ := h.keeps.reported
  exact ⟨noted, hminor, hnoted, by rw [faults, hnoted, List.drop_left]⟩

/-- An attempt is followed by another one unless it failed fatally. What is on record then are the
    faults so far. -/
theorem Steady.next (h : a.Steady) (hnext : a.next? = some c) :
    c.stack = a.start.stack ∧ c.reported = a.start.reported ++ a.faults
      ∧ ∀ e ∈ a.faults, e.fault.isFatal = false := by
  obtain ⟨noted, hminor, hreported, hfaults⟩ := h.faults_eq
  have hstack := h.keeps.stack
  rw [hfaults]
  obtain ⟨start, result⟩ := a
  cases result with
  | ok s c' =>
      cases hnext
      refine ⟨hstack, ?_, by simpa [failure?] using hminor⟩
      simpa [failure?, after] using hreported
  | error e c' =>
      unfold next? at hnext
      simp only at hnext
      split at hnext
      · cases hnext
      · rename_i hfatal
        cases hnext
        refine ⟨hstack, ?_, ?_⟩
        · show c'.reported ++ [e] = _
          rw [← List.append_assoc, ← hreported]
          rfl
        · refine List.forall_mem_append.mpr ⟨hminor, ?_⟩
          simpa [failure?] using hfatal

end Attempt

/-- Faults of which at most the last one is fatal, and none is the parser's own. -/
structure Orderly (faults : List ParserError) : Prop where
  internal : ∀ e ∈ faults, e.fault.isInternal = false
  fatal : ∀ e ∈ faults.dropLast, e.fault.isFatal = false

/-- Faults that are not fatal may stand in front of faults in order. -/
theorem Orderly.append {first rest : List ParserError}
    (hfirst : ∀ e ∈ first, e.fault.isFatal = false) (hrest : Orderly rest) :
    Orderly (first ++ rest) := by
  constructor
  · refine List.forall_mem_append.mpr ⟨fun e he => ?_, hrest.internal⟩
    exact ParserFault.isInternal_of_not_fatal (hfirst e he)
  · intro e he
    by_cases hnil : rest = []
    · subst hnil
      exact hfirst e (List.dropLast_subset _ (by simpa using he))
    · rw [List.dropLast_append_of_ne_nil hnil] at he
      exact (List.mem_append.mp he).elim (hfirst e) (hrest.fatal e)

/-- In a single attempt at most the fault that ended it is fatal, and that one comes last. -/
theorem Attempt.Steady.orderly {a : Attempt} (h : a.Steady) : Orderly a.faults := by
  obtain ⟨noted, hminor, -, hfaults⟩ := h.faults_eq
  rw [hfaults]
  refine .append hminor ⟨?_, ?_⟩
  · intro e he
    exact h.failure e (Option.mem_toList.mp he)
  · cases a.failure? <;> simp

namespace Grammar

/-- The attempts to read the statements of a program. That there are no rounds left counts as an
    attempt that fails. -/
def attempts (g : Level ParseM) : Nat → Cursor → List Attempt
  | 0, c => [.run exhausted c]
  | n + 1, c =>
    if afterFeeds c.rest = [] then []
    else
      let a := Attempt.run (topDeclaration g) { c with rest := afterFeeds c.rest }
      a :: a.next?.elim [] fun c => attempts g n c

theorem attempts_zero (g : Level ParseM) (c : Cursor) :
    attempts g 0 c = [⟨c, .error ⟨.undefinedExpression, c.line⟩ c⟩] := rfl

theorem attempts_end {g : Level ParseM} {n : Nat} {c : Cursor} (hfeeds : afterFeeds c.rest = []) :
    attempts g (n + 1) c = [] := if_pos hfeeds

/-- If tokens are left, there is an attempt at the first that is no line feed, and the others follow
    where it says. -/
theorem attempts_more {g : Level ParseM} {n : Nat} {c : Cursor} {a : Attempt}
    (hfeeds : afterFeeds c.rest ≠ [])
    (ha : Attempt.run (topDeclaration g) { c with rest := afterFeeds c.rest } = a) :
    attempts g (n + 1) c = a :: a.next?.elim [] (attempts g n) := by
  rw [attempts, if_neg hfeeds, ha]

/-- The faults of a program, in the order in which they are found. -/
def faults (attempts : List Attempt) : List ParserError := attempts.flatMap Attempt.faults

/-- However the attempts end, each leaves the functions and loops open that were open before. -/
theorem attempts_steady {g : Level ParseM} (hg : g.Steady) (n : Nat) (c : Cursor) :
    (∀ a ∈ attempts g n c, a.after.stack = c.stack) ∧ Orderly (faults (attempts g n c)) := by
  induction n generalizing c with
  | zero =>
      have h : (Attempt.run exhausted c).Steady := Attempt.steady_run .exhausted c
      exact ⟨by simpa [attempts] using h.keeps.stack, by simpa [attempts, faults] using h.orderly⟩
  | succ n ih =>
      by_cases hfeeds : afterFeeds c.rest = []
      · rw [attempts_end hfeeds]
        exact ⟨by simp, by simp [faults], by simp [faults]⟩
      · have h := Attempt.steady_run (steady_topDeclaration hg) { c with rest := afterFeeds c.rest }
        generalize ha : Attempt.run _ _ = a at h
        have hstart : a.start.stack = c.stack := by rw [← ha]; rfl
        have hstack : a.after.stack = c.stack := h.keeps.stack.trans hstart
        rw [attempts_more hfeeds ha]
        cases hnext : a.next? with
        | some c' =>
            -- There is a next attempt, so no fault so far was fatal.
            obtain ⟨hsame, -, hminor⟩ := h.next hnext
            obtain ⟨hstacks, horderly⟩ := ih c'
            refine ⟨List.forall_mem_cons.mpr ⟨hstack, fun b hb => ?_⟩, .append hminor horderly⟩
            exact (hstacks b hb).trans (hsame.trans hstart)
        | none => exact ⟨by simpa using hstack, by simpa [faults] using h.orderly⟩

/-- What attempts amount to: the statements that were read, with the faults on record behind those
    that were there before. -/
def Concludes (reported : List ParserError) (attempts : List Attempt) :
    EStateM.Result ParserError Cursor (List Stmt) → Prop
  | .ok ss c =>
    ss = attempts.filterMap Attempt.statement? ∧ c.reported = reported ++ faults attempts
  | .error e c => c.reported ++ [e] = reported ++ faults attempts

/-- A successful attempt adds its statement in front of the others. -/
theorem Concludes.cons {reported : List ParserError} {a : Attempt} {attempts : List Attempt}
    {p : ParseM (List Stmt)} {c : Cursor} {s : Stmt} (hs : a.statement? = some s)
    (h : Concludes (reported ++ a.faults) attempts (p c)) :
    Concludes reported (a :: attempts) ((List.cons s <$> p) c) := by
  show Concludes reported (a :: attempts) (EStateM.map (List.cons s) p c)
  unfold EStateM.map
  cases hp : p c with
  | ok ss c' =>
      rw [hp] at h
      obtain ⟨hss, hreported⟩ := h
      refine ⟨by simp [hs, hss], ?_⟩
      simpa [faults] using hreported
  | error e c' =>
      rw [hp] at h
      simpa [Concludes, faults] using h

/-- A failed attempt adds no statement. -/
theorem Concludes.skip {reported : List ParserError} {a : Attempt} {attempts : List Attempt}
    {r : EStateM.Result ParserError Cursor (List Stmt)} (hs : a.statement? = none)
    (h : Concludes (reported ++ a.faults) attempts r) : Concludes reported (a :: attempts) r := by
  cases r with
  | ok ss c' =>
      obtain ⟨hss, hreported⟩ := h
      refine ⟨by simp [hs, hss], ?_⟩
      simpa [faults] using hreported
  | error e c' => simpa [Concludes, faults] using h

/-- The attempts are those of the program. -/
theorem program_attempts {g : Level ParseM} (hg : g.Steady) (n : Nat) (c : Cursor) :
    Concludes c.reported (attempts g n c) (program g n c) := by
  induction n generalizing c with
  | zero =>
      rw [attempts_zero]
      show c.reported ++ [_] = c.reported ++ faults [_]
      simp [faults, Attempt.faults, Attempt.after, Attempt.failure?]
  | succ n ih =>
      rw [program_succ]
      by_cases hfeeds : afterFeeds c.rest = []
      · rw [if_pos hfeeds, attempts_end hfeeds]
        exact ⟨rfl, by simp [faults]⟩
      · rw [if_neg hfeeds]
        have h := Attempt.steady_run (steady_topDeclaration hg) { c with rest := afterFeeds c.rest }
        generalize ha : Attempt.run _ _ = a at h
        have hstart : a.start.reported = c.reported := by rw [← ha]; rfl
        have hresult := congrArg Attempt.result ha
        change topDeclaration g _ = a.result at hresult
        rw [attempts_more hfeeds ha, hresult]
        obtain ⟨start, result⟩ := a
        cases result with
        | ok s c' =>
            refine .cons rfl ?_
            obtain ⟨-, hreported, -⟩ := h.next rfl
            rw [← hstart, ← hreported]
            exact ih c'
        | error e c' =>
            refine .skip rfl ?_
            by_cases hfatal : e.fault.isFatal = true
            · -- The fault is on record, and there is no further attempt.
              obtain ⟨noted, -, hnoted, hfaults⟩ := h.faults_eq
              simp only [Attempt.next?, if_pos hfatal]
              refine ⟨rfl, ?_⟩
              rw [hfaults, ← hstart, ← List.append_assoc, ← hnoted]
              simp [faults, Attempt.failure?, Attempt.after]
            · obtain ⟨-, hreported, -⟩ := h.next (if_neg hfatal)
              simp only [Attempt.next?, if_neg hfatal]
              rw [← hstart, ← hreported]
              exact ih _

end Grammar

/-! ## The outcome -/

/-- The attempts to read the statements of a list of tokens. -/
def attempts (tokens : List Token) : List Attempt :=
  let c := Cursor.ofTokens tokens
  Grammar.attempts (.ofDepth (c.rest.length + 1)) (c.rest.length + 1) c

/-- The outcome is that of the attempts: the statements that were read, or the faults if there are
    any. -/
theorem parse_eq_attempts (tokens : List Token) :
    parse tokens =
      if Grammar.faults (attempts tokens) = [] then
        .ok ((attempts tokens).filterMap Attempt.statement?)
      else .error (Grammar.faults (attempts tokens)) := by
  have h := Grammar.program_attempts
    (Level.steady_ofDepth ((Cursor.ofTokens tokens).rest.length + 1))
    ((Cursor.ofTokens tokens).rest.length + 1) (Cursor.ofTokens tokens)
  change Grammar.Concludes [] (attempts tokens) _ at h
  unfold parse
  simp only
  generalize Grammar.program (m := ParseM) _ _ (Cursor.ofTokens tokens) = r at h ⊢
  cases r with
  | ok ss c =>
      obtain ⟨rfl, hreported⟩ := h
      simp only [hreported, List.nil_append, List.isEmpty_iff]
  | error e c =>
      change _ = [] ++ _ at h
      rw [List.nil_append] at h
      rw [← h]
      simp

/-- **The parser leaves what it enters.** After each attempt to read a statement of a program,
    failed or not, only the root frame is open, and no loop in it. What the parser reports are the
    faults of these attempts. None of them is an internal one, and only the last one may be
    fatal. -/
theorem parser_frames_balanced (tokens : List Token) :
    (∀ a ∈ attempts tokens, a.after.stack.frames = [⟨"", 0⟩])
      ∧ (parse tokens =
          if Grammar.faults (attempts tokens) = [] then
            .ok ((attempts tokens).filterMap Attempt.statement?)
          else .error (Grammar.faults (attempts tokens)))
      ∧ ∀ errors, parse tokens = .error errors →
        (∀ e ∈ errors, ∀ fault, e.fault ≠ .internal fault)
          ∧ ∀ e ∈ errors.dropLast, e.fault ≠ .maxParameters ∧ e.fault ≠ .maxArguments := by
  have hparse := parse_eq_attempts tokens
  obtain ⟨hstacks, horderly⟩ := Grammar.attempts_steady
    (Level.steady_ofDepth ((Cursor.ofTokens tokens).rest.length + 1))
    ((Cursor.ofTokens tokens).rest.length + 1) (Cursor.ofTokens tokens)
  change Orderly (Grammar.faults (attempts tokens)) at horderly
  refine ⟨fun a ha => congrArg CallStack.frames (hstacks a ha), hparse, ?_⟩
  intro errors herrors
  rw [hparse] at herrors
  split at herrors
  · cases herrors
  · cases herrors
    refine ⟨?_, ?_⟩
    · intro e he fault hfault
      have hinternal := horderly.internal e he
      rw [hfault] at hinternal
      cases hinternal
    · intro e he
      have hne : ∀ fault : ParserFault, fault.isFatal = true → e.fault ≠ fault := by
        rintro fault hfatal rfl
        rw [horderly.fatal e he] at hfatal
        cases hfatal
      exact ⟨hne _ rfl, hne _ rfl⟩

/-- A fault inside of a function inside of a loop. The `break` after it is outside of both, and so
    it is a fault as well. -/
theorem parser_frames_balanced_resumed :
    ∃ tokens, parse tokens = .error [⟨.unclosedParen, 1⟩, ⟨.onlyInsideLoop, 3⟩]
      ∧ (∃ a ∈ attempts tokens, a.failure? = some ⟨.unclosedParen, 1⟩
        ∧ a.after.stack.frames = [⟨"", 0⟩])
      ∧ ∀ e ∈ [(⟨.unclosedParen, 1⟩ : ParserError), ⟨.onlyInsideLoop, 3⟩].dropLast,
        e.fault ≠ .maxParameters ∧ e.fault ≠ .maxArguments := by
  let tokens := (tokenize "while x \x7b fn f(a \x7b \x7d \x7d\nreturn 1\nbreak\n").1
  have hfaults : Grammar.faults (attempts tokens)
      = [⟨.unclosedParen, 1⟩, ⟨.onlyInsideLoop, 3⟩] := by decide +kernel
  have hfailed : (attempts tokens).any (·.failure? = some ⟨.unclosedParen, 1⟩) = true := by
    decide +kernel
  obtain ⟨hstacks, hparse, herrors⟩ := parser_frames_balanced tokens
  rw [hfaults, if_neg (by simp)] at hparse
  obtain ⟨a, ha, hfailure⟩ := List.any_eq_true.mp hfailed
  exact ⟨tokens, hparse, ⟨a, ha, by simpa using hfailure, hstacks a ha⟩, (herrors _ hparse).2⟩

end Script
