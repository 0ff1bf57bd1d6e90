import Script.Proofs.Evaluation.Tracking
import Script.Proofs.Parser.Programs
import Script.Run

/-!
# `Proofs.Evaluation.Ceiling` — raising the ceiling on calls

The number of calls that may be open at once is a ceiling. Where it is met a program fails, and as
long as it is not met it should not matter how high it is. But a failure can be hidden: by `try`,
and by an import, which only says that the module failed. A program that does without both has the
same run below every ceiling that is high enough (`run_monotone_in_ceiling`).

Whether a program imports something is a matter of its run: `import` is a value that can be stored
and passed on. The evaluator `Evaluator.importless` stops at the first call of such a value, as if
out of fuel. A run imports nothing if it is the same with that evaluator.
-/

namespace Script

/-! ## Runs without imports -/

namespace Evaluator

/-- Evaluates an expression, given how to evaluate its parts, but stops at a call of `import`. -/
def importlessStep (ev : Evaluator) : Expr → Ref .scope → Step RuntimeError Value
  | .grouping inner, scope => importlessStep ev inner scope
  | .call callee paren arguments, scope => do
    let f ← ev.expression callee scope
    let vs ← ev.values arguments scope
    if ← Step.inspect (·.isImport f) then Step.exhausted else ev.callValue f vs paren
  | e, scope => ev.expressionStep e scope

/-- The evaluator with an amount of fuel that stops at a call of `import`. -/
def importless (limit : Nat) : Nat → Evaluator
  | 0 => ⟨limit, 0, fun _ _ => Step.exhausted, fun _ _ => Step.exhausted, fun _ _ => Step.exhausted⟩
  | fuel + 1 =>
    { limit
      rounds := fuel + 1
      statement := (importless limit fuel).statementStep
      expression := (importless limit fuel).importlessStep
      body := (importless limit fuel).bodyStep }

variable {capped : Prop} {scope : Ref .scope}

/-- A call that is made is no call of `import`, so a capped run may make it. -/
theorem Tracks.importlessStep {ev ev' : Evaluator} (hev : Evaluator.Tracks capped ev ev') {e : Expr}
    (he : Tryless capped e.nodes) :
    Tracked capped (ev.importlessStep e scope) (ev'.expressionStep e scope) := by
  fun_induction Evaluator.importlessStep ev e scope with
  | case1 inner scope ih =>
      rw [Evaluator.expressionStep]
      exact ih (List.forall_mem_cons.mp he).2
  | case2 callee paren arguments scope =>
      obtain ⟨hcallee, harguments⟩ := List.forall_mem_append.mp (List.forall_mem_cons.mp he).2
      refine .bind (hev.expression hcallee) fun f _ => .bind (hev.values harguments) fun vs _ => ?_
      intro m hm
      -- Whether the callee is an import is a question to the heap at the time of the call.
      show Outcome.Tracks capped _ _ m
        ((if m.heap.isImport f = true then Step.exhausted else ev.callValue f vs paren) m) _
      by_cases himport : m.heap.isImport f = true
      · rw [if_pos himport]
        exact trivial
      · rw [if_neg himport]
        exact hev.callValue hm (fun _ => by simpa using himport) vs paren
  | case3 e scope hgrouping hcall =>
      -- The calls were the second case, so here nothing can give up unseen.
      refine hev.expressionStep he fun hisCall => ?_
      unfold Expr.isCall at hisCall
      split at hisCall
      · exact absurd rfl (hgrouping _)
      · exact absurd rfl (hcall _ _ _)
      · cases hisCall

/-- An evaluator that stops at imports tracks one that does not, also if its ceiling is lower. -/
theorem importless_tracks {d d' : Nat} (hlimit : d = d' ∨ capped ∧ d ≤ d') (fuel : Nat) :
    Evaluator.Tracks capped (importless d fuel) (withFuel d' fuel) := by
  induction fuel with
  | zero => exact ⟨hlimit, rfl, fun _ => .exhausted, fun _ => .exhausted, fun _ => .exhausted⟩
  | succ fuel ih =>
      refine ⟨hlimit, rfl, ?_, ?_, ?_⟩
      · intro s scope hs
        rw [withFuel_statement]
        exact ih.statementStep hs
      · intro e scope he
        rw [withFuel_expression]
        exact ih.importlessStep he
      · intro b scope hb
        rw [withFuel_body]
        exact ih.bodyStep hb

end Evaluator

/-- Runs a program in a new scope up to the first call of `import`. -/
def runImportless (fuel : Nat) (settings : Settings) (world : World) (program : Program) :
    Outcome RuntimeError Unit :=
  (Evaluator.importless settings.maxCallDepth fuel).start settings.path world program

/-- A run calls no function that imports. -/
def ImportsNothing (fuel : Nat) (settings : Settings) (world : World) (program : Program) : Prop :=
  runImportless fuel settings world program = runProgram fuel settings world program

/-- A run that comes to an end without a call of `import` imports nothing. -/
theorem importsNothing_of_ne_outOfFuel {fuel : Nat} {settings : Settings} {world : World}
    {program : Program} (h : runImportless fuel settings world program ≠ .outOfFuel) :
    ImportsNothing fuel settings world program := by
  have htext : Tryless False (nodesLines program) := fun _ _ h => h.elim
  have hrun := (Evaluator.importless_tracks (d := settings.maxCallDepth) (.inl rfl) fuel).start
    settings.path world htext
  change (runImportless fuel settings world program).Tracks _ _ _ _
    (runProgram fuel settings world program) at hrun
  unfold ImportsNothing
  cases hleft : runImportless fuel settings world program with
  | ok u m =>
      rw [hleft] at hrun
      exact hrun.1.symm
  | error e m =>
      rw [hleft] at hrun
      exact (hrun.1.resolve_right fun he => he.1).symm
  | outOfFuel => exact absurd hleft h

/-! ## Raising the ceiling -/

/-- **A higher ceiling changes nothing.** If a program without `try` statements calls no `import`,
    and its run below a ceiling comes to an end that is not the failure at the ceiling, then its run
    below every higher ceiling comes to the same end: the same value or error, the same log, and the
    same machine. -/
theorem run_monotone_in_ceiling {fuel : Nat} {settings : Settings} {world : World}
    {program : Program} {d d' : Nat} (hle : d ≤ d')
    (htry : ∀ n ∈ nodesLines program, n.isTry = false)
    (himport : ImportsNothing fuel { settings with maxCallDepth := d } world program)
    (hreturns : runProgram fuel { settings with maxCallDepth := d } world program ≠ .outOfFuel)
    (hresult : ∀ e m,
      runProgram fuel { settings with maxCallDepth := d } world program = .error e m →
        e.fault ≠ .maxRecursion) :
    runProgram fuel { settings with maxCallDepth := d' } world program
      = runProgram fuel { settings with maxCallDepth := d } world program := by
  have htext : Tryless True (nodesLines program) := fun n hn _ => htry n hn
  have hrun := (Evaluator.importless_tracks (.inr ⟨trivial, hle⟩) fuel).start settings.path world
    htext
  change (runImportless fuel { settings with maxCallDepth := d } world program).Tracks _ _ _ _
    (runProgram fuel { settings with maxCallDepth := d' } world program) at hrun
  -- The run below `d` is the importless one, and that one tracks the run below `d'`.
  rw [himport] at hrun
  cases hleft : runProgram fuel { settings with maxCallDepth := d } world program with
  | ok u m =>
      rw [hleft] at hrun
      exact hrun.1
  | error e m =>
      rw [hleft] at hrun
      exact hrun.1.resolve_right fun he => hresult e m hleft he.2
  | outOfFuel => exact absurd hleft hreturns

/-- A program with two calls open at once, run below the lowest ceiling that lets it end. It passes
    `import` around and never calls it. -/
theorem run_monotone_in_ceiling_two :
    ∃ program, compile ("let load = import\nfn f(x) \x7b if x \x7b return load \x7d\n"
        ++ "return f(true) \x7d\nf(false)\nio.println(\"done\")\n") = .ok program
      ∧ (runProgram 40 { maxCallDepth := 1 } .empty program).isOk = false
      ∧ (runProgram 40 { maxCallDepth := 2 } .empty program).isOk = true
      ∧ runProgram 40 { maxCallDepth := 1000 } .empty program
        = runProgram 40 { maxCallDepth := 2 } .empty program := by
  let source := "let load = import\nfn f(x) \x7b if x \x7b return load \x7d\n"
    ++ "return f(true) \x7d\nf(false)\nio.println(\"done\")\n"
  have hfacts : ((compile source).toOption.map fun p =>
      ((nodesLines p).all (!·.isTry), (runProgram 40 { maxCallDepth := 1 } .empty p).isOk,
        (runImportless 40 { maxCallDepth := 2 } .empty p).isOk)) = some (true, false, true) := by
    decide +kernel
  obtain ⟨program, hcompile⟩ := exists_eq_ok (x := compile source) (by decide +kernel)
  rw [hcompile] at hfacts
  obtain ⟨htry, hfacts⟩ := Prod.mk.inj (Option.some.inj hfacts)
  obtain ⟨hlow, hends⟩ := Prod.mk.inj hfacts
  have himport : ImportsNothing 40 { maxCallDepth := 2 } .empty program := by
    refine importsNothing_of_ne_outOfFuel fun h => ?_
    rw [h] at hends
    cases hends
  rw [himport] at hends
  refine ⟨program, hcompile, hlow, hends, ?_⟩
  refine @run_monotone_in_ceiling 40 {} .empty program 2 1000 (by decide) ?_ himport ?_ ?_
  · simpa using htry
  · intro h
    rw [h] at hends
    cases hends
  · intro e m h
    rw [h] at hends
    cases hends

end Script
