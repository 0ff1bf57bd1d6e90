import Script.Proofs.Evaluation.Tracking
import Script.Proofs.Parser.Totality
import Script.Run

/-!
# `Proofs.Evaluation.Reporting` — what a run reports

A program cannot report anything itself: evaluation only prints, also in the modules it imports and
in what is caught (`runProgram_onward`). So problems are reported after all that was printed. The
main statement, `run_reports_outcome`, says for every source text what is reported and that the
outcome of the run can be told from it.
-/

namespace Script

/-! ## The log -/

theorem World.events_reportAll (w : World) (texts : List String) :
    (w.reportAll texts).events.toList = w.events.toList ++ texts.map .reported := by
  induction texts generalizing w with
  | nil => simp [reportAll]
  | cons text rest ih =>
      show ((w.report text).reportAll rest).events.toList = _
      rw [ih]
      simp [report]

/-- A run that printed some lines and then reported some problems. -/
structure RunReport.Logs (r : RunReport) (world : World) (lines diagnostics : List String) :
    Prop where
  events : r.events = lines.map .printed ++ diagnostics.map .reported
  world : r.world.events.toList = world.events.toList ++ r.events

namespace RunReport.Logs

variable {r : RunReport} {world after : World} {lines diagnostics : List String}

theorem between {succeeded : Bool}
    (h : after.events.toList
      = world.events.toList ++ (lines.map .printed ++ diagnostics.map .reported)) :
    (RunReport.between succeeded world after).Logs world lines diagnostics := by
  have hsince : after.since world = lines.map .printed ++ diagnostics.map .reported := by
    rw [World.since, h, ← Array.length_toList, List.drop_left]
  refine ⟨hsince, ?_⟩
  show after.events.toList = world.events.toList ++ after.since world
  rw [h, hsince]

theorem output_eq (h : r.Logs world lines diagnostics) : r.output = lines := by
  rw [RunReport.output, h.events]
  simp [List.filterMap_append, List.filterMap_map, Function.comp_def, Event.printed?]

theorem diagnostics_eq (h : r.Logs world lines diagnostics) : r.diagnostics = diagnostics := by
  rw [RunReport.diagnostics, h.events]
  simp [List.filterMap_append, List.filterMap_map, Function.comp_def, Event.reported?]

end RunReport.Logs

/-! ## Runs -/

/-- An evaluator tracks itself. -/
theorem Evaluator.tracks_withFuel (limit fuel : Nat) :
    Evaluator.Tracks False (withFuel limit fuel) (withFuel limit fuel) := by
  induction fuel with
  | zero =>
      exact ⟨.inl rfl, rfl, fun _ => .exhausted, fun _ => .exhausted, fun _ => .exhausted⟩
  | succ fuel ih =>
      refine ⟨.inl rfl, rfl, ?_, ?_, ?_⟩
      · intro s scope hs
        rw [withFuel_statement]
        exact ih.statementStep hs
      · intro e scope he
        rw [withFuel_expression]
        exact ih.expressionStep he fun _ => id
      · intro b scope hb
        rw [withFuel_body]
        exact ih.bodyStep hb

/-- A program prints lines and reports nothing, whatever it imports and whatever it catches. -/
theorem runProgram_onward {fuel : Nat} {settings : Settings} {world : World} {program : Program} :
    (∀ u m, runProgram fuel settings world program = .ok u m → world.Onward m.world)
      ∧ ∀ e m, runProgram fuel settings world program = .error e m → world.Onward m.world := by
  -- Nothing can give up here, so nothing is asked of the text.
  have htext : Tryless False (nodesLines program) := fun _ _ h => h.elim
  have hrun := (Evaluator.tracks_withFuel settings.maxCallDepth fuel).start settings.path world
    htext
  change (runProgram fuel settings world program).Tracks _ _ _ _ _ at hrun
  constructor
  · intro u m h
    rw [h] at hrun
    exact hrun.2.1.world
  · intro e m h
    rw [h] at hrun
    exact hrun.2.world

/-- A source text that cannot be compiled has a problem. -/
theorem problems_ne_nil {source : String} {e : CompileError} (h : compile source = .error e) :
    e.problems ≠ [] := by
  unfold compile at h
  split at h
  · -- Without lexical errors the problems are those of the parser, which fails with some.
    rename_i tokens _
    cases hparse : parse tokens with
    | ok program =>
        rw [hparse] at h
        cases h
    | error errors =>
        rw [hparse] at h
        cases h
        intro hnil
        obtain rfl := List.map_eq_nil_iff.mp hnil
        exact parse_ne_error_nil tokens hparse
  · rename_i errors hsome _
    cases h
    intro hnil
    obtain rfl := List.map_eq_nil_iff.mp hnil
    exact hsome rfl

/-- What a run logs: the problems of the source text, or else the lines of the program and its
    error. -/
theorem logs_of_runSource {fuel : Nat} {settings : Settings} {world : World} {source : String}
    {report : RunReport} (h : runSource fuel settings world source = some report) :
    (∃ e, compile source = .error e ∧ report.succeeded = false
        ∧ report.Logs world [] (e.problems.map (settings.report source)))
      ∨ ∃ program lines, compile source = .ok program ∧
        ((∃ u m, runProgram fuel settings world program = .ok u m ∧ report.succeeded = true
            ∧ report.Logs world lines [])
          ∨ ∃ e m, runProgram fuel settings world program = .error e m ∧ report.succeeded = false
            ∧ report.Logs world lines [settings.report source (.runtime e)]) := by
  unfold runSource at h
  cases hcompile : compile source with
  | error e =>
      rw [hcompile] at h
      cases h
      refine .inl ⟨e, rfl, rfl, .between ?_⟩
      exact world.events_reportAll _
  | ok program =>
      rw [hcompile] at h
      cases hrun : runProgram fuel settings world program with
      | ok u m =>
          simp only [hrun] at h
          cases h
          obtain ⟨lines, hlines⟩ := runProgram_onward.1 u m hrun
          refine .inr ⟨program, lines, rfl, .inl ⟨u, m, hrun, rfl, .between ?_⟩⟩
          simpa using hlines
      | error e m =>
          simp only [hrun] at h
          cases h
          -- The program itself reports nothing; its error is reported when it is over.
          obtain ⟨lines, hlines⟩ := runProgram_onward.2 e m hrun
          refine .inr ⟨program, lines, rfl, .inr ⟨e, m, hrun, rfl, .between ?_⟩⟩
          simp [World.report, hlines]
      | outOfFuel =>
          simp only [hrun] at h
          cases h

/-- **The outcome of a run can be told from what it reports.** All that is printed comes before all
    that is reported, and a run succeeds exactly if nothing is reported. A source text that cannot
    be compiled prints nothing and has one report for each of its errors, of which there is at least
    one. A program that fails has exactly one report, and one that does not fail has none. The
    settings may name any renderer for the texts of the reports. -/
theorem run_reports_outcome {fuel : Nat} {settings : Settings} {world : World} {source : String}
    {report : RunReport} (h : runSource fuel settings world source = some report) :
    report.events = report.output.map .printed ++ report.diagnostics.map .reported
      ∧ report.world.events.toList = world.events.toList ++ report.events
      ∧ (report.succeeded = true ↔ report.diagnostics = [])
      ∧ (∀ errors, compile source = .error (.lexical errors) → report.output = []
        ∧ report.diagnostics = errors.map (fun e => settings.report source (.lexical e))
        ∧ errors ≠ [])
      ∧ (∀ errors, compile source = .error (.parser errors) → report.output = []
        ∧ report.diagnostics = errors.map (fun e => settings.report source (.parser e))
        ∧ errors ≠ [])
      ∧ ∀ program, compile source = .ok program →
        (∀ e m, runProgram fuel settings world program = .error e m →
          report.diagnostics = [settings.report source (.runtime e)])
        ∧ ∀ u m, runProgram fuel settings world program = .ok u m → report.diagnostics = [] := by
  rcases logs_of_runSource h with ⟨e, hcompile, hfailed, hlogs⟩ | ⟨program, lines, hcompile, hrun⟩
  · rw [hlogs.output_eq, hlogs.diagnostics_eq, hfailed, hcompile]
    have hsome := problems_ne_nil hcompile
    refine ⟨hlogs.events, hlogs.world, by simpa using hsome, ?_, ?_, by simp⟩
    · rintro errors ⟨⟩
      refine ⟨rfl, by simp [CompileError.problems], ?_⟩
      simpa [CompileError.problems] using hsome
    · rintro errors ⟨⟩
      refine ⟨rfl, by simp [CompileError.problems], ?_⟩
      simpa [CompileError.problems] using hsome
  · rcases hrun with ⟨u, m, hrun, hsucceeded, hlogs⟩ | ⟨e, m, hrun, hfailed, hlogs⟩
    · rw [hlogs.output_eq, hlogs.diagnostics_eq, hsucceeded, hcompile]
      refine ⟨hlogs.events, hlogs.world, by simp, by simp, by simp, ?_⟩
      rintro _ ⟨⟩
      simp [hrun]
    · rw [hlogs.output_eq, hlogs.diagnostics_eq, hfailed, hcompile]
      refine ⟨hlogs.events, hlogs.world, by simp, by simp, by simp, ?_⟩
      rintro _ ⟨⟩
      rw [hrun]
      refine ⟨?_, by simp⟩
      rintro _ _ ⟨⟩
      rfl

/-- A program that catches the failure of an import and prints it, and then fails in a function. Its
    reports are drawn as the bare message with the path. -/
theorem run_reports_outcome_caught :
    let settings : Settings := { style := .drawn fun p _ path => path ++ ": " ++ p.message }
    ∃ report, runSource 40 settings .empty
        ("try import(nil) catch e io.println(e)\nio.println(\"still here\")\n"
          ++ "fn f() missing\nf()\n") = some report
      ∧ report.output = ["A string was expected at this position", "still here"]
      ∧ report.diagnostics = ["<source>: Undefined variable"]
      ∧ report.events = report.output.map .printed ++ report.diagnostics.map .reported
      ∧ (report.succeeded = true ↔ report.diagnostics = []) := by
  intro settings
  let source := "try import(nil) catch e io.println(e)\nio.println(\"still here\")\n"
    ++ "fn f() missing\nf()\n"
  have hrun : ((runSource 40 settings .empty source).map fun r => (r.output, r.diagnostics))
      = some (["A string was expected at this position", "still here"],
        ["<source>: Undefined variable"]) := by decide +kernel
  obtain ⟨report, hreport, hpair⟩ := Option.map_eq_some_iff.mp hrun
  obtain ⟨houtput, hdiagnostics⟩ := Prod.mk.inj hpair
  obtain ⟨hevents, -, hsucceeded, -⟩ := run_reports_outcome hreport
  exact ⟨report, hreport, houtput, hdiagnostics, hevents, hsucceeded⟩

end Script
