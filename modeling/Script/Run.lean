import Script.Diagnostic
import Script.Eval

/-!
# `Run` — running a source text

A source text that is no program is reported and does not run. A program runs in a new scope; it is
reported if it fails. Reports are in the basic form, or they are left to a renderer that is given
with the settings.
-/

namespace Script

/-- Draws the report of a problem in a source text that is found at a path. -/
abbrev Renderer := Problem → (source path : String) → String

/-- How problems are reported. -/
inductive ReportStyle where
  | basic
  | drawn (draw : Renderer)

/-- How a program is run. -/
structure Settings where
  /-- Where the program is found; modules are looked for beside it. -/
  path : Option String := none
  /-- The number of calls that may be open at once. -/
  maxCallDepth : Nat := 1000
  style : ReportStyle := .basic

/-- The fuel of a run that is not meant to be cut short. A run that ends uses up far less; one that
    does not end uses up all of it. -/
def ampleFuel : Nat := 1000000000000000000

/-- The report of a problem in a source text. -/
def Settings.report (settings : Settings) (source : String) (p : Problem) : String :=
  match settings.style with
  | .basic => p.basic
  | .drawn draw => draw p source (settings.path.getD "<source>")

/-- The evaluator for some settings. -/
def Settings.evaluator (settings : Settings) (fuel : Nat) : Evaluator :=
  .withFuel settings.maxCallDepth fuel

/-- What a run leaves behind. -/
structure RunReport where
  succeeded : Bool
  /-- What came out of the run. -/
  events : List Event
  world : World

/-- The lines that the program printed. -/
def RunReport.output (r : RunReport) : List String := r.events.filterMap Event.printed?

/-- The reports of problems. -/
def RunReport.diagnostics (r : RunReport) : List String := r.events.filterMap Event.reported?

/-- The report of a run that began in the world `start` and ended in the world `world`. -/
def RunReport.between (succeeded : Bool) (start world : World) : RunReport :=
  { succeeded, events := world.since start, world }

/-- Runs a program in a new scope. -/
def runProgram (fuel : Nat) (settings : Settings) (world : World) (program : Program) :
    Outcome RuntimeError Unit :=
  let (scope, heap) := Heap.empty.newProgramScope settings.path
  (settings.evaluator fuel).program program scope ⟨heap, .root, world⟩

/-- Runs a source text, unless the fuel does not suffice. -/
def runSource (fuel : Nat) (settings : Settings) (world : World) (source : String) :
    Option RunReport :=
  match compile source with
  | .error e =>
    some (.between false world (world.reportAll (e.problems.map (settings.report source))))
  | .ok program =>
    match runProgram fuel settings world program with
    | .ok _ m => some (.between true world m.world)
    | .error e m =>
      some (.between false world (m.world.report (settings.report source (.runtime e))))
    | .outOfFuel => none

end Script
