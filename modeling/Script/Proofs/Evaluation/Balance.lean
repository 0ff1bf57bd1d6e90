import Script.Eval
import Script.Proofs.Exits
import Script.Proofs.Faults
import Script.Proofs.Heap.Functions
import Script.Proofs.Evaluation.Keeps
import Script.Proofs.Evaluation.Watch

/-!
# `Proofs.Evaluation.Balance` — evaluation leaves the call stack as it was

Every evaluation leaves the call stack as it found it, however it ends. So a loop that is open
around a statement is open while the statement runs, and no other loop is; and a function that is
left is the one that was entered last.

The pass over the evaluator is made once and serves two readings. With `placed := False` it is
about arbitrary trees. With `placed := True` it assumes that all exits are placed, in the tree and
in every function on the heap, and then no exit is ever met outside of a loop. It compares two
evaluators at a time: the rules of `Step.Keeps` give the invariant and the agreement together, so
the plain evaluator and a watched one need no pass of their own.
-/

namespace Script

open Step (Keeps)

variable {placed : Prop} {limit : Nat} {σ : CallStack} {scope : Ref .scope} {α : Type}

/-! ## What is kept -/

/-- A fault that a run may report: none of the evaluator's own, and no exit outside of a loop if all
    exits are `placed`. -/
def Fault.Reportable (placed : Prop) (f : Fault) : Prop :=
  f.isInternal = false ∧ (placed → f ≠ .onlyAllowedInsideLoop)

/-- An error with a fault that a run may report. -/
def RuntimeError.Reportable (placed : Prop) (e : RuntimeError) : Prop := e.fault.Reportable placed

/-- The functions on the heap have their exits placed, if all exits are `placed`. -/
def Heap.ExitsPlaced (placed : Prop) : Heap → Prop :=
  Heap.Functions fun d => placed → d.exitsPlaced = true

/-- A call stack with its root frame and within the limit on calls. -/
structure CallStack.Fits (limit : Nat) (σ : CallStack) : Prop where
  root : σ.frames ≠ []
  depth : σ.depth ≤ limit

/-- How a statement may end: it leaves a round of a loop only if a loop is open. -/
def Flow.LeavesOnly (loop : Bool) : Flow → Prop
  | .broke => loop = true
  | .continued => loop = true
  | _ => True

theorem Fault.reportable_of_ordinary {f : Fault} (hf : f.ordinary = true) :
    f.Reportable placed := by
  cases f <;> simp_all [Reportable, ordinary, isInternal]

theorem RuntimeError.reportable_atToken {f : Fault} (hf : f.ordinary = true) (token : Token) :
    (RuntimeError.atToken f token).Reportable placed :=
  Fault.reportable_of_ordinary hf

theorem CallStack.Fits.enterLoop (hσ : σ.Fits limit) : σ.enterLoop.Fits limit := by
  refine ⟨?_, by rw [CallStack.depth_enterLoop]; exact hσ.depth⟩
  have hroot := hσ.root
  unfold CallStack.enterLoop CallStack.mapLoops
  cases hf : σ.frames with
  | nil => exact absurd hf hroot
  | cons frame rest => simp

theorem CallStack.Fits.enter (hσ : σ.Fits limit) (hlimit : σ.depth < limit) (name : String) :
    (σ.enter name).Fits limit := by
  refine ⟨by simp [CallStack.enter], ?_⟩
  rw [CallStack.depth_enter hσ.root]
  exact hlimit

theorem CallStack.fits_root : CallStack.root.Fits limit :=
  ⟨by simp [CallStack.root], Nat.zero_le _⟩

/-- Two steps agree, keep the call stack and the exits of functions, and report nothing else than
    they may. -/
abbrev Balanced (placed : Prop) (σ : CallStack) (x y : Step RuntimeError α)
    (Q : α → Prop := fun _ => True) : Prop :=
  Keeps (Heap.ExitsPlaced placed) σ x y Q (RuntimeError.Reportable placed)

/-- Two evaluators whose evaluations of the same part agree and are balanced. -/
structure Evaluator.Agree (placed : Prop) (limit : Nat) (ev ev' : Evaluator) : Prop where
  limit_left : ev.limit = limit
  limit_right : ev'.limit = limit
  rounds : ev.rounds = ev'.rounds
  /-- What is imported is a program like any other. -/
  modules : placed → ∀ source program, compile source = .ok program →
    exitsPlacedBlock false program = true
  statement : ∀ {σ s scope}, σ.Fits limit → (placed → s.exitsPlaced σ.insideLoop = true) →
    Balanced placed σ (ev.statement s scope) (ev'.statement s scope)
      (Flow.LeavesOnly σ.insideLoop)
  expression : ∀ {σ e scope}, σ.Fits limit → (placed → e.exitsPlaced = true) →
    Balanced placed σ (ev.expression e scope) (ev'.expression e scope)
  body : ∀ {σ b scope}, σ.Fits limit → σ.insideLoop = false → (placed → b.exitsPlaced = true) →
    Balanced placed σ (ev.body b scope) (ev'.body b scope) (Flow.LeavesOnly false)

/-! ## Failing -/

theorem balanced_failAt {f : Fault} (hf : f.ordinary = true) (token : Token) {Q : α → Prop} :
    Balanced placed σ (Step.failAt f token) (Step.failAt f token) Q :=
  .fail (RuntimeError.reportable_atToken hf token)

/-- A step that fails in ordinary ways may be blamed on a token. -/
theorem Step.Keeps.blame {x y : Step Fault α} {Q : α → Prop} (token : Token)
    (h : Keeps (Heap.ExitsPlaced placed) σ x y Q (fun f => f.ordinary = true)) :
    Balanced placed σ (x.blame token) (y.blame token) Q :=
  h.mapError fun _ hf => RuntimeError.reportable_atToken hf token

theorem balanced_blame_ofExcept {r : Except Fault α} (hr : FailsOrdinarily r) (token : Token)
    {Q : α → Prop} (hQ : ∀ a, r = .ok a → Q a) :
    Balanced placed σ (Step.blame token (Step.ofExcept r)) (Step.blame token (Step.ofExcept r)) Q :=
  .blame token (.ofExcept hQ hr)

theorem balanced_blame_attempt {f : Heap → Except Fault α × Heap} (token : Token)
    (hheap : ∀ h, (f h).2.functions = h.functions) (hf : ∀ h, FailsOrdinarily (f h).1) :
    Balanced placed σ (Step.blame token (Step.attempt f)) (Step.blame token (Step.attempt f)) :=
  .blame token (.attempt (fun h hK => hK.of_eq (hheap h)) (fun _ _ _ => trivial) fun h => hf h)

/-! ## Steps on the heap -/

theorem keeps_allocate {ε : Type} {E : ε → Prop} {f : Heap → α × Heap}
    (hf : ∀ h, (f h).2.functions = h.functions) :
    Keeps (Heap.ExitsPlaced placed) σ (Step.allocate f : Step ε α) (Step.allocate f)
      (fun _ => True) E :=
  .allocate fun h hK => ⟨hK.of_eq (hf h), trivial⟩

theorem keeps_change {ε : Type} {E : ε → Prop} {f : Heap → Heap}
    (hf : ∀ h, (f h).functions = h.functions) :
    Keeps (Heap.ExitsPlaced placed) σ (Step.change f : Step ε Unit) (Step.change f)
      (fun _ => True) E :=
  .change (fun h hK => hK.of_eq (hf h)) trivial

theorem keeps_inspect {ε : Type} {E : ε → Prop} {f : Heap → α} :
    Keeps (Heap.ExitsPlaced placed) σ (Step.inspect f : Step ε α) (Step.inspect f)
      (fun _ => True) E :=
  .inspect fun _ _ => trivial

/-- Looks for a function on the heap. -/
theorem keeps_find {ε : Type} {E : ε → Prop} {f : Heap → Option Function}
    (hf : ∀ h g, h.ExitsPlaced placed → f h = some g → placed → g.declaration.exitsPlaced = true) :
    Keeps (Heap.ExitsPlaced placed) σ (Step.inspect f : Step ε (Option Function)) (Step.inspect f)
      (fun r => ∀ g, r = some g → placed → g.declaration.exitsPlaced = true) E :=
  .inspect fun h hK g hg => hf h g hK hg

end Script
