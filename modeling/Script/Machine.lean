import Script.Heap
import Script.World

/-!
# `Machine` — the state of a running program, and steps on it

A step goes from one machine to another and ends in one of three ways: with a value, with an error,
or by running out of fuel, which only says that the budget was too small. Everything that a program
changes is changed by the steps of this module, so what holds of these carries over to whole runs.
-/

namespace Script

/-- The state of a running program. -/
structure Machine where
  heap : Heap
  stack : CallStack
  world : World

/-- How a step ends. -/
inductive Outcome (ε α : Type) where
  | ok (value : α) (machine : Machine)
  | error (error : ε) (machine : Machine)
  | outOfFuel

/-- Whether an outcome is a value. -/
def Outcome.isOk {ε α : Type} : Outcome ε α → Bool
  | .ok _ _ => true
  | _ => false

/-- A computation on the machine. -/
def Step (ε α : Type) := Machine → Outcome ε α

namespace Step

variable {ε α β : Type}

/-- Ends with a value. -/
@[inline] protected def pure (a : α) : Step ε α := fun m => .ok a m

/-- Goes on with the value of a step. -/
@[inline] protected def bind (x : Step ε α) (f : α → Step ε β) : Step ε β := fun m =>
  match x m with
  | .ok a m => f a m
  | .error e m => .error e m
  | .outOfFuel => .outOfFuel

@[always_inline] instance : Monad (Step ε) where
  pure := Step.pure
  bind := Step.bind

/-- Ends with an error. -/
@[inline] def fail (e : ε) : Step ε α := fun m => .error e m

/-- Ends for want of fuel. -/
@[inline] def exhausted : Step ε α := fun _ => .outOfFuel

/-- Ends as a finished computation did. -/
@[inline] def ofExcept : Except ε α → Step ε α
  | .ok a => Step.pure a
  | .error e => fail e

/-- Reads from the machine. -/
@[inline] def observe (f : Machine → α) : Step ε α := fun m => .ok (f m) m

/-- Reads from the heap. -/
@[inline] def inspect (f : Heap → α) : Step ε α := fun m => .ok (f m.heap) m

/-- Makes something on the heap. -/
@[inline] def allocate (f : Heap → α × Heap) : Step ε α := fun ⟨heap, stack, world⟩ =>
  match f heap with
  | (a, heap) => .ok a ⟨heap, stack, world⟩

/-- Changes the heap. -/
@[inline] def change (f : Heap → Heap) : Step ε Unit := fun ⟨heap, stack, world⟩ =>
  .ok () ⟨f heap, stack, world⟩

/-- Changes the heap by an operation that can fail. -/
@[inline] def attempt (f : Heap → Except ε α × Heap) : Step ε α := fun ⟨heap, stack, world⟩ =>
  match f heap with
  | (.ok a, heap) => .ok a ⟨heap, stack, world⟩
  | (.error e, heap) => .error e ⟨heap, stack, world⟩

/-- Changes the world. -/
@[inline] def outside (f : World → World) : Step ε Unit := fun ⟨heap, stack, world⟩ =>
  .ok () ⟨heap, stack, f world⟩

/-- Reports the faults of a step as errors. -/
@[inline] def mapError {δ : Type} (f : ε → δ) (x : Step ε α) : Step δ α := fun m =>
  match x m with
  | .ok a m => .ok a m
  | .error e m => .error (f e) m
  | .outOfFuel => .outOfFuel

/-- Reports the faults of a step at a token. -/
@[inline] def blame (token : Token) (x : Step Fault α) : Step RuntimeError α :=
  x.mapError (RuntimeError.atToken · token)

/-- Reports a fault at a token. -/
@[inline] def failAt (fault : Fault) (token : Token) : Step RuntimeError α :=
  fail (.atToken fault token)

/-- Runs a step inside a loop. The loop is left however the step ends. -/
@[inline] def inLoop (x : Step ε α) : Step ε α := fun m =>
  match x { m with stack := m.stack.enterLoop } with
  | .ok a m => .ok a { m with stack := m.stack.leaveLoop }
  | .error e m => .error e { m with stack := m.stack.leaveLoop }
  | .outOfFuel => .outOfFuel

/-- Runs a step inside a function. The function is left however the step ends; that it cannot be
    left is reported at the token, in place of how the step ended. -/
@[inline] def inFunction (name : String) (token : Token) (x : Step RuntimeError α) :
    Step RuntimeError α := fun m =>
  match x { m with stack := m.stack.enter name } with
  | .ok a m => left m (.ok a)
  | .error e m => left m (.error e)
  | .outOfFuel => .outOfFuel
where
  /-- Leaves the function and then ends as given. -/
  left (m : Machine) (ending : Machine → Outcome RuntimeError α) : Outcome RuntimeError α :=
    match m.stack.leave name with
    | .ok stack => ending { m with stack }
    | .error fault => .error (.atToken (.internal fault) token) m

/-- Runs a step with a call stack of its own. -/
@[inline] def apart (x : Step ε α) : Step ε α := fun m =>
  let stack := m.stack
  match x { m with stack := .root } with
  | .ok a m => .ok a { m with stack }
  | .error e m => .error e { m with stack }
  | .outOfFuel => .outOfFuel

/-- Runs a step, and another one if it fails in a way that can be handled. -/
@[inline] def rescue (x : Step ε α) (handled : ε → Bool) (handler : ε → Step ε α) : Step ε α :=
  fun m =>
    match x m with
    | .ok a m => .ok a m
    | .error e m => if handled e then handler e m else .error e m
    | .outOfFuel => .outOfFuel

/-! ## Steps one after the other -/

theorem bind_apply (x : Step ε α) (f : α → Step ε β) (m : Machine) :
    (x >>= f) m = match x m with
      | .ok a m => f a m
      | .error e m => .error e m
      | .outOfFuel => .outOfFuel := rfl

theorem bind_of_ok {x : Step ε α} {f : α → Step ε β} {m m' : Machine} {a : α}
    (h : x m = .ok a m') : (x >>= f) m = f a m' := by
  simp [bind_apply, h]

theorem bind_of_error {x : Step ε α} {f : α → Step ε β} {m m' : Machine} {e : ε}
    (h : x m = .error e m') : (x >>= f) m = .error e m' := by
  simp [bind_apply, h]

/-- If both steps together have a value, so does the first one. -/
theorem exists_ok_of_bind {x : Step ε α} {f : α → Step ε β} {m m' : Machine} {b : β}
    (h : (x >>= f) m = .ok b m') : ∃ a m₁, x m = .ok a m₁ ∧ f a m₁ = .ok b m' := by
  rw [bind_apply] at h
  cases hx : x m with
  | ok a m₁ =>
      rw [hx] at h
      exact ⟨a, m₁, rfl, h⟩
  | error e m₁ =>
      rw [hx] at h
      cases h
  | outOfFuel =>
      rw [hx] at h
      cases h

end Step

end Script
