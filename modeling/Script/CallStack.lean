/-!
# `CallStack` — which functions and loops are open

A frame stands for a function that has been entered, and counts the loops entered inside it. Both
the parser and the evaluator keep such a stack: it decides where `break` and `continue` are
allowed, and how deep calls are nested. The root frame, with no name, stands for the program
itself.
-/

namespace Script

/-- An open function and the number of loops open inside it. -/
structure Frame where
  function : String
  loops : Nat
  deriving Repr, DecidableEq, Inhabited

/-- The open functions, innermost first. -/
structure CallStack where
  frames : List Frame
  deriving Repr, DecidableEq, Inhabited

/-- Why a function cannot be left. -/
inductive FrameFault where
  | mismatch (active leaving : String)
  | noFrame
  deriving Repr, DecidableEq

/-- The wording of a fault. -/
def FrameFault.message : FrameFault → String
  | mismatch active leaving => s!"Leaving function {leaving} but the active frame is {active}"
  | noFrame => "The call stack is empty"

namespace CallStack

/-- Only the root frame. -/
def root : CallStack := ⟨[⟨"", 0⟩]⟩

/-- The number of frames above the root. -/
def depth (s : CallStack) : Nat := s.frames.length - 1

/-- Enters a function. -/
def enter (s : CallStack) (function : String) : CallStack := ⟨⟨function, 0⟩ :: s.frames⟩

/-- Leaves a function, which has to be the innermost. -/
def leave (s : CallStack) (function : String) : Except FrameFault CallStack :=
  match s.frames with
  | frame :: rest =>
    if frame.function = function then .ok ⟨rest⟩
    else .error (.mismatch frame.function function)
  | [] => .error .noFrame

/-- Changes the number of loops open in the innermost frame. -/
def mapLoops (s : CallStack) (f : Nat → Nat) : CallStack :=
  match s.frames with
  | frame :: rest => ⟨{ frame with loops := f frame.loops } :: rest⟩
  | [] => s

/-- Enters a loop. -/
def enterLoop (s : CallStack) : CallStack := s.mapLoops (· + 1)

/-- Leaves a loop. -/
def leaveLoop (s : CallStack) : CallStack := s.mapLoops (· - 1)

/-- Whether a loop is open in the innermost frame. -/
def insideLoop (s : CallStack) : Bool :=
  match s.frames with
  | frame :: _ => frame.loops != 0
  | [] => false

/-! ## Leaving undoes entering -/

@[simp] theorem leave_enter (s : CallStack) (f : String) : (s.enter f).leave f = .ok s := by
  simp [enter, leave]

@[simp] theorem leaveLoop_enterLoop (s : CallStack) : s.enterLoop.leaveLoop = s := by
  unfold enterLoop leaveLoop mapLoops
  cases h : s.frames with
  | nil => simp [h]
  | cons frame rest =>
      cases s
      simp_all

@[simp] theorem depth_enterLoop (s : CallStack) : s.enterLoop.depth = s.depth := by
  unfold enterLoop mapLoops depth
  split <;> simp_all

theorem insideLoop_enterLoop {s : CallStack} (h : s.frames ≠ []) :
    s.enterLoop.insideLoop = true := by
  unfold enterLoop mapLoops insideLoop
  cases hf : s.frames with
  | nil => exact absurd hf h
  | cons frame rest => simp

@[simp] theorem insideLoop_enter (s : CallStack) (f : String) :
    (s.enter f).insideLoop = false := rfl

theorem depth_enter {s : CallStack} (h : s.frames ≠ []) (f : String) :
    (s.enter f).depth = s.depth + 1 := by
  have := List.length_pos_iff.mpr h
  simp only [enter, depth, List.length_cons]
  omega

end CallStack

end Script
