import Script.Machine

/-!
# `Proofs.Evaluation.Course` — the course that a heap takes

A *course* says which heaps are sound and which heaps may come later than a given one. A step
*follows* a course (`Step.Follows`) if from a sound heap it only goes to sound heaps that come
later, also when it fails, and leaves the call stack as it was.

What a step gives back is said relative to the heap it leaves, since a value is good or bad only
together with what it refers to. So the rule for one step after the other hands the second one a
later heap, and what was known before has to be carried over to it. As with `Step.Keeps`, two steps
are spoken of at once that do the same.
-/

namespace Script

variable {ε δ α β : Type}

/-- Which heaps are sound, and which come later than which. -/
structure Course where
  sound : Heap → Prop
  later : Heap → Heap → Prop
  later_refl : ∀ h, later h h
  later_trans : ∀ {h h' h''}, later h h' → later h' h'' → later h h''

/-- The heap goes on from `h` to the sound heap `h'`. -/
structure Course.Goes (c : Course) (h h' : Heap) : Prop where
  sound : c.sound h'
  later : c.later h h'

theorem Course.Goes.refl {c : Course} {h : Heap} (hh : c.sound h) : c.Goes h h :=
  ⟨hh, c.later_refl h⟩

/-- Whatever lies between, the heap at the end is a sound later one. -/
theorem Course.Goes.trans {c : Course} {h h' h'' : Heap} (hfirst : c.Goes h h')
    (hsecond : c.Goes h' h'') : c.Goes h h'' :=
  ⟨hsecond.sound, c.later_trans hfirst.later hsecond.later⟩

/-- An operation takes the heap to a sound later one, and what it makes is in `Q`. -/
def Course.Makes (c : Course) (h : Heap) (r : α × Heap) (Q : Heap → α → Prop) : Prop :=
  c.Goes h r.2 ∧ Q r.2 r.1

/-- An outcome with the call stack `σ` and a heap to which `h` goes on; a value is in `Q`. -/
def Outcome.Meets (c : Course) (σ : CallStack) (h : Heap) (Q : Heap → α → Prop) :
    Outcome ε α → Prop
  | .ok a m => m.stack = σ ∧ c.Goes h m.heap ∧ Q m.heap a
  | .error _ m => m.stack = σ ∧ c.Goes h m.heap
  | .outOfFuel => True

namespace Outcome.Meets

variable {c : Course} {σ : CallStack} {h h' : Heap} {Q Q' : Heap → α → Prop} {o : Outcome ε α}

/-- What is said of the value may be weakened, with the heap known to have gone on. -/
theorem mono (ho : o.Meets c σ h Q) (hQ : ∀ h' a, c.Goes h h' → Q h' a → Q' h' a) :
    o.Meets c σ h Q' := by
  cases o with
  | ok a m => exact ⟨ho.1, ho.2.1, hQ m.heap a ho.2.1 ho.2.2⟩
  | error e m => exact ho
  | outOfFuel => trivial

/-- What goes on from a later heap goes on from an earlier one. -/
theorem after (ho : o.Meets c σ h' Q) (hh : c.Goes h h') : o.Meets c σ h Q := by
  cases o with
  | ok a m => exact ⟨ho.1, hh.trans ho.2.1, ho.2.2⟩
  | error e m => exact ⟨ho.1, hh.trans ho.2⟩
  | outOfFuel => trivial

end Outcome.Meets

/-- However an evaluation ends, with a value or with an error, the machine is in `P`. -/
def Outcome.Leaves (P : Machine → Prop) : Outcome ε α → Prop
  | .ok _ m => P m
  | .error _ m => P m
  | .outOfFuel => True

instance {P : Machine → Prop} [DecidablePred P] :
    (o : Outcome ε α) → Decidable (o.Leaves P)
  | .ok _ m => inferInstanceAs (Decidable (P m))
  | .error _ m => inferInstanceAs (Decidable (P m))
  | .outOfFuel => .isTrue trivial

theorem Outcome.Leaves.mono {P P' : Machine → Prop} {o : Outcome ε α} (ho : o.Leaves P)
    (hP : ∀ m, P m → P' m) : o.Leaves P' := by
  cases o with
  | ok a m => exact hP m ho
  | error e m => exact hP m ho
  | outOfFuel => trivial

/-- Without what is said of the value, all endings are alike. -/
theorem Outcome.Meets.leaves {c : Course} {σ : CallStack} {h : Heap} {Q : Heap → α → Prop}
    {o : Outcome ε α} (ho : o.Meets c σ h Q) :
    o.Leaves fun m => m.stack = σ ∧ c.Goes h m.heap := by
  cases o with
  | ok a m => exact ⟨ho.1, ho.2.1⟩
  | error e m => exact ho
  | outOfFuel => trivial

namespace Step

/-- From the call stack `σ` and the heap `h`, if it is sound, two steps do the same, and the heap
    takes its course. -/
def Follows (c : Course) (σ : CallStack) (h : Heap) (x y : Step ε α) (Q : Heap → α → Prop) : Prop :=
  ∀ m, m.stack = σ → m.heap = h → c.sound h → x m = y m ∧ (x m).Meets c σ h Q

namespace Follows

variable {c : Course} {σ : CallStack} {h : Heap} {x y : Step ε α} {Q Q' : Heap → α → Prop}
  {R : Heap → β → Prop}

/-- The same for steps. -/
theorem post (hx : Follows c σ h x y Q) (hQ : ∀ h' a, c.Goes h h' → Q h' a → Q' h' a) :
    Follows c σ h x y Q' :=
  fun m hσ hm hh => ⟨(hx m hσ hm hh).1, (hx m hσ hm hh).2.mono hQ⟩

/-- What is known of how a step ends can be added to what is said of its value. -/
theorem also {P : Heap → α → Prop} (hx : Follows c σ h x y Q)
    (hP : ∀ m a m', m.heap = h → x m = .ok a m' → P m'.heap a) :
    Follows c σ h x y fun h' a => Q h' a ∧ P h' a := by
  intro m hσ hm hh
  obtain ⟨hxy, hmeets⟩ := hx m hσ hm hh
  refine ⟨hxy, ?_⟩
  cases hrun : x m with
  | ok a m' =>
      rw [hrun] at hmeets
      exact ⟨hmeets.1, hmeets.2.1, hmeets.2.2, hP m a m' hm hrun⟩
  | error e m' =>
      rw [hrun] at hmeets
      exact hmeets
  | outOfFuel => exact trivial

/-- From a sound heap only later ones are reached, however the step ends. -/
theorem leaves_later {m : Machine} (hx : Follows c m.stack m.heap x y Q) (hm : c.sound m.heap) :
    (x m).Leaves fun m' => c.later m.heap m'.heap :=
  (hx m rfl rfl hm).2.leaves.mono fun _ hm' => hm'.2.later

/-- Only sound heaps matter. -/
theorem of_sound (hx : c.sound h → Follows c σ h x y Q) : Follows c σ h x y Q :=
  fun m hσ hm hh => hx hh m hσ hm hh

/-! ## Steps that change nothing -/

theorem pure {a : α} (ha : Q h a) : Follows c σ h (Pure.pure a : Step ε α) (Pure.pure a) Q := by
  rintro m hσ rfl hh
  exact ⟨rfl, hσ, .refl hh, ha⟩

theorem fail {e : ε} : Follows c σ h (Step.fail e : Step ε α) (Step.fail e) Q := by
  rintro m hσ rfl hh
  exact ⟨rfl, hσ, .refl hh⟩

theorem failAt {fault : Fault} {token : Token} {Q : Heap → α → Prop} :
    Follows c σ h (Step.failAt fault token) (Step.failAt fault token) Q :=
  fail

theorem exhausted : Follows c σ h (Step.exhausted : Step ε α) Step.exhausted Q :=
  fun _ _ _ _ => ⟨rfl, trivial⟩

/-- A result that is already there is given back or thrown, and the heap stays. -/
theorem ofExcept {r : Except ε α} (hr : ∀ a, r = .ok a → Q h a) :
    Follows c σ h (Step.ofExcept r) (Step.ofExcept r) Q := by
  cases r with
  | ok a => exact pure (hr a rfl)
  | error e => exact fail

/-- What is observed is observed of this heap and this call stack. -/
theorem observe {f : Machine → α} (hf : ∀ m, m.heap = h → m.stack = σ → Q h (f m)) :
    Follows c σ h (Step.observe f : Step ε α) (Step.observe f) Q := by
  rintro m hσ rfl hh
  exact ⟨rfl, hσ, .refl hh, hf m rfl hσ⟩

/-- What is done to the world leaves the heap and the call stack. -/
theorem outside {f : World → World} {Q : Heap → Unit → Prop} (hQ : Q h ()) :
    Follows c σ h (Step.outside f : Step ε Unit) (Step.outside f) Q := by
  rintro m hσ rfl hh
  exact ⟨rfl, hσ, .refl hh, hQ⟩

/-! ## Steps on the heap -/

/-- What is made is good on the heap that has it. -/
theorem allocate {f : Heap → α × Heap} (hf : c.sound h → c.Makes h (f h) Q) :
    Follows c σ h (Step.allocate f : Step ε α) (Step.allocate f) Q := by
  rintro m hσ rfl hh
  exact ⟨rfl, hσ, hf hh⟩

/-- A change has to take the heap to a sound later one, and there is no value. -/
theorem change {f : Heap → Heap} {Q : Heap → Unit → Prop} (hf : c.sound h → c.Goes h (f h))
    (hQ : c.Goes h (f h) → Q (f h) ()) :
    Follows c σ h (Step.change f : Step ε Unit) (Step.change f) Q := by
  rintro m hσ rfl hh
  exact ⟨rfl, hσ, hf hh, hQ (hf hh)⟩

/-- An operation that may fail takes the heap on in either case, and its value counts only if there
    is one. -/
theorem attempt {f : Heap → Except ε α × Heap} (hf : c.sound h → c.Goes h (f h).2)
    (hok : ∀ a, (f h).1 = .ok a → Q (f h).2 a) :
    Follows c σ h (Step.attempt f) (Step.attempt f) Q := by
  rintro m hσ rfl hh
  refine ⟨rfl, ?_⟩
  have hgoes := hf hh
  unfold Step.attempt
  cases hr : f m.heap with
  | mk result heap =>
      rw [hr] at hgoes
      cases result with
      | ok a =>
          have ha := hok a (by rw [hr])
          rw [hr] at ha
          simpa only [hr] using ⟨hσ, hgoes, ha⟩
      | error e => simpa only [hr] using ⟨hσ, hgoes⟩

/-! ## Steps made of others -/

/-- One step after the other. The second one starts from the heap that the first one leaves, which
    is sound and later. -/
theorem bind {f g : α → Step ε β} (hx : Follows c σ h x y Q)
    (hf : ∀ h' a, c.Goes h h' → Q h' a → Follows c σ h' (f a) (g a) R) :
    Follows c σ h (x >>= f) (y >>= g) R := by
  intro m hσ hm hh
  obtain ⟨hxy, hmeets⟩ := hx m hσ hm hh
  rw [bind_apply, bind_apply, ← hxy]
  cases hrun : x m with
  | ok a m' =>
      rw [hrun] at hmeets
      obtain ⟨hσ', hgoes, ha⟩ := hmeets
      obtain ⟨hfg, hmeets'⟩ := hf m'.heap a hgoes ha m' hσ' rfl hgoes.sound
      exact ⟨hfg, hmeets'.after hgoes⟩
  | error e m' =>
      rw [hrun] at hmeets
      exact ⟨rfl, hmeets⟩
  | outOfFuel => exact ⟨rfl, trivial⟩

/-- What is read is read from the heap as it is. -/
theorem inspect {f : Heap → α} {g g' : α → Step ε β} (hg : Follows c σ h (g (f h)) (g' (f h)) R) :
    Follows c σ h (Step.inspect f >>= g) (Step.inspect f >>= g') R := by
  rintro m hσ rfl hh
  exact hg m hσ rfl hh

/-- What the error is does not matter for the course. -/
theorem mapError {f : ε → δ} (hx : Follows c σ h x y Q) :
    Follows c σ h (x.mapError f) (y.mapError f) Q := by
  intro m hσ hm hh
  obtain ⟨hxy, hmeets⟩ := hx m hσ hm hh
  refine ⟨by simp only [Step.mapError, hxy], ?_⟩
  simp only [Step.mapError]
  cases hrun : x m with
  | ok a m' =>
      rw [hrun] at hmeets
      exact hmeets
  | error e m' =>
      rw [hrun] at hmeets
      exact hmeets
  | outOfFuel => exact trivial

theorem blame {x y : Step Fault α} (token : Token) (hx : Follows c σ h x y Q) :
    Follows c σ h (x.blame token) (y.blame token) Q :=
  hx.mapError

/-- The handler starts from the heap that the failed step has left. -/
theorem rescue {handled : ε → Bool} {f g : ε → Step ε α} (hx : Follows c σ h x y Q)
    (hf : ∀ h' e, c.Goes h h' → Follows c σ h' (f e) (g e) Q) :
    Follows c σ h (x.rescue handled f) (y.rescue handled g) Q := by
  intro m hσ hm hh
  obtain ⟨hxy, hmeets⟩ := hx m hσ hm hh
  unfold Step.rescue
  rw [← hxy]
  cases hrun : x m with
  | ok a m' =>
      rw [hrun] at hmeets
      exact ⟨rfl, hmeets⟩
  | error e m' =>
      rw [hrun] at hmeets
      obtain ⟨hσ', hgoes⟩ := hmeets
      by_cases hhandled : handled e = true
      · simp only [hhandled, if_true]
        obtain ⟨hfg, hmeets'⟩ := hf m'.heap e hgoes m' hσ' rfl hgoes.sound
        exact ⟨hfg, hmeets'.after hgoes⟩
      · simp only [hhandled]
        exact ⟨rfl, hσ', hgoes⟩
  | outOfFuel => exact ⟨rfl, trivial⟩

/-- The loop is left again, so the call stack is as before. -/
theorem inLoop (hx : Follows c σ.enterLoop h x y Q) : Follows c σ h x.inLoop y.inLoop Q := by
  intro m hσ hm hh
  obtain ⟨hxy, hmeets⟩ := hx { m with stack := m.stack.enterLoop } (by rw [hσ]) hm hh
  refine ⟨by simp only [Step.inLoop, hxy], ?_⟩
  simp only [Step.inLoop]
  cases hrun : x { m with stack := m.stack.enterLoop } with
  | ok a m' =>
      rw [hrun] at hmeets
      exact ⟨by simp [hmeets.1], hmeets.2⟩
  | error e m' =>
      rw [hrun] at hmeets
      exact ⟨by simp [hmeets.1], hmeets.2⟩
  | outOfFuel => exact trivial

/-- The function that is left is the one that was entered, so that it cannot be left never comes
    up. -/
theorem inFunction {x y : Step RuntimeError α} {name : String} (token : Token)
    (hx : Follows c (σ.enter name) h x y Q) :
    Follows c σ h (x.inFunction name token) (y.inFunction name token) Q := by
  intro m hσ hm hh
  obtain ⟨hxy, hmeets⟩ := hx { m with stack := m.stack.enter name } (by rw [hσ]) hm hh
  refine ⟨by simp only [Step.inFunction, hxy], ?_⟩
  simp only [Step.inFunction]
  cases hrun : x { m with stack := m.stack.enter name } with
  | ok a m' =>
      rw [hrun] at hmeets
      simp only [Step.inFunction.left, hmeets.1, CallStack.leave_enter]
      exact ⟨rfl, hmeets.2⟩
  | error e m' =>
      rw [hrun] at hmeets
      simp only [Step.inFunction.left, hmeets.1, CallStack.leave_enter]
      exact ⟨rfl, hmeets.2⟩
  | outOfFuel => exact trivial

/-- A call stack of its own is given to the step, and afterwards the old one is back. -/
theorem apart (hx : Follows c .root h x y Q) : Follows c σ h x.apart y.apart Q := by
  intro m hσ hm hh
  obtain ⟨hxy, hmeets⟩ := hx { m with stack := .root } rfl hm hh
  refine ⟨by simp only [Step.apart, hxy], ?_⟩
  simp only [Step.apart]
  cases hrun : x { m with stack := .root } with
  | ok a m' =>
      rw [hrun] at hmeets
      exact ⟨hσ, hmeets.2⟩
  | error e m' =>
      rw [hrun] at hmeets
      exact ⟨hσ, hmeets.2⟩
  | outOfFuel => exact trivial

end Follows

end Step

end Script
