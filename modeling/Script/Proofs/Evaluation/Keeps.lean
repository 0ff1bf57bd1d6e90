import Script.Machine

/-!
# `Proofs.Evaluation.Keeps` — steps that agree and keep an invariant

`Keeps K σ x y Q E` speaks about two steps at once. From every machine whose call stack is `σ` and
whose heap meets `K` they do *the same*, and if they end they leave the call stack as it was and a
heap that meets `K`, with a value in `Q` or an error in `E`. For `x = y` this is the usual triple.

There is one rule for each step of `Script.Machine`, so a proof about the evaluator follows its
text. The two sides matter where an evaluator is compared with one that is watched
(`Proofs.Evaluation.Watch`): they differ in how the parts of a node are evaluated and in nothing
else, so one pass over the evaluator shows both that the invariant is kept and that the two agree.
-/

namespace Script

variable {ε δ α β : Type} {K : Heap → Prop} {σ : CallStack}

/-- An outcome with the call stack `σ`, a heap that meets `K`, and a value in `Q` or an error in
    `E`. Running out of fuel is no outcome to speak of. -/
def Outcome.Ends (K : Heap → Prop) (σ : CallStack) (Q : α → Prop) (E : ε → Prop) :
    Outcome ε α → Prop
  | .ok a m => m.stack = σ ∧ K m.heap ∧ Q a
  | .error e m => m.stack = σ ∧ K m.heap ∧ E e
  | .outOfFuel => True

theorem Outcome.Ends.mono {Q Q' : α → Prop} {E E' : ε → Prop} (hQ : ∀ a, Q a → Q' a)
    (hE : ∀ e, E e → E' e) {o : Outcome ε α} (h : o.Ends K σ Q E) : o.Ends K σ Q' E' := by
  cases o with
  | ok a m => exact ⟨h.1, h.2.1, hQ a h.2.2⟩
  | error e m => exact ⟨h.1, h.2.1, hE e h.2.2⟩
  | outOfFuel => trivial

namespace Step

/-- From the call stack `σ` and a heap that meets `K`, two steps do the same and end with them. -/
def Keeps (K : Heap → Prop) (σ : CallStack) (x y : Step ε α) (Q : α → Prop) (E : ε → Prop) : Prop :=
  ∀ m, m.stack = σ → K m.heap → x m = y m ∧ (x m).Ends K σ Q E

namespace Keeps

variable {x y : Step ε α} {Q Q' : α → Prop} {R : β → Prop} {E E' : ε → Prop}

/-- What is said of values and errors may be weakened. -/
theorem mono (h : Keeps K σ x y Q E) (hQ : ∀ a, Q a → Q' a) (hE : ∀ e, E e → E' e) :
    Keeps K σ x y Q' E' :=
  fun m hσ hK => ⟨(h m hσ hK).1, (h m hσ hK).2.mono hQ hE⟩

theorem post (h : Keeps K σ x y Q E) (hQ : ∀ a, Q a → Q' a) : Keeps K σ x y Q' E :=
  h.mono hQ fun _ he => he

/-! ## Steps that change nothing -/

theorem pure {a : α} (ha : Q a) : Keeps K σ (Pure.pure a : Step ε α) (Pure.pure a) Q E :=
  fun _ hσ hK => ⟨rfl, hσ, hK, ha⟩

theorem fail {e : ε} (he : E e) : Keeps K σ (Step.fail e : Step ε α) (Step.fail e) Q E :=
  fun _ hσ hK => ⟨rfl, hσ, hK, he⟩

theorem exhausted : Keeps K σ (Step.exhausted : Step ε α) Step.exhausted Q E :=
  fun _ _ _ => ⟨rfl, trivial⟩

/-- A result that is already there is given back or thrown. -/
theorem ofExcept {r : Except ε α} (hok : ∀ a, r = .ok a → Q a) (herror : ∀ e, r = .error e → E e) :
    Keeps K σ (Step.ofExcept r) (Step.ofExcept r) Q E := by
  cases r with
  | ok a => exact pure (hok a rfl)
  | error e => exact fail (herror e rfl)

/-- What is observed is observed on this call stack and on a heap that meets `K`. -/
theorem observe {f : Machine → α} (hf : ∀ m, m.stack = σ → K m.heap → Q (f m)) :
    Keeps K σ (Step.observe f : Step ε α) (Step.observe f) Q E :=
  fun m hσ hK => ⟨rfl, hσ, hK, hf m hσ hK⟩

theorem inspect {f : Heap → α} (hf : ∀ h, K h → Q (f h)) :
    Keeps K σ (Step.inspect f : Step ε α) (Step.inspect f) Q E :=
  fun m hσ hK => ⟨rfl, hσ, hK, hf m.heap hK⟩

/-! ## Steps on the heap and on the world -/

/-- What is made leaves a heap that meets `K`. -/
theorem allocate {f : Heap → α × Heap} (hf : ∀ h, K h → K (f h).2 ∧ Q (f h).1) :
    Keeps K σ (Step.allocate f : Step ε α) (Step.allocate f) Q E :=
  fun m hσ hK => ⟨rfl, hσ, (hf m.heap hK).1, (hf m.heap hK).2⟩

theorem change {f : Heap → Heap} {Q : Unit → Prop} (hf : ∀ h, K h → K (f h)) (hQ : Q ()) :
    Keeps K σ (Step.change f : Step ε Unit) (Step.change f) Q E :=
  fun m hσ hK => ⟨rfl, hσ, hf m.heap hK, hQ⟩

/-- An operation that may fail leaves a heap that meets `K` in either case. -/
theorem attempt {f : Heap → Except ε α × Heap} (hf : ∀ h, K h → K (f h).2)
    (hok : ∀ h a, (f h).1 = .ok a → Q a) (herror : ∀ h e, (f h).1 = .error e → E e) :
    Keeps K σ (Step.attempt f) (Step.attempt f) Q E := by
  intro m hσ hK
  refine ⟨rfl, ?_⟩
  have hheap := hf m.heap hK
  unfold Step.attempt
  cases hr : f m.heap with
  | mk result heap =>
      rw [hr] at hheap
      cases result with
      | ok a => simpa only [hr] using ⟨hσ, hheap, hok m.heap a (by rw [hr])⟩
      | error e => simpa only [hr] using ⟨hσ, hheap, herror m.heap e (by rw [hr])⟩

theorem outside {f : World → World} {Q : Unit → Prop} (hQ : Q ()) :
    Keeps K σ (Step.outside f : Step ε Unit) (Step.outside f) Q E :=
  fun _ hσ hK => ⟨rfl, hσ, hK, hQ⟩

/-! ## Steps made of others -/

/-- One step after the other, where the second one may count on what is said of the value of the
    first. -/
theorem bind {f g : α → Step ε β} (hx : Keeps K σ x y Q E)
    (hf : ∀ a, Q a → Keeps K σ (f a) (g a) R E) : Keeps K σ (x >>= f) (y >>= g) R E := by
  intro m hσ hK
  obtain ⟨hxy, hends⟩ := hx m hσ hK
  rw [bind_apply, bind_apply, ← hxy]
  cases hm : x m with
  | ok a m' =>
      rw [hm] at hends
      exact hf a hends.2.2 m' hends.1 hends.2.1
  | error e m' =>
      rw [hm] at hends
      exact ⟨rfl, hends⟩
  | outOfFuel => exact ⟨rfl, trivial⟩

/-- The errors change, and what is said of them has to follow. -/
theorem mapError {f : ε → δ} {E' : δ → Prop} (hx : Keeps K σ x y Q E)
    (hf : ∀ e, E e → E' (f e)) : Keeps K σ (x.mapError f) (y.mapError f) Q E' := by
  intro m hσ hK
  obtain ⟨hxy, hends⟩ := hx m hσ hK
  refine ⟨by simp only [Step.mapError, hxy], ?_⟩
  simp only [Step.mapError]
  cases hm : x m with
  | ok a m' =>
      rw [hm] at hends
      exact hends
  | error e m' =>
      rw [hm] at hends
      exact ⟨hends.1, hends.2.1, hf e hends.2.2⟩
  | outOfFuel => exact trivial

/-- An error that is handled goes to the handler, and the others go on. -/
theorem rescue {handled : ε → Bool} {f g : ε → Step ε α} (hx : Keeps K σ x y Q E')
    (hf : ∀ e, E' e → handled e = true → Keeps K σ (f e) (g e) Q E)
    (hE : ∀ e, E' e → handled e = false → E e) :
    Keeps K σ (x.rescue handled f) (y.rescue handled g) Q E := by
  intro m hσ hK
  obtain ⟨hxy, hends⟩ := hx m hσ hK
  unfold Step.rescue
  rw [← hxy]
  cases hm : x m with
  | ok a m' =>
      rw [hm] at hends
      exact ⟨rfl, hends⟩
  | error e m' =>
      rw [hm] at hends
      cases hh : handled e with
      | true =>
          simp only [hh, if_true]
          exact hf e hends.2.2 hh m' hends.1 hends.2.1
      | false =>
          simp only [hh]
          exact ⟨rfl, hends.1, hends.2.1, hE e hends.2.2 hh⟩
  | outOfFuel => exact ⟨rfl, trivial⟩

/-- A loop is entered before and left after the step, so the step itself runs on `σ.enterLoop`. -/
theorem inLoop (hx : Keeps K σ.enterLoop x y Q E) : Keeps K σ x.inLoop y.inLoop Q E := by
  intro m hσ hK
  obtain ⟨hxy, hends⟩ := hx { m with stack := m.stack.enterLoop } (by rw [hσ]) hK
  refine ⟨by simp only [Step.inLoop, hxy], ?_⟩
  simp only [Step.inLoop]
  cases hm : x { m with stack := m.stack.enterLoop } with
  | ok a m' =>
      rw [hm] at hends
      exact ⟨by simp [hends.1], hends.2.1, hends.2.2⟩
  | error e m' =>
      rw [hm] at hends
      exact ⟨by simp [hends.1], hends.2.1, hends.2.2⟩
  | outOfFuel => exact trivial

/-- A function that is left from the stack on which it was entered is never lost track of, so the
    errors are those of the step and no internal fault is among them. -/
theorem inFunction {x y : Step RuntimeError α} {E : RuntimeError → Prop} {name : String}
    (token : Token) (hx : Keeps K (σ.enter name) x y Q E) :
    Keeps K σ (x.inFunction name token) (y.inFunction name token) Q E := by
  intro m hσ hK
  obtain ⟨hxy, hends⟩ := hx { m with stack := m.stack.enter name } (by rw [hσ]) hK
  refine ⟨by simp only [Step.inFunction, hxy], ?_⟩
  simp only [Step.inFunction]
  cases hm : x { m with stack := m.stack.enter name } with
  | ok a m' =>
      rw [hm] at hends
      simp only [Step.inFunction.left, hends.1, CallStack.leave_enter]
      exact ⟨rfl, hends.2.1, hends.2.2⟩
  | error e m' =>
      rw [hm] at hends
      simp only [Step.inFunction.left, hends.1, CallStack.leave_enter]
      exact ⟨rfl, hends.2.1, hends.2.2⟩
  | outOfFuel => exact trivial

/-- The step has a call stack of its own, and afterwards the old one is back. -/
theorem apart (hx : Keeps K .root x y Q E) : Keeps K σ x.apart y.apart Q E := by
  intro m hσ hK
  obtain ⟨hxy, hends⟩ := hx { m with stack := .root } rfl hK
  refine ⟨by simp only [Step.apart, hxy], ?_⟩
  simp only [Step.apart]
  cases hm : x { m with stack := .root } with
  | ok a m' =>
      rw [hm] at hends
      exact ⟨hσ, hends.2.1, hends.2.2⟩
  | error e m' =>
      rw [hm] at hends
      exact ⟨hσ, hends.2.1, hends.2.2⟩
  | outOfFuel => exact trivial

end Keeps

end Step

end Script
