import Script.Proofs.Heap.Aside

/-!
# `Proofs.Evaluation.Beside` — two runs, one with a variable that nothing mentions

Two machines are beside each other if they are the same but for one variable that nothing mentions
(`Aside`). Two steps are beside each other (`Step.Beside`) if from such machines they end in the
same way, with the same value or the same error, in machines that are beside each other again; only
the left step may run out of fuel before.

There need not be such a variable. Without one the machines are the same, and the relation says that
the right step does what the left one does, with fuel to spare.

There is one rule for each step of `Script.Machine`. The rules for steps on the heap ask that the
operation goes past the variable (`Aside.Passes`). A text that does mention the variable may still
run in a scope that lies away from it (`Avoids`). Such a scope turns up when a module is loaded or
one of its functions is called, and the rest of the run knows of it (`Wider`).
-/

namespace Script

variable {ε δ α β : Type} {σ : Option Aside}

/-! ## Heaps, machines and outcomes -/

/-- The variable, if there is one, is out of sight from the scope, or its name is in `P`. -/
def Avoids (σ : Option Aside) (scope : Ref .scope) (P : String → Prop) : Prop :=
  ∀ x ∈ σ, x.away scope ∨ P x.name

/-- The nodes have nothing to do with the variable when they are run in the scope. -/
abbrev Unaware (σ : Option Aside) (scope : Ref .scope) (ns : List Node) : Prop :=
  Avoids σ scope (Unmentioned · ns)

/-- The name is not that of the variable when it is looked up in the scope. -/
abbrev Misses (σ : Option Aside) (scope : Ref .scope) (name : String) : Prop :=
  Avoids σ scope (name ≠ ·)

theorem avoids_some {x : Aside} {scope : Ref .scope} {P : String → Prop} :
    Avoids (some x) scope P ↔ x.away scope ∨ P x.name := by
  simp [Avoids]

/-- If the variable is in sight, less may be asked of its name. -/
theorem Avoids.mono {scope : Ref .scope} {P Q : String → Prop} (h : Avoids σ scope P)
    (hPQ : ∀ name, P name → Q name) : Avoids σ scope Q :=
  fun x hx => (h x hx).imp_right (hPQ x.name)

namespace Unaware

variable {scope : Ref .scope} {n : Node} {ns ns' : List Node}

theorem append (h : Unaware σ scope (ns ++ ns')) : Unaware σ scope ns ∧ Unaware σ scope ns' :=
  ⟨h.mono fun _ h => h.append.1, h.mono fun _ h => h.append.2⟩

theorem tail (h : Unaware σ scope (n :: ns)) : Unaware σ scope ns := h.mono fun _ h => h.tail

/-- A name that the first node mentions is not that of the variable. -/
theorem ne (h : Unaware σ scope (n :: ns)) {name : String} (hname : name ∈ n.mentions) :
    Misses σ scope name := h.mono fun _ h => h.ne hname

end Unaware

/-- Whether the variable, if there is one, is sound on a heap. -/
def Heap.Spares (σ : Option Aside) (h : Heap) : Prop := ∀ x ∈ σ, x.Sound h

/-- The heaps are the same but for the variable, which stands for its values. -/
def Heap.Beside : Option Aside → Heap → Heap → Prop
  | none, h, h' => h = h'
  | some x, h, h' => x.drop h = x.drop h' ∧ x.Sound h
    ∧ h.own? x.scope x.name = x.left ∧ h'.own? x.scope x.name = x.right

namespace Heap.Beside

variable {h h' : Heap}

/-- Soundness of the variable does not depend on its value, so it is the same on the other heap. -/
theorem sound_right {x : Aside} (hw : x.drop h = x.drop h') (hx : x.Sound h) : x.Sound h' := by
  have hsize : h'.scopes.size = h.scopes.size := by
    simpa [Heap.without] using (congrArg (·.scopes.size) hw).symm
  have hparent : ∀ r, h'.parent? r = h.parent? r := fun r => by
    rw [← Heap.parent?_drop (x := x) (h := h), hw, Heap.parent?_drop]
  have hfunctions : h'.functions = h.functions := (congrArg Heap.functions hw).symm
  exact hx.kept (Nat.le_of_eq hsize.symm) (fun r _ => hparent r) hfunctions

theorem spares (hh : Heap.Beside σ h h') : h.Spares σ := by
  rintro x rfl
  exact hh.2.1

/-- What is the same without the variable is the same on both heaps. -/
theorem read (hh : Heap.Beside σ h h') {f : Heap → α}
    (hf : ∀ x ∈ σ, ∀ h, x.Sound h → f (x.drop h) = f h) : f h = f h' := by
  cases σ with
  | none => exact congrArg f hh
  | some x => rw [← hf x rfl h hh.2.1, ← hf x rfl h' (sound_right hh.1 hh.2.1), hh.1]

/-- An operation that goes past the variable gives the same on both heaps and leaves them beside
    each other. The rules for steps that change the heap rest on this. -/
theorem run (hh : Heap.Beside σ h h') {p : Heap → α × Heap}
    (hp : ∀ x ∈ σ, ∀ h, x.Sound h → x.Passes h p) :
    (p h).1 = (p h').1 ∧ Heap.Beside σ (p h).2 (p h').2 := by
  cases σ with
  | none =>
      obtain rfl : h = h' := hh
      exact ⟨rfl, rfl⟩
  | some x =>
      obtain ⟨hw, hx, hleft, hright⟩ := hh
      have hpass := hp x rfl h hx
      have hpass' := hp x rfl h' (sound_right hw hx)
      have hsame : ((p h).1, x.drop (p h).2) = ((p h').1, x.drop (p h').2) := by
        rw [← hpass.drop, ← hpass'.drop, hw]
      obtain ⟨hvalue, hheap⟩ := Prod.mk.inj hsame
      exact ⟨hvalue, hheap, hpass.sound, hpass.own.trans hleft, hpass'.own.trans hright⟩

end Heap.Beside

/-- More scopes are known to lie away from the variable. -/
structure Wider (σ σ' : Option Aside) : Prop where
  beside : ∀ {h h'}, Heap.Beside σ' h h' → Heap.Beside σ h h'
  avoids : ∀ {scope P}, Avoids σ scope P → Avoids σ' scope P

/-- One more scope is known to lie away. -/
def Aside.learn (x : Aside) (scope : Ref .scope) : Aside :=
  { x with away := fun r => r = scope ∨ x.away r }

/-- A scope that lies away may be added to those that are known to. -/
theorem Aside.Sound.learn {x : Aside} {h : Heap} {scope : Ref .scope} (hx : x.Sound h)
    (hscope : h.Away x.scope scope) : (x.learn scope).Sound h := by
  refine ⟨hx.scope, fun r hr => ?_, hx.functions⟩
  obtain rfl | hr := hr
  · exact hscope
  · exact hx.away r hr

/-- To know of one more scope that it lies away is to know more of the variable. -/
theorem wider_learn (x : Aside) (scope : Ref .scope) : Wider (some x) (some (x.learn scope)) where
  beside := by
    rintro h h' ⟨hw, hx, hown⟩
    exact ⟨hw, ⟨hx.scope, fun r hr => hx.away r (.inr hr), hx.functions⟩, hown⟩
  avoids := fun h => avoids_some.mpr ((avoids_some.mp h).imp_left .inr)

/-- What is seen of a scope on the heap is known from then on. -/
theorem Heap.Beside.enter {h h' : Heap} (hh : Heap.Beside σ h h') {scope : Ref .scope}
    {P : String → Prop} (hscope : ∀ x ∈ σ, h.Away x.scope scope ∨ P x.name) :
    ∃ σ', Wider σ σ' ∧ Heap.Beside σ' h h' ∧ Avoids σ' scope P := by
  cases σ with
  | none => exact ⟨none, ⟨id, id⟩, hh, fun x hx => by cases hx⟩
  | some x =>
      -- Only a scope that lies away has to be remembered: the name stays the same.
      obtain haway | hname := hscope x rfl
      · exact ⟨some (x.learn scope), wider_learn x scope, ⟨hh.1, hh.2.1.learn haway, hh.2.2⟩,
          avoids_some.mpr (.inl (.inl rfl))⟩
      · exact ⟨some x, ⟨id, id⟩, hh, avoids_some.mpr (.inr hname)⟩

/-- Machines that are the same but for the variable. -/
structure Machine.Beside (σ : Option Aside) (m m' : Machine) : Prop where
  heap : Heap.Beside σ m.heap m'.heap
  stack : m.stack = m'.stack
  world : m.world = m'.world

/-- Without a variable the machines are the same. -/
theorem Machine.Beside.eq {m m' : Machine} (h : m.Beside none m') : m = m' := by
  obtain ⟨heap, stack, world⟩ := m
  obtain ⟨hheap, hstack, hworld⟩ := h
  cases hheap
  cases hstack
  cases hworld
  rfl

/-- The same end, in machines that are beside each other. A value is in `Q`. The left run may have
    ended for want of fuel. -/
inductive Outcome.Beside (σ : Option Aside) (Q : α → Prop) : Outcome ε α → Outcome ε α → Prop
  | ok {a m m'} : Q a → m.Beside σ m' → Outcome.Beside σ Q (.ok a m) (.ok a m')
  | error {e m m'} : m.Beside σ m' → Outcome.Beside σ Q (.error e m) (.error e m')
  | outOfFuel {o} : Outcome.Beside σ Q .outOfFuel o

/-- Without a variable the outcomes are the same, unless the left run is out of fuel. -/
theorem Outcome.Beside.eq {Q : α → Prop} {o o' : Outcome ε α} (h : o.Beside none Q o')
    (ho : o ≠ .outOfFuel) : o' = o := by
  cases h with
  | ok _ hm => rw [hm.eq]
  | error hm => rw [hm.eq]
  | outOfFuel => exact absurd rfl ho

/-- Outcomes that are beside each other for a wider knowledge are so for the narrower one. -/
theorem Outcome.Beside.narrow {σ' : Option Aside} {Q : α → Prop} {o o' : Outcome ε α}
    (h : o.Beside σ' Q o') (hw : Wider σ σ') : o.Beside σ Q o' := by
  cases h with
  | ok ha hm => exact .ok ha ⟨hw.beside hm.heap, hm.stack, hm.world⟩
  | error hm => exact .error ⟨hw.beside hm.heap, hm.stack, hm.world⟩
  | outOfFuel => exact .outOfFuel

namespace Step

/-- From machines that are beside each other, two steps end beside each other. -/
def Beside (σ : Option Aside) (x y : Step ε α) (Q : α → Prop := fun _ => True) : Prop :=
  ∀ m m', m.Beside σ m' → (x m).Beside σ Q (y m')

namespace Beside

variable {x y : Step ε α} {Q : α → Prop} {R : β → Prop}

/-! ## Steps that leave the machine as it is -/

theorem pure {a : α} (ha : Q a) : Beside σ (Pure.pure a : Step ε α) (Pure.pure a) Q :=
  fun _ _ hm => .ok ha hm

theorem done {a : α} : Beside σ (Pure.pure a : Step ε α) (Pure.pure a) := pure trivial

theorem fail {e : ε} : Beside σ (Step.fail e : Step ε α) (Step.fail e) Q := fun _ _ hm => .error hm

theorem failAt {fault : Fault} {token : Token} :
    Beside σ (Step.failAt fault token : Step RuntimeError α) (Step.failAt fault token) Q :=
  fail

theorem exhausted : Beside σ (Step.exhausted : Step ε α) y Q := fun _ _ _ => .outOfFuel

theorem ofExcept {r : Except ε α} (hQ : ∀ a, r = .ok a → Q a) :
    Beside σ (Step.ofExcept r) (Step.ofExcept r) Q := by
  cases r with
  | ok a => exact pure (hQ a rfl)
  | error e => exact fail

/-- What does not depend on the heap. -/
theorem observe {f : Machine → α} (hf : ∀ m heap, f { m with heap } = f m) :
    Beside σ (Step.observe f : Step ε α) (Step.observe f) := by
  intro m m' hm
  have hsame : f m = f m' := by
    rw [← hf m m'.heap, hm.stack, hm.world]
  show Outcome.Beside σ _ (.ok (f m) m) (.ok (f m') m')
  rw [hsame]
  exact .ok trivial hm

theorem outside {f : World → World} :
    Beside σ (Step.outside f : Step ε Unit) (Step.outside f) :=
  fun _ _ hm => .ok trivial ⟨hm.heap, hm.stack, congrArg f hm.world⟩

/-! ## Steps on the heap -/

/-- What is read is the same without the variable, and so it is the same on both heaps. -/
theorem inspect {f : Heap → α} (hf : ∀ x ∈ σ, ∀ h, x.Sound h → f (x.drop h) = f h)
    (hQ : ∀ h, h.Spares σ → Q (f h)) : Beside σ (Step.inspect f : Step ε α) (Step.inspect f) Q := by
  intro m m' hm
  show Outcome.Beside σ Q (.ok (f m.heap) m) (.ok (f m'.heap) m')
  rw [← hm.heap.read hf]
  exact .ok (hQ _ hm.heap.spares) hm

/-- Something is made by an operation that goes past the variable. -/
theorem allocate {p : Heap → α × Heap} (hp : ∀ x ∈ σ, ∀ h, x.Sound h → x.Passes h p)
    (hQ : ∀ h, h.Spares σ → Q (p h).1) :
    Beside σ (Step.allocate p : Step ε α) (Step.allocate p) Q := by
  intro m m' hm
  obtain ⟨hvalue, hheap⟩ := hm.heap.run hp
  show Outcome.Beside σ Q (.ok (p m.heap).1 { m with heap := (p m.heap).2 })
    (.ok (p m'.heap).1 { m' with heap := (p m'.heap).2 })
  rw [← hvalue]
  exact .ok (hQ _ hm.heap.spares) ⟨hheap, hm.stack, hm.world⟩

theorem change {p : Heap → Heap}
    (hp : ∀ x ∈ σ, ∀ h, x.Sound h → x.Passes h fun h => ((), p h)) :
    Beside σ (Step.change p : Step ε Unit) (Step.change p) :=
  fun _ _ hm => .ok trivial ⟨(hm.heap.run hp).2, hm.stack, hm.world⟩

/-- An attempt succeeds on both heaps or fails on both, and leaves them beside each other in either
    case. -/
theorem attempt {p : Heap → Except ε α × Heap}
    (hp : ∀ x ∈ σ, ∀ h, x.Sound h → x.Passes h p) :
    Beside σ (Step.attempt p) (Step.attempt p) := by
  intro m m' hm
  obtain ⟨hresult, hheap⟩ := hm.heap.run hp
  unfold Step.attempt
  cases hr : p m.heap with
  | mk result heap =>
      cases hr' : p m'.heap with
      | mk result' heap' =>
          rw [hr, hr'] at hresult hheap
          obtain rfl : result = result' := hresult
          cases result with
          | ok a => simpa only [hr, hr'] using .ok trivial ⟨hheap, hm.stack, hm.world⟩
          | error e => simpa only [hr, hr'] using .error ⟨hheap, hm.stack, hm.world⟩

/-! ## Steps made of others -/

/-- What follows two steps that end beside each other, on the machines in which they end. -/
theorem bind_ends {f g : α → Step ε β} {m m' : Machine} (hends : (x m).Beside σ Q (y m'))
    (hf : ∀ a n n', x m = .ok a n → y m' = .ok a n' → Q a → n.Beside σ n' →
      (f a n).Beside σ R (g a n')) : ((x >>= f) m).Beside σ R ((y >>= g) m') := by
  rw [bind_apply, bind_apply]
  generalize x m = o, y m' = o' at hends hf ⊢
  cases hends with
  | ok ha hm => exact hf _ _ _ rfl rfl ha hm
  | error hm => exact .error hm
  | outOfFuel => exact .outOfFuel

/-- What follows two steps that end beside each other, wherever they began. -/
theorem bind_at {f g : α → Step ε β} {m m' : Machine} (hends : (x m).Beside σ Q (y m'))
    (hf : ∀ a, Q a → Beside σ (f a) (g a) R) : ((x >>= f) m).Beside σ R ((y >>= g) m') :=
  bind_ends hends fun a n n' _ _ ha hn => hf a ha n n' hn

theorem bind {f g : α → Step ε β} (hx : Beside σ x y Q) (hf : ∀ a, Q a → Beside σ (f a) (g a) R) :
    Beside σ (x >>= f) (y >>= g) R := fun m m' hm => bind_at (hx m m' hm) hf

/-- Makes something and goes on with what is known of a scope then. -/
theorem allocate_bind {p : Heap → α × Heap} {f g : α → Step ε β} {s : α → Ref .scope}
    {P : α → String → Prop} (hp : ∀ x ∈ σ, ∀ h, x.Sound h → x.Passes h p)
    (hQ : ∀ h, h.Spares σ → Q (p h).1)
    (hscope : ∀ x ∈ σ, ∀ h, x.Sound h →
      (p h).2.Away x.scope (s (p h).1) ∨ P (p h).1 x.name)
    (hf : ∀ σ' a, Wider σ σ' → Q a → Avoids σ' (s a) (P a) → Beside σ' (f a) (g a) R) :
    Beside σ (Step.allocate p >>= f) (Step.allocate p >>= g) R := by
  intro m m' hm
  obtain ⟨hvalue, hheap⟩ := hm.heap.run hp
  obtain ⟨σ', hw, hheap', hknown⟩ :=
    hheap.enter fun x hx => hscope x hx m.heap (hm.heap.spares x hx)
  show Outcome.Beside σ R (f (p m.heap).1 { m with heap := (p m.heap).2 })
    (g (p m'.heap).1 { m' with heap := (p m'.heap).2 })
  rw [← hvalue]
  exact (hf σ' _ hw (hQ _ hm.heap.spares) hknown { m with heap := (p m.heap).2 }
    { m' with heap := (p m'.heap).2 } ⟨hheap', hm.stack, hm.world⟩).narrow hw

theorem ite {b : Bool} {x' y' : Step ε α} (h : Beside σ x y Q) (h' : Beside σ x' y' Q) :
    Beside σ (if b then x else x') (if b then y else y') Q := by
  cases b with
  | true => exact h
  | false => exact h'

/-- Errors are the same, and so are their translations. -/
theorem mapError {f : ε → δ} (hx : Beside σ x y Q) : Beside σ (x.mapError f) (y.mapError f) Q := by
  intro m m' hm
  have hends := hx m m' hm
  unfold Step.mapError
  generalize x m = o, y m' = o' at hends ⊢
  cases hends with
  | ok ha hm => exact .ok ha hm
  | error hm => exact .error hm
  | outOfFuel => exact .outOfFuel

theorem blame {x y : Step Fault α} (token : Token) (hx : Beside σ x y Q) :
    Beside σ (x.blame token) (y.blame token) Q := hx.mapError

/-- The same error is handled on both sides, or on neither. -/
theorem rescue {handled : ε → Bool} {f g : ε → Step ε α} (hx : Beside σ x y Q)
    (hf : ∀ e, Beside σ (f e) (g e) Q) : Beside σ (x.rescue handled f) (y.rescue handled g) Q := by
  intro m m' hm
  have hends := hx m m' hm
  unfold Step.rescue
  generalize x m = o, y m' = o' at hends ⊢
  cases hends with
  | ok ha hm => exact .ok ha hm
  | @error e m m' hm =>
      dsimp only
      split
      · exact hf e m m' hm
      · exact .error hm
  | outOfFuel => exact .outOfFuel

/-- The loop is counted on call stacks that are the same. -/
theorem inLoop (hx : Beside σ x y Q) : Beside σ x.inLoop y.inLoop Q := by
  intro m m' hm
  have hends := hx { m with stack := m.stack.enterLoop } { m' with stack := m'.stack.enterLoop }
    ⟨hm.heap, congrArg CallStack.enterLoop hm.stack, hm.world⟩
  unfold Step.inLoop
  generalize x _ = o, y _ = o' at hends ⊢
  cases hends with
  | ok ha hm => exact .ok ha ⟨hm.heap, congrArg CallStack.leaveLoop hm.stack, hm.world⟩
  | error hm => exact .error ⟨hm.heap, congrArg CallStack.leaveLoop hm.stack, hm.world⟩
  | outOfFuel => exact .outOfFuel

/-- Leaving a function looks at the call stack, which is the same on both sides. -/
theorem left {name : String} {token : Token} {m m' : Machine} (hm : m.Beside σ m')
    {ending ending' : Machine → Outcome RuntimeError α}
    (hends : ∀ m m', m.Beside σ m' → (ending m).Beside σ Q (ending' m')) :
    (inFunction.left name token m ending).Beside σ Q (inFunction.left name token m' ending') := by
  unfold inFunction.left
  rw [hm.stack]
  cases m'.stack.leave name with
  | ok stack => exact hends _ _ ⟨hm.heap, rfl, hm.world⟩
  | error fault => exact .error hm

/-- A function is entered and left on both sides, since the stacks are the same. -/
theorem inFunction {x y : Step RuntimeError α} {name : String} (token : Token)
    (hx : Beside σ x y Q) : Beside σ (x.inFunction name token) (y.inFunction name token) Q := by
  intro m m' hm
  have hends := hx { m with stack := m.stack.enter name } { m' with stack := m'.stack.enter name }
    ⟨hm.heap, congrArg (CallStack.enter · name) hm.stack, hm.world⟩
  unfold Step.inFunction
  generalize x _ = o, y _ = o' at hends ⊢
  cases hends with
  | ok ha hm => exact left hm fun _ _ => .ok ha
  | error hm => exact left hm fun _ _ => .error
  | outOfFuel => exact .outOfFuel

theorem apart (hx : Beside σ x y Q) : Beside σ x.apart y.apart Q := by
  intro m m' hm
  have hends := hx { m with stack := .root } { m' with stack := .root } ⟨hm.heap, rfl, hm.world⟩
  unfold Step.apart
  generalize x _ = o, y _ = o' at hends ⊢
  cases hends with
  | ok ha hm' => exact .ok ha ⟨hm'.heap, hm.stack, hm'.world⟩
  | error hm' => exact .error ⟨hm'.heap, hm.stack, hm'.world⟩
  | outOfFuel => exact .outOfFuel

end Beside

end Step

end Script
