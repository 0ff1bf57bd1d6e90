import Script.Eval
import Script.Proofs.Builtins
import Script.Proofs.Heap.Functions
import Script.Proofs.Tree.Nodes

/-!
# `Proofs.Evaluation.Tracks` — one run at the heels of another

`Step.Tracks` speaks about two steps, of which the left one may stop before the right one does. From
every machine the left step does what the right one does, unless it runs out of fuel or *gives up*.
Up to there nothing but printed lines is added to the log, and the call stack is left as it was.

The relation has two readings. With `capped := False` nothing can give up, and for two equal steps
it says what comes out of a step. With `capped := True` the left step may have a lower ceiling on
calls than the right one, and to give up is to fail there. Then the failure must not be caught on
the way, so there is no `try` in the text, neither in what is evaluated nor in the functions on the
heap.

There is one rule for each step of `Script.Machine`, so a proof about the evaluator follows its
text.
-/

namespace Script

variable {ε δ α β : Type} {capped : Prop}

/-! ## Text without `try` -/

/-- Whether a node is a `try` statement. -/
def Node.isTry : Node → Bool
  | .stmt (.tryCatch _ _ _) => true
  | _ => false

/-- If the run is capped, none of the nodes is a `try` statement. -/
def Tryless (capped : Prop) (ns : List Node) : Prop := ∀ n ∈ ns, capped → n.isTry = false

/-- A heap for a run that may be capped: its functions have no `try` in their text, and an operator
    on a host object never comes to the call of a builtin. -/
structure Heap.Tame (capped : Prop) (h : Heap) : Prop where
  text : h.Functions fun d => Tryless capped d.nodes
  operators : ∀ r o, h.hosts.get? r = some o → o.operators = []

namespace Heap.Tame

variable {h h' : Heap}

/-- Whether a heap is tame depends on its functions and on its host objects alone. -/
theorem of_same (hh : h.Tame capped) (hfunctions : h'.functions = h.functions)
    (hhosts : h'.hosts = h.hosts) : h'.Tame capped where
  text := hh.text.of_eq hfunctions
  operators r o ho := by
    rw [hhosts] at ho
    exact hh.operators r o ho

theorem empty : Heap.empty.Tame capped :=
  ⟨functions_empty, fun r o ho => by simp [Heap.empty, Store.empty, Store.get?] at ho⟩

theorem newScope (hh : h.Tame capped) (parent : Option (Ref .scope)) :
    (h.newScope parent).2.Tame capped := hh.of_same rfl rfl

theorem newBuiltin (hh : h.Tame capped) (b : Builtin) : (h.newBuiltin b).2.Tame capped :=
  hh.of_same rfl rfl

/-- A host object without operators adds none that could come to a builtin. -/
theorem newHost (hh : h.Tame capped) {o : HostObject} (ho : o.operators = []) :
    (h.newHost o).2.Tame capped where
  text := hh.text.of_eq rfl
  operators r o' ho' := by
    obtain hold | ⟨-, rfl⟩ := Store.get?_push_cases ho'
    · exact hh.operators r o' hold
    · exact ho

theorem assign (hh : h.Tame capped) (s : Ref .scope) (name : String) (v : Value) :
    (h.assign s name v).2.Tame capped :=
  hh.of_same (Heap.assign_functions ..) (by rw [Heap.assign_frame])

theorem setElement (hh : h.Tame capped) (r : Ref .list) (position : Nat) (v : Value) :
    (h.setElement r position v).2.Tame capped :=
  hh.of_same (Heap.setElement_functions ..) (by rw [Heap.setElement_frame])

theorem insertEntry (hh : h.Tame capped) (r : Ref .dict) (k v : Value) :
    (h.insertEntry r k v).2.Tame capped :=
  hh.of_same (Heap.insertEntry_functions ..) (by rw [Heap.insertEntry_frame])

/-- Setting a member of a host object leaves its operators. -/
theorem setMember (hh : h.Tame capped) (r : Ref .host) (name : String) (v : Value) :
    (h.setMember r name v).2.Tame capped := by
  unfold Heap.setMember
  split
  · refine ⟨hh.text.of_eq rfl, fun r' o ho => ?_⟩
    by_cases hr : r' = r
    · subst hr
      simp only [Store.get?_modify_self, Option.map_eq_some_iff] at ho
      obtain ⟨o', ho', rfl⟩ := ho
      exact hh.operators r' o' ho'
    · simp only [Store.get?_modify_ne hr] at ho
      exact hh.operators r' o ho
  · exact hh

/-- The one way to make a heap less tame is a function with `try` in its text. -/
theorem newFunction (hh : h.Tame capped) {f : Function}
    (hf : Tryless capped f.declaration.nodes) : (h.newFunction f).2.Tame capped :=
  ⟨hh.text.newFunction hf, hh.operators⟩

theorem boundMethod (hh : h.Tame capped) {f : Function} (hf : Tryless capped f.declaration.nodes)
    (r : Ref .inst) : (h.boundMethod f r).2.Tame capped :=
  ⟨hh.text.boundMethod hf r, hh.operators⟩

theorem declareAll (hh : h.Tame capped) (s : Ref .scope) (bindings : List (String × Value)) :
    (h.declareAll s bindings).Tame capped := by
  induction bindings generalizing h with
  | nil => exact hh
  | cons b rest ih => exact ih (hh.of_same rfl rfl)

/-- A group has builtins for its members, and no operators. -/
theorem newGroup (hh : h.Tame capped) (members : List (String × Builtin)) :
    (h.newGroup members).2.Tame capped := by
  have hfold : ∀ (members : List (String × Builtin)) (table : Bindings Value) (h : Heap),
      h.Tame capped →
      (members.foldl (fun (acc : Bindings Value × Heap) (entry : String × Builtin) =>
        (acc.1.set entry.1 (Value.builtin (acc.2.newBuiltin entry.2).1),
          (acc.2.newBuiltin entry.2).2)) (table, h)).2.Tame capped := by
    intro members
    induction members with
    | nil => exact fun _ _ hh => hh
    | cons entry rest ih => exact fun _ _ hh => ih _ _ (hh.of_same rfl rfl)
  exact (hfold members Bindings.empty h hh).newHost rfl

/-- What a program starts with are builtins in groups, none of which have operators. -/
theorem newProgramScope (hh : h.Tame capped) (script : Option String) :
    (h.newProgramScope script).2.Tame capped := by
  have hgroups := ((hh.newGroup Builtin.ioMembers).newGroup Builtin.stringsMembers).newGroup
    Builtin.envMembers
  have hbuiltins := (hgroups.newBuiltin .typeOf).newBuiltin (.importModule script)
  have hglobals : (h.newGlobals script).2.Tame capped := (hbuiltins.newScope none).declareAll _ _
  exact hglobals.newScope _

end Heap.Tame

/-! ## Operators -/

/-- What an operator may come to: a method without `try` in its text, and no builtin. -/
def Applied.Tame (capped : Prop) : Applied → Prop
  | .method f _ _ => Tryless capped f.declaration.nodes
  | .hosted _ _ => False
  | _ => True

namespace Heap.Tame

variable {h : Heap} {a : Applied}

/-- A host object has no operators, so none of them comes to a builtin. -/
theorem hostOperator?_eq_none (hh : h.Tame capped) (r : Ref .host) (op : Operator) :
    h.hostOperator? r op = none := by
  unfold Heap.hostOperator?
  cases hr : h.hosts.get? r with
  | none => rfl
  | some o => simp [hh.operators r o hr]

/-- What an operator can come to: a value, something new, or a method of the heap, which has no
    `try`. By `ComesTo` there are no other cases. -/
theorem comesTo (hh : h.Tame capped) {op : Operator} {l : Value} {rs : List Value}
    (ha : h.ComesTo op l rs a) : a.Tame capped := by
  cases ha with
  | method hf => exact hh.text.instanceMethod? hf
  | hosted hf =>
      rw [hh.hostOperator?_eq_none] at hf
      cases hf
  | _ => trivial

/-- What is called, if anything is, is a function. -/
theorem carryOut (hh : h.Tame capped) (ha : a.Tame capped) :
    (h.carryOut a).2.Tame capped
      ∧ ∀ callee arguments, (h.carryOut a).1 = .call callee arguments →
        ∃ r, callee = .function r := by
  cases a with
  | hosted f arguments => exact ha.elim
  | method f receiver arguments =>
      refine ⟨hh.boundMethod ha receiver, ?_⟩
      rintro _ _ ⟨⟩
      exact ⟨_, rfl⟩
  | value v => exact ⟨hh, by simp [Heap.carryOut]⟩
  | newList elements => exact ⟨hh.of_same rfl rfl, by simp [Heap.carryOut]⟩
  | newDict dict => exact ⟨hh.of_same rfl rfl, by simp [Heap.carryOut]⟩

end Heap.Tame

/-! ## Outcomes -/

/-- Whether an error is to give up: the run is capped, and the ceiling on calls was met. -/
def RuntimeError.GivesUp (capped : Prop) (e : RuntimeError) : Prop :=
  capped ∧ e.fault = .maxRecursion

/-- How a machine goes on: the call stack is left as it was, the heap is tame, and lines were
    printed at most. -/
structure Machine.Goes (capped : Prop) (m m' : Machine) : Prop where
  stack : m'.stack = m.stack
  tame : m'.heap.Tame capped
  world : m.world.Onward m'.world

theorem Machine.Goes.refl {m : Machine} (hm : m.heap.Tame capped) : m.Goes capped m :=
  ⟨rfl, hm, .refl _⟩

/-- What goes on twice goes on: the log is longer by both parts. -/
theorem Machine.Goes.trans {m m' m'' : Machine} (h : m.Goes capped m') (h' : m'.Goes capped m'') :
    m.Goes capped m'' :=
  ⟨h'.stack.trans h.stack, h'.tame, h.world.trans h'.world⟩

/-- The left outcome is that of the right, unless it is no outcome or an error in `G`. A value is in
    `Q`. -/
def Outcome.Tracks (capped : Prop) (G : ε → Prop) (Q : α → Prop) (m : Machine) :
    Outcome ε α → Outcome ε α → Prop
  | .ok a m', right => right = .ok a m' ∧ m.Goes capped m' ∧ Q a
  | .error e m', right => (right = .error e m' ∨ G e) ∧ m.Goes capped m'
  | .outOfFuel, _ => True

namespace Outcome.Tracks

variable {G : ε → Prop} {Q : α → Prop} {m m' : Machine} {left right : Outcome ε α}

/-- What comes of a later machine comes of an earlier one. -/
theorem after (h : left.Tracks capped G Q m' right) (hm : m.Goes capped m') :
    left.Tracks capped G Q m right := by
  cases left with
  | ok a m'' => exact ⟨h.1, hm.trans h.2.1, h.2.2⟩
  | error e m'' => exact ⟨h.1, hm.trans h.2⟩
  | outOfFuel => trivial

end Outcome.Tracks

namespace Step

/-- From every machine with a tame heap, the left step tracks the right one. -/
def Tracks (capped : Prop) (G : ε → Prop) (x y : Step ε α) (Q : α → Prop) : Prop :=
  ∀ m, m.heap.Tame capped → (x m).Tracks capped G Q m (y m)

namespace Tracks

variable {G : ε → Prop} {x y : Step ε α} {Q : α → Prop} {R : β → Prop}

/-! ## Steps that change nothing -/

theorem pure {a : α} (ha : Q a) : Tracks capped G (Pure.pure a : Step ε α) (Pure.pure a) Q :=
  fun _ hm => ⟨rfl, .refl hm, ha⟩

theorem fail {e : ε} : Tracks capped G (Step.fail e : Step ε α) (Step.fail e) Q :=
  fun _ hm => ⟨.inl rfl, .refl hm⟩

theorem failAt {G : RuntimeError → Prop} {fault : Fault} {token : Token} :
    Tracks capped G (Step.failAt fault token : Step RuntimeError α) (Step.failAt fault token) Q :=
  fail

/-- The left step gives up. -/
theorem giveUp {e : ε} (he : G e) : Tracks capped G (Step.fail e : Step ε α) y Q :=
  fun _ hm => ⟨.inr he, .refl hm⟩

/-- The left step is out of fuel. -/
theorem exhausted : Tracks capped G (Step.exhausted : Step ε α) y Q := fun _ _ => trivial

/-- A result is handed on, or its error is, on both sides. -/
theorem ofExcept {r : Except ε α} (hok : ∀ a, r = .ok a → Q a) :
    Tracks capped G (Step.ofExcept r) (Step.ofExcept r) Q := by
  cases r with
  | ok a => exact pure (hok a rfl)
  | error e => exact fail

theorem observe {f : Machine → α} (hf : ∀ m, m.heap.Tame capped → Q (f m)) :
    Tracks capped G (Step.observe f : Step ε α) (Step.observe f) Q :=
  fun m hm => ⟨rfl, .refl hm, hf m hm⟩

theorem inspect {f : Heap → α} (hf : ∀ h, h.Tame capped → Q (f h)) :
    Tracks capped G (Step.inspect f : Step ε α) (Step.inspect f) Q :=
  fun m hm => ⟨rfl, .refl hm, hf m.heap hm⟩

/-! ## Steps on the heap and on the world -/

theorem allocate {f : Heap → α × Heap} (hf : ∀ h, h.Tame capped → (f h).2.Tame capped ∧ Q (f h).1) :
    Tracks capped G (Step.allocate f : Step ε α) (Step.allocate f) Q :=
  fun m hm => ⟨rfl, ⟨rfl, (hf m.heap hm).1, .refl _⟩, (hf m.heap hm).2⟩

theorem change {f : Heap → Heap} {Q : Unit → Prop} (hf : ∀ h, h.Tame capped → (f h).Tame capped)
    (hQ : Q ()) : Tracks capped G (Step.change f : Step ε Unit) (Step.change f) Q :=
  fun m hm => ⟨rfl, ⟨rfl, hf m.heap hm, .refl _⟩, hQ⟩

/-- The operation is the same on both sides, so both succeed or both fail, on a heap that is tame in
    either case. -/
theorem attempt {f : Heap → Except ε α × Heap} (hf : ∀ h, h.Tame capped → (f h).2.Tame capped)
    (hQ : ∀ a, Q a) : Tracks capped G (Step.attempt f) (Step.attempt f) Q := by
  intro m hm
  have hheap := hf m.heap hm
  unfold Step.attempt
  cases hr : f m.heap with
  | mk result heap =>
      rw [hr] at hheap
      cases result with
      | ok a => simpa only [hr] using ⟨rfl, ⟨rfl, hheap, .refl _⟩, hQ a⟩
      | error e => simpa only [hr] using ⟨.inl rfl, rfl, hheap, .refl _⟩

theorem outside {f : World → World} {Q : Unit → Prop} (hf : ∀ w : World, w.Onward (f w))
    (hQ : Q ()) :
    Tracks capped G (Step.outside f : Step ε Unit) (Step.outside f) Q :=
  fun m hm => ⟨rfl, ⟨rfl, hm, hf m.world⟩, hQ⟩

/-! ## Steps made of others -/

/-- Sequences: if the left step gives up or runs out of fuel, the rest of the left run is not there
    to compare; otherwise both go on from the same machine. -/
theorem bind {f g : α → Step ε β} (hx : Tracks capped G x y Q)
    (hf : ∀ a, Q a → Tracks capped G (f a) (g a) R) : Tracks capped G (x >>= f) (y >>= g) R := by
  intro m hm
  have hfirst := hx m hm
  cases hxm : x m with
  | ok a m' =>
      rw [hxm] at hfirst
      obtain ⟨hy, hgoes, ha⟩ := hfirst
      rw [bind_of_ok hxm, bind_of_ok hy]
      exact (hf a ha m' hgoes.tame).after hgoes
  | error e m' =>
      rw [hxm] at hfirst
      rw [bind_of_error hxm]
      refine ⟨hfirst.1.imp_left fun hy => ?_, hfirst.2⟩
      rw [bind_of_error hy]
  | outOfFuel =>
      rw [bind_apply, hxm]
      trivial

/-- What is read from the heap, where it matters what that is. -/
theorem inspect_at {f : Heap → α} {a : α} {g g' : α → Step ε β} {m : Machine}
    (ha : f m.heap = a) (hg : (g a m).Tracks capped G R m (g' a m)) :
    ((Step.inspect f >>= g) m).Tracks capped G R m ((Step.inspect f >>= g') m) := by
  subst ha
  exact hg

theorem ite {b : Bool} {x' y' : Step ε α} (h : Tracks capped G x y Q)
    (h' : Tracks capped G x' y' Q) :
    Tracks capped G (if b then x else x') (if b then y else y') Q := by
  cases b with
  | true => exact h
  | false => exact h'

/-- Errors are translated on both sides alike. To give up must still be to give up. -/
theorem mapError {f : ε → δ} {G' : δ → Prop} (hx : Tracks capped G x y Q)
    (hf : ∀ e, G e → G' (f e)) : Tracks capped G' (x.mapError f) (y.mapError f) Q := by
  intro m hm
  have hfirst := hx m hm
  unfold Step.mapError
  cases hxm : x m with
  | ok a m' =>
      rw [hxm] at hfirst
      simpa only [hfirst.1] using ⟨rfl, hfirst.2⟩
  | error e m' =>
      rw [hxm] at hfirst
      refine ⟨hfirst.1.imp (fun hy => ?_) (hf e), hfirst.2⟩
      simp only [hy]
  | outOfFuel => trivial

/-- A fault is no reason to give up. -/
theorem blame {x y : Step Fault α} {G : RuntimeError → Prop} (token : Token)
    (hx : Tracks capped (fun _ => False) x y Q) :
    Tracks capped G (x.blame token) (y.blame token) Q :=
  hx.mapError fun _ he => he.elim

/-- Only what does not give up may be handled. -/
theorem rescue {handled : ε → Bool} {f g : ε → Step ε α} (hG : ∀ e, ¬ G e)
    (hx : Tracks capped G x y Q) (hf : ∀ e, Tracks capped G (f e) (g e) Q) :
    Tracks capped G (x.rescue handled f) (y.rescue handled g) Q := by
  intro m hm
  have hfirst := hx m hm
  unfold Step.rescue
  cases hxm : x m with
  | ok a m' =>
      rw [hxm] at hfirst
      simpa only [hfirst.1] using ⟨rfl, hfirst.2⟩
  | error e m' =>
      rw [hxm] at hfirst
      obtain ⟨hy, hgoes⟩ := hfirst
      rw [hy.resolve_right (hG e)]
      cases hh : handled e with
      | true =>
          simp only [hh, if_true]
          exact (hf e m' hgoes.tame).after hgoes
      | false =>
          simp only [hh]
          exact ⟨.inl rfl, hgoes⟩
  | outOfFuel => trivial

/-- A loop that was entered is left, however the step ends. -/
theorem inLoop (hx : Tracks capped G x y Q) : Tracks capped G x.inLoop y.inLoop Q := by
  intro m hm
  have hinside := hx { m with stack := m.stack.enterLoop } hm
  unfold Step.inLoop
  cases hxm : x { m with stack := m.stack.enterLoop } with
  | ok a m' =>
      rw [hxm] at hinside
      obtain ⟨hy, hgoes, ha⟩ := hinside
      rw [hy]
      exact ⟨rfl, ⟨by simp [hgoes.stack], hgoes.tame, hgoes.world⟩, ha⟩
  | error e m' =>
      rw [hxm] at hinside
      obtain ⟨hy, hgoes⟩ := hinside
      refine ⟨hy.imp_left fun hy => ?_, by simp [hgoes.stack], hgoes.tame, hgoes.world⟩
      rw [hy]
  | outOfFuel => trivial

/-- A function is left on the call stack on which it was entered, so leaving it never fails and an
    error goes through as it is. -/
theorem inFunction {x y : Step RuntimeError α} {G : RuntimeError → Prop} {name : String}
    (token : Token) (hx : Tracks capped G x y Q) :
    Tracks capped G (x.inFunction name token) (y.inFunction name token) Q := by
  intro m hm
  have hinside := hx { m with stack := m.stack.enter name } hm
  unfold Step.inFunction
  cases hxm : x { m with stack := m.stack.enter name } with
  | ok a m' =>
      rw [hxm] at hinside
      obtain ⟨hy, hgoes, ha⟩ := hinside
      rw [hy]
      simp only [Step.inFunction.left, hgoes.stack, CallStack.leave_enter]
      exact ⟨rfl, ⟨rfl, hgoes.tame, hgoes.world⟩, ha⟩
  | error e m' =>
      rw [hxm] at hinside
      obtain ⟨hy, hgoes⟩ := hinside
      simp only [Step.inFunction.left, hgoes.stack, CallStack.leave_enter]
      refine ⟨hy.imp_left fun hy => ?_, rfl, hgoes.tame, hgoes.world⟩
      rw [hy]
      simp only [hgoes.stack, CallStack.leave_enter]
  | outOfFuel => trivial

/-- A step with a call stack of its own. What it leaves of its stack is dropped on both sides. -/
theorem apart (hx : Tracks capped G x y Q) : Tracks capped G x.apart y.apart Q := by
  intro m hm
  have hinside := hx { m with stack := .root } hm
  unfold Step.apart
  cases hxm : x { m with stack := .root } with
  | ok a m' =>
      rw [hxm] at hinside
      obtain ⟨hy, hgoes, ha⟩ := hinside
      simp only [hy]
      exact ⟨rfl, ⟨rfl, hgoes.tame, hgoes.world⟩, ha⟩
  | error e m' =>
      rw [hxm] at hinside
      obtain ⟨hy, hgoes⟩ := hinside
      refine ⟨hy.imp_left fun hy => ?_, rfl, hgoes.tame, hgoes.world⟩
      simp only [hy]
  | outOfFuel => trivial

end Tracks

end Step

end Script
