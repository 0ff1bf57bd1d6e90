import Script.Eval.Builtins
import Script.Heap.Operators
import Script.Proofs.Tree.Grouping

/-!
# `Proofs.Evaluation.Alike` — steps that differ in lines and groupings only

Two machines are alike (`Machine.Alike`) if they are the same once the functions on their heaps are
stripped of the lines of their tokens and of groupings. Two steps are *alike* (`Step.Alike`) if from
machines that are alike they end in the same way, in machines that are alike again: with the same
value, or with errors that are the same but for their line. Some steps give functions, and some have
errors of another kind, so the rules are stated for what two functions tell of the errors and of
the values (`Step.AlikeBy`). There is one rule for each primitive step.

The relation is symmetric and transitive. It is not reflexive: a step that looked at a line would
not be alike to itself.
-/

namespace Script

/-! ## What is left of functions -/

@[simp] theorem Token.lexeme_unlined (t : Token) : t.unlined.lexeme = t.lexeme := rfl

@[simp] theorem Token.kind_unlined (t : Token) : t.unlined.kind = t.kind := rfl

/-- Lines and groupings that are gone cannot be taken away again, so a stripped function is its own
    representative. -/
@[simp] theorem FunctionDecl.erased_erased (d : FunctionDecl) : d.erased.erased = d.erased :=
  FunctionDecl.map_map (fun e => by cases e <;> rfl) d

@[simp] theorem FunctionDecl.title_erased (d : FunctionDecl) : d.erased.title = d.title := by
  obtain ⟨name, parameters, body⟩ := d
  cases name <;> rfl

@[simp] theorem FunctionDecl.arity_erased (d : FunctionDecl) :
    d.erased.parameters.length = d.parameters.length := by
  obtain ⟨name, parameters, body⟩ := d
  exact List.length_map _

@[simp] theorem FunctionDecl.body_erased (d : FunctionDecl) : d.erased.body = d.body.erased := by
  obtain ⟨name, parameters, body⟩ := d
  rfl

/-- The names of the parameters stay, so that a call binds the same names. -/
@[simp] theorem FunctionDecl.lexemes_erased (d : FunctionDecl) :
    d.erased.parameters.map (·.lexeme) = d.parameters.map (·.lexeme) := by
  obtain ⟨name, parameters, body⟩ := d
  exact List.map_map

/-- The function on a heap without lines and groupings. -/
def Function.erased (f : Function) : Function := { f with declaration := f.declaration.erased }

@[simp] theorem Function.erased_erased (f : Function) : f.erased.erased = f.erased := by
  simp [Function.erased]

/-- What an operator comes to, without lines and groupings. -/
def Applied.erased : Applied → Applied
  | .method f receiver arguments => .method f.erased receiver arguments
  | applied => applied

@[simp] theorem Applied.erased_erased (applied : Applied) :
    applied.erased.erased = applied.erased := by
  cases applied with
  | method f receiver arguments => simp only [erased, Function.erased_erased]
  | _ => rfl

/-! ## What is left of heaps -/

/-- The store with a function applied to every cell. -/
def Store.map {kind : CellKind} {α β : Type} (g : α → β) (s : Store kind α) : Store kind β :=
  ⟨s.cells.map g⟩

namespace Store

variable {kind : CellKind} {α β : Type} (g : α → β) (s : Store kind α)

@[simp] theorem next_map : (s.map g).next = s.next := by simp [Store.map, next]

@[simp] theorem get?_map (r : Ref kind) : (s.map g).get? r = (s.get? r).map g := by
  simp [Store.map, get?]

theorem push_map (a : α) : (s.map g).push (g a) = (s.push a).map g := by
  simp [Store.map, push]

end Store

namespace Heap

/-- The heap with its functions stripped of lines and groupings. -/
def erased (h : Heap) : Heap := { h with functions := h.functions.map Function.erased }

variable (h : Heap)

/-- A function may be made of a stripped declaration on a stripped heap: the cell is the same, since
    cells are numbered one after the other. -/
theorem newFunction_erased (f : Function) :
    h.erased.newFunction f.erased = Prod.map id erased (h.newFunction f) := by
  simp [newFunction, erased, Store.push_map]

/-- Looking up a method goes by names and superclasses only, none of which are stripped. -/
theorem method?_erased (c : Ref .cls) (name : String) :
    h.erased.method? c name = (h.method? c name).map Function.erased := by
  simp only [method?, erased]
  cases h.classes.method? c name with
  | none => rfl
  | some r => exact h.functions.get?_map _ r

theorem instanceMethod?_erased (r : Ref .inst) (name : String) :
    h.erased.instanceMethod? r name = (h.instanceMethod? r name).map Function.erased := by
  unfold instanceMethod?
  cases hinst : h.instances.get? r with
  | none => simp [erased, hinst]
  | some i => simpa [erased, hinst] using h.method?_erased i.cls name

/-- A bound method is a new function with the text of the method, in a new scope that binds `this`.
    The scope is the same on both heaps. -/
theorem boundMethod_erased (f : Function) (r : Ref .inst) :
    h.erased.boundMethod f.erased r = Prod.map id erased (h.boundMethod f r) := by
  unfold boundMethod
  have hbound : h.erased.bind f.erased r = Prod.map Function.erased erased (h.bind f r) := rfl
  simp only [hbound, Prod.map, newFunction_erased]
  rfl

/-- Which method answers for an operator is decided by its name; what is found is the stripped
    method. -/
theorem overloaded_erased (op : Operator) (r : Ref .inst) (arguments : List Value) :
    h.erased.overloaded op r arguments = (h.overloaded op r arguments).map Applied.erased := by
  unfold overloaded
  rw [instanceMethod?_erased]
  cases h.instanceMethod? r op.method with
  | none => rfl
  | some f => rfl

theorem map_value_erased (r : Except Fault Value) :
    (r.map Applied.value).map Applied.erased = r.map .value := by
  cases r <;> rfl

theorem onLists_erased (op : Operator) (a b : Ref .list) :
    h.erased.onLists a b op = (h.onLists a b op).map Applied.erased := by
  cases op <;> rfl

theorem onDicts_erased (op : Operator) (a b : Ref .dict) :
    h.erased.onDicts a b op = (h.onDicts a b op).map Applied.erased := by
  cases op <;> rfl

theorem hostOverloaded_erased (op : Operator) (r : Ref .host) (arguments : List Value) :
    h.erased.hostOverloaded op r arguments
      = (h.hostOverloaded op r arguments).map Applied.erased := by
  unfold hostOverloaded
  cases hfound : h.hostOperator? r op with
  | none => rw [show h.erased.hostOperator? r op = none from hfound]; rfl
  | some f => rw [show h.erased.hostOperator? r op = some f from hfound]; rfl

/-- Texts of functions matter to a binary operator only where a method answers for it. Each kind of
    operands goes through its own table. -/
theorem binary_erased (op : Operator) (a b : Value) :
    h.erased.binary op a b = (h.binary op a b).map Applied.erased := by
  -- What is left of a heap has the same values in it, so the cases are the same on both sides.
  unfold binary
  split
  · exact (map_value_erased _).symm
  · exact (map_value_erased _).symm
  · exact (map_value_erased _).symm
  · exact (map_value_erased _).symm
  · rfl
  · split
    · rfl
    · split
      · exact (map_value_erased _).symm
      · rfl
  · split
    · rfl
    · split
      · exact h.onLists_erased op _ _
      · rfl
  · split
    · rfl
    · split
      · exact h.onDicts_erased op _ _
      · rfl
  · exact h.overloaded_erased op _ _
  · exact h.hostOverloaded_erased op _ _
  · rfl

/-- The same for a unary operator, where only the operand can answer. -/
theorem unary_erased (op : Operator) (v : Value) :
    h.erased.unary op v = (h.unary op v).map Applied.erased := by
  unfold unary
  split
  · rfl
  · rfl
  · exact h.overloaded_erased _ _ _
  · exact h.hostOverloaded_erased _ _ _
  · rfl

/-- To carry out what an operator came to makes at most a list, a dictionary or a bound method. -/
theorem carryOut_erased (applied : Applied) :
    h.erased.carryOut applied.erased = Prod.map id erased (h.carryOut applied) := by
  cases applied with
  | method f receiver arguments =>
      simp only [Applied.erased, carryOut, boundMethod_erased]
      rfl
  | _ => rfl

theorem declareAll_erased (s : Ref .scope) (names : List (String × Value)) :
    h.erased.declareAll s names = (h.declareAll s names).erased := by
  induction names generalizing h with
  | nil => rfl
  | cons p rest ih => exact ih (h.declare s p.1 p.2)

theorem newScope_erased (parent : Option (Ref .scope)) :
    h.erased.newScope parent = Prod.map id erased (h.newScope parent) :=
  rfl

theorem newBuiltin_erased (builtin : Builtin) :
    h.erased.newBuiltin builtin = Prod.map id erased (h.newBuiltin builtin) :=
  rfl

/-- A fold of operations that do not look at functions does not look at them either. -/
theorem foldl_map_erased {α β : Type} (l : List β) {g : α × Heap → β → α × Heap} {init : α × Heap}
    (hg : ∀ x y, g (Prod.map id erased x) y = Prod.map id erased (g x y)) :
    l.foldl g (Prod.map id erased init) = Prod.map id erased (l.foldl g init) :=
  List.foldl_hom (Prod.map id erased) hg

theorem newGroup_erased (members : List (String × Builtin)) :
    h.erased.newGroup members = Prod.map id erased (h.newGroup members) := by
  have hinit : (Bindings.empty, h.erased)
      = Prod.map id erased ((Bindings.empty, h) : Bindings Value × Heap) := rfl
  unfold newGroup
  rw [hinit, foldl_map_erased members fun _ _ => rfl]
  rfl

/-- What every program starts with are builtins, which have no text. -/
theorem newProgramScope_erased (script : Option String) :
    h.erased.newProgramScope script = Prod.map id erased (h.newProgramScope script) := by
  simp only [newProgramScope, newGlobals, newGroup_erased, newBuiltin_erased, newScope_erased,
    declareAll_erased, Prod.map, id]

/-- An assignment goes to the nearest scope with the name, and scopes are not stripped. -/
theorem assign_erased (s : Ref .scope) (name : String) (v : Value) :
    h.erased.assign s name v = Prod.map id erased (h.assign s name v) := by
  have hnearest : h.erased.scopes.nearest? s name = h.scopes.nearest? s name := rfl
  unfold assign
  rw [hnearest]
  split <;> rfl

theorem setElement_erased (r : Ref .list) (position : Nat) (v : Value) :
    h.erased.setElement r position v = Prod.map id erased (h.setElement r position v) := by
  have helements : h.erased.elements r = h.elements r := rfl
  unfold setElement
  rw [helements]
  split <;> rfl

theorem insertEntry_erased (r : Ref .dict) (k v : Value) :
    h.erased.insertEntry r k v = Prod.map id erased (h.insertEntry r k v) := by
  unfold insertEntry
  split <;> rfl

theorem setMember_erased (r : Ref .host) (name : String) (v : Value) :
    h.erased.setMember r name v = Prod.map id erased (h.setMember r name v) := by
  have hopen : h.erased.memberIsOpen r name = h.memberIsOpen r name := rfl
  unfold setMember
  rw [hopen]
  split <;> rfl

/-- Text that stands for a function shows its name, which stays, so nested values are printed the
    same. -/
theorem nestedText_erased (depth : Nat) (v : Value) :
    h.erased.nestedText depth v = h.nestedText depth v := by
  have hfunction : ∀ r, (h.erased.functions.get? r).map (·.declaration.title)
      = (h.functions.get? r).map (·.declaration.title) := by
    intro r
    simp [erased, Function.erased, Function.comp_def]
  have helements : ∀ r, h.erased.elements r = h.elements r := fun _ => rfl
  have hdictionary : ∀ r, h.erased.dictionary r = h.dictionary r := fun _ => rfl
  induction depth generalizing v with
  | zero =>
      cases v with
      | function r => simp only [nestedText, hfunction]
      | bool b => cases b <;> rfl
      | _ => rfl
  | succ depth ih =>
      have htext : h.erased.nestedText depth = h.nestedText depth := funext ih
      cases v with
      | list r => simp only [nestedText, htext, helements]
      | dict r => simp only [nestedText, htext, hdictionary]
      | function r => simp only [nestedText, hfunction]
      | bool b => cases b <;> rfl
      | _ => rfl

theorem display_erased (v : Value) : h.erased.display v = h.display v := by
  cases v with
  | string s => rfl
  | _ => exact h.nestedText_erased _ _

end Heap

/-! ## Steps that are alike -/

/-- Machines that are the same up to lines and groupings. -/
structure Machine.Alike (m m' : Machine) : Prop where
  heap : m.heap.erased = m'.heap.erased
  stack : m.stack = m'.stack
  world : m.world = m'.world

theorem Machine.Alike.refl (m : Machine) : m.Alike m := ⟨rfl, rfl, rfl⟩

theorem Machine.Alike.symm {m m' : Machine} (h : m.Alike m') : m'.Alike m :=
  ⟨h.heap.symm, h.stack.symm, h.world.symm⟩

/-- Alike is a matter of what is left when both are stripped, so it composes. -/
theorem Machine.Alike.trans {m m' m'' : Machine} (h : m.Alike m') (h' : m'.Alike m'') :
    m.Alike m'' :=
  ⟨h.heap.trans h'.heap, h.stack.trans h'.stack, h.world.trans h'.world⟩

/-- The error as if it were on no line. -/
def RuntimeError.unlined (e : RuntimeError) : RuntimeError := { e with line := 0 }

theorem RuntimeError.fault_eq {e e' : RuntimeError} (h : e.unlined = e'.unlined) :
    e.fault = e'.fault :=
  show e.unlined.fault = e'.unlined.fault by rw [h]

theorem RuntimeError.lexeme_eq {e e' : RuntimeError} (h : e.unlined = e'.unlined) :
    e.lexeme = e'.lexeme :=
  show e.unlined.lexeme = e'.unlined.lexeme by rw [h]

variable {ε φ α β γ δ : Type}

/-- Outcomes of the same kind, with errors that `f` does not tell apart, or with values that `g`
    does not tell apart, and with machines that are alike. -/
inductive Outcome.AlikeBy (f : ε → φ) (g : α → β) : Outcome ε α → Outcome ε α → Prop
  | ok {a a' m m'} : g a = g a' → m.Alike m' → Outcome.AlikeBy f g (.ok a m) (.ok a' m')
  | error {e e' m m'} : f e = f e' → m.Alike m' → Outcome.AlikeBy f g (.error e m) (.error e' m')
  | outOfFuel : Outcome.AlikeBy f g .outOfFuel .outOfFuel

theorem Outcome.AlikeBy.symm {f : ε → φ} {g : α → β} {o o' : Outcome ε α} (h : o.AlikeBy f g o') :
    o'.AlikeBy f g o := by
  cases h with
  | ok ha hm => exact .ok ha.symm hm.symm
  | error he hm => exact .error he.symm hm.symm
  | outOfFuel => exact .outOfFuel

/-- Ends that are alike to the same end are alike. Both must be of its kind, which rules out the
    mixed cases. -/
theorem Outcome.AlikeBy.trans {f : ε → φ} {g : α → β} {o o' o'' : Outcome ε α}
    (h : o.AlikeBy f g o') (h' : o'.AlikeBy f g o'') : o.AlikeBy f g o'' := by
  cases h with
  | ok ha hm =>
      cases h' with
      | ok ha' hm' => exact .ok (ha.trans ha') (hm.trans hm')
  | error he hm =>
      cases h' with
      | error he' hm' => exact .error (he.trans he') (hm.trans hm')
  | outOfFuel => exact h'

namespace Step

/-- From machines that are alike, two steps end alike, as far as `f` and `g` tell. -/
def AlikeBy (f : ε → φ) (g : α → β) (x y : Step ε α) : Prop :=
  ∀ m m', m.Alike m' → (x m).AlikeBy f g (y m')

/-- Two steps give the same values, or errors that are the same but for their line. -/
abbrev Alike (x y : Step RuntimeError α) : Prop := AlikeBy RuntimeError.unlined id x y

namespace AlikeBy

variable {f : ε → φ} {g : α → β} {x y z : Step ε α}

theorem symm (h : AlikeBy f g x y) : AlikeBy f g y x := fun m m' hm => (h m' m hm.symm).symm

theorem trans (hx : AlikeBy f g x y) (hy : AlikeBy f g y z) : AlikeBy f g x z := fun m m' hm =>
  (hx m m' hm).trans (hy m' m' (.refl m'))

/-! ### Steps that leave the machine as it is -/

theorem pure {a a' : α} (h : g a = g a') : AlikeBy f g (Pure.pure a : Step ε α) (Pure.pure a') :=
  fun _ _ hm => .ok h hm

theorem fail {e e' : ε} (h : f e = f e') : AlikeBy f g (Step.fail e : Step ε α) (Step.fail e') :=
  fun _ _ hm => .error h hm

/-- An error at a token is an error with the line of the token, and it is the same but for this
    line. -/
theorem failAt {fault : Fault} {token : Token} :
    AlikeBy RuntimeError.unlined g (Step.failAt fault token) (Step.failAt fault token.unlined) :=
  fail rfl

theorem exhausted : AlikeBy f g (Step.exhausted : Step ε α) Step.exhausted :=
  fun _ _ _ => .outOfFuel

theorem ofExcept (r : Except ε α) : AlikeBy f g (Step.ofExcept r) (Step.ofExcept r) := by
  cases r with
  | ok a => exact pure rfl
  | error e => exact fail rfl

/-- What does not depend on the heap. -/
theorem observe {p : Machine → α} (hp : ∀ m heap, p { m with heap } = p m) :
    AlikeBy f g (Step.observe p : Step ε α) (Step.observe p) := by
  intro m m' hm
  have hmoved : p { m with heap := m'.heap } = p m' := by rw [hm.stack, hm.world]
  exact .ok (congrArg g ((hp m m'.heap).symm.trans hmoved)) hm

theorem outside {p : World → World} {g : Unit → β} :
    AlikeBy f g (Step.outside p : Step ε Unit) (Step.outside p) :=
  fun _ _ hm => .ok rfl ⟨hm.heap, hm.stack, congrArg p hm.world⟩

/-! ### Steps on the heap -/

/-- What is read from a stripped heap is the stripped version of what is read from the heap. -/
theorem inspect {g : α → α} {p : Heap → α} (hp : ∀ h, p h.erased = g (p h)) :
    AlikeBy f g (Step.inspect p : Step ε α) (Step.inspect p) :=
  fun m m' hm => .ok (by rw [← hp, ← hp, hm.heap]) hm

/-- Two operations that do what a third one does on a stripped heap. -/
theorem allocate {p p' : Heap → α × Heap} {q : Heap → β × Heap}
    (hp : ∀ h, q h.erased = Prod.map g Heap.erased (p h))
    (hp' : ∀ h, q h.erased = Prod.map g Heap.erased (p' h)) :
    AlikeBy f g (Step.allocate p : Step ε α) (Step.allocate p') := by
  intro m m' hm
  have hsame : Prod.map g Heap.erased (p m.heap) = Prod.map g Heap.erased (p' m'.heap) := by
    rw [← hp, ← hp', hm.heap]
  obtain ⟨hvalue, hheap⟩ := Prod.ext_iff.mp hsame
  exact .ok hvalue ⟨hheap, hm.stack, hm.world⟩

/-- An operation that does not look at functions. -/
theorem make {p : Heap → α × Heap} (hp : ∀ h, p h.erased = Prod.map id Heap.erased (p h)) :
    AlikeBy f id (Step.allocate p : Step ε α) (Step.allocate p) :=
  allocate hp hp

theorem change {p : Heap → Heap} {g : Unit → β} (hp : ∀ h, p h.erased = (p h).erased) :
    AlikeBy f g (Step.change p : Step ε Unit) (Step.change p) :=
  fun m m' hm => .ok rfl ⟨by rw [← hp, ← hp, hm.heap], hm.stack, hm.world⟩

/-- An attempt that does the same on a stripped heap. Where it fails, it fails with the same fault
    and may still have changed the heap. -/
theorem attempt {p : Heap → Except ε α × Heap}
    (hp : ∀ h, p h.erased = Prod.map id Heap.erased (p h)) :
    AlikeBy f g (Step.attempt p) (Step.attempt p) := by
  intro m m' hm
  have hsame : Prod.map id Heap.erased (p m.heap) = Prod.map id Heap.erased (p m'.heap) := by
    rw [← hp, ← hp, hm.heap]
  obtain ⟨hresult, hheap⟩ := Prod.ext_iff.mp hsame
  unfold Step.attempt
  cases hrun : p m.heap with
  | mk result heap =>
      cases hrun' : p m'.heap with
      | mk result' heap' =>
          rw [hrun, hrun'] at hresult hheap
          obtain rfl : result = result' := hresult
          cases result with
          | ok a => simpa only [hrun, hrun'] using .ok rfl ⟨hheap, hm.stack, hm.world⟩
          | error e => simpa only [hrun, hrun'] using .error rfl ⟨hheap, hm.stack, hm.world⟩

/-! ### Steps made of others -/

/-- One step after another. The first gives values that `g` does not tell apart, and the second must
    not tell them apart either. -/
theorem bindView {h : γ → δ} {k k' : α → Step ε γ} (hx : AlikeBy f g x y)
    (hk : ∀ a a', g a = g a' → AlikeBy f h (k a) (k' a')) : AlikeBy f h (x >>= k) (y >>= k') := by
  intro m m' hm
  have hends := hx m m' hm
  rw [bind_apply, bind_apply]
  generalize x m = o, y m' = o' at hends ⊢
  cases hends with
  | ok ha hm => exact hk _ _ ha _ _ hm
  | error he hm => exact .error he hm
  | outOfFuel => exact .outOfFuel

/-- The usual case: the first steps give the same value. -/
theorem bind {h : γ → δ} {k k' : α → Step ε γ} (hx : AlikeBy f id x y)
    (hk : ∀ a, AlikeBy f h (k a) (k' a)) : AlikeBy f h (x >>= k) (y >>= k') :=
  hx.bindView fun a a' ha => by
    obtain rfl : a = a' := ha
    exact hk a

theorem ite {c : Prop} [Decidable c] {x' y' : Step ε α} (hx : AlikeBy f g x y)
    (hx' : AlikeBy f g x' y') : AlikeBy f g (if c then x else x') (if c then y else y') := by
  split
  · exact hx
  · exact hx'

/-- What is read may be read stripped. -/
theorem bindErased {g : α → α} {h : γ → δ} {k k' : α → Step ε γ} (hx : AlikeBy f g x y)
    (hk : ∀ a, AlikeBy f h (k a) (k' (g a))) (hk' : ∀ a, AlikeBy f h (k' a) (k' (g a))) :
    AlikeBy f h (x >>= k) (y >>= k') :=
  hx.bindView fun a a' ha => (hk a).trans (ha ▸ (hk' a').symm)

/-- A function is read if there is one. -/
theorem bindFunction {x y : Step ε (Option Function)} {h : γ → δ}
    {k k' : Option Function → Step ε γ} (hx : AlikeBy f (Option.map Function.erased) x y)
    (hnone : AlikeBy f h (k none) (k' none))
    (hsome : ∀ fn fn', fn.erased = fn'.erased → AlikeBy f h (k (some fn)) (k' (some fn'))) :
    AlikeBy f h (x >>= k) (y >>= k') := by
  refine hx.bindView fun found found' hfound => ?_
  cases found with
  | none =>
      cases found' with
      | none => exact hnone
      | some fn' => cases hfound
  | some fn =>
      cases found' with
      | none => cases hfound
      | some fn' => exact hsome fn fn' (Option.some.inj hfound)

/-- Errors are translated, by functions that keep errors apart no better than before. -/
theorem mapError {f' : γ → δ} {k k' : ε → γ} (hx : AlikeBy f g x y)
    (hk : ∀ e e', f e = f e' → f' (k e) = f' (k' e')) :
    AlikeBy f' g (x.mapError k) (y.mapError k') := by
  intro m m' hm
  have hends := hx m m' hm
  unfold Step.mapError
  generalize x m = o, y m' = o' at hends ⊢
  cases hends with
  | ok ha hm => exact .ok ha hm
  | error he hm => exact .error (hk _ _ he) hm
  | outOfFuel => exact .outOfFuel

/-- A fault of an operation gets the line of the token that it is blamed on, and this is all that
    differs. -/
theorem blame {x y : Step Fault α} (token : Token) (hx : AlikeBy id g x y) :
    AlikeBy RuntimeError.unlined g (x.blame token) (y.blame token.unlined) :=
  hx.mapError fun fault fault' hfault => by
    obtain rfl : fault = fault' := hfault
    rfl

/-- The loop is counted on the call stack, which is the same in both machines. -/
theorem inLoop (hx : AlikeBy f g x y) : AlikeBy f g (Step.inLoop x) (Step.inLoop y) := by
  intro m m' hm
  have hends := hx { m with stack := m.stack.enterLoop } { m' with stack := m'.stack.enterLoop }
    ⟨hm.heap, by rw [hm.stack], hm.world⟩
  unfold Step.inLoop
  generalize x _ = o, y _ = o' at hends ⊢
  cases hends with
  | ok ha hm => exact .ok ha ⟨hm.heap, congrArg CallStack.leaveLoop hm.stack, hm.world⟩
  | error he hm => exact .error he ⟨hm.heap, congrArg CallStack.leaveLoop hm.stack, hm.world⟩
  | outOfFuel => exact .outOfFuel

theorem apart (hx : AlikeBy f g x y) : AlikeBy f g (Step.apart x) (Step.apart y) := by
  intro m m' hm
  have hends := hx { m with stack := .root } { m' with stack := .root } ⟨hm.heap, rfl, hm.world⟩
  unfold Step.apart
  generalize x _ = o, y _ = o' at hends ⊢
  cases hends with
  | ok ha hm' => exact .ok ha ⟨hm'.heap, hm.stack, hm'.world⟩
  | error he hm' => exact .error he ⟨hm'.heap, hm.stack, hm'.world⟩
  | outOfFuel => exact .outOfFuel

/-- Leaving a function checks the name on top of the call stack. The stacks are the same, so both
    leave or both fail. -/
theorem left {name : String} {token : Token} {m m' : Machine} (hm : m.Alike m')
    {ending ending' : Machine → Outcome RuntimeError α}
    (hends : ∀ m m', m.Alike m' → (ending m).AlikeBy RuntimeError.unlined g (ending' m')) :
    (inFunction.left name token m ending).AlikeBy RuntimeError.unlined g
      (inFunction.left name token.unlined m' ending') := by
  unfold inFunction.left
  rw [hm.stack]
  cases m'.stack.leave name with
  | ok stack => exact hends _ _ ⟨hm.heap, rfl, hm.world⟩
  | error fault => exact .error rfl hm

/-- A function is entered and left around the step; its name is part of what is not stripped. -/
theorem inFunction {x y : Step RuntimeError α} (name : String) (token : Token)
    (hx : AlikeBy RuntimeError.unlined g x y) :
    AlikeBy RuntimeError.unlined g (Step.inFunction name token x)
      (Step.inFunction name token.unlined y) := by
  intro m m' hm
  have hends := hx { m with stack := m.stack.enter name } { m' with stack := m'.stack.enter name }
    ⟨hm.heap, by rw [hm.stack], hm.world⟩
  unfold Step.inFunction
  generalize x _ = o, y _ = o' at hends ⊢
  cases hends with
  | ok ha hm => exact left hm fun _ _ => .ok ha
  | error he hm => exact left hm fun _ _ => .error he
  | outOfFuel => exact .outOfFuel

/-- Errors that are alike are both handled or both passed on. -/
theorem rescue {handled : ε → Bool} {k k' : ε → Step ε α} (hx : AlikeBy f g x y)
    (hhandled : ∀ e e', f e = f e' → handled e = handled e')
    (hk : ∀ e e', f e = f e' → AlikeBy f g (k e) (k' e')) :
    AlikeBy f g (Step.rescue x handled k) (Step.rescue y handled k') := by
  intro m m' hm
  have hends := hx m m' hm
  unfold Step.rescue
  generalize x m = o, y m' = o' at hends ⊢
  cases hends with
  | ok ha hm => exact .ok ha hm
  | error he hm =>
      simp only [hhandled _ _ he]
      split
      · exact hk _ _ he _ _ hm
      · exact .error he hm
  | outOfFuel => exact .outOfFuel

end AlikeBy

end Step

end Script
