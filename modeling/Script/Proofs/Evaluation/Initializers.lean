import Script.Proofs.Evaluation.Construction
import Script.Proofs.Evaluation.Watch
import Script.Run

/-!
# `Proofs.Evaluation.Initializers` — what constructing an instance comes to

Calling an initializer does what calling the same text as an ordinary function does, but for the
value: it gives the instance that it is bound to. To find the instance it looks up `this`, and that
this could fail is why the text of a call has a fault for it. On a settled heap it does not come up.

Calling a class makes an instance and calls its `init` on it, if the class has one or inherits one.

The main statement is `construction_initializes_once`.
-/

namespace Script

open Step (Follows)

/-- The function as an ordinary one, which gives what its body returns. -/
def Function.ordinary (f : Function) : Function := { f with isInitializer := false }

theorem Step.bind_assoc {ε α β γ : Type} (x : Step ε α) (f : α → Step ε β) (g : β → Step ε γ) :
    (x >>= f) >>= g = x >>= fun a => f a >>= g := by
  funext m
  simp only [Step.bind_apply]
  cases x m <;> rfl

namespace Evaluator

/-! ## Calling an initializer -/

section Calls

variable {ev : Evaluator} {f : Function} {arguments : List Value} {token : Token} {m : Machine}
  {r : Ref .inst}

/-- An initializer does what it does as an ordinary function, and then looks up `this`. -/
theorem callFunction_of_isInitializer (hf : f.isInitializer = true) :
    ev.callFunction f arguments token = (do
      let _ ← ev.callFunction f.ordinary arguments token
      meaning "this" token f.closure) := by
  have htext : f.ordinary.declaration = f.declaration := rfl
  unfold callFunction
  rw [htext]
  by_cases hlength : arguments.length ≠ f.declaration.parameters.length
  · rw [if_pos hlength, if_pos hlength]
    rfl
  · rw [if_neg hlength, if_neg hlength, Step.bind_assoc]
    congr 1
    funext depth
    by_cases hdepth : ev.limit ≤ depth
    · rw [if_pos hdepth, if_pos hdepth]
      rfl
    · rw [if_neg hdepth, if_neg hdepth]
      simp only [Step.bind_assoc, hf, if_true]
      rfl

theorem meaning_this (hthis : m.heap.own? f.closure "this" = some (.inst r)) :
    meaning "this" token f.closure m = .ok (.inst r) m := by
  unfold meaning
  simp only [Step.bind_apply, Step.inspect, Heap.lookup_of_own? hthis]
  rfl

/-- If `this` is the instance after the call of the ordinary function, then it is what is given. -/
theorem callFunction_gives (hf : f.isInitializer = true)
    (hthis : ∀ v m', ev.callFunction f.ordinary arguments token m = .ok v m' →
      m'.heap.own? f.closure "this" = some (.inst r)) :
    ev.callFunction f arguments token m = (do
      let _ ← ev.callFunction f.ordinary arguments token
      return .inst r : Step RuntimeError Value) m := by
  rw [callFunction_of_isInitializer hf]
  simp only [Step.bind_apply]
  cases hrun : ev.callFunction f.ordinary arguments token m with
  | ok v m' => exact meaning_this (hthis v m' hrun)
  | error e m' => rfl
  | outOfFuel => rfl

end Calls

variable {f : Function} {arguments : List Value} {m : Machine} {r : Ref .inst} {k : Ref .cls}

/-- On a settled heap a function that is called leaves a settled heap, and what is bound to an
    instance stays so. -/
theorem meets_callFunction_ordinary (limit fuel : Nat) (token : Token) (hm : m.heap.Settled)
    (htext : AllBind Unreserved f.declaration.nodes)
    (harguments : ∀ v ∈ arguments, m.heap.Handles v) :
    ((withFuel limit fuel).callFunction f.ordinary arguments token m).Meets
      Discipline.construction.toCourse m.stack m.heap Discipline.construction.value := by
  have hev := obeys_withFuel Discipline.construction_lawful limit fuel ()
  have hcallable : Discipline.construction.callable m.heap f.ordinary :=
    ⟨fun hf => absurd hf Bool.false_ne_true, htext⟩
  exact (hev.callFunction Discipline.construction_lawful hcallable harguments token m rfl rfl hm).2

/-- An initializer that is bound to an instance gives the instance, whatever its body returns. It
    fails only if its body does, or if it cannot be called with the arguments. -/
theorem callFunction_bound (limit fuel : Nat) (token : Token) (hm : m.heap.Settled)
    (htext : AllBind Unreserved f.declaration.nodes) (hf : f.isInitializer = true)
    (hthis : m.heap.own? f.closure "this" = some (.inst r))
    (harguments : ∀ v ∈ arguments, m.heap.Handles v) :
    (withFuel limit fuel).callFunction f arguments token m = (do
      let _ ← (withFuel limit fuel).callFunction f.ordinary arguments token
      return .inst r : Step RuntimeError Value) m := by
  refine callFunction_gives hf fun v m' hrun => ?_
  have hmeets := meets_callFunction_ordinary limit fuel token hm htext harguments
  rw [hrun] at hmeets
  exact hmeets.2.1.later.1.own?_this hthis

/-! ## Calling a class -/

/-- What the call of a class comes to, if `r` is the instance that is made. -/
structure Constructs (ev : Evaluator) (k : Ref .cls) (r : Ref .inst) (arguments : List Value)
    (token : Token) (m : Machine) (o : Outcome RuntimeError Value) : Prop where
  /-- The instance was not there before. -/
  new : m.heap.instances.get? r = none
  /-- If the call succeeds, then it gives the instance, and this is an instance of the class. -/
  gives : ∀ v m', o = .ok v m' →
    v = .inst r ∧ ∃ i, m'.heap.instances.get? r = some i ∧ i.cls = k
  /-- The method `init` that the class has or inherits is bound to the instance and then called.
      What it would return as an ordinary function is of no consequence. -/
  initializes : ∀ init, m.heap.method? k "init" = some init → ∃ bound made,
    (m.heap.newInstance k).2.bind init r = (bound, made)
      ∧ bound.isInitializer = true
      ∧ made.own? bound.closure "this" = some (.inst r)
      ∧ o = (do
          let _ ← ev.callFunction bound.ordinary arguments token
          return .inst r : Step RuntimeError Value) { m with heap := made }
      ∧ o.Leaves fun m' => m'.heap.own? bound.closure "this" = some (.inst r)
  /-- Without such a method there is nothing to call, and there may be no arguments. -/
  bare : m.heap.method? k "init" = none →
    o = if arguments.isEmpty then .ok (.inst r) { m with heap := (m.heap.newInstance k).2 }
      else .error (.atToken .invalidNumberOfArguments token)
        { m with heap := (m.heap.newInstance k).2 }

/-- The method `init` of a new instance of a class: what is called, and the heap then. -/
def construct (h : Heap) (k : Ref .cls) (init : Function) : Function × Heap :=
  (h.newInstance k).2.bind init h.instances.next

theorem own?_construct (h : Heap) (k : Ref .cls) (init : Function) :
    (construct h k init).2.own? (construct h k init).1.closure "this"
      = some (.inst h.instances.next) :=
  Heap.own?_bind ..

theorem goes_construct {h : Heap} (hh : h.Settled) (k : Ref .cls) {init : Function}
    (htext : AllBind Unreserved init.declaration.nodes) :
    Discipline.construction.Goes h (construct h k init).2 := by
  have lawful := Discipline.construction_lawful
  have hk : Discipline.construction.value h (.cls k) := Heap.handles_of_isFunction rfl
  obtain ⟨go, hinstance⟩ := lawful.newInstance hh hk
  exact go.trans (lawful.bind go.sound htext hinstance).1

theorem instantiate_of_none (ev : Evaluator) (token : Token)
    (hinit : m.heap.method? k "init" = none) :
    ev.instantiate k arguments token m
      = if arguments.isEmpty then
          .ok (.inst m.heap.instances.next) { m with heap := (m.heap.newInstance k).2 }
        else .error (.atToken .invalidNumberOfArguments token)
          { m with heap := (m.heap.newInstance k).2 } := by
  have hinit' : (m.heap.newInstance k).2.method? k "init" = none := hinit
  unfold instantiate
  simp only [Step.bind_apply, Step.allocate, Step.inspect, hinit']
  split <;> rfl

theorem instantiate_of_some (ev : Evaluator) (token : Token) {init : Function}
    (hinit : m.heap.method? k "init" = some init) :
    ev.instantiate k arguments token m = (do
      let _ ← ev.callFunction (construct m.heap k init).1 arguments token
      return .inst m.heap.instances.next : Step RuntimeError Value)
        { m with heap := (construct m.heap k init).2 } := by
  have hinit' : (m.heap.newInstance k).2.method? k "init" = some init := hinit
  unfold instantiate
  simp only [Step.bind_apply, Step.allocate, Step.inspect, hinit']
  rfl

/-- The call of a class with `init`, in terms of the ordinary function. -/
theorem instantiate_ordinary (limit fuel : Nat) (token : Token) (hm : m.heap.Settled)
    (harguments : ∀ v ∈ arguments, m.heap.Handles v) {init : Function}
    (hinit : m.heap.method? k "init" = some init) :
    (withFuel limit fuel).instantiate k arguments token m = (do
      let _ ← (withFuel limit fuel).callFunction (construct m.heap k init).1.ordinary arguments token
      return .inst m.heap.instances.next : Step RuntimeError Value)
        { m with heap := (construct m.heap k init).2 } := by
  have htext : AllBind Unreserved init.declaration.nodes := hm.texts.method? hinit
  have go := goes_construct hm k htext
  have hbound := callFunction_bound (f := (construct m.heap k init).1)
    (m := { m with heap := (construct m.heap k init).2 }) limit fuel token go.sound htext
    (hm.method? hinit) (own?_construct m.heap k init)
    fun v hv => go.later.1.handles (harguments v hv)
  rw [instantiate_of_some _ token hinit, Step.bind_apply, hbound]
  simp only [Step.bind_apply]
  cases (withFuel limit fuel).callFunction (construct m.heap k init).1.ordinary arguments token
    { m with heap := (construct m.heap k init).2 } <;> rfl

/-- However the call of a class with `init` ends, the heap has gone on from that in which the method
    was bound to the instance. -/
theorem leaves_instantiate (limit fuel : Nat) (token : Token) (hm : m.heap.Settled)
    (harguments : ∀ v ∈ arguments, m.heap.Handles v) {init : Function}
    (hinit : m.heap.method? k "init" = some init) :
    ((withFuel limit fuel).instantiate k arguments token m).Leaves fun m' =>
      Discipline.construction.Goes (construct m.heap k init).2 m'.heap := by
  have htext : AllBind Unreserved init.declaration.nodes := hm.texts.method? hinit
  have go := goes_construct hm k htext
  have hmeets := meets_callFunction_ordinary (f := (construct m.heap k init).1)
    (m := { m with heap := (construct m.heap k init).2 }) limit fuel token go.sound htext
    fun v hv => go.later.1.handles (harguments v hv)
  rw [instantiate_ordinary limit fuel token hm harguments hinit, Step.bind_apply]
  cases hrun : (withFuel limit fuel).callFunction (construct m.heap k init).1.ordinary arguments
    token { m with heap := (construct m.heap k init).2 } with
  | ok v m' =>
      rw [hrun] at hmeets
      exact hmeets.2.1
  | error e m' =>
      rw [hrun] at hmeets
      exact hmeets.2
  | outOfFuel => exact trivial

/-- The instance of an instantiation that succeeds is the new one. -/
theorem value_of_instantiate {ev : Evaluator} {token : Token} {v : Value} {m' : Machine}
    (hok : ev.instantiate k arguments token m = .ok v m') : v = .inst m.heap.instances.next := by
  cases hinit : m.heap.method? k "init" with
  | none =>
      rw [instantiate_of_none ev token hinit] at hok
      split at hok
      · cases hok
        rfl
      · cases hok
  | some init =>
      rw [instantiate_of_some ev token hinit] at hok
      obtain ⟨v', m₁, -, hok⟩ := Step.exists_ok_of_bind hok
      cases hok
      rfl

/-- It is an instance of the class. -/
theorem cls_of_instantiate {limit fuel : Nat} {token : Token} (hm : m.heap.Settled)
    (harguments : ∀ v ∈ arguments, m.heap.Handles v) {v : Value} {m' : Machine}
    (hok : (withFuel limit fuel).instantiate k arguments token m = .ok v m') :
    ∃ i, m'.heap.instances.get? m.heap.instances.next = some i ∧ i.cls = k := by
  have hmade : (m.heap.newInstance k).2.instances.get? m.heap.instances.next = some ⟨k, .empty⟩ :=
    Store.get?_push_next ..
  cases hinit : m.heap.method? k "init" with
  | none =>
      rw [instantiate_of_none _ token hinit] at hok
      split at hok
      · cases hok
        exact ⟨_, hmade, rfl⟩
      · cases hok
  | some init =>
      have hleaves := leaves_instantiate limit fuel token hm harguments hinit
      rw [hok] at hleaves
      obtain ⟨i, hi, hgrows⟩ := hleaves.later.2.instances _ _ hmade
      exact ⟨i, hi, hgrows.cls⟩

theorem constructs_callValue (limit fuel : Nat) (token : Token) (hm : m.heap.Settled)
    (harguments : ∀ v ∈ arguments, m.heap.Handles v) (k : Ref .cls) :
    (withFuel limit fuel).Constructs k m.heap.instances.next arguments token m
      ((withFuel limit fuel).callValue (.cls k) arguments token m) where
  new := Store.get?_eq_none_iff.mpr (Nat.le_refl _)
  gives v m' hok := ⟨value_of_instantiate hok, cls_of_instantiate hm harguments hok⟩
  initializes init hinit := by
    refine ⟨_, _, rfl, hm.method? hinit, own?_construct m.heap k init, ?_, ?_⟩
    · exact instantiate_ordinary limit fuel token hm harguments hinit
    · have hleaves := leaves_instantiate limit fuel token hm harguments hinit
      exact hleaves.mono fun m' go => go.later.1.own?_this (own?_construct m.heap k init)
  bare hinit := instantiate_of_none _ token hinit

/-! ## Initializers as values -/

section Values

variable {v : Value} {m' : Machine}

/-- What an instance has under the name `init`, if it is not a field, is bound to the instance. -/
theorem initializes_of_property {name : Token} (hm : m.heap.Settled) (hname : name.lexeme = "init")
    (hfield : m.heap.field? r "init" = none) (hok : property (.inst r) name m = .ok v m') :
    m'.heap.Initializes v r := by
  unfold property at hok
  simp only [Step.bind_apply, Step.inspect, hname, hfield] at hok
  cases hf : m.heap.instanceMethod? r "init" with
  | none =>
      simp only [hf] at hok
      cases hok
  | some f =>
      simp only [hf] at hok
      cases hok
      exact m.heap.initializes_boundMethod (hm.instanceMethod? hf) r

/-- What `super` has under the name `init` is bound to the current instance. -/
theorem initializes_of_superMethod {keyword method : Token} {scope : Ref .scope}
    (hm : m.heap.Settled) (hname : method.lexeme = "init")
    (hok : superMethod keyword method scope m = .ok v m') :
    ∃ r, m.heap.lookup scope "this" = some (.inst r) ∧ m'.heap.Initializes v r := by
  unfold superMethod at hok
  simp only [Step.bind_apply, Step.inspect] at hok
  generalize m.heap.lookup scope "super" = above, hthis : m.heap.lookup scope "this" = this at hok
  split at hok
  · rename_i c r
    simp only [Step.bind_apply, Step.inspect, hname] at hok
    cases hf : m.heap.method? c "init" with
    | none =>
        rw [hf] at hok
        cases hok
    | some f =>
        rw [hf] at hok
        cases hok
        exact ⟨r, rfl, m.heap.initializes_boundMethod (hm.method? hf) r⟩
  · cases hok

/-- The call of an initializer that is a value. -/
theorem callValue_of_initializes (limit fuel : Nat) (token : Token) (hm : m.heap.Settled)
    (harguments : ∀ v ∈ arguments, m.heap.Handles v) (hv : m.heap.Initializes v r) :
    ∃ g f, v = .function g ∧ m.heap.functions.get? g = some f
      ∧ (withFuel limit fuel).callValue v arguments token m = (do
          let _ ← (withFuel limit fuel).callFunction f.ordinary arguments token
          return .inst r : Step RuntimeError Value) m := by
  obtain ⟨g, f, rfl, hg, hf, hthis⟩ := hv
  refine ⟨g, f, rfl, hg, ?_⟩
  rw [← callFunction_bound limit fuel token hm (hm.texts g f hg) hf hthis harguments]
  unfold callValue
  simp only [Step.bind_apply, Step.inspect, hg]

end Values

end Evaluator

/-! ## Watching a run -/

/-- An evaluation starts from a settled heap and leaves one, however it ends. What initializes an
    instance keeps to the instance, and the value is in `P`. -/
structure Outcome.Settles {ε α : Type} (P : Heap → α → Prop) (m : Machine) (o : Outcome ε α) :
    Prop where
  start : m.heap.Settled
  leaves : o.Leaves fun m' => m'.heap.Settled
    ∧ ∀ v r, m.heap.Initializes v r → m'.heap.Initializes v r
  value : ∀ a m', o = .ok a m' → P m'.heap a

/-- Every evaluation settles, and a value that it gives or returns is not an initializer without an
    instance. -/
def Watch.settling : Watch where
  statement _ m o := o.Settles (fun h flow => h.Handles flow.value) m
  expression _ m o := o.Settles Heap.Handles m
  body _ m o := o.Settles (fun h flow => h.Handles flow.value) m

theorem Outcome.Meets.settles {ε α : Type} {m : Machine} {o : Outcome ε α}
    {P Q : Heap → α → Prop} (hm : m.heap.Settled)
    (ho : o.Meets Discipline.construction.toCourse m.stack m.heap Q)
    (hPQ : ∀ h a, Q h a → P h a) : o.Settles P m where
  start := hm
  leaves := ho.leaves.mono fun _ hm' => ⟨hm'.2.sound, fun _ _ hv => hm'.2.later.1.initializes hv⟩
  value a m' hok := by
    subst hok
    exact hPQ m'.heap a ho.2.2

/-- Whether it is watched or not, and wherever it is interrupted, the evaluator does the same. -/
theorem Evaluator.obeys_settling (stop : Expr → Ref .scope → Machine → Option RuntimeError)
    (limit fuel : Nat) :
    Obeys Discipline.construction () (Watch.settling.interrupted stop limit fuel)
      (Watch.idle.interrupted stop limit fuel) := by
  have lawful := Discipline.construction_lawful
  have hflow : ∀ h flow, Discipline.construction.flow h flow → h.Handles flow.value :=
    fun _ _ hflow => lawful.flow_value hflow
  induction fuel with
  | zero => exact ⟨rfl, rfl, fun _ _ _ => .exhausted, fun _ _ => .exhausted, fun _ _ _ => .exhausted⟩
  | succ fuel ih =>
      refine ⟨rfl, rfl, ?_, ?_, ?_⟩
      · rintro j σ h s scope - hs hscope m rfl rfl hm
        obtain ⟨heq, hmeets⟩ := ih.statementStep lawful hs hscope m rfl rfl hm
        exact hmeets.onlyIf heq (hmeets.settles hm hflow) trivial
      · rintro σ h e scope he hscope m rfl rfl hm
        obtain ⟨heq, hmeets⟩ := ih.expressionStep lawful hscope he m rfl rfl hm
        simp only [Watch.interrupted]
        cases stop e scope m with
        | some error => exact ⟨rfl, rfl, .refl hm⟩
        | none => exact hmeets.onlyIf heq (hmeets.settles hm fun _ _ hv => hv) trivial
      · rintro j σ h b scope hb hscope - m rfl rfl hm
        obtain ⟨heq, hmeets⟩ := ih.bodyStep lawful hb hscope m rfl rfl hm
        exact hmeets.onlyIf heq (hmeets.settles hm hflow) trivial

/-! ## Programs -/

theorem settling_runInterrupted {source : String} {program : Program}
    (hcompile : compile source = .ok program) (settings : Settings) (world : World) (fuel : Nat)
    (stop : Expr → Ref .scope → Machine → Option RuntimeError) :
    Watch.settling.runInterrupted stop fuel settings world program
        = Watch.idle.runInterrupted stop fuel settings world program
      ∧ (Watch.idle.runInterrupted stop fuel settings world program).Leaves (·.heap.Settled) := by
  have lawful := Discipline.construction_lawful
  obtain ⟨go, _, hscope⟩ := lawful.newProgramScope Heap.Settled.empty settings.path
  have hev := Evaluator.obeys_settling stop settings.maxCallDepth fuel
  have hfollows := hev.program lawful (allBind_of_compile hcompile) hscope
  obtain ⟨heq, hmeets⟩ := hfollows ⟨_, .root, world⟩ rfl rfl go.sound
  rw [heq] at hmeets
  exact ⟨heq, hmeets.leaves.mono fun _ hm => hm.2.sound⟩

theorem runSource_of_ok {source : String} {program : Program} {settings : Settings} {world : World}
    {fuel : Nat} {a : Unit} {m : Machine} (hcompile : compile source = .ok program)
    (hrun : runProgram fuel settings world program = .ok a m) :
    runSource fuel settings world source = some (.between true world m.world) := by
  unfold runSource
  rw [hcompile]
  simp only [hrun]

/-- **Construction initializes, and initializers give their instance.** In every run of a program
    that is accepted, with any amount of fuel and wherever it is interrupted, each evaluation on the
    way starts from a settled heap and leaves one: watching for it makes no difference. So an
    initializer that a program gets hold of as a value is bound to an instance, and it stays bound
    to it.

    On a settled heap, the call of a class makes a new instance of the class. It calls the method
    `init` that it finds going upwards from the class, if there is one, once and bound to the
    instance, and gives the instance, whatever the method returns. An initializer that is called as
    a value does the same as an ordinary function with its text, but gives the instance that it is
    bound to: that there is no `this` to give does not come up. What an instance or `super` has
    under the name `init` is an initializer that is bound to the instance. -/
theorem construction_initializes_once {source : String} {program : Program}
    (hcompile : compile source = .ok program) (settings : Settings) (world : World) :
    (∀ fuel stop, Watch.settling.runInterrupted stop fuel settings world program
        = Watch.idle.runInterrupted stop fuel settings world program)
      ∧ (∀ fuel, Watch.idle.runInterrupted (fun _ _ _ => none) fuel settings world program
        = runProgram fuel settings world program)
      ∧ ∀ limit fuel token (m : Machine) (arguments : List Value), m.heap.Settled →
        (∀ v ∈ arguments, m.heap.Handles v) →
        (∀ k, ∃ r, (Evaluator.withFuel limit fuel).Constructs k r arguments token m
          ((Evaluator.withFuel limit fuel).callValue (.cls k) arguments token m))
        ∧ (∀ g f, m.heap.Handles (.function g) → m.heap.functions.get? g = some f →
          f.isInitializer = true → ∃ r, m.heap.Initializes (.function g) r)
        ∧ (∀ v r, m.heap.Initializes v r → ∃ g f, v = .function g
          ∧ m.heap.functions.get? g = some f
          ∧ (Evaluator.withFuel limit fuel).callValue v arguments token m = (do
              let _ ← (Evaluator.withFuel limit fuel).callFunction f.ordinary arguments token
              return .inst r : Step RuntimeError Value) m)
        ∧ (∀ r name v m', name.lexeme = "init" → m.heap.field? r "init" = none →
          Evaluator.property (.inst r) name m = .ok v m' → m'.heap.Initializes v r)
        ∧ ∀ keyword method scope v m', method.lexeme = "init" →
          Evaluator.superMethod keyword method scope m = .ok v m' →
          ∃ r, m.heap.lookup scope "this" = some (.inst r) ∧ m'.heap.Initializes v r := by
  refine ⟨fun fuel stop => (settling_runInterrupted hcompile settings world fuel stop).1,
    fun fuel => Watch.idle_runInterrupted fuel settings world program, ?_⟩
  intro limit fuel token m arguments hm harguments
  refine ⟨fun k => ⟨_, Evaluator.constructs_callValue limit fuel token hm harguments k⟩, ?_, ?_, ?_, ?_⟩
  · intro g f hg hf hinitializer
    -- A value that is handled is ready: if it is an initializer, then it has its instance.
    obtain ⟨f', hf', hready⟩ := hg g rfl
    cases hf'.symm.trans hf
    obtain ⟨r, hthis⟩ := hready hinitializer
    exact ⟨r, g, _, rfl, hf, hinitializer, hthis⟩
  · intro v r hv
    exact Evaluator.callValue_of_initializes limit fuel token hm harguments hv
  · intro r name v m' hname hfield hok
    exact Evaluator.initializes_of_property hm hname hfield hok
  · intro keyword method scope v m' hname hok
    exact Evaluator.initializes_of_superMethod hm hname hok

/-- The initializer is inherited and returns something else. The class is called in the program and
    once more in the state that the program leaves behind. -/
theorem construction_initializes_once_inherited :
    let source := "class A \x7b\n init(x) \x7b\n this.x = x\n return \"no\"\n \x7d\n\x7d
      class B < A \x7b\n init(x) \x7b super.init(x) \x7d\n\x7d
      class C < B \x7b\n \x7d
      let c = C(\"new\")\n io.println(c.x)\n io.println(c.init(\"again\").x)\n"
    let token : Token := .plain .rightParen ")" 9
    (∃ program m, compile source = .ok program ∧ runProgram 40 {} .empty program = .ok () m
      ∧ Watch.settling.runInterrupted (fun _ _ _ => none) 40 {} .empty program = .ok () m
      ∧ (m.heap.method? ⟨2⟩ "init").isSome = true
      ∧ ∃ r, (Evaluator.withFuel 9 40).Constructs ⟨2⟩ r [.string "late"] token m
        ((Evaluator.withFuel 9 40).callValue (.cls ⟨2⟩) [.string "late"] token m))
    ∧ (runSource 40 {} .empty source).map (·.output) = some ["new", "again"] := by
  intro source token
  have hend : (compile source).toOption.any (fun program =>
      (runProgram 40 {} .empty program).isOk && decide ((runProgram 40 {} .empty program).Leaves
        fun m => (m.heap.method? ⟨2⟩ "init").isSome = true
          ∧ (RunReport.between true .empty m.world).output = ["new", "again"])) = true := by
    decide +kernel
  obtain ⟨program, hcompile, hend⟩ := exists_eq_ok_of_any hend
  obtain ⟨hok, hleaves⟩ := Bool.and_eq_true_iff.mp hend
  have hleaves := of_decide_eq_true hleaves
  have hsettled := (settling_runInterrupted hcompile {} .empty 40 fun _ _ _ => none).2
  obtain ⟨hwatch, hidle, hcalls⟩ := construction_initializes_once hcompile {} .empty
  rw [hidle] at hsettled
  cases hrun : runProgram 40 {} .empty program with
  | ok _ m =>
      rw [hrun] at hsettled hleaves
      have hvalue : ∀ v ∈ [Value.string "late"], m.heap.Handles v := by
        intro v hv
        cases List.mem_singleton.mp hv
        exact Heap.handles_of_isPlain rfl
      obtain ⟨hclass, -⟩ := hcalls 9 40 token m _ hsettled hvalue
      refine ⟨⟨program, m, hcompile, hrun, ?_, hleaves.1, hclass ⟨2⟩⟩, ?_⟩
      · exact (hwatch ..).trans ((hidle 40).trans hrun)
      · rw [runSource_of_ok hcompile hrun]
        exact congrArg some hleaves.2
  | error e m =>
      rw [hrun] at hok
      cases hok
  | outOfFuel =>
      rw [hrun] at hok
      cases hok

end Script
