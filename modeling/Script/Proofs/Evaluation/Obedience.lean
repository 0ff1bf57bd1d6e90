import Mathlib
import Script.Proofs.Builtins
import Script.Proofs.Evaluation.Discipline
import Script.Proofs.Heap.Reach

/-!
# `Proofs.Evaluation.Obedience` — the evaluator keeps to every discipline

If two evaluators do the same on the parts of a node and keep to a discipline there, then they do
the same on the node and keep to the discipline. There is one lemma for each function of the
evaluator, in the order of its modules. A step follows from the heap that the steps before it have
left, so each lemma carries what it knows along: scopes and values by `reads_later`, `binds_later`
and `value_later`.
-/

namespace Script

open Step (Follows)

variable {ρ : Discipline} {i : ρ.Place} {σ : CallStack} {h : Heap} {scope : Ref .scope}

/-- What a statement returns is a value that the program may have. -/
def Discipline.flow (ρ : Discipline) (h : Heap) : Flow → Prop
  | .returned v => ρ.value h v
  | _ => True

/-- What a call gives is what the body returned, or `nil`, which every discipline allows. -/
theorem Discipline.Lawful.flow_value (lawful : ρ.Lawful) {flow : Flow} (hflow : ρ.flow h flow) :
    ρ.value h flow.value := by
  cases flow with
  | returned v => exact hflow
  | _ => exact lawful.plain rfl

namespace Evaluator

/-- Two evaluators do the same at a place and keep to the discipline there. The statements of an
    imported module are run from the root of a call stack of their own and are at another place; so
    is the body of a function that is called. -/
structure Obeys (ρ : Discipline) (i : ρ.Place) (ev ev' : Evaluator) : Prop where
  limit : ev.limit = ev'.limit
  rounds : ev.rounds = ev'.rounds
  statement : ∀ {j σ h s scope}, (σ = .root ∨ j = i) → AllBind ρ.name s.nodes → ρ.binds j h scope →
    Follows ρ.toCourse σ h (ev.statement s scope) (ev'.statement s scope) ρ.flow
  expression : ∀ {σ h e scope}, AllBind ρ.name e.nodes → ρ.reads i h scope →
    Follows ρ.toCourse σ h (ev.expression e scope) (ev'.expression e scope) ρ.value
  body : ∀ {j σ h b scope}, AllBind ρ.name b.nodes → ρ.binds j h scope → ρ.runs h b scope →
    Follows ρ.toCourse σ h (ev.body b scope) (ev'.body b scope) ρ.flow

/-! ## What needs no parts -/

theorem follows_lengthProperty (lawful : ρ.Lawful) (n : Nat) (name : Token) :
    Follows ρ.toCourse σ h (lengthProperty n name) (lengthProperty n name) ρ.value := by
  unfold lengthProperty
  split
  · exact .pure (lawful.plain rfl)
  · exact .failAt

/-- A bound method is a value that the program may have, if the method could be bound and the
    instance is one. -/
theorem follows_boundMethod (lawful : ρ.Lawful) {f : Function} {r : Ref .inst}
    (hf : ρ.sound h → ρ.bindable h f) (hr : ρ.value h (.inst r)) :
    Follows ρ.toCourse σ h (Step.allocate (·.boundMethod f r) : Step RuntimeError Value)
      (Step.allocate (·.boundMethod f r)) ρ.value :=
  .allocate fun hh => lawful.boundMethod hh (hf hh) hr

/-- The property of an instance is a field, which is a value on a sound heap, or a method, which
    becomes a bound one. -/
theorem follows_property (lawful : ρ.Lawful) {object : Value} (hobject : ρ.value h object)
    (name : Token) :
    Follows ρ.toCourse σ h (property object name) (property object name) ρ.value := by
  unfold property
  refine .of_sound fun hh => ?_
  cases object with
  | inst r =>
      refine .inspect ?_
      cases hfield : h.field? r name.lexeme with
      | some v => exact .pure (lawful.field hh hobject hfield)
      | none =>
          refine .inspect ?_
          cases hmethod : h.instanceMethod? r name.lexeme with
          | some f =>
              exact follows_boundMethod lawful (fun _ => lawful.instanceMethod hh hobject hmethod)
                hobject
          | none => exact .failAt
  | cls c =>
      refine .inspect ?_
      cases hmethod : h.staticMethod? c name.lexeme with
      | some f => exact .pure (lawful.staticMethod hh hobject hmethod)
      | none => exact .failAt
  | host r =>
      refine .inspect ?_
      cases hmember : h.member? r name.lexeme with
      | some v => exact .pure (lawful.member hh hobject hmember)
      | none => exact .failAt
  | string s => exact follows_lengthProperty lawful _ name
  | list r => exact .inspect (follows_lengthProperty lawful _ name)
  | dict r => exact .inspect (follows_lengthProperty lawful _ name)
  | number x => exact .failAt
  | bool b => exact .failAt
  | nil => exact .failAt
  | function f => exact .failAt
  | builtin b => exact .failAt

theorem follows_setProperty (lawful : ρ.Lawful) {object v : Value} (hobject : ρ.value h object)
    (hv : ρ.value h v) (name : Token) :
    Follows ρ.toCourse σ h (setProperty object name v) (setProperty object name v)
      fun _ _ => True := by
  unfold setProperty
  cases object with
  | inst r => exact .change (fun hh => lawful.setField hh hobject hv) fun _ => trivial
  | host r =>
      exact .blame name (.attempt (fun hh => lawful.setMember hh hobject hv) fun _ _ => trivial)
  | _ => exact .failAt

/-- The class above and the instance are values that the scope gives, and the method of the one is
    bound to the other. -/
theorem follows_superMethod (lawful : ρ.Lawful) (hscope : ρ.reads i h scope)
    (keyword method : Token) :
    Follows ρ.toCourse σ h (superMethod keyword method scope) (superMethod keyword method scope)
      ρ.value := by
  unfold superMethod
  refine .of_sound fun hh => .inspect (.inspect ?_)
  split
  · rename_i c r hsuper hthis
    have hc : ρ.value h (.cls c) := lawful.lookup hh hscope hsuper
    have hr : ρ.value h (.inst r) := lawful.lookup hh hscope hthis
    refine .inspect ?_
    cases hmethod : h.method? c method.lexeme with
    | some f => exact follows_boundMethod lawful (fun _ => lawful.classMethod hh hc hmethod) hr
    | none => exact .failAt
  · exact .failAt

/-- What a name means is what a scope has for it, and a scope that may be read has values. -/
theorem follows_meaning (lawful : ρ.Lawful) (hscope : ρ.reads i h scope) (name : String)
    (token : Token) :
    Follows ρ.toCourse σ h (meaning name token scope) (meaning name token scope) ρ.value := by
  unfold meaning
  refine .of_sound fun hh => .inspect ?_
  cases hfound : h.lookup scope name with
  | some v => exact .pure (lawful.lookup hh hscope hfound)
  | none => exact .failAt

/-- A function is made in the scope it is evaluated in, with names that the discipline allows. -/
theorem follows_closure (lawful : ρ.Lawful) (hscope : ρ.reads i h scope) {d : FunctionDecl}
    (hd : AllBind ρ.name d.nodes) :
    Follows ρ.toCourse σ h (closure d scope) (closure d scope) ρ.value := by
  unfold closure
  refine .bind (.allocate fun hh => lawful.newFunction hh ?_) fun _ _ _ hr => .pure hr
  exact lawful.makeable_of_reads hscope hd

/-- Declares a name and runs on. -/
theorem follows_declare (lawful : ρ.Lawful) (hscope : ρ.binds i h scope) {name : String} {v : Value}
    (hname : ρ.name name) (hv : ρ.value h v) :
    Follows ρ.toCourse σ h
      (do Step.change (·.declare scope name v); return .run : Step RuntimeError Flow)
      (do Step.change (·.declare scope name v); return .run) ρ.flow := by
  refine .bind (Q := fun _ _ => True) ?_ fun _ _ _ _ => .pure trivial
  exact .change (fun hh => lawful.declare hh hscope hname hv) fun _ => trivial

/-! ## Classes -/

/-- The superclass is looked up like any name, and it has to be a class. -/
theorem follows_superClass (lawful : ρ.Lawful) (hscope : ρ.reads i h scope) (c : ClassDecl) :
    Follows ρ.toCourse σ h (superClass c scope) (superClass c scope)
      fun h' above => ∀ r ∈ above, ρ.value h' (.cls r) := by
  unfold superClass
  refine .of_sound fun hh => ?_
  split
  · exact .pure (by simp)
  · rename_i name hname
    refine .inspect ?_
    split
    · rename_i r hr
      refine .pure fun r' hr' => ?_
      cases hr'
      exact lawful.lookup hh hscope hr
    · exact .failAt
    · exact .failAt

/-- The two steps that make a scope with `super` count as one operation on the heap. -/
theorem methodScope_some (c : Ref .cls) (scope : Ref .scope) :
    methodScope (some c) scope = Step.allocate (·.newMethodScope c scope) :=
  rfl

/-- The scope of the methods binds `super` if there is a class above. It is the home of the
    methods. -/
theorem follows_methodScope (lawful : ρ.Lawful) (hscope : ρ.reads i h scope)
    {above : Option (Ref .cls)} (habove : ∀ c ∈ above, ρ.value h (.cls c)) :
    Follows ρ.toCourse σ h (methodScope above scope) (methodScope above scope)
      fun h' => ρ.home h' above := by
  cases above with
  | none => exact .pure (lawful.home_of_reads hscope)
  | some c =>
      rw [methodScope_some]
      exact .allocate fun hh => lawful.newMethodScope hh hscope (habove c rfl)

/-- The methods of a class are made one after the other. `P` is what holds of each of them. -/
theorem follows_methods {P : Heap → Ref .function → Prop} {initializers : Bool}
    {ds : List FunctionDecl}
    (hlater : ∀ {h₁ h₂ r}, ρ.later h₁ h₂ → P h₁ r → P h₂ r)
    (hmake : ∀ h₁, ρ.Goes h h₁ → ∀ d ∈ ds, ∀ b, (initializers = false → b = false) →
      ρ.Makes h₁ (h₁.newFunction ⟨d, scope, b⟩) P)
    {table : Bindings (Ref .function)} (htable : table.All (P h)) :
    Follows ρ.toCourse σ h (methods initializers scope ds table)
      (methods initializers scope ds table) fun h' table => table.All (P h') := by
  induction ds generalizing h table with
  | nil => exact .pure htable
  | cons d rest ih =>
      refine .bind (.allocate fun hh => hmake h (.refl hh) d List.mem_cons_self _ ?_) ?_
      · rintro rfl
        rfl
      · intro h₁ r hgoes hr
        have htable₁ := htable.mono fun _ hr' => hlater hgoes.later hr'
        exact ih (fun h₂ hgoes₂ d' hd' => hmake h₂ (hgoes.trans hgoes₂) d'
          (List.mem_cons_of_mem d hd')) (htable₁.set d.title hr)

/-- Making methods leaves the functions that are there. -/
theorem keptIn_methods {initializers : Bool} {ds : List FunctionDecl}
    {table table' : Bindings (Ref .function)} {m m' : Machine}
    (hrun : methods initializers scope ds table m = .ok table' m') :
    m.heap.functions.KeptIn m'.heap.functions := by
  induction ds generalizing table m with
  | nil =>
      cases hrun
      exact fun _ _ hg => hg
  | cons d rest ih =>
      intro g f hg
      exact ih hrun g f (Store.keptIn_push m.heap.functions _ g f hg)

/-- A method is put under its own title into the table, so a table in which every method has its
    title stays one. -/
theorem titled_set {table : Bindings (Ref .function)} (htable : h.Titled table) {f : Function}
    (hf : f.isInitializer = (f.declaration.title == "init")) :
    (h.newFunction f).2.Titled (table.set f.declaration.title (h.newFunction f).1) := by
  intro name g hg
  by_cases hname : name = f.declaration.title
  · subst hname
    rw [Bindings.get?_set_self] at hg
    cases hg
    exact ⟨f, Store.get?_push_next .., rfl, hf⟩
  · rw [Bindings.get?_set_ne hname] at hg
    obtain ⟨f', hf', hfacts⟩ := htable name g hg
    exact ⟨f', Store.keptIn_push _ f g f' hf', hfacts⟩

/-- The methods of a class have their titles as names, and of these `init` is the initializer. -/
theorem titled_methods {ds : List FunctionDecl} {table table' : Bindings (Ref .function)}
    {m m' : Machine} (htable : m.heap.Titled table)
    (hrun : methods true scope ds table m = .ok table' m') : m'.heap.Titled table' := by
  induction ds generalizing table m with
  | nil =>
      cases hrun
      exact htable
  | cons d rest ih => exact ih (titled_set htable rfl) hrun

/-- What the text of a function declares: its name, its parameters and what is in its body. -/
theorem allBind_function {P : String → Prop} {d : FunctionDecl} (hd : AllBind P d.nodes) :
    P d.title ∧ (∀ x ∈ d.parameters.map (·.lexeme), P x) ∧ AllBind P d.body.nodes := by
  cases d with
  | mk name parameters body =>
      obtain ⟨hself, hbody⟩ := List.forall_mem_cons.mp hd
      obtain ⟨htitle, hparameters⟩ := List.forall_mem_cons.mp hself
      exact ⟨htitle, hparameters, hbody⟩

theorem allBind_methods {P : String → Prop} {ds : List FunctionDecl}
    (hds : AllBind P (nodesMethods ds)) : ∀ d ∈ ds, AllBind P d.nodes := by
  induction ds with
  | nil => exact nofun
  | cons d rest ih =>
      obtain ⟨hd, hrest⟩ := List.forall_mem_append.mp hds
      exact List.forall_mem_cons.mpr ⟨hd, ih hrest⟩

/-- Superclass, home, the two tables, the class and its name: at each step the discipline says what
    may be made, and what was known before is carried along to the heap that is left. -/
theorem follows_declareClass (lawful : ρ.Lawful) (hscope : ρ.binds i h scope) {c : ClassDecl}
    (hc : AllBind ρ.name c.nodes) :
    Follows ρ.toCourse σ h (declareClass c scope) (declareClass c scope) ρ.flow := by
  cases c with
  | mk name superClass methods staticMethods =>
  obtain ⟨hself, hmethods⟩ := List.forall_mem_cons.mp hc
  obtain ⟨hown, hstatic⟩ := List.forall_mem_append.mp hmethods
  have hname : ρ.name name.lexeme := hself _ List.mem_cons_self
  unfold declareClass
  refine .bind (follows_superClass lawful (lawful.reads_of_binds hscope) _)
    fun h₁ above go₁ habove => ?_
  refine .bind (follows_methodScope lawful
    (lawful.reads_later go₁.later (lawful.reads_of_binds hscope)) habove)
    fun h₂ inner go₂ hinner => ?_
  -- The methods are known to be titled in `h₃`, and the static ones made next leave them alone.
  refine .bind (follows_methods (P := fun h => ρ.method h above) lawful.method_later
    (fun h' go d hd b _ => lawful.newMethod go.sound (lawful.home_later go.later hinner)
      (allBind_methods hown d hd)) .empty |>.also fun m _ _ _ hrun => titled_methods ?_ hrun)
    fun h₃ own go₃ howns => ?_
  · intro name g hg
    cases hg
  obtain ⟨howns, htitled⟩ := howns
  refine .bind (follows_methods (P := fun h r => ρ.value h (.function r)) lawful.value_later
    (fun h' go d hd b hb => ?_) .empty |>.also (P := fun h' _ => h₃.functions.KeptIn h'.functions)
    fun m _ _ hm hrun => hm ▸ keptIn_methods hrun) fun h₄ statics go₄ hstatics => ?_
  · have hhome : ρ.home h' above inner := lawful.home_later (go₃.trans go).later hinner
    -- A static method is a function as any other, also one with the name `init`.
    rw [hb rfl]
    exact lawful.newFunction go.sound (lawful.makeable_of_home hhome (allBind_methods hstatic d hd))
  · have goes : ρ.Goes h₁ h₄ := go₂.trans (go₃.trans go₄)
    refine .bind (.allocate fun hh => lawful.newClass hh
      (fun c hc => lawful.value_later goes.later (habove c hc))
      (howns.mono fun _ hr => lawful.method_later go₄.later hr) hstatics.1 fun name g hg => ?_)
      fun h₅ ref go₅ href => ?_
    · obtain ⟨f, hf, hfacts⟩ := htitled name g hg
      exact ⟨f, hstatics.2 g f hf, hfacts⟩
    · have hscope₅ := lawful.binds_later (go₁.trans (goes.trans go₅)).later hscope
      exact follows_declare lawful hscope₅ hname href

theorem follows_leaveRound (keyword : Token) {flow : Flow} (hflow : ρ.flow h flow) :
    Follows ρ.toCourse σ h (leaveRound keyword flow) (leaveRound keyword flow) ρ.flow := by
  unfold leaveRound
  refine .bind (Q := fun h' _ => h' = h) (.observe fun _ _ _ => rfl) fun h₁ inside _ hh₁ => ?_
  subst hh₁
  cases inside with
  | true => exact .pure hflow
  | false => exact .failAt

/-! ## Sequences of parts -/

namespace Obeys

variable {ev ev' : Evaluator}

/-- A statement at the place itself. -/
theorem statementHere (hev : Obeys ρ i ev ev') {s : Stmt} (hs : AllBind ρ.name s.nodes)
    (hscope : ρ.binds i h scope) :
    Follows ρ.toCourse σ h (ev.statement s scope) (ev'.statement s scope) ρ.flow :=
  hev.statement (.inr rfl) hs hscope

/-- Statements one after the other, in a scope that stays one in which names may be declared. -/
theorem statements (hev : Obeys ρ i ev ev') (lawful : ρ.Lawful) {ss : List Stmt}
    (hss : AllBind ρ.name (nodesLines ss)) (hscope : ρ.binds i h scope) :
    Follows ρ.toCourse σ h (ev.statements ss scope) (ev'.statements ss scope) ρ.flow := by
  induction ss generalizing h with
  | nil => exact .pure trivial
  | cons s rest ih =>
      obtain ⟨hs, hrest⟩ := List.forall_mem_append.mp hss
      refine .bind (hev.statementHere hs hscope) fun h₁ flow go₁ hflow => ?_
      cases flow with
      | run => exact ih hrest (lawful.binds_later go₁.later hscope)
      | returned v => exact .pure hflow
      | broke => exact .pure trivial
      | continued => exact .pure trivial

/-- A program runs from the root of a call stack, so it may be at another place. -/
theorem program (hev : Obeys ρ i ev ev') (lawful : ρ.Lawful) {j : ρ.Place} {ss : List Stmt}
    (hss : AllBind ρ.name (nodesLines ss)) (hscope : ρ.binds j h scope) :
    Follows ρ.toCourse .root h (ev.program ss scope) (ev'.program ss scope) fun _ _ => True := by
  induction ss generalizing h with
  | nil => exact .pure trivial
  | cons s rest ih =>
      obtain ⟨hs, hrest⟩ := List.forall_mem_append.mp hss
      refine .bind (hev.statement (.inl rfl) hs hscope) fun h₁ flow go₁ _ => ?_
      have hnext := ih hrest (lawful.binds_later go₁.later hscope)
      cases flow with
      | returned v => exact .pure trivial
      | run => exact hnext
      | broke => exact hnext
      | continued => exact hnext

theorem values (hev : Obeys ρ i ev ev') (lawful : ρ.Lawful) {es : List Expr}
    (hes : AllBind ρ.name (nodesList es)) (hscope : ρ.reads i h scope) :
    Follows ρ.toCourse σ h (ev.values es scope) (ev'.values es scope)
      fun h' vs => ∀ v ∈ vs, ρ.value h' v := by
  induction es generalizing h with
  | nil => exact .pure nofun
  | cons e rest ih =>
      obtain ⟨he, hrest⟩ := List.forall_mem_append.mp hes
      refine .bind (hev.expression he hscope) fun h₁ v go₁ hv => ?_
      refine .bind (ih hrest (lawful.reads_later go₁.later hscope)) fun h₂ vs go₂ hvs => ?_
      exact .pure (List.forall_mem_cons.mpr ⟨lawful.value_later go₂.later hv, hvs⟩)

/-- Keys and values, evaluated alternately. What was evaluated early is still a value on the heap at
    the end. -/
theorem entries (hev : Obeys ρ i ev ev') (lawful : ρ.Lawful) {es : List (Expr × Expr)}
    (hes : AllBind ρ.name (nodesEntries es)) (hscope : ρ.reads i h scope) :
    Follows ρ.toCourse σ h (ev.entries es scope) (ev'.entries es scope)
      fun h' es => ∀ e ∈ es, ρ.value h' e.1 ∧ ρ.value h' e.2 := by
  induction es generalizing h with
  | nil => exact .pure nofun
  | cons e rest ih =>
      obtain ⟨hkey, hes⟩ := List.forall_mem_append.mp hes
      obtain ⟨hvalue, hrest⟩ := List.forall_mem_append.mp hes
      refine .bind (hev.expression hkey hscope) fun h₁ k go₁ hk => ?_
      have hscope₁ := lawful.reads_later go₁.later hscope
      refine .bind (hev.expression hvalue hscope₁) fun h₂ v go₂ hv => ?_
      have hscope₂ := lawful.reads_later go₂.later hscope₁
      refine .bind (ih hrest hscope₂) fun h₃ vs go₃ hvs => ?_
      refine .pure (List.forall_mem_cons.mpr ⟨⟨?_, ?_⟩, hvs⟩)
      · exact lawful.value_later (go₂.trans go₃).later hk
      · exact lawful.value_later go₃.later hv

/-! ## Accesses -/

theorem component (hev : Obeys ρ i ev ev') {part : Option Expr} (hpart : AllBind ρ.name (nodes? part))
    (bracket : Token) (hscope : ρ.reads i h scope) :
    Follows ρ.toCourse σ h (ev.component part bracket scope) (ev'.component part bracket scope)
      fun _ _ => True := by
  unfold Evaluator.component
  cases part with
  | none => exact .pure trivial
  | some e =>
      refine .bind (hev.expression hpart hscope) fun h₁ v _ _ => ?_
      cases v with
      | number x => exact .pure trivial
      | _ => exact .failAt

/-- The components of a slice give numbers, of which nothing needs to be known. -/
theorem slice (hev : Obeys ρ i ev ev') (lawful : ρ.Lawful) {a : Access}
    (ha : AllBind ρ.name a.nodes) (hscope : ρ.reads i h scope) :
    Follows ρ.toCourse σ h (ev.slice a scope) (ev'.slice a scope) fun _ _ => True := by
  cases a with
  | mk object bracket first firstColon second secondColon third =>
  obtain ⟨-, ha⟩ := List.forall_mem_cons.mp ha
  obtain ⟨-, ha⟩ := List.forall_mem_append.mp ha
  obtain ⟨hfirst, ha⟩ := List.forall_mem_append.mp ha
  obtain ⟨hsecond, hthird⟩ := List.forall_mem_append.mp ha
  unfold Evaluator.slice
  split
  · exact .failAt
  · refine .bind (hev.component hfirst bracket hscope) fun h₁ position go₁ _ => ?_
    have hscope₁ := lawful.reads_later go₁.later hscope
    split
    · split
      · exact .pure trivial
      · exact .failAt
    · refine .bind (hev.component hsecond bracket hscope₁) fun h₂ stop go₂ _ => ?_
      have hscope₂ := lawful.reads_later go₂.later hscope₁
      exact .bind (hev.component hthird bracket hscope₂) fun _ _ _ _ => .pure trivial

theorem key (hev : Obeys ρ i ev ev') {a : Access} (ha : AllBind ρ.name a.nodes)
    (hscope : ρ.reads i h scope) :
    Follows ρ.toCourse σ h (ev.key a scope) (ev'.key a scope) ρ.value := by
  cases a with
  | mk object bracket first firstColon second secondColon third =>
  obtain ⟨-, ha⟩ := List.forall_mem_cons.mp ha
  obtain ⟨-, ha⟩ := List.forall_mem_append.mp ha
  obtain ⟨hfirst, -⟩ := List.forall_mem_append.mp ha
  unfold Evaluator.key
  cases first with
  | none => exact .failAt
  | some e =>
      dsimp only
      split
      · exact hev.expression hfirst hscope
      · exact .failAt

theorem object (hev : Obeys ρ i ev ev') {a : Access} (ha : AllBind ρ.name a.nodes)
    (hscope : ρ.reads i h scope) :
    Follows ρ.toCourse σ h (ev.expression a.object scope) (ev'.expression a.object scope)
      ρ.value := by
  cases a with
  | mk object bracket first firstColon second secondColon third =>
  obtain ⟨-, ha⟩ := List.forall_mem_cons.mp ha
  exact hev.expression (List.forall_mem_append.mp ha).1 hscope

/-- What is read from a list or a dictionary is a value on a sound heap, and a slice makes a new
    list of such values. -/
theorem read (hev : Obeys ρ i ev ev') (lawful : ρ.Lawful) {a : Access}
    (ha : AllBind ρ.name a.nodes) (hscope : ρ.reads i h scope) :
    Follows ρ.toCourse σ h (ev.read a scope) (ev'.read a scope) ρ.value := by
  unfold Evaluator.read
  refine .bind (hev.object ha hscope) fun h₁ object go₁ hobject => ?_
  have hscope₁ := lawful.reads_later go₁.later hscope
  cases object with
  | dict r =>
      refine .bind (hev.key ha hscope₁) fun h₂ k go₂ hk => .of_sound fun hh => .inspect ?_
      have hentries := lawful.entries hh (lawful.value_later go₂.later hobject)
      refine .bind (Q := fun h' found => ∀ v ∈ found, ρ.value h' v)
        (.blame a.bracket (.ofExcept fun found hfound v hv => ?_)) fun h₃ found _ hfound => ?_
      · cases hv
        exact hentries.get? hfound
      · cases found with
        | none => exact .pure (lawful.plain rfl)
        | some v => exact .pure (hfound v rfl)
  | list r =>
      refine .bind (hev.slice lawful ha hscope₁) fun h₂ s go₂ _ => .of_sound fun hh => .inspect ?_
      have helements := lawful.elements hh (lawful.value_later go₂.later hobject)
      refine .bind (Q := fun h' selection => ∀ v ∈ selection.values, ρ.value h' v)
        (.blame a.bracket (.ofExcept fun selection hselected v hv => ?_))
        fun h₃ selection _ hselection => ?_
      · exact helements v (Slice.select_subset hselected hv)
      · cases selection with
        | element v => exact .pure (hselection v List.mem_cons_self)
        | items vs => exact .allocate fun hh => lawful.newList hh hselection
  | string text =>
      refine .bind (hev.slice lawful ha hscope₁) fun h₂ s _ _ => ?_
      refine .bind (Q := fun _ _ => True) (.blame a.bracket (.ofExcept fun _ _ => trivial))
        fun h₃ selection _ _ => ?_
      cases selection with
      | element c => exact .pure (lawful.plain rfl)
      | items cs => exact .pure (lawful.plain rfl)
  | _ => exact .failAt

/-- A value is stored in a list or a dictionary that the program has. -/
theorem store (hev : Obeys ρ i ev ev') (lawful : ρ.Lawful) {a : Access}
    (ha : AllBind ρ.name a.nodes) {v : Value} (hscope : ρ.reads i h scope) (hv : ρ.value h v) :
    Follows ρ.toCourse σ h (ev.store a v scope) (ev'.store a v scope) fun _ _ => True := by
  unfold Evaluator.store
  refine .bind (hev.object ha hscope) fun h₁ object go₁ hobject => ?_
  have hscope₁ := lawful.reads_later go₁.later hscope
  cases object with
  | dict r =>
      refine .bind (hev.key ha hscope₁) fun h₂ k go₂ hk => .blame a.bracket (.attempt ?_ ?_)
      · exact fun hh => lawful.insertEntry hh (lawful.value_later go₂.later hobject) hk
          (lawful.value_later (go₁.trans go₂).later hv)
      · exact fun _ _ => trivial
  | list r =>
      refine .bind (hev.slice lawful ha hscope₁) fun h₂ s go₂ _ => ?_
      cases s with
      | range start stop step => exact .failAt
      | index position =>
          dsimp only
          split
          · exact .failAt
          · refine .blame a.bracket (.attempt (fun hh => ?_) fun _ _ => trivial)
            exact lawful.setElement hh (lawful.value_later go₂.later hobject)
              (lawful.value_later (go₁.trans go₂).later hv)
  | _ => exact .failAt

/-! ## Calls -/

/-- A call runs the body in a new scope. The discipline says at which place that is, and the
    evaluators keep to it at every place. -/
theorem callFunction (hev : Obeys ρ i ev ev') (lawful : ρ.Lawful) {f : Function}
    {arguments : List Value} (hf : ρ.callable h f) (harguments : ∀ v ∈ arguments, ρ.value h v)
    (token : Token) :
    Follows ρ.toCourse σ h (ev.callFunction f arguments token)
      (ev'.callFunction f arguments token) ρ.value := by
  obtain ⟨-, hparameters, hbody⟩ := allBind_function (lawful.binds_text hf)
  unfold Evaluator.callFunction
  split
  · exact .failAt
  · refine .bind (Q := fun h' _ => h' = h) (.observe fun _ _ _ => rfl) fun h₀ depth _ hh₀ => ?_
    subst hh₀
    rw [hev.limit]
    split
    · exact .failAt
    · -- The scope of the call lies in the scope of the function, and its body may be run there.
      refine .bind (.allocate fun hh => lawful.newCall hh hf) ?_
      rintro h₁ inner go₁ ⟨⟨j, hinner⟩, hruns⟩
      refine .bind (Q := fun h' _ => ρ.binds j h' inner ∧ ρ.runs h' f.declaration.body inner)
        (.change (fun hh => ?_) ?_) fun h₂ _ go₂ hinner₂ => ?_
      · exact lawful.declareZip hh hinner hparameters
          fun v hv => lawful.value_later go₁.later (harguments v hv)
      · exact fun go => ⟨lawful.binds_later go.later hinner, lawful.runs_later go.later hruns⟩
      · refine .bind (.inFunction token (hev.body hbody hinner₂.1 hinner₂.2))
          fun h₃ flow go₃ hflow => ?_
        split
        · refine .of_sound fun hh => .inspect ?_
          have hf₃ := lawful.callable_later (go₁.trans (go₂.trans go₃)).later hf
          cases hthis : h₃.lookup f.closure "this" with
          | some v => exact .pure (lawful.receiver hh hf₃ hthis)
          | none => exact .failAt
        · exact .pure (lawful.flow_value hflow)

/-- A new instance is a value, its initializer is bound to it and called, and the instance is what
    comes out. -/
theorem instantiate (hev : Obeys ρ i ev ev') (lawful : ρ.Lawful) {c : Ref .cls}
    {arguments : List Value} (hc : ρ.value h (.cls c))
    (harguments : ∀ v ∈ arguments, ρ.value h v) (token : Token) :
    Follows ρ.toCourse σ h (ev.instantiate c arguments token) (ev'.instantiate c arguments token)
      ρ.value := by
  unfold Evaluator.instantiate
  refine .bind (.allocate fun hh => lawful.newInstance hh hc) fun h₁ r go₁ hr => ?_
  refine .of_sound fun hh₁ => .inspect ?_
  cases hmethod : h₁.method? c "init" with
  | none =>
      dsimp only
      split
      · exact .pure hr
      · exact .failAt
  | some init =>
      have hinit := lawful.classMethod hh₁ (lawful.value_later go₁.later hc) hmethod
      refine .bind (.allocate fun hh => lawful.bind hh hinit hr) fun h₂ bound go₂ hbound => ?_
      have harguments₂ : ∀ v ∈ arguments, ρ.value h₂ v :=
        fun v hv => lawful.value_later (go₁.trans go₂).later (harguments v hv)
      refine .bind (hev.callFunction lawful hbound harguments₂ token) fun h₃ _ go₃ _ => ?_
      exact .pure (lawful.value_later (go₂.trans go₃).later hr)

/-- A module is run from the root of a call stack of its own, in a new scope, at a place that goes
    with it. -/
theorem loadModule (hev : Obeys ρ i ev ev') (lawful : ρ.Lawful) (path : String) :
    Follows ρ.toCourse σ h (ev.loadModule path) (ev'.loadModule path)
      fun h' s => ∃ j, ρ.binds j h' s := by
  unfold Evaluator.loadModule
  refine .bind (Q := fun _ _ => True) (.observe fun _ _ _ => trivial) fun _ source _ _ => ?_
  refine .bind (Q := fun _ _ => True) (.ofExcept fun _ _ => trivial) fun _ text _ _ => ?_
  refine .bind (Q := fun _ program => Script.compile text = .ok program)
    (.ofExcept fun program hprogram => ?_) fun _ program _ hprogram => ?_
  · cases hc : Script.compile text with
    | ok p =>
        rw [hc] at hprogram
        cases hprogram
        rfl
    | error e =>
        rw [hc] at hprogram
        cases hprogram
  · refine .bind (.allocate fun hh => lawful.newProgramScope hh _) fun h₁ inner _ hinner => ?_
    obtain ⟨j, hinner⟩ := hinner
    refine .bind (.apart (hev.program lawful (lawful.modules hprogram) hinner).mapError)
      fun h₂ _ go₂ _ => ?_
    exact .pure ⟨j, lawful.binds_later go₂.later hinner⟩

end Obeys

/-! ## Builtins -/

/-- The steps of a builtin that reads an argument and goes on with it. -/
theorem follows_argument {α β : Type} {r : Except Fault α} {f g : α → Step Fault β}
    {Q : Heap → β → Prop} (hf : ∀ a, Follows ρ.toCourse σ h (f a) (g a) Q) :
    Follows ρ.toCourse σ h (Step.ofExcept r >>= f) (Step.ofExcept r >>= g) Q := by
  refine .bind (Q := fun h' _ => h' = h) (.ofExcept fun _ _ => rfl) fun h' a _ hh' => ?_
  subst hh'
  exact hf a

/-- The steps of a builtin that looks outside of the heap and goes on with what it sees. -/
theorem follows_observe {ε α β : Type} {r : Machine → α} {f g : α → Step ε β}
    {Q : Heap → β → Prop} (hf : ∀ a, Follows ρ.toCourse σ h (f a) (g a) Q) :
    Follows ρ.toCourse σ h (Step.observe r >>= f) (Step.observe r >>= g) Q := by
  refine .bind (Q := fun h' _ => h' = h) (.observe fun _ _ _ => rfl) fun h' a _ hh' => ?_
  subst hh'
  exact hf a

/-- The steps of a builtin that acts outside of the heap and goes on. -/
theorem follows_outside {α : Type} {r : World → World} {x y : Step Fault α}
    {Q : Heap → α → Prop} (hx : Follows ρ.toCourse σ h x y Q) :
    Follows ρ.toCourse σ h (Step.outside r >>= fun _ => x) (Step.outside r >>= fun _ => y) Q := by
  refine .bind (Q := fun h' _ => h' = h) (.outside rfl) fun h' _ _ hh' => ?_
  subst hh'
  exact hx

theorem follows_describeAll (lawful : ρ.Lawful) (entries : List (String × Entry)) :
    Follows ρ.toCourse σ h (Builtin.describeAll entries) (Builtin.describeAll entries)
      fun h' vs => ∀ v ∈ vs, ρ.value h' v := by
  induction entries generalizing h with
  | nil => exact .pure nofun
  | cons e rest ih =>
      have hentries := Builtin.describe_all (fun v => lawful.plain (h := h) (v := v)) e.1 e.2
      have hdict := lawful.dict_ofEntries (Builtin.ofEntries_describe e.1 e.2)
      refine .bind (.allocate fun hh => lawful.newDict hh hentries hdict) fun h₁ v go₁ hv => ?_
      · refine .bind ih fun h₂ vs go₂ hvs => .pure (List.forall_mem_cons.mpr ⟨?_, hvs⟩)
        exact lawful.value_later go₂.later hv

/-- An import gives an object that stands for the module. It needs nothing of its arguments: all it
    takes from them is the text of a path. -/
theorem Obeys.importModule {ev ev' : Evaluator} (hev : Obeys ρ i ev ev') (lawful : ρ.Lawful)
    (script : Option String) (arguments : List Value) :
    Follows ρ.toCourse σ h (Builtin.call ev (.importModule script) arguments)
      (Builtin.call ev' (.importModule script) arguments)
      fun h' v => ρ.value h' v ∧ ∃ r, v = .host r := by
  match arguments with
  | [] => exact .fail
  | _ :: _ :: _ => exact .fail
  | [module] =>
      refine follows_argument fun module => ?_
      refine .bind (hev.loadModule lawful _).mapError fun h₁ scope _ hscope => ?_
      obtain ⟨j, hscope⟩ := hscope
      refine .allocate fun hh => ?_
      obtain ⟨go, hvalue⟩ := lawful.newModule hh hscope
      exact ⟨go, hvalue, _, rfl⟩

/-- A builtin gives plain data, or a list that it makes of plain data, of its arguments or of new
    dictionaries. -/
theorem follows_performs (lawful : ρ.Lawful) {arguments : List Value}
    (harguments : ∀ v ∈ arguments, ρ.value h v) {x : Step Fault Value}
    (hx : Builtin.Performs arguments x) : Follows ρ.toCourse σ h x x ρ.value := by
  induction hx with
  | gives hv => exact .pure (lawful.plain hv)
  | fails _ => exact .fail
  | checks _ _ ih => exact follows_argument ih
  | asks _ _ ih => exact follows_observe ih
  | acts _ _ ih => exact follows_outside ih
  | shows _ ih => exact .inspect (ih _)
  | lists hvs =>
      refine .allocate fun hh => lawful.newList hh fun v hv => ?_
      exact (hvs v hv).elim lawful.plain (harguments v)
  | describes entries =>
      refine .bind (follows_describeAll lawful entries) fun h₁ vs _ hvs => ?_
      exact .allocate fun hh => lawful.newList hh hvs

theorem Obeys.builtin {ev ev' : Evaluator} (hev : Obeys ρ i ev ev') (lawful : ρ.Lawful)
    (b : Builtin) {arguments : List Value} (harguments : ∀ v ∈ arguments, ρ.value h v) :
    Follows ρ.toCourse σ h (b.call ev arguments) (b.call ev' arguments) ρ.value := by
  obtain ⟨script, module, rfl, rfl⟩ | ⟨heq, hx⟩ := b.call_cases ev ev' arguments
  · exact (hev.importModule lawful script [module]).post fun _ _ _ hv => hv.1
  · rw [heq]
    exact follows_performs lawful harguments hx

namespace Obeys

variable {ev ev' : Evaluator}

/-- What is called is a value that the program has, and so it is callable, a class of the program or
    a builtin. -/
theorem callValue (hev : Obeys ρ i ev ev') (lawful : ρ.Lawful) {callee : Value}
    {arguments : List Value} (hcallee : ρ.value h callee)
    (harguments : ∀ v ∈ arguments, ρ.value h v) (token : Token) :
    Follows ρ.toCourse σ h (ev.callValue callee arguments token)
      (ev'.callValue callee arguments token) ρ.value := by
  unfold Evaluator.callValue
  refine .of_sound fun hh => ?_
  cases callee with
  | function r =>
      refine .inspect ?_
      cases hf : h.functions.get? r with
      | some f => exact hev.callFunction lawful (lawful.function hh hcallee hf) harguments token
      | none => exact .failAt
  | cls c => exact hev.instantiate lawful hcallee harguments token
  | builtin r =>
      refine .inspect ?_
      cases h.builtins.get? r with
      | some b => exact .blame token (hev.builtin lawful b harguments)
      | none => exact .failAt
  | _ => exact .failAt

/-! ## Expressions -/

/-- What an operator came to is carried out, and it may be. -/
theorem finish (hev : Obeys ρ i ev ev') (lawful : ρ.Lawful) {applied : Except Fault Applied}
    (happlied : ∀ a, applied = .ok a → ρ.applied h a) (token : Token) :
    Follows ρ.toCourse σ h (ev.finish applied token) (ev'.finish applied token) ρ.value := by
  unfold Evaluator.finish
  refine .bind (.blame token (.ofExcept happlied)) fun h₁ a _ ha => ?_
  refine .bind (.allocate fun hh => lawful.carryOut hh ha) fun h₂ dispatch _ hdispatch => ?_
  cases dispatch with
  | resolved v => exact .pure hdispatch
  | call callee arguments => exact hev.callValue lawful hdispatch.1 hdispatch.2 token

/-- The left operand is still a value when the right one has been evaluated. -/
theorem binary (hev : Obeys ρ i ev ev') (lawful : ρ.Lawful) {left right : Expr}
    (hleft : AllBind ρ.name left.nodes) (hright : AllBind ρ.name right.nodes) (operator : Token)
    (hscope : ρ.reads i h scope) :
    Follows ρ.toCourse σ h (ev.binary left operator right scope)
      (ev'.binary left operator right scope) ρ.value := by
  unfold Evaluator.binary
  refine .bind (hev.expression hleft hscope) fun h₁ l go₁ hl => ?_
  have hscope₁ := lawful.reads_later go₁.later hscope
  refine .bind (hev.expression hright hscope₁) fun h₂ r go₂ hr => ?_
  cases Operator.ofBinary? operator.kind with
  | none => exact .failAt
  | some op =>
      refine .of_sound fun hh => .inspect (hev.finish lawful (fun a ha => ?_) operator)
      exact lawful.binary hh (lawful.value_later go₂.later hl) hr ha

theorem unary (hev : Obeys ρ i ev ev') (lawful : ρ.Lawful) {operand : Expr}
    (hoperand : AllBind ρ.name operand.nodes) (operator : Token) (hscope : ρ.reads i h scope) :
    Follows ρ.toCourse σ h (ev.unary operator operand scope) (ev'.unary operator operand scope)
      ρ.value := by
  unfold Evaluator.unary
  refine .bind (hev.expression hoperand hscope) fun h₁ v go₁ hv => ?_
  split
  · exact .pure (lawful.plain rfl)
  · refine .of_sound fun hh => .inspect (hev.finish lawful (fun a ha => ?_) operator)
    exact lawful.unary hh hv ha
  · exact .failAt

theorem logical (hev : Obeys ρ i ev ev') (lawful : ρ.Lawful) {left right : Expr}
    (hleft : AllBind ρ.name left.nodes) (hright : AllBind ρ.name right.nodes) (operator : Token)
    (hscope : ρ.reads i h scope) :
    Follows ρ.toCourse σ h (ev.logical left operator right scope)
      (ev'.logical left operator right scope) ρ.value := by
  unfold Evaluator.logical
  refine .bind (hev.expression hleft hscope) fun h₁ l go₁ _ => ?_
  have hsecond : Follows ρ.toCourse σ h₁
      (do return .bool (← ev.expression right scope).truthy)
      (do return .bool (← ev'.expression right scope).truthy) ρ.value := by
    refine .bind (hev.expression hright (lawful.reads_later go₁.later hscope)) fun _ _ _ _ => ?_
    exact .pure (lawful.plain rfl)
  dsimp only
  split
  · split
    · exact .pure (lawful.plain rfl)
    · exact hsecond
  · split
    · exact hsecond
    · exact .pure (lawful.plain rfl)
  · exact .failAt

/-- Stores in a variable or through an access, and gives the value stored. -/
theorem assign (hev : Obeys ρ i ev ev') (lawful : ρ.Lawful) {name : Token} {value : Expr}
    {access : Option Access} (he : AllBind ρ.name (Expr.assign name value access).nodes)
    (hscope : ρ.reads i h scope) :
    Follows ρ.toCourse σ h (ev.assign name value access scope) (ev'.assign name value access scope)
      ρ.value := by
  obtain ⟨hself, he⟩ := List.forall_mem_cons.mp he
  obtain ⟨hvalue, haccess⟩ := List.forall_mem_append.mp he
  unfold Evaluator.assign
  refine .bind (hev.expression hvalue hscope) fun h₁ v go₁ hv => ?_
  have hscope₁ := lawful.reads_later go₁.later hscope
  cases access with
  | some a =>
      refine .bind (hev.store lawful haccess hscope₁ hv) fun h₂ _ go₂ _ => ?_
      exact .pure (lawful.value_later go₂.later hv)
  | none =>
      have hname : ρ.name name.lexeme := hself _ List.mem_cons_self
      refine .bind (Q := fun _ _ => True) (.blame name (.attempt (fun hh => ?_) fun _ _ => trivial))
        fun h₂ _ go₂ _ => .pure (lawful.value_later go₂.later hv)
      exact lawful.assign hh hscope₁ hname hv

/-- The object is kept while the value is evaluated and is then what the property is set of. -/
theorem set (hev : Obeys ρ i ev ev') (lawful : ρ.Lawful) {object value : Expr} {name : Token}
    {access : Option Access} (he : AllBind ρ.name (Expr.set object name value access).nodes)
    (hscope : ρ.reads i h scope) :
    Follows ρ.toCourse σ h (ev.set object name value access scope)
      (ev'.set object name value access scope) ρ.value := by
  obtain ⟨-, he⟩ := List.forall_mem_cons.mp he
  obtain ⟨hobject, he⟩ := List.forall_mem_append.mp he
  obtain ⟨hvalue, haccess⟩ := List.forall_mem_append.mp he
  unfold Evaluator.set
  refine .bind (hev.expression hobject hscope) fun h₁ o go₁ ho => ?_
  have hscope₁ := lawful.reads_later go₁.later hscope
  split
  · exact .failAt
  · refine .bind (hev.expression hvalue hscope₁) fun h₂ v go₂ hv => ?_
    have hscope₂ := lawful.reads_later go₂.later hscope₁
    have hreturn : ∀ h₃, ρ.Goes h₂ h₃ →
        Follows ρ.toCourse σ h₃ (pure v : Step RuntimeError Value) (pure v) ρ.value :=
      fun _ go => .pure (lawful.value_later go.later hv)
    cases access with
    | some a =>
        exact .bind (hev.store lawful haccess hscope₂ hv) fun h₃ _ go₃ _ => hreturn h₃ go₃
    | none =>
        exact .bind (follows_setProperty lawful (lawful.value_later go₂.later ho) hv name)
          fun h₃ _ go₃ _ => hreturn h₃ go₃

/-- Parentheses go on with the same evaluator, so the step is taken for the inner expression. -/
theorem expressionStep (hev : Obeys ρ i ev ev') (lawful : ρ.Lawful)
    (hscope : ρ.reads i h scope) : ∀ {e : Expr}, AllBind ρ.name e.nodes →
      Follows ρ.toCourse σ h (ev.expressionStep e scope) (ev'.expressionStep e scope) ρ.value
  | .grouping inner, he => by
      rw [Evaluator.expressionStep, Evaluator.expressionStep]
      exact expressionStep hev lawful hscope (List.forall_mem_cons.mp he).2
  | .list elements bracket, he =>
      .bind (hev.values lawful (List.forall_mem_cons.mp he).2 hscope) fun _ vs _ hvs =>
        .allocate fun hh => lawful.newList hh hvs
  | .dict entries brace, he => by
      refine .bind (hev.entries lawful (List.forall_mem_cons.mp he).2 hscope) fun h₁ es _ hes => ?_
      refine .bind (Q := fun h' d => d.All (ρ.value h') ∧ ρ.dict d)
        (.blame brace (.ofExcept fun d hd => ⟨.ofEntries hes hd, lawful.dict_ofEntries hd⟩))
        fun _ d _ hd => ?_
      exact .allocate fun hh => lawful.newDict hh hd.1 hd.2
  | .assign name value access, he => hev.assign lawful he hscope
  | .access a, he => hev.read lawful (List.forall_mem_cons.mp he).2 hscope
  | .binary left operator right, he => by
      obtain ⟨hleft, hright⟩ := List.forall_mem_append.mp (List.forall_mem_cons.mp he).2
      exact hev.binary lawful hleft hright operator hscope
  | .call callee paren arguments, he => by
      obtain ⟨hcallee, harguments⟩ := List.forall_mem_append.mp (List.forall_mem_cons.mp he).2
      refine .bind (hev.expression hcallee hscope) fun h₁ f go₁ hf => ?_
      refine .bind (hev.values lawful harguments (lawful.reads_later go₁.later hscope))
        fun h₂ vs go₂ hvs => ?_
      exact hev.callValue lawful (lawful.value_later go₂.later hf) hvs paren
  | .get object name, he =>
      .bind (hev.expression (List.forall_mem_cons.mp he).2 hscope) fun _ o _ ho =>
        follows_property lawful ho name
  | .set object name value access, he => hev.set lawful he hscope
  | .super keyword method, _ => follows_superMethod lawful hscope keyword method
  | .literal c, _ => .pure (lawful.plain c.isPlain_value)
  | .logical left operator right, he => by
      obtain ⟨hleft, hright⟩ := List.forall_mem_append.mp (List.forall_mem_cons.mp he).2
      exact hev.logical lawful hleft hright operator hscope
  | .this keyword, _ => follows_meaning lawful hscope "this" keyword
  | .unary operator operand, he =>
      hev.unary lawful (List.forall_mem_cons.mp he).2 operator hscope
  | .var name, _ => follows_meaning lawful hscope name.lexeme name
  | .function d, he => follows_closure lawful hscope (List.forall_mem_cons.mp he).2

/-! ## Statements -/

theorem optional (hev : Obeys ρ i ev ev') (lawful : ρ.Lawful) {e : Option Expr}
    (he : AllBind ρ.name (nodes? e)) (hscope : ρ.reads i h scope) :
    Follows ρ.toCourse σ h (ev.optional e scope) (ev'.optional e scope) ρ.value := by
  cases e with
  | some e => exact hev.expression he hscope
  | none => exact .pure (lawful.plain rfl)

/-- Branches, by induction on those that are left, in the heap that the conditions leave. -/
theorem branches (hev : Obeys ρ i ev ev') (lawful : ρ.Lawful) {elseBranch : Option (List Stmt)}
    {elifs : List ElifBranch} (helse : AllBind ρ.name (nodesElse elseBranch))
    (helifs : AllBind ρ.name (nodesElifs elifs)) (hscope : ρ.binds i h scope) :
    Follows ρ.toCourse σ h (ev.branches elseBranch scope elifs)
      (ev'.branches elseBranch scope elifs) ρ.flow := by
  induction elifs generalizing h with
  | nil =>
      cases elseBranch with
      | some ss => exact hev.statements lawful (List.forall_mem_cons.mp helse).2 hscope
      | none => exact .pure trivial
  | cons branch rest ih =>
      cases branch with
      | mk condition body =>
      obtain ⟨hcondition, helifs⟩ := List.forall_mem_append.mp helifs
      obtain ⟨hbody, hrest⟩ := List.forall_mem_append.mp (List.forall_mem_cons.mp helifs).2
      refine .bind (hev.expression hcondition (lawful.reads_of_binds hscope)) fun h₁ v go₁ _ => ?_
      have hscope₁ := lawful.binds_later go₁.later hscope
      split
      · exact hev.statements lawful hbody hscope₁
      · exact ih hrest hscope₁

/-- A loop. Each round starts from the heap that the round before has left, so its parts have to
    follow from all later heaps. -/
theorem follows_loop {condition condition' : Step RuntimeError Value}
    {body body' : Step RuntimeError Flow} {after after' : Step RuntimeError Unit}
    (hcondition : ∀ h', ρ.Goes h h' → Follows ρ.toCourse σ h' condition condition' ρ.value)
    (hbody : ∀ h', ρ.Goes h h' → Follows ρ.toCourse σ h' body body' ρ.flow)
    (hafter : ∀ h', ρ.Goes h h' → Follows ρ.toCourse σ h' after after' fun _ _ => True) (n : Nat) :
    Follows ρ.toCourse σ h (Evaluator.loop condition body after n)
      (Evaluator.loop condition' body' after' n) ρ.flow := by
  induction n generalizing h with
  | zero => exact .exhausted
  | succ n ih =>
      refine .of_sound fun hh => ?_
      refine .bind (hcondition h (.refl hh)) fun h₁ v go₁ _ => ?_
      split
      · refine .bind (hbody h₁ go₁) fun h₂ flow go₂ hflow => ?_
        have go : ρ.Goes h h₂ := go₁.trans go₂
        have hnext : Follows ρ.toCourse σ h₂
            (do after; Evaluator.loop condition body after n)
            (do after'; Evaluator.loop condition' body' after' n) ρ.flow := by
          refine .bind (hafter h₂ go) fun h₃ _ go₃ _ => ih (fun h' go' => ?_) (fun h' go' => ?_) ?_
          · exact hcondition h' (go.trans (go₃.trans go'))
          · exact hbody h' (go.trans (go₃.trans go'))
          · exact fun h' go' => hafter h' (go.trans (go₃.trans go'))
        cases flow with
        | returned v => exact .pure hflow
        | broke => exact .pure trivial
        | run => exact hnext
        | continued => exact hnext
      · exact .pure trivial

/-- A round binds the names in the scope of the loop and runs the body there. The rows were read
    before the loop and are still values. -/
theorem eachRow (hev : Obeys ρ i ev ev') (lawful : ρ.Lawful) {names : List String} {body : Stmt}
    (hnames : ∀ x ∈ names, ρ.name x) (hbody : AllBind ρ.name body.nodes)
    {rows : List (List Value)} (hrows : ∀ row ∈ rows, ∀ v ∈ row, ρ.value h v)
    (hscope : ρ.binds i h scope) :
    Follows ρ.toCourse σ h (ev.eachRow names body scope rows)
      (ev'.eachRow names body scope rows) ρ.flow := by
  induction rows generalizing h with
  | nil => exact .pure trivial
  | cons row rest ih =>
      obtain ⟨hrow, hrest⟩ := List.forall_mem_cons.mp hrows
      refine .bind (.change (Q := fun h' _ => ρ.binds i h' scope)
        (fun hh => lawful.declareZip hh hscope hnames hrow)
        fun go => lawful.binds_later go.later hscope) fun h₁ _ go₁ hscope₁ => ?_
      refine .bind (hev.statementHere hbody hscope₁) fun h₂ flow go₂ hflow => ?_
      have hnext := ih
        (fun row hrow v hv => lawful.value_later (go₁.trans go₂).later (hrest row hrow v hv))
        (lawful.binds_later go₂.later hscope₁)
      cases flow with
      | returned v => exact .pure hflow
      | broke => exact .pure trivial
      | run => exact hnext
      | continued => exact hnext

/-- A block declares nothing in the scope around it, which only has to be looked up in. -/
theorem block (hev : Obeys ρ i ev ev') (lawful : ρ.Lawful) {ss : List Stmt}
    (hss : AllBind ρ.name (nodesLines ss)) (hscope : ρ.reads i h scope) :
    Follows ρ.toCourse σ h (ev.statementStep (.block ss) scope)
      (ev'.statementStep (.block ss) scope) ρ.flow :=
  .bind (.allocate fun hh => lawful.newScope hh hscope)
    fun _ _ _ hinner => hev.statements lawful hss hinner

/-- One case for each kind of statement. A block and the handler of an error run in a new scope,
    declarations in the scope itself. -/
theorem statementStep (hev : Obeys ρ i ev ev') (lawful : ρ.Lawful) {s : Stmt}
    (hs : AllBind ρ.name s.nodes) (hscope : ρ.binds i h scope) :
    Follows ρ.toCourse σ h (ev.statementStep s scope) (ev'.statementStep s scope) ρ.flow := by
  have hreads := lawful.reads_of_binds hscope
  -- The parts of a loop, from any heap that comes later.
  have hcondition : ∀ {e : Expr}, AllBind ρ.name e.nodes → ∀ {h₀ σ}, ρ.Goes h h₀ →
      ∀ h₁, ρ.Goes h₀ h₁ →
        Follows ρ.toCourse σ h₁ (ev.expression e scope) (ev'.expression e scope) ρ.value :=
    fun he _ _ go₀ _ go => hev.expression he (lawful.reads_later (go₀.trans go).later hreads)
  have hbody : ∀ {s : Stmt}, AllBind ρ.name s.nodes → ∀ {h₀ σ}, ρ.Goes h h₀ →
      ∀ h₁, ρ.Goes h₀ h₁ →
        Follows ρ.toCourse σ h₁ (ev.statement s scope) (ev'.statement s scope) ρ.flow :=
    fun hs _ _ go₀ _ go => hev.statementHere hs (lawful.binds_later (go₀.trans go).later hscope)
  refine .of_sound fun hh => ?_
  cases s with
  | expr e =>
      exact .bind (hev.expression (List.forall_mem_cons.mp hs).2 hreads) fun _ _ _ _ => .pure trivial
  | tryCatch body name handler =>
      obtain ⟨hself, hs⟩ := List.forall_mem_cons.mp hs
      obtain ⟨htry, hhandler⟩ := List.forall_mem_append.mp hs
      have hname : ρ.name name.lexeme := hself _ List.mem_cons_self
      refine .rescue (hev.statementHere htry hscope) fun h₁ e go₁ => ?_
      refine .bind (.allocate fun hh => lawful.newScope hh (lawful.reads_later go₁.later hreads))
        fun h₂ inner _ hinner => ?_
      refine .bind (.change (Q := fun h' _ => ρ.binds i h' inner)
        (fun hh => lawful.declare hh hinner hname (lawful.plain rfl))
        fun go => lawful.binds_later go.later hinner) fun h₃ _ _ hinner₃ => ?_
      exact hev.statementHere hhandler hinner₃
  | forLoop keyword initializer condition increment body =>
      obtain ⟨-, hs⟩ := List.forall_mem_cons.mp hs
      obtain ⟨hinitializer, hs⟩ := List.forall_mem_append.mp hs
      obtain ⟨hc, hs⟩ := List.forall_mem_append.mp hs
      obtain ⟨hi, hb⟩ := List.forall_mem_append.mp hs
      have hloop : ∀ h₁, ρ.Goes h h₁ → Follows ρ.toCourse σ h₁
          (Step.inLoop (Evaluator.loop (ev.expression condition scope) (ev.statement body scope)
            (do let _ ← ev.expression increment scope; return ()) ev.rounds))
          (Step.inLoop (Evaluator.loop (ev'.expression condition scope) (ev'.statement body scope)
            (do let _ ← ev'.expression increment scope; return ()) ev'.rounds)) ρ.flow := by
        intro h₁ go₁
        rw [hev.rounds]
        refine .inLoop (follows_loop (hcondition hc go₁) (hbody hb go₁) (fun h₂ go₂ => ?_) _)
        exact .bind (hcondition hi go₁ h₂ go₂) fun _ _ _ _ => .pure trivial
      cases initializer with
      | some s => exact .bind (hev.statementHere hinitializer hscope) fun h₁ _ go₁ _ => hloop h₁ go₁
      | none => exact hloop h (.refl hh)
  | forIn keyword identifiers collection body =>
      obtain ⟨hself, hs⟩ := List.forall_mem_cons.mp hs
      obtain ⟨hcollection, hb⟩ := List.forall_mem_append.mp hs
      refine .bind (hev.expression hcollection hreads) fun h₁ c go₁ hc => ?_
      refine .of_sound fun hh₁ => .inspect ?_
      refine .bind (Q := fun h' rows => ∀ row ∈ rows, ∀ v ∈ row, ρ.value h' v)
        (.blame keyword (.ofExcept fun rows hrows => ?_)) fun h₂ rows go₂ hrows => ?_
      · exact Heap.rows_all (fun hr => lawful.elements hh₁ hr) (fun hr => lawful.entries hh₁ hr) hc
          hrows
      · have hreads₂ := lawful.reads_later (go₁.trans go₂).later hreads
        refine .bind (.allocate fun hh => lawful.newScope hh hreads₂) fun h₃ inner go₃ hinner => ?_
        refine .inLoop (hev.eachRow lawful hself hb (fun row hrow v hv => ?_) hinner)
        exact lawful.value_later go₃.later (hrows row hrow v hv)
  | declare name initializer =>
      obtain ⟨hself, hs⟩ := List.forall_mem_cons.mp hs
      refine .bind (hev.optional lawful hs hreads) fun h₁ v go₁ hv => ?_
      exact follows_declare lawful (lawful.binds_later go₁.later hscope)
        (hself _ List.mem_cons_self) hv
  | block ss =>
      have hss := (List.forall_mem_cons.mp (List.forall_mem_cons.mp hs).2).2
      exact hev.block lawful hss hreads
  | whileLoop keyword condition body =>
      obtain ⟨-, hs⟩ := List.forall_mem_cons.mp hs
      obtain ⟨hc, hb⟩ := List.forall_mem_append.mp hs
      have go : ρ.Goes h h := .refl hh
      unfold Evaluator.statementStep
      rw [hev.rounds]
      exact .inLoop (follows_loop (hcondition hc go) (hbody hb go) (fun _ _ => .pure trivial) _)
  | ret keyword value =>
      exact .bind (hev.optional lawful (List.forall_mem_cons.mp hs).2 hreads)
        fun _ _ _ hv => .pure hv
  | breakLoop keyword => exact follows_leaveRound keyword trivial
  | continueLoop keyword => exact follows_leaveRound keyword trivial
  | ifElse keyword condition thenBranch elifs elseBranch =>
      obtain ⟨-, hs⟩ := List.forall_mem_cons.mp hs
      obtain ⟨hc, hs⟩ := List.forall_mem_append.mp hs
      obtain ⟨-, hs⟩ := List.forall_mem_cons.mp hs
      obtain ⟨hthen, hs⟩ := List.forall_mem_append.mp hs
      obtain ⟨helifs, helse⟩ := List.forall_mem_append.mp hs
      refine .bind (hev.expression hc hreads) fun h₁ v go₁ _ => ?_
      have hscope₁ := lawful.binds_later go₁.later hscope
      split
      · exact hev.statements lawful hthen hscope₁
      · exact hev.branches lawful helse helifs hscope₁
  | function d =>
      obtain ⟨-, hd⟩ := List.forall_mem_cons.mp hs
      refine .bind (follows_closure lawful hreads hd) fun h₁ v go₁ hv => ?_
      exact follows_declare lawful (lawful.binds_later go₁.later hscope) (allBind_function hd).1 hv
  | cls c => exact follows_declareClass lawful hscope (List.forall_mem_cons.mp hs).2

theorem bodyStep (hev : Obeys ρ i ev ev') (lawful : ρ.Lawful) {b : FunctionBody}
    (hb : AllBind ρ.name b.nodes) (hscope : ρ.binds i h scope) :
    Follows ρ.toCourse σ h (ev.bodyStep b scope) (ev'.bodyStep b scope) ρ.flow := by
  cases b with
  | block ss => exact hev.statements lawful (List.forall_mem_cons.mp hb).2 hscope
  | expression e =>
      exact .bind (hev.expression hb (lawful.reads_of_binds hscope)) fun _ _ _ hv => .pure hv

end Obeys

/-! ## Closing the pass over the fuel -/

/-- The evaluator keeps to every lawful discipline, at every place. -/
theorem obeys_withFuel (lawful : ρ.Lawful) (limit fuel : Nat) (i : ρ.Place) :
    Obeys ρ i (.withFuel limit fuel) (.withFuel limit fuel) := by
  induction fuel generalizing i with
  | zero => exact ⟨rfl, rfl, fun _ _ _ => .exhausted, fun _ _ => .exhausted, fun _ _ _ => .exhausted⟩
  | succ fuel ih =>
      refine ⟨rfl, rfl, ?_, ?_, ?_⟩
      · intro j σ h s scope _ hs hscope
        rw [withFuel_statement]
        exact (ih j).statementStep lawful hs hscope
      · intro σ h e scope he hscope
        rw [withFuel_expression]
        exact (ih i).expressionStep lawful hscope he
      · intro j σ h b scope hb hscope _
        rw [withFuel_body]
        exact (ih j).bodyStep lawful hb hscope

end Evaluator

end Script
