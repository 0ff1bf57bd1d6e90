import Script.Eval
import Script.Proofs.Evaluation.Course
import Script.Proofs.Heap.Contents
import Script.Proofs.Tree.Nodes

/-!
# `Proofs.Evaluation.Discipline` — what a program may do with the heap

A *discipline* is a course with conditions on what a program handles: the values it computes, the
functions it calls, the scopes in which it looks names up and those in which it declares them. All
conditions are relative to a heap. `Discipline.Lawful` has one law for each operation on the heap:
what the operation needs, that the heap then takes its course, and what can be said of the outcome.

The text of a program is evaluated at a *place*. The parts of a node are at the place of the node,
and a block opens a scope at the place of the scope around it; the body of a function that is called
has a place of its own. What places are is up to the discipline.

Where a program may handle anything, most laws say nothing; what is left of them is asked by
`Discipline.Liberal`.

`Proofs.Evaluation.Obedience` shows that the evaluator keeps to every lawful discipline, so that a
property of all runs is shown by giving a discipline for it.
-/

namespace Script

/-- A course with conditions on what a program handles. -/
structure Discipline extends Course where
  /-- Where text is evaluated. -/
  Place : Type
  /-- Values that a program may have. -/
  value : Heap → Value → Prop
  /-- Functions that may be made. -/
  makeable : Heap → Function → Prop
  /-- Functions that may be called. -/
  callable : Heap → Function → Prop
  /-- Scopes in which the body of a function may be run. -/
  runs : Heap → FunctionBody → Ref .scope → Prop
  /-- Methods that may be bound to an instance. -/
  bindable : Heap → Function → Prop
  /-- Scopes at a place in which names are looked up. -/
  reads : Place → Heap → Ref .scope → Prop
  /-- Scopes at a place in which names are declared. -/
  binds : Place → Heap → Ref .scope → Prop
  /-- Scopes in which the methods of a class are made, given the class above it. -/
  home : Heap → Option (Ref .cls) → Ref .scope → Prop
  /-- Methods of a class, given the class above it. -/
  method : Heap → Option (Ref .cls) → Ref .function → Prop
  /-- Names that the text of a program declares and assigns to. -/
  name : String → Prop
  /-- What dictionaries may be like, whatever is in them. -/
  dict : Dict → Prop

namespace Heap

/-- A new scope in which `super` is a class. -/
def newMethodScope (h : Heap) (c : Ref .cls) (scope : Ref .scope) : Ref .scope × Heap :=
  let (inner, h) := h.newScope (some scope)
  (inner, h.declare inner "super" (.cls c))

/-- Each function of a table has its name in the table as its title. The function that is named
    `init` is an initializer, and no other is. -/
def Titled (h : Heap) (table : Bindings (Ref .function)) : Prop :=
  ∀ name g, table.get? name = some g → ∃ f, h.functions.get? g = some f
    ∧ f.declaration.title = name ∧ f.isInitializer = (name == "init")

end Heap

namespace Discipline

/-- The laws of a discipline. -/
structure Lawful (ρ : Discipline) : Prop where
  -- What holds of a heap holds of later ones.
  value_later : ∀ {h h' v}, ρ.later h h' → ρ.value h v → ρ.value h' v
  reads_later : ∀ {i h h' s}, ρ.later h h' → ρ.reads i h s → ρ.reads i h' s
  binds_later : ∀ {i h h' s}, ρ.later h h' → ρ.binds i h s → ρ.binds i h' s
  home_later : ∀ {h h' above s}, ρ.later h h' → ρ.home h above s → ρ.home h' above s
  method_later : ∀ {h h' above r}, ρ.later h h' → ρ.method h above r → ρ.method h' above r
  callable_later : ∀ {h h' f}, ρ.later h h' → ρ.callable h f → ρ.callable h' f
  runs_later : ∀ {h h' b s}, ρ.later h h' → ρ.runs h b s → ρ.runs h' b s
  -- What needs no looking up.
  plain : ∀ {h v}, v.isPlain = true → ρ.value h v
  reads_of_binds : ∀ {i h s}, ρ.binds i h s → ρ.reads i h s
  home_of_reads : ∀ {i h s}, ρ.reads i h s → ρ.home h none s
  makeable_of_reads : ∀ {i h s d}, ρ.reads i h s → AllBind ρ.name d.nodes →
    ρ.makeable h ⟨d, s, false⟩
  makeable_of_home : ∀ {h above s d}, ρ.home h above s → AllBind ρ.name d.nodes →
    ρ.makeable h ⟨d, s, false⟩
  makeable_of_callable : ∀ {h f}, ρ.callable h f → ρ.makeable h f
  binds_text : ∀ {h f}, ρ.callable h f → AllBind ρ.name f.declaration.nodes
  globals : ∀ x ∈ ["io", "strings", "env", "type", "import"], ρ.name x
  modules : ∀ {source program}, compile source = .ok program → AllBind ρ.name (nodesLines program)
  dict_ofEntries : ∀ {es d}, Dict.ofEntries es = .ok d → ρ.dict d
  dict_union : ∀ {a b}, ρ.dict a → ρ.dict b → ρ.dict (a.union b)
  -- Reading.
  lookup : ∀ {i h s name v}, ρ.sound h → ρ.reads i h s → h.lookup s name = some v → ρ.value h v
  bindings : ∀ {i h s}, ρ.sound h → ρ.reads i h s → ∀ p ∈ h.bindings s, ρ.value h p.2
  elements : ∀ {h r}, ρ.sound h → ρ.value h (.list r) → ∀ v ∈ (h.elements r).toList, ρ.value h v
  entries : ∀ {h r}, ρ.sound h → ρ.value h (.dict r) → (h.dictionary r).All (ρ.value h)
  dictionary : ∀ {h r}, ρ.sound h → ρ.value h (.dict r) → ρ.dict (h.dictionary r)
  field : ∀ {h r name v}, ρ.sound h → ρ.value h (.inst r) → h.field? r name = some v → ρ.value h v
  instanceMethod : ∀ {h r name f}, ρ.sound h → ρ.value h (.inst r) →
    h.instanceMethod? r name = some f → ρ.bindable h f
  classMethod : ∀ {h c name f}, ρ.sound h → ρ.value h (.cls c) → h.method? c name = some f →
    ρ.bindable h f
  staticMethod : ∀ {h c name r}, ρ.sound h → ρ.value h (.cls c) →
    h.staticMethod? c name = some r → ρ.value h (.function r)
  function : ∀ {h r f}, ρ.sound h → ρ.value h (.function r) → h.functions.get? r = some f →
    ρ.callable h f
  receiver : ∀ {h f v}, ρ.sound h → ρ.callable h f → h.lookup f.closure "this" = some v →
    ρ.value h v
  member : ∀ {h r name v}, ρ.sound h → ρ.value h (.host r) → h.member? r name = some v →
    ρ.value h v
  hostOperator : ∀ {h r op f}, ρ.sound h → ρ.value h (.host r) → h.hostOperator? r op = some f →
    ρ.value h (.builtin f)
  -- Making.
  newScope : ∀ {i h s}, ρ.sound h → ρ.reads i h s →
    ρ.Makes h (h.newScope (some s)) (ρ.binds i)
  newCall : ∀ {h f}, ρ.sound h → ρ.callable h f →
    ρ.Makes h (h.newScope (some f.closure)) fun h' s =>
      (∃ i, ρ.binds i h' s) ∧ ρ.runs h' f.declaration.body s
  newOutermost : ∀ {h}, ρ.sound h → ρ.Makes h (h.newScope none) fun h' s => ∃ i, ρ.binds i h' s
  newMethodScope : ∀ {i h s c}, ρ.sound h → ρ.reads i h s → ρ.value h (.cls c) →
    ρ.Makes h (h.newMethodScope c s) fun h' => ρ.home h' (some c)
  newBuiltin : ∀ {h b}, ρ.sound h →
    ρ.Makes h (h.newBuiltin b) fun h' r => ρ.value h' (.builtin r)
  newHost : ∀ {h o}, ρ.sound h → o.members.All (ρ.value h) → o.operators = [] →
    ρ.Makes h (h.newHost o) fun h' r => ρ.value h' (.host r)
  newList : ∀ {h vs}, ρ.sound h → (∀ v ∈ vs.toList, ρ.value h v) →
    ρ.Makes h (h.newList vs) ρ.value
  newDict : ∀ {h d}, ρ.sound h → d.All (ρ.value h) → ρ.dict d → ρ.Makes h (h.newDict d) ρ.value
  newFunction : ∀ {h f}, ρ.sound h → ρ.makeable h f →
    ρ.Makes h (h.newFunction f) fun h' r => ρ.value h' (.function r)
  newMethod : ∀ {h above s d b}, ρ.sound h → ρ.home h above s → AllBind ρ.name d.nodes →
    ρ.Makes h (h.newFunction ⟨d, s, b⟩) fun h' => ρ.method h' above
  newClass : ∀ {h cls}, ρ.sound h → (∀ c ∈ cls.superClass, ρ.value h (.cls c)) →
    cls.methods.All (ρ.method h cls.superClass) →
    cls.staticMethods.All (fun r => ρ.value h (.function r)) → h.Titled cls.methods →
    ρ.Makes h (h.newClass cls) fun h' r => ρ.value h' (.cls r)
  newInstance : ∀ {h c}, ρ.sound h → ρ.value h (.cls c) →
    ρ.Makes h (h.newInstance c) fun h' r => ρ.value h' (.inst r)
  bind : ∀ {h f r}, ρ.sound h → ρ.bindable h f → ρ.value h (.inst r) →
    ρ.Makes h (h.bind f r) ρ.callable
  -- Changing.
  declare : ∀ {i h s name v}, ρ.sound h → ρ.binds i h s → ρ.name name → ρ.value h v →
    ρ.Goes h (h.declare s name v)
  assign : ∀ {i h s name v}, ρ.sound h → ρ.reads i h s → ρ.name name → ρ.value h v →
    ρ.Goes h (h.assign s name v).2
  setElement : ∀ {h r position v}, ρ.sound h → ρ.value h (.list r) → ρ.value h v →
    ρ.Goes h (h.setElement r position v).2
  insertEntry : ∀ {h r k v}, ρ.sound h → ρ.value h (.dict r) → ρ.value h k → ρ.value h v →
    ρ.Goes h (h.insertEntry r k v).2
  setField : ∀ {h r name v}, ρ.sound h → ρ.value h (.inst r) → ρ.value h v →
    ρ.Goes h (h.setField r name v)
  setMember : ∀ {h r name v}, ρ.sound h → ρ.value h (.host r) → ρ.value h v →
    ρ.Goes h (h.setMember r name v).2

/-- The laws of a discipline under which a program may handle anything and use any name. What is
    left to it are the heap, the scopes in which names are declared and what dictionaries are
    like. -/
structure Liberal (ρ : Discipline) : Prop where
  place : Nonempty ρ.Place
  value : ∀ h v, ρ.value h v := by intros; trivial
  makeable : ∀ h f, ρ.makeable h f := by intros; trivial
  callable : ∀ h f, ρ.callable h f := by intros; trivial
  runs : ∀ h b s, ρ.runs h b s := by intros; trivial
  bindable : ∀ h f, ρ.bindable h f := by intros; trivial
  reads : ∀ i h s, ρ.reads i h s := by intros; trivial
  home : ∀ h above s, ρ.home h above s := by intros; trivial
  method : ∀ h above r, ρ.method h above r := by intros; trivial
  name : ∀ x, ρ.name x := by intros; trivial
  binds_later : ∀ {i h h' s}, ρ.later h h' → ρ.binds i h s → ρ.binds i h' s := by intros; trivial
  dict_ofEntries : ∀ {es d}, Dict.ofEntries es = .ok d → ρ.dict d := by intros; trivial
  dict_union : ∀ {a b}, ρ.dict a → ρ.dict b → ρ.dict (a.union b) := by intros; trivial
  dictionary : ∀ {h} r, ρ.sound h → ρ.dict (h.dictionary r) := by intros; trivial
  newScope : ∀ {h} i parent, ρ.sound h → ρ.Makes h (h.newScope parent) (ρ.binds i)
  newBuiltin : ∀ {h} b, ρ.sound h → ρ.Goes h (h.newBuiltin b).2
  newHost : ∀ {h} o, ρ.sound h → ρ.Goes h (h.newHost o).2
  newList : ∀ {h} vs, ρ.sound h → ρ.Goes h (h.newList vs).2
  newDict : ∀ {h d}, ρ.sound h → ρ.dict d → ρ.Goes h (h.newDict d).2
  newFunction : ∀ {h} f, ρ.sound h → ρ.Goes h (h.newFunction f).2
  newClass : ∀ {h} cls, ρ.sound h → ρ.Goes h (h.newClass cls).2
  newInstance : ∀ {h} c, ρ.sound h → ρ.Goes h (h.newInstance c).2
  declare : ∀ {i h s} name v, ρ.sound h → ρ.binds i h s → ρ.Goes h (h.declare s name v)
  assign : ∀ {h} s name v, ρ.sound h → ρ.Goes h (h.assign s name v).2
  setElement : ∀ {h} r position v, ρ.sound h → ρ.Goes h (h.setElement r position v).2
  insertEntry : ∀ {h} r k v, ρ.sound h → ρ.Goes h (h.insertEntry r k v).2
  setField : ∀ {h} r name v, ρ.sound h → ρ.Goes h (h.setField r name v)
  setMember : ∀ {h} r name v, ρ.sound h → ρ.Goes h (h.setMember r name v).2

variable {ρ : Discipline} {h : Heap}

/-- A new scope with one name in it. -/
theorem Liberal.newScope_declare (liberal : ρ.Liberal) (hh : ρ.sound h) (s : Ref .scope)
    (name : String) (v : Value) :
    ρ.Goes h ((h.newScope (some s)).2.declare (h.newScope (some s)).1 name v) := by
  obtain ⟨i⟩ := liberal.place
  obtain ⟨go, hinner⟩ := liberal.newScope i (some s) hh
  exact go.trans (liberal.declare name v go.sound hinner)

theorem Liberal.lawful (liberal : ρ.Liberal) : ρ.Lawful where
  value_later _ _ := liberal.value _ _
  reads_later _ _ := liberal.reads _ _ _
  binds_later := liberal.binds_later
  home_later _ _ := liberal.home _ _ _
  method_later _ _ := liberal.method _ _ _
  callable_later _ _ := liberal.callable _ _
  runs_later _ _ := liberal.runs _ _ _
  plain _ := liberal.value _ _
  reads_of_binds _ := liberal.reads _ _ _
  home_of_reads _ := liberal.home _ _ _
  makeable_of_reads _ _ := liberal.makeable _ _
  makeable_of_home _ _ := liberal.makeable _ _
  makeable_of_callable _ := liberal.makeable _ _
  binds_text _ _ _ _ _ := liberal.name _
  globals _ _ := liberal.name _
  modules _ _ _ _ _ := liberal.name _
  dict_ofEntries := liberal.dict_ofEntries
  dict_union := liberal.dict_union
  lookup _ _ _ := liberal.value _ _
  bindings _ _ _ _ := liberal.value _ _
  elements _ _ _ _ := liberal.value _ _
  entries _ _ _ _ := ⟨liberal.value _ _, liberal.value _ _⟩
  dictionary hh _ := liberal.dictionary _ hh
  field _ _ _ := liberal.value _ _
  instanceMethod _ _ _ := liberal.bindable _ _
  classMethod _ _ _ := liberal.bindable _ _
  staticMethod _ _ _ := liberal.value _ _
  function _ _ _ := liberal.callable _ _
  receiver _ _ _ := liberal.value _ _
  member _ _ _ := liberal.value _ _
  hostOperator _ _ _ := liberal.value _ _
  newScope hh _ := liberal.newScope _ _ hh
  newCall hh _ := liberal.place.elim fun i =>
    ⟨(liberal.newScope i _ hh).1, ⟨i, (liberal.newScope i _ hh).2⟩, liberal.runs _ _ _⟩
  newOutermost hh := liberal.place.elim fun i =>
    ⟨(liberal.newScope i none hh).1, i, (liberal.newScope i none hh).2⟩
  newMethodScope hh _ _ := ⟨liberal.newScope_declare hh _ _ _, liberal.home _ _ _⟩
  newBuiltin hh := ⟨liberal.newBuiltin _ hh, liberal.value _ _⟩
  newHost hh _ _ := ⟨liberal.newHost _ hh, liberal.value _ _⟩
  newList hh _ := ⟨liberal.newList _ hh, liberal.value _ _⟩
  newDict hh _ hd := ⟨liberal.newDict hh hd, liberal.value _ _⟩
  newFunction hh _ := ⟨liberal.newFunction _ hh, liberal.value _ _⟩
  newMethod hh _ _ := ⟨liberal.newFunction _ hh, liberal.method _ _ _⟩
  newClass hh _ _ _ _ := ⟨liberal.newClass _ hh, liberal.value _ _⟩
  newInstance hh _ := ⟨liberal.newInstance _ hh, liberal.value _ _⟩
  bind hh _ _ := ⟨liberal.newScope_declare hh _ _ _, liberal.callable _ _⟩
  declare hh hs _ _ := liberal.declare _ _ hh hs
  assign hh _ _ _ := liberal.assign _ _ _ hh
  setElement hh _ _ := liberal.setElement _ _ _ hh
  insertEntry hh _ _ _ := liberal.insertEntry _ _ _ hh
  setField hh _ _ := liberal.setField _ _ _ hh
  setMember hh _ _ := liberal.setMember _ _ _ hh

/-! ## Operations made of others -/

theorem Lawful.declareAll (lawful : ρ.Lawful) {i : ρ.Place} {s : Ref .scope}
    (pairs : List (String × Value)) (hh : ρ.sound h) (hs : ρ.binds i h s)
    (hnames : ∀ p ∈ pairs, ρ.name p.1) (hvalues : ∀ p ∈ pairs, ρ.value h p.2) :
    ρ.Goes h (h.declareAll s pairs) := by
  induction pairs generalizing h with
  | nil => exact .refl hh
  | cons p rest ih =>
      obtain ⟨hname, hnames⟩ := List.forall_mem_cons.mp hnames
      obtain ⟨hvalue, hvalues⟩ := List.forall_mem_cons.mp hvalues
      have hfirst : ρ.Goes h (h.declare s p.1 p.2) := lawful.declare hh hs hname hvalue
      refine hfirst.trans (ih hfirst.sound (lawful.binds_later hfirst.later hs) hnames ?_)
      exact fun q hq => lawful.value_later hfirst.later (hvalues q hq)

/-- The names of a row or of parameters, each with its value. -/
theorem Lawful.declareZip (lawful : ρ.Lawful) {i : ρ.Place} {s : Ref .scope} {names : List String}
    {vs : List Value} (hh : ρ.sound h) (hs : ρ.binds i h s) (hnames : ∀ x ∈ names, ρ.name x)
    (hvalues : ∀ v ∈ vs, ρ.value h v) : ρ.Goes h (h.declareAll s (names.zip vs)) :=
  lawful.declareAll _ hh hs (fun _ hp => hnames _ (List.of_mem_zip hp).1)
    fun _ hp => hvalues _ (List.of_mem_zip hp).2

theorem Lawful.boundMethod (lawful : ρ.Lawful) {f : Function} {r : Ref .inst} (hh : ρ.sound h)
    (hf : ρ.bindable h f) (hr : ρ.value h (.inst r)) :
    ρ.Makes h (h.boundMethod f r) ρ.value := by
  obtain ⟨hbound, hcallable⟩ := lawful.bind hh hf hr
  obtain ⟨hmade, hvalue⟩ :=
    lawful.newFunction hbound.sound (lawful.makeable_of_callable hcallable)
  exact ⟨hbound.trans hmade, hvalue⟩

/-- The members of a group are made one after the other, and then the group itself. -/
theorem Lawful.newGroup (lawful : ρ.Lawful) (hh : ρ.sound h) (members : List (String × Builtin)) :
    ρ.Makes h (h.newGroup members) ρ.value := by
  have hfold : ∀ (members : List (String × Builtin)) (table : Bindings Value) (h : Heap),
      ρ.sound h → table.All (ρ.value h) →
      ρ.Makes h (members.foldl (fun (acc : Bindings Value × Heap) (entry : String × Builtin) =>
        (acc.1.set entry.1 (Value.builtin (acc.2.newBuiltin entry.2).1),
          (acc.2.newBuiltin entry.2).2)) (table, h)) fun h' table => table.All (ρ.value h') := by
    intro members
    induction members with
    | nil => exact fun _ _ hh htable => ⟨.refl hh, htable⟩
    | cons entry rest ih =>
        intro table h hh htable
        obtain ⟨go₁, hbuiltin⟩ := lawful.newBuiltin (b := entry.2) hh
        have htable₁ := htable.mono fun _ hv => lawful.value_later go₁.later hv
        obtain ⟨go₂, htable₂⟩ := ih _ _ go₁.sound (htable₁.set entry.1 hbuiltin)
        exact ⟨go₁.trans go₂, htable₂⟩
  obtain ⟨go₁, htable⟩ := hfold members .empty h hh .empty
  obtain ⟨go₂, hhost⟩ := lawful.newHost (o := ⟨_, .sealed, []⟩) go₁.sound htable rfl
  exact ⟨go₁.trans go₂, hhost⟩

theorem Lawful.newProgramScope (lawful : ρ.Lawful) (hh : ρ.sound h) (script : Option String) :
    ρ.Makes h (h.newProgramScope script) fun h' s => ∃ i, ρ.binds i h' s := by
  obtain ⟨go₁, hio⟩ := lawful.newGroup hh Builtin.ioMembers
  obtain ⟨go₂, hstrings⟩ := lawful.newGroup go₁.sound Builtin.stringsMembers
  obtain ⟨go₃, henv⟩ := lawful.newGroup go₂.sound Builtin.envMembers
  obtain ⟨go₄, htype⟩ := lawful.newBuiltin (b := .typeOf) go₃.sound
  obtain ⟨go₅, himport⟩ := lawful.newBuiltin (b := .importModule script) go₄.sound
  obtain ⟨go₆, i, hglobals⟩ := lawful.newOutermost go₅.sound
  have go₄₆ := (go₄.trans go₅).trans go₆
  have go₇ := lawful.declareAll
    [("io", _), ("strings", _), ("env", _), ("type", _), ("import", _)] go₆.sound hglobals
    (fun _ hp => lawful.globals _ (List.mem_map_of_mem hp)) <| List.forall_mem_cons.mpr
    ⟨lawful.value_later ((go₂.trans go₃).trans go₄₆).later hio, List.forall_mem_cons.mpr
      ⟨lawful.value_later (go₃.trans go₄₆).later hstrings, List.forall_mem_cons.mpr
        ⟨lawful.value_later go₄₆.later henv, List.forall_mem_cons.mpr
          ⟨lawful.value_later (go₅.trans go₆).later htype, List.forall_mem_singleton.mpr
            (lawful.value_later go₆.later himport)⟩⟩⟩⟩
  have hglobals₇ := lawful.reads_of_binds (lawful.binds_later go₇.later hglobals)
  obtain ⟨go₈, hscope⟩ := lawful.newScope go₇.sound hglobals₇
  have go₁₃ := (go₁.trans go₂).trans go₃
  exact ⟨(go₁₃.trans go₄₆).trans (go₇.trans go₈), i, hscope⟩

/-- A module as an object, which has the names of the module's scope as its members. -/
theorem Lawful.newModule (lawful : ρ.Lawful) {i : ρ.Place} {s : Ref .scope} (hh : ρ.sound h)
    (hs : ρ.binds i h s) :
    ρ.Makes h (h.newHost ⟨⟨h.bindings s⟩, .sealed, []⟩) fun h' r => ρ.value h' (.host r) :=
  lawful.newHost hh (lawful.bindings hh (lawful.reads_of_binds hs)) rfl

/-! ## Operators -/

/-- What an operator comes to may be carried out. -/
def applied (ρ : Discipline) (h : Heap) : Applied → Prop
  | .value v => ρ.value h v
  | .newList vs => ∀ v ∈ vs.toList, ρ.value h v
  | .newDict d => d.All (ρ.value h) ∧ ρ.dict d
  | .method f r arguments =>
    ρ.bindable h f ∧ ρ.value h (.inst r) ∧ ∀ v ∈ arguments, ρ.value h v
  | .hosted f arguments => ρ.value h (.builtin f) ∧ ∀ v ∈ arguments, ρ.value h v

/-- What is left to do may be done. -/
def dispatch (ρ : Discipline) (h : Heap) : Dispatch → Prop
  | .resolved v => ρ.value h v
  | .call callee arguments => ρ.value h callee ∧ ∀ v ∈ arguments, ρ.value h v

namespace Lawful

variable {a : Applied} {op : Operator}

theorem comesTo (lawful : ρ.Lawful) (hh : ρ.sound h) {l : Value} {rs : List Value}
    (hl : ρ.value h l) (hrs : ∀ v ∈ rs, ρ.value h v) (ha : h.ComesTo op l rs a) :
    ρ.applied h a := by
  cases ha with
  | plain hv => exact lawful.plain hv
  | concatenation x y =>
      simp only [applied, Array.toList_append]
      exact List.forall_mem_append.mpr ⟨lawful.elements hh hl,
        lawful.elements hh (List.forall_mem_singleton.mp hrs)⟩
  | difference x y => exact fun v hv => lawful.elements hh hl v (mem_distinctBeyond hv).1
  | distinct x => exact fun v hv => lawful.elements hh hl v (mem_distinctBeyond hv).1
  | union x y =>
      have hr : ρ.value h (.dict y) := List.forall_mem_singleton.mp hrs
      exact ⟨(lawful.entries hh hl).union (lawful.entries hh hr),
        lawful.dict_union (lawful.dictionary hh hl) (lawful.dictionary hh hr)⟩
  | method hf => exact ⟨lawful.instanceMethod hh hl hf, hl, hrs⟩
  | hosted hf => exact ⟨lawful.hostOperator hh hl hf, hrs⟩

theorem binary (lawful : ρ.Lawful) (hh : ρ.sound h) {l r : Value} (hl : ρ.value h l)
    (hr : ρ.value h r) (ha : h.binary op l r = .ok a) : ρ.applied h a :=
  lawful.comesTo hh hl (List.forall_mem_singleton.mpr hr) (.of_binary ha)

theorem unary (lawful : ρ.Lawful) (hh : ρ.sound h) {v : Value} (hv : ρ.value h v)
    (ha : h.unary op v = .ok a) : ρ.applied h a :=
  lawful.comesTo hh hv (List.forall_mem_nil _) (.of_unary ha)

theorem carryOut (lawful : ρ.Lawful) (hh : ρ.sound h) (ha : ρ.applied h a) :
    ρ.Makes h (h.carryOut a) ρ.dispatch := by
  cases a with
  | value v => exact ⟨.refl hh, ha⟩
  | newList vs => exact lawful.newList hh ha
  | newDict d => exact lawful.newDict hh ha.1 ha.2
  | method f receiver arguments =>
      obtain ⟨hf, hreceiver, harguments⟩ := ha
      obtain ⟨hgoes, hcallee⟩ := lawful.boundMethod hh hf hreceiver
      exact ⟨hgoes, hcallee, fun v hv => lawful.value_later hgoes.later (harguments v hv)⟩
  | hosted f arguments => exact ⟨.refl hh, ha⟩

end Lawful

end Discipline

end Script
