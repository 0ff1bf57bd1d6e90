import Script.Proofs.Evaluation.Growth
import Script.Proofs.Heap.Functions
import Script.Proofs.Heap.Values

/-!
# `Proofs.Evaluation.Construction` — initializers and what they are bound to

Whether a function is an initializer is settled when its class is declared, and so is the name under
which the class has it. After that it can become a value in one way only: by being bound to an
instance, in a scope that binds `this` to it. No program can bind `this` itself, since it is a
reserved word. So a value that is an initializer always has an instance to give back.

A heap is *settled* if this is so for all values that are stored (`Heap.Settled`). The discipline of
this module keeps the heap settled, and a value that is an initializer stays bound to the same
instance.
-/

namespace Script

/-- Whether a value is a function. -/
def Value.isFunction : Value → Bool
  | .function _ => true
  | _ => false

namespace Heap

/-- The function finds an instance for `this` in its own scope, if it is an initializer. -/
def Ready (h : Heap) (f : Function) : Prop :=
  f.isInitializer = true → ∃ r, h.own? f.closure "this" = some (.inst r)

/-- The value is not a function, or it is one that is there and finds what it needs. -/
def Handles (h : Heap) (v : Value) : Prop :=
  ∀ g, v = .function g → ∃ f, h.functions.get? g = some f ∧ h.Ready f

/-- The value is an initializer that is bound to the instance. -/
def Initializes (h : Heap) (v : Value) (r : Ref .inst) : Prop :=
  ∃ g f, v = .function g ∧ h.functions.get? g = some f ∧ f.isInitializer = true
    ∧ h.own? f.closure "this" = some (.inst r)

/-- What a heap is like in the course of a run. -/
structure Settled (h : Heap) : Prop where
  /-- Every initializer that is stored as a value is bound to an instance. -/
  values : h.All h.Handles
  /-- A class has its methods under their titles, and `init` is its initializer. -/
  methods : h.classes.All fun c => h.Titled c.methods
  /-- No function declares or assigns to a reserved word. -/
  texts : h.Functions fun d => AllBind Unreserved d.nodes

variable {h h' : Heap} {f : Function} {v : Value} {r : Ref .inst}

theorem handles_of_isFunction (hv : v.isFunction = false) : h.Handles v := by
  rintro g rfl
  cases hv

theorem handles_of_isPlain (hv : v.isPlain = true) : h.Handles v := by
  rintro g rfl
  cases hv

theorem Settled.empty : Heap.empty.Settled := ⟨.empty, .empty, functions_empty⟩

/-! ## Later heaps -/

/-- A scope that binds `this` binds it to the same value from then on. -/
theorem Onward.own?_this (ho : h.Onward h') {s : Ref .scope}
    (hthis : h.own? s "this" = some v) : h'.own? s "this" = some v :=
  (ho.anchored.this s (lt_size_of_own? hthis)).trans hthis

/-- A function that finds what it needs goes on to find it. -/
theorem Onward.ready (ho : h.Onward h') (hf : h.Ready f) : h'.Ready f := by
  intro hinitializer
  obtain ⟨r, hthis⟩ := hf hinitializer
  exact ⟨r, ho.own?_this hthis⟩

/-- What may be handled may be handled later on, too. -/
theorem Onward.handles (ho : h.Onward h') (hv : h.Handles v) : h'.Handles v := by
  intro g hg
  obtain ⟨f, hf, hready⟩ := hv g hg
  exact ⟨f, ho.functions g f hf, ho.ready hready⟩

/-- An initializer stays bound to its instance. -/
theorem Onward.initializes (ho : h.Onward h') (hv : h.Initializes v r) : h'.Initializes v r := by
  obtain ⟨g, f, rfl, hf, hinitializer, hthis⟩ := hv
  exact ⟨g, f, rfl, ho.functions g f hf, hinitializer, ho.own?_this hthis⟩

theorem Onward.titled (ho : h.Onward h') {table : Bindings (Ref .function)}
    (htable : h.Titled table) : h'.Titled table := by
  intro name g hg
  obtain ⟨f, hf, hfacts⟩ := htable name g hg
  exact ⟨f, ho.functions g f hf, hfacts⟩

/-- If no function and no class is new, then only the stored values have to be looked at. -/
theorem Settled.onward (hh : h.Settled) (ho : h.Onward h') (hf : h'.functions = h.functions)
    (hc : h'.classes = h.classes) (hvalues : h'.All h.Handles) : h'.Settled where
  values := hvalues.mono fun _ hv => ho.handles hv
  methods := by
    rw [hc]
    exact hh.methods.mono fun _ hm => ho.titled hm
  texts := hh.texts.of_eq hf

/-! ## Methods that are found -/

/-- A method that is found is an initializer just if its name is `init`. -/
theorem Settled.method? (hh : h.Settled) {c : Ref .cls} {name : String}
    (hf : h.method? c name = some f) : f.isInitializer = (name == "init") := by
  obtain ⟨k, cls, g, hcls, hg, hget⟩ := exists_class_of_method? hf
  obtain ⟨f', hf', -, hinitializer⟩ := hh.methods k cls hcls name g hg
  cases hf'.symm.trans hget
  exact hinitializer

/-- The same for the methods of an instance, which are those of its class. -/
theorem Settled.instanceMethod? (hh : h.Settled) {name : String}
    (hf : h.instanceMethod? r name = some f) : f.isInitializer = (name == "init") := by
  obtain ⟨i, -, hf⟩ := Option.bind_eq_some_iff.mp hf
  exact hh.method? hf

/-! ## Binding -/

/-- A function is bound to an instance by a scope that binds `this` to it. -/
theorem own?_bind (h : Heap) (f : Function) (r : Ref .inst) :
    (h.bind f r).2.own? (h.bind f r).1.closure "this" = some (.inst r) :=
  own?_declare_self (h.newScope_lt (some f.closure))

/-- A bound initializer is a value that initializes the instance. -/
theorem initializes_boundMethod (h : Heap) (hf : f.isInitializer = true) (r : Ref .inst) :
    (h.boundMethod f r).2.Initializes (h.boundMethod f r).1 r :=
  ⟨_, _, rfl, Store.get?_push_next .., hf, h.own?_bind f r⟩

end Heap

/-! ## The discipline -/

/-- Values are handled with care, text binds no reserved word, and the heap is settled. -/
def Discipline.construction : Discipline where
  sound := Heap.Settled
  later h h' := h.Onward h' ∧ h.Grows h'
  later_refl h := ⟨.refl h, .refl h⟩
  later_trans hl hl' := ⟨hl.1.trans hl'.1, hl.2.trans hl'.2⟩
  -- Which scope it is in makes no difference to what a program may do.
  Place := Unit
  value := Heap.Handles
  makeable h f := h.Ready f ∧ AllBind Unreserved f.declaration.nodes
  callable h f := h.Ready f ∧ AllBind Unreserved f.declaration.nodes
  runs _ _ _ := True
  bindable _ f := AllBind Unreserved f.declaration.nodes
  reads _ _ _ := True
  binds _ _ _ := True
  home _ _ _ := True
  method _ _ _ := True
  name := Unreserved
  dict _ := True

namespace Discipline

variable {h h' : Heap}

/-- No function and no class is new. -/
theorem construction_goes (hh : h.Settled) (ha : h.Anchored h') (hg : h.Grows h')
    (hf : h'.functions = h.functions) (hc : h'.classes = h.classes) (hvalues : h'.All h.Handles) :
    construction.Goes h h' :=
  ⟨hh.onward (ha.onward hf hc) hf hc hvalues, ha.onward hf hc, hg⟩

theorem construction_newScope (hh : h.Settled) (parent : Option (Ref .scope)) :
    construction.Goes h (h.newScope parent).2 :=
  construction_goes hh (.newScope h parent) (.newScope h parent) rfl rfl (hh.values.newScope parent)

theorem construction_newScope_declare (hh : h.Settled) (parent : Option (Ref .scope))
    (name : String) {v : Value} (hv : h.Handles v) :
    construction.Goes h ((h.newScope parent).2.declare (h.newScope parent).1 name v) :=
  construction_goes hh (.newScope_declare h parent name v) (.newScope_declare h parent name v) rfl
    rfl ((hh.values.newScope parent).declare _ name hv)

/-- A name that is not reserved is declared, so `this` and `super` are left alone in every scope. -/
theorem construction_declare (hh : h.Settled) (s : Ref .scope) {name : String} {v : Value}
    (hname : Unreserved name) (hv : h.Handles v) : construction.Goes h (h.declare s name v) :=
  construction_goes hh (.declare h s v (hname.ne (by decide)) (hname.ne (by decide)))
    (.declare h s name v) rfl rfl (hh.values.declare s name hv)

/-- A new function is no value yet, so only its text matters. -/
theorem construction_newFunction (hh : h.Settled) {f : Function}
    (htext : AllBind Unreserved f.declaration.nodes) :
    construction.Goes h (h.newFunction f).2 := by
  have honward : h.Onward (h.newFunction f).2 :=
    ⟨.of_eq rfl, Store.keptIn_push _ _, fun _ _ hk => hk⟩
  refine ⟨⟨?_, ?_, hh.texts.newFunction htext⟩, honward, .newFunction h f⟩
  · exact (hh.values.newFunction f).mono fun _ hv => honward.handles hv
  · exact hh.methods.mono fun _ hm => honward.titled hm

/-- The static methods of a class are values and have to be ready. The others have to be titled as
    the class has them. -/
theorem construction_newClass (hh : h.Settled) {cls : Class}
    (hstatic : cls.staticMethods.All fun g => h.Handles (.function g))
    (htitled : h.Titled cls.methods) : construction.Goes h (h.newClass cls).2 := by
  have honward : h.Onward (h.newClass cls).2 :=
    ⟨.of_eq rfl, fun _ _ hg => hg, Store.keptIn_push _ _⟩
  refine ⟨⟨?_, ?_, hh.texts⟩, honward, .newClass h cls⟩
  · exact (hh.values.newClass hstatic).mono fun _ hv => honward.handles hv
  · exact hh.methods.push htitled

theorem construction_lawful : construction.Lawful where
  value_later hl hv := hl.1.handles hv
  reads_later _ _ := trivial
  binds_later _ _ := trivial
  home_later _ _ := trivial
  method_later _ _ := trivial
  callable_later hl hf := ⟨hl.1.ready hf.1, hf.2⟩
  runs_later _ _ := trivial
  plain hv := Heap.handles_of_isPlain hv
  reads_of_binds _ := trivial
  home_of_reads _ := trivial
  -- Only the methods of a class can be initializers.
  makeable_of_reads _ hd := ⟨fun hf => absurd hf Bool.false_ne_true, hd⟩
  makeable_of_home _ hd := ⟨fun hf => absurd hf Bool.false_ne_true, hd⟩
  makeable_of_callable hf := hf
  binds_text hf := hf.2
  globals := by
    change ∀ x ∈ _, Unreserved x
    decide
  modules hprogram := allBind_of_compile hprogram
  dict_ofEntries _ := trivial
  dict_union _ _ := trivial
  lookup hh _ hv := hh.values.lookup hv
  bindings hh _ := hh.values.bindings _
  elements hh _ := hh.values.elements _
  entries hh _ := hh.values.dictionary _
  dictionary _ _ := trivial
  field hh _ hv := hh.values.field? hv
  instanceMethod hh _ hf := hh.texts.instanceMethod? hf
  classMethod hh _ hf := hh.texts.method? hf
  staticMethod hh _ hg := hh.values.staticMethod? hg
  function {_ r _} hh hr hf := by
    obtain ⟨f', hf', hready⟩ := hr r rfl
    cases hf'.symm.trans hf
    exact ⟨hready, hh.texts r _ hf⟩
  receiver hh _ hv := hh.values.lookup hv
  member hh _ hv := hh.values.member? hv
  hostOperator _ _ _ := Heap.handles_of_isFunction rfl
  newScope hh _ := ⟨construction_newScope hh _, trivial⟩
  newCall hh _ := ⟨construction_newScope hh _, ⟨(), trivial⟩, trivial⟩
  newOutermost hh := ⟨construction_newScope hh none, (), trivial⟩
  newMethodScope hh _ hc := ⟨construction_newScope_declare hh _ "super" hc, trivial⟩
  newBuiltin {h b} hh :=
    ⟨construction_goes hh (.of_eq rfl) (.newBuiltin h b) rfl rfl (hh.values.newBuiltin b),
      Heap.handles_of_isFunction rfl⟩
  newHost {h o} hh hmembers _ :=
    ⟨construction_goes hh (.of_eq rfl) (.newHost h o) rfl rfl (hh.values.newHost hmembers),
      Heap.handles_of_isFunction rfl⟩
  newList {h vs} hh hvs :=
    ⟨construction_goes hh (.of_eq rfl) (.newList h vs) rfl rfl (hh.values.newList hvs),
      Heap.handles_of_isFunction rfl⟩
  newDict {h d} hh hd _ :=
    ⟨construction_goes hh (.of_eq rfl) (.newDict h d) rfl rfl (hh.values.newDict hd),
      Heap.handles_of_isFunction rfl⟩
  newFunction {h f} hh hf := by
    have go := construction_newFunction hh hf.2
    refine ⟨go, fun g hg => ?_⟩
    cases hg
    exact ⟨f, Store.get?_push_next .., go.later.1.ready hf.1⟩
  newMethod hh _ hd := ⟨construction_newFunction hh hd, trivial⟩
  newClass hh _ _ hstatic htitled :=
    ⟨construction_newClass hh hstatic htitled, Heap.handles_of_isFunction rfl⟩
  newInstance {h c} hh _ :=
    ⟨construction_goes hh (.of_eq rfl) (.newInstance h c) rfl rfl (hh.values.newInstance c),
      Heap.handles_of_isFunction rfl⟩
  bind {h f r} hh hf hr :=
    ⟨construction_newScope_declare hh _ "this" hr, fun _ => ⟨r, h.own?_bind f r⟩, hf⟩
  declare hh _ hname hv := construction_declare hh _ hname hv
  assign hh _ hname hv := by
    unfold Heap.assign
    split
    · exact construction_declare hh _ hname hv
    · exact .refl hh
  setElement {h r position v} hh _ hv :=
    construction_goes hh (.of_eq (by rw [Heap.setElement_frame])) (.setElement h r position v)
      (by rw [Heap.setElement_frame]) (by rw [Heap.setElement_frame]) (hh.values.setElement r _ hv)
  insertEntry {h r k v} hh _ hk hv :=
    construction_goes hh (.of_eq (by rw [Heap.insertEntry_frame])) (.insertEntry h r k v)
      (by rw [Heap.insertEntry_frame]) (by rw [Heap.insertEntry_frame]) (hh.values.insertEntry r hk hv)
  setField {h r name v} hh _ hv :=
    construction_goes hh (.of_eq rfl) (.setField h r name v) rfl rfl (hh.values.setField r name hv)
  setMember {h r name v} hh _ hv :=
    construction_goes hh (.of_eq (by rw [Heap.setMember_frame])) (.setMember h r name v)
      (by rw [Heap.setMember_frame]) (by rw [Heap.setMember_frame]) (hh.values.setMember r name hv)

end Discipline

end Script
