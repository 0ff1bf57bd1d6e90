import Script.Proofs.Evaluation.Obedience
import Script.Proofs.Heap.Reach

/-!
# `Proofs.Evaluation.Isolation` — an import shares nothing with its importer

An imported script starts from a global scope of its own, and all that its text can get at from
there was made since. The discipline says just this: whatever the script handles is *new*, compared
with the heap `old` at the start of the import. New cells refer to new cells only, so reading stays
among what is new, and only new cells are changed.

The main statement is `import_isolated`.
-/

namespace Script

/-! ## The discipline -/

/-- What is old is as it was, and what is new refers to what is new only. -/
abbrev Heap.Apart (old h : Heap) : Prop := old.Grown h (Object.New old h)

/-- All that a program handles is new, and what is old stays as it is. -/
def Discipline.isolation (old : Heap) : Discipline where
  sound := old.Apart
  later := Heap.Larger
  later_refl := .refl
  later_trans := .trans
  Place := Unit
  value h v := (Object.value v).New old h
  makeable h f := (Object.scope f.closure).New old h
  callable h f := (Object.scope f.closure).New old h
  runs _ _ _ := True
  bindable h f := (Object.scope f.closure).New old h
  reads _ h s := (Object.scope s).New old h
  binds _ h s := (Object.scope s).New old h
  home h _ s := (Object.scope s).New old h
  method h _ r := (Object.value (.function r)).New old h
  name _ := True
  dict _ := True

namespace Discipline

variable {old h : Heap}

/-! ### Reading -/

/-- Going outwards from a new scope leads to new scopes. -/
theorem new_nearest? (hg : old.Apart h) {s d : Ref .scope} {name : String}
    (hs : (Object.scope s).New old h) (hd : h.scopes.nearest? s name = some d) :
    (Object.scope d).New old h := by
  fun_induction Store.nearest? h.scopes s name with
  | case1 => cases hd
  | case2 s scope hscope hc =>
      cases hd
      exact hs
  | case3 => cases hd
  | case4 s scope hscope hc p hp hlt ih =>
      have hrefs := Scope.forall_refs.mp (hg.scopes.cells s scope hs.1 hscope)
      exact ih (hrefs.2 p hp) hd
  | case5 => cases hd

/-- A lookup from a new scope ends at a new scope, and that refers to new values only. -/
theorem new_lookup (hg : old.Apart h) {s : Ref .scope} {name : String}
    {v : Value} (hs : (Object.scope s).New old h) (hv : h.lookup s name = some v) :
    (Object.value v).New old h := by
  unfold Heap.lookup at hv
  obtain ⟨d, hd, hv⟩ := Option.bind_eq_some_iff.mp hv
  obtain ⟨scope, hscope, hv⟩ := Option.bind_eq_some_iff.mp hv
  have hnew := new_nearest? hg hs hd
  have hrefs := Scope.forall_refs.mp (hg.scopes.cells d scope hnew.1 hscope)
  exact hrefs.1.get? hv

theorem new_bindings (hg : old.Apart h) {s : Ref .scope}
    (hs : (Object.scope s).New old h) : ∀ p ∈ h.bindings s, (Object.value p.2).New old h := by
  unfold Heap.bindings
  cases hscope : h.scopes.get? s with
  | none => exact nofun
  | some scope => exact (Scope.forall_refs.mp (hg.scopes.cells s scope hs.1 hscope)).1.sorted

/-- The elements of a new list are new. -/
theorem new_elements (hg : old.Apart h) {r : Ref .list}
    (hr : (Object.value (.list r)).New old h) :
    ∀ v ∈ (h.elements r).toList, (Object.value v).New old h := by
  unfold Heap.elements
  cases hlist : h.lists.get? r with
  | none => exact nofun
  | some vs => exact forall_listRefs.mp (hg.lists.cells r vs hr.1 hlist)

/-- The keys and the values of a new dictionary are new. -/
theorem new_entries (hg : old.Apart h) {r : Ref .dict}
    (hr : (Object.value (.dict r)).New old h) :
    (h.dictionary r).All fun v => (Object.value v).New old h := by
  unfold Heap.dictionary
  cases hdict : h.dicts.get? r with
  | none => exact .empty
  | some d => exact Dict.forall_refs.mp (hg.dicts.cells r d hr.1 hdict)

/-- The classes above a new class are new, and so are the methods of all of them. -/
theorem new_method? (hg : old.Apart h) {c : Ref .cls} {name : String}
    {r : Ref .function} (hc : (Object.value (.cls c)).New old h)
    (hr : h.classes.method? c name = some r) : (Object.value (.function r)).New old h := by
  fun_induction Store.method? h.classes c name with
  | case1 => cases hr
  | case2 c cls hcls r' hr' =>
      cases hr
      exact (Class.forall_refs.mp (hg.classes.cells c cls hc.1 hcls)).2.1.get? hr'
  | case3 => cases hr
  | case4 c cls hcls hnone s hs hlt ih =>
      exact ih ((Class.forall_refs.mp (hg.classes.cells c cls hc.1 hcls)).1 s hs) hr
  | case5 => cases hr

/-- A new function was made in a new scope. -/
theorem new_closure (hg : old.Apart h) {r : Ref .function} {f : Function}
    (hr : (Object.value (.function r)).New old h) (hf : h.functions.get? r = some f) :
    (Object.scope f.closure).New old h :=
  Function.forall_refs.mp (hg.functions.cells r f hr.1 hf)

/-- The methods of a new class, its own or those from above, were made in new scopes. -/
theorem new_classMethod (hg : old.Apart h) {c : Ref .cls} {name : String}
    {f : Function} (hc : (Object.value (.cls c)).New old h) (hf : h.method? c name = some f) :
    (Object.scope f.closure).New old h := by
  obtain ⟨r, hr, hf⟩ := Option.bind_eq_some_iff.mp hf
  exact new_closure hg (new_method? hg hc hr) hf

/-- A new instance is of a new class and has new values in its fields. -/
theorem new_instance (hg : old.Apart h) {r : Ref .inst} {i : Instance}
    (hr : (Object.value (.inst r)).New old h) (hi : h.instances.get? r = some i) :
    (Object.value (.cls i.cls)).New old h ∧ i.fields.All fun v => (Object.value v).New old h :=
  Instance.forall_refs.mp (hg.instances.cells r i hr.1 hi)

/-- The members of a new host object are new, and so are its operators. -/
theorem new_host (hg : old.Apart h) {r : Ref .host} {o : HostObject}
    (hr : (Object.value (.host r)).New old h) (ho : h.hosts.get? r = some o) :
    o.members.All (fun v => (Object.value v).New old h)
      ∧ ∀ p ∈ o.operators, (Object.value (.builtin p.2)).New old h :=
  HostObject.forall_refs.mp (hg.hosts.cells r o hr.1 ho)

/-! ### Making -/

/-- A heap that is larger and has grown as it should. -/
theorem isolation_goes {h' : Heap} (hl : h.Larger h') (hg : old.Apart h') :
    (isolation old).Goes h h' :=
  ⟨hg, hl⟩

/-- The scope that is made counts as new. The scope around it, if there is one, has to be new as
    well. -/
theorem isolation_newScope (hg : old.Apart h) (parent : Option (Ref .scope))
    (hparent : ∀ p ∈ parent, (Object.scope p).New old h) :
    (isolation old).Makes h (h.newScope parent) fun h' s => (Object.scope s).New old h' := by
  have hl : h.Larger (h.newScope parent).2 :=
    { Heap.Larger.refl h with scopes := by simp [Heap.newScope] }
  have hg' := hg.mono fun _ ho => ho.later hl
  have hrefs : ∀ o ∈ Scope.refs ⟨.empty, parent⟩, o.New old (h.newScope parent).2 :=
    Scope.forall_refs.mpr ⟨.empty, fun p hp => (hparent p hp).later hl⟩
  exact ⟨isolation_goes hl { hg' with scopes := hg'.scopes.push hrefs }, hg.scopes.fresh_next _⟩

theorem isolation_newList (hg : old.Apart h) {vs : Array Value}
    (hvs : ∀ v ∈ vs.toList, (Object.value v).New old h) :
    (isolation old).Makes h (h.newList vs) (isolation old).value := by
  have hl : h.Larger (h.newList vs).2 :=
    { Heap.Larger.refl h with lists := by simp [Heap.newList] }
  have hg' := hg.mono fun _ ho => ho.later hl
  have hrefs : ∀ o ∈ listRefs vs, o.New old (h.newList vs).2 :=
    forall_listRefs.mpr fun v hv => (hvs v hv).later hl
  exact ⟨isolation_goes hl { hg' with lists := hg'.lists.push hrefs }, hg.lists.fresh_next _⟩

theorem isolation_newDict (hg : old.Apart h) {d : Dict}
    (hd : d.All fun v => (Object.value v).New old h) :
    (isolation old).Makes h (h.newDict d) (isolation old).value := by
  have hl : h.Larger (h.newDict d).2 :=
    { Heap.Larger.refl h with dicts := by simp [Heap.newDict] }
  have hg' := hg.mono fun _ ho => ho.later hl
  have hrefs : ∀ o ∈ d.refs, o.New old (h.newDict d).2 :=
    Dict.forall_refs.mpr fun e he => ⟨(hd e he).1.later hl, (hd e he).2.later hl⟩
  exact ⟨isolation_goes hl { hg' with dicts := hg'.dicts.push hrefs }, hg.dicts.fresh_next _⟩

/-- A function is made in a scope that is new already. -/
theorem isolation_newFunction (hg : old.Apart h) {f : Function}
    (hf : (Object.scope f.closure).New old h) :
    (isolation old).Makes h (h.newFunction f) fun h' r => (isolation old).value h' (.function r) := by
  have hl : h.Larger (h.newFunction f).2 :=
    { Heap.Larger.refl h with functions := by simp [Heap.newFunction] }
  have hg' := hg.mono fun _ ho => ho.later hl
  have hrefs : ∀ o ∈ f.refs, o.New old (h.newFunction f).2 :=
    Function.forall_refs.mpr (hf.later hl)
  exact ⟨isolation_goes hl { hg' with functions := hg'.functions.push hrefs },
    hg.functions.fresh_next _⟩

/-- A class is made of new methods, and the class above it, if there is one, is new. -/
theorem isolation_newClass (hg : old.Apart h) {c : Class}
    (habove : ∀ r ∈ c.superClass, (Object.value (.cls r)).New old h)
    (hmethods : c.methods.All fun r => (Object.value (.function r)).New old h)
    (hstatic : c.staticMethods.All fun r => (Object.value (.function r)).New old h) :
    (isolation old).Makes h (h.newClass c) fun h' r => (isolation old).value h' (.cls r) := by
  have hl : h.Larger (h.newClass c).2 :=
    { Heap.Larger.refl h with classes := by simp [Heap.newClass] }
  have hg' := hg.mono fun _ ho => ho.later hl
  have hrefs : ∀ o ∈ c.refs, o.New old (h.newClass c).2 :=
    Class.forall_refs.mpr ⟨fun r hr => (habove r hr).later hl,
      hmethods.mono fun _ hr => hr.later hl, hstatic.mono fun _ hr => hr.later hl⟩
  exact ⟨isolation_goes hl { hg' with classes := hg'.classes.push hrefs },
    hg.classes.fresh_next _⟩

theorem isolation_newInstance (hg : old.Apart h) {c : Ref .cls}
    (hc : (Object.value (.cls c)).New old h) :
    (isolation old).Makes h (h.newInstance c) fun h' r => (isolation old).value h' (.inst r) := by
  have hl : h.Larger (h.newInstance c).2 :=
    { Heap.Larger.refl h with instances := by simp [Heap.newInstance] }
  have hg' := hg.mono fun _ ho => ho.later hl
  have hrefs : ∀ o ∈ Instance.refs ⟨c, .empty⟩, o.New old (h.newInstance c).2 :=
    Instance.forall_refs.mpr ⟨hc.later hl, .empty⟩
  exact ⟨isolation_goes hl { hg' with instances := hg'.instances.push hrefs },
    hg.instances.fresh_next _⟩

theorem isolation_newBuiltin (hg : old.Apart h) (b : Builtin) :
    (isolation old).Makes h (h.newBuiltin b) fun h' r => (isolation old).value h' (.builtin r) := by
  have hl : h.Larger (h.newBuiltin b).2 :=
    { Heap.Larger.refl h with builtins := by simp [Heap.newBuiltin] }
  have hg' := hg.mono fun _ ho => ho.later hl
  exact ⟨isolation_goes hl { hg' with builtins := hg'.builtins.push trivial },
    hg.builtins.fresh_next _⟩

/-- A host object is made without operators of its own, so only its members have to be new. -/
theorem isolation_newHost (hg : old.Apart h) {o : HostObject}
    (hmembers : o.members.All fun v => (Object.value v).New old h) (hoperators : o.operators = []) :
    (isolation old).Makes h (h.newHost o) fun h' r => (isolation old).value h' (.host r) := by
  have hl : h.Larger (h.newHost o).2 :=
    { Heap.Larger.refl h with hosts := by simp [Heap.newHost] }
  have hg' := hg.mono fun _ ho => ho.later hl
  have hrefs : ∀ o' ∈ o.refs, o'.New old (h.newHost o).2 := by
    refine HostObject.forall_refs.mpr ⟨hmembers.mono fun _ hv => hv.later hl, ?_⟩
    rw [hoperators]
    exact nofun
  exact ⟨isolation_goes hl { hg' with hosts := hg'.hosts.push hrefs }, hg.hosts.fresh_next _⟩

/-! ### Changing -/

/-- A name is declared in a new scope only, so no old scope is changed. -/
theorem isolation_declare (hg : old.Apart h) {s : Ref .scope} {name : String}
    {v : Value} (hs : (Object.scope s).New old h) (hv : (Object.value v).New old h) :
    (isolation old).Goes h (h.declare s name v) := by
  have hl : h.Larger (h.declare s name v) :=
    { Heap.Larger.refl h with scopes := by simp [Heap.declare] }
  have hg' := hg.mono fun _ ho => ho.later hl
  refine isolation_goes hl { hg' with scopes := hg'.scopes.modify hs.1 fun scope hscope => ?_ }
  obtain ⟨hbindings, hparent⟩ := Scope.forall_refs.mp hscope
  exact Scope.forall_refs.mpr ⟨hbindings.set name (hv.later hl), hparent⟩

/-- A new scope with one name that is there from the start. -/
theorem isolation_newScope_declare (hg : old.Apart h) {s : Ref .scope}
    {name : String} {v : Value} (hs : (Object.scope s).New old h)
    (hv : (Object.value v).New old h) :
    (isolation old).Makes h
      ((h.newScope (some s)).1, (h.newScope (some s)).2.declare (h.newScope (some s)).1 name v)
      fun h' s => (Object.scope s).New old h' := by
  obtain ⟨go₁, hinner⟩ := isolation_newScope hg (some s) fun p hp => by
    cases hp
    exact hs
  have go₂ : (isolation old).Goes _ ((h.newScope (some s)).2.declare _ name v) :=
    isolation_declare go₁.sound hinner (hv.later go₁.later)
  exact ⟨go₁.trans go₂, hinner.later go₂.later⟩

/-- The scope that has the name is found from a new one, so it is new. -/
theorem isolation_assign (hg : old.Apart h) {s : Ref .scope} {name : String}
    {v : Value} (hs : (Object.scope s).New old h) (hv : (Object.value v).New old h) :
    (isolation old).Goes h (h.assign s name v).2 := by
  unfold Heap.assign
  split
  · rename_i d hd
    exact isolation_declare hg (new_nearest? hg hs hd) hv
  · exact .refl hg

/-- A new list is changed, and the value that is put in is new. -/
theorem isolation_setElement (hg : old.Apart h) {r : Ref .list} {position : Nat}
    {v : Value} (hr : (Object.value (.list r)).New old h) (hv : (Object.value v).New old h) :
    (isolation old).Goes h (h.setElement r position v).2 := by
  unfold Heap.setElement
  split
  · have hl : h.Larger { h with lists := h.lists.modify r (·.setIfInBounds position v) } :=
      { Heap.Larger.refl h with lists := by simp }
    have hg' := hg.mono fun _ ho => ho.later hl
    refine isolation_goes hl { hg' with lists := hg'.lists.modify hr.1 fun vs hvs => ?_ }
    refine forall_listRefs.mpr fun w hw => ?_
    obtain hw | rfl := Array.mem_or_eq_of_mem_setIfInBounds (Array.mem_toList_iff.mp hw)
    · exact forall_listRefs.mp hvs w (Array.mem_toList_iff.mpr hw)
    · exact hv.later hl
  · exact .refl hg

/-- A new dictionary is changed, and key and value are new. -/
theorem isolation_insertEntry (hg : old.Apart h) {r : Ref .dict} {k v : Value}
    (hr : (Object.value (.dict r)).New old h) (hk : (Object.value k).New old h)
    (hv : (Object.value v).New old h) : (isolation old).Goes h (h.insertEntry r k v).2 := by
  unfold Heap.insertEntry
  split
  · rename_i key _
    have hl : h.Larger { h with dicts := h.dicts.modify r (·.put key k v) } :=
      { Heap.Larger.refl h with dicts := by simp }
    have hg' := hg.mono fun _ ho => ho.later hl
    refine isolation_goes hl { hg' with dicts := hg'.dicts.modify hr.1 fun d hd => ?_ }
    exact Dict.forall_refs.mpr ((Dict.forall_refs.mp hd).put key (hk.later hl) (hv.later hl))
  · exact .refl hg

/-- A new instance is changed, and the value of the field is new. -/
theorem isolation_setField (hg : old.Apart h) {r : Ref .inst} {name : String}
    {v : Value} (hr : (Object.value (.inst r)).New old h) (hv : (Object.value v).New old h) :
    (isolation old).Goes h (h.setField r name v) := by
  have hl : h.Larger (h.setField r name v) :=
    { Heap.Larger.refl h with instances := by simp [Heap.setField] }
  have hg' := hg.mono fun _ ho => ho.later hl
  refine isolation_goes hl { hg' with instances := hg'.instances.modify hr.1 fun i hi => ?_ }
  obtain ⟨hcls, hfields⟩ := Instance.forall_refs.mp hi
  exact Instance.forall_refs.mpr ⟨hcls, hfields.set name (hv.later hl)⟩

/-- A new host object is changed, and the value of the member is new. -/
theorem isolation_setMember (hg : old.Apart h) {r : Ref .host} {name : String}
    {v : Value} (hr : (Object.value (.host r)).New old h) (hv : (Object.value v).New old h) :
    (isolation old).Goes h (h.setMember r name v).2 := by
  unfold Heap.setMember
  split
  · have hl : h.Larger { h with hosts := h.hosts.modify r fun o =>
        { o with members := o.members.set name v } } :=
      { Heap.Larger.refl h with hosts := by simp }
    have hg' := hg.mono fun _ ho => ho.later hl
    refine isolation_goes hl { hg' with hosts := hg'.hosts.modify hr.1 fun o ho => ?_ }
    obtain ⟨hmembers, hoperators⟩ := HostObject.forall_refs.mp ho
    exact HostObject.forall_refs.mpr ⟨hmembers.set name (hv.later hl), hoperators⟩
  · exact .refl hg

/-- All that a program can do among new things leads to new things again. The reading lemmas say
    this of what is found, and the others of what is made and changed. -/
theorem isolation_lawful (old : Heap) : (isolation old).Lawful where
  value_later hl hv := hv.later hl
  reads_later hl hs := Object.New.later (o := .scope _) hl hs
  binds_later hl hs := Object.New.later (o := .scope _) hl hs
  home_later hl hs := Object.New.later (o := .scope _) hl hs
  method_later hl hr := Object.New.later (o := .value (.function _)) hl hr
  callable_later hl hf := Object.New.later (o := .scope _) hl hf
  runs_later _ _ := trivial
  plain hv := by
    revert hv
    rename_i v
    cases v <;> simp [Value.isPlain, isolation, Object.New]
  reads_of_binds hs := hs
  home_of_reads hs := hs
  makeable_of_reads hs _ := hs
  makeable_of_home hs _ := hs
  makeable_of_callable hf := hf
  binds_text _ _ _ _ _ := trivial
  globals _ _ := trivial
  modules _ _ _ _ _ := trivial
  dict_ofEntries _ := trivial
  dict_union _ _ := trivial
  lookup hg hs hv := new_lookup hg hs hv
  bindings hg hs := new_bindings hg hs
  elements hg hr := new_elements hg hr
  entries hg hr := new_entries hg hr
  dictionary _ _ := trivial
  field hg hr hv := by
    obtain ⟨i, hi, hv⟩ := Option.bind_eq_some_iff.mp hv
    exact (new_instance hg hr hi).2.get? hv
  instanceMethod hg hr hf := by
    obtain ⟨i, hi, hf⟩ := Option.bind_eq_some_iff.mp hf
    exact new_classMethod hg (new_instance hg hr hi).1 hf
  classMethod hg hc hf := new_classMethod hg hc hf
  staticMethod hg hc hr := by
    obtain ⟨cls, hcls, hr⟩ := Option.bind_eq_some_iff.mp hr
    exact (Class.forall_refs.mp (hg.classes.cells _ cls hc.1 hcls)).2.2.get? hr
  function hg hr hf := new_closure hg hr hf
  receiver hg hf hv := new_lookup hg hf hv
  member hg hr hv := by
    obtain ⟨o, ho, hv⟩ := Option.bind_eq_some_iff.mp hv
    exact (new_host hg hr ho).1.get? hv
  hostOperator hg hr hf := by
    obtain ⟨o, ho, hf⟩ := Option.bind_eq_some_iff.mp hf
    obtain ⟨before, after, heq, -⟩ := List.lookup_eq_some_iff.mp hf
    exact (new_host hg hr ho).2 (_, _) (heq ▸ List.mem_append_right before List.mem_cons_self)
  newScope hg hs := isolation_newScope hg _ fun p hp => by
    cases hp
    exact hs
  newCall hg hf := by
    obtain ⟨go, hs⟩ := isolation_newScope hg (some _) fun p hp => by
      cases hp
      exact hf
    exact ⟨go, ⟨(), hs⟩, trivial⟩
  newOutermost hg := by
    obtain ⟨go, hs⟩ := isolation_newScope hg none nofun
    exact ⟨go, (), hs⟩
  newMethodScope hg hs hc := isolation_newScope_declare hg hs hc
  newBuiltin hg := isolation_newBuiltin hg _
  newHost hg hmembers hoperators := isolation_newHost hg hmembers hoperators
  newList hg hvs := isolation_newList hg hvs
  newDict hg hd _ := isolation_newDict hg hd
  newFunction hg hf := isolation_newFunction hg hf
  newMethod hg hs _ := isolation_newFunction hg hs
  newClass hg habove hmethods hstatic _ := isolation_newClass hg habove hmethods hstatic
  newInstance hg hc := isolation_newInstance hg hc
  bind hg hf hr := isolation_newScope_declare hg hf hr
  declare hg hs _ hv := isolation_declare hg hs hv
  assign hg hs _ hv := isolation_assign hg hs hv
  setElement hg hr hv := isolation_setElement hg hr hv
  insertEntry hg hr hk hv := isolation_insertEntry hg hr hk hv
  setField hg hr hv := isolation_setField hg hr hv
  setMember hg hr hv := isolation_setMember hg hr hv

end Discipline

/-! ## Imports -/

/-- **Imports are isolated.** However an import ends, the importer's call stack and every object
    that was there before are as they were. If it succeeds, then it gives a module object, and every
    object that this reaches was made by the import. So what it reaches has no object in common with
    what anything from before reaches, such as the module object of another import of the file. -/
theorem import_isolated (limit fuel : Nat) (script : Option String) (arguments : List Value)
    (m : Machine) :
    (Builtin.call (.withFuel limit fuel) (.importModule script) arguments m).Leaves (fun m' =>
      m'.stack = m.stack ∧ m.heap.KeptIn m'.heap)
    ∧ ∀ v m', Builtin.call (.withFuel limit fuel) (.importModule script) arguments m = .ok v m' →
      (∃ r, v = .host r)
      ∧ (∀ o, m'.heap.Reaches (.value v) o → o.New m.heap m'.heap)
      ∧ ∀ u, (∀ o, m.heap.Reaches u o → o.In m.heap) →
        ∀ o, m'.heap.Reaches u o → m'.heap.Reaches (.value v) o → o.isPlain = true := by
  have lawful := Discipline.isolation_lawful m.heap
  have hev := Evaluator.obeys_withFuel lawful limit fuel ()
  have hmeets := (hev.importModule lawful script arguments m rfl rfl (.refl m.heap)).2
  refine ⟨hmeets.leaves.mono fun m' hm => ⟨hm.1, hm.2.sound.kept⟩, fun v m' hok => ?_⟩
  rw [hok] at hmeets
  obtain ⟨-, go, hnew, hhost⟩ := hmeets
  have hreached : ∀ o, m'.heap.Reaches (.value v) o → o.New m.heap m'.heap :=
    fun o ho => go.sound.reaches hnew ho
  refine ⟨hhost, hreached, fun u hin o hu hv => ?_⟩
  exact (hin o (go.sound.kept.reaches hin hu)).isPlain (hreached o hv)

/-! ## An import that succeeds -/

/-- An import succeeds if the module can be loaded. -/
theorem Builtin.isOk_importModule (ev : Evaluator) (script : Option String) (module : String)
    (m : Machine) :
    (Builtin.call ev (.importModule script) [.string module] m).isOk
      = (ev.loadModule (Path.resolve script module) m).isOk := by
  have hcall : Builtin.call ev (.importModule script) [.string module]
      = ((ev.loadModule (Path.resolve script module)).mapError fun _ => .importError) >>=
        fun scope => Step.allocate fun h =>
          Prod.map .host id (h.newHost ⟨⟨h.bindings scope⟩, .sealed, []⟩) := rfl
  rw [hcall, Step.bind_apply]
  unfold Step.mapError
  cases ev.loadModule (Path.resolve script module) m <;> rfl

/-- A module whose text can be read is compiled and run. -/
theorem Evaluator.loadModule_of_readText {ev : Evaluator} {path text : String} {m : Machine}
    (h : m.world.files.readText path = .ok text) :
    ev.loadModule path m = (do
      let program ← Step.ofExcept ((Script.compile text).mapError .compile)
      let scope ← Step.allocate (·.newProgramScope (some path))
      Step.apart ((ev.program program scope).mapError .runtime)
      return scope : Step ModuleError (Ref .scope)) m := by
  unfold Evaluator.loadModule
  rw [Step.bind_apply]
  simp only [Step.observe, h]
  rfl

/-- A module with a list that a function of it gives out. -/
theorem import_isolated_list :
    let text := "let xs = []\nfn f() \x7b return xs \x7d\n"
    let world : World := { World.empty with files := ⟨.directory [("lib", .file text.toUTF8)], []⟩ }
    let m : Machine := ⟨(Heap.empty.newProgramScope none).2, .root, world⟩
    ∃ v m', Builtin.call (.withFuel 10 20) (.importModule none) [.string "lib"] m = .ok v m'
      ∧ m'.stack = m.stack ∧ m.heap.KeptIn m'.heap
      ∧ ∀ o, m'.heap.Reaches (.value v) o → o.New m.heap m'.heap := by
  intro text world m
  have hfault : FileSystem.textFault? "lib" = none := by
    unfold FileSystem.textFault?
    rw [String.contains_char_eq]
    decide
  have hread : m.world.files.readText "lib" = .ok text := by
    unfold FileSystem.readText FileSystem.find
    rw [hfault]
    cbv
  have hok : (Builtin.call (.withFuel 10 20) (.importModule none) [.string "lib"] m).isOk = true := by
    have hpath : Path.resolve none "lib" = "lib" := by decide +kernel
    rw [Builtin.isOk_importModule, hpath, Evaluator.loadModule_of_readText hread]
    decide +kernel
  have hisolated := import_isolated 10 20 none [.string "lib"] m
  cases hcall : Builtin.call (.withFuel 10 20) (.importModule none) [.string "lib"] m with
  | ok v m' =>
      rw [hcall] at hisolated
      exact ⟨v, m', rfl, hisolated.1.1, hisolated.1.2, (hisolated.2 v m' rfl).2.1⟩
  | error e m' =>
      rw [hcall] at hok
      cases hok
  | outOfFuel =>
      rw [hcall] at hok
      cases hok

end Script
