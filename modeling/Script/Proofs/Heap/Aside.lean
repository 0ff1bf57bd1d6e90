import Script.Eval.Statement
import Script.Proofs.Heap.Functions
import Script.Proofs.Heap.Scopes
import Script.Proofs.Tree.Nodes

/-!
# `Proofs.Heap.Aside` — a variable that nothing mentions

An `Aside` is a variable of a scope under a name that no text mentions from which the scope can be
seen: a function on the heap either does not have the name in its text, or going outwards from its
closure one does not come to the scope (`Heap.Away`), as is so for the functions of a module. What a
heap is without the variable is `Heap.without`. Every operation of the evaluator goes past such a
variable (`Aside.Passes`): it does the same with it and without it, and it leaves what the variable
stands for.

The variable may stand for different values on the two heaps that are compared, or for none; an
`Aside` records both.
-/

namespace Script

/-! ## The names that a text mentions -/

/-- The names that a node itself looks up. `this` and `super` are not among them: they are bound by
    calls and classes and not by the text. -/
def Node.reads : Node → List String
  | .expr (.var name) => [name.lexeme]
  | .cls d => d.superClass.toList.map (·.lexeme)
  | _ => []

/-- The names that a node itself declares, assigns to or looks up. -/
def Node.mentions (n : Node) : List String := n.binders ++ n.reads

/-- None of the nodes mentions the name. -/
def Unmentioned (name : String) (ns : List Node) : Prop := ∀ n ∈ ns, name ∉ n.mentions

namespace Unmentioned

variable {name : String} {n : Node} {ns ns' : List Node}

theorem append (h : Unmentioned name (ns ++ ns')) : Unmentioned name ns ∧ Unmentioned name ns' :=
  List.forall_mem_append.mp h

theorem tail (h : Unmentioned name (n :: ns)) : Unmentioned name ns := (List.forall_mem_cons.mp h).2

/-- A name that the first node mentions is another one. -/
theorem ne (h : Unmentioned name (n :: ns)) {x : String} (hx : x ∈ n.mentions) : x ≠ name := by
  rintro rfl
  exact (List.forall_mem_cons.mp h).1 hx

end Unmentioned

/-! ## Tables without a name -/

namespace Bindings

variable {α : Type} {name t : String}

/-- The table without a name. -/
def without (b : Bindings α) (t : String) : Bindings α := ⟨b.entries.filter (·.1 ≠ t)⟩

/-- Without another name, the search for a name passes over the same entries and finds the same
    one. -/
theorem find?_filter_ne (h : name ≠ t) (l : List (String × α)) :
    find? name (l.filter (·.1 ≠ t)) = find? name l := by
  induction l with
  | nil => rfl
  | cons p rest ih =>
      obtain ⟨n, a⟩ := p
      by_cases hn : n = t
      · subst hn
        simpa [find?, Ne.symm h] using ih
      · by_cases hname : n = name <;> simp_all [find?]

/-- To place an entry and to leave out another name can be done in either order. -/
theorem place_filter_ne (h : name ≠ t) (a : α) (l : List (String × α)) :
    place name a (l.filter (·.1 ≠ t)) = (place name a l).filter (·.1 ≠ t) := by
  induction l with
  | nil => simp [place, h]
  | cons p rest ih =>
      obtain ⟨n, b⟩ := p
      by_cases hn : n = t
      · subst hn
        simpa [place, Ne.symm h] using ih
      · by_cases hname : n = name <;> simp_all [place]

theorem get?_without (h : name ≠ t) (b : Bindings α) : (b.without t).get? name = b.get? name :=
  find?_filter_ne h b.entries

/-- Whatever the name is placed as, it is left out again. -/
theorem place_filter_self (t : String) (a : α) (l : List (String × α)) :
    (place t a l).filter (·.1 ≠ t) = l.filter (·.1 ≠ t) := by
  induction l with
  | nil => simp [place]
  | cons p rest ih =>
      obtain ⟨n, b⟩ := p
      by_cases hn : n = t
      · simp [place, hn]
      · simpa [place, hn] using ih

/-- What a name is set to does not matter without it. -/
theorem without_set (b : Bindings α) (t : String) (a : α) : (b.set t a).without t = b.without t :=
  congrArg Bindings.mk (place_filter_self t a b.entries)

theorem set_without (h : name ≠ t) (b : Bindings α) (a : α) :
    (b.without t).set name a = (b.set name a).without t :=
  congrArg Bindings.mk (place_filter_ne h a b.entries)

end Bindings

/-! ## Two changes of a store -/

namespace Store

variable {kind : CellKind} {α : Type} {s : Store kind α} {r r' : Ref kind} {f g : α → α}

/-- A cell that is there is changed the same, whether a new one is added before or after. -/
theorem modify_push (h : r.index < s.size) (a : α) :
    (s.modify r f).push a = (s.push a).modify r f := by
  simp only [modify, push, Store.mk.injEq]
  apply Array.ext_getElem?
  intro i
  simp only [size] at h
  simp only [Array.getElem?_push, Array.getElem?_modify, Array.size_modify]
  by_cases hi : i = s.cells.size
  · simp [hi, Nat.ne_of_lt h]
  · simp [hi]

/-- Changes of two cells can be done in either order. -/
theorem modify_modify_ne (h : r ≠ r') : (s.modify r f).modify r' g = (s.modify r' g).modify r f := by
  have hne : r.index ≠ r'.index := by
    intro he
    apply h
    cases r
    cases r'
    simp_all
  simp only [modify, Store.mk.injEq]
  apply Array.ext_getElem?
  intro i
  simp only [Array.getElem?_modify]
  by_cases hi : r.index = i
  · simp [hi, Ne.symm (hi ▸ hne)]
  · simp [hi]

/-- Two changes of one cell are one change. -/
theorem modify_modify (s : Store kind α) (r : Ref kind) (f g : α → α) :
    (s.modify r f).modify r g = s.modify r fun a => g (f a) := by
  simp only [modify, Store.mk.injEq]
  apply Array.ext_getElem?
  intro i
  simp only [Array.getElem?_modify]
  by_cases hi : r.index = i
  · simp [hi, Function.comp_def]
  · simp [hi]

end Store

/-! ## Scopes from which a scope is out of sight -/

namespace Heap

/-- Going outwards from a scope, one does not come to the scope `s`. -/
inductive Away (h : Heap) (s : Ref .scope) : Ref .scope → Prop
  | outermost {r} : r ≠ s → r.index < h.scopes.size → h.parent? r = none → Away h s r
  | inside {r p} : r ≠ s → h.parent? r = some p → Away h s p → Away h s r

namespace Away

variable {h h' : Heap} {s r : Ref .scope}

theorem ne (hr : h.Away s r) : r ≠ s := by
  cases hr with
  | outermost hne _ _ => exact hne
  | inside hne _ _ => exact hne

/-- What is around the scopes that are there does not change. -/
theorem kept (hr : h.Away s r) (hsize : h.scopes.size ≤ h'.scopes.size)
    (hparent : ∀ r, r.index < h.scopes.size → h'.parent? r = h.parent? r) : h'.Away s r := by
  induction hr with
  | outermost hne hlt hp =>
      exact .outermost hne (Nat.lt_of_lt_of_le hlt hsize) ((hparent _ hlt).trans hp)
  | inside hne hp _ ih => exact .inside hne ((hparent _ (lt_size_of_parent? hp)).trans hp) ih

theorem declare (hr : h.Away s r) (r' : Ref .scope) (name : String) (v : Value) :
    (h.declare r' name v).Away s r :=
  hr.kept (Nat.le_of_eq (declare_scopes_size r' name v).symm)
    fun s' _ => parent?_declare r' s' name v

/-- Declaring names changes no parent, so a scope that lies away stays away. -/
theorem declareAll (hr : h.Away s r) (r' : Ref .scope) (bindings : List (String × Value)) :
    (h.declareAll r' bindings).Away s r := by
  induction bindings generalizing h with
  | nil => exact hr
  | cons b rest ih => exact ih (hr.declare r' b.1 b.2)

/-- A new scope lies away from an older one if the scope around it does. -/
theorem newScope (hs : s.index < h.scopes.size) {parent : Option (Ref .scope)}
    (hparent : ∀ p ∈ parent, h.Away s p) :
    (h.newScope parent).2.Away s (h.newScope parent).1 := by
  have hne : (h.newScope parent).1 ≠ s := by
    rintro rfl
    exact Nat.lt_irrefl _ hs
  have hp := parent?_newScope h parent
  cases parent with
  | none => exact .outermost hne (newScope_lt h none) hp
  | some p =>
      refine .inside hne hp ((hparent p rfl).kept ?_ fun r hr => parent?_newScope_of_lt hr _)
      exact Nat.le_of_lt (newScope_lt h (some p))

end Away

end Heap

/-! ## The variable -/

/-- The heap without a variable of a scope. -/
def Heap.without (h : Heap) (s : Ref .scope) (t : String) : Heap :=
  { h with scopes := h.scopes.modify s fun c => { c with bindings := c.bindings.without t } }

/-- A variable of a scope, what it stands for in two runs, and scopes that are known to lie away
    from it. -/
structure Aside where
  scope : Ref .scope
  name : String
  left : Option Value
  right : Option Value
  away : Ref .scope → Prop
  ne_this : name ≠ "this"
  ne_super : name ≠ "super"

namespace Aside

/-- The heap without the variable. -/
abbrev drop (x : Aside) (h : Heap) : Heap := h.without x.scope x.name

/-- The function cannot see the variable, or does not mention it. -/
def Ignored (x : Aside) (h : Heap) (f : Function) : Prop :=
  h.Away x.scope f.closure ∨ Unmentioned x.name f.declaration.nodes

/-- The scope of the variable is there, the other scopes lie away from it, and no function on the
    heap has to do with the variable. -/
structure Sound (x : Aside) (h : Heap) : Prop where
  scope : x.scope.index < h.scopes.size
  away : ∀ r, x.away r → h.Away x.scope r
  functions : ∀ f, h.Stored f → x.Ignored h f

/-- The operation does the same without the variable, and leaves it as it is. -/
structure Passes {α : Type} (x : Aside) (h : Heap) (p : Heap → α × Heap) : Prop where
  drop : p (x.drop h) = ((p h).1, x.drop (p h).2)
  sound : x.Sound (p h).2
  own : (p h).2.own? x.scope x.name = h.own? x.scope x.name

variable {x : Aside} {h h' : Heap} {α β : Type} {p : Heap → α × Heap}

theorem Ignored.kept {f : Function} (hf : x.Ignored h f) (hsize : h.scopes.size ≤ h'.scopes.size)
    (hparent : ∀ r, r.index < h.scopes.size → h'.parent? r = h.parent? r) : x.Ignored h' f :=
  hf.imp_left fun ha => ha.kept hsize hparent

/-- What is around the scopes that are there does not change, and no function is made. -/
theorem Sound.kept (hx : x.Sound h) (hsize : h.scopes.size ≤ h'.scopes.size)
    (hparent : ∀ r, r.index < h.scopes.size → h'.parent? r = h.parent? r)
    (hfunctions : h'.functions = h.functions) : x.Sound h' where
  scope := Nat.lt_of_lt_of_le hx.scope hsize
  away := fun r hr => (hx.away r hr).kept hsize hparent
  functions := by
    rintro f ⟨r, hr⟩
    rw [hfunctions] at hr
    exact (hx.functions f ⟨r, hr⟩).kept hsize hparent

/-- Two operations that go past the variable, one after the other. The second runs on the heap and
    with the value that the first leaves. -/
theorem Passes.andThen {q : α → Heap → β × Heap} (hp : x.Passes h p)
    (hq : x.Passes (p h).2 (q (p h).1)) : x.Passes h fun h => q (p h).1 (p h).2 where
  drop := by rw [hp.drop, hq.drop]
  sound := hq.sound
  own := hq.own.trans hp.own

theorem Passes.map (hp : x.Passes h p) (f : α → β) : x.Passes h fun h => (f (p h).1, (p h).2) where
  drop := by rw [hp.drop]
  sound := hp.sound
  own := hp.own

/-- An operation that changes neither scopes nor functions. -/
theorem Sound.passes_of_same (hx : x.Sound h) (hwithout : p (x.drop h) = ((p h).1, x.drop (p h).2))
    (hscopes : (p h).2.scopes = h.scopes) (hfunctions : (p h).2.functions = h.functions) :
    x.Passes h p where
  drop := hwithout
  sound := hx.kept (Nat.le_of_eq (congrArg Store.size hscopes).symm)
    (fun r _ => by simp only [Heap.parent?, hscopes]) hfunctions
  own := by simp only [Heap.own?, hscopes]

end Aside

/-! ## Looking names up -/

namespace Heap

variable {x : Aside} {h : Heap} {name : String} {r : Ref .scope}

/-- Only the scope of the variable is changed by leaving it out. -/
theorem get?_drop_ne (hr : r ≠ x.scope) : (x.drop h).scopes.get? r = h.scopes.get? r :=
  Store.get?_modify_ne hr ..

theorem get?_drop_self : (x.drop h).scopes.get? x.scope
    = (h.scopes.get? x.scope).map fun c => { c with bindings := c.bindings.without x.name } :=
  Store.get?_modify_self ..

/-- The chains of scopes are the same without the variable. -/
theorem parent?_drop : (x.drop h).parent? r = h.parent? r := by
  unfold parent?
  by_cases hr : r = x.scope
  · subst hr
    rw [get?_drop_self]
    cases h.scopes.get? x.scope <;> rfl
  · rw [get?_drop_ne hr]

/-- The scopes on the way outwards are the same, and so is what they bind another name to. -/
theorem get?_drop_cases (hname : name ≠ x.name) (r : Ref .scope) :
    ((x.drop h).scopes.get? r = none ∧ h.scopes.get? r = none)
      ∨ ∃ c c', (x.drop h).scopes.get? r = some c ∧ h.scopes.get? r = some c'
        ∧ c.parent = c'.parent ∧ c.bindings.get? name = c'.bindings.get? name := by
  by_cases hr : r = x.scope
  · subst hr
    rw [get?_drop_self]
    cases h.scopes.get? x.scope with
    | none => exact .inl ⟨rfl, rfl⟩
    | some c => exact .inr ⟨_, c, rfl, rfl, rfl, Bindings.get?_without hname _⟩
  · rw [get?_drop_ne hr]
    cases h.scopes.get? r with
    | none => exact .inl ⟨rfl, rfl⟩
    | some c => exact .inr ⟨c, c, rfl, rfl, rfl, rfl⟩

/-- For another name the way outwards is the same, and it ends in the same scope. The induction is
    on the length of the way. -/
theorem nearest?_drop (hname : name ≠ x.name) (r : Ref .scope) :
    (x.drop h).scopes.nearest? r name = h.scopes.nearest? r name := by
  induction hn : r.index using Nat.strongRecOn generalizing r with
  | ind n ih =>
      rw [Store.nearest?, Store.nearest?]
      obtain ⟨hc, hc'⟩ | ⟨c, c', hc, hc', hparent, hget⟩ := get?_drop_cases hname r
      · rw [hc, hc']
      · have hcontains : c.bindings.contains name = c'.bindings.contains name := by
          rw [Bindings.contains, hget]
          rfl
        simp only [hc, hc', hparent, hcontains]
        cases hb : c'.bindings.contains name with
        | true => rfl
        | false =>
            cases c'.parent with
            | none => rfl
            | some p =>
                by_cases hlt : p.index < r.index
                · simpa [hlt] using ih p.index (hn ▸ hlt) p rfl
                · simp [hlt]

/-- The scopes on the way outwards are all others than that of the variable. -/
theorem Away.nearest?_drop (hr : h.Away x.scope r) (name : String) :
    (x.drop h).scopes.nearest? r name = h.scopes.nearest? r name
      ∧ ∀ d, h.scopes.nearest? r name = some d → d ≠ x.scope := by
  induction hr with
  | @outermost r hne _ hp =>
      rw [Store.nearest?, Store.nearest?, get?_drop_ne hne]
      cases hc : h.scopes.get? r with
      | none => simp
      | some c =>
          have hparent : c.parent = none := by simpa [parent?, hc] using hp
          cases hb : c.bindings.contains name <;> simp [hb, hparent, hne]
  | @inside r p hne hp _ ih =>
      obtain ⟨c, hc, hparent⟩ := Option.bind_eq_some_iff.mp hp
      rw [Store.nearest?, Store.nearest?, get?_drop_ne hne, hc]
      cases hb : c.bindings.contains name with
      | true => simp [hb, hne]
      | false =>
          by_cases hlt : p.index < r.index
          · simpa [hb, hparent, hlt] using ih
          · simp [hb, hparent, hlt]

/-- A name is looked up alike, if it is another one or if the scope of the variable does not lie on
    the way. -/
theorem lookup_drop (hname : h.Away x.scope r ∨ name ≠ x.name) :
    (x.drop h).lookup r name = h.lookup r name := by
  unfold lookup
  obtain hr | hname := hname
  · rw [(hr.nearest?_drop name).1]
    refine Option.bind_congr fun d hd => ?_
    rw [get?_drop_ne ((hr.nearest?_drop name).2 d hd)]
  · rw [Heap.nearest?_drop hname]
    refine congrArg _ (funext fun d => ?_)
    obtain ⟨hc, hc'⟩ | ⟨c, c', hc, hc', -, hget⟩ := get?_drop_cases hname d
    · rw [hc, hc']
    · rw [hc, hc', Option.bind_some, Option.bind_some, hget]

theorem bindings_drop (hr : r ≠ x.scope) : (x.drop h).bindings r = h.bindings r := by
  rw [bindings, get?_drop_ne hr]
  rfl

/-- A declaration elsewhere, or of another name, can be done before or after the variable is left
    out. -/
theorem declare_drop (hname : r ≠ x.scope ∨ name ≠ x.name) (v : Value) :
    (x.drop h).declare r name v = x.drop (h.declare r name v) := by
  unfold declare Aside.drop without
  simp only [Heap.mk.injEq, and_true]
  by_cases hr : r = x.scope
  · subst hr
    simp only [Store.modify_modify, Bindings.set_without (hname.resolve_left fun hne => hne rfl)]
  · exact Store.modify_modify_ne (Ne.symm hr)

/-- What the variable is declared to be does not matter without it. -/
theorem without_declare (h : Heap) (s : Ref .scope) (t : String) (v : Value) :
    (h.declare s t v).without s t = h.without s t := by
  simp only [declare, without, Store.modify_modify, Bindings.without_set]

end Heap

/-! ## Operations on scopes -/

namespace Aside

variable {x : Aside} {h : Heap} {name : String} {r : Ref .scope}

/-- A new scope is put behind the others, so the scope of the variable is where it was. -/
theorem Sound.newScope (hx : x.Sound h) (parent : Option (Ref .scope)) :
    x.Passes h (·.newScope parent) where
  drop := by
    simp only [Heap.newScope, drop, Heap.without, Store.modify_push hx.scope]
    simp [Store.next, Store.modify]
  sound := hx.kept (Nat.le_of_lt (Heap.newScope_lt h parent))
    (fun _ hr => Heap.parent?_newScope_of_lt hr parent) rfl
  own := Heap.own?_newScope_of_lt hx.scope parent

/-- A scope that is made later is another one. -/
theorem Sound.newScope_ne (hx : x.Sound h) (parent : Option (Ref .scope)) :
    (h.newScope parent).1 ≠ x.scope := by
  intro heq
  have hlt := hx.scope
  rw [← heq] at hlt
  exact Nat.lt_irrefl _ hlt

theorem Sound.declare (hx : x.Sound h) (hname : r ≠ x.scope ∨ name ≠ x.name) (v : Value) :
    x.Passes h fun h => ((), h.declare r name v) where
  drop := by rw [Heap.declare_drop hname]
  sound := hx.kept (Nat.le_of_eq (Heap.declare_scopes_size r name v).symm)
    (fun s _ => Heap.parent?_declare r s name v) rfl
  own := by
    obtain hr | hname := hname
    · exact Heap.own?_declare_of_scope_ne (Ne.symm hr)
    · exact Heap.own?_declare_of_ne (Ne.symm hname)

/-- Declarations one after the other, none of which is of the variable. -/
theorem Sound.declareAll (hx : x.Sound h) {bindings : List (String × Value)}
    (hnames : r ≠ x.scope ∨ ∀ b ∈ bindings, b.1 ≠ x.name) :
    x.Passes h fun h => ((), h.declareAll r bindings) := by
  induction bindings generalizing h with
  | nil => exact ⟨rfl, hx, rfl⟩
  | cons b rest ih =>
      have hfirst := hx.declare (hnames.imp_right fun hne => hne b List.mem_cons_self) b.2
      have hrest := hnames.imp_right fun hne b' hb' => hne b' (List.mem_cons_of_mem _ hb')
      exact hfirst.andThen (q := fun _ h => ((), h.declareAll r rest)) (ih hfirst.sound hrest)

theorem Sound.assign (hx : x.Sound h) (hname : h.Away x.scope r ∨ name ≠ x.name) (v : Value) :
    x.Passes h (·.assign r name v) := by
  -- With and without the variable the same scope is found, and it is not the variable itself.
  obtain ⟨hnearest, hne⟩ : (x.drop h).scopes.nearest? r name = h.scopes.nearest? r name
      ∧ ∀ d, h.scopes.nearest? r name = some d → d ≠ x.scope ∨ name ≠ x.name := by
    obtain hr | hname := hname
    · exact ⟨(hr.nearest?_drop name).1, fun d hd => .inl ((hr.nearest?_drop name).2 d hd)⟩
    · exact ⟨Heap.nearest?_drop hname r, fun _ _ => .inr hname⟩
  cases hd : h.scopes.nearest? r name with
  | none =>
      have hp : h.assign r name v = (.error .undefinedVariable, h) := by simp only [Heap.assign, hd]
      refine ⟨?_, ?_, ?_⟩
      · simp only [hp]
        simp only [Heap.assign, hnearest, hd]
      · simp only [hp]
        exact hx
      · simp only [hp]
  | some d =>
      have hp : h.assign r name v = (.ok (), h.declare d name v) := by simp only [Heap.assign, hd]
      have hdeclare := hx.declare (hne d hd) v
      refine ⟨?_, ?_, ?_⟩
      · simp only [hp]
        simp only [Heap.assign, hnearest, hd, Heap.declare_drop (hne d hd)]
      · simp only [hp]
        exact hdeclare.sound
      · simp only [hp]
        exact hdeclare.own

end Aside

/-! ## Operations on other objects -/

namespace Aside

variable {x : Aside} {h : Heap}

/-- The one operation that could bring the variable into sight: a new function must not see it, or
    not mention it. -/
theorem Sound.newFunction (hx : x.Sound h) {f : Function} (hf : x.Ignored h f) :
    x.Passes h (·.newFunction f) where
  drop := rfl
  sound := by
    refine ⟨hx.scope, fun r hr => (hx.away r hr).kept (Nat.le_refl _) fun _ _ => rfl, ?_⟩
    rintro g ⟨r, hr⟩
    have hg : x.Ignored h g := by
      obtain hold | ⟨-, rfl⟩ := Store.get?_push_cases hr
      · exact hx.functions g ⟨r, hold⟩
      · exact hf
    exact hg.kept (Nat.le_refl _) fun _ _ => rfl
  own := rfl

/-- The scope of the bound method is a new one. -/
theorem Sound.bind (hx : x.Sound h) (f : Function) (r : Ref .inst) :
    x.Passes h (·.bind f r) := by
  have hscope := hx.newScope (some f.closure)
  have hthis : x.Passes (h.newScope (some f.closure)).2
      fun h' => ((), h'.declare (h.newScope (some f.closure)).1 "this" (.inst r)) :=
    hscope.sound.declare (.inl (hx.newScope_ne (some f.closure))) (.inst r)
  exact hscope.andThen (q := fun scope h =>
    ({ f with closure := scope }, h.declare scope "this" (.inst r)))
      (hthis.map fun _ => { f with closure := (h.newScope (some f.closure)).1 })

/-- A bound method has the text of the method, and its closure lies where that of the method does,
    one scope further in. -/
theorem Sound.bind_ignored (hx : x.Sound h) {f : Function} (hf : x.Ignored h f) (r : Ref .inst) :
    x.Ignored (h.bind f r).2 (h.bind f r).1 := by
  refine hf.imp_left fun ha => ?_
  have hnew : (h.newScope (some f.closure)).2.Away x.scope (h.newScope (some f.closure)).1 :=
    .newScope hx.scope fun p hp => by cases hp; exact ha
  exact hnew.declare _ _ _

theorem Sound.boundMethod (hx : x.Sound h) {f : Function} (hf : x.Ignored h f) (r : Ref .inst) :
    x.Passes h (·.boundMethod f r) := by
  have hbind := hx.bind f r
  exact hbind.andThen
    (q := fun bound h => (Value.function (h.newFunction bound).1, (h.newFunction bound).2))
    ((hbind.sound.newFunction (hx.bind_ignored hf r)).map Value.function)

theorem Sound.newList (hx : x.Sound h) (elements : Array Value) : x.Passes h (·.newList elements) :=
  hx.passes_of_same rfl rfl rfl

theorem Sound.newDict (hx : x.Sound h) (dict : Dict) : x.Passes h (·.newDict dict) :=
  hx.passes_of_same rfl rfl rfl

theorem Sound.newClass (hx : x.Sound h) (c : Class) : x.Passes h (·.newClass c) :=
  hx.passes_of_same rfl rfl rfl

theorem Sound.newInstance (hx : x.Sound h) (c : Ref .cls) : x.Passes h (·.newInstance c) :=
  hx.passes_of_same rfl rfl rfl

theorem Sound.newBuiltin (hx : x.Sound h) (b : Builtin) : x.Passes h (·.newBuiltin b) :=
  hx.passes_of_same rfl rfl rfl

theorem Sound.newHost (hx : x.Sound h) (o : HostObject) : x.Passes h (·.newHost o) :=
  hx.passes_of_same rfl rfl rfl

theorem Sound.setField (hx : x.Sound h) (r : Ref .inst) (name : String) (v : Value) :
    x.Passes h fun h => ((), h.setField r name v) :=
  hx.passes_of_same rfl rfl rfl

/-- The bounds are checked against the list, which is not touched. -/
theorem Sound.setElement (hx : x.Sound h) (r : Ref .list) (position : Nat) (v : Value) :
    x.Passes h (·.setElement r position v) := by
  refine hx.passes_of_same ?_ (by rw [Heap.setElement_frame])
    (Heap.setElement_functions ..)
  have helements : (x.drop h).elements r = h.elements r := rfl
  unfold Heap.setElement
  rw [helements]
  split <;> rfl

theorem Sound.insertEntry (hx : x.Sound h) (r : Ref .dict) (k v : Value) :
    x.Passes h (·.insertEntry r k v) := by
  refine hx.passes_of_same ?_ (by rw [Heap.insertEntry_frame])
    (Heap.insertEntry_functions ..)
  unfold Heap.insertEntry
  split <;> rfl

theorem Sound.setMember (hx : x.Sound h) (r : Ref .host) (name : String) (v : Value) :
    x.Passes h (·.setMember r name v) := by
  refine hx.passes_of_same ?_ (by rw [Heap.setMember_frame])
    (Heap.setMember_functions ..)
  have hopen : (x.drop h).memberIsOpen r name = h.memberIsOpen r name := rfl
  unfold Heap.setMember
  rw [hopen]
  split <;> rfl

/-- What an operator comes to is carried out past the variable, if the method that is to be called
    ignores it. -/
theorem Sound.carryOut (hx : x.Sound h) {a : Applied}
    (ha : ∀ f, a.method? = some f → x.Ignored h f) : x.Passes h (·.carryOut a) := by
  cases a with
  | value v => exact ⟨rfl, hx, rfl⟩
  | newList elements => exact (hx.newList elements).map Dispatch.resolved
  | newDict dict => exact (hx.newDict dict).map Dispatch.resolved
  | method f receiver arguments =>
      exact (hx.boundMethod (ha f rfl) receiver).map (Dispatch.call · arguments)
  | hosted f arguments => exact ⟨rfl, hx, rfl⟩

/-- A group of builtins is an object with one cell for each member. The fold makes them one after
    the other. -/
theorem Sound.newGroup (hx : x.Sound h) (members : List (String × Builtin)) :
    x.Passes h (·.newGroup members) := by
  have hfold : ∀ (members : List (String × Builtin)) (table : Bindings Value) (h : Heap),
      x.Sound h → x.Passes h fun h => members.foldl
        (fun (acc : Bindings Value × Heap) (entry : String × Builtin) =>
          (acc.1.set entry.1 (Value.builtin (acc.2.newBuiltin entry.2).1),
            (acc.2.newBuiltin entry.2).2)) (table, h) := by
    intro members
    induction members with
    | nil => exact fun _ _ hx => ⟨rfl, hx, rfl⟩
    | cons entry rest ih =>
        intro table h hx
        have hfirst := (hx.newBuiltin entry.2).map fun r => table.set entry.1 (Value.builtin r)
        exact hfirst.andThen (q := fun table h => rest.foldl _ (table, h)) (ih _ _ hfirst.sound)
  have htable := hfold members Bindings.empty h hx
  exact htable.andThen
    (q := fun table h => (Value.host (h.newHost ⟨table, .sealed, []⟩).1,
      (h.newHost ⟨table, .sealed, []⟩).2))
    ((htable.sound.newHost _).map Value.host)

/-- The new globals have nothing around them. -/
theorem Sound.newGlobals (hx : x.Sound h) (script : Option String) :
    x.Passes h (·.newGlobals script)
      ∧ (h.newGlobals script).2.Away x.scope (h.newGlobals script).1 := by
  have hio := hx.newGroup Builtin.ioMembers
  have hstrings := hio.sound.newGroup Builtin.stringsMembers
  have henv := hstrings.sound.newGroup Builtin.envMembers
  have htype := henv.sound.newBuiltin .typeOf
  have himport := htype.sound.newBuiltin (.importModule script)
  have hscope := himport.sound.newScope none
  have hnames := fun bs => @Sound.declareAll _ _ _ hscope.sound bs
    (.inl (himport.sound.newScope_ne none))
  refine ⟨⟨?_, (hnames _).sound, ?_⟩, .declareAll (.newScope himport.sound.scope ?_) _ _⟩
  · simp only [Heap.newGlobals, hio.drop, hstrings.drop, henv.drop, htype.drop,
      himport.drop, hscope.drop]
    exact congrArg (Prod.mk _) (Prod.mk.inj (hnames _).drop).2
  · exact ((((((hnames _).own.trans hscope.own).trans himport.own).trans htype.own).trans
      henv.own).trans hstrings.own).trans hio.own
  · exact fun p hp => by cases hp

/-- The scope of a new program lies directly in new globals, and so away from the variable. -/
theorem Sound.newProgramScope (hx : x.Sound h) (script : Option String) :
    x.Passes h (·.newProgramScope script)
      ∧ (h.newProgramScope script).2.Away x.scope (h.newProgramScope script).1 := by
  obtain ⟨hglobals, haway⟩ := hx.newGlobals script
  refine ⟨hglobals.andThen (q := fun globals h => h.newScope (some globals))
    (hglobals.sound.newScope _), .newScope hglobals.sound.scope fun p hp => ?_⟩
  cases hp
  exact haway

/-! ## Reading other objects -/

theorem binary_drop (op : Operator) (a b : Value) :
    (x.drop h).binary op a b = h.binary op a b := rfl

theorem unary_drop (op : Operator) (a : Value) :
    (x.drop h).unary op a = h.unary op a := rfl

theorem rows_drop (n : Nat) (v : Value) : (x.drop h).rows n v = h.rows n v := rfl

/-- The text of a value is made from lists, dictionaries and names of functions; scopes have no part
    in it. -/
theorem nestedText_drop (depth : Nat) (v : Value) :
    (x.drop h).nestedText depth v = h.nestedText depth v := by
  induction depth generalizing v with
  | zero =>
      cases v with
      | bool b => cases b <;> rfl
      | _ => rfl
  | succ depth ih =>
      have htext : (x.drop h).nestedText depth = h.nestedText depth := funext ih
      have helements : ∀ r, (x.drop h).elements r = h.elements r := fun _ => rfl
      have hdictionary : ∀ r, (x.drop h).dictionary r = h.dictionary r := fun _ => rfl
      cases v with
      | list r => simp only [Heap.nestedText, htext, helements]
      | dict r => simp only [Heap.nestedText, htext, hdictionary]
      | bool b => cases b <;> rfl
      | _ => rfl

theorem display_drop (v : Value) : (x.drop h).display v = h.display v := by
  cases v with
  | string s => rfl
  | _ => exact nestedText_drop _ _

end Aside

end Script
