import Script.Proofs.Evaluation.Obedience
import Script.Proofs.Heap.Reach
import Script.Proofs.Heap.Scopes
import Script.Proofs.Parser.Accepted

/-!
# `Proofs.Evaluation.Methods` — scopes that belong to a method

A method runs inside the scope that binds `this` (`Heap.BindsThis`), and this one lies in the *home*
of its class: the scope in which the methods of the class were made, where `super` is bound if there
is a class above. A program can bind neither of the two names itself, since both are reserved words.
So going outwards from a scope inside a method, the first scope that binds one of them is the one
that binds `this` (`Heap.InMethod`), and blocks, calls and functions inside the method change
nothing of this.

A method is not called as it stands in its class: a function with its text is made, whose scope
binds `this`. No other function has such a scope (`Heap.Methodical`), so from the scope in which a
body runs one can tell the class that declares the text.

The discipline of this module keeps track of the two names along all scopes.
-/

namespace Script

namespace Heap

/-- The scope binds neither `this` nor `super` itself. -/
structure Neutral (h : Heap) (s : Ref .scope) : Prop where
  this : h.own? s "this" = none
  super : h.own? s "super" = none

/-- The function is a method of the class, not one that the class inherits. -/
def HasMethod (h : Heap) (k : Ref .cls) (f : Function) : Prop :=
  ∃ cls ∈ h.classes.get? k, ∃ name, ∃ g ∈ cls.methods.get? name, h.functions.get? g = some f

/-- The scope binds `this` to the instance `r` for the method `f` of the class `k`: it lies directly
    in the scope in which the method was made. -/
structure BindsThis (h : Heap) (k : Ref .cls) (f : Function) (r : Ref .inst) (s : Ref .scope) :
    Prop where
  method : h.HasMethod k f
  this : h.own? s "this" = some (.inst r)
  parent : h.parent? s = some f.closure

/-- The scope belongs to a call of the method `f` of the class `k` on the instance `r`. -/
inductive InMethod (h : Heap) (k : Ref .cls) (f : Function) (r : Ref .inst) : Ref .scope → Prop
  | bound {s : Ref .scope} : h.BindsThis k f r s → InMethod h k f r s
  | inner {s p : Ref .scope} : h.Neutral s → h.parent? s = some p → InMethod h k f r p →
      InMethod h k f r s

/-- The scope is `base`, or lies inside it with nothing in between that binds `this` or `super`. -/
inductive Within (h : Heap) (base : Ref .scope) : Ref .scope → Prop
  | base : base.index < h.scopes.size → Within h base base
  | inner {s p : Ref .scope} : h.Neutral s → h.parent? s = some p → Within h base p →
      Within h base s

/-- What lies inside a scope belongs to the same method. -/
theorem InMethod.within {h : Heap} {k : Ref .cls} {f : Function} {base s : Ref .scope}
    {r : Ref .inst} (hbase : h.InMethod k f r base) (hs : h.Within base s) :
    h.InMethod k f r s := by
  induction hs with
  | base _ => exact hbase
  | inner hneutral hp _ ih => exact .inner hneutral hp ih

/-- A scope within another one is there: it has a parent, or it is that one. -/
theorem Within.lt {h : Heap} {base s : Ref .scope} (hs : h.Within base s) :
    s.index < h.scopes.size := by
  cases hs with
  | base hlt => exact hlt
  | inner _ hp _ => exact lt_size_of_parent? hp

/-! ## Scopes over time -/

/-- The scopes of `h` are there later, in the same scopes and with the same `this` and `super`. -/
structure Anchored (h h' : Heap) : Prop where
  size : h.scopes.size ≤ h'.scopes.size
  parent : ∀ s, s.index < h.scopes.size → h'.parent? s = h.parent? s
  this : ∀ s, s.index < h.scopes.size → h'.own? s "this" = h.own? s "this"
  super : ∀ s, s.index < h.scopes.size → h'.own? s "super" = h.own? s "super"

namespace Anchored

variable {h h' h'' : Heap} {s base : Ref .scope}

theorem refl (h : Heap) : h.Anchored h :=
  ⟨Nat.le_refl _, fun _ _ => rfl, fun _ _ => rfl, fun _ _ => rfl⟩

/-- Anchors hold over time, since each step leaves those of the scopes that were there. -/
theorem trans (ha : h.Anchored h') (ha' : h'.Anchored h'') : h.Anchored h'' where
  size := Nat.le_trans ha.size ha'.size
  parent s hs := (ha'.parent s (Nat.lt_of_lt_of_le hs ha.size)).trans (ha.parent s hs)
  this s hs := (ha'.this s (Nat.lt_of_lt_of_le hs ha.size)).trans (ha.this s hs)
  super s hs := (ha'.super s (Nat.lt_of_lt_of_le hs ha.size)).trans (ha.super s hs)

/-- Only the scopes matter. -/
theorem of_eq (he : h'.scopes = h.scopes) : h.Anchored h' := by
  have hown : ∀ s name, h'.own? s name = h.own? s name := fun s name => by rw [own?, he]; rfl
  have hparent : ∀ s, h'.parent? s = h.parent? s := fun s => by rw [parent?, he]; rfl
  exact ⟨Nat.le_of_eq (by rw [he]), fun s _ => hparent s, fun s _ => hown s _, fun s _ => hown s _⟩

theorem newScope (h : Heap) (parent : Option (Ref .scope)) : h.Anchored (h.newScope parent).2 where
  size := by simp [Heap.newScope]
  parent _ hs := parent?_newScope_of_lt hs parent
  this _ hs := own?_newScope_of_lt hs parent
  super _ hs := own?_newScope_of_lt hs parent

/-- To declare a name other than `this` and `super` touches no anchor, in whatever scope. -/
theorem declare (h : Heap) (s : Ref .scope) {name : String} (v : Value) (hthis : "this" ≠ name)
    (hsuper : "super" ≠ name) : h.Anchored (h.declare s name v) where
  size := Nat.le_of_eq (declare_scopes_size ..).symm
  parent _ _ := parent?_declare ..
  this _ _ := own?_declare_of_ne hthis
  super _ _ := own?_declare_of_ne hsuper

/-- A name in a new scope is declared in none of the scopes that were there. -/
theorem newScope_declare (h : Heap) (parent : Option (Ref .scope)) (name : String) (v : Value) :
    h.Anchored ((h.newScope parent).2.declare (h.newScope parent).1 name v) := by
  have hne : ∀ s : Ref .scope, s.index < h.scopes.size → s ≠ (h.newScope parent).1 := by
    rintro s hs rfl
    exact Nat.lt_irrefl _ hs
  have hown : ∀ s name', s.index < h.scopes.size →
      ((h.newScope parent).2.declare (h.newScope parent).1 name v).own? s name'
        = h.own? s name' := fun s name' hs =>
    (own?_declare_of_scope_ne (hne s hs)).trans (own?_newScope_of_lt hs parent)
  constructor
  · rw [declare_scopes_size]
    exact (newScope h parent).size
  · exact fun s hs => (parent?_declare ..).trans (parent?_newScope_of_lt hs parent)
  · exact fun s hs => hown s _ hs
  · exact fun s hs => hown s _ hs

theorem neutral (ha : h.Anchored h') (hs : s.index < h.scopes.size) (hn : h.Neutral s) :
    h'.Neutral s :=
  ⟨(ha.this s hs).trans hn.this, (ha.super s hs).trans hn.super⟩

/-- A scope within the base stays within it. The induction goes outwards, and each scope on the way
    stays neutral. -/
theorem within (ha : h.Anchored h') (hs : h.Within base s) : h'.Within base s := by
  induction hs with
  | base hlt => exact .base (Nat.lt_of_lt_of_le hlt ha.size)
  | inner hn hp hw ih =>
      have hlt := lt_size_of_parent? hp
      exact .inner (ha.neutral hlt hn) ((ha.parent _ hlt).trans hp) ih

end Anchored

/-- The scope binds `super` to the class above, if there is one. -/
def Offers (h : Heap) (above : Option (Ref .cls)) (s : Ref .scope) : Prop :=
  s.index < h.scopes.size ∧ ∀ c ∈ above, h.own? s "super" = some (.cls c)

theorem Anchored.offers {h h' : Heap} (ha : h.Anchored h') {above : Option (Ref .cls)}
    {s : Ref .scope} (hs : h.Offers above s) : h'.Offers above s :=
  ⟨Nat.lt_of_lt_of_le hs.1 ha.size, fun c hc => (ha.super s hs.1).trans (hs.2 c hc)⟩

/-- The method was made in a scope that offers the class above. -/
def MadeBelow (h : Heap) (above : Option (Ref .cls)) (g : Ref .function) : Prop :=
  ∃ f ∈ h.functions.get? g, h.Offers above f.closure

/-- What the scopes, functions and classes of a running program keep to. -/
structure Orderly (h : Heap) : Prop where
  /-- A scope is made after the scope around it. -/
  older : ∀ s p, h.parent? s = some p → p.index < s.index
  /-- No scope binds both `this` and `super`. -/
  single : ∀ s v, h.own? s "this" = some v → h.own? s "super" = none
  /-- Functions are made in scopes, from text that declares no reserved word. -/
  functions : ∀ g f, h.functions.get? g = some f →
    f.closure.index < h.scopes.size ∧ AllBind Unreserved f.declaration.nodes
  /-- The methods of a class are made where `super` is the class above. -/
  methods : ∀ k cls, h.classes.get? k = some cls → cls.methods.All (h.MadeBelow cls.superClass)

/-- What comes later: the anchors of the scopes, the functions and the classes are as they were. -/
structure Onward (h h' : Heap) : Prop where
  anchored : h.Anchored h'
  functions : h.functions.KeptIn h'.functions
  classes : h.classes.KeptIn h'.classes

variable {h h' : Heap}

theorem Onward.refl (h : Heap) : h.Onward h := ⟨.refl h, fun _ _ hg => hg, fun _ _ hk => hk⟩

theorem Onward.trans {h'' : Heap} (ho : h.Onward h') (ho' : h'.Onward h'') : h.Onward h'' where
  anchored := ho.anchored.trans ho'.anchored
  functions g f hg := ho'.functions g f (ho.functions g f hg)
  classes k cls hk := ho'.classes k cls (ho.classes k cls hk)

/-- Nothing but scopes was touched. -/
theorem Anchored.onward (ha : h.Anchored h') (hf : h'.functions = h.functions)
    (hc : h'.classes = h.classes) : h.Onward h' :=
  ⟨ha, fun _ _ hg => by rwa [hf], fun _ _ hk => by rwa [hc]⟩

/-- Scopes go on offering what they offer, so methods go on being made below their class. -/
theorem Onward.madeBelow (ho : h.Onward h') {above : Option (Ref .cls)} {g : Ref .function}
    (hg : h.MadeBelow above g) : h'.MadeBelow above g := by
  obtain ⟨f, hf, hoffers⟩ := hg
  exact ⟨f, ho.functions g f hf, ho.anchored.offers hoffers⟩

namespace Orderly

theorem empty : Heap.empty.Orderly := by
  refine ⟨fun s p hp => ?_, fun s v hv => ?_, fun g f hg => ?_, fun k cls hk => ?_⟩
  · exact absurd (lt_size_of_parent? hp) (Nat.not_lt_zero _)
  · exact absurd (lt_size_of_own? hv) (Nat.not_lt_zero _)
  · exact absurd (Store.lt_size_of_get? hg) (Nat.not_lt_zero _)
  · exact absurd (Store.lt_size_of_get? hk) (Nat.not_lt_zero _)

/-- If the functions and classes are the same, then only scopes that are new have to be looked
    at. -/
theorem of_scopes (ho : h.Orderly) (ha : h.Anchored h') (hf : h'.functions = h.functions)
    (hc : h'.classes = h.classes)
    (holder : ∀ s p, h.scopes.size ≤ s.index → h'.parent? s = some p → p.index < s.index)
    (hsingle : ∀ s v, h.scopes.size ≤ s.index → h'.own? s "this" = some v →
      h'.own? s "super" = none) : h'.Orderly where
  older s p hp := by
    rcases Nat.lt_or_ge s.index h.scopes.size with hlt | hge
    · rw [ha.parent s hlt] at hp
      exact ho.older s p hp
    · exact holder s p hge hp
  single s v hv := by
    rcases Nat.lt_or_ge s.index h.scopes.size with hlt | hge
    · rw [ha.this s hlt] at hv
      rw [ha.super s hlt]
      exact ho.single s v hv
    · exact hsingle s v hge hv
  functions g f hg := by
    rw [hf] at hg
    obtain ⟨hclosure, htext⟩ := ho.functions g f hg
    exact ⟨Nat.lt_of_lt_of_le hclosure ha.size, htext⟩
  methods k cls hk := by
    rw [hc] at hk
    exact (ho.methods k cls hk).mono fun _ hg => (ha.onward hf hc).madeBelow hg

/-- Nothing that matters was touched. -/
theorem of_eq (ho : h.Orderly) (hs : h'.scopes = h.scopes) (hf : h'.functions = h.functions)
    (hc : h'.classes = h.classes) : h'.Orderly := by
  refine ho.of_scopes (.of_eq hs) hf hc (fun s p hge hp => ?_) fun s v hge hv => ?_
  · have hlt := lt_size_of_parent? hp
    rw [hs] at hlt
    exact absurd hlt (Nat.not_lt.mpr hge)
  · have hlt := lt_size_of_own? hv
    rw [hs] at hlt
    exact absurd hlt (Nat.not_lt.mpr hge)

/-- A new scope with a name in it, or none. The name may be `this` or `super`. -/
theorem newScope_of (ho : h.Orderly) {parent : Option (Ref .scope)}
    (hparent : ∀ p ∈ parent, p.index < h.scopes.size) (ha : h.Anchored h')
    (hf : h'.functions = h.functions) (hc : h'.classes = h.classes)
    (hsize : h'.scopes.size = h.scopes.size + 1) (hp : h'.parent? h.scopes.next = parent)
    (hsingle : h'.own? h.scopes.next "this" = none ∨ h'.own? h.scopes.next "super" = none) :
    h'.Orderly := by
  have hnext : ∀ s : Ref .scope, h.scopes.size ≤ s.index → s.index < h'.scopes.size →
      s = h.scopes.next := fun s hge hlt => Store.eq_next hge (hsize ▸ hlt)
  refine ho.of_scopes ha hf hc (fun s p hge hsp => ?_) fun s v hge hv => ?_
  · obtain rfl := hnext s hge (lt_size_of_parent? hsp)
    rw [hp] at hsp
    exact hparent p hsp
  · obtain rfl := hnext s hge (lt_size_of_own? hv)
    rw [hv] at hsingle
    exact hsingle.resolve_left nofun

theorem newScope (ho : h.Orderly) {parent : Option (Ref .scope)}
    (hparent : ∀ p ∈ parent, p.index < h.scopes.size) : (h.newScope parent).2.Orderly :=
  ho.newScope_of hparent (.newScope h parent) rfl rfl (Store.size_push ..) (parent?_newScope ..)
    (.inl (own?_newScope ..))

/-- A new scope with one name in it, which may be a reserved one. Since the scope is new, no anchor
    of another scope is touched. -/
theorem newScope_declare (ho : h.Orderly) {parent : Option (Ref .scope)}
    (hparent : ∀ p ∈ parent, p.index < h.scopes.size) (name : String) (v : Value) :
    ((h.newScope parent).2.declare (h.newScope parent).1 name v).Orderly := by
  refine ho.newScope_of hparent (.newScope_declare h parent name v) rfl rfl ?_ ?_ ?_
  · rw [declare_scopes_size]
    exact Store.size_push ..
  · exact (parent?_declare ..).trans (parent?_newScope ..)
  · -- The name cannot be both of the two.
    by_cases hthis : "this" = name
    · refine .inr ((own?_declare_of_ne ?_).trans (own?_newScope ..))
      rintro rfl
      exact absurd hthis (by decide)
    · exact .inl ((own?_declare_of_ne hthis).trans (own?_newScope ..))

theorem declare (ho : h.Orderly) (s : Ref .scope) {name : String} (v : Value)
    (hthis : "this" ≠ name) (hsuper : "super" ≠ name) : (h.declare s name v).Orderly := by
  refine ho.of_scopes (.declare h s v hthis hsuper) rfl rfl (fun s' p _ hp => ?_) fun s' v' _ hv => ?_
  · rw [parent?_declare] at hp
    exact ho.older s' p hp
  · rw [own?_declare_of_ne hthis] at hv
    rw [own?_declare_of_ne hsuper]
    exact ho.single s' v' hv

/-- A new function goes behind the others. It must be made in a scope that is there, from a text
    that binds no reserved word. -/
theorem newFunction (ho : h.Orderly) {f : Function} (hclosure : f.closure.index < h.scopes.size)
    (htext : AllBind Unreserved f.declaration.nodes) :
    (h.newFunction f).2.Orderly ∧ h.Onward (h.newFunction f).2 := by
  have honward : h.Onward (h.newFunction f).2 :=
    ⟨.of_eq rfl, Store.keptIn_push _ _, fun _ _ hk => hk⟩
  refine ⟨⟨ho.older, ho.single, fun g f' hg => ?_, fun k cls hk => ?_⟩, honward⟩
  · obtain hold | ⟨-, rfl⟩ := Store.get?_push_cases hg
    · exact ho.functions g f' hold
    · exact ⟨hclosure, htext⟩
  · exact (ho.methods k cls hk).mono fun _ hg => honward.madeBelow hg

/-- A new class goes behind the others. Its methods must have been made below its superclass. -/
theorem newClass (ho : h.Orderly) (cls : Class)
    (hmethods : cls.methods.All (h.MadeBelow cls.superClass)) :
    (h.newClass cls).2.Orderly ∧ h.Onward (h.newClass cls).2 := by
  have honward : h.Onward (h.newClass cls).2 :=
    ⟨.of_eq rfl, fun _ _ hg => hg, Store.keptIn_push _ _⟩
  refine ⟨⟨ho.older, ho.single, ho.functions, fun k cls' hk => ?_⟩, honward⟩
  obtain hold | ⟨-, rfl⟩ := Store.get?_push_cases hk
  · exact ho.methods k cls' hold
  · exact hmethods

end Orderly

/-! ## Bound methods -/

theorem Onward.hasMethod (ho : h.Onward h') {k : Ref .cls} {f : Function}
    (hf : h.HasMethod k f) : h'.HasMethod k f := by
  obtain ⟨cls, hcls, name, g, hg, hf⟩ := hf
  exact ⟨cls, ho.classes k cls hcls, name, g, hg, ho.functions g f hf⟩

/-- A scope that binds `this` goes on doing so: its parent and its bindings of the reserved words
    are anchored. -/
theorem Onward.bindsThis (ho : h.Onward h') {k : Ref .cls} {f : Function} {r : Ref .inst}
    {s : Ref .scope} (hs : h.BindsThis k f r s) : h'.BindsThis k f r s := by
  have hlt := lt_size_of_parent? hs.parent
  exact ⟨ho.hasMethod hs.method, (ho.anchored.this s hlt).trans hs.this,
    (ho.anchored.parent s hlt).trans hs.parent⟩

/-- The function is a method bound to an instance: it has the text of the method, and its scope
    binds `this` for it. -/
structure BoundTo (h : Heap) (f' : Function) (k : Ref .cls) (f : Function) (r : Ref .inst) :
    Prop where
  text : f'.declaration = f.declaration
  scope : h.BindsThis k f r f'.closure

/-- If the scope of the function binds `this`, then the function is a bound method. -/
def Attributed (h : Heap) (f' : Function) : Prop :=
  ∀ v, h.own? f'.closure "this" = some v → ∃ k f r, h.BoundTo f' k f r

/-- The functions whose scopes bind `this` are bound methods. -/
def Methodical (h : Heap) : Prop := ∀ g f, h.functions.get? g = some f → h.Attributed f

/-- A function whose scope does not bind `this` claims nothing. -/
theorem attributed_of_none {f : Function} (hf : h.own? f.closure "this" = none) :
    h.Attributed f := by
  intro v hv
  rw [hf] at hv
  cases hv

/-- What a function claims is still true later, since its scope is anchored. -/
theorem Onward.attributed (ho : h.Onward h') {f : Function}
    (hclosure : f.closure.index < h.scopes.size) (hf : h.Attributed f) : h'.Attributed f := by
  intro v hv
  rw [ho.anchored.this _ hclosure] at hv
  obtain ⟨k, f₀, r, hbound⟩ := hf v hv
  exact ⟨k, f₀, r, hbound.text, ho.bindsThis hbound.scope⟩

/-- If no function is new, then none has to be looked at. -/
theorem Methodical.onward (hm : h.Methodical) (hh : h.Orderly) (ho : h.Onward h')
    (hf : h'.functions = h.functions) : h'.Methodical := by
  intro g f hg
  rw [hf] at hg
  exact ho.attributed (hh.functions g f hg).1 (hm g f hg)

/-- A new function may claim to be a method only if it is one. The others claim what they did
    before. -/
theorem Methodical.newFunction (hm : h.Methodical) (hh : h.Orderly) {f : Function}
    (ho : h.Onward (h.newFunction f).2) (hclosure : f.closure.index < h.scopes.size)
    (hf : h.Attributed f) : (h.newFunction f).2.Methodical := by
  intro g f' hg
  obtain hold | ⟨-, rfl⟩ := Store.get?_push_cases hg
  · exact ho.attributed (hh.functions g f' hold).1 (hm g f' hold)
  · exact ho.attributed hclosure hf

theorem bind_onward (h : Heap) (f : Function) (r : Ref .inst) : h.Onward (h.bind f r).2 :=
  (Anchored.newScope_declare h (some f.closure) "this" (.inst r)).onward rfl rfl

/-- Binding a method of a class gives a function that is bound to the instance as this method. -/
theorem boundTo_bind {k : Ref .cls} {f : Function} (hf : h.HasMethod k f) (r : Ref .inst) :
    (h.bind f r).2.BoundTo (h.bind f r).1 k f r where
  text := rfl
  scope :=
    { method := (h.bind_onward f r).hasMethod hf
      this := own?_declare_self (h.newScope_lt (some f.closure))
      parent := (parent?_declare ..).trans (parent?_newScope ..) }

/-! ## Bodies and their scopes -/

/-- Where the body of a function lives that is called: in the scope in which a function with the
    body was made, and if it is the body of a method, in a scope that binds `this` for the method.
    Only methods live in scopes that bind `this`. -/
inductive Lives (h : Heap) (b : FunctionBody) (s : Ref .scope) : Prop
  | function {g : Ref .function} {f : Function} : h.functions.get? g = some f →
      f.declaration.body = b → f.closure = s → s.index < h.scopes.size → h.own? s "this" = none →
      Lives h b s
  | method {k : Ref .cls} {f : Function} {r : Ref .inst} : h.BindsThis k f r s →
      f.declaration.body = b → Lives h b s

/-- The scope is the scope of a call of a function with the body: it binds neither `this` nor
    `super` and lies directly in the scope where the body lives. -/
structure Runs (h : Heap) (b : FunctionBody) (s : Ref .scope) : Prop where
  neutral : h.Neutral s
  inside : ∃ p, h.parent? s = some p ∧ h.Lives b p

/-- A body goes on living where it lives. -/
theorem Onward.lives (ho : h.Onward h') {b : FunctionBody} {s : Ref .scope} (hs : h.Lives b s) :
    h'.Lives b s := by
  cases hs with
  | function hg hb hs hlt hthis =>
      exact .function (ho.functions _ _ hg) hb hs (Nat.lt_of_lt_of_le hlt ho.anchored.size)
        ((ho.anchored.this s hlt).trans hthis)
  | method hs hb => exact .method (ho.bindsThis hs) hb

/-- A scope of a call stays one, since it stays neutral and in the same scope. -/
theorem Onward.runs (ho : h.Onward h') {b : FunctionBody} {s : Ref .scope} (hs : h.Runs b s) :
    h'.Runs b s := by
  obtain ⟨hneutral, p, hp, hlives⟩ := hs
  have hlt := lt_size_of_parent? hp
  exact ⟨ho.anchored.neutral hlt hneutral, p, (ho.anchored.parent _ hlt).trans hp, ho.lives hlives⟩

/-- A function on the heap lives in its scope: it is a bound method if the scope binds `this`. -/
theorem lives_of_attributed {g : Ref .function} {f : Function} (hg : h.functions.get? g = some f)
    (hclosure : f.closure.index < h.scopes.size) (hf : h.Attributed f) :
    h.Lives f.declaration.body f.closure := by
  cases hthis : h.own? f.closure "this" with
  | none => exact .function hg rfl rfl hclosure hthis
  | some v =>
      obtain ⟨k, f₀, r, hbound⟩ := hf v hthis
      exact .method hbound.scope (by rw [hbound.text])

theorem neutral_newScope (h : Heap) (parent : Option (Ref .scope)) :
    (h.newScope parent).2.Neutral (h.newScope parent).1 :=
  ⟨own?_newScope .., own?_newScope ..⟩

/-- A method that is found is one that some class on the way upwards has under the name. -/
theorem exists_class_of_method? {c : Ref .cls} {name : String} {f : Function}
    (hf : h.method? c name = some f) :
    ∃ k cls g, h.classes.get? k = some cls ∧ cls.methods.get? name = some g
      ∧ h.functions.get? g = some f := by
  obtain ⟨g, hg, hget⟩ := Option.bind_eq_some_iff.mp hf
  clear hf
  fun_induction Store.method? h.classes c name with
  | case1 => cases hg
  | case2 c cls hcls method hmethod =>
      cases hg
      exact ⟨c, cls, _, hcls, hmethod, hget⟩
  | case3 => cases hg
  | case4 c cls hcls hmethod above habove hlt ih => exact ih hg
  | case5 => cases hg

/-- What a lookup of a method finds is a method of the class or of one above it. -/
theorem hasMethod_of_method? {c : Ref .cls} {name : String} {f : Function}
    (hf : h.method? c name = some f) : ∃ k, h.HasMethod k f := by
  obtain ⟨k, cls, g, hcls, hg, hget⟩ := exists_class_of_method? hf
  exact ⟨k, cls, hcls, name, g, hg, hget⟩

end Heap

/-- A name that a program may bind is no reserved word. -/
theorem Unreserved.ne {name word : String} (hname : Unreserved name)
    (hword : TokenKind.ofWord word ≠ .identifier) : word ≠ name := by
  rintro rfl
  exact hword hname

/-! ## The discipline -/

/-- Text is evaluated in scopes inside the one that is its place. If `strict`, then no text is
    evaluated in a scope that binds `this` itself, and the functions whose scopes bind `this` are
    bound methods. -/
def Discipline.lexical (strict : Prop) : Discipline where
  sound h := h.Orderly ∧ (strict → h.Methodical)
  later := Heap.Onward
  later_refl := Heap.Onward.refl
  later_trans := Heap.Onward.trans
  -- A place is the scope of a call or of a program.
  Place := Ref .scope
  -- What `super` is depends on scopes only, so values may be anything.
  value _ _ := True
  makeable h f := f.closure.index < h.scopes.size ∧ AllBind Unreserved f.declaration.nodes
    ∧ (strict → h.Attributed f)
  callable h f := f.closure.index < h.scopes.size ∧ AllBind Unreserved f.declaration.nodes
    ∧ (strict → h.Attributed f ∧ h.Lives f.declaration.body f.closure)
  runs h b s := strict → h.Runs b s
  bindable h f := f.closure.index < h.scopes.size ∧ AllBind Unreserved f.declaration.nodes
    ∧ ∃ k, h.HasMethod k f
  reads base h s := h.Within base s ∧ (strict → h.own? s "this" = none)
  binds base h s := h.Within base s ∧ (strict → h.own? s "this" = none)
  home h above s := h.Offers above s ∧ (strict → h.own? s "this" = none)
  method := Heap.MadeBelow
  name := Unreserved
  dict _ := True

namespace Discipline

variable {strict : Prop} {h h' : Heap}

/-- Functions and classes are as they were. -/
theorem lexical_onward (hh : (lexical strict).sound h) (horderly : h'.Orderly)
    (ha : h.Anchored h') (hf : h'.functions = h.functions) (hc : h'.classes = h.classes) :
    (lexical strict).Goes h h' :=
  ⟨⟨horderly, fun ht => (hh.2 ht).onward hh.1 (ha.onward hf hc) hf⟩, ha.onward hf hc⟩

/-- Nothing that matters was touched. -/
theorem lexical_goes (hh : (lexical strict).sound h) (hs : h'.scopes = h.scopes)
    (hf : h'.functions = h.functions) (hc : h'.classes = h.classes) :
    (lexical strict).Goes h h' :=
  lexical_onward hh (hh.1.of_eq hs hf hc) (.of_eq hs) hf hc

/-- A declaration of a name that is not reserved moves on and leaves the heap orderly and
    methodical. -/
theorem lexical_declare (hh : (lexical strict).sound h) (s : Ref .scope) {name : String} (v : Value)
    (hname : Unreserved name) : (lexical strict).Goes h (h.declare s name v) := by
  have hthis : "this" ≠ name := hname.ne (by decide)
  have hsuper : "super" ≠ name := hname.ne (by decide)
  exact lexical_onward hh (hh.1.declare s v hthis hsuper) (.declare h s v hthis hsuper) rfl rfl

theorem lexical_newScope_goes (hh : (lexical strict).sound h) {parent : Option (Ref .scope)}
    (hparent : ∀ p ∈ parent, p.index < h.scopes.size) :
    (lexical strict).Goes h (h.newScope parent).2 :=
  lexical_onward hh (hh.1.newScope hparent) (.newScope h parent) rfl rfl

/-- A new scope. It binds nothing, so it belongs to what the scope around it belongs to. -/
theorem lexical_newScope (hh : (lexical strict).sound h) {base s : Ref .scope}
    (hs : h.Within base s) :
    (lexical strict).Makes h (h.newScope (some s)) fun h' inner =>
      h'.Within base inner ∧ (strict → h'.own? inner "this" = none) := by
  have hneutral := h.neutral_newScope (some s)
  refine ⟨lexical_newScope_goes hh fun p hp => ?_, ?_, fun _ => hneutral.this⟩
  · cases hp
    exact hs.lt
  · exact .inner hneutral (Heap.parent?_newScope ..) ((Heap.Anchored.newScope h (some s)).within hs)

/-- A new scope with a name in it. This is how both `this` and `super` get bound. -/
theorem lexical_newScope_declare (hh : (lexical strict).sound h) {s : Ref .scope}
    (hs : s.index < h.scopes.size) (name : String) (v : Value) :
    (lexical strict).Goes h ((h.newScope (some s)).2.declare (h.newScope (some s)).1 name v) := by
  refine lexical_onward hh (hh.1.newScope_declare (fun p hp => ?_) name v)
    (.newScope_declare h (some s) name v) rfl rfl
  cases hp
  exact hs

/-- The scope of a call. It is the place of the body, which may be run there. -/
theorem lexical_newCall (hh : (lexical strict).sound h) {f : Function}
    (hf : (lexical strict).callable h f) :
    (lexical strict).Makes h (h.newScope (some f.closure)) fun h' s =>
      (∃ i, (lexical strict).binds i h' s) ∧ (lexical strict).runs h' f.declaration.body s := by
  have hneutral := h.neutral_newScope (some f.closure)
  have go : (lexical strict).Goes h (h.newScope (some f.closure)).2 := by
    refine lexical_newScope_goes hh fun p hp => ?_
    cases hp
    exact hf.1
  refine ⟨go, ⟨_, .base (h.newScope_lt _), fun _ => hneutral.this⟩, fun ht => ?_⟩
  exact ⟨hneutral, f.closure, Heap.parent?_newScope .., go.later.lives (hf.2.2 ht).2⟩

/-- What may be made as a function under the discipline keeps the heap sound. -/
theorem lexical_newFunction (hh : (lexical strict).sound h) {f : Function}
    (hf : (lexical strict).makeable h f) : (lexical strict).Goes h (h.newFunction f).2 := by
  obtain ⟨horderly, honward⟩ := hh.1.newFunction hf.1 hf.2.1
  exact ⟨⟨horderly, fun ht => (hh.2 ht).newFunction hh.1 honward hf.1 (hf.2.2 ht)⟩, honward⟩

theorem lexical_newClass (hh : (lexical strict).sound h) (cls : Class)
    (hmethods : cls.methods.All (h.MadeBelow cls.superClass)) :
    (lexical strict).Goes h (h.newClass cls).2 := by
  obtain ⟨horderly, honward⟩ := hh.1.newClass cls hmethods
  exact ⟨⟨horderly, fun ht => (hh.2 ht).onward hh.1 honward rfl⟩, honward⟩

/-- Functions are made in scopes that do not bind `this`. -/
theorem lexical_makeable {d : FunctionDecl} {s : Ref .scope} {b : Bool}
    (hs : s.index < h.scopes.size) (hthis : strict → h.own? s "this" = none)
    (hd : AllBind Unreserved d.nodes) : (lexical strict).makeable h ⟨d, s, b⟩ :=
  ⟨hs, hd, fun ht => Heap.attributed_of_none (hthis ht)⟩

/-- A method of a class can be bound: its closure lies in the home of the class, which is there. -/
theorem lexical_bindable (hh : (lexical strict).sound h) {k : Ref .cls} {f : Function}
    (hf : h.HasMethod k f) : (lexical strict).bindable h f := by
  obtain ⟨cls, hcls, name, g, hg, hget⟩ := hf
  obtain ⟨hclosure, htext⟩ := hh.1.functions g f hget
  exact ⟨hclosure, htext, k, cls, hcls, name, g, hg, hget⟩

/-- What binding a method makes can be called: its text lives in the new scope that binds `this`. -/
theorem lexical_bind (hh : (lexical strict).sound h) {f : Function} {r : Ref .inst}
    (hf : (lexical strict).bindable h f) :
    (lexical strict).Makes h (h.bind f r) (lexical strict).callable := by
  obtain ⟨hclosure, htext, k, hk⟩ := hf
  have go := lexical_newScope_declare hh hclosure "this" (.inst r)
  have hlt := h.newScope_lt (some f.closure)
  have hbound := Heap.boundTo_bind hk r
  refine ⟨go, Nat.lt_of_lt_of_eq hlt (Heap.declare_scopes_size ..).symm, htext, fun _ => ⟨?_, ?_⟩⟩
  · exact fun _ _ => ⟨k, f, r, hbound⟩
  · exact .method hbound.scope rfl

/-- The laws one by one. Most of them say that an operation touches neither scopes, functions nor
    classes; the others are the lemmas above. -/
theorem lexical_lawful (strict : Prop) : (lexical strict).Lawful where
  value_later _ _ := trivial
  reads_later hl hs :=
    ⟨hl.anchored.within hs.1, fun ht => (hl.anchored.this _ hs.1.lt).trans (hs.2 ht)⟩
  binds_later hl hs :=
    ⟨hl.anchored.within hs.1, fun ht => (hl.anchored.this _ hs.1.lt).trans (hs.2 ht)⟩
  home_later hl hs :=
    ⟨hl.anchored.offers hs.1, fun ht => (hl.anchored.this _ hs.1.1).trans (hs.2 ht)⟩
  method_later hl hg := hl.madeBelow hg
  callable_later hl hf :=
    ⟨Nat.lt_of_lt_of_le hf.1 hl.anchored.size, hf.2.1, fun ht =>
      ⟨hl.attributed hf.1 (hf.2.2 ht).1, hl.lives (hf.2.2 ht).2⟩⟩
  runs_later hl hs ht := hl.runs (hs ht)
  plain _ := trivial
  reads_of_binds hs := hs
  home_of_reads hs := ⟨⟨hs.1.lt, nofun⟩, hs.2⟩
  makeable_of_reads hs hd := lexical_makeable hs.1.lt hs.2 hd
  makeable_of_home hs hd := lexical_makeable hs.1.1 hs.2 hd
  makeable_of_callable hf := ⟨hf.1, hf.2.1, fun ht => (hf.2.2 ht).1⟩
  binds_text hf := hf.2.1
  globals := by
    change ∀ x ∈ _, Unreserved x
    decide
  modules hprogram := allBind_of_compile hprogram
  dict_ofEntries _ := trivial
  dict_union _ _ := trivial
  lookup _ _ _ := trivial
  bindings _ _ _ _ := trivial
  elements _ _ _ _ := trivial
  entries _ _ _ _ := ⟨trivial, trivial⟩
  dictionary _ _ := trivial
  field _ _ _ := trivial
  instanceMethod hh _ hf := by
    obtain ⟨i, -, hf⟩ := Option.bind_eq_some_iff.mp hf
    obtain ⟨k, hk⟩ := Heap.hasMethod_of_method? hf
    exact lexical_bindable hh hk
  classMethod hh _ hf := by
    obtain ⟨k, hk⟩ := Heap.hasMethod_of_method? hf
    exact lexical_bindable hh hk
  staticMethod _ _ _ := trivial
  function hh _ hf := by
    obtain ⟨hclosure, htext⟩ := hh.1.functions _ _ hf
    refine ⟨hclosure, htext, fun ht => ?_⟩
    have hattributed := hh.2 ht _ _ hf
    exact ⟨hattributed, Heap.lives_of_attributed hf hclosure hattributed⟩
  receiver _ _ _ := trivial
  member _ _ _ := trivial
  hostOperator _ _ _ := trivial
  newScope hh hs := lexical_newScope hh hs.1
  newCall hh hf := lexical_newCall hh hf
  newOutermost {h} hh :=
    ⟨lexical_newScope_goes hh nofun, _, .base (h.newScope_lt none),
      fun _ => (h.neutral_newScope none).this⟩
  newMethodScope {_ h s c} hh hs _ := by
    have hlt := h.newScope_lt (some s)
    refine ⟨lexical_newScope_declare hh hs.1.lt "super" (.cls c), ⟨?_, fun c' hc' => ?_⟩, fun _ => ?_⟩
    · exact Nat.lt_of_lt_of_eq hlt (Heap.declare_scopes_size ..).symm
    · cases hc'
      exact Heap.own?_declare_self hlt
    · exact (Heap.own?_declare_of_ne (by decide)).trans (h.neutral_newScope _).this
  newBuiltin hh := ⟨lexical_goes hh rfl rfl rfl, trivial⟩
  newHost hh _ _ := ⟨lexical_goes hh rfl rfl rfl, trivial⟩
  newList hh _ := ⟨lexical_goes hh rfl rfl rfl, trivial⟩
  newDict hh _ _ := ⟨lexical_goes hh rfl rfl rfl, trivial⟩
  newFunction hh hf := ⟨lexical_newFunction hh hf, trivial⟩
  newMethod {h above s d b} hh hs hd := by
    have go := lexical_newFunction hh (lexical_makeable (b := b) hs.1.1 hs.2 hd)
    exact ⟨go, _, Store.get?_push_next .., go.later.anchored.offers hs.1⟩
  newClass hh _ hmethods _ _ := ⟨lexical_newClass hh _ hmethods, trivial⟩
  newInstance hh _ := ⟨lexical_goes hh rfl rfl rfl, trivial⟩
  bind hh hf _ := lexical_bind hh hf
  declare hh _ hname _ := lexical_declare hh _ _ hname
  assign hh _ hname _ := by
    unfold Heap.assign
    split
    · exact lexical_declare hh _ _ hname
    · exact .refl hh
  setElement hh _ _ := by
    rw [Heap.setElement_frame]
    exact lexical_goes hh rfl rfl rfl
  insertEntry hh _ _ _ := by
    rw [Heap.insertEntry_frame]
    exact lexical_goes hh rfl rfl rfl
  setField hh _ _ := lexical_goes hh rfl rfl rfl
  setMember hh _ _ := by
    rw [Heap.setMember_frame]
    exact lexical_goes hh rfl rfl rfl

end Discipline

end Script
