import Script.Eval
import Script.Proofs.Builtins
import Script.Proofs.Evaluation.Beside

/-!
# `Proofs.Evaluation.Weakening` — a variable that nothing mentions makes no difference

If two evaluators are beside each other on the parts of a node, then they are on the node. There is
one lemma for each function of the evaluator, in the order of its modules. The left evaluator may go
round a loop less often than the right one, since that is what less fuel means to a loop.

So the evaluator with less fuel is beside the one with more (`Evaluator.beside_withFuel`). Where
there is no variable to be set aside this says that fuel is a bound and nothing else
(`evaluate_mono`).
-/

namespace Script

open Step (Beside)

variable {α : Type} {σ : Option Aside} {scope : Ref .scope}

/-! ## A step and what follows it -/

/-- Takes a result, if it is one, and goes on with it. -/
theorem beside_argument {ε β : Type} {r : Except ε α} {f g : α → Step ε β} {Q : β → Prop}
    (hf : ∀ a, Beside σ (f a) (g a) Q) :
    Beside σ (Step.ofExcept r >>= f) (Step.ofExcept r >>= g) Q :=
  .bind (.ofExcept (Q := fun _ => True) fun _ _ => trivial) fun a _ => hf a

/-- Looks at the stack or the world and goes on with what it sees. -/
theorem beside_observe {ε β : Type} {r : Machine → α} {f g : α → Step ε β} {Q : β → Prop}
    (hr : ∀ m heap, r { m with heap } = r m) (hf : ∀ a, Beside σ (f a) (g a) Q) :
    Beside σ (Step.observe r >>= f) (Step.observe r >>= g) Q :=
  .bind (.observe hr) fun a _ => hf a

/-- Changes the heap and goes on. -/
theorem beside_change {ε : Type} {p : Heap → Heap} {x y : Step ε α} {Q : α → Prop}
    (hp : ∀ x ∈ σ, ∀ h, x.Sound h → x.Passes h fun h => ((), p h)) (hx : Beside σ x y Q) :
    Beside σ (Step.change p >>= fun _ => x) (Step.change p >>= fun _ => y) Q :=
  .bind (.change hp) fun _ _ => hx

/-- Changes the world and goes on. -/
theorem beside_outside {ε : Type} {r : World → World} {x y : Step ε α} {Q : α → Prop}
    (hx : Beside σ x y Q) :
    Beside σ (Step.outside r >>= fun _ => x) (Step.outside r >>= fun _ => y) Q :=
  .bind .outside fun _ _ => hx

/-! ## Steps on the heap -/

/-- Makes something of which nothing needs to be known. -/
theorem beside_allocate {ε : Type} {p : Heap → α × Heap}
    (hp : ∀ x : Aside, ∀ h, x.Sound h → x.Passes h p) :
    Beside σ (Step.allocate p : Step ε α) (Step.allocate p) :=
  .allocate (fun x _ => hp x) fun _ _ => trivial

/-- Reads something that is no scope. -/
theorem beside_inspect {ε : Type} {f : Heap → α} (hf : ∀ (x : Aside) h, f (x.drop h) = f h) :
    Beside σ (Step.inspect f : Step ε α) (Step.inspect f) :=
  .inspect (fun x _ h _ => hf x h) fun _ _ => trivial

/-- Looks for a function on the heap and goes on. Either the function does not mention the variable,
    or its closure is from now on known to lie away. -/
theorem beside_find {ε β : Type} {f : Heap → α} {k k' : α → Step ε β} {Q : β → Prop}
    (found : α → Option Function) (hf : ∀ (x : Aside) h, f (x.drop h) = f h)
    (hstored : ∀ h g, found (f h) = some g → h.Stored g)
    (hk : ∀ σ' a, (∀ g, found a = some g → Unaware σ' g.closure g.declaration.nodes) →
      Beside σ' (k a) (k' a) Q) :
    Beside σ (Step.inspect f >>= k) (Step.inspect f >>= k') Q := by
  intro m m' hm
  show Outcome.Beside σ Q (k (f m.heap) m) (k' (f m'.heap) m')
  rw [← hm.heap.read fun x _ h _ => hf x h]
  cases hg : found (f m.heap) with
  | none => exact hk σ _ (fun g h => by rw [hg] at h; cases h) m m' hm
  | some g =>
      obtain ⟨σ', hw, hheap, hknown⟩ := hm.heap.enter (P := (Unmentioned · g.declaration.nodes))
        fun x hx => (hm.heap.spares x hx).functions g (hstored m.heap g hg)
      refine (hk σ' _ (fun g' hg' => ?_) m m' ⟨hheap, hm.stack, hm.world⟩).narrow hw
      obtain rfl : g = g' := Option.some.inj (hg.symm.trans hg')
      exact hknown

theorem beside_blame_ofExcept (r : Except Fault α) (token : Token) :
    Beside σ (Step.blame token (Step.ofExcept r)) (Step.blame token (Step.ofExcept r)) :=
  .blame token (.ofExcept fun _ _ => trivial)

/-- Makes a scope inside another one and goes on in it. Nothing is seen from it that is not seen
    from the other one. -/
theorem beside_newScope {ε : Type} {f g : Ref .scope → Step ε α} {Q : α → Prop}
    (hf : ∀ σ' inner, Wider σ σ' → (∀ P, Avoids σ scope P → Avoids σ' inner P) →
      Beside σ' (f inner) (g inner) Q) :
    Beside σ (Step.allocate (·.newScope (some scope)) >>= f)
      (Step.allocate (·.newScope (some scope)) >>= g) Q := by
  refine .allocate_bind (s := id) (P := fun _ name => ∀ P, Avoids σ scope P → P name)
    (Q := fun _ => True) (fun _ _ _ hx => hx.newScope _) (fun _ _ => trivial)
    (fun x hx h hs => ?_) fun σ' inner hw _ hknown => ?_
  · -- If the outer scope is not known to lie away, then whatever avoids it holds of the name.
    by_cases haway : x.away scope
    · refine .inl (.newScope hs.scope fun p hp => ?_)
      cases hp
      exact hs.away scope haway
    · exact .inr fun P hP => (hP x hx).resolve_left haway
  · exact hf σ' inner hw fun P hP => hknown.mono fun name h => h P hP

/-- Looks up a name that is not that of the variable. -/
theorem beside_lookup {ε : Type} {name : String} (hname : Misses σ scope name) :
    Beside σ (Step.inspect (·.lookup scope name) : Step ε (Option Value))
      (Step.inspect (·.lookup scope name)) :=
  .inspect (fun x hx _ hs => Heap.lookup_drop ((hname x hx).imp_left (hs.away scope)))
    fun _ _ => trivial

/-- Binds names that are not that of the variable, and goes on. -/
theorem beside_declareAll {ε : Type} {bindings : List (String × Value)} {x y : Step ε α}
    {Q : α → Prop} (hnames : Avoids σ scope fun t => ∀ b ∈ bindings, b.1 ≠ t)
    (hx : Beside σ x y Q) :
    Beside σ (Step.change (·.declareAll scope bindings) >>= fun _ => x)
      (Step.change (·.declareAll scope bindings) >>= fun _ => y) Q :=
  beside_change (fun x hx _ hs =>
    hs.declareAll ((hnames x hx).imp_left fun ha => (hs.away scope ha).ne)) hx

/-- Declares a name that is not that of the variable, and goes on. -/
theorem beside_declare {ε : Type} {name : String} {v : Value} {x y : Step ε α} {Q : α → Prop}
    (hname : Misses σ scope name) (hx : Beside σ x y Q) :
    Beside σ (Step.change (·.declare scope name v) >>= fun _ => x)
      (Step.change (·.declare scope name v) >>= fun _ => y) Q :=
  beside_change (fun x hx _ hs =>
    hs.declare ((hname x hx).imp_left fun ha => (hs.away scope ha).ne) v) hx

theorem misses_this : Misses σ scope "this" := fun x _ => .inr (Ne.symm x.ne_this)

theorem misses_super : Misses σ scope "super" := fun x _ => .inr (Ne.symm x.ne_super)

namespace Evaluator

/-! ## What needs no parts -/

theorem beside_lengthProperty (n : Nat) (name : Token) :
    Beside σ (lengthProperty n name) (lengthProperty n name) := by
  unfold lengthProperty
  split
  · exact .done
  · exact .failAt

/-- A bound method has the text of the method. If that text is unaware of the variable, so is the
    new function. -/
theorem beside_boundMethod {f : Function} (hf : Unaware σ f.closure f.declaration.nodes)
    (r : Ref .inst) :
    Beside σ (Step.allocate (·.boundMethod f r) : Step RuntimeError Value)
      (Step.allocate (·.boundMethod f r)) :=
  .allocate (fun x hx _ hs => hs.boundMethod ((hf x hx).imp_left (hs.away f.closure)) r)
    fun _ _ => trivial

/-- Makes a function in a scope. -/
theorem beside_newFunction {f : Function} (hf : Unaware σ f.closure f.declaration.nodes) :
    Beside σ (Step.allocate (·.newFunction f) : Step RuntimeError (Ref .function))
      (Step.allocate (·.newFunction f)) :=
  .allocate (fun x hx _ hs => hs.newFunction ((hf x hx).imp_left (hs.away f.closure)))
    fun _ _ => trivial

/-- Methods are on the heap, and so they are sound; from what is known of the heap it follows that
    the bound one ignores the variable. -/
theorem beside_property (object : Value) (name : Token) :
    Beside σ (property object name) (property object name) := by
  unfold property
  cases object with
  | inst r =>
      refine .bind (beside_inspect fun _ _ => rfl) fun field _ => ?_
      cases field with
      | some v => exact .done
      | none =>
          refine beside_find id (fun _ _ => rfl) (fun _ _ => Heap.stored_instanceMethod?)
            fun σ method hm => ?_
          cases method with
          | some f => exact beside_boundMethod (hm f rfl) r
          | none => exact .failAt
  | cls c =>
      refine .bind (beside_inspect fun _ _ => rfl) fun method _ => ?_
      cases method with
      | some f => exact .done
      | none => exact .failAt
  | host r =>
      refine .bind (beside_inspect fun _ _ => rfl) fun member _ => ?_
      cases member with
      | some v => exact .done
      | none => exact .failAt
  | string s => exact beside_lengthProperty _ name
  | list r => exact .bind (beside_inspect fun _ _ => rfl) fun _ _ => beside_lengthProperty _ name
  | dict r => exact .bind (beside_inspect fun _ _ => rfl) fun _ _ => beside_lengthProperty _ name
  | _ => exact .failAt

theorem beside_setProperty (object : Value) (name : Token) (v : Value) :
    Beside σ (setProperty object name v) (setProperty object name v) := by
  unfold setProperty
  cases object with
  | inst r => exact .change fun _ _ _ hx => hx.setField r _ v
  | host r => exact .blame name (.attempt fun _ _ _ hx => hx.setMember r _ v)
  | _ => exact .failAt

/-- `this` and `super` are never the name of the variable, so both are looked up alike. -/
theorem beside_superMethod (keyword method : Token) :
    Beside σ (superMethod keyword method scope) (superMethod keyword method scope) := by
  unfold superMethod
  refine .bind (beside_lookup misses_super) fun above _ => ?_
  refine .bind (beside_lookup misses_this) fun this _ => ?_
  split
  · refine beside_find id (fun _ _ => rfl) (fun _ _ => Heap.stored_method?) fun σ method hm => ?_
    cases method with
    | some f => exact beside_boundMethod (hm f rfl) _
    | none => exact .failAt
  · exact .failAt

/-- A name that misses the variable means the same on both sides. -/
theorem beside_meaning {name : String} (hname : Misses σ scope name) (token : Token) :
    Beside σ (meaning name token scope) (meaning name token scope) := by
  unfold meaning
  refine .bind (beside_lookup hname) fun found _ => ?_
  cases found with
  | some v => exact .done
  | none => exact .failAt

theorem beside_closure {d : FunctionDecl} (hd : Unaware σ scope d.nodes) :
    Beside σ (closure d scope) (closure d scope) :=
  .bind (beside_newFunction hd) fun _ _ => .done

theorem beside_leaveRound (keyword : Token) (flow : Flow) :
    Beside σ (leaveRound keyword flow) (leaveRound keyword flow) := by
  refine beside_observe (fun _ _ => rfl) fun inside => ?_
  cases inside with
  | true => exact .done
  | false => exact .failAt

/-! ## Classes -/

/-- The superclass is a name in the text of the class, which is unaware of the variable. -/
theorem beside_superClass {c : ClassDecl} (hc : Unaware σ scope c.nodes) :
    Beside σ (superClass c scope) (superClass c scope) := by
  cases c with
  | mk name superClass methods staticMethods =>
  unfold Evaluator.superClass
  cases superClass with
  | none => exact .done
  | some above =>
      have hname : Misses σ scope above.lexeme :=
        hc.ne (List.mem_append_right _ List.mem_cons_self)
      refine .bind (beside_lookup hname) fun found _ => ?_
      split
      · exact .done
      · exact .failAt
      · exact .failAt

/-- Nothing is seen from the scope of the methods that is not seen from that of the class. -/
theorem beside_methodScope {f g : Ref .scope → Step RuntimeError α} {Q : α → Prop}
    (above : Option (Ref .cls))
    (hf : ∀ σ' inner, Wider σ σ' → (∀ P, Avoids σ scope P → Avoids σ' inner P) →
      Beside σ' (f inner) (g inner) Q) :
    Beside σ (methodScope above scope >>= f) (methodScope above scope >>= g) Q := by
  cases above with
  | none => exact hf σ scope ⟨id, id⟩ fun _ => id
  | some c =>
      -- The scope is made and bound first, and only then the class goes on.
      show Beside σ
        (Step.allocate (·.newScope (some scope)) >>= fun inner =>
          Step.change (·.declare inner "super" (.cls c)) >>= fun _ => f inner)
        (Step.allocate (·.newScope (some scope)) >>= fun inner =>
          Step.change (·.declare inner "super" (.cls c)) >>= fun _ => g inner) Q
      exact beside_newScope fun σ' inner hw hinner =>
        beside_declare misses_super (hf σ' inner hw hinner)

/-- The methods are made in the scope of the class, each of them unaware of the variable because the
    text of the class is. -/
theorem beside_methods {initializers : Bool} {ds : List FunctionDecl}
    (hds : Unaware σ scope (nodesMethods ds)) (table : Bindings (Ref .function)) :
    Beside σ (methods initializers scope ds table) (methods initializers scope ds table) := by
  induction ds generalizing table with
  | nil => exact .done
  | cons d rest ih =>
      obtain ⟨hd, hrest⟩ := Unaware.append hds
      exact .bind (beside_newFunction hd) fun ref _ => ih hrest _

/-- Superclass, scope of the methods, the two tables, and then the class itself. -/
theorem beside_declareClass {c : ClassDecl} (hc : Unaware σ scope c.nodes) :
    Beside σ (declareClass c scope) (declareClass c scope) := by
  have habove : Beside σ (superClass c scope) (superClass c scope) := beside_superClass hc
  cases c with
  | mk name superClass methods staticMethods =>
  obtain ⟨hown, hstatic⟩ := hc.tail.append
  have hname : Misses σ scope name.lexeme := hc.ne (List.mem_append_left _ List.mem_cons_self)
  unfold declareClass
  refine .bind habove fun above _ => beside_methodScope above fun σ' inner hw hinner => ?_
  refine .bind (beside_methods (hinner _ hown) _) fun own _ => ?_
  refine .bind (beside_methods (hinner _ hstatic) _) fun static _ => ?_
  refine .bind (beside_allocate fun _ _ hx => hx.newClass _) fun ref _ => ?_
  exact beside_declare (hw.avoids hname) .done

/-! ## Operators -/

/-- The method that the application of an operator comes to, if it does. -/
def methodOf? : Except Fault Applied → Option Function
  | .ok a => a.method?
  | .error _ => none

/-- Where an operator comes to a method, the method is one that is stored on the heap. -/
theorem stored_methodOf? {h : Heap} {r : Except Fault Applied} {f : Function}
    (hr : ∀ a f, r = .ok a → a.method? = some f → h.Stored f) (hf : methodOf? r = some f) :
    h.Stored f := by
  cases r with
  | ok a => exact hr a f rfl hf
  | error fault => cases hf

/-! ## Parts -/

/-- Two evaluators are beside each other on parts that have nothing to do with the variable,
    whichever it is. The left one may go round a loop less often. -/
structure Beside (ev ev' : Evaluator) : Prop where
  limit : ev.limit = ev'.limit
  rounds : ev.rounds ≤ ev'.rounds
  statement : ∀ {σ s scope}, Unaware σ scope s.nodes →
    Step.Beside σ (ev.statement s scope) (ev'.statement s scope)
  expression : ∀ {σ e scope}, Unaware σ scope e.nodes →
    Step.Beside σ (ev.expression e scope) (ev'.expression e scope)
  body : ∀ {σ b scope}, Unaware σ scope b.nodes →
    Step.Beside σ (ev.body b scope) (ev'.body b scope)

namespace Beside

variable {ev ev' : Evaluator}

/-- Statements one after the other. Each is unaware of the variable because their nodes are part of
    those of the whole. -/
theorem statements (hev : Beside ev ev') {ss : List Stmt} (hss : Unaware σ scope (nodesLines ss)) :
    Step.Beside σ (ev.statements ss scope) (ev'.statements ss scope) := by
  induction ss with
  | nil => exact .done
  | cons s rest ih =>
      obtain ⟨hs, hrest⟩ := Unaware.append hss
      refine .bind (hev.statement hs) fun flow _ => ?_
      cases flow with
      | run => exact ih hrest
      | _ => exact .done

theorem program (hev : Beside ev ev') {ss : List Stmt} (hss : Unaware σ scope (nodesLines ss)) :
    Step.Beside σ (ev.program ss scope) (ev'.program ss scope) := by
  induction ss with
  | nil => exact .done
  | cons s rest ih =>
      obtain ⟨hs, hrest⟩ := Unaware.append hss
      refine .bind (hev.statement hs) fun flow _ => ?_
      cases flow with
      | returned v => exact .done
      | _ => exact ih hrest

theorem values (hev : Beside ev ev') {es : List Expr} (hes : Unaware σ scope (nodesList es)) :
    Step.Beside σ (ev.values es scope) (ev'.values es scope) := by
  induction es with
  | nil => exact .done
  | cons e rest ih =>
      obtain ⟨he, hrest⟩ := Unaware.append hes
      exact .bind (hev.expression he) fun _ _ => .bind (ih hrest) fun _ _ => .done

theorem entries (hev : Beside ev ev') {es : List (Expr × Expr)}
    (hes : Unaware σ scope (nodesEntries es)) :
    Step.Beside σ (ev.entries es scope) (ev'.entries es scope) := by
  induction es with
  | nil => exact .done
  | cons e rest ih =>
      obtain ⟨hkey, hes⟩ := Unaware.append hes
      obtain ⟨hvalue, hrest⟩ := hes.append
      refine .bind (hev.expression hkey) fun _ _ => .bind (hev.expression hvalue) fun _ _ => ?_
      exact .bind (ih hrest) fun _ _ => .done

/-! ## Accesses -/

/-- A component of a slice that is there has to be a number. -/
theorem component (hev : Beside ev ev') {part : Option Expr} (hpart : Unaware σ scope (nodes? part))
    (bracket : Token) :
    Step.Beside σ (ev.component part bracket scope) (ev'.component part bracket scope) := by
  unfold Evaluator.component
  cases part with
  | none => exact .done
  | some e =>
      refine .bind (hev.expression hpart) fun v _ => ?_
      cases v with
      | number x => exact .done
      | _ => exact .failAt

/-- The parts in the brackets of an access do not mention the variable. -/
structure InBrackets (σ : Option Aside) (scope : Ref .scope) (a : Access) : Prop where
  first : Unaware σ scope (nodes? a.first)
  second : Unaware σ scope (nodes? a.second)
  third : Unaware σ scope (nodes? a.third)

/-- The nodes of an access are those of the object and of what stands in the brackets. -/
theorem InBrackets.of_nodes {a : Access} (ha : Unaware σ scope a.nodes) :
    Unaware σ scope a.object.nodes ∧ InBrackets σ scope a := by
  cases a with
  | mk object bracket first firstColon second secondColon third =>
  obtain ⟨hobject, ha⟩ := ha.tail.append
  obtain ⟨hfirst, ha⟩ := ha.append
  obtain ⟨hsecond, hthird⟩ := ha.append
  exact ⟨hobject, hfirst, hsecond, hthird⟩

/-- A slice is its components from left to right. -/
theorem slice (hev : Beside ev ev') {a : Access} (ha : InBrackets σ scope a) :
    Step.Beside σ (ev.slice a scope) (ev'.slice a scope) := by
  unfold Evaluator.slice
  split
  · exact .failAt
  · refine .bind (hev.component ha.first a.bracket) fun position _ => ?_
    split
    · split
      · exact .done
      · exact .failAt
    · refine .bind (hev.component ha.second a.bracket) fun _ _ => ?_
      exact .bind (hev.component ha.third a.bracket) fun _ _ => .done

theorem key (hev : Beside ev ev') {a : Access} (ha : InBrackets σ scope a) :
    Step.Beside σ (ev.key a scope) (ev'.key a scope) := by
  have hfirst := ha.first
  unfold Evaluator.key
  cases hpart : a.first with
  | none => exact .failAt
  | some e =>
      rw [hpart] at hfirst
      dsimp only
      split
      · exact hev.expression hfirst
      · exact .failAt

/-- What stands in brackets is evaluated without a look at the object in front of them. -/
theorem brackets (hev : Beside ev ev') {a : Access} (ha : InBrackets σ scope a) (e e' : Expr) :
    Step.Beside σ (ev.key { a with object := e } scope) (ev'.key { a with object := e' } scope)
      ∧ Step.Beside σ (ev.slice { a with object := e } scope)
        (ev'.slice { a with object := e' } scope) :=
  ⟨hev.key (a := a) ha, hev.slice (a := a) ha⟩

/-- Reads through brackets behind two expressions that end beside each other. -/
theorem readOf (hev : Beside ev ev') {a : Access} (ha : InBrackets σ scope a) {e e' : Expr}
    {m m' : Machine}
    (hobject : (ev.expression e scope m).Beside σ (fun _ => True) (ev'.expression e' scope m')) :
    (ev.read { a with object := e } scope m).Beside σ (fun _ => True)
      (ev'.read { a with object := e' } scope m') := by
  obtain ⟨hkey, hslice⟩ := hev.brackets ha e e'
  unfold Evaluator.read
  refine Step.Beside.bind_at hobject fun object _ => ?_
  cases object with
  | dict r =>
      refine .bind hkey fun k _ => .bind (beside_inspect fun _ _ => rfl) fun found _ => ?_
      exact .bind (beside_blame_ofExcept _ _) fun _ _ => .done
  | list r =>
      refine .bind hslice fun s _ => ?_
      refine .bind (beside_inspect fun _ _ => rfl) fun selected _ => ?_
      refine .bind (beside_blame_ofExcept _ _) fun selection _ => ?_
      cases selection with
      | element v => exact .done
      | items vs => exact beside_allocate fun _ _ hx => hx.newList _
  | string text =>
      refine .bind hslice fun s _ => ?_
      refine .bind (beside_blame_ofExcept _ _) fun selection _ => ?_
      cases selection with
      | element c => exact .done
      | items cs => exact .done
  | _ => exact .failAt

theorem read (hev : Beside ev ev') {a : Access} (ha : Unaware σ scope a.nodes) :
    Step.Beside σ (ev.read a scope) (ev'.read a scope) := by
  obtain ⟨hobject, hbrackets⟩ := InBrackets.of_nodes ha
  exact fun m m' hm => hev.readOf hbrackets (hev.expression hobject m m' hm)

/-- Stores through brackets behind two expressions that end beside each other. -/
theorem storeOf (hev : Beside ev ev') {a : Access} (ha : InBrackets σ scope a) {e e' : Expr}
    {m m' : Machine} (v : Value)
    (hobject : (ev.expression e scope m).Beside σ (fun _ => True) (ev'.expression e' scope m')) :
    (ev.store { a with object := e } v scope m).Beside σ (fun _ => True)
      (ev'.store { a with object := e' } v scope m') := by
  obtain ⟨hkey, hslice⟩ := hev.brackets ha e e'
  unfold Evaluator.store
  refine Step.Beside.bind_at hobject fun object _ => ?_
  cases object with
  | dict r =>
      exact .bind hkey fun k _ => .blame a.bracket (.attempt fun _ _ _ hx =>
        hx.insertEntry r k v)
  | list r =>
      refine .bind hslice fun s _ => ?_
      cases s with
      | range start stop step => exact .failAt
      | index position =>
          dsimp only
          split
          · exact .failAt
          · exact .blame a.bracket (.attempt fun _ _ _ hx => hx.setElement r _ v)
  | _ => exact .failAt

theorem store (hev : Beside ev ev') {a : Access} (ha : Unaware σ scope a.nodes) (v : Value) :
    Step.Beside σ (ev.store a v scope) (ev'.store a v scope) := by
  obtain ⟨hobject, hbrackets⟩ := InBrackets.of_nodes ha
  exact fun m m' hm => hev.storeOf hbrackets v (hev.expression hobject m m' hm)

/-! ## Calls -/

/-- The scope of the call lies inside the closure. What the text avoids from there it avoids from
    the new scope too. -/
theorem callFunction (hev : Beside ev ev') {f : Function}
    (hf : Unaware σ f.closure f.declaration.nodes) (arguments : List Value) (token : Token) :
    Step.Beside σ (ev.callFunction f arguments token) (ev'.callFunction f arguments token) := by
  obtain ⟨hbody, hnames⟩ : Unaware σ f.closure f.declaration.body.nodes
      ∧ Avoids σ f.closure fun t => ∀ p ∈ f.declaration.parameters, p.lexeme ≠ t := by
    cases hd : f.declaration with
    | mk name parameters body =>
        rw [hd] at hf
        refine ⟨hf.tail, hf.mono fun t ht p hp => ht.ne ?_⟩
        exact List.mem_append_left _ (List.mem_cons_of_mem _ (List.mem_map_of_mem hp))
  unfold Evaluator.callFunction
  rw [hev.limit]
  split
  · exact .failAt
  · refine beside_observe (fun _ _ => rfl) fun depth => ?_
    split
    · exact .failAt
    -- The scope of the call lies where the closure does: what the text avoids it avoids there too.
    · refine beside_newScope fun σ' inner _ hinner => ?_
      refine beside_declareAll ((hinner _ hnames).mono fun t ht b hb => ?_) ?_
      · obtain ⟨p, hp, hname⟩ := List.mem_map.mp (List.of_mem_zip hb).1
        exact hname ▸ ht p hp
      · refine .bind (.inFunction token (hev.body (hinner _ hbody))) fun flow _ => ?_
        split
        · exact .bind (beside_lookup misses_this) fun this _ => by
            cases this with
            | some v => exact .done
            | none => exact .failAt
        · exact .done

/-- An instance is made, and its initializer is found on the heap and bound, whatever the variable
    is. -/
theorem instantiate (hev : Beside ev ev') (c : Ref .cls) (arguments : List Value)
    (token : Token) :
    Step.Beside σ (ev.instantiate c arguments token) (ev'.instantiate c arguments token) := by
  unfold Evaluator.instantiate
  refine .bind (beside_allocate fun _ _ hx => hx.newInstance c) fun r _ => ?_
  refine beside_find id (fun _ _ => rfl) (fun _ _ => Heap.stored_method?) fun σ init hinit => ?_
  cases init with
  | none =>
      dsimp only
      split
      · exact .done
      · exact .failAt
  | some init =>
      refine .allocate_bind (s := Function.closure)
        (P := fun bound name => Unmentioned name bound.declaration.nodes)
        (Q := fun _ => True) (fun _ _ _ hx => hx.bind init r) (fun _ _ => trivial) ?_ ?_
      · exact fun x hx h hs => hs.bind_ignored ((hinit init rfl x hx).imp_left (hs.away _)) r
      · intro σ' bound _ _ hbound
        exact .bind (hev.callFunction hbound arguments token) fun _ _ => .done

/-! ## Builtins -/

/-- A module may have the name of the variable in its text, but it runs in a scope that lies away
    from it. -/
theorem loadModule (hev : Beside ev ev') (path : String) :
    Step.Beside σ (ev.loadModule path) (ev'.loadModule path) fun r => ∀ x ∈ σ, r ≠ x.scope := by
  unfold Evaluator.loadModule
  refine beside_observe (fun _ _ => rfl) fun source => beside_argument fun text => ?_
  refine beside_argument fun program => ?_
  refine .allocate_bind (s := id) (P := fun _ _ => False) (Q := fun r => ∀ x ∈ σ, r ≠ x.scope)
    (fun _ _ _ hx => (hx.newProgramScope _).1) ?_ ?_ fun σ' inner _ hne hinner => ?_
  · exact fun _ hh x hx => ((hh x hx).newProgramScope _).2.ne
  · exact fun _ _ _ hx => .inl (hx.newProgramScope _).2
  · have hprogram : Unaware σ' inner (nodesLines program) := hinner.mono fun _ h => h.elim
    exact .bind (.apart (.mapError (hev.program hprogram))) fun _ _ => .pure hne

end Beside

theorem beside_describeAll (entries : List (String × Entry)) :
    Step.Beside σ (Builtin.describeAll entries) (Builtin.describeAll entries) := by
  induction entries with
  | nil => exact .done
  | cons e rest ih =>
      refine .bind (beside_allocate fun _ _ hx => hx.newDict _) fun v _ => ?_
      exact .bind ih fun _ _ => .done

/-- The steps that a builtin performs know nothing of scopes, so none of them sees the variable. -/
theorem beside_performs {arguments : List Value} {x : Step Fault Value}
    (hx : Builtin.Performs arguments x) : Step.Beside σ x x := by
  induction hx with
  | gives _ => exact .done
  | fails _ => exact .fail
  | checks _ _ ih => exact beside_argument ih
  | asks hp _ ih => exact beside_observe hp ih
  | acts _ _ ih => exact beside_outside ih
  | shows _ ih =>
      refine .bind (beside_inspect fun x h => ?_) fun texts _ => ih texts
      exact List.map_congr_left fun v _ => Aside.display_drop v
  | lists _ => exact beside_allocate fun _ _ hx => hx.newList _
  | describes entries =>
      exact .bind (beside_describeAll entries) fun _ _ => beside_allocate fun _ _ hx => hx.newList _

namespace Beside

variable {ev ev' : Evaluator}

/-- All builtins but `import` are made of such steps, and `import` runs a module away from the
    variable. -/
theorem builtin (hev : Beside ev ev') (b : Builtin) (arguments : List Value) :
    Step.Beside σ (b.call ev arguments) (b.call ev' arguments) := by
  obtain ⟨script, module, rfl, rfl⟩ | ⟨heq, hx⟩ := b.call_cases ev ev' arguments
  · refine beside_argument fun module => .bind (.mapError (hev.loadModule _)) fun inner hinner => ?_
    refine .allocate (fun x hx h hs => hs.passes_of_same ?_ rfl rfl) fun _ _ => trivial
    rw [Heap.bindings_drop (hinner x hx)]
    rfl
  · rw [heq]
    exact beside_performs hx

/-- What is called is found on the heap: a function there is sound, which says what is known of its
    closure. -/
theorem callValue (hev : Beside ev ev') (callee : Value) (arguments : List Value)
    (token : Token) :
    Step.Beside σ (ev.callValue callee arguments token) (ev'.callValue callee arguments token) := by
  unfold Evaluator.callValue
  cases callee with
  | function r =>
      refine beside_find id (fun _ _ => rfl) (fun _ _ hg => ⟨r, hg⟩) fun σ f hf => ?_
      cases f with
      | some f => exact hev.callFunction (hf f rfl) arguments token
      | none => exact .failAt
  | cls c => exact hev.instantiate c arguments token
  | builtin r =>
      refine .bind (beside_inspect fun _ _ => rfl) fun b _ => ?_
      cases b with
      | some b => exact .blame token (hev.builtin b arguments)
      | none => exact .failAt
  | _ => exact .failAt

/-! ## Expressions -/

/-- What an operator came to is carried out; if this is a method, then it is called, and it is
    unaware of the variable. -/
theorem finish (hev : Beside ev ev') {applied : Except Fault Applied}
    (happlied : ∀ f, methodOf? applied = some f → Unaware σ f.closure f.declaration.nodes)
    (token : Token) : Step.Beside σ (ev.finish applied token) (ev'.finish applied token) := by
  unfold Evaluator.finish
  cases applied with
  | error fault => exact .failAt
  | ok a =>
      refine .bind (.blame token (.pure (Q := (a = ·)) rfl)) fun a ha => ?_
      subst ha
      refine .bind (.allocate (Q := fun _ => True) (fun x hx _ hs => ?_) fun _ _ => trivial)
        fun dispatch _ => ?_
      · exact hs.carryOut fun f hf => (happlied f hf x hx).imp_left (hs.away f.closure)
      · cases dispatch with
        | resolved v => exact .done
        | call callee arguments => exact hev.callValue callee arguments token

/-- Operands are evaluated from left to right before the operator is looked up on the heap that they
    leave. -/
theorem binary (hev : Beside ev ev') {left right : Expr} (hleft : Unaware σ scope left.nodes)
    (hright : Unaware σ scope right.nodes) (operator : Token) :
    Step.Beside σ (ev.binary left operator right scope) (ev'.binary left operator right scope) := by
  unfold Evaluator.binary
  refine .bind (hev.expression hleft) fun l _ => .bind (hev.expression hright) fun r _ => ?_
  cases Operator.ofBinary? operator.kind with
  | none => exact .failAt
  | some op =>
      exact beside_find methodOf? (fun _ _ => Aside.binary_drop op l r)
        (fun _ _ => stored_methodOf? fun _ _ ha => (Heap.ComesTo.of_binary ha).stored)
        fun _ _ happlied => hev.finish happlied operator

theorem unary (hev : Beside ev ev') {operand : Expr} (hoperand : Unaware σ scope operand.nodes)
    (operator : Token) :
    Step.Beside σ (ev.unary operator operand scope) (ev'.unary operator operand scope) := by
  unfold Evaluator.unary
  refine .bind (hev.expression hoperand) fun v _ => ?_
  split
  · exact .done
  · exact beside_find methodOf? (fun _ _ => Aside.unary_drop .neg v)
      (fun _ _ => stored_methodOf? fun _ _ ha => (Heap.ComesTo.of_unary ha).stored)
      fun _ _ happlied => hev.finish happlied operator
  · exact .failAt

theorem logical (hev : Beside ev ev') {left right : Expr} (hleft : Unaware σ scope left.nodes)
    (hright : Unaware σ scope right.nodes) (operator : Token) :
    Step.Beside σ (ev.logical left operator right scope)
      (ev'.logical left operator right scope) := by
  have hsecond : Step.Beside σ (do return Value.bool (← ev.expression right scope).truthy)
      (do return Value.bool (← ev'.expression right scope).truthy) :=
    .bind (hev.expression hright) fun _ _ => .done
  unfold Evaluator.logical
  refine .bind (hev.expression hleft) fun l _ => ?_
  dsimp only
  split
  · exact .ite .done hsecond
  · exact .ite hsecond .done
  · exact .failAt

/-- An assignment mentions its name, so the name misses the variable and the scope that has it is
    another one or the same on both sides. -/
theorem assign (hev : Beside ev ev') {name : Token} {value : Expr} {access : Option Access}
    (he : Unaware σ scope (Expr.assign name value access).nodes) :
    Step.Beside σ (ev.assign name value access scope) (ev'.assign name value access scope) := by
  obtain ⟨hvalue, haccess⟩ := he.tail.append
  unfold Evaluator.assign
  refine .bind (hev.expression hvalue) fun v _ => ?_
  cases access with
  | some a => exact .bind (hev.store haccess v) fun _ _ => .done
  | none =>
      have hname : Misses σ scope name.lexeme :=
        he.ne (List.mem_append_left _ List.mem_cons_self)
      exact .bind (.blame name (.attempt fun x hx _ hs =>
        hs.assign ((hname x hx).imp_left (hs.away scope)) v)) fun _ _ => .done

/-- The object is evaluated, then the value, and then the property or the part behind the brackets
    is set. -/
theorem set (hev : Beside ev ev') {object value : Expr} {name : Token} {access : Option Access}
    (he : Unaware σ scope (Expr.set object name value access).nodes) :
    Step.Beside σ (ev.set object name value access scope)
      (ev'.set object name value access scope) := by
  obtain ⟨hobject, he⟩ := he.tail.append
  obtain ⟨hvalue, haccess⟩ := he.append
  unfold Evaluator.set
  refine .bind (hev.expression hobject) fun o _ => ?_
  split
  · exact .failAt
  · refine .bind (hev.expression hvalue) fun v _ => ?_
    cases access with
    | some a => exact .bind (hev.store haccess v) fun _ _ => .done
    | none => exact .bind (beside_setProperty o name v) fun _ _ => .done

/-- Parentheses go on with the same evaluator, so the step is taken for the inner expression. -/
theorem expressionStep (hev : Beside ev ev') : ∀ {e : Expr}, Unaware σ scope e.nodes →
    Step.Beside σ (ev.expressionStep e scope) (ev'.expressionStep e scope)
  | .grouping inner, he => by
      rw [Evaluator.expressionStep, Evaluator.expressionStep]
      exact expressionStep hev he.tail
  | .list elements bracket, he =>
      .bind (hev.values he.tail) fun _ _ => beside_allocate fun _ _ hx => hx.newList _
  | .dict entries brace, he =>
      .bind (hev.entries he.tail) fun _ _ => .bind (beside_blame_ofExcept _ _) fun _ _ =>
        beside_allocate fun _ _ hx => hx.newDict _
  | .assign name value access, he => hev.assign he
  | .access a, he => hev.read he.tail
  | .binary left operator right, he => hev.binary he.tail.append.1 he.tail.append.2 operator
  | .call callee paren arguments, he =>
      .bind (hev.expression he.tail.append.1) fun f _ =>
        .bind (hev.values he.tail.append.2) fun vs _ => hev.callValue f vs paren
  | .get object name, he => .bind (hev.expression he.tail) fun o _ => beside_property o name
  | .set object name value access, he => hev.set he
  | .super keyword method, _ => beside_superMethod keyword method
  | .literal c, _ => .done
  | .logical left operator right, he => hev.logical he.tail.append.1 he.tail.append.2 operator
  | .this keyword, _ => beside_meaning misses_this keyword
  | .unary operator operand, he => hev.unary he.tail operator
  | .var name, he => beside_meaning (he.ne List.mem_cons_self) name
  | .function d, he => beside_closure he.tail

/-! ## Statements -/

theorem optional (hev : Beside ev ev') {e : Option Expr} (he : Unaware σ scope (nodes? e)) :
    Step.Beside σ (ev.optional e scope) (ev'.optional e scope) := by
  cases e with
  | some e => exact hev.expression he
  | none => exact .done

/-- Branches, by induction on those that are left. -/
theorem branches (hev : Beside ev ev') {elseBranch : Option (List Stmt)}
    {elifs : List ElifBranch} (helse : Unaware σ scope (nodesElse elseBranch))
    (helifs : Unaware σ scope (nodesElifs elifs)) :
    Step.Beside σ (ev.branches elseBranch scope elifs) (ev'.branches elseBranch scope elifs) := by
  induction elifs with
  | nil =>
      cases elseBranch with
      | some ss => exact hev.statements helse.tail
      | none => exact .done
  | cons branch rest ih =>
      cases branch with
      | mk condition body =>
      obtain ⟨hcondition, helifs⟩ := Unaware.append helifs
      obtain ⟨hbody, hrest⟩ := helifs.tail.append
      exact .bind (hev.expression hcondition) fun v _ => .ite (hev.statements hbody) (ih hrest)

/-- Each round declares the names again in the scope of the loop. They are not the name of the
    variable, or the variable is out of sight there. -/
theorem eachRow (hev : Beside ev ev') {names : List String} {body : Stmt}
    (hnames : Avoids σ scope fun t => ∀ name ∈ names, name ≠ t)
    (hbody : Unaware σ scope body.nodes) (rows : List (List Value)) :
    Step.Beside σ (ev.eachRow names body scope rows) (ev'.eachRow names body scope rows) := by
  induction rows with
  | nil => exact .done
  | cons row rest ih =>
      refine beside_declareAll (hnames.mono fun t ht b hb => ht b.1 (List.of_mem_zip hb).1) ?_
      refine .bind (hev.statement hbody) fun flow _ => ?_
      cases flow with
      | returned v => exact .done
      | broke => exact .done
      | _ => exact ih

end Beside

end Evaluator

/-- A loop, by induction on how often the left one may go round. -/
theorem beside_loop {condition condition' : Step RuntimeError Value}
    {body body' : Step RuntimeError Flow} {after after' : Step RuntimeError Unit}
    (hcondition : Beside σ condition condition') (hbody : Beside σ body body')
    (hafter : Beside σ after after') {n n' : Nat} (hn : n ≤ n') :
    Beside σ (Evaluator.loop condition body after n)
      (Evaluator.loop condition' body' after' n') := by
  induction n generalizing n' with
  | zero => exact .exhausted
  | succ n ih =>
      obtain ⟨n', rfl⟩ := Nat.exists_eq_add_of_le' hn
      refine .bind hcondition fun v _ => .ite (.bind hbody fun flow _ => ?_) .done
      cases flow with
      | returned v => exact .done
      | broke => exact .done
      | _ => exact .bind hafter fun _ _ => ih (Nat.le_add_left n n')

namespace Evaluator.Beside

variable {ev ev' : Evaluator}

/-- One case for each kind of statement. Loops are the ones in which the left evaluator may run out
    of rounds first. -/
theorem statementStep (hev : Beside ev ev') {s : Stmt} (hs : Unaware σ scope s.nodes) :
    Step.Beside σ (ev.statementStep s scope) (ev'.statementStep s scope) := by
  unfold Evaluator.statementStep
  cases s with
  | expr e => exact .bind (hev.expression hs.tail) fun _ _ => .done
  | tryCatch body name handler =>
      obtain ⟨hbody, hhandler⟩ := hs.tail.append
      refine .rescue (hev.statement hbody) fun e => ?_
      refine beside_newScope fun σ' inner _ hinner => ?_
      exact beside_declare (hinner _ (hs.ne (List.mem_append_left _ List.mem_cons_self)))
        (hev.statement (hinner _ hhandler))
  | forLoop keyword initializer condition increment body =>
      obtain ⟨hinitializer, hs⟩ := hs.tail.append
      obtain ⟨hcondition, hs⟩ := hs.append
      obtain ⟨hincrement, hbody⟩ := hs.append
      have hafter : Step.Beside σ (do let _ ← ev.expression increment scope; return ())
          (do let _ ← ev'.expression increment scope; return ()) :=
        .bind (hev.expression hincrement) fun _ _ => .done
      have htest : Step.Beside σ (ev.expression condition scope) (ev'.expression condition scope) :=
        hev.expression hcondition
      have hround : Step.Beside σ (ev.statement body scope) (ev'.statement body scope) :=
        hev.statement hbody
      have hloop := beside_loop htest hround hafter hev.rounds
      cases initializer with
      | some s => exact .bind (hev.statement hinitializer) fun _ _ => .inLoop hloop
      | none => exact .inLoop hloop
  | forIn keyword identifiers collection body =>
      obtain ⟨hcollection, hbody⟩ := hs.tail.append
      have hnames : Avoids σ scope fun t => ∀ name ∈ identifiers.map (·.lexeme), name ≠ t :=
        hs.mono fun t ht name hname => ht.ne (List.mem_append_left _ hname)
      refine .bind (hev.expression hcollection) fun c _ => ?_
      refine .bind (beside_inspect fun _ _ => Aside.rows_drop _ c) fun rows _ => ?_
      refine .bind (beside_blame_ofExcept _ _) fun rows _ => ?_
      exact beside_newScope fun σ' inner _ hinner =>
        .inLoop (hev.eachRow (hinner _ hnames) (hinner _ hbody) rows)
  | declare name initializer =>
      exact .bind (hev.optional hs.tail) fun v _ =>
        beside_declare (hs.ne (List.mem_append_left _ List.mem_cons_self)) .done
  | block ss =>
      exact beside_newScope fun σ' inner _ hinner => hev.statements (hinner _ hs.tail.tail)
  | whileLoop keyword condition body =>
      obtain ⟨hcondition, hbody⟩ := hs.tail.append
      exact .inLoop (beside_loop (hev.expression hcondition) (hev.statement hbody) .done hev.rounds)
  | ret keyword value => exact .bind (hev.optional hs.tail) fun _ _ => .done
  | breakLoop keyword => exact beside_leaveRound keyword _
  | continueLoop keyword => exact beside_leaveRound keyword _
  | ifElse keyword condition thenBranch elifs elseBranch =>
      obtain ⟨hcondition, hs⟩ := hs.tail.append
      obtain ⟨hthen, hs⟩ := hs.tail.append
      obtain ⟨helifs, helse⟩ := hs.append
      exact .bind (hev.expression hcondition) fun v _ =>
        .ite (hev.statements hthen) (hev.branches helse helifs)
  | function d =>
      have htitle : Misses σ scope d.title := by
        cases d with
        | mk name parameters body =>
            exact hs.tail.ne (List.mem_append_left _ List.mem_cons_self)
      exact .bind (beside_closure hs.tail) fun v _ => beside_declare htitle .done
  | cls c => exact beside_declareClass hs.tail

theorem bodyStep (hev : Beside ev ev') {b : FunctionBody} (hb : Unaware σ scope b.nodes) :
    Step.Beside σ (ev.bodyStep b scope) (ev'.bodyStep b scope) := by
  cases b with
  | block ss => exact hev.statements hb.tail
  | expression e => exact .bind (hev.expression hb) fun _ _ => .done

end Evaluator.Beside

/-! ## Fuel -/

/-- The evaluator with less fuel is beside the one with more. -/
theorem Evaluator.beside_withFuel (limit : Nat) {fuel fuel' : Nat} (hle : fuel ≤ fuel') :
    Evaluator.Beside (withFuel limit fuel) (withFuel limit fuel') := by
  induction fuel generalizing fuel' with
  | zero => exact ⟨rfl, hle, fun _ => .exhausted, fun _ => .exhausted, fun _ => .exhausted⟩
  | succ fuel ih =>
      obtain ⟨fuel', rfl⟩ := Nat.exists_eq_add_of_le' hle
      have hparts : Evaluator.Beside (withFuel limit fuel) (withFuel limit (fuel' + fuel)) :=
        ih (Nat.le_add_left fuel fuel')
      refine ⟨rfl, hle, ?_, ?_, ?_⟩
      · intro σ s scope hs
        rw [withFuel_statement, ← Nat.add_assoc, withFuel_statement]
        exact hparts.statementStep hs
      · intro σ e scope he
        rw [withFuel_expression, ← Nat.add_assoc, withFuel_expression]
        exact hparts.expressionStep he
      · intro σ b scope hb
        rw [withFuel_body, ← Nat.add_assoc, withFuel_body]
        exact hparts.bodyStep hb

/-- **Fuel is a bound and nothing else.** An evaluation that ends within its fuel ends in the same
    way with more. -/
theorem evaluate_mono {limit fuel fuel' : Nat} (hle : fuel ≤ fuel') {e : Expr} {scope : Ref .scope}
    {m : Machine} (hends : evaluate limit fuel e scope m ≠ .outOfFuel) :
    evaluate limit fuel' e scope m = evaluate limit fuel e scope m := by
  have hsteps : Beside none ((Evaluator.withFuel limit fuel).expression e scope)
      ((Evaluator.withFuel limit fuel').expression e scope) :=
    (Evaluator.beside_withFuel limit hle).expression fun _ hx => by cases hx
  exact (hsteps m m ⟨rfl, rfl, rfl⟩).eq hends

end Script
