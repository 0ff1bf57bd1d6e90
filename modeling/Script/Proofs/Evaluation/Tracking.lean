import Script.Proofs.Evaluation.Tracks

/-!
# `Proofs.Evaluation.Tracking` — one evaluator at the heels of another

If an evaluator tracks another one on the parts of a node, then it tracks it on the node. There is
one lemma for each function of the evaluator, in the order of its modules. Two of them carry the
argument. In `Evaluator.Tracks.callFunction` the ceilings are compared: where the lower one is met
the left run gives up, and elsewhere both go on. In `Evaluator.Tracks.callValue` a capped run must
not import, since an import hides how the module failed.
-/

namespace Script

open Step (Tracks)

variable {α : Type} {capped : Prop} {scope : Ref .scope}

/-- The left step tracks the right one, and gives up only at the ceiling. -/
abbrev Tracked (capped : Prop) (x y : Step RuntimeError α) (Q : α → Prop := fun _ => True) : Prop :=
  Tracks capped (RuntimeError.GivesUp capped) x y Q

/-! ## A step and what follows it -/

/-- Takes a result, if it is one, and goes on with it. -/
theorem tracks_argument {ε β : Type} {G : ε → Prop} {r : Except ε α} {f g : α → Step ε β}
    {Q : β → Prop} (hf : ∀ a, Tracks capped G (f a) (g a) Q) :
    Tracks capped G (Step.ofExcept r >>= f) (Step.ofExcept r >>= g) Q :=
  .bind (.ofExcept (Q := fun _ => True) fun _ _ => trivial) fun a _ => hf a

/-- Looks at the machine and goes on with what it sees. -/
theorem tracks_observe {ε β : Type} {G : ε → Prop} {r : Machine → α} {f g : α → Step ε β}
    {Q : β → Prop} (hf : ∀ a, Tracks capped G (f a) (g a) Q) :
    Tracks capped G (Step.observe r >>= f) (Step.observe r >>= g) Q :=
  .bind (.observe (Q := fun _ => True) fun _ _ => trivial) fun a _ => hf a

/-- Changes the heap and goes on. -/
theorem tracks_change {ε : Type} {G : ε → Prop} {r : Heap → Heap} {x y : Step ε α} {Q : α → Prop}
    (hr : ∀ h, h.Tame capped → (r h).Tame capped) (hx : Tracks capped G x y Q) :
    Tracks capped G (Step.change r >>= fun _ => x) (Step.change r >>= fun _ => y) Q :=
  .bind (.change (Q := fun _ => True) hr trivial) fun _ _ => hx

/-- Changes the world and goes on. -/
theorem tracks_outside {ε : Type} {G : ε → Prop} {r : World → World} {x y : Step ε α}
    {Q : α → Prop} (hr : ∀ w : World, w.Onward (r w)) (hx : Tracks capped G x y Q) :
    Tracks capped G (Step.outside r >>= fun _ => x) (Step.outside r >>= fun _ => y) Q :=
  .bind (.outside (Q := fun _ => True) hr trivial) fun _ _ => hx

/-! ## Steps on the heap -/

/-- Makes something that is neither a function nor a host object. -/
theorem tracks_allocate {ε : Type} {G : ε → Prop} {f : Heap → α × Heap}
    (hfunctions : ∀ h, (f h).2.functions = h.functions) (hhosts : ∀ h, (f h).2.hosts = h.hosts) :
    Tracks capped G (Step.allocate f : Step ε α) (Step.allocate f) fun _ => True :=
  .allocate fun h hh => ⟨hh.of_same (hfunctions h) (hhosts h), trivial⟩

theorem tracks_inspect {ε : Type} {G : ε → Prop} {f : Heap → α} :
    Tracks capped G (Step.inspect f : Step ε α) (Step.inspect f) fun _ => True :=
  .inspect fun _ _ => trivial

/-- Looks for a function on the heap. -/
theorem tracks_find {ε : Type} {G : ε → Prop} {f : Heap → Option Function}
    (hf : ∀ h g, h.Tame capped → f h = some g → Tryless capped g.declaration.nodes) :
    Tracks capped G (Step.inspect f : Step ε (Option Function)) (Step.inspect f)
      fun r => ∀ g, r = some g → Tryless capped g.declaration.nodes :=
  .inspect fun h hh g hg => hf h g hh hg

theorem tracked_blame_ofExcept (r : Except Fault α) (token : Token) :
    Tracked capped (Step.blame token (Step.ofExcept r)) (Step.blame token (Step.ofExcept r)) :=
  .blame token (.ofExcept fun _ _ => trivial)

theorem tracked_newScope (parent : Option (Ref .scope)) :
    Tracked capped (Step.allocate (·.newScope parent)) (Step.allocate (·.newScope parent)) :=
  tracks_allocate (fun _ => rfl) fun _ => rfl

/-- Declares a name and runs on. -/
theorem tracked_declare (name : String) (v : Value) :
    Tracked capped (do Step.change (·.declare scope name v); return Flow.run)
      (do Step.change (·.declare scope name v); return Flow.run) :=
  tracks_change (fun _ hh => hh.of_same rfl rfl) (.pure trivial)

namespace Evaluator

/-! ## What needs no parts -/

theorem tracked_lengthProperty (n : Nat) (name : Token) :
    Tracked capped (lengthProperty n name) (lengthProperty n name) := by
  unfold lengthProperty
  split
  · exact .pure trivial
  · exact .failAt

/-- A bound method has the text of the method, and so no `try` if that has none. -/
theorem tracked_boundMethod {f : Function} (hf : Tryless capped f.declaration.nodes)
    (r : Ref .inst) :
    Tracked capped (Step.allocate (·.boundMethod f r)) (Step.allocate (·.boundMethod f r)) :=
  .allocate fun _ hh => ⟨hh.boundMethod hf r, trivial⟩

/-- A property takes no part in the race: neither ceiling is met. Methods come from a tame heap, so
    that the bound one keeps it tame. -/
theorem tracked_property (object : Value) (name : Token) :
    Tracked capped (property object name) (property object name) := by
  unfold property
  cases object with
  | inst r =>
      refine .bind tracks_inspect fun field _ => ?_
      cases field with
      | some v => exact .pure trivial
      | none =>
          refine .bind (tracks_find fun _ _ hh hg => hh.text.instanceMethod? hg) fun method hm => ?_
          cases method with
          | some f => exact tracked_boundMethod (hm f rfl) r
          | none => exact .failAt
  | cls c =>
      refine .bind tracks_inspect fun method _ => ?_
      cases method with
      | some f => exact .pure trivial
      | none => exact .failAt
  | host r =>
      refine .bind tracks_inspect fun member _ => ?_
      cases member with
      | some v => exact .pure trivial
      | none => exact .failAt
  | string s => exact tracked_lengthProperty _ name
  | list r => exact .bind tracks_inspect fun _ _ => tracked_lengthProperty _ name
  | dict r => exact .bind tracks_inspect fun _ _ => tracked_lengthProperty _ name
  | _ => exact .failAt

theorem tracked_setProperty (object : Value) (name : Token) (v : Value) :
    Tracked capped (setProperty object name v) (setProperty object name v) := by
  unfold setProperty
  cases object with
  | inst r => exact .change (fun _ hh => hh.of_same rfl rfl) trivial
  | host r => exact .blame name (.attempt (fun _ hh => hh.setMember r _ v) fun _ => trivial)
  | _ => exact .failAt

/-- The method above is on the heap too, and is bound like any other. -/
theorem tracked_superMethod (keyword method : Token) :
    Tracked capped (superMethod keyword method scope) (superMethod keyword method scope) := by
  unfold superMethod
  refine .bind tracks_inspect fun above _ => .bind tracks_inspect fun this _ => ?_
  split
  · refine .bind (tracks_find fun _ _ hh hg => hh.text.method? hg) fun method hm => ?_
    cases method with
    | some f => exact tracked_boundMethod (hm f rfl) _
    | none => exact .failAt
  · exact .failAt

theorem tracked_meaning (name : String) (token : Token) :
    Tracked capped (meaning name token scope) (meaning name token scope) := by
  unfold meaning
  refine .bind tracks_inspect fun found _ => ?_
  cases found with
  | some v => exact .pure trivial
  | none => exact .failAt

theorem tracked_closure {d : FunctionDecl} (hd : Tryless capped d.nodes) :
    Tracked capped (closure d scope) (closure d scope) :=
  .bind (.allocate (Q := fun _ => True) fun _ hh => ⟨hh.newFunction hd, trivial⟩) fun _ _ =>
    .pure trivial

theorem tracked_leaveRound (keyword : Token) (flow : Flow) :
    Tracked capped (leaveRound keyword flow) (leaveRound keyword flow) := by
  refine tracks_observe fun inside => ?_
  cases inside with
  | true => exact .pure trivial
  | false => exact .failAt

/-! ## Classes -/

theorem tracked_superClass (c : ClassDecl) :
    Tracked capped (superClass c scope) (superClass c scope) := by
  unfold superClass
  split
  · exact .pure trivial
  · refine .bind tracks_inspect fun found _ => ?_
    split
    · exact .pure trivial
    · exact .failAt
    · exact .failAt

theorem tracked_methodScope (above : Option (Ref .cls)) :
    Tracked capped (methodScope above scope) (methodScope above scope) := by
  cases above with
  | none => exact .pure trivial
  | some c =>
      refine .bind (tracked_newScope _) fun inner _ => ?_
      exact tracks_change (fun _ hh => hh.of_same rfl rfl) (.pure trivial)

/-- The methods of a class have its text, so there is no `try` in them if the run is capped. -/
theorem tracked_methods {initializers : Bool} {ds : List FunctionDecl}
    (hds : Tryless capped (nodesMethods ds)) (table : Bindings (Ref .function)) :
    Tracked capped (methods initializers scope ds table) (methods initializers scope ds table) := by
  induction ds generalizing table with
  | nil => exact .pure trivial
  | cons d rest ih =>
      obtain ⟨hd, hrest⟩ := List.forall_mem_append.mp hds
      refine .bind (.allocate (Q := fun _ => True) fun _ hh => ⟨hh.newFunction hd, trivial⟩) ?_
      exact fun ref _ => ih hrest _

/-- A class is declared by steps that neither call nor print. -/
theorem tracked_declareClass {c : ClassDecl} (hc : Tryless capped c.nodes) :
    Tracked capped (declareClass c scope) (declareClass c scope) := by
  cases c with
  | mk name superClass methods staticMethods =>
  obtain ⟨hown, hstatic⟩ := List.forall_mem_append.mp (List.forall_mem_cons.mp hc).2
  unfold declareClass
  refine .bind (tracked_superClass _) fun above _ => ?_
  refine .bind (tracked_methodScope above) fun inner _ => ?_
  refine .bind (tracked_methods hown _) fun own _ => .bind (tracked_methods hstatic _) fun _ _ => ?_
  refine .bind (tracks_allocate (fun _ => rfl) fun _ => rfl) fun ref _ => ?_
  exact tracked_declare _ _

/-! ## Parts -/

/-- The left evaluator tracks the right one on the parts of a node. -/
structure Tracks (capped : Prop) (ev ev' : Evaluator) : Prop where
  /-- If the run is capped, the left ceiling may be the lower one. -/
  limit : ev.limit = ev'.limit ∨ capped ∧ ev.limit ≤ ev'.limit
  rounds : ev.rounds = ev'.rounds
  statement : ∀ {s scope}, Tryless capped s.nodes →
    Tracked capped (ev.statement s scope) (ev'.statement s scope)
  expression : ∀ {e scope}, Tryless capped e.nodes →
    Tracked capped (ev.expression e scope) (ev'.expression e scope)
  body : ∀ {b scope}, Tryless capped b.nodes →
    Tracked capped (ev.body b scope) (ev'.body b scope)

namespace Tracks

variable {ev ev' : Evaluator}

/-- Statements one after the other. Where the left run gives up, nothing of what follows matters. -/
theorem statements (hev : Tracks capped ev ev') {ss : List Stmt}
    (hss : Tryless capped (nodesLines ss)) :
    Tracked capped (ev.statements ss scope) (ev'.statements ss scope) := by
  induction ss with
  | nil => exact .pure trivial
  | cons s rest ih =>
      obtain ⟨hs, hrest⟩ := List.forall_mem_append.mp hss
      refine .bind (hev.statement hs) fun flow _ => ?_
      cases flow with
      | run => exact ih hrest
      | _ => exact .pure trivial

theorem program (hev : Tracks capped ev ev') {ss : List Stmt}
    (hss : Tryless capped (nodesLines ss)) :
    Tracked capped (ev.program ss scope) (ev'.program ss scope) := by
  induction ss with
  | nil => exact .pure trivial
  | cons s rest ih =>
      obtain ⟨hs, hrest⟩ := List.forall_mem_append.mp hss
      refine .bind (hev.statement hs) fun flow _ => ?_
      cases flow with
      | returned v => exact .pure trivial
      | _ => exact ih hrest

theorem values (hev : Tracks capped ev ev') {es : List Expr} (hes : Tryless capped (nodesList es)) :
    Tracked capped (ev.values es scope) (ev'.values es scope) := by
  induction es with
  | nil => exact .pure trivial
  | cons e rest ih =>
      obtain ⟨he, hrest⟩ := List.forall_mem_append.mp hes
      exact .bind (hev.expression he) fun _ _ => .bind (ih hrest) fun _ _ => .pure trivial

theorem entries (hev : Tracks capped ev ev') {es : List (Expr × Expr)}
    (hes : Tryless capped (nodesEntries es)) :
    Tracked capped (ev.entries es scope) (ev'.entries es scope) := by
  induction es with
  | nil => exact .pure trivial
  | cons e rest ih =>
      obtain ⟨hkey, hes⟩ := List.forall_mem_append.mp hes
      obtain ⟨hvalue, hrest⟩ := List.forall_mem_append.mp hes
      refine .bind (hev.expression hkey) fun _ _ => .bind (hev.expression hvalue) fun _ _ => ?_
      exact .bind (ih hrest) fun _ _ => .pure trivial

/-! ## Accesses -/

theorem component (hev : Tracks capped ev ev') {part : Option Expr}
    (hpart : Tryless capped (nodes? part)) (bracket : Token) :
    Tracked capped (ev.component part bracket scope) (ev'.component part bracket scope) := by
  unfold Evaluator.component
  cases part with
  | none => exact .pure trivial
  | some e =>
      refine .bind (hev.expression hpart) fun v _ => ?_
      cases v with
      | number x => exact .pure trivial
      | _ => exact .failAt

/-- A slice is its components from left to right. -/
theorem slice (hev : Tracks capped ev ev') {a : Access} (ha : Tryless capped a.nodes) :
    Tracked capped (ev.slice a scope) (ev'.slice a scope) := by
  cases a with
  | mk object bracket first firstColon second secondColon third =>
  obtain ⟨-, ha⟩ := List.forall_mem_append.mp (List.forall_mem_cons.mp ha).2
  obtain ⟨hfirst, ha⟩ := List.forall_mem_append.mp ha
  obtain ⟨hsecond, hthird⟩ := List.forall_mem_append.mp ha
  unfold Evaluator.slice
  split
  · exact .failAt
  · refine .bind (hev.component hfirst bracket) fun position _ => ?_
    split
    · split
      · exact .pure trivial
      · exact .failAt
    · refine .bind (hev.component hsecond bracket) fun _ _ => ?_
      exact .bind (hev.component hthird bracket) fun _ _ => .pure trivial

theorem key (hev : Tracks capped ev ev') {a : Access} (ha : Tryless capped a.nodes) :
    Tracked capped (ev.key a scope) (ev'.key a scope) := by
  cases a with
  | mk object bracket first firstColon second secondColon third =>
  obtain ⟨-, ha⟩ := List.forall_mem_append.mp (List.forall_mem_cons.mp ha).2
  obtain ⟨hfirst, -⟩ := List.forall_mem_append.mp ha
  unfold Evaluator.key
  cases first with
  | none => exact .failAt
  | some e =>
      dsimp only
      split
      · exact hev.expression hfirst
      · exact .failAt

theorem object (hev : Tracks capped ev ev') {a : Access} (ha : Tryless capped a.nodes) :
    Tracked capped (ev.expression a.object scope) (ev'.expression a.object scope) := by
  cases a with
  | mk object bracket first firstColon second secondColon third =>
  exact hev.expression (List.forall_mem_append.mp (List.forall_mem_cons.mp ha).2).1

/-- Once the parts are evaluated, reading makes at most a list, and a list has no text. -/
theorem read (hev : Tracks capped ev ev') {a : Access} (ha : Tryless capped a.nodes) :
    Tracked capped (ev.read a scope) (ev'.read a scope) := by
  unfold Evaluator.read
  refine .bind (hev.object ha) fun object _ => ?_
  cases object with
  | dict r =>
      refine .bind (hev.key ha) fun k _ => .bind tracks_inspect fun found _ => ?_
      exact .bind (tracked_blame_ofExcept _ _) fun _ _ => .pure trivial
  | list r =>
      refine .bind (hev.slice ha) fun s _ => .bind tracks_inspect fun selected _ => ?_
      refine .bind (tracked_blame_ofExcept _ _) fun selection _ => ?_
      cases selection with
      | element v => exact .pure trivial
      | items vs => exact tracks_allocate (fun _ => rfl) fun _ => rfl
  | string text =>
      refine .bind (hev.slice ha) fun s _ => ?_
      refine .bind (tracked_blame_ofExcept _ _) fun selection _ => ?_
      cases selection with
      | element c => exact .pure trivial
      | items cs => exact .pure trivial
  | _ => exact .failAt

/-- Once the parts are evaluated, the store changes a list or a dictionary only. -/
theorem store (hev : Tracks capped ev ev') {a : Access} (ha : Tryless capped a.nodes) (v : Value) :
    Tracked capped (ev.store a v scope) (ev'.store a v scope) := by
  unfold Evaluator.store
  refine .bind (hev.object ha) fun object _ => ?_
  cases object with
  | dict r =>
      refine .bind (hev.key ha) fun k _ => .blame a.bracket (.attempt (fun _ hh => ?_) ?_)
      · exact hh.insertEntry r k v
      · exact fun _ => trivial
  | list r =>
      refine .bind (hev.slice ha) fun s _ => ?_
      cases s with
      | range start stop step => exact .failAt
      | index position =>
          dsimp only
          split
          · exact .failAt
          · exact .blame a.bracket (.attempt (fun _ hh => hh.setElement r _ v) fun _ => trivial)
  | _ => exact .failAt

/-! ## Calls -/

/-- Both runs have the same calls open. Where that is too many for the left ceiling, the left run
    gives up; otherwise it is not too many for the right one either. -/
theorem callFunction (hev : Tracks capped ev ev') {f : Function}
    (hf : Tryless capped f.declaration.nodes) (arguments : List Value) (token : Token) :
    Tracked capped (ev.callFunction f arguments token) (ev'.callFunction f arguments token) := by
  have hbody : Tryless capped f.declaration.body.nodes := by
    cases hd : f.declaration with
    | mk name parameters body =>
        rw [hd] at hf
        exact (List.forall_mem_cons.mp hf).2
  unfold Evaluator.callFunction
  split
  · exact .failAt
  · refine tracks_observe fun depth => ?_
    by_cases hleft : ev.limit ≤ depth
    · rw [if_pos hleft]
      rcases hev.limit with heq | ⟨hcapped, -⟩
      · rw [if_pos (heq ▸ hleft)]
        exact .failAt
      · exact .giveUp ⟨hcapped, rfl⟩
    · have hright : ¬ ev'.limit ≤ depth := by
        rcases hev.limit with heq | ⟨-, hle⟩
        · rwa [← heq]
        · omega
      rw [if_neg hleft, if_neg hright]
      refine .bind (tracked_newScope _) fun inner _ => ?_
      refine tracks_change (fun _ hh => hh.declareAll inner _) ?_
      refine .bind (.inFunction token (hev.body hbody)) fun flow _ => ?_
      split
      · exact .bind tracks_inspect fun this _ => by
          cases this with
          | some v => exact .pure trivial
          | none => exact .failAt
      · exact .pure trivial

/-- The initializer is a call, so it is there that a ceiling can be met. -/
theorem instantiate (hev : Tracks capped ev ev') (c : Ref .cls) (arguments : List Value)
    (token : Token) :
    Tracked capped (ev.instantiate c arguments token) (ev'.instantiate c arguments token) := by
  unfold Evaluator.instantiate
  refine .bind (tracks_allocate (fun _ => rfl) fun _ => rfl) fun r _ => ?_
  refine .bind (tracks_find fun _ _ hh hg => hh.text.method? hg) fun init hinit => ?_
  cases init with
  | none =>
      dsimp only
      split
      · exact .pure trivial
      · exact .failAt
  | some init =>
      refine .bind (.allocate (Q := fun bound => Tryless capped bound.declaration.nodes) ?_) ?_
      · exact fun h hh => ⟨hh.of_same rfl rfl, hinit init rfl⟩
      · intro bound hbound
        exact .bind (hev.callFunction hbound arguments token) fun _ _ => .pure trivial

/-! ## Builtins -/

/-- A module is run from a call stack of its own. Nothing is known of its text, so the run must not
    be capped. -/
theorem loadModule (hev : Tracks capped ev ev') (hcapped : ¬ capped) (path : String) :
    Step.Tracks capped (fun _ => False) (ev.loadModule path) (ev'.loadModule path)
      fun _ => True := by
  unfold Evaluator.loadModule
  refine tracks_observe fun source => tracks_argument fun text => tracks_argument fun program => ?_
  refine .bind (.allocate (Q := fun _ => True) fun _ hh => ⟨hh.newProgramScope _, trivial⟩) ?_
  intro inner _
  have htext : Tryless capped (nodesLines program) := fun _ _ h => absurd h hcapped
  refine .bind (.apart ((hev.program htext).mapError fun e he => ?_)) fun _ _ => .pure trivial
  exact hcapped he.1

end Tracks

theorem tracks_describeAll {G : Fault → Prop} (entries : List (String × Entry)) :
    Step.Tracks capped G (Builtin.describeAll entries) (Builtin.describeAll entries)
      fun _ => True := by
  induction entries with
  | nil => exact .pure trivial
  | cons e rest ih =>
      refine .bind (tracks_allocate (fun _ => rfl) fun _ => rfl) fun v _ => ?_
      exact .bind ih fun _ _ => .pure trivial

/-- A builtin may print lines but reports nothing, and what it makes on the heap are lists and
    dictionaries. -/
theorem tracks_performs {G : Fault → Prop} {arguments : List Value} {x : Step Fault Value}
    (hx : Builtin.Performs arguments x) : Step.Tracks capped G x x fun _ => True := by
  induction hx with
  | gives _ => exact .pure trivial
  | fails _ => exact .fail
  | checks _ _ ih => exact tracks_argument ih
  | asks _ _ ih => exact tracks_observe ih
  | acts hp _ ih => exact tracks_outside hp ih
  | shows _ ih => exact .bind tracks_inspect fun texts _ => ih texts
  | lists _ => exact tracks_allocate (fun _ => rfl) fun _ => rfl
  | describes entries =>
      exact .bind (tracks_describeAll entries) fun _ _ =>
        tracks_allocate (fun _ => rfl) fun _ => rfl

end Evaluator

/-- Whether a builtin imports modules. -/
def Builtin.isImport : Builtin → Bool
  | .importModule _ => true
  | _ => false

/-- Whether a value is a function that imports modules. -/
def Heap.isImport (h : Heap) : Value → Bool
  | .builtin r => ((h.builtins.get? r).map Builtin.isImport).getD false
  | _ => false

/-- Whether an expression is a call, in parentheses or not. -/
def Expr.isCall : Expr → Bool
  | .grouping inner => inner.isCall
  | .call _ _ _ => true
  | _ => false

namespace Evaluator.Tracks

variable {ev ev' : Evaluator}

/-- A builtin prints at most, and never gives up. -/
theorem builtin (hev : Tracks capped ev ev') {b : Builtin} (hb : capped → b.isImport = false)
    (arguments : List Value) :
    Step.Tracks capped (fun _ => False) (b.call ev arguments) (b.call ev' arguments)
      fun _ => True := by
  obtain ⟨script, module, rfl, rfl⟩ | ⟨heq, hx⟩ := b.call_cases ev ev' arguments
  · have hcapped : ¬ capped := fun h => by cases hb h
    refine tracks_argument fun module => ?_
    refine .bind ((hev.loadModule hcapped _).mapError fun _ he => he) fun inner _ => ?_
    exact .allocate fun _ hh => ⟨hh.newHost rfl, trivial⟩
  · rw [heq]
    exact tracks_performs hx

/-- Calls a value, from a machine on which a capped run does not import. -/
theorem callValue (hev : Tracks capped ev ev') {callee : Value} {m : Machine}
    (hm : m.heap.Tame capped) (hcallee : capped → m.heap.isImport callee = false)
    (arguments : List Value) (token : Token) :
    (ev.callValue callee arguments token m).Tracks capped (RuntimeError.GivesUp capped)
      (fun _ => True) m (ev'.callValue callee arguments token m) := by
  unfold Evaluator.callValue
  cases callee with
  | function r =>
      refine Step.Tracks.bind (tracks_find fun _ _ hh hg => hh.text r _ hg) (fun f hf => ?_) m hm
      cases f with
      | some f => exact hev.callFunction (hf f rfl) arguments token
      | none => exact .failAt
  | cls c => exact hev.instantiate c arguments token m hm
  | builtin r =>
      refine Step.Tracks.inspect_at rfl ?_
      cases hb : m.heap.builtins.get? r with
      | some b =>
          have himport : capped → b.isImport = false := by simpa [Heap.isImport, hb] using hcallee
          exact Step.Tracks.blame token (hev.builtin himport arguments) m hm
      | none => exact Step.Tracks.failAt m hm
  | _ => exact Step.Tracks.failAt m hm

/-! ## Expressions -/

/-- An operator comes to the call of a method at most, which is a function and imports nothing. -/
theorem finish (hev : Tracks capped ev ev') {applied : Except Fault Applied}
    (happlied : ∀ a, applied = .ok a → a.Tame capped) (token : Token) :
    Tracked capped (ev.finish applied token) (ev'.finish applied token) := by
  unfold Evaluator.finish
  refine .bind (.blame token (.ofExcept happlied)) fun a ha => ?_
  refine .bind (.allocate (Q := fun d => ∀ callee arguments, d = .call callee arguments →
    ∃ r, callee = .function r) fun _ hh => hh.carryOut ha) fun dispatch hdispatch m hm => ?_
  cases dispatch with
  | resolved v => exact Step.Tracks.pure trivial m hm
  | call callee arguments =>
      obtain ⟨r, rfl⟩ := hdispatch callee arguments rfl
      exact hev.callValue hm (fun _ => rfl) arguments token

/-- An operator may come to a method, which is called, so the lower ceiling can be met here as
    well. -/
theorem binary (hev : Tracks capped ev ev') {left right : Expr}
    (hleft : Tryless capped left.nodes) (hright : Tryless capped right.nodes) (operator : Token) :
    Tracked capped (ev.binary left operator right scope)
      (ev'.binary left operator right scope) := by
  unfold Evaluator.binary
  refine .bind (hev.expression hleft) fun l _ => .bind (hev.expression hright) fun r _ => ?_
  cases Operator.ofBinary? operator.kind with
  | none => exact .failAt
  | some op =>
      refine .bind (.inspect fun h hh => ?_) fun applied happlied => hev.finish happlied operator
      exact fun a ha => hh.comesTo (.of_binary ha)

theorem unary (hev : Tracks capped ev ev') {operand : Expr}
    (hoperand : Tryless capped operand.nodes) (operator : Token) :
    Tracked capped (ev.unary operator operand scope) (ev'.unary operator operand scope) := by
  unfold Evaluator.unary
  refine .bind (hev.expression hoperand) fun v _ => ?_
  split
  · exact .pure trivial
  · refine .bind (.inspect fun h hh => ?_) fun applied happlied => hev.finish happlied operator
    exact fun a ha => hh.comesTo (.of_unary ha)
  · exact .failAt

theorem logical (hev : Tracks capped ev ev') {left right : Expr}
    (hleft : Tryless capped left.nodes) (hright : Tryless capped right.nodes) (operator : Token) :
    Tracked capped (ev.logical left operator right scope)
      (ev'.logical left operator right scope) := by
  have hsecond : Tracked capped (do return Value.bool (← ev.expression right scope).truthy)
      (do return Value.bool (← ev'.expression right scope).truthy) :=
    .bind (hev.expression hright) fun _ _ => .pure trivial
  unfold Evaluator.logical
  refine .bind (hev.expression hleft) fun l _ => ?_
  dsimp only
  split
  · exact .ite (.pure trivial) hsecond
  · exact .ite hsecond (.pure trivial)
  · exact .failAt

theorem assign (hev : Tracks capped ev ev') {name : Token} {value : Expr} {access : Option Access}
    (he : Tryless capped (Expr.assign name value access).nodes) :
    Tracked capped (ev.assign name value access scope) (ev'.assign name value access scope) := by
  obtain ⟨hvalue, haccess⟩ := List.forall_mem_append.mp (List.forall_mem_cons.mp he).2
  unfold Evaluator.assign
  refine .bind (hev.expression hvalue) fun v _ => ?_
  cases access with
  | some a => exact .bind (hev.store haccess v) fun _ _ => .pure trivial
  | none =>
      refine .bind (.blame name (.attempt (fun _ hh => ?_) fun _ => trivial)) fun _ _ =>
        .pure trivial
      exact hh.assign scope _ v

/-- Object, value, and then the property or the access. -/
theorem set (hev : Tracks capped ev ev') {object value : Expr} {name : Token}
    {access : Option Access} (he : Tryless capped (Expr.set object name value access).nodes) :
    Tracked capped (ev.set object name value access scope)
      (ev'.set object name value access scope) := by
  obtain ⟨hobject, he⟩ := List.forall_mem_append.mp (List.forall_mem_cons.mp he).2
  obtain ⟨hvalue, haccess⟩ := List.forall_mem_append.mp he
  unfold Evaluator.set
  refine .bind (hev.expression hobject) fun o _ => ?_
  split
  · exact .failAt
  · refine .bind (hev.expression hvalue) fun v _ => ?_
    cases access with
    | some a => exact .bind (hev.store haccess v) fun _ _ => .pure trivial
    | none => exact .bind (tracked_setProperty o name v) fun _ _ => .pure trivial

/-- A capped run has to see to its calls itself. Parentheses go on with the same evaluator, so the
    step is taken for the inner expression. -/
theorem expressionStep (hev : Tracks capped ev ev') : ∀ {e : Expr}, Tryless capped e.nodes →
    (e.isCall = true → ¬ capped) →
      Tracked capped (ev.expressionStep e scope) (ev'.expressionStep e scope)
  | .grouping inner, he, hcall => by
      rw [Evaluator.expressionStep, Evaluator.expressionStep]
      exact expressionStep hev (List.forall_mem_cons.mp he).2 hcall
  | .list elements bracket, he, _ =>
      .bind (hev.values (List.forall_mem_cons.mp he).2) fun _ _ =>
        tracks_allocate (fun _ => rfl) fun _ => rfl
  | .dict entries brace, he, _ =>
      .bind (hev.entries (List.forall_mem_cons.mp he).2) fun _ _ =>
        .bind (tracked_blame_ofExcept _ _) fun _ _ => tracks_allocate (fun _ => rfl) fun _ => rfl
  | .assign name value access, he, _ => hev.assign he
  | .access a, he, _ => hev.read (List.forall_mem_cons.mp he).2
  | .binary left operator right, he, _ => by
      obtain ⟨hleft, hright⟩ := List.forall_mem_append.mp (List.forall_mem_cons.mp he).2
      exact hev.binary hleft hright operator
  | .call callee paren arguments, he, hcall => by
      obtain ⟨hcallee, harguments⟩ := List.forall_mem_append.mp (List.forall_mem_cons.mp he).2
      refine .bind (hev.expression hcallee) fun f _ => .bind (hev.values harguments) fun vs _ => ?_
      exact fun m hm => hev.callValue hm (fun h => absurd h (hcall rfl)) vs paren
  | .get object name, he, _ =>
      .bind (hev.expression (List.forall_mem_cons.mp he).2) fun o _ => tracked_property o name
  | .set object name value access, he, _ => hev.set he
  | .super keyword method, _, _ => tracked_superMethod keyword method
  | .literal c, _, _ => .pure trivial
  | .logical left operator right, he, _ => by
      obtain ⟨hleft, hright⟩ := List.forall_mem_append.mp (List.forall_mem_cons.mp he).2
      exact hev.logical hleft hright operator
  | .this keyword, _, _ => tracked_meaning "this" keyword
  | .unary operator operand, he, _ => hev.unary (List.forall_mem_cons.mp he).2 operator
  | .var name, _, _ => tracked_meaning name.lexeme name
  | .function d, he, _ => tracked_closure (List.forall_mem_cons.mp he).2

/-! ## Statements -/

theorem optional (hev : Tracks capped ev ev') {e : Option Expr} (he : Tryless capped (nodes? e)) :
    Tracked capped (ev.optional e scope) (ev'.optional e scope) := by
  cases e with
  | some e => exact hev.expression he
  | none => exact .pure trivial

/-- Branches in order, up to the first whose condition holds. -/
theorem branches (hev : Tracks capped ev ev') {elseBranch : Option (List Stmt)}
    {elifs : List ElifBranch} (helse : Tryless capped (nodesElse elseBranch))
    (helifs : Tryless capped (nodesElifs elifs)) :
    Tracked capped (ev.branches elseBranch scope elifs) (ev'.branches elseBranch scope elifs) := by
  induction elifs with
  | nil =>
      cases elseBranch with
      | some ss => exact hev.statements (List.forall_mem_cons.mp helse).2
      | none => exact .pure trivial
  | cons branch rest ih =>
      cases branch with
      | mk condition body =>
      obtain ⟨hcondition, helifs⟩ := List.forall_mem_append.mp helifs
      obtain ⟨hbody, hrest⟩ := List.forall_mem_append.mp (List.forall_mem_cons.mp helifs).2
      exact .bind (hev.expression hcondition) fun v _ => .ite (hev.statements hbody) (ih hrest)

/-- The rounds run one after the other in the scope of the loop, on both sides for the same rows. -/
theorem eachRow (hev : Tracks capped ev ev') {names : List String} {body : Stmt}
    (hbody : Tryless capped body.nodes) (rows : List (List Value)) :
    Tracked capped (ev.eachRow names body scope rows) (ev'.eachRow names body scope rows) := by
  induction rows with
  | nil => exact .pure trivial
  | cons row rest ih =>
      refine tracks_change (fun _ hh => hh.declareAll scope _) ?_
      refine .bind (hev.statement hbody) fun flow _ => ?_
      cases flow with
      | returned v => exact .pure trivial
      | broke => exact .pure trivial
      | _ => exact ih

end Evaluator.Tracks

/-- A loop, by induction on how often it may go round. -/
theorem tracked_loop {condition condition' : Step RuntimeError Value}
    {body body' : Step RuntimeError Flow} {after after' : Step RuntimeError Unit}
    (hcondition : Tracked capped condition condition') (hbody : Tracked capped body body')
    (hafter : Tracked capped after after') (n : Nat) :
    Tracked capped (Evaluator.loop condition body after n)
      (Evaluator.loop condition' body' after' n) := by
  induction n with
  | zero => exact .exhausted
  | succ n ih =>
      refine .bind hcondition fun v _ => .ite (.bind hbody fun flow _ => ?_) (.pure trivial)
      cases flow with
      | returned v => exact .pure trivial
      | broke => exact .pure trivial
      | _ => exact .bind hafter fun _ _ => ih

namespace Evaluator.Tracks

variable {ev ev' : Evaluator}

/-- One case for each kind of statement. There is no `try` if the run is capped, so an error of the
    left run that gives up is not caught. -/
theorem statementStep (hev : Tracks capped ev ev') {s : Stmt} (hs : Tryless capped s.nodes) :
    Tracked capped (ev.statementStep s scope) (ev'.statementStep s scope) := by
  unfold Evaluator.statementStep
  rw [hev.rounds]
  obtain ⟨hself, hs⟩ : (capped → (Node.stmt s).isTry = false) ∧ Tryless capped s.nodes.tail := by
    cases s <;> exact List.forall_mem_cons.mp hs
  cases s with
  | expr e => exact .bind (hev.expression hs) fun _ _ => .pure trivial
  | tryCatch body name handler =>
      -- A capped run has no `try`; any other does not give up.
      have hcapped : ¬ capped := fun h => by cases hself h
      obtain ⟨hbody, hhandler⟩ := List.forall_mem_append.mp hs
      refine .rescue (fun e he => hcapped he.1) (hev.statement hbody) fun e => ?_
      refine .bind (tracked_newScope _) fun inner _ => ?_
      exact tracks_change (fun _ hh => hh.of_same rfl rfl) (hev.statement hhandler)
  | forLoop keyword initializer condition increment body =>
      obtain ⟨hinitializer, hs⟩ := List.forall_mem_append.mp hs
      obtain ⟨hcondition, hs⟩ := List.forall_mem_append.mp hs
      obtain ⟨hincrement, hbody⟩ := List.forall_mem_append.mp hs
      have hafter : Tracked capped (do let _ ← ev.expression increment scope; return ())
          (do let _ ← ev'.expression increment scope; return ()) :=
        .bind (hev.expression hincrement) fun _ _ => .pure trivial
      have htest : Tracked capped (ev.expression condition scope)
          (ev'.expression condition scope) := hev.expression hcondition
      have hround : Tracked capped (ev.statement body scope) (ev'.statement body scope) :=
        hev.statement hbody
      have hloop := tracked_loop htest hround hafter ev'.rounds
      cases initializer with
      | some s => exact .bind (hev.statement hinitializer) fun _ _ => .inLoop hloop
      | none => exact .inLoop hloop
  | forIn keyword identifiers collection body =>
      obtain ⟨hcollection, hbody⟩ := List.forall_mem_append.mp hs
      refine .bind (hev.expression hcollection) fun c _ => .bind tracks_inspect fun rows _ => ?_
      refine .bind (tracked_blame_ofExcept _ _) fun rows _ => ?_
      exact .bind (tracked_newScope _) fun inner _ => .inLoop (hev.eachRow hbody rows)
  | declare name initializer =>
      exact .bind (hev.optional hs) fun v _ => tracked_declare _ v
  | block ss =>
      exact .bind (tracked_newScope _) fun inner _ => hev.statements (List.forall_mem_cons.mp hs).2
  | whileLoop keyword condition body =>
      obtain ⟨hcondition, hbody⟩ := List.forall_mem_append.mp hs
      exact .inLoop (tracked_loop (hev.expression hcondition) (hev.statement hbody)
        (.pure trivial) _)
  | ret keyword value => exact .bind (hev.optional hs) fun _ _ => .pure trivial
  | breakLoop keyword => exact tracked_leaveRound keyword _
  | continueLoop keyword => exact tracked_leaveRound keyword _
  | ifElse keyword condition thenBranch elifs elseBranch =>
      obtain ⟨hcondition, hs⟩ := List.forall_mem_append.mp hs
      obtain ⟨hthen, hs⟩ := List.forall_mem_append.mp (List.forall_mem_cons.mp hs).2
      obtain ⟨helifs, helse⟩ := List.forall_mem_append.mp hs
      exact .bind (hev.expression hcondition) fun v _ =>
        .ite (hev.statements hthen) (hev.branches helse helifs)
  | function d => exact .bind (tracked_closure hs) fun v _ => tracked_declare _ v
  | cls c => exact tracked_declareClass hs

theorem bodyStep (hev : Tracks capped ev ev') {b : FunctionBody} (hb : Tryless capped b.nodes) :
    Tracked capped (ev.bodyStep b scope) (ev'.bodyStep b scope) := by
  cases b with
  | block ss => exact hev.statements (List.forall_mem_cons.mp hb).2
  | expression e => exact .bind (hev.expression hb) fun _ _ => .pure trivial

end Evaluator.Tracks

/-! ## Programs -/

/-- Runs a program in a new scope. -/
def Evaluator.start (ev : Evaluator) (path : Option String) (world : World) (program : Program) :
    Outcome RuntimeError Unit :=
  let (scope, heap) := Heap.empty.newProgramScope path
  ev.program program scope ⟨heap, .root, world⟩

/-- The machine on which a program starts. -/
def Machine.initial (path : Option String) (world : World) : Machine :=
  ⟨(Heap.empty.newProgramScope path).2, .root, world⟩

/-- A machine starts with builtins only, so its heap is tame. -/
theorem Evaluator.Tracks.start {ev ev' : Evaluator} (hev : Evaluator.Tracks capped ev ev')
    (path : Option String) (world : World) {program : Program}
    (htext : Tryless capped (nodesLines program)) :
    (ev.start path world program).Tracks capped (RuntimeError.GivesUp capped) (fun _ => True)
      (.initial path world) (ev'.start path world program) :=
  hev.program htext (.initial path world) (Heap.Tame.empty.newProgramScope path)

end Script
