import Script.Proofs.Builtins
import Script.Proofs.Evaluation.Balance

/-!
# `Proofs.Evaluation.Agreement` — one pass over the evaluator

If two evaluators agree on the parts of a node and are balanced there, then they agree on the node
and are balanced. There is one lemma for each function of the evaluator, in the order of its
modules, and each follows the text of the function.
-/

namespace Script

open Step (Keeps)

variable {placed : Prop} {limit : Nat} {σ : CallStack} {scope : Ref .scope}

namespace Evaluator

/-! ## What needs no parts -/

theorem balanced_lengthProperty (n : Nat) (name : Token) :
    Balanced placed σ (lengthProperty n name) (lengthProperty n name) := by
  unfold lengthProperty
  split
  · exact .pure trivial
  · exact balanced_failAt rfl name

/-- A bound method has the text of the method, so its exits are placed if those of the method
    are. -/
theorem balanced_boundMethod {f : Function} (hf : placed → f.declaration.exitsPlaced = true)
    (r : Ref .inst) :
    Balanced placed σ (Step.allocate (·.boundMethod f r)) (Step.allocate (·.boundMethod f r)) :=
  .allocate fun _ hK => ⟨hK.boundMethod hf r, trivial⟩

/-- Reading a property takes no step on the call stack. A method is found on the heap, where the
    exits of all functions are placed. -/
theorem balanced_property (object : Value) (name : Token) :
    Balanced placed σ (property object name) (property object name) := by
  unfold property
  cases object with
  | inst r =>
      refine .bind keeps_inspect fun field _ => ?_
      cases field with
      | some v => exact .pure trivial
      | none =>
          refine .bind (keeps_find fun h g hK hg => hK.instanceMethod? hg) fun method hmethod => ?_
          cases method with
          | some f => exact balanced_boundMethod (hmethod f rfl) r
          | none => exact balanced_failAt rfl name
  | cls c =>
      refine .bind keeps_inspect fun method _ => ?_
      cases method with
      | some f => exact .pure trivial
      | none => exact balanced_failAt rfl name
  | host r =>
      refine .bind keeps_inspect fun member _ => ?_
      cases member with
      | some v => exact .pure trivial
      | none => exact balanced_failAt rfl name
  | string s => exact balanced_lengthProperty _ name
  | list r => exact .bind keeps_inspect fun n _ => balanced_lengthProperty n name
  | dict r => exact .bind keeps_inspect fun n _ => balanced_lengthProperty n name
  | _ => exact balanced_failAt rfl name

theorem balanced_setProperty (object : Value) (name : Token) (v : Value) :
    Balanced placed σ (setProperty object name v) (setProperty object name v) := by
  unfold setProperty
  cases object with
  | inst r => exact keeps_change fun _ => rfl
  | host r =>
      exact balanced_blame_attempt name (fun _ => Heap.setMember_functions ..)
        fun h => .setMember h r name.lexeme v
  | _ => exact balanced_failAt rfl name

/-- What `super` finds is a method on the heap, and it is bound like any other. -/
theorem balanced_superMethod (keyword method : Token) :
    Balanced placed σ (superMethod keyword method scope) (superMethod keyword method scope) := by
  unfold superMethod
  refine .bind keeps_inspect fun above _ => .bind keeps_inspect fun this _ => ?_
  split
  · rename_i c r
    refine .bind (keeps_find fun h g hK hg => hK.method? hg) fun found hfound => ?_
    cases found with
    | some f => exact balanced_boundMethod (hfound f rfl) r
    | none => exact balanced_failAt rfl method
  · exact balanced_failAt rfl keyword

theorem balanced_meaning (name : String) (token : Token) :
    Balanced placed σ (meaning name token scope) (meaning name token scope) := by
  unfold meaning
  refine .bind keeps_inspect fun found _ => ?_
  cases found with
  | some v => exact .pure trivial
  | none => exact balanced_failAt rfl token

theorem balanced_closure {d : FunctionDecl} (hd : placed → d.exitsPlaced = true) :
    Balanced placed σ (closure d scope) (closure d scope) := by
  unfold closure
  refine .bind (Q := fun _ => True) (.allocate fun h hK => ⟨?_, trivial⟩) fun _ _ => .pure trivial
  exact hK.newFunction hd

theorem balanced_superClass (c : ClassDecl) :
    Balanced placed σ (superClass c scope) (superClass c scope) := by
  unfold superClass
  split
  · exact .pure trivial
  · rename_i name _
    refine .bind keeps_inspect fun found _ => ?_
    split
    · exact .pure trivial
    · exact balanced_failAt rfl c.name
    · exact balanced_failAt rfl name

theorem balanced_methodScope (above : Option (Ref .cls)) :
    Balanced placed σ (methodScope above scope) (methodScope above scope) := by
  unfold methodScope
  cases above with
  | none => exact .pure trivial
  | some c =>
      refine .bind (keeps_allocate fun _ => rfl) fun inner _ => ?_
      exact .bind (keeps_change fun _ => rfl) fun _ _ => .pure trivial

/-- Methods are made from the text of the class, whose exits are placed, and put into the table. -/
theorem balanced_methods (initializers : Bool) (ds : List FunctionDecl)
    (hds : placed → exitsPlacedMethods ds = true) (table : Bindings (Ref .function)) :
    Balanced placed σ (methods initializers scope ds table) (methods initializers scope ds table) := by
  induction ds generalizing table with
  | nil => exact .pure trivial
  | cons d rest ih =>
      simp only [exitsPlacedMethods, Bool.and_eq_true, imp_and] at hds
      refine .bind (Q := fun _ => True) (.allocate fun h hK => ⟨?_, trivial⟩) fun r _ => ih hds.2 _
      exact hK.newFunction hds.1

/-- A class is declared without leaving anything: the flow that comes out goes on. -/
theorem balanced_declareClass {c : ClassDecl} (hc : placed → c.exitsPlaced = true) :
    Balanced placed σ (declareClass c scope) (declareClass c scope)
      (Flow.LeavesOnly σ.insideLoop) := by
  unfold declareClass
  cases c with
  | mk name superClass methods staticMethods =>
      simp only [ClassDecl.exitsPlaced, Bool.and_eq_true, imp_and] at hc
      refine .bind (balanced_superClass _) fun above _ => ?_
      refine .bind (balanced_methodScope above) fun inner _ => ?_
      refine .bind (balanced_methods true methods hc.1 _) fun own _ => ?_
      refine .bind (balanced_methods false staticMethods hc.2 _) fun static _ => ?_
      refine .bind (keeps_allocate fun _ => rfl) fun r _ => ?_
      exact .bind (keeps_change fun _ => rfl) fun _ _ => .pure trivial

/-- Leaving a round. Outside of a loop this fails, which placed exits rule out. -/
theorem balanced_leaveRound (keyword : Token) {flow : Flow} (hplaced : placed → σ.insideLoop = true)
    (hflow : σ.insideLoop = true → flow.LeavesOnly σ.insideLoop) :
    Balanced placed σ (leaveRound keyword flow) (leaveRound keyword flow)
      (Flow.LeavesOnly σ.insideLoop) := by
  unfold leaveRound
  refine .bind (Q := fun b => b = σ.insideLoop) (.observe fun m hσ _ => by rw [hσ]) fun b hb => ?_
  cases b with
  | true => exact .pure (hflow hb.symm)
  | false =>
      refine .fail ⟨rfl, fun hp => ?_⟩
      rw [hplaced hp] at hb
      cases hb

/-! ## Sequences of parts -/

namespace Agree

variable {ev ev' : Evaluator}

/-- Statements one after the other. What leaves them early is what one of them leaves by. -/
theorem statements (h : Agree placed limit ev ev') (hσ : σ.Fits limit) (ss : List Stmt)
    (hss : placed → exitsPlacedBlock σ.insideLoop ss = true) :
    Balanced placed σ (ev.statements ss scope) (ev'.statements ss scope)
      (Flow.LeavesOnly σ.insideLoop) := by
  induction ss with
  | nil => exact .pure trivial
  | cons s rest ih =>
      simp only [exitsPlacedBlock, Bool.and_eq_true, imp_and] at hss
      refine .bind (h.statement hσ hss.1) fun flow hflow => ?_
      cases flow with
      | run => exact ih hss.2
      | returned v => exact .pure trivial
      | broke => exact .pure hflow
      | continued => exact .pure hflow

/-- The exits of a program are placed by whether a loop is open where it is run. -/
theorem program (h : Agree placed limit ev ev') (hσ : σ.Fits limit) (ss : List Stmt)
    (hss : placed → exitsPlacedBlock σ.insideLoop ss = true) :
    Balanced placed σ (ev.program ss scope) (ev'.program ss scope) := by
  induction ss with
  | nil => exact .pure trivial
  | cons s rest ih =>
      simp only [exitsPlacedBlock, Bool.and_eq_true, imp_and] at hss
      refine .bind (h.statement hσ hss.1) fun flow _ => ?_
      cases flow with
      | returned v => exact .pure trivial
      | run => exact ih hss.2
      | broke => exact ih hss.2
      | continued => exact ih hss.2

theorem values (h : Agree placed limit ev ev') (hσ : σ.Fits limit) (es : List Expr)
    (hes : placed → exitsPlacedAll es = true) :
    Balanced placed σ (ev.values es scope) (ev'.values es scope) := by
  induction es with
  | nil => exact .pure trivial
  | cons e rest ih =>
      simp only [exitsPlacedAll, Bool.and_eq_true, imp_and] at hes
      refine .bind (h.expression hσ hes.1) fun v _ => ?_
      exact .bind (ih hes.2) fun vs _ => .pure trivial

theorem entries (h : Agree placed limit ev ev') (hσ : σ.Fits limit) (es : List (Expr × Expr))
    (hes : placed → exitsPlacedEntries es = true) :
    Balanced placed σ (ev.entries es scope) (ev'.entries es scope) := by
  induction es with
  | nil => exact .pure trivial
  | cons e rest ih =>
      simp only [exitsPlacedEntries, Bool.and_eq_true, imp_and] at hes
      refine .bind (h.expression hσ hes.1.1) fun k _ => ?_
      refine .bind (h.expression hσ hes.1.2) fun v _ => ?_
      exact .bind (ih hes.2) fun vs _ => .pure trivial

/-! ## Accesses -/

theorem component (h : Agree placed limit ev ev') (hσ : σ.Fits limit) (part : Option Expr)
    (hpart : placed → exitsPlaced? part = true) (bracket : Token) :
    Balanced placed σ (ev.component part bracket scope) (ev'.component part bracket scope) := by
  unfold Evaluator.component
  cases part with
  | none => exact .pure trivial
  | some e =>
      refine .bind (h.expression hσ hpart) fun v _ => ?_
      cases v with
      | number x => exact .pure trivial
      | _ => exact balanced_failAt rfl bracket

/-- A slice is its components from left to right. -/
theorem slice (h : Agree placed limit ev ev') (hσ : σ.Fits limit) {a : Access}
    (ha : placed → a.exitsPlaced = true) :
    Balanced placed σ (ev.slice a scope) (ev'.slice a scope) := by
  cases a with
  | mk object bracket first firstColon second secondColon third =>
      simp only [Access.exitsPlaced, Bool.and_eq_true, imp_and] at ha
      unfold Evaluator.slice
      split
      · exact balanced_failAt rfl _
      · refine .bind (h.component hσ first ha.1.1.2 bracket) fun position _ => ?_
        split
        · split
          · exact .pure trivial
          · exact balanced_failAt rfl bracket
        · refine .bind (h.component hσ second ha.1.2 bracket) fun stop _ => ?_
          exact .bind (h.component hσ third ha.2 bracket) fun step _ => .pure trivial

theorem key (h : Agree placed limit ev ev') (hσ : σ.Fits limit) {a : Access}
    (ha : placed → a.exitsPlaced = true) :
    Balanced placed σ (ev.key a scope) (ev'.key a scope) := by
  cases a with
  | mk object bracket first firstColon second secondColon third =>
      simp only [Access.exitsPlaced, Bool.and_eq_true, imp_and] at ha
      unfold Evaluator.key
      cases first with
      | none => exact balanced_failAt rfl bracket
      | some e =>
          dsimp only
          split
          · exact h.expression hσ ha.1.1.2
          · exact balanced_failAt rfl bracket

theorem object (h : Agree placed limit ev ev') (hσ : σ.Fits limit) {a : Access}
    (ha : placed → a.exitsPlaced = true) :
    Balanced placed σ (ev.expression a.object scope) (ev'.expression a.object scope) := by
  cases a with
  | mk object bracket first firstColon second secondColon third =>
      simp only [Access.exitsPlaced, Bool.and_eq_true, imp_and] at ha
      exact h.expression hσ ha.1.1.1

/-- What is read through brackets, kind by kind of the object. Once the parts are evaluated, no case
    touches the call stack. -/
theorem read (h : Agree placed limit ev ev') (hσ : σ.Fits limit) {a : Access}
    (ha : placed → a.exitsPlaced = true) :
    Balanced placed σ (ev.read a scope) (ev'.read a scope) := by
  unfold Evaluator.read
  refine .bind (h.object hσ ha) fun object _ => ?_
  cases object with
  | dict r =>
      refine .bind (h.key hσ ha) fun k _ => ?_
      refine .bind (Q := FailsOrdinarily) (.inspect fun _ _ => .dictGet? _ k) fun found hfound => ?_
      exact .bind (balanced_blame_ofExcept hfound a.bracket fun _ _ => trivial)
        fun v _ => .pure trivial
  | list r =>
      refine .bind (h.slice hσ ha) fun s _ => ?_
      refine .bind (Q := FailsOrdinarily) (.inspect fun _ _ => .select s _) fun found hfound => ?_
      refine .bind (balanced_blame_ofExcept hfound a.bracket fun _ _ => trivial) fun v _ => ?_
      cases v with
      | element v => exact .pure trivial
      | items vs => exact keeps_allocate fun _ => rfl
  | string text =>
      refine .bind (h.slice hσ ha) fun s _ => ?_
      refine .bind (balanced_blame_ofExcept (.select s _) a.bracket fun _ _ => trivial) fun v _ => ?_
      cases v with
      | element c => exact .pure trivial
      | items cs => exact .pure trivial
  | _ => exact balanced_failAt rfl a.bracket

/-- What is stored through brackets. The store itself changes a list or a dictionary, and no
    function. -/
theorem store (h : Agree placed limit ev ev') (hσ : σ.Fits limit) {a : Access}
    (ha : placed → a.exitsPlaced = true) (v : Value) :
    Balanced placed σ (ev.store a v scope) (ev'.store a v scope) := by
  unfold Evaluator.store
  refine .bind (h.object hσ ha) fun object _ => ?_
  cases object with
  | dict r =>
      refine .bind (h.key hσ ha) fun k _ => ?_
      exact balanced_blame_attempt a.bracket (fun _ => Heap.insertEntry_functions ..)
        fun h => .insertEntry h r k v
  | list r =>
      refine .bind (h.slice hσ ha) fun s _ => ?_
      cases s with
      | index position =>
          dsimp only
          split
          · exact balanced_failAt rfl a.bracket
          · exact balanced_blame_attempt a.bracket (fun _ => Heap.setElement_functions ..)
              fun h => .setElement h r position.toNat v
      | range start stop step => exact balanced_failAt rfl a.bracket
  | _ => exact balanced_failAt rfl a.bracket

/-! ## Calls -/

/-- A call is balanced: the frame that is entered is left again, because the body leaves the stack
    as it found it. No loop is open in the new frame, which is why a body may only return. -/
theorem callFunction (h : Agree placed limit ev ev') (hσ : σ.Fits limit) {f : Function}
    (hf : placed → f.declaration.exitsPlaced = true) (arguments : List Value) (token : Token) :
    Balanced placed σ (ev.callFunction f arguments token) (ev'.callFunction f arguments token) := by
  have hbody : placed → f.declaration.body.exitsPlaced = true := by
    cases hd : f.declaration with
    | mk name parameters body =>
        rw [hd] at hf
        exact hf
  unfold Evaluator.callFunction
  split
  · exact balanced_failAt rfl token
  · refine .bind (Q := fun depth => depth = σ.depth) (.observe fun m hm _ => by rw [hm])
      fun depth hdepth => ?_
    rw [h.limit_left, h.limit_right, hdepth]
    split
    · exact balanced_failAt rfl token
    · rename_i hlimit
      refine .bind (keeps_allocate fun _ => rfl) fun inner _ => ?_
      refine .bind (keeps_change fun _ => Heap.declareAll_functions ..) fun _ _ => ?_
      -- The call is below the limit, so the stack still fits with one frame more.
      have henter := hσ.enter (Nat.lt_of_not_le hlimit) f.declaration.title
      refine .bind (.inFunction token (h.body henter rfl hbody)) fun flow _ => ?_
      split
      · refine .bind keeps_inspect fun this _ => ?_
        cases this with
        | some v => exact .pure trivial
        | none => exact balanced_failAt rfl token
      · exact .pure trivial

/-- The initializer is found on the heap and called like a function. -/
theorem instantiate (h : Agree placed limit ev ev') (hσ : σ.Fits limit) (c : Ref .cls)
    (arguments : List Value) (token : Token) :
    Balanced placed σ (ev.instantiate c arguments token) (ev'.instantiate c arguments token) := by
  unfold Evaluator.instantiate
  refine .bind (keeps_allocate fun _ => rfl) fun r _ => ?_
  refine .bind (keeps_find fun heap g hK hg => hK.method? hg) fun found hfound => ?_
  cases found with
  | none =>
      dsimp only
      split
      · exact .pure trivial
      · exact balanced_failAt rfl token
  | some init =>
      refine .bind (Q := fun f => placed → f.declaration.exitsPlaced = true)
        (.allocate fun heap hK => ⟨hK.of_eq (Heap.bind_functions init r), hfound init rfl⟩)
        fun bound hbound => ?_
      exact .bind (h.callFunction hσ hbound arguments token) fun _ _ => .pure trivial

/-- A module runs with a call stack of its own, so that whatever happens there does not show on this
    one. -/
theorem loadModule (h : Agree placed limit ev ev') (path : String) :
    Keeps (Heap.ExitsPlaced placed) σ (ev.loadModule path) (ev'.loadModule path) (fun _ => True)
      (fun _ => True) := by
  unfold Evaluator.loadModule
  refine .bind (Q := fun _ => True) (.observe fun _ _ _ => trivial) fun source _ => ?_
  refine .bind (.ofExcept (Q := fun _ => True) (fun _ _ => trivial) fun _ _ => trivial)
    fun text _ => ?_
  refine .bind
    (.ofExcept (Q := fun program => Script.compile text = .ok program) ?_ fun _ _ => trivial)
    fun program hprogram => ?_
  · intro program hprogram
    cases hc : Script.compile text with
    | ok p =>
        rw [hc] at hprogram
        cases hprogram
        rfl
    | error e =>
        rw [hc] at hprogram
        cases hprogram
  · refine .bind (keeps_allocate fun _ => Heap.newProgramScope_functions _) fun inner _ => ?_
    have hrun : Balanced placed .root (ev.program program inner) (ev'.program program inner) :=
      h.program CallStack.fits_root program fun hp => h.modules hp text program hprogram
    exact .bind (.apart (hrun.mapError fun _ _ => trivial)) fun _ _ => .pure trivial

end Agree

/-! ## Builtins -/

/-- A step of a builtin that keeps what is kept and fails in ordinary ways. -/
abbrev KeepsOrdinarily (placed : Prop) (σ : CallStack) {α : Type} (x y : Step Fault α)
    (Q : α → Prop := fun _ => True) : Prop :=
  Keeps (Heap.ExitsPlaced placed) σ x y Q (fun f => f.ordinary = true)

theorem keepsOrdinarily_ofExcept {α : Type} {r : Except Fault α} (hr : FailsOrdinarily r) :
    KeepsOrdinarily placed σ (Step.ofExcept r) (Step.ofExcept r) :=
  .ofExcept (fun _ _ => trivial) hr

theorem keepsOrdinarily_observe {α : Type} (f : Machine → α) :
    KeepsOrdinarily placed σ (Step.observe f) (Step.observe f) :=
  .observe fun _ _ _ => trivial

theorem keepsOrdinarily_outside (f : World → World) :
    KeepsOrdinarily placed σ (Step.outside f) (Step.outside f) :=
  .outside trivial

theorem keepsOrdinarily_describeAll (entries : List (String × Entry)) :
    KeepsOrdinarily placed σ (Builtin.describeAll entries) (Builtin.describeAll entries) := by
  induction entries with
  | nil => exact .pure trivial
  | cons e rest ih =>
      refine .bind (keeps_allocate fun _ => rfl) fun v _ => ?_
      exact .bind ih fun vs _ => .pure trivial

/-- No step of a builtin looks at the call stack, and what it fails with is ordinary. -/
theorem keepsOrdinarily_performs {arguments : List Value} {x : Step Fault Value}
    (hx : Builtin.Performs arguments x) : KeepsOrdinarily placed σ x x := by
  induction hx with
  | gives _ => exact .pure trivial
  | fails hfault => exact .fail hfault
  | checks hr _ ih => exact .bind (keepsOrdinarily_ofExcept hr) fun a _ => ih a
  | asks _ _ ih => exact .bind (keepsOrdinarily_observe _) fun a _ => ih a
  | acts _ _ ih => exact .bind (keepsOrdinarily_outside _) fun _ _ => ih
  | shows _ ih => exact .bind keeps_inspect fun texts _ => ih texts
  | lists _ => exact keeps_allocate fun _ => rfl
  | describes entries =>
      exact .bind (keepsOrdinarily_describeAll entries) fun _ _ => keeps_allocate fun _ => rfl

/-- All builtins but `import` are made of such steps; `import` fails in an ordinary way whatever the
    module does. -/
theorem Agree.builtin {ev ev' : Evaluator} (h : Agree placed limit ev ev') (b : Builtin)
    (arguments : List Value) :
    KeepsOrdinarily placed σ (b.call ev arguments) (b.call ev' arguments) := by
  obtain ⟨script, module, rfl, rfl⟩ | ⟨heq, hx⟩ := b.call_cases ev ev' arguments
  · refine .bind (keepsOrdinarily_ofExcept (.asString module)) fun module _ => ?_
    refine .bind ((h.loadModule _).mapError fun _ _ => rfl) fun scope _ => ?_
    exact keeps_allocate fun _ => rfl
  · rw [heq]
    exact keepsOrdinarily_performs hx

namespace Agree

variable {ev ev' : Evaluator}

/-- What is called is a function on the heap, a class or a builtin. -/
theorem callValue (h : Agree placed limit ev ev') (hσ : σ.Fits limit) (callee : Value)
    (arguments : List Value) (token : Token) :
    Balanced placed σ (ev.callValue callee arguments token)
      (ev'.callValue callee arguments token) := by
  unfold Evaluator.callValue
  cases callee with
  | function r =>
      refine .bind (keeps_find fun heap g hK hg => hK r g hg) fun found hfound => ?_
      cases found with
      | some f => exact h.callFunction hσ (hfound f rfl) arguments token
      | none => exact balanced_failAt rfl token
  | cls c => exact h.instantiate hσ c arguments token
  | builtin r =>
      refine .bind keeps_inspect fun found _ => ?_
      cases found with
      | some b => exact .blame token (h.builtin b arguments)
      | none => exact balanced_failAt rfl token
  | _ => exact balanced_failAt rfl token

/-! ## Expressions -/

/-- An operator that came to a method calls it, and the method is one whose exits are placed. -/
theorem finish (h : Agree placed limit ev ev') (hσ : σ.Fits limit) {applied : Except Fault Applied}
    (hfails : FailsOrdinarily applied)
    (hmeets : ∀ a, applied = .ok a → a.Meets fun d => placed → d.exitsPlaced = true)
    (token : Token) :
    Balanced placed σ (ev.finish applied token) (ev'.finish applied token) := by
  unfold Evaluator.finish
  refine .bind (balanced_blame_ofExcept hfails token hmeets) fun a ha => ?_
  refine .bind (Q := fun _ => True) (.allocate fun heap hK => ⟨hK.carryOut ha, trivial⟩)
    fun dispatch _ => ?_
  cases dispatch with
  | resolved v => exact .pure trivial
  | call callee arguments => exact h.callValue hσ callee arguments token

/-- What an operator comes to is found by reading the heap, and then finished. -/
theorem inspect_finish (h : Agree placed limit ev ev') (hσ : σ.Fits limit)
    {f : Heap → Except Fault Applied} (hfails : ∀ heap, FailsOrdinarily (f heap))
    (hmeets : ∀ heap a, heap.ExitsPlaced placed → f heap = .ok a →
      a.Meets fun d => placed → d.exitsPlaced = true)
    (token : Token) :
    Balanced placed σ (Step.inspect f >>= fun applied => ev.finish applied token)
      (Step.inspect f >>= fun applied => ev'.finish applied token) := by
  refine .bind (Q := fun r => FailsOrdinarily r ∧
    ∀ a, r = .ok a → a.Meets fun d => placed → d.exitsPlaced = true) ?_ ?_
  · exact .inspect fun heap hK => ⟨hfails heap, fun a => hmeets heap a hK⟩
  · exact fun applied happlied => h.finish hσ happlied.1 happlied.2 token

/-- Operands first, then the operator on the heap that they leave. -/
theorem binary (h : Agree placed limit ev ev') (hσ : σ.Fits limit) {left right : Expr}
    (hleft : placed → left.exitsPlaced = true) (hright : placed → right.exitsPlaced = true)
    (operator : Token) :
    Balanced placed σ (ev.binary left operator right scope)
      (ev'.binary left operator right scope) := by
  unfold Evaluator.binary
  refine .bind (h.expression hσ hleft) fun l _ => .bind (h.expression hσ hright) fun r _ => ?_
  cases Operator.ofBinary? operator.kind with
  | some op =>
      exact h.inspect_finish hσ (fun heap => .binary heap op l r)
        (fun heap a hK ha => hK.binary ha) operator
  | none => exact balanced_failAt rfl operator

theorem unary (h : Agree placed limit ev ev') (hσ : σ.Fits limit) {operand : Expr}
    (hoperand : placed → operand.exitsPlaced = true) (operator : Token) :
    Balanced placed σ (ev.unary operator operand scope) (ev'.unary operator operand scope) := by
  unfold Evaluator.unary
  refine .bind (h.expression hσ hoperand) fun v _ => ?_
  split
  · exact .pure trivial
  · exact h.inspect_finish hσ (fun heap => .unary heap .neg v) (fun heap a hK ha => hK.unary ha)
      operator
  · exact balanced_failAt rfl operator

theorem logical (h : Agree placed limit ev ev') (hσ : σ.Fits limit) {left right : Expr}
    (hleft : placed → left.exitsPlaced = true) (hright : placed → right.exitsPlaced = true)
    (operator : Token) :
    Balanced placed σ (ev.logical left operator right scope)
      (ev'.logical left operator right scope) := by
  unfold Evaluator.logical
  refine .bind (h.expression hσ hleft) fun l _ => ?_
  dsimp only
  split
  · split
    · exact .pure trivial
    · exact .bind (h.expression hσ hright) fun r _ => .pure trivial
  · split
    · exact .bind (h.expression hσ hright) fun r _ => .pure trivial
    · exact .pure trivial
  · exact balanced_failAt rfl operator

theorem assign (h : Agree placed limit ev ev') (hσ : σ.Fits limit) {value : Expr}
    {access : Option Access} (hvalue : placed → value.exitsPlaced = true)
    (haccess : placed → exitsPlacedAccess? access = true) (name : Token) :
    Balanced placed σ (ev.assign name value access scope) (ev'.assign name value access scope) := by
  unfold Evaluator.assign
  refine .bind (h.expression hσ hvalue) fun v _ => ?_
  cases access with
  | some a => exact .bind (h.store hσ haccess v) fun _ _ => .pure trivial
  | none =>
      have hassign : Balanced placed σ (Step.blame name (.attempt (·.assign scope name.lexeme v)))
          (Step.blame name (.attempt (·.assign scope name.lexeme v))) :=
        balanced_blame_attempt name (fun _ => Heap.assign_functions ..)
          fun heap => .assign heap scope name.lexeme v
      exact .bind hassign fun _ _ => .pure trivial

/-- Object, value, and then the property or the access. -/
theorem set (h : Agree placed limit ev ev') (hσ : σ.Fits limit) {object value : Expr}
    {access : Option Access} (hobject : placed → object.exitsPlaced = true)
    (hvalue : placed → value.exitsPlaced = true)
    (haccess : placed → exitsPlacedAccess? access = true) (name : Token) :
    Balanced placed σ (ev.set object name value access scope)
      (ev'.set object name value access scope) := by
  unfold Evaluator.set
  refine .bind (h.expression hσ hobject) fun o _ => ?_
  split
  · exact balanced_failAt rfl name
  · refine .bind (h.expression hσ hvalue) fun v _ => ?_
    cases access with
    | some a => exact .bind (h.store hσ haccess v) fun _ _ => .pure trivial
    | none => exact .bind (balanced_setProperty o name v) fun _ _ => .pure trivial

/-- Parentheses go on with the same evaluator, so the step is taken for the inner expression. -/
theorem expressionStep (h : Agree placed limit ev ev') (hσ : σ.Fits limit) :
    ∀ e : Expr, (placed → e.exitsPlaced = true) →
      Balanced placed σ (ev.expressionStep e scope) (ev'.expressionStep e scope)
  | .grouping inner, he => by
      rw [Evaluator.expressionStep, Evaluator.expressionStep]
      exact expressionStep h hσ inner he
  | .list elements bracket, he =>
      .bind (h.values hσ elements he) fun vs _ => keeps_allocate fun _ => rfl
  | .dict entries brace, he => by
      refine .bind (h.entries hσ entries he) fun es _ => ?_
      refine .bind (balanced_blame_ofExcept (.ofEntries es) brace fun _ _ => trivial) fun d _ => ?_
      exact keeps_allocate fun _ => rfl
  | .assign name value access, he => by
      simp only [Expr.exitsPlaced, Bool.and_eq_true, imp_and] at he
      exact h.assign hσ he.1 he.2 name
  | .access a, he => h.read hσ he
  | .binary left operator right, he => by
      simp only [Expr.exitsPlaced, Bool.and_eq_true, imp_and] at he
      exact h.binary hσ he.1 he.2 operator
  | .call callee paren arguments, he => by
      simp only [Expr.exitsPlaced, Bool.and_eq_true, imp_and] at he
      refine .bind (h.expression hσ he.1) fun f _ => ?_
      exact .bind (h.values hσ arguments he.2) fun vs _ => h.callValue hσ f vs paren
  | .get object name, he => .bind (h.expression hσ he) fun o _ => balanced_property o name
  | .set object name value access, he => by
      simp only [Expr.exitsPlaced, Bool.and_eq_true, imp_and] at he
      exact h.set hσ he.1.1 he.1.2 he.2 name
  | .super keyword method, _ => balanced_superMethod keyword method
  | .literal value, _ => .pure trivial
  | .logical left operator right, he => by
      simp only [Expr.exitsPlaced, Bool.and_eq_true, imp_and] at he
      exact h.logical hσ he.1 he.2 operator
  | .this keyword, _ => balanced_meaning "this" keyword
  | .unary operator operand, he => by
      simp only [Expr.exitsPlaced] at he
      exact h.unary hσ he operator
  | .var name, _ => balanced_meaning name.lexeme name
  | .function d, he => balanced_closure he

/-! ## Statements -/

theorem optional (h : Agree placed limit ev ev') (hσ : σ.Fits limit) (e : Option Expr)
    (he : placed → exitsPlaced? e = true) :
    Balanced placed σ (ev.optional e scope) (ev'.optional e scope) := by
  cases e with
  | some e => exact h.expression hσ he
  | none => exact .pure trivial

/-- Branches in order, up to the first whose condition holds. -/
theorem branches (h : Agree placed limit ev ev') (hσ : σ.Fits limit)
    {elseBranch : Option (List Stmt)} (hbranch : placed →
      exitsPlacedBlock? σ.insideLoop elseBranch = true) (elifs : List ElifBranch)
    (helifs : placed → exitsPlacedElifs σ.insideLoop elifs = true) :
    Balanced placed σ (ev.branches elseBranch scope elifs) (ev'.branches elseBranch scope elifs)
      (Flow.LeavesOnly σ.insideLoop) := by
  induction elifs with
  | nil =>
      cases elseBranch with
      | some ss => exact h.statements hσ ss hbranch
      | none => exact .pure trivial
  | cons branch rest ih =>
      cases branch with
      | mk condition body =>
          simp only [exitsPlacedElifs, Bool.and_eq_true, imp_and] at helifs
          refine .bind (h.expression hσ helifs.1.1) fun v _ => ?_
          split
          · exact h.statements hσ body helifs.1.2
          · exact ih helifs.2

/-- A loop catches the flows that leave its rounds. -/
theorem balanced_loop {condition condition' : Step RuntimeError Value}
    {body body' : Step RuntimeError Flow} {after after' : Step RuntimeError Unit}
    (hcondition : Balanced placed σ condition condition')
    (hbody : Balanced placed σ body body') (hafter : Balanced placed σ after after') (n : Nat)
    {loop : Bool} :
    Balanced placed σ (Evaluator.loop condition body after n)
      (Evaluator.loop condition' body' after' n) (Flow.LeavesOnly loop) := by
  induction n with
  | zero => exact .exhausted
  | succ n ih =>
      refine .bind hcondition fun v _ => ?_
      split
      · refine .bind hbody fun flow _ => ?_
        cases flow with
        | returned v => exact .pure trivial
        | broke => exact .pure trivial
        | run => exact .bind hafter fun _ _ => ih
        | continued => exact .bind hafter fun _ _ => ih
      · exact .pure trivial

/-- The body of a loop runs with the loop open. -/
theorem loopBody (h : Agree placed limit ev ev') (hσ : σ.Fits limit) {body : Stmt}
    (hbody : placed → body.exitsPlaced true = true) :
    Balanced placed σ.enterLoop (ev.statement body scope) (ev'.statement body scope) := by
  refine (h.statement hσ.enterLoop ?_).post fun _ _ => trivial
  rw [CallStack.insideLoop_enterLoop hσ.root]
  exact hbody

/-- Each round runs the body with the loop open, and an exit of the body ends the round or the loop
    here. -/
theorem eachRow (h : Agree placed limit ev ev') (hσ : σ.Fits limit) (names : List String)
    {body : Stmt} (hbody : placed → body.exitsPlaced true = true) (rows : List (List Value))
    {loop : Bool} :
    Balanced placed σ.enterLoop (ev.eachRow names body scope rows)
      (ev'.eachRow names body scope rows) (Flow.LeavesOnly loop) := by
  induction rows with
  | nil => exact .pure trivial
  | cons row rest ih =>
      refine .bind (keeps_change fun _ => Heap.declareAll_functions ..) fun _ _ => ?_
      refine .bind (h.loopBody hσ hbody) fun flow _ => ?_
      cases flow with
      | returned v => exact .pure trivial
      | broke => exact .pure trivial
      | run => exact ih
      | continued => exact ih

/-- One case for each kind of statement. Loops open a loop around their body, and only `break` and
    `continue` need one. -/
theorem statementStep (h : Agree placed limit ev ev') (hσ : σ.Fits limit) (s : Stmt)
    (hs : placed → s.exitsPlaced σ.insideLoop = true) :
    Balanced placed σ (ev.statementStep s scope) (ev'.statementStep s scope)
      (Flow.LeavesOnly σ.insideLoop) := by
  unfold Evaluator.statementStep
  cases s with
  | expr e => exact .bind (h.expression hσ hs) fun v _ => .pure trivial
  | tryCatch body name handler =>
      simp only [Stmt.exitsPlaced, Bool.and_eq_true, imp_and] at hs
      -- The handler starts with the stack that the body has left, and that is the one from before.
      refine .rescue (h.statement hσ hs.1) (fun e _ _ => ?_) fun e he _ => he
      refine .bind (keeps_allocate fun _ => rfl) fun inner _ => ?_
      exact .bind (keeps_change fun _ => rfl) fun _ _ => h.statement hσ hs.2
  | forLoop keyword initializer condition increment body =>
      simp only [Stmt.exitsPlaced, Bool.and_eq_true, imp_and] at hs
      have hloop : Balanced placed σ
          (Step.inLoop (Evaluator.loop (ev.expression condition scope) (ev.statement body scope)
            (do let _ ← ev.expression increment scope; return ()) ev.rounds))
          (Step.inLoop (Evaluator.loop (ev'.expression condition scope) (ev'.statement body scope)
            (do let _ ← ev'.expression increment scope; return ()) ev'.rounds))
          (Flow.LeavesOnly σ.insideLoop) := by
        rw [h.rounds]
        refine .inLoop (balanced_loop (h.expression hσ.enterLoop hs.1.1.2)
          (h.loopBody hσ hs.2) ?_ _)
        exact .bind (h.expression hσ.enterLoop hs.1.2) fun v _ => .pure trivial
      cases initializer with
      | some s => exact .bind (h.statement hσ hs.1.1.1) fun _ _ => hloop
      | none => exact hloop
  | forIn keyword identifiers collection body =>
      simp only [Stmt.exitsPlaced, Bool.and_eq_true, imp_and] at hs
      refine .bind (h.expression hσ hs.1) fun c _ => ?_
      refine .bind (Q := FailsOrdinarily) (.inspect fun heap _ => .rows heap _ c) fun r hr => ?_
      refine .bind (balanced_blame_ofExcept hr keyword fun _ _ => trivial) fun rows _ => ?_
      refine .bind (keeps_allocate fun _ => rfl) fun inner _ => ?_
      exact .inLoop (h.eachRow hσ _ hs.2 rows)
  | declare name initializer =>
      refine .bind (h.optional hσ initializer hs) fun v _ => ?_
      exact .bind (keeps_change fun _ => rfl) fun _ _ => .pure trivial
  | block ss => exact .bind (keeps_allocate fun _ => rfl) fun inner _ => h.statements hσ ss hs
  | whileLoop keyword condition body =>
      simp only [Stmt.exitsPlaced, Bool.and_eq_true, imp_and] at hs
      rw [h.rounds]
      exact .inLoop (balanced_loop (h.expression hσ.enterLoop hs.1)
        (h.loopBody hσ hs.2) (.pure trivial) _)
  | ret keyword value => exact .bind (h.optional hσ value hs) fun v _ => .pure trivial
  | breakLoop keyword => exact balanced_leaveRound keyword hs fun hloop => hloop
  | continueLoop keyword => exact balanced_leaveRound keyword hs fun hloop => hloop
  | ifElse keyword condition thenBranch elifs elseBranch =>
      simp only [Stmt.exitsPlaced, Bool.and_eq_true, imp_and] at hs
      refine .bind (h.expression hσ hs.1.1.1) fun v _ => ?_
      split
      · exact h.statements hσ thenBranch hs.1.1.2
      · exact h.branches hσ hs.2 elifs hs.1.2
  | function d =>
      refine .bind (balanced_closure hs) fun v _ => ?_
      exact .bind (keeps_change fun _ => rfl) fun _ _ => .pure trivial
  | cls c => exact balanced_declareClass hs

/-- The body of a function can be left by `return` only, since no loop is open where it begins. -/
theorem bodyStep (h : Agree placed limit ev ev') (hσ : σ.Fits limit)
    (hloop : σ.insideLoop = false) (b : FunctionBody) (hb : placed → b.exitsPlaced = true) :
    Balanced placed σ (ev.bodyStep b scope) (ev'.bodyStep b scope) (Flow.LeavesOnly false) := by
  cases b with
  | block ss =>
      rw [← hloop]
      exact h.statements hσ ss (by rw [hloop]; exact hb)
  | expression e => exact .bind (h.expression hσ hb) fun v _ => .pure trivial

end Agree

end Evaluator

end Script
