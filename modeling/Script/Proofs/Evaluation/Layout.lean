import Script.Eval
import Script.Proofs.Builtins
import Script.Proofs.Evaluation.Alike

/-!
# `Proofs.Evaluation.Layout` — lines and groupings are not observed

If an evaluator does alike on the parts of a node and on the stripped parts, then it does alike on
the node and on the stripped node. There is one lemma for each function of the evaluator, in the
order of its modules; on the right of each stands what is left of the node on the left. Parentheses
take no fuel, so both runs also use up their fuel at the same point.

Since likeness is symmetric and transitive, two programs that are the same once they are stripped
run alike (`layout_unobservable`).
-/

namespace Script

open Step (Alike)

namespace Evaluator

/-- An evaluator does alike on parts and on stripped parts. -/
structure Blind (ev : Evaluator) : Prop where
  statement : ∀ s scope, Alike (ev.statement s scope) (ev.statement s.erased scope)
  expression : ∀ e scope, Alike (ev.expression e scope) (ev.expression e.erased scope)
  body : ∀ b scope, Alike (ev.body b scope) (ev.body b.erased scope)

variable {scope : Ref .scope}

/-! ## What needs no parts -/

theorem alike_lengthProperty (length : Nat) (name : Token) :
    Alike (lengthProperty length name) (lengthProperty length name.unlined) :=
  .ite (.pure rfl) .failAt

/-- To bind a method or its stripped version makes functions that are the same but for the
    stripping. -/
theorem alike_boundMethod (f : Function) (r : Ref .inst) :
    Alike (Step.allocate (·.boundMethod f r)) (Step.allocate (·.boundMethod f.erased r)) := by
  refine .allocate (q := (·.boundMethod f.erased r)) (fun h => h.boundMethod_erased f r)
    fun h => ?_
  rw [← h.boundMethod_erased, Function.erased_erased]

/-- A method is looked up and bound to an instance. -/
theorem alike_bindMethod {find : Heap → Option Function}
    (hfind : ∀ h, find h.erased = (find h).map Function.erased) (r : Ref .inst) (fault : Fault)
    (name : Token) :
    Alike
      (do match ← Step.inspect find with
          | some f => Step.allocate (·.boundMethod f r)
          | none => Step.failAt fault name)
      (do match ← Step.inspect find with
          | some f => Step.allocate (·.boundMethod f r)
          | none => Step.failAt fault name.unlined) := by
  refine .bindFunction (.inspect hfind) .failAt fun f f' hf => ?_
  exact (alike_boundMethod f r).trans (hf ▸ (alike_boundMethod f' r).symm)

/-- A property is found by its name. Methods are bound when they are read, and this is the only case
    in which a function is made. -/
theorem alike_property (object : Value) (name : Token) :
    Alike (property object name) (property object name.unlined) := by
  unfold property
  cases object with
  | inst r =>
      refine .bind (.inspect fun _ => rfl) fun field => ?_
      cases field with
      | some v => exact .pure rfl
      | none => exact alike_bindMethod (fun h => h.instanceMethod?_erased r name.lexeme) r _ name
  | cls c =>
      refine .bind (.inspect fun _ => rfl) fun method => ?_
      cases method with
      | some f => exact .pure rfl
      | none => exact .failAt
  | string s => exact alike_lengthProperty _ name
  | list r => exact .bind (.inspect fun _ => rfl) fun n => alike_lengthProperty n name
  | dict r => exact .bind (.inspect fun _ => rfl) fun n => alike_lengthProperty n name
  | host r =>
      refine .bind (.inspect fun _ => rfl) fun member => ?_
      cases member with
      | some v => exact .pure rfl
      | none => exact .failAt
  | _ => exact .failAt

theorem alike_setProperty (object : Value) (name : Token) (v : Value) :
    Alike (setProperty object name v) (setProperty object name.unlined v) := by
  unfold setProperty
  cases object with
  | inst r => exact .change fun _ => rfl
  | host r => exact .blame name (.attempt fun h => h.setMember_erased r name.lexeme v)
  | _ => exact .failAt

/-- `super` looks up two names, the class above and `this`, and binds the method that it finds. -/
theorem alike_superMethod (keyword method : Token) :
    Alike (superMethod keyword method scope)
      (superMethod keyword.unlined method.unlined scope) := by
  unfold superMethod
  refine .bind (.inspect fun _ => rfl) fun above => .bind (.inspect fun _ => rfl) fun this => ?_
  split
  · rename_i c r
    exact alike_bindMethod (fun h => h.method?_erased c method.lexeme) r _ method
  · exact .failAt

theorem alike_meaning (name : String) (token : Token) :
    Alike (meaning name token scope) (meaning name token.unlined scope) := by
  unfold meaning
  refine .bind (.inspect fun _ => rfl) fun found => ?_
  cases found with
  | some v => exact .pure rfl
  | none => exact .failAt

/-- The new function lies in the same cell on both sides, and its text is the one or the stripped
    one. -/
theorem alike_newFunction (d : FunctionDecl) (isInitializer : Bool) :
    Alike (Step.allocate (·.newFunction ⟨d, scope, isInitializer⟩))
      (Step.allocate (·.newFunction ⟨d.erased, scope, isInitializer⟩)) := by
  refine .allocate (q := (·.newFunction ⟨d.erased, scope, isInitializer⟩))
    (fun h => h.newFunction_erased ⟨d, scope, isInitializer⟩) fun h => ?_
  rw [← h.newFunction_erased, Function.erased, FunctionDecl.erased_erased]

theorem alike_closure (d : FunctionDecl) : Alike (closure d scope) (closure d.erased scope) :=
  .bind (alike_newFunction d false) fun _ => .pure rfl

/-! ## Classes -/

/-- The superclass is named by a token, and only an error has the line of it. -/
theorem alike_superClass (c : ClassDecl) :
    Alike (superClass c scope) (superClass c.erased scope) := by
  obtain ⟨name, above, methods, staticMethods⟩ := c
  cases above with
  | none => exact .pure rfl
  | some above =>
      refine .bind (.inspect fun _ => rfl) fun found => ?_
      cases found with
      | none => exact .failAt
      | some v =>
          cases v with
          | cls r => exact .pure rfl
          | _ => exact .failAt

theorem alike_methodScope (above : Option (Ref .cls)) :
    Alike (methodScope above scope) (methodScope above scope) := by
  cases above with
  | none => exact .pure rfl
  | some c =>
      refine .bind (.make fun _ => rfl) fun inner => ?_
      exact .bind (.change fun _ => rfl) fun _ => .pure rfl

/-- The methods of a class are made one after the other, into a table that is the same on both sides
    because the cells are. -/
theorem alike_methods (initializers : Bool) (ds : List FunctionDecl)
    (table : Bindings (Ref .function)) :
    Alike (methods initializers scope ds table)
      (methods initializers scope (mapMethods Token.unlined Expr.ungroup ds) table) := by
  induction ds generalizing table with
  | nil => exact .pure rfl
  | cons d rest ih =>
      have hright :
          methods initializers scope (mapMethods Token.unlined Expr.ungroup (d :: rest)) table
          = Step.allocate (·.newFunction ⟨d.erased, scope, initializers && d.title == "init"⟩)
            >>= fun ref => methods initializers scope (mapMethods Token.unlined Expr.ungroup rest)
              (table.set d.title ref) := by
        rw [← d.title_erased]
        rfl
      rw [hright]
      exact .bind (alike_newFunction d _) fun ref => ih (table.set d.title ref)

/-- A class is made of its name, its superclass and two tables, none of which tell anything of
    lines. -/
theorem alike_declareClass (c : ClassDecl) :
    Alike (declareClass c scope) (declareClass c.erased scope) := by
  obtain ⟨name, above, methods, staticMethods⟩ := c
  refine .bind (alike_superClass _) fun above => .bind (alike_methodScope above) fun inner => ?_
  refine .bind (alike_methods true methods .empty) fun own => ?_
  refine .bind (alike_methods false staticMethods .empty) fun static => ?_
  refine .bind (.make fun _ => rfl) fun ref => ?_
  exact .bind (.change fun _ => rfl) fun _ => .pure rfl

theorem alike_leaveRound (keyword : Token) (flow : Flow) :
    Alike (leaveRound keyword flow) (leaveRound keyword.unlined flow) :=
  .bind (.observe fun _ _ => rfl) fun _ => .ite (.pure rfl) .failAt

/-! ## Sequences of parts -/

namespace Blind

variable {ev : Evaluator}

/-- Statements one after the other, until one does not simply go on. -/
theorem statements (hev : ev.Blind) (ss : List Stmt) (scope : Ref .scope) :
    Alike (ev.statements ss scope) (ev.statements (Program.erased ss) scope) := by
  induction ss with
  | nil => exact .pure rfl
  | cons s rest ih =>
      refine .bind (hev.statement s scope) fun flow => ?_
      cases flow with
      | run => exact ih
      | _ => exact .pure rfl

/-- A program is run like statements, but only `return` ends it early. -/
theorem program (hev : ev.Blind) (program : Program) (scope : Ref .scope) :
    Alike (ev.program program scope) (ev.program program.erased scope) := by
  induction program with
  | nil => exact .pure rfl
  | cons s rest ih =>
      refine .bind (hev.statement s scope) fun flow => ?_
      cases flow with
      | returned v => exact .pure rfl
      | _ => exact ih

theorem values (hev : ev.Blind) (es : List Expr) (scope : Ref .scope) :
    Alike (ev.values es scope) (ev.values (mapList Token.unlined Expr.ungroup es) scope) := by
  induction es with
  | nil => exact .pure rfl
  | cons e rest ih =>
      exact .bind (hev.expression e scope) fun v => .bind ih fun vs => .pure rfl

theorem entries (hev : ev.Blind) (es : List (Expr × Expr)) (scope : Ref .scope) :
    Alike (ev.entries es scope) (ev.entries (mapEntries Token.unlined Expr.ungroup es) scope) := by
  induction es with
  | nil => exact .pure rfl
  | cons e rest ih =>
      refine .bind (hev.expression e.1 scope) fun k => .bind (hev.expression e.2 scope) fun v => ?_
      exact .bind ih fun vs => .pure rfl

/-! ## Accesses -/

theorem component (hev : ev.Blind) (part : Option Expr) (bracket : Token) :
    Alike (ev.component part bracket scope)
      (ev.component (map? Token.unlined Expr.ungroup part) bracket.unlined scope) := by
  cases part with
  | none => exact .pure rfl
  | some e =>
      refine .bind (hev.expression e scope) fun v => ?_
      cases v with
      | number x => exact .pure rfl
      | _ => exact .failAt

/-- A slice is evaluated component by component, and whether a colon is there does not depend on its
    line. -/
theorem slice (hev : ev.Blind) (a : Access) :
    Alike (ev.slice a scope) (ev.slice a.erased scope) := by
  obtain ⟨object, bracket, first, firstColon, second, secondColon, third⟩ := a
  -- which parts there are decides between an index, a range and a missing step
  cases firstColon <;> cases secondColon <;> cases third
  case none.some.none => exact .failAt
  case some.some.none => exact .failAt
  all_goals
    refine .bind (hev.component first bracket) fun start => .ite ?_ ?_
    · cases start with
      | none => exact .failAt
      | some position => exact .pure rfl
    · refine .bind (hev.component second bracket) fun stop => ?_
      exact .bind (hev.component _ bracket) fun step => .pure rfl

theorem key (hev : ev.Blind) (a : Access) :
    Alike (ev.key a scope) (ev.key a.erased scope) := by
  obtain ⟨object, bracket, first, firstColon, second, secondColon, third⟩ := a
  cases first with
  | none => exact .failAt
  | some e =>
      cases firstColon with
      | some colon => exact .failAt
      | none =>
          cases secondColon with
          | some colon => exact .failAt
          | none => exact hev.expression e scope

/-- What is read through brackets depends on the kind of the object, and only the error has the line
    of the bracket. -/
theorem read (hev : ev.Blind) (a : Access) :
    Alike (ev.read a scope) (ev.read a.erased scope) := by
  have hslice : Alike (ev.slice a scope) _ := hev.slice a
  have hkey : Alike (ev.key a scope) _ := hev.key a
  obtain ⟨object, bracket, first, firstColon, second, secondColon, third⟩ := a
  unfold Evaluator.read
  refine .bind (hev.expression object scope) fun object => ?_
  cases object with
  | dict r =>
      refine .bind hkey fun k => .bind (.inspect fun _ => rfl) fun found => ?_
      exact .bind (.blame bracket (.ofExcept found)) fun _ => .pure rfl
  | list r =>
      refine .bind hslice fun s => .bind (.inspect fun _ => rfl) fun selected => ?_
      refine .bind (.blame bracket (.ofExcept selected)) fun selection => ?_
      cases selection with
      | element v => exact .pure rfl
      | items vs => exact .make fun _ => rfl
  | string text =>
      refine .bind hslice fun s => .bind (.blame bracket (.ofExcept _)) fun selection => ?_
      cases selection with
      | element c => exact .pure rfl
      | items cs => exact .pure rfl
  | _ => exact .failAt

/-- What is stored through brackets, kind by kind of the object. -/
theorem store (hev : ev.Blind) (a : Access) (v : Value) :
    Alike (ev.store a v scope) (ev.store a.erased v scope) := by
  have hslice : Alike (ev.slice a scope) _ := hev.slice a
  have hkey : Alike (ev.key a scope) _ := hev.key a
  obtain ⟨object, bracket, first, firstColon, second, secondColon, third⟩ := a
  unfold Evaluator.store
  refine .bind (hev.expression object scope) fun object => ?_
  cases object with
  | dict r =>
      refine .bind hkey fun k => .blame bracket (.attempt fun h => ?_)
      exact h.insertEntry_erased r k v
  | list r =>
      refine .bind hslice fun s => ?_
      cases s with
      | index position =>
          refine .ite .failAt (.blame bracket (.attempt fun h => ?_))
          exact h.setElement_erased r position.toNat v
      | range first second third => exact .failAt
  | _ => exact .failAt

/-! ## Calls -/

/-- A function is called in a new scope with its parameters bound by name. The body is stripped on
    the right, which is what `hev.body` is about. -/
theorem callErased (hev : ev.Blind) (f : Function) (arguments : List Value) (token : Token) :
    Alike (ev.callFunction f arguments token)
      (ev.callFunction f.erased arguments token.unlined) := by
  unfold Evaluator.callFunction
  simp only [Function.erased, FunctionDecl.arity_erased, FunctionDecl.lexemes_erased,
    FunctionDecl.title_erased, FunctionDecl.body_erased]
  refine .ite .failAt (.bind (.observe fun _ _ => rfl) fun depth => ?_)
  refine .ite .failAt (.bind (.make fun _ => rfl) fun scope => ?_)
  refine .bind (.change fun h => h.declareAll_erased scope _) fun _ => ?_
  refine .bind (.inFunction _ token (hev.body f.declaration.body scope)) fun flow => .ite ?_ ?_
  · refine .bind (.inspect fun _ => rfl) fun this => ?_
    cases this with
    | some v => exact .pure rfl
    | none => exact .failAt
  · exact .pure rfl

/-- Functions that are the same up to lines and groupings are called alike. -/
theorem callFunction (hev : ev.Blind) {f f' : Function} (hf : f.erased = f'.erased)
    (arguments : List Value) (token : Token) :
    Alike (ev.callFunction f arguments token) (ev.callFunction f' arguments token.unlined) := by
  have hright := hev.callErased f' arguments token.unlined
  rw [← hf] at hright
  exact (hev.callErased f arguments token).trans hright.symm

/-- An instance is made first and then its initializer is called, if the class has one. -/
theorem instantiate (hev : ev.Blind) (c : Ref .cls) (arguments : List Value) (token : Token) :
    Alike (ev.instantiate c arguments token) (ev.instantiate c arguments token.unlined) := by
  refine .bind (.make fun _ => rfl) fun r => ?_
  refine .bindFunction (.inspect fun h => h.method?_erased c "init") (.ite (.pure rfl) .failAt) ?_
  intro f f' hf
  refine .bindView (.allocate (g := Function.erased) (q := (·.bind f.erased r)) (fun _ => rfl)
    fun _ => ?_) fun bound bound' hbound => ?_
  · rw [hf]
    rfl
  · exact .bind (hev.callFunction hbound arguments token) fun _ => .pure rfl

/-- A module is loaded alike. Its errors are turned into a fault without a line, so they do not have
    to be compared. -/
theorem loadModule (hev : ev.Blind) (path : String) :
    Step.AlikeBy (fun _ => ()) id (ev.loadModule path) (ev.loadModule path) := by
  refine .bind (.observe fun _ _ => rfl) fun source => ?_
  refine .bind (.ofExcept _) fun text => .bind (.ofExcept _) fun program => ?_
  refine .bind (.make fun h => h.newProgramScope_erased (some path)) fun scope => ?_
  -- the program is the same on both sides, so it is alike to itself through what is left of it
  have hprogram := (hev.program program scope).trans (hev.program program scope).symm
  exact .bind (.apart (hprogram.mapError fun _ _ _ => rfl)) fun _ => .pure rfl

end Blind

end Evaluator

/-! ## Builtins -/

theorem alike_describeAll (entries : List (String × Entry)) :
    Step.AlikeBy id id (Builtin.describeAll entries) (Builtin.describeAll entries) := by
  induction entries with
  | nil => exact .pure rfl
  | cons e rest ih => exact .bind (.make fun _ => rfl) fun v => .bind ih fun vs => .pure rfl

/-- A builtin is made of steps that know nothing of functions, so it is alike to itself. The
    induction is on what it performs. -/
theorem alike_performs {arguments : List Value} {x : Step Fault Value}
    (hx : Builtin.Performs arguments x) : Step.AlikeBy id id x x := by
  induction hx with
  | gives _ => exact .pure rfl
  | fails _ => exact .fail rfl
  | checks _ _ ih => exact .bind (.ofExcept _) ih
  | asks hp _ ih => exact .bind (.observe hp) ih
  | acts _ _ ih => exact .bind .outside fun _ => ih
  | shows _ ih =>
      refine .bind (.inspect fun h => ?_) ih
      exact List.map_congr_left fun v _ => h.display_erased v
  | lists _ => exact .make fun _ => rfl
  | describes entries => exact .bind (alike_describeAll entries) fun _ => .make fun _ => rfl

namespace Evaluator

namespace Blind

variable {ev : Evaluator}

theorem builtin (hev : ev.Blind) (b : Builtin) (arguments : List Value) :
    Step.AlikeBy id id (b.call ev arguments) (b.call ev arguments) := by
  obtain ⟨script, module, rfl, rfl⟩ | ⟨-, hx⟩ := b.call_cases ev ev arguments
  · refine .bind (.ofExcept _) fun module => ?_
    exact .bind ((hev.loadModule _).mapError fun _ _ _ => rfl) fun scope => .make fun _ => rfl
  · exact alike_performs hx

/-- What can be called are functions, classes and builtins, and each has its own way. -/
theorem callValue (hev : ev.Blind) (callee : Value) (arguments : List Value) (token : Token) :
    Alike (ev.callValue callee arguments token) (ev.callValue callee arguments token.unlined) := by
  unfold Evaluator.callValue
  cases callee with
  | function r =>
      refine .bindFunction (.inspect fun h => h.functions.get?_map _ r) .failAt fun f f' hf => ?_
      exact hev.callFunction hf arguments token
  | cls c => exact hev.instantiate c arguments token
  | builtin r =>
      refine .bind (.inspect fun _ => rfl) fun found => ?_
      cases found with
      | some b => exact .blame token (hev.builtin b arguments)
      | none => exact .failAt
  | _ => exact .failAt

/-! ## Expressions -/

/-- What an operator came to is carried out: it is a value, or something has to be called. -/
theorem finish (hev : ev.Blind) (applied : Except Fault Applied) (token : Token) :
    Alike (ev.finish applied token) (ev.finish (applied.map Applied.erased) token.unlined) := by
  refine .bindView (g := Applied.erased) (.blame token ?_) fun a a' ha => ?_
  · cases applied with
    | error fault => exact .fail rfl
    | ok a => exact .pure a.erased_erased.symm
  · refine .bind (.allocate (q := (·.carryOut a.erased)) (fun h => h.carryOut_erased a)
      fun h => ?_) fun dispatch => ?_
    · rw [ha]
      exact h.carryOut_erased a'
    · cases dispatch with
      | resolved v => exact .pure rfl
      | call callee arguments => exact hev.callValue callee arguments token

/-- An operator is applied to what is on the heap. -/
theorem apply (hev : ev.Blind) {find : Heap → Except Fault Applied}
    (hfind : ∀ h, find h.erased = (find h).map Applied.erased) (token : Token) :
    Alike (do ev.finish (← Step.inspect find) token)
      (do ev.finish (← Step.inspect find) token.unlined) :=
  .bindErased (.inspect hfind) (hev.finish · token) (hev.finish · token.unlined)

theorem binary (hev : ev.Blind) (left : Expr) (operator : Token) (right : Expr) :
    Alike (ev.binary left operator right scope) (ev.binary left.erased operator.unlined
        right.erased scope) := by
  refine .bind (hev.expression left scope) fun l => .bind (hev.expression right scope) fun r => ?_
  simp only [Token.kind_unlined]
  cases Operator.ofBinary? operator.kind with
  | some op => exact hev.apply (fun h => h.binary_erased op l r) operator
  | none => exact .failAt

theorem unary (hev : ev.Blind) (operator : Token) (operand : Expr) :
    Alike (ev.unary operator operand scope) (ev.unary operator.unlined operand.erased scope) := by
  refine .bind (hev.expression operand scope) fun v => ?_
  simp only [Token.kind_unlined]
  split
  · exact .pure rfl
  · exact hev.apply (fun h => h.unary_erased .neg v) operator
  · exact .failAt

/-- Which operand is the value is decided by the truth of the left one. -/
theorem logical (hev : ev.Blind) (left : Expr) (operator : Token) (right : Expr) :
    Alike (ev.logical left operator right scope) (ev.logical left.erased operator.unlined
        right.erased scope) := by
  refine .bind (hev.expression left scope) fun l => ?_
  have hsecond : Alike
      (do return Value.bool (← ev.expression right scope).truthy)
      (do return Value.bool (← ev.expression right.erased scope).truthy) :=
    .bind (hev.expression right scope) fun _ => .pure rfl
  simp only [Token.kind_unlined]
  split
  · exact .ite (.pure rfl) hsecond
  · exact .ite hsecond (.pure rfl)
  · exact .failAt

theorem assign (hev : ev.Blind) (name : Token) (value : Expr) (access : Option Access) :
    Alike (ev.assign name value access scope) (ev.assign name.unlined value.erased
        (mapAccess? Token.unlined Expr.ungroup access) scope) := by
  refine .bind (hev.expression value scope) fun v => ?_
  cases access with
  | some a => exact .bind (hev.store a v) fun _ => .pure rfl
  | none =>
      refine .bind (.blame name (.attempt fun h => ?_)) fun _ => .pure rfl
      exact h.assign_erased scope name.lexeme v

/-- The object, the check whether it is one, the value, and then the access or the property. -/
theorem set (hev : ev.Blind) (object : Expr) (name : Token) (value : Expr)
    (access : Option Access) :
    Alike (ev.set object name value access scope) (ev.set object.erased name.unlined
        value.erased (mapAccess? Token.unlined Expr.ungroup access)
        scope) := by
  refine .bind (hev.expression object scope) fun o => .ite .failAt ?_
  refine .bind (hev.expression value scope) fun v => ?_
  cases access with
  | some a => exact .bind (hev.store a v) fun _ => .pure rfl
  | none => exact .bind (alike_setProperty o name v) fun _ => .pure rfl

/-- One case for each kind of expression. Parentheses are the only one where the stripped expression
    is another one: it is what stands in them. -/
theorem expressionStep (hev : ev.Blind) : ∀ e : Expr,
    Alike (ev.expressionStep e scope) (ev.expressionStep e.erased scope)
  | .grouping inner => by
      rw [Evaluator.expressionStep]
      exact expressionStep hev inner
  | .list elements bracket => .bind (hev.values elements scope) fun vs => .make fun _ => rfl
  | .dict entries brace => by
      refine .bind (hev.entries entries scope) fun es => ?_
      exact .bind (.blame brace (.ofExcept _)) fun dict => .make fun _ => rfl
  | .assign name value access => hev.assign name value access
  | .access a => hev.read a
  | .binary left operator right => hev.binary left operator right
  | .call callee paren arguments => by
      refine .bind (hev.expression callee scope) fun f => ?_
      exact .bind (hev.values arguments scope) fun vs => hev.callValue f vs paren
  | .get object name => .bind (hev.expression object scope) fun v => alike_property v name
  | .set object name value access => hev.set object name value access
  | .super keyword method => alike_superMethod keyword method
  | .literal c => .pure rfl
  | .logical left operator right => hev.logical left operator right
  | .this keyword => alike_meaning "this" keyword
  | .unary operator operand => hev.unary operator operand
  | .var name => alike_meaning name.lexeme name
  | .function d => alike_closure d

/-! ## Statements -/

theorem optional (hev : ev.Blind) (e : Option Expr) :
    Alike (ev.optional e scope) (ev.optional (map? Token.unlined Expr.ungroup e) scope) := by
  cases e with
  | some e => exact hev.expression e scope
  | none => exact .pure rfl

/-- Branches are tried in order, and the `else` branch is the last. -/
theorem branches (hev : ev.Blind) (elseBranch : Option (List Stmt)) (elifs : List ElifBranch) :
    Alike (ev.branches elseBranch scope elifs)
      (ev.branches (mapElse Token.unlined Expr.ungroup elseBranch) scope
        (mapElifs Token.unlined Expr.ungroup elifs)) := by
  induction elifs with
  | nil =>
      cases elseBranch with
      | some statements => exact hev.statements statements scope
      | none => exact .pure rfl
  | cons branch rest ih =>
      obtain ⟨condition, body⟩ := branch
      exact .bind (hev.expression condition scope) fun v => .ite (hev.statements body scope) ih

/-- A loop goes round as often on both sides, since its condition is as true. The induction is on
    the rounds that are left. -/
theorem alike_loop {condition condition' : Step RuntimeError Value}
    {body body' : Step RuntimeError Flow} {after after' : Step RuntimeError Unit}
    (hcondition : Alike condition condition')
    (hbody : Alike body body')
    (hafter : Alike after after') (n : Nat) :
    Alike (loop condition body after n) (loop condition' body' after' n) := by
  induction n with
  | zero => exact .exhausted
  | succ n ih =>
      refine .bind hcondition fun v => .ite (.bind hbody fun flow => ?_) (.pure rfl)
      cases flow with
      | returned v => exact .pure rfl
      | broke => exact .pure rfl
      | run => exact .bind hafter fun _ => ih
      | continued => exact .bind hafter fun _ => ih

/-- A loop over rows binds the names anew for each of them, in the one scope that it has. -/
theorem eachRow (hev : ev.Blind) (names : List String) (body : Stmt) (rows : List (List Value)) :
    Alike (ev.eachRow names body scope rows) (ev.eachRow names body.erased scope rows) := by
  induction rows with
  | nil => exact .pure rfl
  | cons row rest ih =>
      refine .bind (.change fun h => h.declareAll_erased scope _) fun _ => ?_
      refine .bind (hev.statement body scope) fun flow => ?_
      cases flow with
      | returned v => exact .pure rfl
      | broke => exact .pure rfl
      | run => exact ih
      | continued => exact ih

/-- One case for each kind of statement. -/
theorem statementStep (hev : ev.Blind) (s : Stmt) :
    Alike (ev.statementStep s scope) (ev.statementStep s.erased scope) := by
  cases s with
  | expr e => exact .bind (hev.expression e scope) fun _ => .pure rfl
  | tryCatch body name handler =>
      refine .rescue (hev.statement body scope) (fun e e' he => ?_) fun e e' he => ?_
      · rw [RuntimeError.fault_eq he]
      · rw [RuntimeError.fault_eq he]
        refine .bind (.make fun _ => rfl) fun inner => ?_
        exact .bind (.change fun _ => rfl) fun _ => hev.statement handler inner
  | forLoop keyword initializer condition increment body =>
      have hafter : Alike
          (do let _ ← ev.expression increment scope; return ())
          (do let _ ← ev.expression increment.erased scope; return ()) :=
        .bind (hev.expression increment scope) fun _ => .pure rfl
      have hloop := Step.AlikeBy.inLoop (alike_loop (hev.expression condition scope)
        (hev.statement body scope) hafter ev.rounds)
      cases initializer with
      | some s => exact .bind (hev.statement s scope) fun _ => hloop
      | none => exact hloop
  | forIn keyword identifiers collection body =>
      simp only [Stmt.erased, Stmt.map, Evaluator.statementStep, List.length_map, List.map_map]
      refine .bind (hev.expression collection scope) fun c => .bind (.inspect fun _ => rfl) ?_
      intro found
      refine .bind (.blame keyword (.ofExcept found)) fun rows => .bind (.make fun _ => rfl) ?_
      exact fun inner => .inLoop (hev.eachRow _ body rows)
  | declare name initializer =>
      refine .bind (hev.optional initializer) fun v => ?_
      exact .bind (.change fun _ => rfl) fun _ => .pure rfl
  | block statements =>
      exact .bind (.make fun _ => rfl) fun inner => hev.statements statements inner
  | whileLoop keyword condition body =>
      exact .inLoop (alike_loop (hev.expression condition scope) (hev.statement body scope)
        (.pure rfl) ev.rounds)
  | ret keyword value => exact .bind (hev.optional value) fun _ => .pure rfl
  | breakLoop keyword => exact alike_leaveRound keyword .broke
  | continueLoop keyword => exact alike_leaveRound keyword .continued
  | ifElse keyword condition thenBranch elifs elseBranch =>
      refine .bind (hev.expression condition scope) fun v => ?_
      exact .ite (hev.statements thenBranch scope) (hev.branches elseBranch elifs)
  | function d =>
      refine .bind (alike_closure d) fun v => ?_
      rw [show (FunctionDecl.map Token.unlined Expr.ungroup d).title = d.title from d.title_erased]
      exact .bind (.change fun _ => rfl) fun _ => .pure rfl
  | cls c => exact alike_declareClass c

theorem bodyStep (hev : ev.Blind) (b : FunctionBody) :
    Alike (ev.bodyStep b scope) (ev.bodyStep b.erased scope) := by
  cases b with
  | block statements => exact hev.statements statements scope
  | expression e => exact .bind (hev.expression e scope) fun _ => .pure rfl

end Blind

/-! ## Closing the pass over the fuel -/

/-- By induction on the fuel: with one unit more the parts are evaluated with what is left. -/
theorem blind_withFuel (limit fuel : Nat) : (Evaluator.withFuel limit fuel).Blind := by
  induction fuel with
  | zero => exact ⟨fun _ _ => .exhausted, fun _ _ => .exhausted, fun _ _ => .exhausted⟩
  | succ fuel ih =>
      constructor
      · intro s scope
        rw [withFuel_statement, withFuel_statement]
        exact ih.statementStep s
      · intro e scope
        rw [withFuel_expression, withFuel_expression]
        exact ih.expressionStep e
      · intro b scope
        rw [withFuel_body, withFuel_body]
        exact ih.bodyStep b

end Evaluator

/-- Neither run ends, or both end in the same world, with the same output; and both succeed, or
    both fail for the same reason and at the same word. -/
def Outcome.SameEnd {α : Type} : Outcome RuntimeError α → Outcome RuntimeError α → Prop
  | .ok _ m, .ok _ m' => m.world = m'.world
  | .error e m, .error e' m' => e.fault = e'.fault ∧ e.lexeme = e'.lexeme ∧ m.world = m'.world
  | .outOfFuel, .outOfFuel => True
  | _, _ => False

/-- Ends that are alike are the same end: the world is the same, and an error has its fault and its
    word. -/
theorem Outcome.AlikeBy.sameEnd {α : Type} {o o' : Outcome RuntimeError α}
    (h : o.AlikeBy RuntimeError.unlined id o') : o.SameEnd o' := by
  cases h with
  | ok _ hm => exact hm.world
  | error he hm => exact ⟨RuntimeError.fault_eq he, RuntimeError.lexeme_eq he, hm.world⟩
  | outOfFuel => trivial

/-- **Lines and groupings are not observed.** Two programs that are the same up to the lines of
    their tokens and up to groupings, run from the same machine and scope and with the same limit
    and fuel, come to the same end. -/
theorem layout_unobservable {program program' : Program} (h : program.erased = program'.erased)
    (limit fuel : Nat) (scope : Ref .scope) (m : Machine) :
    ((Evaluator.withFuel limit fuel).program program scope m).SameEnd
      ((Evaluator.withFuel limit fuel).program program' scope m) := by
  have hblind := Evaluator.blind_withFuel limit fuel
  have hleft := hblind.program program scope
  have hright := hblind.program program' scope
  rw [← h] at hright
  exact (hleft.trans hright.symm m m (.refl m)).sameEnd

/-- A function is made and called with a name that means nothing. One program is spread over lines,
    the other has groupings in the function and in the call. -/
theorem layout_unobservable_call :
    ∃ program program' : Program,
      program.source = "let f = fn (x) x\nf(y)\n"
        ∧ program'.source = "let f = fn (x) (x)\nf(((y)))\n"
        ∧ program.erased = program'.erased
        ∧ ((Evaluator.withFuel 9 9).program program ⟨0⟩
            ⟨(Heap.empty.newScope none).2, .root, .empty⟩).SameEnd
          ((Evaluator.withFuel 9 9).program program' ⟨0⟩
            ⟨(Heap.empty.newScope none).2, .root, .empty⟩) := by
  let name (text : String) (line : Nat) : Token := .plain .identifier text line
  let program : Program := [
    .declare (name "f" 1) (some (.function ⟨none, [name "x" 2], .expression (.var (name "x" 3))⟩)),
    .expr (.call (.var (name "f" 5)) (.plain .rightParen ")" 7) [.var (name "y" 6)])]
  let program' : Program := [
    .declare (name "f" 1)
      (some (.function ⟨none, [name "x" 1], .expression (.grouping (.var (name "x" 1)))⟩)),
    .expr (.call (.var (name "f" 2)) (.plain .rightParen ")" 2)
      [.grouping (.grouping (.var (name "y" 2)))])]
  have herased : program.erased = program'.erased := rfl
  exact ⟨program, program', by decide +kernel, by decide +kernel, herased,
    layout_unobservable herased 9 9 _ _⟩

end Script
