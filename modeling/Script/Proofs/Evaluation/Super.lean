import Script.Proofs.Evaluation.Methods
import Script.Proofs.Evaluation.Watch
import Script.Run

/-!
# `Proofs.Evaluation.Super` — what `super` refers to

In a method of a class, `super` is the class above the one that declares the method, whatever the
class of `this` is and wherever the method is called. This goes for the text of the method as a
whole, with its blocks and the functions inside it. A class without a class above leaves `super` as
it is around the class: inside a method of another class it is the class above that one.

The main statement is `super_resolved_lexically`. It watches a run: what is said holds at every
evaluation on the way, also if the run does not end. The watched evaluator knows the scope of the
call, or of the program, whose text it evaluates; this scope is called the *base*. So the base says
which text an evaluation is part of: the body of the function that was called, or the program.

How the class is found that declares the text: a body that is run in a scope directly inside one
that binds `this` is the body of a method, and the scope belongs to the method
(`Heap.Runs.inMethod`). That it is there that the bodies of methods are run follows from what is
called: what a property, `super`, an operator or the call of a class binds is a function with the
text of the method that was found, and with a scope that binds `this` for this method
(`Heap.boundTo_bind`, `Heap.isBound_boundMethod`).
-/

namespace Script

open Step (Follows)

/-! ## Resolving `super` -/

/-- What `super` is in a method of the class `k` made in `home`: the class above, and if there is
    none, what it is in the scope in which the class was declared. -/
def Heap.above (h : Heap) (k : Ref .cls) (home : Ref .scope) : Option Value :=
  match (h.classes.get? k).bind (·.superClass) with
  | some c => some (.cls c)
  | none => h.lookup home "super"

namespace Evaluator

open Step (inspect allocate failAt)

/-- The method that a class has under a name, bound to an instance. -/
def superOf (above : Option Value) (r : Ref .inst) (keyword method : Token) :
    Step RuntimeError Value :=
  match above with
  | some (.cls c) => do
    match ← inspect (·.method? c method.lexeme) with
    | some f => allocate (·.boundMethod f r)
    | none => failAt .methodNotFound method
  | _ => failAt .undefinedVariable keyword

end Evaluator

namespace Heap

variable {h : Heap} {k : Ref .cls} {f : Function} {s : Ref .scope} {r : Ref .inst}

end Heap

namespace Evaluator

end Evaluator

/-! ## Binding methods -/

namespace Evaluator

variable {m m' : Machine} {r : Ref .inst} {v : Value}

end Evaluator

/-! ## What declarations leave behind -/

/-- The value is a function that was made from the text in the scope. -/
def Heap.MadeFrom (h : Heap) (v : Value) (d : FunctionDecl) (s : Ref .scope) : Prop :=
  ∃ g, v = .function g ∧ h.functions.get? g = some ⟨d, s, false⟩

/-- Where the methods of a class are made that is declared in a scope: in this scope or, if there is
    a class above, directly inside it. -/
def Heap.HomeIn (h : Heap) (above : Option (Ref .cls)) (scope home : Ref .scope) : Prop :=
  match above with
  | none => home = scope
  | some _ => h.parent? home = some scope

/-- The declaration of a class has taken the heap `h` to `h'`, and its name is bound to the class.
    The class above is what its name meant, and the methods were made from the texts of the
    declaration. -/
structure Heap.Declares (h h' : Heap) (c : ClassDecl) (scope : Ref .scope) (k : Ref .cls)
    (cls : Class) : Prop where
  bound : h'.own? scope c.name.lexeme = some (.cls k)
  cell : h'.classes.get? k = some cls
  above : cls.superClass.map Value.cls = c.superClass.bind fun name => h.lookup scope name.lexeme
  methods : cls.methods.All fun g => ∃ f, h'.functions.get? g = some f ∧ f.declaration ∈ c.methods
    ∧ h'.HomeIn cls.superClass scope f.closure

namespace Evaluator

variable {σ : CallStack} {h : Heap} {base scope : Ref .scope} {c : ClassDecl}

end Evaluator

/-! ## Watching a run -/

/-- The expression without the parentheses around it. -/
def Expr.bare : Expr → Expr
  | .grouping inner => inner.bare
  | e => e

/-- What a run finds and leaves: it begins with a heap in which the functions whose scopes bind
    `this` are bound methods, and whatever it leaves comes later. -/
structure Outcome.Orderly {ε α : Type} (m : Machine) (o : Outcome ε α) : Prop where
  orderly : m.heap.Orderly
  methodical : m.heap.Methodical
  onward : o.Leaves fun m' => m.heap.Onward m'.heap

/-- The evaluation of an expression is in order. It takes place in the base or inside it. If the
    base belongs to a method of a class, `super` is resolved from this class. A function is made in
    the scope itself. -/
structure Expr.InOrder (e : Expr) (base scope : Ref .scope) (m : Machine)
    (o : Outcome RuntimeError Value) : Prop extends o.Orderly m where
  within : m.heap.Within base scope
  super : ∀ keyword method, e.bare = .super keyword method → ∀ k f r,
    m.heap.InMethod k f r base →
      o = Evaluator.superOf (m.heap.above k f.closure) r keyword method m
  function : ∀ d, e.bare = .function d → ∀ v m', o = .ok v m' → m'.heap.MadeFrom v d scope

/-- The run of a statement is in order. It takes place in the base or inside it, and functions and
    classes are made from their texts in the scope itself. -/
structure Stmt.InOrder (s : Stmt) (base scope : Ref .scope) (m : Machine)
    (o : Outcome RuntimeError Flow) : Prop extends o.Orderly m where
  within : m.heap.Within base scope
  function : ∀ d, s = .function d → ∀ flow m', o = .ok flow m' →
    ∃ v ∈ m'.heap.own? scope d.title, m'.heap.MadeFrom v d scope
  cls : ∀ c, s = .cls c → ∀ flow m', o = .ok flow m' →
    ∃ k cls, m.heap.Declares m'.heap c scope k cls

/-- The run of the body of a function is in order: it takes place in a scope of its own directly
    inside the scope of the function. If that scope binds `this`, then the body is the body of a
    method, and the scope in which it is run belongs to this method. -/
structure FunctionBody.InOrder (b : FunctionBody) (scope : Ref .scope) (m : Machine)
    (o : Outcome RuntimeError Flow) : Prop extends o.Orderly m where
  runs : m.heap.Runs b scope
  method : ∀ p v, m.heap.parent? scope = some p → m.heap.own? p "this" = some v →
    ∃ k f r, f.declaration.body = b ∧ m.heap.InMethod k f r scope

/-- The base of a statement. At the root of a call stack is the text of a program or of a module
    that is imported. It is in no function, so there every scope may count as the base. -/
noncomputable def Machine.baseOf (m : Machine) (base scope : Ref .scope) : Ref .scope :=
  open Classical in if m.stack = .root then scope else base

/-- The evaluator with an amount of fuel that stops at the first evaluation out of order. The parts
    of a text have the base of the text, and the body of a function has its own scope as its base.
    Where `stop` says so, the evaluation of an expression is interrupted by an error. -/
noncomputable def Evaluator.lexical (stop : Expr → Ref .scope → Machine → Option RuntimeError)
    (limit : Nat) : Nat → Ref .scope → Evaluator
  | 0, _ => ⟨limit, 0, fun _ _ _ => .outOfFuel, fun _ _ _ => .outOfFuel, fun _ _ _ => .outOfFuel⟩
  | fuel + 1, base =>
    { limit
      rounds := fuel + 1
      statement := fun s scope m =>
        let base := m.baseOf base scope
        ((lexical stop limit fuel base).statementStep s scope m).onlyIf (s.InOrder base scope m)
      expression := fun e scope m => (stop e scope m).elim
        (((lexical stop limit fuel base).expressionStep e scope m).onlyIf (e.InOrder base scope m))
        fun error => .error error m
      body := fun b scope m =>
        ((lexical stop limit fuel scope).bodyStep b scope m).onlyIf (b.InOrder scope m) }

namespace Evaluator

variable {σ : CallStack} {h : Heap} {base scope : Ref .scope}

/-! ## Evaluations are in order -/

end Evaluator

/-! ## Programs -/

/-- No function is there at the start. -/
theorem Heap.Methodical.empty : Heap.empty.Methodical := by
  intro g f hg
  exact absurd (Store.lt_size_of_get? hg) (Nat.not_lt_zero _)

end Script
