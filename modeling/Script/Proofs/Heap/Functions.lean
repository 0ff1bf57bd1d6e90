import Script.Eval.Module
import Script.Proofs.Heap.Contents

/-!
# `Proofs.Heap.Functions` — the functions that are on the heap

Evaluation meets a function long after it was made, and in another scope. What is to be known of its
text has to be known of every function on the heap: `Heap.Functions p h` says that the text of each
one meets `p`. Only making a function can touch this, and a bound method has the text of the method.
-/

namespace Script

namespace Heap

/-- The text of every function on the heap meets `p`. -/
def Functions (p : FunctionDecl → Prop) (h : Heap) : Prop :=
  ∀ r f, h.functions.get? r = some f → p f.declaration

variable {p : FunctionDecl → Prop} {h h' : Heap}

/-- Whatever else an operation does, if it makes no function then nothing changes here. -/
theorem Functions.of_eq (hp : h.Functions p) (he : h'.functions = h.functions) :
    h'.Functions p := by
  intro r f hf
  rw [he] at hf
  exact hp r f hf

theorem functions_empty : Heap.empty.Functions p := by
  intro r f hf
  simp [Heap.empty, Store.empty, Store.get?] at hf

/-! ## Operations that make no function -/

@[simp] theorem newScope_functions (parent : Option (Ref .scope)) :
    (h.newScope parent).2.functions = h.functions := rfl

@[simp] theorem newList_functions (elements : Array Value) :
    (h.newList elements).2.functions = h.functions := rfl

@[simp] theorem newDict_functions (dict : Dict) : (h.newDict dict).2.functions = h.functions := rfl

@[simp] theorem newClass_functions (c : Class) : (h.newClass c).2.functions = h.functions := rfl

@[simp] theorem newInstance_functions (c : Ref .cls) :
    (h.newInstance c).2.functions = h.functions := rfl

@[simp] theorem newBuiltin_functions (b : Builtin) :
    (h.newBuiltin b).2.functions = h.functions := rfl

@[simp] theorem newHost_functions (o : HostObject) : (h.newHost o).2.functions = h.functions := rfl

@[simp] theorem declare_functions (s : Ref .scope) (name : String) (v : Value) :
    (h.declare s name v).functions = h.functions := rfl

/-- Declarations change scopes only, one after the other. -/
@[simp] theorem declareAll_functions (s : Ref .scope) (bindings : List (String × Value)) :
    (h.declareAll s bindings).functions = h.functions := by
  induction bindings generalizing h with
  | nil => rfl
  | cons b rest ih => exact ih

@[simp] theorem assign_functions (s : Ref .scope) (name : String) (v : Value) :
    (h.assign s name v).2.functions = h.functions := by
  rw [assign_frame]

@[simp] theorem setElement_functions (r : Ref .list) (position : Nat) (v : Value) :
    (h.setElement r position v).2.functions = h.functions := by
  rw [setElement_frame]

@[simp] theorem insertEntry_functions (r : Ref .dict) (k v : Value) :
    (h.insertEntry r k v).2.functions = h.functions := by
  rw [insertEntry_frame]

@[simp] theorem setField_functions (r : Ref .inst) (name : String) (v : Value) :
    (h.setField r name v).functions = h.functions := rfl

@[simp] theorem setMember_functions (r : Ref .host) (name : String) (v : Value) :
    (h.setMember r name v).2.functions = h.functions := by
  rw [setMember_frame]

/-- A group of builtins makes builtins and a host object. The fold goes through its members. -/
@[simp] theorem newGroup_functions (members : List (String × Builtin)) :
    (h.newGroup members).2.functions = h.functions := by
  suffices hfold : ∀ (members : List (String × Builtin)) (table : Bindings Value) (h : Heap),
      (members.foldl (fun (acc : Bindings Value × Heap) (entry : String × Builtin) =>
        (acc.1.set entry.1 (Value.builtin (acc.2.newBuiltin entry.2).1),
          (acc.2.newBuiltin entry.2).2)) (table, h)).2.functions = h.functions by
    exact hfold members Bindings.empty h
  intro members
  induction members with
  | nil => exact fun _ _ => rfl
  | cons entry rest ih =>
      intro table h
      rw [List.foldl_cons, ih, newBuiltin_functions]

@[simp] theorem newProgramScope_functions (script : Option String) :
    (h.newProgramScope script).2.functions = h.functions := by
  simp [newProgramScope, newGlobals]

/-! ## Operations that make a function -/

/-- A new function must meet `p`; the others do already. -/
theorem Functions.newFunction (hp : h.Functions p) {f : Function} (hf : p f.declaration) :
    (h.newFunction f).2.Functions p := by
  intro r g hg
  obtain hold | ⟨-, rfl⟩ := Store.get?_push_cases hg
  · exact hp r g hold
  · exact hf

@[simp] theorem bind_functions (f : Function) (r : Ref .inst) :
    (h.bind f r).2.functions = h.functions := rfl

@[simp] theorem bind_declaration (f : Function) (r : Ref .inst) :
    (h.bind f r).1.declaration = f.declaration := rfl

/-- A bound method has the text of its method, so it meets `p` if that does. -/
theorem Functions.boundMethod (hp : h.Functions p) {f : Function} (hf : p f.declaration)
    (r : Ref .inst) : (h.boundMethod f r).2.Functions p :=
  (hp.of_eq (bind_functions f r)).newFunction hf

/-! ## Functions that are found -/

/-- The function is on the heap. -/
def Stored (h : Heap) (f : Function) : Prop := ∃ r, h.functions.get? r = some f

/-- A function that is stored is in some cell, and all cells meet `p`. -/
theorem Functions.of_stored (hp : h.Functions p) {f : Function} (hf : h.Stored f) :
    p f.declaration := by
  obtain ⟨r, hr⟩ := hf
  exact hp r f hr

/-- What is found as a method is stored, in whichever class it is found. -/
theorem stored_method? {c : Ref .cls} {name : String} {f : Function}
    (hf : h.method? c name = some f) : h.Stored f := by
  obtain ⟨r, _, hr⟩ := Option.bind_eq_some_iff.mp hf
  exact ⟨r, hr⟩

theorem stored_instanceMethod? {r : Ref .inst} {name : String} {f : Function}
    (hf : h.instanceMethod? r name = some f) : h.Stored f := by
  obtain ⟨i, _, hi⟩ := Option.bind_eq_some_iff.mp hf
  exact stored_method? hi

theorem Functions.method? (hp : h.Functions p) {c : Ref .cls} {name : String} {f : Function}
    (hf : h.method? c name = some f) : p f.declaration := hp.of_stored (stored_method? hf)

theorem Functions.instanceMethod? (hp : h.Functions p) {r : Ref .inst} {name : String}
    {f : Function} (hf : h.instanceMethod? r name = some f) : p f.declaration :=
  hp.of_stored (stored_instanceMethod? hf)

end Heap

/-! ## What operators come to -/

/-- The method that an operator comes to, if it does. -/
def Applied.method? : Applied → Option Function
  | .method f _ _ => some f
  | _ => none

/-- If an operator comes to the call of a method, its text meets `p`. -/
def Applied.Meets (p : FunctionDecl → Prop) : Applied → Prop
  | .method f _ _ => p f.declaration
  | _ => True

namespace Heap

variable {p : FunctionDecl → Prop} {h : Heap} {a : Applied} {f : Function}

/-- Where an operator comes to a method, that method is stored: operators do not make functions
    up. -/
theorem ComesTo.stored {op : Operator} {l : Value} {rs : List Value} (ha : h.ComesTo op l rs a)
    (hf : a.method? = some f) : h.Stored f := by
  cases ha with
  | method hg =>
      cases hf
      exact stored_instanceMethod? hg
  | _ => cases hf

theorem Functions.meets (hp : h.Functions p) (ha : ∀ f, a.method? = some f → h.Stored f) :
    a.Meets p := by
  cases a with
  | method f receiver arguments => exact hp.of_stored (ha f rfl)
  | _ => trivial

theorem Functions.binary (hp : h.Functions p) {op : Operator} {l r : Value}
    (ha : h.binary op l r = .ok a) : a.Meets p := hp.meets fun _ => (ComesTo.of_binary ha).stored

theorem Functions.unary (hp : h.Functions p) {op : Operator} {v : Value}
    (ha : h.unary op v = .ok a) : a.Meets p := hp.meets fun _ => (ComesTo.of_unary ha).stored

/-- Only a method is bound, when what an operator came to is carried out. The other cases make no
    function. -/
theorem Functions.carryOut (hp : h.Functions p) (ha : a.Meets p) : (h.carryOut a).2.Functions p := by
  cases a with
  | method f receiver arguments => exact hp.boundMethod ha receiver
  | value v => exact hp
  | newList elements => exact hp
  | newDict dict => exact hp
  | hosted f arguments => exact hp

end Heap

end Script
