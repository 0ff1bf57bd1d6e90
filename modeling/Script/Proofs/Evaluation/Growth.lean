import Script.Proofs.Evaluation.Methods
import Script.Run

/-!
# `Proofs.Evaluation.Growth` — what becomes of the objects that are there

Objects are shared, and a program can reach them under many names. What it can do to them is little:
put another value at a place of a list, add an entry to a dictionary or change the value of one, and
set a field of an instance. Functions and classes are made once and for all. So from one heap to a
later one lists keep their length, dictionaries keep their keys in order, and instances keep their
class and the names of their fields (`Heap.Grows`).

The main statement is `heap_grows`. It is about arbitrary trees, scopes and heaps.
-/

namespace Script

/-! ## Cells over time -/

namespace Store

variable {kind : CellKind} {α : Type} {R : α → α → Prop} {s s' s'' : Store kind α}

/-- Every cell of the first store is there in the second one, and what it holds is related. -/
def Evolves (R : α → α → Prop) (s s' : Store kind α) : Prop :=
  ∀ r a, s.get? r = some a → ∃ a', s'.get? r = some a' ∧ R a a'

theorem Evolves.refl (hR : ∀ a, R a a) (s : Store kind α) : s.Evolves R s :=
  fun _ a ha => ⟨a, ha, hR a⟩

/-- What evolves twice evolves, if the relation of cells is transitive. -/
theorem Evolves.trans (hR : ∀ {a b c}, R a b → R b c → R a c) (h : s.Evolves R s')
    (h' : s'.Evolves R s'') : s.Evolves R s'' := by
  intro r a ha
  obtain ⟨b, hb, hab⟩ := h r a ha
  obtain ⟨c, hc, hbc⟩ := h' r b hb
  exact ⟨c, hc, hR hab hbc⟩

theorem evolves_push (hR : ∀ a, R a a) (s : Store kind α) (a : α) : s.Evolves R (s.push a) :=
  fun r b hb => ⟨b, keptIn_push s a r b hb, hR b⟩

/-- A change of one cell leaves the others, and relates this one to what it was. -/
theorem evolves_modify (hR : ∀ a, R a a) {f : α → α} (hf : ∀ a, R a (f a)) (s : Store kind α)
    (r : Ref kind) : s.Evolves R (s.modify r f) := by
  intro r' a ha
  by_cases hr : r' = r
  · subst hr
    exact ⟨f a, by rw [get?_modify_self, ha, Option.map_some], hf a⟩
  · exact ⟨a, by rw [get?_modify_ne hr, ha], hR a⟩

end Store

/-- The two lists have the same length. -/
def SameLength (vs vs' : Array Value) : Prop := vs'.size = vs.size

theorem SameLength.refl (vs : Array Value) : SameLength vs vs := rfl

/-- The keys of a dictionary, in order. -/
def Dict.keys (d : Dict) : List Value := d.toList.map (·.1)

/-- The keys are where they were, and new ones may stand behind them. -/
def Dict.Grows (d d' : Dict) : Prop := d.keys <+: d'.keys

theorem Dict.Grows.refl (d : Dict) : d.Grows d := List.prefix_refl _

/-- The class is the same and no field has gone. -/
structure Instance.Grows (i i' : Instance) : Prop where
  cls : i'.cls = i.cls
  fields : i.fields.names ⊆ i'.fields.names

theorem Instance.Grows.refl (i : Instance) : i.Grows i := ⟨rfl, List.Subset.refl _⟩

/-- The class stays, and no field gets lost on either way. -/
theorem Instance.Grows.trans {i i' i'' : Instance} (h : i.Grows i') (h' : i'.Grows i'') :
    i.Grows i'' :=
  ⟨h'.cls.trans h.cls, List.Subset.trans h.fields h'.fields⟩

namespace Heap

/-- What stays the same of the objects of a heap: the length of each list, the keys of each
    dictionary up to new ones behind them, the class of each instance and the fields that it has,
    and everything about functions, builtins and classes. -/
structure Grows (h h' : Heap) : Prop where
  lists : h.lists.Evolves SameLength h'.lists
  dicts : h.dicts.Evolves Dict.Grows h'.dicts
  instances : h.instances.Evolves Instance.Grows h'.instances
  functions : h.functions.KeptIn h'.functions
  builtins : h.builtins.KeptIn h'.builtins
  classes : h.classes.KeptIn h'.classes

namespace Grows

variable {h h' h'' : Heap}

theorem refl (h : Heap) : h.Grows h where
  lists := .refl SameLength.refl _
  dicts := .refl Dict.Grows.refl _
  instances := .refl Instance.Grows.refl _
  functions _ _ hf := hf
  builtins _ _ hb := hb
  classes _ _ hc := hc

/-- What stays the same in two stretches of a run stays the same in both together. -/
theorem trans (hg : h.Grows h') (hg' : h'.Grows h'') : h.Grows h'' where
  lists := hg.lists.trans (fun hfirst hsecond => hsecond.trans hfirst) hg'.lists
  dicts := hg.dicts.trans List.IsPrefix.trans hg'.dicts
  instances := hg.instances.trans Instance.Grows.trans hg'.instances
  functions r f hf := hg'.functions r f (hg.functions r f hf)
  builtins r b hb := hg'.builtins r b (hg.builtins r b hb)
  classes r c hc := hg'.classes r c (hg.classes r c hc)

/-! ## One operation -/

theorem newScope (h : Heap) (parent : Option (Ref .scope)) : h.Grows (h.newScope parent).2 :=
  { refl h with }

theorem declare (h : Heap) (s : Ref .scope) (name : String) (v : Value) :
    h.Grows (h.declare s name v) :=
  { refl h with }

theorem newScope_declare (h : Heap) (parent : Option (Ref .scope)) (name : String) (v : Value) :
    h.Grows ((h.newScope parent).2.declare (h.newScope parent).1 name v) :=
  (newScope h parent).trans (declare _ _ name v)

/-- An assignment changes a variable, and scopes are none of the objects that are looked at here. -/
theorem assign (h : Heap) (s : Ref .scope) (name : String) (v : Value) :
    h.Grows (h.assign s name v).2 := by
  unfold Heap.assign
  split
  · exact declare h _ name v
  · exact refl h

theorem newList (h : Heap) (vs : Array Value) : h.Grows (h.newList vs).2 :=
  { refl h with lists := Store.evolves_push SameLength.refl _ vs }

theorem newDict (h : Heap) (d : Dict) : h.Grows (h.newDict d).2 :=
  { refl h with dicts := Store.evolves_push Dict.Grows.refl _ d }

theorem newInstance (h : Heap) (c : Ref .cls) : h.Grows (h.newInstance c).2 :=
  { refl h with instances := Store.evolves_push Instance.Grows.refl _ _ }

theorem newFunction (h : Heap) (f : Function) : h.Grows (h.newFunction f).2 :=
  { refl h with functions := Store.keptIn_push _ f }

theorem newBuiltin (h : Heap) (b : Builtin) : h.Grows (h.newBuiltin b).2 :=
  { refl h with builtins := Store.keptIn_push _ b }

theorem newClass (h : Heap) (c : Class) : h.Grows (h.newClass c).2 :=
  { refl h with classes := Store.keptIn_push _ c }

theorem newHost (h : Heap) (o : HostObject) : h.Grows (h.newHost o).2 :=
  { refl h with }

/-- A position of a list gets another value, which leaves its length. -/
theorem setElement (h : Heap) (r : Ref .list) (position : Nat) (v : Value) :
    h.Grows (h.setElement r position v).2 := by
  unfold Heap.setElement
  split
  · exact { refl h with
      lists := Store.evolves_modify SameLength.refl (fun _ => Array.size_setIfInBounds ..) _ r }
  · exact refl h

/-- An entry is added behind the others, or gets another value where it is. -/
theorem insertEntry (h : Heap) (r : Ref .dict) (k v : Value) :
    h.Grows (h.insertEntry r k v).2 := by
  unfold Heap.insertEntry
  split
  · rename_i key _
    exact { refl h with
      dicts := Store.evolves_modify Dict.Grows.refl (fun d => d.keys_put key k v) _ r }
  · exact refl h

/-- A field is added or gets another value, but none goes. -/
theorem setField (h : Heap) (r : Ref .inst) (name : String) (v : Value) :
    h.Grows (h.setField r name v) := by
  have hset : ∀ i : Instance, i.Grows { i with fields := i.fields.set name v } :=
    fun _ => ⟨rfl, fun _ hn => Bindings.mem_names_set.mpr (.inr hn)⟩
  exact { refl h with instances := Store.evolves_modify Instance.Grows.refl hset _ r }

theorem setMember (h : Heap) (r : Ref .host) (name : String) (v : Value) :
    h.Grows (h.setMember r name v).2 := by
  unfold Heap.setMember
  split
  · exact { refl h with }
  · exact refl h

end Grows

end Heap

/-! ## The discipline -/

/-- A program may handle anything, and the heap grows. -/
def Discipline.growth : Discipline where
  sound _ := True
  later := Heap.Grows
  later_refl := Heap.Grows.refl
  later_trans := Heap.Grows.trans
  Place := Unit
  value _ _ := True
  makeable _ _ := True
  callable _ _ := True
  runs _ _ _ := True
  bindable _ _ := True
  reads _ _ _ := True
  binds _ _ _ := True
  home _ _ _ := True
  method _ _ _ := True
  name _ := True
  dict _ := True

/-- Growing asks nothing of values and scopes, so only the operations have to be gone through. -/
theorem Discipline.growth_liberal : Discipline.growth.Liberal where
  place := ⟨()⟩
  newScope _ _ _ := ⟨⟨trivial, .newScope _ _⟩, trivial⟩
  newBuiltin _ _ := ⟨trivial, .newBuiltin _ _⟩
  newHost _ _ := ⟨trivial, .newHost _ _⟩
  newList _ _ := ⟨trivial, .newList _ _⟩
  newDict _ _ := ⟨trivial, .newDict _ _⟩
  newFunction _ _ := ⟨trivial, .newFunction _ _⟩
  newClass _ _ := ⟨trivial, .newClass _ _⟩
  newInstance _ _ := ⟨trivial, .newInstance _ _⟩
  declare _ _ _ _ := ⟨trivial, .declare _ _ _ _⟩
  assign _ _ _ _ := ⟨trivial, .assign _ _ _ _⟩
  setElement _ _ _ _ := ⟨trivial, .setElement _ _ _ _⟩
  insertEntry _ _ _ _ := ⟨trivial, .insertEntry _ _ _ _⟩
  setField _ _ _ _ := ⟨trivial, .setField _ _ _ _⟩
  setMember _ _ _ _ := ⟨trivial, .setMember _ _ _ _⟩

theorem Discipline.growth_lawful : Discipline.growth.Lawful := growth_liberal.lawful

/-! ## Arbitrary statements and expressions -/

/-- What the function of a bound method is bound to is what it was. -/
def Heap.ReceiversKept (h h' : Heap) : Prop :=
  ∀ r f, h.functions.get? r = some f → h'.own? f.closure "this" = h.own? f.closure "this"

theorem Heap.Onward.receiversKept {h h' : Heap} (hl : h.Onward h') (ho : h.Orderly) :
    h.ReceiversKept h' :=
  fun r f hf => hl.anchored.this f.closure (ho.functions r f hf).1

/-- **The heap only grows.** Whatever the tree, the scope, the heap and the call stack, and however
    the evaluation ends: every list that was there keeps its length, the keys of every dictionary
    are the first keys that it has afterwards, every instance keeps its class and its fields, and
    every function, builtin and class is what it was, bound methods among the functions.

    What a bound method is bound to stands in its scope, under the name `this`. Only a tree that no
    source has could assign to that name. If neither the tree nor the functions on the heap bind a
    reserved word, bound methods also stay bound to the same instance. -/
theorem heap_grows (limit fuel : Nat) (scope : Ref .scope) (m : Machine) :
    (∀ s, (runStatement limit fuel s scope m).Leaves fun m' => m.heap.Grows m'.heap)
    ∧ (∀ e, (evaluate limit fuel e scope m).Leaves fun m' => m.heap.Grows m'.heap)
    ∧ (m.heap.Orderly → scope.index < m.heap.scopes.size →
      (∀ s, AllBind Unreserved s.nodes →
        (runStatement limit fuel s scope m).Leaves fun m' => m.heap.ReceiversKept m'.heap)
      ∧ ∀ e, AllBind Unreserved e.nodes →
        (evaluate limit fuel e scope m).Leaves fun m' => m.heap.ReceiversKept m'.heap) := by
  have hgrowth := Evaluator.obeys_withFuel Discipline.growth_lawful limit fuel ()
  have hlexical := Evaluator.obeys_withFuel (Discipline.lexical_lawful False) limit fuel scope
  refine ⟨fun s => ?_, fun e => ?_, fun ho hscope => ⟨fun s hs => ?_, fun e he => ?_⟩⟩
  · exact (hgrowth.statementHere (fun _ _ _ _ => trivial) trivial).leaves_later trivial
  · exact (hgrowth.expression (fun _ _ _ _ => trivial) trivial).leaves_later trivial
  · have hleaves := (hlexical.statementHere hs ⟨.base hscope, nofun⟩).leaves_later ⟨ho, nofun⟩
    exact hleaves.mono fun _ hl => hl.receiversKept ho
  · have hleaves := (hlexical.expression he ⟨.base hscope, nofun⟩).leaves_later ⟨ho, nofun⟩
    exact hleaves.mono fun _ hl => hl.receiversKept ho

/-- A heap that an accepted program leaves is orderly, and the scope of the program is still
    there. -/
theorem orderly_of_runProgram {source : String} {program : Program}
    (hcompile : compile source = .ok program) {fuel : Nat} {settings : Settings} {world : World}
    {m : Machine} (hrun : runProgram fuel settings world program = .ok () m) :
    m.heap.Orderly ∧ (Heap.empty.newProgramScope settings.path).1.index < m.heap.scopes.size := by
  have lawful := Discipline.lexical_lawful False
  obtain ⟨go, base, hscope⟩ := lawful.newProgramScope ⟨Heap.Orderly.empty, nofun⟩ settings.path
  have hev := Evaluator.obeys_withFuel lawful settings.maxCallDepth fuel base
  have hmeets := (hev.program lawful (allBind_of_compile hcompile) hscope
    ⟨_, .root, world⟩ rfl rfl go.sound).2
  change Outcome.Meets _ _ _ _ (runProgram fuel settings world program) at hmeets
  rw [hrun] at hmeets
  obtain ⟨-, go', -⟩ := hmeets
  exact ⟨go'.sound.1, (go'.later.anchored.within hscope.1).lt⟩

/-- A method is bound to an instance, and then a block gives the instance a field through it. -/
theorem heap_grows_bound_method :
    let before := "class A \x7b\n get() \x7b return this \x7d\n\x7d
      let a = A()\n let get = a.get\n let xs = [a, get]\n"
    let inner := "get().name = \"new\"\n get = a\n"
    (∃ program statements m, compile before = .ok program
      ∧ runProgram 40 {} .empty program = .ok () m ∧ compile inner = .ok statements
      ∧ (runStatement 1000 40 (.block statements) (Heap.empty.newProgramScope none).1 m).Leaves
        (fun m' => m.heap.Grows m'.heap)
      ∧ (runStatement 1000 40 (.block statements) (Heap.empty.newProgramScope none).1 m).Leaves
        fun m' => m.heap.ReceiversKept m'.heap)
    ∧ (runSource 40 {} .empty (before ++ "\x7b\n" ++ inner ++ "\x7d\n io.println(get.get().name)\n")).map
      (·.output) = some ["new"] := by
  intro before inner
  refine ⟨?_, by decide +kernel⟩
  obtain ⟨program, hcompile⟩ := exists_eq_ok (x := compile before) (by decide +kernel)
  obtain ⟨statements, hinner⟩ := exists_eq_ok (x := compile inner) (by decide +kernel)
  have hok : (compile before).toOption.any (fun p => (runProgram 40 {} .empty p).isOk) = true := by
    decide +kernel
  rw [hcompile] at hok
  cases hrun : runProgram 40 {} .empty program with
  | ok value m =>
      obtain ⟨horderly, hscope⟩ := orderly_of_runProgram hcompile hrun
      have hbinds : AllBind Unreserved (Stmt.block statements).nodes :=
        List.forall_mem_cons.mpr ⟨by simp [Node.binders], List.forall_mem_cons.mpr
          ⟨by simp [Node.binders], allBind_of_compile hinner⟩⟩
      obtain ⟨hstatement, -, hreceivers⟩ :=
        heap_grows 1000 40 (Heap.empty.newProgramScope none).1 m
      exact ⟨program, statements, m, hcompile, hrun, hinner, hstatement _,
        (hreceivers horderly hscope).1 _ hbinds⟩
  | error e m => simp [hrun, Outcome.isOk, Except.toOption] at hok
  | outOfFuel => simp [hrun, Outcome.isOk, Except.toOption] at hok

end Script
