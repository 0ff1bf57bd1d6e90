import Script.Parser.Grammar
import Script.Proofs.Evaluation.Indexing
import Script.Run

/-!
# `Proofs.Evaluation.IndexedAssignment` — the object of an assignment through a property

An assignment `o.p[k₁]…[kₙ] = v` keeps its object twice: as the object of the property, and at the
root of the accesses. It evaluates the first to see whether there is an object at all, then `v`, and
then the accesses and with them the second. So `o` is evaluated twice, which can be seen if it
prints (`set_indexed_object_twice`), and what is changed is a part of its second value.

The first half of the assignment is `Assigns`, with whatever is to follow; the second half is
`Stores` (`setIndexed_iff`). Where `o` is evaluated a second time it can be put into a variable, as
`let t = o`, and so can the value of `v` (`stores_endsAlike_after`). This is the law of the
assignment for every `o` and `v`, whatever they do (`set_indexed_object_reevaluated`). If the second
time makes no difference, then one variable and one evaluation are enough
(`setIndexed_endsAlike_once`).
-/

namespace Script

variable {limit : Nat} {scope : Ref .scope}

/-! ## Chains of accesses -/

/-- A pair of brackets with an index or a slice in it. -/
structure Brackets where
  bracket : Token
  first : Option Expr
  firstColon : Option Token
  second : Option Expr
  secondColon : Option Token
  third : Option Expr

namespace Brackets

/-- The access to an object. -/
def on (k : Brackets) (object : Expr) : Access :=
  ⟨object, k.bracket, k.first, k.firstColon, k.second, k.secondColon, k.third⟩

/-- The parts in the brackets. -/
def nodes (k : Brackets) : List Node := nodes? k.first ++ (nodes? k.second ++ nodes? k.third)

end Brackets

/-- The expression `e[k₁]…[kₙ]`. -/
def Expr.indexed (e : Expr) (ks : List Brackets) : Expr :=
  ks.foldl (fun e k => .access (k.on e)) e

/-- The assignment `o.p[k₁]…[kₙ][k] = v`. -/
def Expr.setIndexed (o : Expr) (p : Token) (ks : List Brackets) (k : Brackets) (v : Expr) : Expr :=
  .set o p v (some (k.on ((Expr.get o p).indexed ks)))

/-- Accesses in a row have the root of what is accessed. -/
theorem Expr.accessRoot_indexed (e : Expr) (ks : List Brackets) :
    (e.indexed ks).accessRoot = e.accessRoot := by
  induction ks generalizing e with
  | nil => rfl
  | cons k ks ih => exact ih (.access (k.on e))

section Parts

variable {σ : Option Aside} {e o v : Expr} {p : Token} {ks : List Brackets} {k : Brackets}

theorem Brackets.inBrackets (hk : Unaware σ scope k.nodes) (e : Expr) :
    Evaluator.Beside.InBrackets σ scope (k.on e) := by
  obtain ⟨hfirst, hk⟩ := Unaware.append hk
  exact ⟨hfirst, hk.append.1, hk.append.2⟩

/-- What has nothing to do with a chain has nothing to do with its root or with any of the
    brackets. -/
theorem Expr.unaware_indexed (h : Unaware σ scope (e.indexed ks).nodes) :
    Unaware σ scope e.nodes ∧ ∀ k ∈ ks, Unaware σ scope k.nodes := by
  induction ks generalizing e with
  | nil => exact ⟨h, fun _ hk => by cases hk⟩
  | cons k ks ih =>
      obtain ⟨haccess, hks⟩ := ih h
      obtain ⟨he, hk⟩ := haccess.tail.tail.append
      exact ⟨he, List.forall_mem_cons.mpr ⟨hk, hks⟩⟩

/-- The same for an assignment, in which the object occurs twice. -/
theorem Expr.unaware_setIndexed (h : Unaware σ scope (o.setIndexed p ks k v).nodes) :
    Unaware σ scope o.nodes ∧ Unaware σ scope v.nodes ∧ (∀ k' ∈ ks, Unaware σ scope k'.nodes)
      ∧ Unaware σ scope k.nodes := by
  obtain ⟨ho, h⟩ := h.tail.append
  obtain ⟨hv, haccess⟩ := h.append
  obtain ⟨hobject, hk⟩ := haccess.tail.append
  exact ⟨ho, hv, (unaware_indexed hobject).2, hk⟩

end Parts

/-- The parser keeps the object twice. -/
theorem assignment?_indexed (o : Expr) (p : Token) (ks : List Brackets) (k : Brackets) (v : Expr) :
    Grammar.assignment? ((Expr.get o p).indexed (ks ++ [k])) v = some (o.setIndexed p ks k v) := by
  have hroot : ((Expr.get o p).indexed (ks ++ [k])).accessRoot = .get o p :=
    Expr.accessRoot_indexed ..
  have haccess : ((Expr.get o p).indexed (ks ++ [k])).access?
      = some (k.on ((Expr.get o p).indexed ks)) := by
    simp [Expr.indexed, Expr.access?]
  simp only [Grammar.assignment?, hroot, haccess, Expr.setIndexed]

/-! ## Expressions that begin with another one -/

/-- If two steps together do not want fuel, then the first one does not. -/
theorem Step.ne_outOfFuel_of_bind {ε α β : Type} {x : Step ε α} {f : α → Step ε β} {m : Machine}
    (h : (x >>= f) m ≠ .outOfFuel) : x m ≠ .outOfFuel := by
  intro hx
  rw [bind_apply, hx] at h
  exact h rfl

/-- The evaluation of `e'` begins with `e`: it comes to an end only if `e` does, and it ends in an
    error if `e` does. -/
structure BeginsWith (limit : Nat) (scope : Ref .scope) (e e' : Expr) : Prop where
  ends : ∀ {m out}, Evaluates limit e' scope m out → ∃ out', Evaluates limit e scope m out'
  error : ∀ {m error m₁}, Evaluates limit e scope m (.error error m₁) →
    Evaluates limit e' scope m (.error error m₁)

/-- To begin with something that begins with `e` is to begin with `e`. -/
theorem BeginsWith.trans {e e' e'' : Expr} (h : BeginsWith limit scope e e')
    (h' : BeginsWith limit scope e' e'') : BeginsWith limit scope e e'' where
  ends hends := by
    obtain ⟨_, hends'⟩ := h'.ends hends
    exact h.ends hends'
  error herror := h'.error (h.error herror)

/-- If the step of `e'` is to evaluate `e` and then to do something else, it begins with `e`. -/
theorem BeginsWith.of_step {e e' : Expr} {f : Nat → Value → Step RuntimeError Value}
    (h : ∀ fuel, (Evaluator.withFuel limit fuel).expressionStep e' scope
      = ((Evaluator.withFuel limit fuel).expression e scope >>= f fuel)) :
    BeginsWith limit scope e e' where
  ends := by
    rintro m out ⟨hends, fuel, rfl⟩
    cases fuel with
    | zero => exact absurd rfl hends
    | succ fuel =>
        rw [evaluate_succ, h] at hends
        exact ⟨_, .of_ne (Step.ne_outOfFuel_of_bind hends)⟩
  error := by
    rintro m error m₁ ⟨-, fuel, hfuel⟩
    refine ⟨by simp, fuel + 1, ?_⟩
    rw [evaluate_succ, h]
    exact Step.bind_of_error hfuel

theorem beginsWith_get (o : Expr) (p : Token) : BeginsWith limit scope o (.get o p) :=
  .of_step fun _ => rfl

theorem beginsWith_setIndexed (o : Expr) (p : Token) (ks : List Brackets) (k : Brackets)
    (v : Expr) : BeginsWith limit scope o (o.setIndexed p ks k v) :=
  .of_step fun _ => rfl

/-- A chain of accesses begins with its root, by induction on the brackets. -/
theorem beginsWith_indexed (e : Expr) (ks : List Brackets) :
    BeginsWith limit scope e (e.indexed ks) := by
  induction ks generalizing e with
  | nil => exact ⟨fun h => ⟨_, h⟩, id⟩
  | cons k ks ih =>
      have haccess : BeginsWith limit scope e (.access (k.on e)) := .of_step fun _ => rfl
      exact haccess.trans (ih _)

/-! ## The second half: the object again, and the value is stored -/

/-- Stores a value through `o.p[k₁]…[kₙ][k]`, for which `o` is evaluated, and gives the value. -/
def Evaluator.storeIndexed (ev : Evaluator) (o : Expr) (p : Token) (ks : List Brackets)
    (k : Brackets) (x : Value) (scope : Ref .scope) : Step RuntimeError Value := do
  ev.store (k.on ((Expr.get o p).indexed ks)) x scope
  return x

/-- To store a value through `o.p[k₁]…[kₙ][k]` comes to an end, given enough fuel. -/
def Stores (limit : Nat) (o : Expr) (p : Token) (ks : List Brackets) (k : Brackets)
    (scope : Ref .scope) (x : Value) (m : Machine) (out : Outcome RuntimeError Value) : Prop :=
  out ≠ .outOfFuel ∧ ∃ fuel, (Evaluator.withFuel limit fuel).storeIndexed o p ks k x scope m = out

namespace EndsBeside

variable {σ : Option Aside} {e e' : Expr} {ks : List Brackets} {k : Brackets} {m m' : Machine}
  {d : Nat}

/-- The property of two expressions that end beside each other. -/
theorem get (h : EndsBeside limit σ scope d e e' m m') (p : Token) :
    EndsBeside limit σ scope d (.get e p) (.get e' p) m m' :=
  of_succ fun fuel => Step.Beside.bind_at (h fuel) fun o _ => Evaluator.beside_property o p

/-- The same for a chain of accesses, if the brackets have nothing to do with the variable. -/
theorem indexed (h : EndsBeside limit σ scope d e e' m m')
    (hks : ∀ k ∈ ks, Unaware σ scope k.nodes) :
    EndsBeside limit σ scope d (e.indexed ks) (e'.indexed ks) m m' := by
  induction ks generalizing e e' with
  | nil => exact h
  | cons k ks ih =>
      obtain ⟨hk, hks⟩ := List.forall_mem_cons.mp hks
      refine ih (of_succ fun fuel => ?_) hks
      exact (Evaluator.beside_withFuel limit (Nat.le_add_right fuel d)).readOf
        (Brackets.inBrackets hk e) (h fuel)

/-- Two objects that end beside each other make no difference to a value that is stored. -/
theorem storeIndexed (h : EndsBeside limit σ scope d e e' m m') (p : Token)
    (hks : ∀ k ∈ ks, Unaware σ scope k.nodes) (hk : Unaware σ scope k.nodes) (x : Value)
    (fuel : Nat) :
    ((Evaluator.withFuel limit fuel).storeIndexed e p ks k x scope m).Beside σ (fun _ => True)
      ((Evaluator.withFuel limit (fuel + d)).storeIndexed e' p ks k x scope m') := by
  have hev := Evaluator.beside_withFuel limit (Nat.le_add_right fuel d)
  exact Step.Beside.bind_at (hev.storeOf (Brackets.inBrackets hk e) x
    ((h.get p).indexed hks fuel)) fun _ _ => .done

end EndsBeside

namespace Stores

variable {o o' : Expr} {p : Token} {ks : List Brackets} {k : Brackets} {x : Value} {m m' : Machine}
  {out out' : Outcome RuntimeError Value}

/-- Once there is enough fuel, there is enough. -/
theorem eventually (h : Stores limit o p ks k scope x m out) :
    ∃ n, ∀ fuel, n ≤ fuel →
      (Evaluator.withFuel limit fuel).storeIndexed o p ks k x scope m = out := by
  obtain ⟨hends, n, rfl⟩ := h
  refine ⟨n, fun fuel hle => ?_⟩
  obtain ⟨d, rfl⟩ := Nat.exists_eq_add_of_le hle
  have hunaware : ∀ ns, Unaware none scope ns := fun _ _ hx => by cases hx
  have hobject : EndsBeside limit none scope d o o m m :=
    .of_unaware (hunaware _) ⟨rfl, rfl, rfl⟩
  exact (hobject.storeIndexed p (fun k _ => hunaware k.nodes) (hunaware _) x n).eq hends

/-- The fuel does not matter for how a store ends. -/
theorem unique (h : Stores limit o p ks k scope x m out)
    (h' : Stores limit o p ks k scope x m out') : out = out' := by
  obtain ⟨n, hn⟩ := h.eventually
  obtain ⟨n', hn'⟩ := h'.eventually
  rw [← hn (max n n') (Nat.le_max_left ..), hn' (max n n') (Nat.le_max_right ..)]

/-- What comes to an end with the one object comes to the same end with the other one. -/
theorem beside {y : Aside} {d : Nat} (ho : EndsBeside limit (some y) y.scope d o o' m m')
    (hks : ∀ k ∈ ks, Unaware (some y) y.scope k.nodes) (hk : Unaware (some y) y.scope k.nodes)
    (h : Stores limit o p ks k y.scope x m out) :
    ∃ out', Stores limit o' p ks k y.scope x m' out' ∧ out.SameBut y.scope [y.name] out' := by
  obtain ⟨hends, fuel, rfl⟩ := h
  obtain ⟨hends', hsame⟩ := (ho.storeIndexed p hks hk x fuel).sameBut hends
  exact ⟨_, ⟨hends', _, rfl⟩, hsame⟩

/-- What is stored through an object has evaluated it. -/
theorem exists_object (h : Stores limit o p ks k scope x m out) :
    ∃ out', Evaluates limit o scope m out' := by
  obtain ⟨hends, fuel, rfl⟩ := h
  have hobject := Step.ne_outOfFuel_of_bind (Step.ne_outOfFuel_of_bind hends)
  exact ((beginsWith_get o p).trans (beginsWith_indexed _ ks)).ends (.of_ne hobject)

/-- An error in front of the brackets is an error of the whole. -/
theorem of_get_error {error : RuntimeError} {m₁ : Machine}
    (h : Evaluates limit (.get o p) scope m (.error error m₁)) :
    Stores limit o p ks k scope x m (.error error m₁) := by
  obtain ⟨hends, fuel, hfuel⟩ := (beginsWith_indexed _ ks).error h
  exact ⟨by simp, fuel, Step.bind_of_error (Step.bind_of_error hfuel)⟩

end Stores

/-! ## The first half: the object and the value -/

/-- What `o.p[k₁]…[kₙ] = v` comes to, where `rest` is what happens once `o` has turned out to be an
    object and `v` has a value. -/
inductive Assigns (limit : Nat) (o v : Expr) (p : Token) (scope : Ref .scope)
    (rest : Value → Machine → Outcome RuntimeError Value → Prop) (m : Machine) :
    Outcome RuntimeError Value → Prop
  | objectFails {error m₁} : Evaluates limit o scope m (.error error m₁) →
      Assigns limit o v p scope rest m (.error error m₁)
  | noObject {u m₁} : Evaluates limit o scope m (.ok u m₁) → Evaluator.isBare u = true →
      Assigns limit o v p scope rest m (.error (.atToken .expectedObject p) m₁)
  | valueFails {u m₁ error m₂} : Evaluates limit o scope m (.ok u m₁) →
      Evaluator.isBare u = false → Evaluates limit v scope m₁ (.error error m₂) →
      Assigns limit o v p scope rest m (.error error m₂)
  | goesOn {u m₁ x m₂ out} : Evaluates limit o scope m (.ok u m₁) → Evaluator.isBare u = false →
      Evaluates limit v scope m₁ (.ok x m₂) → rest x m₂ out →
      Assigns limit o v p scope rest m out

section Halves

variable {o v : Expr} {p : Token} {ks : List Brackets} {k : Brackets} {m : Machine}
  {out : Outcome RuntimeError Value}

/-- The assignment in one equation. -/
theorem evaluate_setIndexed (fuel : Nat) :
    evaluate limit (fuel + 1) (o.setIndexed p ks k v) scope m
      = (evaluate limit fuel o scope >>= fun u =>
        if Evaluator.isBare u then Step.failAt .expectedObject p
        else evaluate limit fuel v scope >>= fun x =>
          (Evaluator.withFuel limit fuel).storeIndexed o p ks k x scope) m := by
  rw [evaluate_succ]
  rfl

/-- An assignment that comes to an end has come through its object and its value, or has failed at
    one of them. -/
theorem assigns_of_setIndexed (h : Evaluates limit (o.setIndexed p ks k v) scope m out) :
    Assigns limit o v p scope (Stores limit o p ks k scope) m out := by
  obtain ⟨hends, fuel, rfl⟩ := h
  cases fuel with
  | zero => exact absurd rfl hends
  | succ fuel =>
      rw [evaluate_setIndexed] at hends ⊢
      cases ho : evaluate limit fuel o scope m with
      | outOfFuel => exact absurd ho (Step.ne_outOfFuel_of_bind hends)
      | error error m₁ =>
          rw [Step.bind_of_error ho]
          exact .objectFails ⟨by simp, fuel, ho⟩
      | ok u m₁ =>
          have hobject : Evaluates limit o scope m (.ok u m₁) := ⟨by simp, fuel, ho⟩
          rw [Step.bind_of_ok ho] at hends ⊢
          cases hbare : Evaluator.isBare u with
          | true => exact .noObject hobject hbare
          | false =>
              simp only [hbare, Bool.false_eq_true, if_false] at hends ⊢
              cases hv : evaluate limit fuel v scope m₁ with
              | outOfFuel => exact absurd hv (Step.ne_outOfFuel_of_bind hends)
              | error error m₂ =>
                  rw [Step.bind_of_error hv]
                  exact .valueFails hobject hbare ⟨by simp, fuel, hv⟩
              | ok x m₂ =>
                  rw [Step.bind_of_ok hv] at hends ⊢
                  exact .goesOn hobject hbare ⟨by simp, fuel, hv⟩ ⟨hends, fuel, rfl⟩

/-- What the object, the value and the store come to is put together, with as much fuel as all of
    them need. -/
theorem setIndexed_of_assigns
    (h : Assigns limit o v p scope (Stores limit o p ks k scope) m out) :
    Evaluates limit (o.setIndexed p ks k v) scope m out := by
  cases h with
  | objectFails ho =>
      obtain ⟨hends, fuel, ho⟩ := ho
      refine ⟨hends, fuel + 1, ?_⟩
      rw [evaluate_setIndexed]
      exact Step.bind_of_error ho
  | noObject ho hbare =>
      obtain ⟨-, fuel, ho⟩ := ho
      refine ⟨by simp, fuel + 1, ?_⟩
      rw [evaluate_setIndexed, Step.bind_of_ok ho, if_pos hbare]
      rfl
  -- The parts may need different amounts of fuel, and the greatest one is enough for all.
  | valueFails ho hbare hv =>
      obtain ⟨n, hn⟩ := ho.eventually
      obtain ⟨n', hn'⟩ := hv.eventually
      refine ⟨by simp, max n n' + 1, ?_⟩
      rw [evaluate_setIndexed, Step.bind_of_ok (hn _ (Nat.le_max_left ..)),
        if_neg (by simp [hbare])]
      exact Step.bind_of_error (hn' _ (Nat.le_max_right ..))
  | goesOn ho hbare hv hstores =>
      obtain ⟨n, hn⟩ := ho.eventually
      obtain ⟨n', hn'⟩ := hv.eventually
      obtain ⟨n'', hn''⟩ := hstores.eventually
      refine ⟨hstores.1, max n (max n' n'') + 1, ?_⟩
      rw [evaluate_setIndexed, Step.bind_of_ok (hn _ (by omega)), if_neg (by simp [hbare]),
        Step.bind_of_ok (hn' _ (by omega))]
      exact hn'' _ (by omega)

/-- An assignment is its two halves. -/
theorem setIndexed_iff : Evaluates limit (o.setIndexed p ks k v) scope m out
    ↔ Assigns limit o v p scope (Stores limit o p ks k scope) m out :=
  ⟨assigns_of_setIndexed, setIndexed_of_assigns⟩

/-- What follows the first half may be replaced by something that ends in the same way. -/
theorem Assigns.replace {ts : List String}
    {rest rest' : Value → Machine → Outcome RuntimeError Value → Prop}
    (hassigns : Assigns limit o v p scope rest m out)
    (h : ∀ u m₁ x m₂, Evaluates limit o scope m (.ok u m₁) → Evaluates limit v scope m₁ (.ok x m₂) →
      rest x m₂ out → ∃ out', rest' x m₂ out' ∧ out.SameBut scope ts out') :
    ∃ out', Assigns limit o v p scope rest' m out' ∧ out.SameBut scope ts out' := by
  cases hassigns with
  | objectFails ho => exact ⟨_, .objectFails ho, .refl (by simp)⟩
  | noObject ho hbare => exact ⟨_, .noObject ho hbare, .refl (by simp)⟩
  | valueFails ho hbare hv => exact ⟨_, .valueFails ho hbare hv, .refl (by simp)⟩
  | goesOn ho hbare hv hrest =>
      obtain ⟨out', hrest', hsame⟩ := h _ _ _ _ ho hv hrest
      exact ⟨out', .goesOn ho hbare hv hrest', hsame⟩

/-- If what follows the first half ends alike, then so does the whole. -/
theorem Assigns.endsAlike {ts : List String}
    {rest rest' : Value → Machine → Outcome RuntimeError Value → Prop}
    (h : ∀ u m₁ x m₂, Evaluates limit o scope m (.ok u m₁) → Evaluates limit v scope m₁ (.ok x m₂) →
      EndsAlike scope ts (rest x m₂) (rest' x m₂)) :
    EndsAlike scope ts (Assigns limit o v p scope rest m) (Assigns limit o v p scope rest' m) where
  there out hassigns := hassigns.replace fun u m₁ x m₂ ho hv => (h u m₁ x m₂ ho hv).there out
  back out' hassigns := by
    obtain ⟨out, hout, hsame⟩ := hassigns.replace fun u m₁ x m₂ ho hv hrest' => by
      obtain ⟨out, hrest, hsame⟩ := (h u m₁ x m₂ ho hv).back out' hrest'
      exact ⟨out, hrest, hsame.symm⟩
    exact ⟨out, hout, hsame.symm⟩

end Halves

/-! ## Variables in place of the object and the value -/

section Variables

variable {o o' v : Expr} {p t w : Token} {ks : List Brackets} {k : Brackets} {m m' : Machine}
  {u x : Value} {out : Outcome RuntimeError Value}

/-- A value that is no object has no properties either. -/
theorem property_of_isBare (h : Evaluator.isBare u = true) (p : Token) :
    Evaluator.property u p = Step.failAt .expectedObject p := by
  cases u with
  | nil => rfl
  | function r => rfl
  | builtin r => rfl
  | _ => cases h

/-- A property of a value. -/
theorem Evaluates.get (h : Evaluates limit o scope m (.ok u m'))
    (hproperty : Evaluator.property u p m' = out) (hends : out ≠ .outOfFuel) :
    Evaluates limit (.get o p) scope m out := by
  obtain ⟨-, fuel, hfuel⟩ := h
  refine ⟨hends, fuel + 1, ?_⟩
  rw [evaluate_succ]
  exact (Step.bind_of_ok hfuel).trans hproperty

/-- With variables for the object and the value, an assignment does no more than store. -/
theorem setIndexed_var_iff (ht : m.heap.own? scope t.lexeme = some u)
    (hw : m.heap.own? scope w.lexeme = some x) :
    Evaluates limit ((Expr.var t).setIndexed p ks k (.var w)) scope m out
      ↔ Stores limit (.var t) p ks k scope x m out := by
  have hobject : Evaluates limit (.var t) scope m (.ok u m) := .var ht
  have hvalue : Evaluates limit (.var w) scope m (.ok x m) := .var hw
  cases hbare : Evaluator.isBare u with
  | true =>
      -- Without the check, the property would fail in the same way.
      have hset : Evaluates limit ((Expr.var t).setIndexed p ks k (.var w)) scope m
          (.error (.atToken .expectedObject p) m) := setIndexed_iff.mpr (.noObject hobject hbare)
      have hget : Evaluates limit (.get (.var t) p) scope m
          (.error (.atToken .expectedObject p) m) :=
        hobject.get (congrFun (property_of_isBare hbare p) m) (by simp)
      have hstores : Stores limit (.var t) p ks k scope x m
          (.error (.atToken .expectedObject p) m) := .of_get_error hget
      exact ⟨fun h => h.unique hset ▸ hstores, fun h => h.unique hstores ▸ hset⟩
  | false =>
      rw [setIndexed_iff]
      refine ⟨fun h => ?_, .goesOn hobject hbare hvalue⟩
      cases h with
      | objectFails ho => cases ho.unique hobject
      | noObject ho hbare' =>
          cases ho.unique hobject
          cases hbare.symm.trans hbare'
      | valueFails ho _ hv =>
          cases ho.unique hobject
          cases hv.unique hvalue
      | goesOn ho _ hv hstores =>
          cases ho.unique hobject
          cases hv.unique hvalue
          exact hstores

/-- A fresh variable is nothing to what is stored. -/
theorem stores_endsAlike_declare
    (hfresh : Fresh w.lexeme scope m.heap (o.setIndexed p ks k v).nodes) (u : Value) :
    EndsAlike scope [w.lexeme] (Stores limit o p ks k scope x m)
      (Stores limit o p ks k scope x (m.declare scope w.lexeme u)) := by
  obtain ⟨hwith, hwithout⟩ := hfresh.beside_declare u
  constructor
  · intro out h
    obtain ⟨ho, -, hks, hk⟩ := Expr.unaware_setIndexed
      (hfresh.unaware (m.heap.own? scope w.lexeme) (some u))
    exact Stores.beside (d := 0) (.of_unaware ho hwith) hks hk h
  · intro out' h
    obtain ⟨ho, -, hks, hk⟩ := Expr.unaware_setIndexed
      (hfresh.unaware (some u) (m.heap.own? scope w.lexeme))
    obtain ⟨out, hout, hsame⟩ := Stores.beside (d := 0) (.of_unaware ho hwithout) hks hk h
    exact ⟨out, hout, hsame.symm⟩

/-- What is stored through an object is stored through the variable of its value. -/
theorem stores_endsAlike_object {n : Machine}
    (hfresh : Fresh t.lexeme scope n.heap (o.setIndexed p ks k v).nodes)
    (ho : Evaluates limit o scope m (.ok u n)) :
    EndsAlike scope [t.lexeme] (Stores limit o p ks k scope x m)
      (Stores limit (.var t) p ks k scope x (n.declare scope t.lexeme u)) := by
  obtain ⟨hwith, hwithout⟩ := hfresh.beside_declare u
  have hvar : Evaluates limit (.var t) scope (n.declare scope t.lexeme u)
      (.ok u (n.declare scope t.lexeme u)) := .var hwith.heap.2.2.2
  constructor
  · intro out h
    obtain ⟨-, -, hks, hk⟩ := Expr.unaware_setIndexed
      (hfresh.unaware (n.heap.own? scope t.lexeme) (some u))
    obtain ⟨d, hobject⟩ := EndsBeside.of_values ho hvar hwith
    exact Stores.beside hobject hks hk h
  · intro out' h
    obtain ⟨-, -, hks, hk⟩ := Expr.unaware_setIndexed
      (hfresh.unaware (some u) (n.heap.own? scope t.lexeme))
    obtain ⟨d, hobject⟩ := EndsBeside.of_values hvar ho hwithout
    obtain ⟨out, hout, hsame⟩ := Stores.beside hobject hks hk h
    exact ⟨out, hout, hsame.symm⟩

/-- If a variable has the value, then to store it is to put the object into a variable and to assign
    the one to a part of the other. -/
theorem stores_endsAlike_after
    (hfresh : Fresh t.lexeme scope m.heap (o.setIndexed p ks k v).nodes)
    (hw : ∀ {u n}, Evaluates limit o scope m (.ok u n) → n.heap.own? scope w.lexeme = some x)
    (hne : w.lexeme ≠ t.lexeme) :
    EndsAlike scope [t.lexeme] (Stores limit o p ks k scope x m)
      (EvaluatesAfter limit t o ((Expr.var t).setIndexed p ks k (.var w)) scope m) := by
  refine .after Stores.exists_object (fun ho out => ?_) fun {u n} ho => ?_
  · have herror : Stores limit o p ks k scope x m _ :=
      .of_get_error ((beginsWith_get o p).error ho)
    exact ⟨fun h => h.unique herror, fun h => h ▸ herror⟩
  · have hfresh' := hfresh.after (Expr.unaware_setIndexed (hfresh.unaware _ _)).1 ho
    have hset : Evaluates limit ((Expr.var t).setIndexed p ks k (.var w)) scope
        (n.declare scope t.lexeme u)
        = Stores limit (.var t) p ks k scope x (n.declare scope t.lexeme u) :=
      funext fun _ => propext (setIndexed_var_iff (Heap.own?_declare_self hfresh'.present)
        ((Heap.own?_declare_of_ne hne).trans (hw ho)))
    rw [hset]
    exact stores_endsAlike_object hfresh' ho

/-- Two objects that end beside each other at the start, and again after the value, make no
    difference to an assignment. -/
theorem Evaluates.setIndexed_beside {y : Aside} {d : Nat}
    (ho : EndsBeside limit (some y) y.scope d o o' m m') (hv : Unaware (some y) y.scope v.nodes)
    (hks : ∀ k ∈ ks, Unaware (some y) y.scope k.nodes) (hk : Unaware (some y) y.scope k.nodes)
    (hagain : ∀ u n n' x r r', Evaluates limit o y.scope m (.ok u n) →
      Evaluates limit o' y.scope m' (.ok u n') → Evaluator.isBare u = false →
      Evaluates limit v y.scope n (.ok x r) → Evaluates limit v y.scope n' (.ok x r') →
      r.Beside (some y) r' → ∃ d, EndsBeside limit (some y) y.scope d o o' r r')
    (h : Evaluates limit (o.setIndexed p ks k v) y.scope m out) :
    ∃ out', Evaluates limit (o'.setIndexed p ks k v) y.scope m' out'
      ∧ out.SameBut y.scope [y.name] out' := by
  simp only [setIndexed_iff] at h ⊢
  cases h with
  | objectFails herror =>
      obtain ⟨_, herror', hsame⟩ := herror.beside ho
      cases hsame with
      | error hn => exact ⟨_, .objectFails herror', .error hn.sameBut⟩
  | noObject hobject hbare =>
      obtain ⟨_, hobject', hsame⟩ := hobject.beside ho
      cases hsame with
      | ok _ hn => exact ⟨_, .noObject hobject' hbare, .error hn.sameBut⟩
  | valueFails hobject hbare herror =>
      obtain ⟨_, hobject', hsame⟩ := hobject.beside ho
      cases hsame with
      | ok _ hn =>
          obtain ⟨_, herror', hsame⟩ := herror.beside (.of_unaware (d := 0) hv hn)
          cases hsame with
          | error hr => exact ⟨_, .valueFails hobject' hbare herror', .error hr.sameBut⟩
  | goesOn hobject hbare hvalue hstores =>
      obtain ⟨_, hobject', hsame⟩ := hobject.beside ho
      cases hsame with
      | ok _ hn =>
          obtain ⟨_, hvalue', hsame⟩ := hvalue.beside (.of_unaware (d := 0) hv hn)
          cases hsame with
          | ok _ hr =>
              obtain ⟨d, ho'⟩ := hagain _ _ _ _ _ _ hobject hobject' hbare hvalue hvalue' hr
              obtain ⟨out', hstores', hsame⟩ := hstores.beside ho' hks hk
              exact ⟨out', .goesOn hobject' hbare hvalue' hstores', hsame⟩

end Variables

/-! ## The object evaluated twice, and once -/

section Laws

variable {o v : Expr} {p t w : Token} {ks : List Brackets} {k : Brackets} {m : Machine}

/-- The object, the value into a variable, the object again into another variable, and then the one
    is assigned to a part of the other. -/
theorem setIndexed_endsAlike
    (ht : Fresh t.lexeme scope m.heap (o.setIndexed p ks k v).nodes)
    (hw : Fresh w.lexeme scope m.heap (o.setIndexed p ks k v).nodes)
    (hne : w.lexeme ≠ t.lexeme) :
    EndsAlike scope [w.lexeme, t.lexeme] (Evaluates limit (o.setIndexed p ks k v) scope m)
      (Assigns limit o v p scope (fun x n =>
        EvaluatesAfter limit t o ((Expr.var t).setIndexed p ks k (.var w)) scope
          (n.declare scope w.lexeme x)) m) := by
  have hset : Evaluates limit (o.setIndexed p ks k v) scope m
      = Assigns limit o v p scope (Stores limit o p ks k scope) m :=
    funext fun _ => propext setIndexed_iff
  rw [hset]
  refine Assigns.endsAlike fun u m₁ x m₂ ho hv => ?_
  -- What `o` and `v` leave behind has still nothing to do with the names.
  have hlater : ∀ {name}, Fresh name scope m.heap (o.setIndexed p ks k v).nodes →
      Fresh name scope m₂.heap (o.setIndexed p ks k v).nodes := by
    intro name hfresh
    have hfresh₁ := hfresh.after (Expr.unaware_setIndexed (hfresh.unaware _ _)).1 ho
    exact hfresh₁.after (Expr.unaware_setIndexed (hfresh₁.unaware _ _)).2.1 hv
  have hw₂ := hlater hw
  refine (stores_endsAlike_declare hw₂ x).trans
    (stores_endsAlike_after (v := v) ((hlater ht).declare hne x) ?_ hne)
  exact fun ho' => hw₂.own?_after (Expr.unaware_setIndexed (hw₂.unaware _ _)).1 ho'

/-- If the second evaluation of the object has the same value and changes nothing, then the object
    can be evaluated once, into a variable. -/
theorem setIndexed_endsAlike_once
    (ht : Fresh t.lexeme scope m.heap (o.setIndexed p ks k v).nodes)
    (hsteady : ∀ u m₁ x m₂, Evaluates limit o scope m (.ok u m₁) → Evaluator.isBare u = false →
      Evaluates limit v scope m₁ (.ok x m₂) → Evaluates limit o scope m₂ (.ok u m₂)) :
    EndsAlike scope [t.lexeme] (Evaluates limit (o.setIndexed p ks k v) scope m)
      (EvaluatesAfter limit t o ((Expr.var t).setIndexed p ks k v) scope m) := by
  refine .after (beginsWith_setIndexed o p ks k v).ends (fun ho out => ?_) fun {u n} ho => ?_
  · have herror := (beginsWith_setIndexed o p ks k v).error ho
    exact ⟨fun h => h.unique herror, fun h => h ▸ herror⟩
  have hfresh := ht.after (Expr.unaware_setIndexed (ht.unaware _ _)).1 ho
  obtain ⟨hwith, hwithout⟩ := hfresh.beside_declare u
  have hvar : ∀ {r : Machine}, r.heap.own? scope t.lexeme = some u →
      Evaluates limit (.var t) scope r (.ok u r) := .var
  -- Both times the object and the variable have the same value: at the start and after `v`.
  constructor
  · intro out h
    obtain ⟨-, hv, hks, hk⟩ := Expr.unaware_setIndexed
      (hfresh.unaware (n.heap.own? scope t.lexeme) (some u))
    obtain ⟨d, hobject⟩ := EndsBeside.of_values ho (hvar hwith.heap.2.2.2) hwith
    refine h.setIndexed_beside hobject hv hks hk ?_
    intro u' n' _ x r r' ho' _ hbare hx _ hr
    cases ho'.unique ho
    exact EndsBeside.of_values (hsteady u n x r ho hbare hx) (hvar hr.heap.2.2.2) hr
  · intro out' h'
    obtain ⟨-, hv, hks, hk⟩ := Expr.unaware_setIndexed
      (hfresh.unaware (some u) (n.heap.own? scope t.lexeme))
    obtain ⟨d, hobject⟩ := EndsBeside.of_values (hvar hwithout.heap.2.2.1) ho hwithout
    have hback : ∃ out, Evaluates limit (o.setIndexed p ks k v) scope m out
        ∧ out'.SameBut scope [t.lexeme] out := by
      refine h'.setIndexed_beside hobject hv hks hk ?_
      intro u' _ n' x _ r' _ ho' hbare _ hx hr
      cases ho'.unique ho
      exact EndsBeside.of_values (hvar hr.heap.2.2.1) (hsteady u n x r' ho hbare hx) hr
    obtain ⟨out, h, hsame⟩ := hback
    exact ⟨out, h, hsame.symm⟩

end Laws

/-- **An assignment through a property evaluates its object, the value and the object again, and
    changes what the second value of the object leads to.** Let `e` be `o.p[k₁]…[kₙ] = v`, and let
    `t` and `w` be fresh variables. In every state `e` comes to an end if and only if the following
    does, with the same value or the same error, the same output and the same state but for `t` and
    `w`: evaluate `o`, which has to be an object; then `let w = v`, `let t = o` and
    `t.p[k₁]…[kₙ] = w`. If the second evaluation of `o` has the same value as the first one and
    changes nothing, then `e` is as good as `let t = o` and `t.p[k₁]…[kₙ] = v`. -/
theorem set_indexed_object_reevaluated {m : Machine} {o v e e' e'' : Expr} {p t w : Token}
    {ks : List Brackets} (hks : ks ≠ [])
    (he : Grammar.assignment? ((Expr.get o p).indexed ks) v = some e)
    (he' : Grammar.assignment? ((Expr.get (.var t) p).indexed ks) (.var w) = some e')
    (he'' : Grammar.assignment? ((Expr.get (.var t) p).indexed ks) v = some e'')
    (ht : Fresh t.lexeme scope m.heap e.nodes) (hw : Fresh w.lexeme scope m.heap e.nodes)
    (hne : w.lexeme ≠ t.lexeme) :
    EndsAlike scope [w.lexeme, t.lexeme] (Evaluates limit e scope m)
      (Assigns limit o v p scope (fun x m₂ =>
        EvaluatesAfter limit t o e' scope (m₂.declare scope w.lexeme x)) m)
    ∧ ((∀ u m₁ x m₂, Evaluates limit o scope m (.ok u m₁) → Evaluator.isBare u = false →
        Evaluates limit v scope m₁ (.ok x m₂) → Evaluates limit o scope m₂ (.ok u m₂)) →
      EndsAlike scope [t.lexeme] (Evaluates limit e scope m)
        (EvaluatesAfter limit t o e'' scope m)) := by
  obtain ⟨init, k, rfl⟩ : ∃ init k, ks = init ++ [k] :=
    ⟨_, _, (List.dropLast_concat_getLast hks).symm⟩
  rw [assignment?_indexed] at he he' he''
  cases he
  cases he'
  cases he''
  exact ⟨setIndexed_endsAlike ht hw hne, setIndexed_endsAlike_once ht⟩

/-! A call as the object: `f().p[nil][true] = f()`. -/

section Getter

/-- A variable `a` stands for an object whose property `p` is a dictionary with an empty dictionary
    under `nil`, and `f` for a function without parameters that gives `a`. -/
def Machine.onGetter : Machine :=
  let f : FunctionDecl :=
    ⟨some (.plain .identifier "f" 1), [], .expression (.var (.plain .identifier "a" 1))⟩
  let h := (Heap.empty.newScope none).2.declare ⟨0⟩ "a" (.inst ⟨0⟩)
  let h := ((h.declare ⟨0⟩ "f" (.function ⟨0⟩)).newFunction ⟨f, ⟨0⟩, false⟩).2
  let h := (h.newInstance ⟨0⟩).2.setField ⟨0⟩ "p" (.dict ⟨0⟩)
  let h := (h.newDict (Dict.empty.put Value.nil.key .nil (.dict ⟨1⟩))).2
  ⟨(h.newDict .empty).2, .root, .empty⟩

/-- The machine after calls of `f`: each of them makes a scope. -/
def Machine.afterCalls : Nat → Machine
  | 0 => .onGetter
  | n + 1 => { afterCalls n with heap := ((afterCalls n).heap.newScope (some ⟨0⟩)).2 }

/-- The call `f()`. -/
def Expr.getterCall : Expr :=
  .call (.var (.plain .identifier "f" 1)) (.plain .rightParen ")" 1) []

/-- Brackets with a constant in them. -/
def Brackets.ofConstant (c : Constant) : Brackets :=
  ⟨.plain .leftBracket "[" 1, some (.literal c), none, none, none, none⟩

/-- The assignment `f().p[nil][true] = f()`. -/
def Expr.getterAssignment : Expr :=
  getterCall.setIndexed (.plain .identifier "p" 1) [.ofConstant .nil] (.ofConstant (.bool true))
    getterCall

/-- Through `f().p[nil][true]` a value is stored in the inner dictionary. -/
theorem stores_getter (x : Value) :
    ∃ m, Stores 10 .getterCall (.plain .identifier "p" 1) [.ofConstant .nil]
        (.ofConstant (.bool true)) ⟨0⟩ x (.afterCalls 2) (.ok x m)
      ∧ m.heap.item (.dict ⟨1⟩) (.bool true) = .ok x := by
  let inner := (Brackets.ofConstant .nil).on (.get .getterCall (.plain .identifier "p" 1))
  let outer := (Brackets.ofConstant (.bool true)).on (.access inner)
  have hproperty : evaluate 10 5 inner.object ⟨0⟩ (.afterCalls 2)
      = .ok (.dict ⟨0⟩) (.afterCalls 3) := by
    with_unfolding_all rfl
  have hinner : (Evaluator.withFuel 10 5).Indexes inner ⟨0⟩ (.afterCalls 2) (.dict ⟨0⟩) .nil
      (.afterCalls 3) := ⟨rfl, _, _, rfl, hproperty, rfl⟩
  have hitem : (Machine.afterCalls 3).heap.item (.dict ⟨0⟩) .nil = .ok (.dict ⟨1⟩) := by
    rw [Heap.item_dict (d := Dict.empty.put Value.nil.key .nil (.dict ⟨1⟩)) rfl,
      Dict.Indexed.empty.get?_put rfl]
    rfl
  have hread : evaluate 10 6 outer.object ⟨0⟩ (.afterCalls 2)
      = .ok (.dict ⟨1⟩) (.afterCalls 3) := by
    rw [evaluate_succ]
    refine (hinner.read rfl).trans ?_
    rw [hitem]
    rfl
  have houter : (Evaluator.withFuel 10 6).Indexes outer ⟨0⟩ (.afterCalls 2) (.dict ⟨1⟩)
      (.bool true) (.afterCalls 3) := ⟨rfl, _, _, rfl, hread, rfl⟩
  have hstore := (houter.store rfl x).trans
    (Step.blame_attempt_of_ok (Heap.setItem_of_hashable rfl _ _ _))
  refine ⟨_, ⟨by simp, 6, Step.bind_of_ok hstore⟩, ?_⟩
  rw [Heap.item_dict (d := Dict.empty.put (Value.bool true).key (.bool true) x) rfl,
    Dict.Indexed.empty.get?_put rfl]
  rfl

/-- The assignment comes to an end, and then the object is in the inner dictionary. -/
theorem evaluates_getterAssignment :
    ∃ m, Evaluates 10 .getterAssignment ⟨0⟩ .onGetter (.ok (.inst ⟨0⟩) m)
      ∧ m.heap.item (.dict ⟨1⟩) (.bool true) = .ok (.inst ⟨0⟩) := by
  have hobject : Evaluates 10 .getterCall ⟨0⟩ .onGetter (.ok (.inst ⟨0⟩) (.afterCalls 1)) :=
    ⟨by simp, 4, by with_unfolding_all rfl⟩
  have hvalue : Evaluates 10 .getterCall ⟨0⟩ (.afterCalls 1) (.ok (.inst ⟨0⟩) (.afterCalls 2)) :=
    ⟨by simp, 4, by with_unfolding_all rfl⟩
  obtain ⟨m, hstores, hitem⟩ := stores_getter (.inst ⟨0⟩)
  exact ⟨m, setIndexed_iff.mpr (.goesOn hobject rfl hvalue hstores), hitem⟩

theorem fresh_getterAssignment {t : String} (ht : t = "t" ∨ t = "w") :
    Fresh t ⟨0⟩ Machine.onGetter.heap Expr.getterAssignment.nodes := by
  have hparts : Unmentioned t Expr.getterAssignment.nodes := by
    unfold Unmentioned
    obtain rfl | rfl := ht <;> decide
  refine ⟨by decide, ?_, ?_, hparts, ?_⟩
  · obtain rfl | rfl := ht <;> decide
  · obtain rfl | rfl := ht <;> decide
  -- There is one function, and what it mentions is `a`.
  · rintro f ⟨⟨index⟩, hr⟩
    cases index with
    | zero =>
        cases hr
        unfold Unmentioned
        obtain rfl | rfl := ht <;> exact .inr (by decide)
    | succ index => cases hr

/-- `f().p[nil][true] = f()` calls `f`, then `let w = f()`, `let t = f()` and `t.p[nil][true] = w`.
    At the end the object is in the inner dictionary. -/
theorem set_indexed_object_reevaluated_call :
    let word := fun lexeme => Token.plain .identifier lexeme 1
    let target := fun o => (Expr.get o (word "p")).indexed
      [.ofConstant .nil, .ofConstant (.bool true)]
    ∃ e, Grammar.assignment? (target (.var (word "t"))) (.var (word "w")) = some e
      ∧ ∃ m, Assigns 10 .getterCall .getterCall (word "p") ⟨0⟩ (fun x m₂ =>
          EvaluatesAfter 10 (word "t") .getterCall e ⟨0⟩ (m₂.declare ⟨0⟩ "w" x)) .onGetter
            (.ok (.inst ⟨0⟩) m)
        ∧ m.heap.item (.dict ⟨1⟩) (.bool true) = .ok (.inst ⟨0⟩) := by
  intro word target
  obtain ⟨m, hends, hitem⟩ := evaluates_getterAssignment
  have hlaw : EndsAlike ⟨0⟩ ["w", "t"] (Evaluates 10 .getterAssignment ⟨0⟩ .onGetter) _ :=
    (set_indexed_object_reevaluated (t := word "t") (w := word "w") (List.cons_ne_nil _ _)
      (assignment?_indexed .getterCall (word "p") [.ofConstant .nil] (.ofConstant (.bool true))
        .getterCall)
      rfl rfl (fresh_getterAssignment (.inl rfl)) (fresh_getterAssignment (.inr rfl))
      (by decide)).1
  obtain ⟨out, h, hsame⟩ := hlaw.there _ hends
  refine ⟨_, rfl, ?_⟩
  cases hsame with
  | ok hm =>
      -- The variables are not in the dictionaries.
      have hdicts := congrArg Heap.dicts hm.heap
      refine ⟨_, h, ?_⟩
      rw [← hitem]
      exact Heap.item_dict_congr (congrArg (fun s : Store .dict Dict => s.get? ⟨1⟩) hdicts.symm) _

end Getter

/-- A function that prints is called twice as the object of an assignment, and once if its value is
    in a variable before. -/
theorem set_indexed_object_twice :
    let setup := "class A \x7b init() \x7b this.p = \x7b\x7d \x7d \x7d\nlet a = A()\n"
      ++ "fn f() \x7b\n io.println(\"f\")\n return a\n\x7d\n"
    (runSource 40 {} .empty (setup ++ "f().p[nil] = true\n")).map (·.output) = some ["f", "f"]
    ∧ (runSource 40 {} .empty (setup ++ "let t = f()\nt.p[nil] = true\n")).map (·.output)
      = some ["f"] := by
  decide +kernel

end Script
