import Script.Proofs.Faults
import Script.Proofs.Heap.Contents

/-!
# `Proofs.Builtins` — what builtins can do

Apart from the import, which runs the text of a module, a builtin is a short sequence of steps of a
few kinds: it checks its arguments, asks the world and acts on it, and ends with plain data, a fault
or a new list. `Builtin.Performs` says so once, and `Builtin.call_cases` that every call is of one
of these two sorts. What holds of a call is then shown for each kind of step and not for each
builtin.
-/

namespace Script

/-! ## The log -/

/-- From one world to the other, lines were printed and nothing was reported. -/
def World.Onward (w w' : World) : Prop :=
  ∃ lines : List String, w'.events.toList = w.events.toList ++ lines.map .printed

namespace World.Onward

theorem of_events {w w' : World} (h : w'.events = w.events) : w.Onward w' := ⟨[], by simp [h]⟩

theorem refl (w : World) : w.Onward w := of_events rfl

theorem trans {w w' w'' : World} (h : w.Onward w') (h' : w'.Onward w'') : w.Onward w'' := by
  obtain ⟨lines, hlines⟩ := h
  obtain ⟨lines', hlines'⟩ := h'
  refine ⟨lines ++ lines', ?_⟩
  rw [hlines', hlines, List.map_append, List.append_assoc]

theorem print (w : World) (line : String) : w.Onward (w.print line) :=
  ⟨[line], by simp [World.print]⟩

theorem setVariable (w : World) (name value : String) : w.Onward (w.setVariable name value) := by
  unfold World.setVariable
  split
  · exact of_events rfl
  · exact of_events rfl

end World.Onward

/-! ## Performances -/

namespace Builtin

open Step (observe inspect allocate outside ofExcept)

/-- What a builtin that was called with the arguments can do on its own. Of the heap it sees no more
    than how its arguments are displayed, and all it leaves there are new lists and dictionaries. -/
inductive Performs (arguments : List Value) : Step Fault Value → Prop
  | gives {v : Value} : v.isPlain = true → Performs arguments (pure v)
  | fails {fault : Fault} : fault.ordinary = true → Performs arguments (Step.fail fault)
  | checks {α : Type} {r : Except Fault α} {k : α → Step Fault Value} : FailsOrdinarily r →
      (∀ a, Performs arguments (k a)) → Performs arguments (ofExcept r >>= k)
  | asks {α : Type} {p : Machine → α} {k : α → Step Fault Value} :
      (∀ m heap, p { m with heap } = p m) → (∀ a, Performs arguments (k a)) →
      Performs arguments (observe p >>= k)
  | acts {p : World → World} {x : Step Fault Value} : (∀ w : World, w.Onward (p w)) →
      Performs arguments x → Performs arguments (outside p >>= fun _ => x)
  | shows {k : List String → Step Fault Value} : (∀ texts, Performs arguments (k texts)) →
      Performs arguments (inspect (fun h => arguments.map h.display) >>= k)
  | lists {vs : List Value} : (∀ v ∈ vs, v.isPlain = true ∨ v ∈ arguments) →
      Performs arguments (allocate (·.newList vs.toArray))
  | describes (entries : List (String × Entry)) :
      Performs arguments (describeAll entries >>= fun vs => allocate (·.newList vs.toArray))

namespace Performs

variable {arguments : List Value}

theorem string {v : Value} {k : String → Step Fault Value} (hk : ∀ s, Performs arguments (k s)) :
    Performs arguments (ofExcept v.asString >>= k) :=
  .checks (.asString v) hk

theorem number {v : Value} {k : Float → Step Fault Value} (hk : ∀ x, Performs arguments (k x)) :
    Performs arguments (ofExcept v.asNumber >>= k) :=
  .checks (.asNumber v) hk

/-- What goes wrong with a file is a fault of the host. -/
theorem settle {α : Type} {r : Except FileFault α} {k : α → Step Fault Value}
    (hk : ∀ a, Performs arguments (k a)) : Performs arguments (Builtin.settle r >>= k) := by
  refine .checks (fun fault hfault => ?_) hk
  cases r with
  | ok a => cases hfault
  | error e =>
      cases hfault
      rfl

theorem files {files : FileSystem} {x : Step Fault Value} (hx : Performs arguments x) :
    Performs arguments (outside ({ · with files }) >>= fun _ => x) :=
  .acts (fun _ => .of_events rfl) hx

end Performs

/-- A call imports a module, or the builtin performs on its own. Then it makes no difference to it
    which evaluator is there. -/
theorem call_cases (ev ev' : Evaluator) (b : Builtin) (arguments : List Value) :
    (∃ script module, b = .importModule script ∧ arguments = [module])
      ∨ b.call ev' arguments = b.call ev arguments ∧ Performs arguments (b.call ev arguments) := by
  unfold Builtin.call
  split
  · exact .inr ⟨rfl, .shows fun _ => .acts (fun w => .print w _) (.gives rfl)⟩
  -- files and the clock
  · exact .inr ⟨rfl, .string fun _ => .asks (fun _ _ => rfl) fun _ => .settle fun _ => .gives rfl⟩
  · refine .inr ⟨rfl, .string fun _ => .string fun _ => .asks (fun _ _ => rfl) fun _ => ?_⟩
    exact .settle fun _ => .files (.gives rfl)
  · exact .inr ⟨rfl, .string fun _ => .asks (fun _ _ => rfl) fun _ => .gives rfl⟩
  · refine .inr ⟨rfl, .string fun _ => .asks (fun _ _ => rfl) fun _ => ?_⟩
    exact .settle fun entries => .describes entries
  · refine .inr ⟨rfl, .string fun _ => .number fun _ => .asks (fun _ _ => rfl) fun _ => .files ?_⟩
    split
    · exact .fails rfl
    · exact .gives rfl
  · exact .inr ⟨rfl, .asks (fun _ _ => rfl) fun _ => .gives rfl⟩
  -- texts
  · exact .inr ⟨rfl, .string fun _ => .gives rfl⟩
  · exact .inr ⟨rfl, .string fun _ => .gives rfl⟩
  · refine .inr ⟨rfl, .string fun _ => ?_⟩
    split
    · exact .gives rfl
    · exact .fails rfl
  · refine .inr ⟨rfl, .number fun _ => ?_⟩
    split
    · exact .gives rfl
    · exact .fails rfl
  · refine .inr ⟨rfl, .string fun _ => ?_⟩
    split
    · exact .gives rfl
    · exact .gives rfl
  · refine .inr ⟨rfl, .string fun _ => .string fun _ => .lists fun v hv => .inl ?_⟩
    obtain ⟨part, -, rfl⟩ := List.mem_map.mp hv
    rfl
  -- variables of the environment
  · refine .inr ⟨rfl, .string fun _ => .asks (fun _ _ => rfl) fun _ => ?_⟩
    split
    · exact .gives rfl
    · exact .gives rfl
  · refine .inr ⟨rfl, .string fun _ => .string fun _ => ?_⟩
    split
    · exact .fails rfl
    · split
      · exact .fails rfl
      · exact .acts (fun w => .setVariable w _ _) (.gives rfl)
  · exact .inr ⟨rfl, .gives rfl⟩
  · exact .inl ⟨_, _, rfl, rfl⟩
  -- what the host brings along
  · refine .inr ⟨rfl, .acts (fun w => .print w _) ?_⟩
    split
    · exact .fails rfl
    · exact .lists fun v hv => .inr hv
  -- a wrong number of arguments
  · exact .inr ⟨rfl, .fails rfl⟩

end Builtin

end Script
