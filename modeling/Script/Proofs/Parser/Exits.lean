import Script.Proofs.Exits
import Script.Proofs.Parser.Programs

/-!
# `Proofs.Parser.Exits` — accepted programs have their exits placed

`break` and `continue` are read without a report only inside a loop, and a function that is entered
begins without one. So whatever the grammar reads has its exits placed, by induction on the rules.
-/

namespace Script

/-- Whether every exit in a phrase is placed. For a phrase that completes a part that was read
    before, that part counts as placed. A function is read without a loop around it, and a
    declaration has no exits but those of functions. -/
def Phrase.exitsPlaced (l : Bool) : Phrase → Prop
  | .program ss | .block ss | .braced ss => exitsPlacedBlock l ss = true
  | .statement s => s.exitsPlaced l = true
  | .binding s => ∀ loop, s.exitsPlaced loop = true
  | .initializer s => ∀ loop, exitsPlacedStmt? loop s = true
  | .elifs bs => exitsPlacedElifs l bs = true
  | .members ms | .classText _ _ ms => ∀ m ∈ ms, m.function.exitsPlaced = true
  | .named f => f.exitsPlaced = true
  | .function f => l = false → f.exitsPlaced = true
  | .body b => l = false → b.exitsPlaced = true
  | .expression e | .tier _ e | .primary e => e.exitsPlaced = true
  | .operands _ left e | .suffixes left e => left.exitsPlaced = true → e.exitsPlaced = true
  | .arguments _ _ es | .argumentList _ es => exitsPlacedAll es = true
  | .entries kvs => exitsPlacedEntries kvs = true
  | .component e => exitsPlaced? e = true
  | .slice a => a.object.exitsPlaced = true → exitsPlaced? a.first = true → a.exitsPlaced = true
  | .access a => a.object.exitsPlaced = true → a.exitsPlaced = true
  | .loopVariables _ | .superClass _ | .parameters _ _ | .parameterList _ => True

theorem exitsPlacedMethods_eq_true {ds : List FunctionDecl} :
    exitsPlacedMethods ds = true ↔ ∀ d ∈ ds, d.exitsPlaced = true := by
  induction ds with
  | nil => simp [exitsPlacedMethods]
  | cons d ds ih => simp [exitsPlacedMethods, ih]

theorem exitsPlaced_ofMembers {name : Token} {super : Option Token} {ms : List Member}
    (h : ∀ m ∈ ms, m.function.exitsPlaced = true) :
    (ClassDecl.ofMembers name super ms).exitsPlaced = true := by
  simp only [ClassDecl.ofMembers, ClassDecl.exitsPlaced, Member.select, Bool.and_eq_true,
    exitsPlacedMethods_eq_true, List.mem_map, List.mem_filter]
  constructor
  · rintro d ⟨m, ⟨hm, _⟩, rfl⟩
    exact h m hm
  · rintro d ⟨m, ⟨hm, _⟩, rfl⟩
    exact h m hm

theorem exitsPlaced_tierNode {k : Nat} {left right : Expr} {op : Token} :
    (tierNode k left op right).exitsPlaced = (left.exitsPlaced && right.exitsPlaced) := by
  unfold tierNode
  split <;> rfl

theorem exitsPlaced_accessRoot {e : Expr} (h : e.exitsPlaced = true) :
    e.accessRoot.exitsPlaced = true := by
  fun_induction Expr.accessRoot e with
  | case1 object _ _ _ _ _ _ ih =>
      simp only [Expr.exitsPlaced, Access.exitsPlaced, Bool.and_eq_true] at h
      exact ih h.1.1.1
  | case2 e _ => exact h

theorem exitsPlaced_access? {e : Expr} (h : e.exitsPlaced = true) :
    exitsPlacedAccess? e.access? = true := by
  cases e with
  | access a => exact h
  | _ => rfl

/-- An assignment is made of its target and its value. -/
theorem exitsPlaced_assignment {target value e : Expr} (h : Grammar.assignment? target value = some e)
    (htarget : target.exitsPlaced = true) (hvalue : value.exitsPlaced = true) :
    e.exitsPlaced = true := by
  have hroot := exitsPlaced_accessRoot htarget
  have haccess := exitsPlaced_access? htarget
  unfold Grammar.assignment? at h
  split at h
  · cases h
    simp only [Expr.exitsPlaced, hvalue, haccess, Bool.and_self]
  · rename_i object name hget
    cases h
    rw [hget, Expr.exitsPlaced] at hroot
    simp only [Expr.exitsPlaced, hroot, hvalue, haccess, Bool.and_self]
  · cases h

/-- **What the grammar reads has its exits placed.** -/
theorem Reads.exitsPlaced {l : Bool} {ts rest : List Token} {ph : Phrase} (h : Reads l ts ph rest) :
    ph.exitsPlaced l := by
  induction h with
  | breakStmt ht => rfl
  | continueStmt ht => rfl
  | classStmt ht _ ih => exact exitsPlaced_ofMembers ih
  | letStmt _ _ ih => exact ih _
  | forStmt _ _ _ _ _ _ _ ihi ihc ihe ihs =>
      simp only [Phrase.exitsPlaced, Stmt.exitsPlaced, Bool.and_eq_true]
      exact ⟨⟨⟨ihi _, ihc⟩, ihe⟩, ihs⟩
  | bodyBlock _ _ ih =>
      rintro rfl
      exact ih
  | exprAssign _ _ _ h ihtarget ihvalue => exact exitsPlaced_assignment h ihtarget ihvalue
  | _ =>
      simp_all [Phrase.exitsPlaced, Stmt.exitsPlaced, Expr.exitsPlaced, exitsPlacedBlock,
        exitsPlacedStmt?, exitsPlacedElifs, FunctionDecl.exitsPlaced, FunctionBody.exitsPlaced,
        exitsPlacedAll, exitsPlacedEntries, exitsPlaced?, Access.exitsPlaced, exitsPlacedBlock?,
        exitsPlaced_tierNode]

/-- An accepted source has its exits placed. -/
theorem exitsPlaced_of_compile {source : String} {program : Program}
    (h : compile source = .ok program) : exitsPlacedBlock false program = true :=
  (Iff.mp compile_eq_ok_iff h).2.exitsPlaced

end Script
