import Script.Value

/-!
# `Value.Elements` — lists taken as sets

Members of lists are compared by `Value.key`. What is kept stays in the order of its first
occurrence.
-/

namespace Script

/-- The first occurrences of those values whose key is not among `excluded`. -/
def distinctBeyond : List Key → List Value → List Value
  | _, [] => []
  | excluded, v :: rest =>
    if v.key ∈ excluded then distinctBeyond excluded rest
    else v :: distinctBeyond (v.key :: excluded) rest

/-- The values of `a` that do not occur in `b`, each once. -/
def difference (a b : List Value) : List Value := distinctBeyond (b.map Value.key) a

/-- The values of `a`, each once. -/
def distinct (a : List Value) : List Value := difference a []

/-- A kept value occurs in the list and its key is not excluded. -/
theorem mem_distinctBeyond {excluded : List Key} {a : List Value} {v : Value}
    (h : v ∈ distinctBeyond excluded a) : v ∈ a ∧ v.key ∉ excluded := by
  induction a generalizing excluded with
  | nil => simp [distinctBeyond] at h
  | cons w rest ih =>
      unfold distinctBeyond at h
      split at h
      · obtain ⟨hmem, hkey⟩ := ih h
        exact ⟨List.mem_cons_of_mem _ hmem, hkey⟩
      next hw =>
        rcases List.mem_cons.mp h with rfl | hrest
        · exact ⟨List.mem_cons_self, hw⟩
        · obtain ⟨hmem, hkey⟩ := ih hrest
          exact ⟨List.mem_cons_of_mem _ hmem, fun hin => hkey (List.mem_cons_of_mem _ hin)⟩

end Script
