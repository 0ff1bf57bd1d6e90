import Mathlib.Data.List.Induction
import Script.Value.Elements

/-!
# `Proofs.Value.Elements` — lists taken as sets

`distinctBeyond excluded a` goes through `a` once, and what it meets is excluded from then on. Only
which keys are excluded matters (`distinctBeyond_congr`), so two passes are one pass that excludes
what both do (`distinctBeyond_distinctBeyond`), and a pass over two lists is one over the first and
then one over the second that excludes the first (`distinctBeyond_append`).
-/

namespace Script

variable {excluded excluded' : List Key} {a b : List Value} {key : Key}

/-! ## The excluded keys -/

/-- The order in which keys are excluded does not matter, nor how often. -/
theorem distinctBeyond_congr (h : ∀ key, key ∈ excluded ↔ key ∈ excluded') (a : List Value) :
    distinctBeyond excluded a = distinctBeyond excluded' a := by
  induction a generalizing excluded excluded' with
  | nil => rfl
  | cons v rest ih =>
      unfold distinctBeyond
      by_cases hv : v.key ∈ excluded
      · rw [if_pos hv, if_pos ((h v.key).mp hv)]
        exact ih h
      · rw [if_neg hv, if_neg (mt (h v.key).mpr hv)]
        have hnext : ∀ key, key ∈ v.key :: excluded ↔ key ∈ v.key :: excluded' := by
          intro key
          rw [List.mem_cons, List.mem_cons, h key]
        rw [ih hnext]

/-- What has been gone through is excluded from then on, whether it was kept or not. -/
theorem distinctBeyond_append (excluded : List Key) (a b : List Value) :
    distinctBeyond excluded (a ++ b)
      = distinctBeyond excluded a ++ distinctBeyond (a.map Value.key ++ excluded) b := by
  induction a generalizing excluded with
  | nil => rfl
  | cons v rest ih =>
      rw [List.cons_append, distinctBeyond, distinctBeyond]
      by_cases hv : v.key ∈ excluded
      · rw [if_pos hv, if_pos hv, ih]
        congr 1
        apply distinctBeyond_congr
        intro key
        by_cases hkey : key = v.key
        · simp [hkey, hv]
        · simp [hkey]
      · rw [if_neg hv, if_neg hv, ih, List.cons_append]
        congr 2
        apply distinctBeyond_congr
        intro key
        simp [or_left_comm]

/-- A value at the end counts if none before it has its key. -/
theorem distinctBeyond_concat (excluded : List Key) (a : List Value) (v : Value) :
    distinctBeyond excluded (a ++ [v])
      = if v.key ∈ excluded ∨ v.key ∈ a.map Value.key then distinctBeyond excluded a
        else distinctBeyond excluded a ++ [v] := by
  rw [distinctBeyond_append, distinctBeyond]
  by_cases hv : v.key ∈ excluded ∨ v.key ∈ a.map Value.key
  · rw [if_pos (List.mem_append.mpr hv.symm), if_pos hv, distinctBeyond, List.append_nil]
  · rw [if_neg (mt (fun h => (List.mem_append.mp h).symm) hv), if_neg hv, distinctBeyond]

/-- Two passes exclude what each of them does. -/
theorem distinctBeyond_distinctBeyond (excluded excluded' : List Key) (a : List Value) :
    distinctBeyond excluded (distinctBeyond excluded' a)
      = distinctBeyond (excluded ++ excluded') a := by
  induction a generalizing excluded excluded' with
  | nil => rfl
  | cons v rest ih =>
      have hmem : v.key ∈ excluded ++ excluded' ↔ v.key ∈ excluded ∨ v.key ∈ excluded' :=
        List.mem_append
      rw [distinctBeyond.eq_2 excluded', distinctBeyond.eq_2 (excluded ++ excluded')]
      by_cases hinner : v.key ∈ excluded'
      · rw [if_pos hinner, if_pos (hmem.mpr (.inr hinner)), ih]
      · rw [if_neg hinner, distinctBeyond]
        by_cases houter : v.key ∈ excluded
        · -- The first pass has kept `v` and excluded its key, which the second one does anyway.
          rw [if_pos houter, if_pos (hmem.mpr (.inl houter)), ih]
          apply distinctBeyond_congr
          intro key
          by_cases hkey : key = v.key
          · simp [hkey, houter]
          · simp [hkey]
        · rw [if_neg houter, if_neg (mt hmem.mp (not_or.mpr ⟨houter, hinner⟩)), ih]
          congr 1
          apply distinctBeyond_congr
          intro key
          simp [or_left_comm]

/-! ## What is kept -/

theorem distinctBeyond_sublist (excluded : List Key) (a : List Value) :
    (distinctBeyond excluded a).Sublist a := by
  induction a generalizing excluded with
  | nil => exact List.Sublist.refl []
  | cons v rest ih =>
      unfold distinctBeyond
      split
      · exact (ih excluded).cons v
      · exact (ih (v.key :: excluded)).cons_cons v

theorem mem_keys_distinctBeyond :
    key ∈ (distinctBeyond excluded a).map Value.key ↔ key ∈ a.map Value.key ∧ key ∉ excluded := by
  induction a generalizing excluded with
  | nil => simp [distinctBeyond]
  | cons v rest ih =>
      unfold distinctBeyond
      split
      · rename_i hv
        rw [ih, List.map_cons, List.mem_cons]
        constructor
        · rintro ⟨hrest, hkey⟩
          exact ⟨.inr hrest, hkey⟩
        · rintro ⟨rfl | hrest, hkey⟩
          · exact absurd hv hkey
          · exact ⟨hrest, hkey⟩
      · rename_i hv
        rw [List.map_cons, List.mem_cons, ih, List.map_cons, List.mem_cons, List.mem_cons, not_or]
        by_cases hkey : key = v.key
        · simp [hkey, hv]
        · simp [hkey]

theorem nodup_distinctBeyond (excluded : List Key) (a : List Value) :
    ((distinctBeyond excluded a).map Value.key).Nodup := by
  induction a generalizing excluded with
  | nil => exact List.nodup_nil
  | cons v rest ih =>
      unfold distinctBeyond
      split
      · exact ih excluded
      · rw [List.map_cons, List.nodup_cons]
        refine ⟨fun hkey => ?_, ih (v.key :: excluded)⟩
        exact (mem_keys_distinctBeyond.mp hkey).2 List.mem_cons_self

/-- What is kept stands at the first occurrences of keys that are not excluded. -/
theorem distinctBeyond_eq_filter (excluded : List Key) (a : List Value) :
    distinctBeyond excluded a
      = (a.zipIdx.filter fun p =>
          p.1.key ∉ excluded ∧ p.1.key ∉ (a.take p.2).map Value.key).map (·.1) := by
  induction a using List.reverseRecOn with
  | nil => rfl
  | append_singleton a v ih =>
      -- The positions of `a` have the same values before them as in `a` alone.
      have hold : (a.zipIdx.filter fun p =>
            p.1.key ∉ excluded ∧ p.1.key ∉ ((a ++ [v]).take p.2).map Value.key)
          = a.zipIdx.filter fun p => p.1.key ∉ excluded ∧ p.1.key ∉ (a.take p.2).map Value.key := by
        apply List.filter_congr
        intro p hp
        have hle : p.2 ≤ a.length := Nat.le_of_lt (List.snd_lt_of_mem_zipIdx hp)
        rw [List.take_append_of_le_length hle]
      have hlast : (v.key ∉ excluded ∧ v.key ∉ ((a ++ [v]).take a.length).map Value.key)
          ↔ ¬(v.key ∈ excluded ∨ v.key ∈ a.map Value.key) := by
        rw [List.take_left, not_or]
      rw [distinctBeyond_concat, ih, List.zipIdx_append, Nat.zero_add, List.zipIdx_singleton,
        List.filter_append, hold, List.map_append]
      by_cases hv : v.key ∈ excluded ∨ v.key ∈ a.map Value.key
      · have hdrop := mt hlast.mp (not_not_intro hv)
        rw [if_pos hv, List.filter_cons_of_neg (by simpa only [decide_eq_true_eq] using hdrop),
          List.filter_nil, List.map_nil, List.append_nil]
      · have hkeep := hlast.mpr hv
        rw [if_neg hv, List.filter_cons_of_pos (by simpa only [decide_eq_true_eq] using hkeep),
          List.filter_nil, List.map_singleton]

/-- Of values with different keys all are kept whose key is not excluded. -/
theorem distinctBeyond_of_nodup (h : (a.map Value.key).Nodup) (excluded : List Key) :
    distinctBeyond excluded a = a.filter (·.key ∉ excluded) := by
  induction a generalizing excluded with
  | nil => rfl
  | cons v rest ih =>
      obtain ⟨hv, hrest⟩ := List.nodup_cons.mp h
      unfold distinctBeyond
      by_cases hkey : v.key ∈ excluded
      · rw [if_pos hkey, ih hrest, List.filter_cons_of_neg (by simpa using hkey)]
      · rw [if_neg hkey, ih hrest, List.filter_cons_of_pos (by simpa using hkey)]
        congr 1
        apply List.filter_congr
        intro w hw
        have hne : w.key ≠ v.key := fun heq => hv (heq ▸ List.mem_map_of_mem hw)
        simp [hne]

end Script
