import Script.Value.Slice

/-!
# `Proofs.Value.Slicing` — what a slice selects

The bounds of a range are moved into the sequence, so a range without a step is a stretch of it
(`Slice.between_eq`), and the laws of slices are those of stretches. A step picks from the stretch
(`everyNth_getElem?`). What a range selects is written here without its checks (`Slice.between`),
which never fail (`Slice.between?_eq`).

The main statement, `slice_select`, says which items are selected and how slices compose.
-/

namespace Script

variable {α : Type}

/-- The list is made of the items at `s`, `s + step`, `s + 2 * step` and so on below `e`, each of
    which is there. -/
def Slice.Picks (items : Array α) (s e step : Nat) (picked : List α) : Prop :=
  ∀ i : Nat,
    (s + i * step < e → ∃ item, items[s + i * step]? = some item ∧ picked[i]? = some item)
    ∧ (e ≤ s + i * step → picked[i]? = none)

/-! ## Steps -/

/-- The item at position `i` is the one `i` steps behind the first that is not dropped. -/
theorem everyNth_getElem? {step : Nat} (hstep : 0 < step) (skip : Nat) (items : List α) (i : Nat) :
    (everyNth step skip items)[i]? = items[skip + i * step]? := by
  induction items generalizing skip i with
  | nil => cases skip <;> rfl
  | cons a rest ih =>
      cases skip with
      | succ skip =>
          have hnext : skip + 1 + i * step = skip + i * step + 1 := by omega
          rw [everyNth, ih, hnext, List.getElem?_cons_succ]
      | zero =>
          cases i with
          | zero => simp [everyNth]
          | succ i =>
              have hnext : 0 + (i + 1) * step = step - 1 + i * step + 1 := by
                rw [Nat.succ_mul]
                omega
              rw [everyNth, List.getElem?_cons_succ, ih, hnext, List.getElem?_cons_succ]

namespace Slice

/-! ## Stretches -/

/-- The items from position `s` up to position `e`. -/
def stretch (s e : Nat) (items : List α) : List α := (items.drop s).take (e - s)

theorem stretch_getElem? (s e : Nat) (items : List α) (i : Nat) :
    (stretch s e items)[i]? = if s + i < e then items[s + i]? else none := by
  rw [stretch, List.getElem?_take, List.getElem?_drop]
  by_cases hi : s + i < e
  · rw [if_pos hi, if_pos (by omega)]
  · rw [if_neg hi, if_neg (by omega)]

theorem stretch_eq_nil {s e : Nat} (h : e ≤ s) (items : List α) : stretch s e items = [] := by
  rw [stretch, Nat.sub_eq_zero_of_le h, List.take_zero]

theorem length_stretch {e : Nat} {items : List α} (he : e ≤ items.length) (s : Nat) :
    (stretch s e items).length = e - s := by
  rw [stretch, List.length_take, List.length_drop]
  omega

/-- A stretch of a stretch, as long as it does not go beyond it. -/
theorem stretch_stretch {s e s' e' : Nat} (he' : e' ≤ e - s) (items : List α) :
    stretch s' e' (stretch s e items) = stretch (s + s') (s + e') items := by
  apply List.ext_getElem?
  intro i
  rw [stretch_getElem?, stretch_getElem?, stretch_getElem?]
  by_cases hi : s' + i < e'
  · rw [if_pos hi, if_pos (by omega), if_pos (by omega), Nat.add_assoc]
  · rw [if_neg hi, if_neg (by omega)]

/-- What a step picks from a stretch. -/
theorem picks_everyNth {items : Array α} {s e step : Nat} (he : e ≤ items.size)
    (hstep : 0 < step) : Picks items s e step (everyNth step 0 (stretch s e items.toList)) := by
  intro i
  rw [everyNth_getElem? hstep, Nat.zero_add, stretch_getElem?]
  constructor
  · intro hi
    have hlt : s + i * step < items.size := Nat.lt_of_lt_of_le hi he
    exact ⟨items[s + i * step], Array.getElem?_eq_getElem hlt, by simp [hi, hlt]⟩
  · intro hi
    rw [if_neg (Nat.not_lt.mpr hi)]

theorem picks_stretch {items : Array α} {s e : Nat} (he : e ≤ items.size) :
    Picks items s e 1 (stretch s e items.toList) := by
  have hall : everyNth 1 0 (stretch s e items.toList) = stretch s e items.toList := by
    apply List.ext_getElem?
    intro i
    rw [everyNth_getElem? Nat.one_pos, Nat.zero_add, Nat.mul_one]
  have hpicks := picks_everyNth (s := s) he Nat.one_pos
  rwa [hall] at hpicks

/-! ## Ranges -/

theorem coe_clamp (bound : Int) (length : Nat) :
    (clamp bound length : Int) = max 0 (min bound length) := by
  unfold clamp
  omega

/-- The items selected by a range, if nothing is checked. -/
def between (start stop step : Option Int) (items : List α) : List α :=
  let middle := stretch (clamp (start.getD 0) items.length)
    (clamp (stop.getD items.length) items.length) items
  let step := step.getD 1
  if step ≤ 1 then middle
  else if middle.length < step then []
  else everyNth step.toNat 0 middle

/-- None of the checks of a range fails: its bounds are only used in their order, and its step is
    only used if it is longer than 1. -/
theorem between?_eq (start stop step : Option Int) (items : List α) :
    between? start stop step items = some (between start stop step items) := by
  have hcut : clamp (stop.getD items.length) items.length ≤ items.length := clamp_le _ _
  unfold between? between
  by_cases hempty : clamp (stop.getD items.length) items.length
      ≤ clamp (start.getD 0) items.length
  · -- There is nothing between the bounds, whatever the step.
    rw [if_pos hempty, stretch_eq_nil hempty]
    simp [everyNth]
  · rw [if_neg hempty, stretch?_of_le (Nat.le_of_not_le hempty) hcut, Option.bind_eq_bind,
      Option.bind_some]
    change _ = some (if step.getD 1 ≤ 1 then stretch _ _ items else _)
    by_cases hone : step.getD 1 ≤ 1
    · rw [if_pos hone, if_pos hone]
      rfl
    · have hstep : (step.getD 1).toNat ≠ 0 := by omega
      rw [if_neg hone, if_neg hone, stepBy?, if_neg hstep]
      exact (apply_ite some _ _ _).symm

/-- **A range never fails**, and it reads only at positions that are there. -/
theorem select_range (start stop step : Option Int) (items : Array α) :
    (range start stop step).select? items
        = some (.ok (.items (between start stop step items.toList)))
      ∧ (range start stop step).select items
        = .ok (.items (between start stop step items.toList)) := by
  have hread : (range start stop step).select? items
      = some (.ok (.items (between start stop step items.toList))) := by
    rw [select?, between?_eq]
    rfl
  exact ⟨hread, select_of_select? hread⟩

/-- A range without a step is a stretch. -/
theorem between_eq (start stop : Option Int) (items : List α) :
    between start stop none items
      = stretch (clamp (start.getD 0) items.length) (clamp (stop.getD items.length) items.length)
          items := by
  unfold between
  exact if_pos (Int.le_refl 1)

/-- The three cases of a step. -/
theorem between_step (start stop : Option Int) (step : Int) (items : List α) :
    between start stop (some step) items
      = if step ≤ 1 then between start stop none items
        else if (between start stop none items).length < step then []
        else everyNth step.toNat 0 (between start stop none items) := by
  rw [between_eq]
  rfl

theorem between_append (k : Int) (items : List α) :
    between none (some k) none items ++ between (some k) none none items = items := by
  have hzero : clamp (0 : Int) items.length = 0 := by simp [clamp]
  have hlength : clamp (items.length : Int) items.length = items.length := by simp [clamp]
  have hrest : (items.drop (clamp k items.length)).take (items.length - clamp k items.length)
      = items.drop (clamp k items.length) :=
    List.take_of_length_le (Nat.le_of_eq List.length_drop)
  rw [between_eq, between_eq]
  simp only [Option.getD_none, Option.getD_some]
  rw [hzero, hlength, stretch, stretch, hrest, List.drop_zero, Nat.sub_zero,
    List.take_append_drop]

/-- Slicing a slice is slicing once, with the bounds of the second slice counted from the start of
    the first, and cut off at its end. -/
theorem between_between {a b c d : Int} (ha : 0 ≤ a) (hb : 0 ≤ b) (hc : 0 ≤ c) (hd : 0 ≤ d)
    (items : List α) :
    between (some c) (some d) none (between (some a) (some b) none items)
      = between (some (a + c)) (some (min b (a + d))) none items := by
  have hlength : (between (some a) (some b) none items).length
      = clamp b items.length - clamp a items.length := by
    rw [between_eq]
    exact length_stretch (clamp_le b items.length) _
  rw [between_eq (some c), hlength, between_eq, between_eq]
  simp only [Option.getD_some]
  rw [stretch_stretch (clamp_le d _)]
  have hcut : clamp b items.length ≤ items.length := clamp_le b items.length
  -- Either nothing is left on both sides, or both stretches have the same bounds.
  by_cases hempty : clamp d (clamp b items.length - clamp a items.length)
      ≤ clamp c (clamp b items.length - clamp a items.length)
  · rw [stretch_eq_nil (by omega), stretch_eq_nil]
    unfold clamp at *
    omega
  · have hstart : clamp a items.length + clamp c (clamp b items.length - clamp a items.length)
        = clamp (a + c) items.length := by
      unfold clamp at *
      omega
    have hstop : clamp a items.length + clamp d (clamp b items.length - clamp a items.length)
        = clamp (min b (a + d)) items.length := by
      unfold clamp at *
      omega
    rw [hstart, hstop]

/-- What a range picks, by its step. -/
theorem between_picks (xs : Array α) {start stop : Option Int} (step : Option Int) {s e : Nat}
    (hs : (s : Int) = max 0 (min (start.getD 0) xs.size))
    (he : (e : Int) = max 0 (min (stop.getD xs.size) xs.size)) :
    ((∀ t ∈ step, t ≤ 1) → Picks xs s e 1 (between start stop step xs.toList))
      ∧ (∀ t ∈ step, 1 < t → t ≤ (e - s : Nat) →
        Picks xs s e t.toNat (between start stop step xs.toList))
      ∧ ∀ t ∈ step, (e - s : Nat) < t → between start stop step xs.toList = [] := by
  have hstart : clamp (start.getD 0) xs.size = s := by
    have hclamp := coe_clamp (start.getD 0) xs.size
    omega
  have hstop : clamp (stop.getD xs.size) xs.size = e := by
    have hclamp := coe_clamp (stop.getD xs.size) xs.size
    omega
  have hsize : e ≤ xs.size := by omega
  have hstretch : between start stop none xs.toList = stretch s e xs.toList := by
    rw [between_eq, Array.length_toList, hstart, hstop]
  have hlength : (stretch s e xs.toList).length = e - s := length_stretch hsize s
  cases step with
  | none =>
      rw [hstretch]
      exact ⟨fun _ => picks_stretch hsize, by simp, by simp⟩
  | some t =>
      simp only [Option.mem_def, Option.some.injEq, forall_eq']
      rw [between_step, hstretch, hlength]
      refine ⟨fun hone => ?_, fun hlong hfits => ?_, fun hbeyond => ?_⟩
      · rw [if_pos hone]
        exact picks_stretch hsize
      · rw [if_neg (by omega), if_neg (by omega)]
        exact picks_everyNth hsize (by omega)
      · by_cases hone : t ≤ 1
        · rw [if_pos hone]
          exact stretch_eq_nil (by omega) xs.toList
        · rw [if_neg hone, if_pos hbeyond]

/-! ## Single items -/

/-- A range from a position to the next one holds the item there, if there is one. -/
theorem between_single (i : Int) (items : List α) :
    between (some i) (some (i + 1)) none items
      = if 0 ≤ i then (items[i.toNat]?).toList else [] := by
  rw [between_eq]
  simp only [Option.getD_some]
  by_cases hi : 0 ≤ i ∧ i.toNat < items.length
  · obtain ⟨hpos, hlt⟩ := hi
    have hstart : clamp i items.length = i.toNat := by
      unfold clamp
      omega
    have hstop : clamp (i + 1) items.length = i.toNat + 1 := by
      unfold clamp
      omega
    rw [if_pos hpos, hstart, hstop, stretch, Nat.add_sub_cancel_left, List.getElem?_eq_getElem hlt,
      Option.toList_some, List.take_one, List.head?_drop, List.getElem?_eq_getElem hlt,
      Option.toList_some]
  · -- Both bounds are moved to the same end of the sequence.
    have hempty : clamp (i + 1) items.length ≤ clamp i items.length := by
      unfold clamp
      omega
    rw [stretch_eq_nil hempty]
    by_cases hpos : 0 ≤ i
    · have hge : items.length ≤ i.toNat := by omega
      rw [if_pos hpos, List.getElem?_eq_none hge, Option.toList_none]
    · rw [if_neg hpos]

/-- An index gives the one item of the range from there to the next position. -/
theorem select_index (i : Int) (items : Array α) :
    (index i).select items = match between (some i) (some (i + 1)) none items.toList with
      | item :: _ => .ok (.element item)
      | [] => .error .indexOutOfRange := by
  rw [between_single]
  by_cases hi : 0 ≤ i
  · rw [if_pos hi, Array.getElem?_toList]
    cases hitem : items[i.toNat]? with
    | none =>
        have hsize := Array.getElem?_eq_none_iff.mp hitem
        exact select_index_of_not (.inr (by omega))
    | some item => exact select_index_of_getElem? hi hitem
  · rw [if_neg hi]
    exact select_index_of_not (.inl (Int.not_le.mp hi))

end Slice

/-- **Slices.** No selection reads at a position that is not there, and a range never fails. Let `s`
    and `e` be its bounds, moved into the sequence. It selects the items from `s` up to `e` if there
    is no step or one of at most 1, every `t`-th of them if the step `t` is longer, and nothing if
    it is longer than what lies between the bounds.

    So a sequence is what is before any position followed by what is from there on; slicing a slice
    is slicing once; and an index gives the one item of the range from there to the next position,
    and fails if that is empty. -/
theorem slice_select (xs : Array α) :
    (∀ slice : Slice, slice.select? xs = some (slice.select xs))
      ∧ (∀ (start stop step : Option Int) (s e : Nat),
        (s : Int) = max 0 (min (start.getD 0) xs.size) →
        (e : Int) = max 0 (min (stop.getD xs.size) xs.size) →
        ∃ ys, (Slice.range start stop step).select xs = .ok (.items ys)
          ∧ ((∀ t ∈ step, t ≤ 1) → Slice.Picks xs s e 1 ys)
          ∧ (∀ t ∈ step, 1 < t → t ≤ (e - s : Nat) → Slice.Picks xs s e t.toNat ys)
          ∧ ∀ t ∈ step, (e - s : Nat) < t → ys = [])
      ∧ (∀ k : Int, ∃ ys zs, (Slice.range none (some k) none).select xs = .ok (.items ys)
          ∧ (Slice.range (some k) none none).select xs = .ok (.items zs) ∧ ys ++ zs = xs.toList)
      ∧ (∀ a b c d : Int, 0 ≤ a → 0 ≤ b → 0 ≤ c → 0 ≤ d →
          ∃ ys, (Slice.range (some a) (some b) none).select xs = .ok (.items ys)
            ∧ (Slice.range (some c) (some d) none).select ys.toArray
              = (Slice.range (some (a + c)) (some (min b (a + d))) none).select xs)
      ∧ ∀ i : Int, ∃ ys, (Slice.range (some i) (some (i + 1)) none).select xs = .ok (.items ys)
          ∧ (0 ≤ i ∧ ys ≠ [] →
            ∃ x, ys = [x] ∧ (Slice.index i).select xs = .ok (.element x))
          ∧ (¬(0 ≤ i ∧ ys ≠ []) → (Slice.index i).select xs = .error .indexOutOfRange) := by
  refine ⟨fun slice => slice.select?_eq xs, fun start stop step s e hs he => ?_, fun k => ?_,
    fun a b c d ha hb hc hd => ?_, fun i => ?_⟩
  · exact ⟨_, (Slice.select_range start stop step xs).2, Slice.between_picks xs step hs he⟩
  · exact ⟨_, _, (Slice.select_range _ _ _ xs).2, (Slice.select_range _ _ _ xs).2,
      Slice.between_append k xs.toList⟩
  · refine ⟨_, (Slice.select_range _ _ _ xs).2, ?_⟩
    rw [(Slice.select_range _ _ _ _).2, (Slice.select_range _ _ _ _).2, List.toList_toArray,
      Slice.between_between ha hb hc hd]
  · refine ⟨_, (Slice.select_range _ _ _ xs).2, ?_⟩
    rw [Slice.select_index, Slice.between_single]
    by_cases hi : 0 ≤ i
    · rw [if_pos hi]
      cases hitem : xs.toList[i.toNat]? with
      | none => simp
      | some x => simp [hi]
    · rw [if_neg hi]
      simp

/-- Every second of the items from position 1 on, with an end beyond the sequence. -/
theorem slice_select_stepped :
    let xs := #['a', 'b', 'c', 'd', 'e', 'f']
    ∃ ys, (Slice.range (some 1) (some 20) (some 2)).select xs = .ok (.items ys)
      ∧ Slice.Picks xs 1 6 2 ys ∧ ys = ['b', 'd', 'f'] := by
  intro xs
  obtain ⟨-, hrange, -⟩ := slice_select xs
  obtain ⟨ys, hys, -, hstep, -⟩ := hrange (some 1) (some 20) (some 2) 1 6 (by decide) (by decide)
  refine ⟨ys, hys, hstep 2 rfl (by decide) (by decide), ?_⟩
  cases hys
  rfl

end Script
