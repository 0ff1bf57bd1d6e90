import Mathlib.Data.List.Dedup
import Mathlib.Data.List.Induction
import Script.Heap
import Script.Proofs.Value.Elements

/-!
# `Proofs.Value.Dictionary` — dictionaries as ordered maps

A dictionary is a list of entries with an index from keys to positions. `Dict.Indexed` says that the
two agree. Under it a dictionary is no more than its list: looking a key up is searching the list,
and an insertion is `Dict.enter` on the list.

`Dict.Records d es` says that the dictionary was made by inserting the entries `es` in this order,
whichever operations did so. The main statement, `dict_ordered_map`, says what such a dictionary
holds: the keys in the order of their first insertions, each with the value inserted last.
-/

namespace Script

/-- Whether the values with this key are hashable. -/
def Key.hashable : Key → Bool
  | .list _ => false
  | .dict _ => false
  | _ => true

theorem Value.hashable_key (v : Value) : v.key.hashable = v.hashable := by
  cases v <;> rfl

namespace Dict

variable {d d' : Dict} {k v : Value} {key : Key} {l es : List (Value × Value)}

/-! ## Lists of entries -/

/-- The entries after an insertion. A key that is there gets the new value and stays as it is, where
    it is; a new key comes last. -/
def enter (k v : Value) : List (Value × Value) → List (Value × Value)
  | [] => [(k, v)]
  | e :: rest => if e.1.key = k.key then (e.1, v) :: rest else e :: enter k v rest

/-- The entries after insertions one after the other. -/
def enterAll (l es : List (Value × Value)) : List (Value × Value) :=
  es.foldl (fun l e => enter e.1 e.2 l) l

/-- The value of the last entry under a key. -/
def latest? (key : Key) (es : List (Value × Value)) : Option Value :=
  ((es.filter fun e => e.1.key = key).getLast?).map (·.2)

theorem enterAll_append (l es es' : List (Value × Value)) :
    enterAll l (es ++ es') = enterAll (enterAll l es) es' := List.foldl_append

/-- A new key comes last. -/
theorem enter_of_absent (h : k.key ∉ l.map (·.1.key)) : enter k v l = l ++ [(k, v)] := by
  induction l with
  | nil => rfl
  | cons e rest ih =>
      obtain ⟨he, hrest⟩ := not_or.mp (mt List.mem_cons.mpr h)
      rw [enter, if_neg (Ne.symm he), ih hrest, List.cons_append]

/-- A key that is there keeps its place and its own form, and only its value is replaced. -/
theorem enter_of_present (hnodup : (l.map (·.1.key)).Nodup) {i : Nat} {e : Value × Value}
    (hi : l[i]? = some e) (he : e.1.key = k.key) : enter k v l = l.set i (e.1, v) := by
  induction l generalizing i with
  | nil => simp at hi
  | cons e' rest ih =>
      obtain ⟨hfirst, hnodup⟩ := List.nodup_cons.mp hnodup
      cases i with
      | zero =>
          obtain rfl : e' = e := by simpa using hi
          rw [enter, if_pos he, List.set_cons_zero]
      | succ i =>
          rw [List.getElem?_cons_succ] at hi
          have hne : e'.1.key ≠ k.key := by
            intro heq
            exact hfirst (List.mem_map.mpr ⟨e, List.mem_of_getElem? hi, he.trans heq.symm⟩)
          rw [enter, if_neg hne, ih hnodup hi, List.set_cons_succ]

/-- An insertion adds its key to the keys, unless it is there. -/
theorem map_fst_enter (k v : Value) (l : List (Value × Value)) :
    (enter k v l).map (·.1)
      = if k.key ∈ l.map (·.1.key) then l.map (·.1) else l.map (·.1) ++ [k] := by
  induction l with
  | nil => rfl
  | cons e rest ih =>
      by_cases he : e.1.key = k.key
      · simp [enter, he]
      · rw [enter, if_neg he, List.map_cons, ih]
        simp only [List.map_cons, List.mem_cons, Ne.symm he, false_or]
        split <;> rfl

/-- An insertion either leaves the keys as they are or puts one more behind them. -/
theorem keys_enter (k v : Value) (l : List (Value × Value)) :
    (enter k v l).map (·.1.key)
      = if k.key ∈ l.map (·.1.key) then l.map (·.1.key) else l.map (·.1.key) ++ [k.key] := by
  have hkeys := congrArg (List.map Value.key) (map_fst_enter k v l)
  split at hkeys <;> rename_i hk
  · simpa [hk, Function.comp_def] using hkeys
  · simpa [hk, Function.comp_def] using hkeys

theorem mem_keys_enter : key ∈ (enter k v l).map (·.1.key) ↔ key = k.key ∨ key ∈ l.map (·.1.key) := by
  rw [keys_enter]
  split
  · rename_i hk
    refine ⟨.inr, ?_⟩
    rintro (rfl | hl)
    · exact hk
    · exact hl
  · rw [List.mem_append, List.mem_singleton]
    exact Or.comm

/-- No key gets in twice, since a key that is there is not added again. -/
theorem nodup_enter (h : (l.map (·.1.key)).Nodup) : ((enter k v l).map (·.1.key)).Nodup := by
  rw [keys_enter]
  split
  · exact h
  · rename_i hk
    rw [← List.concat_eq_append]
    exact h.concat hk

/-- The same along any number of insertions. -/
theorem nodup_enterAll (h : (l.map (·.1.key)).Nodup) (es : List (Value × Value)) :
    ((enterAll l es).map (·.1.key)).Nodup := by
  induction es generalizing l with
  | nil => exact h
  | cons e rest ih => exact ih (nodup_enter h)

/-! ## The order of insertions -/

/-- A second insertion under the key of the first one leaves the first key and the second value. -/
theorem enter_enter_of_eq {k' v' : Value} (hk : k'.key = k.key) (l : List (Value × Value)) :
    enter k v (enter k' v' l) = enter k' v l := by
  induction l with
  | nil => simp [enter, hk]
  | cons e rest ih =>
      by_cases he : e.1.key = k.key
      · simp [enter, he, hk]
      · simp [enter, he, hk, ih]

/-- An insertion under a key that is there goes past an insertion under another key. -/
theorem enter_enter_of_ne {k' v' : Value} (hk : k'.key ≠ k.key) (hl : k.key ∈ l.map (·.1.key)) :
    enter k v (enter k' v' l) = enter k' v' (enter k v l) := by
  induction l with
  | nil => simp at hl
  | cons e rest ih =>
      by_cases he : e.1.key = k.key
      · simp [enter, he, Ne.symm hk]
      · have hrest : k.key ∈ rest.map (·.1.key) := by simpa [Ne.symm he] using hl
        by_cases he' : e.1.key = k'.key
        · simp [enter, he', hk]
        · simp [enter, he, he', ih hrest]

/-- An insertion under a key that is there goes past insertions under other keys. -/
theorem enter_enterAll_of_ne (hes : ∀ e ∈ es, e.1.key ≠ k.key) (hl : k.key ∈ l.map (·.1.key)) :
    enter k v (enterAll l es) = enterAll (enter k v l) es := by
  induction es generalizing l with
  | nil => rfl
  | cons e rest ih =>
      obtain ⟨he, hrest⟩ := List.forall_mem_cons.mp hes
      calc enter k v (enterAll l (e :: rest))
          = enterAll (enter k v (enter e.1 e.2 l)) rest :=
            ih hrest (mem_keys_enter.mpr (.inr hl))
        _ = enterAll (enter k v l) (e :: rest) := by rw [enter_enter_of_ne he hl]; rfl

/-- Inserting entries into which an entry was inserted is inserting that entry last. -/
theorem enterAll_enter (hnodup : (es.map (·.1.key)).Nodup) (l : List (Value × Value)) :
    enterAll l (enter k v es) = enter k v (enterAll l es) := by
  induction es generalizing l with
  | nil => rfl
  | cons e rest ih =>
      obtain ⟨hfirst, hnodup⟩ := List.nodup_cons.mp hnodup
      rw [enter]
      split
      · rename_i he
        -- The value goes to the entry at the front, and no entry behind it is under its key.
        have hrest : ∀ e' ∈ rest, e'.1.key ≠ k.key := fun e' he' heq =>
          hfirst (List.mem_map.mpr ⟨e', he', heq.trans he.symm⟩)
        have hl : k.key ∈ (enter e.1 e.2 l).map (·.1.key) := mem_keys_enter.mpr (.inl he.symm)
        calc enterAll l ((e.1, v) :: rest)
            = enterAll (enter k v (enter e.1 e.2 l)) rest := by rw [enter_enter_of_eq he]; rfl
          _ = enter k v (enterAll l (e :: rest)) := (enter_enterAll_of_ne hrest hl).symm
      · exact ih hnodup (enter e.1 e.2 l)

/-- Inserting what insertions have left is inserting all that was inserted. -/
theorem enterAll_enterAll (l es : List (Value × Value)) :
    enterAll l (enterAll [] es) = enterAll l es := by
  induction es using List.reverseRecOn with
  | nil => rfl
  | append_singleton es e ih =>
      rw [enterAll_append, enterAll_append]
      show enterAll l (enter e.1 e.2 (enterAll [] es)) = enter e.1 e.2 (enterAll l es)
      rw [enterAll_enter (nodup_enterAll (l := []) List.nodup_nil es), ih]

/-! ## What insertions leave -/

/-- The keys after insertions are those from before and those inserted. -/
theorem mem_keys_enterAll :
    key ∈ (enterAll l es).map (·.1.key) ↔ key ∈ l.map (·.1.key) ∨ key ∈ es.map (·.1.key) := by
  induction es generalizing l with
  | nil => simp [enterAll]
  | cons e rest ih =>
      show key ∈ (enterAll (enter e.1 e.2 l) rest).map (·.1.key) ↔ _
      rw [ih, mem_keys_enter, List.map_cons, List.mem_cons, or_assoc, or_left_comm]

/-- The keys are those inserted, each as it was first inserted. -/
theorem map_fst_enterAll (es : List (Value × Value)) :
    (enterAll [] es).map (·.1) = distinct (es.map (·.1)) := by
  induction es using List.reverseRecOn with
  | nil => rfl
  | append_singleton es e ih =>
      rw [enterAll_append, List.map_append, List.map_singleton]
      show (enter e.1 e.2 (enterAll [] es)).map (·.1) = distinctBeyond [] (es.map (·.1) ++ [e.1])
      rw [map_fst_enter, distinctBeyond_concat, ih]
      simp only [mem_keys_enterAll, List.map_map]
      rfl

/-- The value under a key in a list of entries. -/
def search (key : Key) (l : List (Value × Value)) : Option Value :=
  (l.find? fun e => e.1.key = key).map (·.2)

/-- Searching after an insertion finds the new value under the key, and under other keys what was
    there. -/
theorem search_enter (key : Key) (k v : Value) (l : List (Value × Value)) :
    search key (enter k v l) = if k.key = key then some v else search key l := by
  induction l with
  | nil => by_cases hk : k.key = key <;> simp [search, enter, hk]
  | cons e rest ih =>
      unfold search at ih ⊢
      by_cases he : e.1.key = k.key
      · by_cases hk : k.key = key <;> simp [enter, he, hk]
      · rw [enter, if_neg he]
        by_cases hk : e.1.key = key
        · have hne : k.key ≠ key := fun heq => he (hk.trans heq.symm)
          simp [hk, hne]
        · simp [hk, ih]

theorem search_of_absent (h : key ∉ l.map (·.1.key)) : search key l = none := by
  have hnone : l.find? (fun e => e.1.key = key) = none := by simpa using h
  rw [search, hnone]
  rfl

/-- Where no key stands twice, the search for the key of an entry ends at this entry. -/
theorem search_of_present (hnodup : (l.map (·.1.key)).Nodup) {e : Value × Value} (he : e ∈ l) :
    search e.1.key l = some e.2 := by
  induction l with
  | nil => cases he
  | cons e' rest ih =>
      obtain ⟨hfirst, hnodup⟩ := List.nodup_cons.mp hnodup
      unfold search at ih ⊢
      obtain rfl | he := List.mem_cons.mp he
      · simp
      · have hne : e'.1.key ≠ e.1.key := fun heq =>
          hfirst (List.mem_map.mpr ⟨e, he, heq.symm⟩)
        rw [List.find?_cons_of_neg (by simpa using hne)]
        exact ih hnodup he

/-- The value under a key is the one inserted last, or the one that was there. -/
theorem search_enterAll_or (key : Key) (l es : List (Value × Value)) :
    search key (enterAll l es) = (latest? key es).or (search key l) := by
  induction es using List.reverseRecOn with
  | nil => rfl
  | append_singleton es e ih =>
      rw [enterAll_append]
      show search key (enter e.1 e.2 (enterAll l es)) = _
      rw [search_enter, ih]
      by_cases he : e.1.key = key
      · rw [if_pos he]
        simp [latest?, he, List.filter_append]
      · rw [if_neg he]
        simp [latest?, he, List.filter_append]

/-- What is under a key after insertions into nothing is the value that was inserted last. -/
theorem search_enterAll (key : Key) (es : List (Value × Value)) :
    search key (enterAll [] es) = latest? key es := by
  rw [search_enterAll_or]
  exact Option.or_none

/-- Inserting an entry that is there changes nothing. -/
theorem enter_of_mem (hnodup : (l.map (·.1.key)).Nodup) {e : Value × Value} (he : e ∈ l) :
    enter e.1 e.2 l = l := by
  obtain ⟨i, hi⟩ := List.mem_iff_getElem?.mp he
  rw [enter_of_present hnodup hi rfl]
  obtain ⟨hlt, rfl⟩ := List.getElem?_eq_some_iff.mp hi
  exact List.set_getElem_self hlt

/-- To insert entries that are there already changes nothing. -/
theorem enterAll_of_subset (hnodup : (l.map (·.1.key)).Nodup) (hes : ∀ e ∈ es, e ∈ l) :
    enterAll l es = l := by
  induction es with
  | nil => rfl
  | cons e rest ih =>
      obtain ⟨he, hrest⟩ := List.forall_mem_cons.mp hes
      show enterAll (enter e.1 e.2 l) rest = l
      rw [enter_of_mem hnodup he]
      exact ih hrest

/-! ## The index -/

theorem insert_of_hashable (hk : k.hashable = true) : d.insert k v = .ok (d.put k.key k v) := by
  rw [insert, Value.dictKey_of_hashable hk]
  rfl

theorem insert_of_unhashable (hk : k.hashable = false) : d.insert k v = .error .unhashableKey := by
  rw [insert, Value.dictKey, hk]
  rfl

theorem get?_of_hashable (hk : k.hashable = true) : d.get? k = .ok (d.find? k.key) := by
  rw [get?, Value.dictKey_of_hashable hk]
  rfl

theorem get?_of_unhashable (hk : k.hashable = false) : d.get? k = .error .unhashableKey := by
  rw [get?, Value.dictKey, hk]
  rfl

/-- The index and the entries agree: a key is at a position exactly if the entry there is under the
    key. Keys are hashable. -/
structure Indexed (d : Dict) : Prop where
  index : ∀ (key : Key) (i : Nat),
    d.index[key]? = some i ↔ (d.toList.map (·.1.key))[i]? = some key
  hashable : ∀ k ∈ d.toList.map (·.1), k.hashable = true

namespace Indexed

theorem empty : Dict.empty.Indexed := ⟨by simp [Dict.empty, toList], by simp [Dict.empty, toList]⟩

/-- Two entries under one key would be at one position by the index, so there are none. -/
theorem nodup (h : d.Indexed) : (d.toList.map (·.1.key)).Nodup := by
  rw [List.nodup_iff_getElem?_ne_getElem?]
  intro i j hij hj heq
  have hj' := List.getElem?_eq_getElem hj
  have hindex := (h.index _ i).mpr (heq.trans hj')
  rw [(h.index _ j).mpr hj', Option.some.injEq] at hindex
  exact Nat.ne_of_gt hij hindex

theorem index_eq_none_iff (h : d.Indexed) :
    d.index[key]? = none ↔ key ∉ d.toList.map (·.1.key) := by
  simp only [Option.eq_none_iff_forall_ne_some, List.mem_iff_getElem?, not_exists, ne_eq, h.index]

/-- What the index has for a key is exactly where the entry under the key stands. -/
theorem index_iff (h : d.Indexed) {i : Nat} :
    d.index[key]? = some i ↔ ∃ e : Value × Value, d.toList[i]? = some e ∧ e.1.dictKey = .ok key := by
  rw [h.index, List.getElem?_map, Option.map_eq_some_iff]
  refine exists_congr fun e => and_congr_right fun he => ?_
  have hk := h.hashable e.1 (List.mem_map_of_mem (List.mem_of_getElem? he))
  rw [Value.dictKey_of_hashable hk, Except.ok.injEq]

/-- Looking a key up is searching the entries. -/
theorem find?_eq (h : d.Indexed) (key : Key) : d.find? key = search key d.toList := by
  unfold find?
  cases hi : d.index[key]? with
  | none => rw [search_of_absent (h.index_eq_none_iff.mp hi), Option.bind_none]
  | some i =>
      obtain ⟨e, he, rfl⟩ : ∃ e, d.toList[i]? = some e ∧ e.1.key = key := by
        simpa using (h.index key i).mp hi
      rw [search_of_present h.nodup (List.mem_of_getElem? he), Option.bind_some,
        ← Array.getElem?_toList]
      show (d.toList[i]?).map _ = _
      rw [he]
      rfl

/-- An insertion under a new key is one at the end of the list, and the index follows it. -/
theorem put_absent (h : d.Indexed) (hk : k.hashable = true) (hi : d.index[k.key]? = none) :
    (d.put k.key k v).Indexed ∧ (d.put k.key k v).toList = enter k v d.toList := by
  have habsent := h.index_eq_none_iff.mp hi
  have hlist : (d.put k.key k v).toList = d.toList ++ [(k, v)] := by
    simp [put_of_absent hi, toList]
  refine ⟨⟨fun key i => ?_, ?_⟩, hlist.trans (enter_of_absent habsent).symm⟩
  · have hsize : d.entries.size = (d.toList.map (·.1.key)).length := by simp [toList]
    rw [hlist, List.map_append, List.map_singleton, put_of_absent hi, hsize,
      Std.HashMap.getElem?_insert]
    have hindex := h.index key i
    generalize d.toList.map (·.1.key) = keys at habsent hindex
    by_cases hkey : k.key = key
    · -- The new key is at the end, and nowhere before it.
      subst hkey
      have hne : keys[i]? ≠ some k.key := fun heq => habsent (List.mem_of_getElem? heq)
      grind
    · grind
  · rw [hlist, List.map_append, List.forall_mem_append]
    exact ⟨h.hashable, by simpa using hk⟩

/-- An insertion under a key that is there changes the value and moves no key. -/
theorem put_present (h : d.Indexed) {i : Nat} (hi : d.index[k.key]? = some i) :
    (d.put k.key k v).Indexed ∧ (d.put k.key k v).toList = enter k v d.toList := by
  obtain ⟨e, he, hkey⟩ : ∃ e, d.toList[i]? = some e ∧ e.1.key = k.key := by
    simpa using (h.index k.key i).mp hi
  have hkeys : (d.put k.key k v).toList.map (·.1) = d.toList.map (·.1) := by
    rw [put_of_present hi]
    exact keys_modify d.entries i v
  have hlist : (d.put k.key k v).toList = d.toList.set i (e.1, v) := by
    rw [put_of_present hi]
    rw [toList, Array.toList_modify, List.modify_eq_set, ← toList, he]
    rfl
  refine ⟨⟨fun key j => ?_, ?_⟩, hlist.trans (enter_of_present h.nodup he hkey).symm⟩
  · have hkeys' : (d.put k.key k v).toList.map (·.1.key) = d.toList.map (·.1.key) := by
      simpa [Function.comp_def] using congrArg (List.map Value.key) hkeys
    rw [hkeys', put_of_present hi]
    exact h.index key j
  · rw [hkeys]
    exact h.hashable

/-- An insertion keeps index and entries in agreement, and on the list it is `enter`. A key is
    either absent or present, and each case is a lemma. -/
theorem put (h : d.Indexed) (hk : k.hashable = true) :
    (d.put k.key k v).Indexed ∧ (d.put k.key k v).toList = enter k v d.toList := by
  cases hi : d.index[k.key]? with
  | none => exact h.put_absent hk hi
  | some i => exact h.put_present hi

/-- What is under a key after an insertion. -/
theorem get?_put (h : d.Indexed) (hk : k.hashable = true) (v k' : Value) :
    (d.put k.key k v).get? k' = if k.key = k'.key then .ok (some v) else d.get? k' := by
  obtain ⟨hindexed, hlist⟩ := h.put (v := v) hk
  have hfind : (d.put k.key k v).find? k'.key
      = if k.key = k'.key then some v else d.find? k'.key := by
    rw [hindexed.find?_eq, hlist, search_enter, h.find?_eq]
  cases hk' : k'.hashable with
  | true =>
      rw [get?_of_hashable hk', get?_of_hashable hk', hfind]
      split <;> rfl
  | false =>
      -- A key that is not hashable is not that of the insertion.
      have hne : k.key ≠ k'.key := by
        intro heq
        rw [← Value.hashable_key, ← heq, Value.hashable_key, hk] at hk'
        cases hk'
      rw [get?_of_unhashable hk', get?_of_unhashable hk', if_neg hne]

/-- The same for an insertion that may be refused: if it is not, the key is hashable. -/
theorem insert (h : d.Indexed) (hd' : d.insert k v = .ok d') :
    d'.Indexed ∧ d'.toList = enter k v d.toList := by
  cases hk : k.hashable with
  | false =>
      rw [insert_of_unhashable hk] at hd'
      cases hd'
  | true =>
      rw [insert_of_hashable hk] at hd'
      cases hd'
      exact h.put hk

/-- Insertions one after the other, by induction on the entries. -/
theorem insertAll (h : d.Indexed) (hd' : d.insertAll es = .ok d') :
    d'.Indexed ∧ d'.toList = enterAll d.toList es := by
  induction es generalizing d with
  | nil =>
      obtain rfl : d = d' := by simpa [Dict.insertAll] using hd'
      exact ⟨h, rfl⟩
  | cons e rest ih =>
      cases he : d.insert e.1 e.2 with
      | error fault => simp [Dict.insertAll, he, bind, Except.bind] at hd'
      | ok d₁ =>
          obtain ⟨h₁, hlist⟩ := h.insert he
          obtain ⟨h', hlist'⟩ := ih h₁ (by simpa [Dict.insertAll, he, bind, Except.bind] using hd')
          exact ⟨h', by rw [hlist', hlist]; rfl⟩

/-- Entries whose keys are known to be hashable are put in without a check. -/
theorem putAll (h : d.Indexed) (hes : ∀ k ∈ es.map (·.1), k.hashable = true) :
    (es.foldl (fun d e => d.put e.1.key e.1 e.2) d).Indexed
      ∧ (es.foldl (fun d e => d.put e.1.key e.1 e.2) d).toList = enterAll d.toList es := by
  induction es generalizing d with
  | nil => exact ⟨h, rfl⟩
  | cons e rest ih =>
      obtain ⟨he, hrest⟩ := List.forall_mem_cons.mp hes
      obtain ⟨h₁, hlist⟩ := h.put (v := e.2) he
      obtain ⟨h', hlist'⟩ := ih h₁ hrest
      exact ⟨h', by rw [List.foldl_cons, hlist', hlist]; rfl⟩

/-- A union inserts the entries of the first dictionary and then those of the second, into an empty
    one. -/
theorem union {a b : Dict} (ha : a.Indexed) (hb : b.Indexed) :
    (a.union b).Indexed ∧ (a.union b).toList = enterAll [] (a.toList ++ b.toList) := by
  refine empty.putAll ?_
  rw [List.map_append, List.forall_mem_append]
  exact ⟨ha.hashable, hb.hashable⟩

end Indexed

/-! ## Any sequence of operations -/

/-- The dictionary was made by operations that inserted these entries, in this order. -/
inductive Records : Dict → List (Value × Value) → Prop
  | ofEntries {d : Dict} {es : List (Value × Value)} : ofEntries es = .ok d → Records d es
  | insert {d d' : Dict} {es : List (Value × Value)} {k v : Value} :
      Records d es → d.insert k v = .ok d' → Records d' (es ++ [(k, v)])
  | union {a b : Dict} {es es' : List (Value × Value)} :
      Records a es → Records b es' → Records (a.union b) (es ++ es')

/-- A dictionary that operations made is indexed, and its list is what the insertions leave. -/
theorem Records.spec (h : d.Records es) : d.Indexed ∧ d.toList = enterAll [] es := by
  induction h with
  | ofEntries hd => exact Indexed.empty.insertAll hd
  | insert _ hd' ih =>
      obtain ⟨hindexed, hlist⟩ := ih
      obtain ⟨hindexed', hlist'⟩ := hindexed.insert hd'
      exact ⟨hindexed', by rw [hlist', hlist, enterAll_append]; rfl⟩
  | @union a b es es' _ _ iha ihb =>
      obtain ⟨ha, hlista⟩ := iha
      obtain ⟨hb, hlistb⟩ := ihb
      obtain ⟨hindexed, hlist⟩ := ha.union hb
      refine ⟨hindexed, ?_⟩
      calc (a.union b).toList
          = enterAll (enterAll [] (enterAll [] es)) (enterAll [] es') := by
            rw [hlist, hlista, hlistb, enterAll_append]
        _ = enterAll [] (es ++ es') := by
            rw [enterAll_enterAll, enterAll_enterAll, enterAll_append]

/-- The keys of a dictionary are those that its operations inserted. -/
theorem Records.mem_keys (h : d.Records es) :
    key ∈ d.toList.map (·.1.key) ↔ key ∈ es.map (·.1.key) := by
  rw [h.spec.2, mem_keys_enterAll]
  simp

/-- There are as many entries as distinct keys. -/
theorem Records.size_eq (h : d.Records es) : d.size = (es.map (·.1.key)).dedup.length := by
  have hperm : (d.toList.map (·.1.key)).Perm (es.map (·.1.key)).dedup := by
    rw [List.perm_ext_iff_of_nodup h.spec.1.nodup (List.nodup_dedup _)]
    intro key
    rw [List.mem_dedup, h.mem_keys]
  simpa [size, toList] using hperm.length_eq

/-- The dictionary was made by operations. -/
def Made (d : Dict) : Prop := ∃ es, d.Records es

theorem Made.empty : Made .empty := ⟨[], .ofEntries rfl⟩

theorem Made.put (hd : d.Made) (hk : k.hashable = true) (v : Value) : (d.put k.key k v).Made := by
  obtain ⟨es, hes⟩ := hd
  refine ⟨es ++ [(k, v)], hes.insert ?_⟩
  rw [Dict.insert, Value.dictKey_of_hashable hk]
  rfl

theorem Made.union {a b : Dict} (ha : a.Made) (hb : b.Made) : (a.union b).Made := by
  obtain ⟨es, hes⟩ := ha
  obtain ⟨es', hes'⟩ := hb
  exact ⟨es ++ es', hes.union hes'⟩

/-! ## Unions -/

section Union

variable {a b : Dict} {es' : List (Value × Value)}

/-- The union is the first dictionary after the entries of the second one were inserted. -/
theorem Records.toList_union (ha : a.Records es) (hb : b.Records es') :
    (a.union b).toList = enterAll a.toList b.toList := by
  rw [(ha.union hb).spec.2, ha.spec.2, hb.spec.2, enterAll_enterAll, enterAll_append]

/-- Inserting the entries of a dictionary one after the other makes its list. -/
theorem Records.enterAll_toList (ha : a.Records es) : enterAll [] a.toList = a.toList := by
  rw [ha.spec.2, enterAll_enterAll]

/-- In a union the second dictionary is asked first. -/
theorem Records.find?_union (ha : a.Records es) (hb : b.Records es') (key : Key) :
    (a.union b).find? key = (b.find? key).or (a.find? key) := by
  have hlatest : b.find? key = latest? key b.toList := by
    rw [hb.spec.1.find?_eq, ← search_enterAll, hb.enterAll_toList]
  rw [(ha.union hb).spec.1.find?_eq, ha.toList_union hb, search_enterAll_or, ha.spec.1.find?_eq,
    hlatest]

/-- The second dictionary decides about the keys that it has. -/
theorem Records.get?_union (ha : a.Records es) (hb : b.Records es') (k : Value) :
    (a.union b).get? k = if k.key ∈ b.toList.map (·.1.key) then b.get? k else a.get? k := by
  cases hk : k.hashable with
  | false =>
      rw [get?_of_unhashable hk, get?_of_unhashable hk, get?_of_unhashable hk]
      split <;> rfl
  | true =>
      rw [get?_of_hashable hk, get?_of_hashable hk, get?_of_hashable hk, ha.find?_union hb]
      split
      · rename_i hmem
        obtain ⟨e, he, hkey⟩ := List.mem_map.mp hmem
        have hfound : b.find? k.key = some e.2 := by
          rw [hb.spec.1.find?_eq, ← hkey]
          exact search_of_present hb.spec.1.nodup he
        rw [hfound, Option.some_or]
      · rename_i hmem
        have hnone : b.find? k.key = none := by
          rw [hb.spec.1.find?_eq]
          exact search_of_absent hmem
        rw [hnone, Option.none_or]

/-- The keys of the first dictionary come first, and then those that only the second one has. -/
theorem Records.keys_union (ha : a.Records es) (hb : b.Records es') :
    (a.union b).toList.map (·.1) = a.toList.map (·.1)
      ++ (b.toList.map (·.1)).filter fun k => k.key ∉ a.toList.map (·.1.key) := by
  have hkeys : ∀ {d : Dict}, d.Indexed → ((d.toList.map (·.1)).map Value.key).Nodup := by
    intro d hd
    rw [List.map_map]
    exact hd.nodup
  have hfirst : distinct (a.toList.map (·.1)) = a.toList.map (·.1) := by
    rw [distinct, difference, distinctBeyond_of_nodup (hkeys ha.spec.1), List.filter_eq_self]
    simp
  rw [(ha.spec.1.union hb.spec.1).2, map_fst_enterAll, List.map_append, distinct, difference,
    distinctBeyond_append, List.map_nil, List.append_nil, distinctBeyond_of_nodup (hkeys hb.spec.1),
    List.map_map]
  exact congrArg (· ++ _) hfirst

end Union

end Dict

/-- A dictionary in the heap changes as `Dict.insert` says. -/
theorem Heap.insertEntry_of_hashable {h : Heap} {r : Ref .dict} {d : Dict} {k : Value}
    (hd : h.dicts.get? r = some d) (hk : k.hashable = true) (v : Value) :
    (h.insertEntry r k v).1 = .ok ()
      ∧ d.insert k v = .ok ((h.insertEntry r k v).2.dictionary r) := by
  rw [Heap.insertEntry, Value.dictKey_of_hashable hk, Dict.insert_of_hashable hk]
  simp [Heap.dictionary, hd]

/-- A key that is not hashable is refused before anything is changed. -/
theorem Heap.insertEntry_of_unhashable {k : Value} (hk : k.hashable = false) (h : Heap)
    (r : Ref .dict) (v : Value) : h.insertEntry r k v = (.error .unhashableKey, h) := by
  rw [Heap.insertEntry, Value.dictKey, hk]
  rfl

/-- **A dictionary is an ordered map.** In one that was made by inserting the entries `es`, in this
    order, the index leads from a key exactly to the position whose key value it identifies, every
    entry is indexed, and no two entries are under one key. Under each key is the value inserted
    last, the keys are in the order of their first insertions, as they were first inserted, and
    there are as many entries as distinct keys. Inserting under a key that is there replaces the
    value in its place, and under a new key it appends. An unhashable key is refused, and a
    dictionary in the heap then stays as it is. -/
theorem dict_ordered_map {d : Dict} {es : List (Value × Value)} (hd : d.Records es) :
    (∀ (key : Key) (i : Nat), d.index[key]? = some i
        ↔ ∃ e : Value × Value, d.entries[i]? = some e ∧ e.1.dictKey = .ok key)
      ∧ (∀ (i : Nat) (e : Value × Value), d.entries[i]? = some e →
          ∃ key, e.1.dictKey = .ok key ∧ d.index[key]? = some i)
      ∧ (d.toList.map (·.1.key)).Nodup
      ∧ (∀ k : Value, k.hashable = true → d.get? k = .ok (Dict.latest? k.key es))
      ∧ d.toList.map (·.1) = distinct (es.map (·.1))
      ∧ d.size = (es.map (·.1.key)).dedup.length
      ∧ (∀ (k v : Value) (i : Nat) (e : Value × Value), k.hashable = true →
          d.entries[i]? = some e → e.1.key = k.key →
          ∃ d', d.insert k v = .ok d' ∧ d'.toList = d.toList.set i (e.1, v))
      ∧ (∀ k v : Value, k.hashable = true → k.key ∉ es.map (·.1.key) →
          ∃ d', d.insert k v = .ok d' ∧ d'.toList = d.toList ++ [(k, v)])
      ∧ (∀ k v : Value, k.hashable = false →
          d.get? k = .error .unhashableKey ∧ d.insert k v = .error .unhashableKey)
      ∧ ∀ (h : Heap) (r : Ref .dict) (k v : Value), h.dicts.get? r = some d →
          (k.hashable = true → (h.insertEntry r k v).1 = .ok ()
            ∧ d.insert k v = .ok ((h.insertEntry r k v).2.dictionary r))
          ∧ (k.hashable = false → h.insertEntry r k v = (.error .unhashableKey, h)) := by
  -- Everything follows from what the dictionary lists and from its index being that of the list.
  obtain ⟨hindexed, hlist⟩ := hd.spec
  have hindex : ∀ (key : Key) (i : Nat), d.index[key]? = some i
      ↔ ∃ e : Value × Value, d.entries[i]? = some e ∧ e.1.dictKey = .ok key := by
    intro key i
    rw [hindexed.index_iff, Dict.toList]
    simp only [Array.getElem?_toList]
  refine ⟨hindex, fun i e he => ?_, hindexed.nodup, fun k hk => ?_, ?_, hd.size_eq, ?_, ?_,
    fun k v hk => ⟨Dict.get?_of_unhashable hk, Dict.insert_of_unhashable hk⟩,
    fun h r k v hr => ⟨fun hk => Heap.insertEntry_of_hashable hr hk v,
      fun hk => Heap.insertEntry_of_unhashable hk h r v⟩⟩
  · have hmem : e ∈ d.toList := List.mem_of_getElem? (by simpa [Dict.toList] using he)
    have hkey := Value.dictKey_of_hashable (hindexed.hashable e.1 (List.mem_map_of_mem hmem))
    exact ⟨e.1.key, hkey, (hindex _ i).mpr ⟨e, he, hkey⟩⟩
  · rw [Dict.get?_of_hashable hk, hindexed.find?_eq, hlist, Dict.search_enterAll]
  · rw [hlist, Dict.map_fst_enterAll]
  · intro k v i e hk he hkey
    refine ⟨_, Dict.insert_of_hashable hk, ?_⟩
    rw [(hindexed.put hk).2]
    exact Dict.enter_of_present hindexed.nodup (by simpa [Dict.toList] using he) hkey
  · intro k v hk hkey
    refine ⟨_, Dict.insert_of_hashable hk, ?_⟩
    rw [(hindexed.put hk).2, Dict.enter_of_absent (mt hd.mem_keys.mp hkey)]

/-- Two keys are inserted, and a union brings the first one once more, with another value. -/
theorem dict_ordered_map_union : ∃ d : Dict,
    d.Records [(.string "a", .nil), (.nil, .nil), (.string "a", .bool true)]
      ∧ d.toList.map (·.1) = [.string "a", .nil]
      ∧ d.get? (.string "a") = .ok (some (.bool true))
      ∧ d.size = 2 := by
  have ha : Dict.ofEntries [(.string "a", .nil)] = .ok (Dict.empty.put _ (.string "a") .nil) := rfl
  have hb : Dict.ofEntries [(.string "a", .bool true)]
      = .ok (Dict.empty.put _ (.string "a") (.bool true)) := rfl
  have hd := ((Dict.Records.ofEntries ha).insert (k := .nil) (v := .nil) rfl).union (.ofEntries hb)
  obtain ⟨-, -, -, hget, hkeys, hsize, -⟩ := dict_ordered_map hd
  exact ⟨_, hd, hkeys, hget (.string "a") rfl, hsize⟩

end Script
