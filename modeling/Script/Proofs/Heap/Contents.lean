import Script.Eval.Builtins
import Script.Heap.Operators
import Script.Eval.Statement
import Script.Value.Slice

/-!
# `Proofs.Heap.Contents` — values that are made of other values

Selecting from a list, iterating over it and joining dictionaries only hand out values that were
there before. So a property of the values that go in is one of the values that come out. What the
operators can come to is said once, for one operand and for two (`Heap.ComesTo`).
-/

namespace Script

variable {P : Value → Prop}

/-- Whether a value is plain data and refers to nothing. -/
def Value.isPlain : Value → Bool
  | .nil | .bool _ | .number _ | .string _ => true
  | _ => false

/-- Whether a value is a list or a dictionary. -/
def Value.isContainer : Value → Bool
  | .list _ => true
  | .dict _ => true
  | _ => false

@[simp] theorem Constant.isPlain_value (c : Constant) : c.value.isPlain = true := by
  cases c <;> rfl

namespace Operator

variable {op : Operator} {v : Value}

theorem isPlain_onNil {both : Bool} (hv : op.onNil both = .ok v) : v.isPlain = true := by
  cases op <;> cases hv <;> rfl

theorem isPlain_onNumbers {x y : Float} (hv : op.onNumbers x y = .ok v) : v.isPlain = true := by
  cases op <;> cases hv <;> rfl

theorem isPlain_onStrings {x y : String} (hv : op.onStrings x y = .ok v) : v.isPlain = true := by
  cases op <;> cases hv <;> rfl

end Operator

/-! ## Selections -/

/-- The values of a selection. -/
def Selection.values {α : Type} : Selection α → List α
  | .element v => [v]
  | .items vs => vs

/-- Every n-th element is an element. -/
theorem everyNth_subset {α : Type} (step skip : Nat) (items : List α) :
    everyNth step skip items ⊆ items := by
  induction items generalizing skip with
  | nil => cases skip <;> exact List.Subset.refl _
  | cons a rest ih =>
      cases skip with
      | zero => exact List.cons_subset_cons a (ih (step - 1))
      | succ skip => exact List.subset_cons_of_subset a (ih skip)

/-- A stretch of a list has elements of the list only. -/
theorem Slice.stretch?_subset {α : Type} {s e : Nat} {items picked : List α}
    (h : Slice.stretch? s e items = some picked) : picked ⊆ items := by
  unfold Slice.stretch? at h
  split at h
  · cases h
    exact List.Subset.trans (List.take_subset _ _) (List.drop_subset _ _)
  · cases h

/-- What a slice picks are elements, in whichever direction it goes. -/
theorem Slice.between?_subset {α : Type} {start stop step : Option Int} {items picked : List α}
    (h : Slice.between? start stop step items = some picked) : picked ⊆ items := by
  unfold Slice.between? at h
  dsimp only at h
  split at h
  · cases h
    exact List.nil_subset _
  · obtain ⟨middle, hmiddle, h⟩ := Option.bind_eq_some_iff.mp h
    have hsub : middle ⊆ items := Slice.stretch?_subset hmiddle
    split at h
    · cases h
      exact hsub
    · split at h
      · cases h
        exact List.nil_subset _
      · unfold Slice.stepBy? at h
        split at h
        · cases h
        · cases h
          exact List.Subset.trans (everyNth_subset _ _ _) hsub

/-- What is selected was there. -/
theorem Slice.select_subset {α : Type} {s : Slice} {items : Array α} {selection : Selection α}
    (h : s.select items = .ok selection) : selection.values ⊆ items.toList := by
  have hread : s.select? items = some (.ok selection) := by rw [Slice.select?_eq, h]
  cases s with
  | index position =>
      simp only [Slice.select?] at hread
      split at hread
      · cases hread
      · obtain ⟨v, hv, hok⟩ := Option.map_eq_some_iff.mp hread
        cases hok
        have hmem : v ∈ items.toList := Array.mem_toList_iff.mpr (Array.mem_of_getElem? hv)
        exact List.cons_subset.mpr ⟨hmem, List.nil_subset _⟩
  | range start stop step =>
      obtain ⟨picked, hpicked, hok⟩ := Option.map_eq_some_iff.mp hread
      cases hok
      exact Slice.between?_subset hpicked

/-! ## Tables -/

/-- `P` holds of everything that a name stands for. -/
def Bindings.All {α : Type} (P : α → Prop) (b : Bindings α) : Prop := ∀ p ∈ b.entries, P p.2

namespace Bindings.All

variable {α : Type} {P Q : α → Prop} {b : Bindings α}

theorem empty : (Bindings.empty : Bindings α).All P := nofun

theorem mono (hb : b.All P) (hPQ : ∀ a, P a → Q a) : b.All Q := fun p hp => hPQ p.2 (hb p hp)

/-- A name gets a value with `P`, and the other names keep theirs. -/
theorem set (hb : b.All P) (name : String) {a : α} (ha : P a) : (b.set name a).All P := by
  obtain ⟨entries⟩ := b
  have hplace : ∀ p ∈ place name a entries, P p.2 := by
    induction entries with
    | nil => exact List.forall_mem_singleton.mpr ha
    | cons q rest ih =>
        obtain ⟨hq, hrest⟩ := List.forall_mem_cons.mp hb
        unfold place
        split
        · exact List.forall_mem_cons.mpr ⟨ha, hrest⟩
        · exact List.forall_mem_cons.mpr ⟨hq, ih hrest⟩
  exact hplace

/-- What a name stands for is among the entries, where the search for it ends. -/
theorem get? (hb : b.All P) {name : String} {a : α} (h : b.get? name = some a) : P a := by
  obtain ⟨entries⟩ := b
  unfold Bindings.get? at h
  induction entries with
  | nil => cases h
  | cons q rest ih =>
      obtain ⟨hq, hrest⟩ := List.forall_mem_cons.mp hb
      unfold find? at h
      split at h
      · cases h
        exact hq
      · exact ih hrest h

theorem sorted (hb : b.All P) : ∀ p ∈ b.sorted, P p.2 :=
  fun p hp => hb p (List.mem_mergeSort.mp hp)

end Bindings.All

/-! ## Dictionaries -/

/-- `P` holds of all keys and values. -/
def Dict.All (P : Value → Prop) (d : Dict) : Prop := ∀ e ∈ d.toList, P e.1 ∧ P e.2

namespace Dict.All

variable {d d' : Dict}

theorem empty : Dict.empty.All P := nofun

/-- An entry is added or gets another value. If it is there, its own key stays, and that has `P`
    already. -/
theorem put (hd : d.All P) (key : Key) {k v : Value} (hk : P k) (hv : P v) :
    (d.put key k v).All P := by
  intro e he
  cases hindex : d.index[key]? with
  | none =>
      rw [put_of_absent hindex] at he
      simp only [Dict.toList, Array.toList_push, List.mem_append, List.mem_singleton] at he
      obtain he | rfl := he
      · exact hd e he
      · exact ⟨hk, hv⟩
  | some position =>
      rw [put_of_present hindex] at he
      obtain ⟨i, hi⟩ := List.mem_iff_getElem?.mp he
      simp only [Dict.toList, Array.getElem?_toList, Array.getElem?_modify] at hi
      split at hi
      · obtain ⟨e', he', rfl⟩ := Option.map_eq_some_iff.mp hi
        exact ⟨(hd e' (Array.mem_toList_iff.mpr (Array.mem_of_getElem? he'))).1, hv⟩
      · exact hd e (Array.mem_toList_iff.mpr (Array.mem_of_getElem? hi))

/-- Insertions one after the other. -/
theorem insertAll (hd : d.All P) {es : List (Value × Value)} (hes : ∀ e ∈ es, P e.1 ∧ P e.2)
    (h : d.insertAll es = .ok d') : d'.All P := by
  induction es generalizing d with
  | nil =>
      cases h
      exact hd
  | cons e rest ih =>
      obtain ⟨k, v⟩ := e
      obtain ⟨⟨hk, hv⟩, hrest⟩ := List.forall_mem_cons.mp hes
      simp only [Dict.insertAll, Dict.insert] at h
      cases hkey : k.dictKey with
      | error fault =>
          rw [hkey] at h
          cases h
      | ok key =>
          rw [hkey] at h
          exact ih (hd.put key hk hv) hrest h

theorem ofEntries {es : List (Value × Value)} (hes : ∀ e ∈ es, P e.1 ∧ P e.2)
    (h : Dict.ofEntries es = .ok d) : d.All P :=
  empty.insertAll hes h

theorem union (hd : d.All P) (hd' : d'.All P) : (d.union d').All P := by
  have hfold : ∀ (es : List (Value × Value)) (d : Dict), d.All P → (∀ e ∈ es, P e.1 ∧ P e.2) →
      (es.foldl (fun d e => d.put e.1.key e.1 e.2) d).All P := by
    intro es
    induction es with
    | nil => exact fun _ hd _ => hd
    | cons e rest ih =>
        intro d hd hes
        obtain ⟨he, hrest⟩ := List.forall_mem_cons.mp hes
        exact ih _ (hd.put e.1.key he.1 he.2) hrest
  exact hfold _ _ empty (List.forall_mem_append.mpr ⟨hd, hd'⟩)

/-- What is found under a key is the value of an entry. -/
theorem get? (hd : d.All P) {k v : Value} (h : d.get? k = .ok (some v)) : P v := by
  unfold Dict.get? at h
  cases hkey : k.dictKey with
  | error fault =>
      rw [hkey] at h
      cases h
  | ok key =>
      rw [hkey] at h
      have hfind : d.find? key = some v := Except.ok.inj h
      unfold Dict.find? at hfind
      obtain ⟨position, -, hentry⟩ := Option.bind_eq_some_iff.mp hfind
      obtain ⟨e, he, rfl⟩ := Option.map_eq_some_iff.mp hentry
      exact (hd e (Array.mem_toList_iff.mpr (Array.mem_of_getElem? he))).2

end Dict.All

/-- A description of a file is made of plain data. -/
theorem Builtin.describe_all (hplain : ∀ v : Value, v.isPlain = true → P v) (name : String)
    (e : Entry) : (Builtin.describe name e).All P := by
  unfold Builtin.describe
  exact ((Dict.All.empty.put _ (hplain _ rfl) (hplain _ rfl)).put _ (hplain _ rfl)
    (hplain _ rfl)).put _ (hplain _ rfl) (hplain _ rfl)

theorem Builtin.ofEntries_describe (name : String) (e : Entry) :
    Dict.ofEntries [(.string "name", .string name),
        (.string "size", .number (Float.ofNat e.size)), (.string "is_dir", .bool e.isDirectory)]
      = .ok (Builtin.describe name e) := rfl

/-! ## Rows -/

theorem Heap.unpack_all {h : Heap} {n : Nat} {v : Value} {row : List Value}
    (hlist : ∀ {r}, P (.list r) → ∀ v ∈ (h.elements r).toList, P v) (hv : P v)
    (hrow : Heap.rows.unpack h n v = .ok row) : ∀ w ∈ row, P w := by
  unfold Heap.rows.unpack at hrow
  split at hrow
  · split at hrow
    · cases hrow
      exact hlist hv
    · cases hrow
  · cases hrow

/-- If every value is unpacked, the rows hold elements of the lists among the values. -/
theorem Heap.unpackAll_all {h : Heap} {n : Nat} {vs : List Value} {rows : List (List Value)}
    (hlist : ∀ {r}, P (.list r) → ∀ v ∈ (h.elements r).toList, P v) (hvs : ∀ v ∈ vs, P v)
    (hrows : vs.mapM (Heap.rows.unpack h n) = .ok rows) : ∀ row ∈ rows, ∀ v ∈ row, P v := by
  induction vs generalizing rows with
  | nil =>
      cases hrows
      exact nofun
  | cons v vs ih =>
      obtain ⟨hv, hvs⟩ := List.forall_mem_cons.mp hvs
      rw [List.mapM_cons] at hrows
      cases hfirst : Heap.rows.unpack h n v with
      | error fault =>
          rw [hfirst] at hrows
          cases hrows
      | ok row =>
          rw [hfirst] at hrows
          cases hrest : vs.mapM (Heap.rows.unpack h n) with
          | error fault =>
              rw [hrest] at hrows
              cases hrows
          | ok rest =>
              rw [hrest] at hrows
              cases hrows
              exact List.forall_mem_cons.mpr ⟨unpack_all hlist hv hfirst, ih hvs hrest⟩

/-- The rows of a collection hold its elements, or those of the lists in it. -/
theorem Heap.rows_all {h : Heap} {n : Nat} {collection : Value} {rows : List (List Value)}
    (hlist : ∀ {r}, P (.list r) → ∀ v ∈ (h.elements r).toList, P v)
    (hdict : ∀ {r}, P (.dict r) → (h.dictionary r).All P) (hc : P collection)
    (hrows : h.rows n collection = .ok rows) : ∀ row ∈ rows, ∀ v ∈ row, P v := by
  unfold Heap.rows at hrows
  split at hrows
  · split at hrows
    · cases hrows
      simpa using hlist hc
    · exact unpackAll_all hlist (hlist hc) hrows
  · split at hrows
    · cases hrows
    · cases hrows
      -- A row of a dictionary is a key, or a key with its value.
      intro row hrow v hv
      obtain ⟨e, he, rfl⟩ := List.mem_map.mp hrow
      obtain ⟨hkey, hvalue⟩ := hdict hc e he
      split at hv
      · rw [List.mem_singleton.mp hv]
        exact hkey
      · obtain rfl | hv := List.mem_cons.mp hv
        · exact hkey
        · rw [List.mem_singleton.mp hv]
          exact hvalue
  · cases hrows

/-! ## What operators come to -/

/-- What an operator may come to, for the value on its left and those on its right: plain data, a
    list or a dictionary made of the operands, or a call of what the value on the left defines. -/
inductive Heap.ComesTo (h : Heap) (op : Operator) : Value → List Value → Applied → Prop
  | plain {l : Value} {rs : List Value} {v : Value} :
      v.isPlain = true → ComesTo h op l rs (.value v)
  | concatenation (x y : Ref .list) :
      ComesTo h op (.list x) [.list y] (.newList (h.elements x ++ h.elements y))
  | difference (x y : Ref .list) :
      ComesTo h op (.list x) [.list y]
        (.newList (difference (h.elements x).toList (h.elements y).toList).toArray)
  | distinct (x : Ref .list) :
      ComesTo h op (.list x) [] (.newList (distinct (h.elements x).toList).toArray)
  | union (x y : Ref .dict) :
      ComesTo h op (.dict x) [.dict y] (.newDict ((h.dictionary x).union (h.dictionary y)))
  | method {r : Ref .inst} {rs : List Value} {f : Function} :
      h.instanceMethod? r op.method = some f → ComesTo h op (.inst r) rs (.method f r rs)
  | hosted {r : Ref .host} {rs : List Value} {f : Ref .builtin} :
      h.hostOperator? r op = some f → ComesTo h op (.host r) rs (.hosted f rs)

namespace Heap.ComesTo

variable {h : Heap} {op : Operator} {l r v : Value} {rs : List Value} {a : Applied}

/-- An outcome that can only be plain data is something that an operator may come to. -/
theorem of_map {outcome : Except Fault Value} (hplain : ∀ v, outcome = .ok v → v.isPlain = true)
    (ha : outcome.map Applied.value = .ok a) : h.ComesTo op l rs a := by
  cases outcome with
  | error fault => cases ha
  | ok v =>
      cases ha
      exact .plain (hplain v rfl)

theorem of_onLists {x y : Ref .list} (ha : h.onLists x y op = .ok a) :
    h.ComesTo op (.list x) [.list y] a := by
  cases op <;> cases ha
  case add => exact .concatenation x y
  case sub => exact .difference x y
  case eq => exact .plain rfl
  case neq => exact .plain rfl

theorem of_onDicts {x y : Ref .dict} (ha : h.onDicts x y op = .ok a) :
    h.ComesTo op (.dict x) [.dict y] a := by
  cases op <;> cases ha
  case add => exact .union x y
  case eq => exact .plain rfl
  case neq => exact .plain rfl

theorem of_overloaded {x : Ref .inst} (ha : h.overloaded op x rs = .ok a) :
    h.ComesTo op (.inst x) rs a := by
  unfold Heap.overloaded at ha
  split at ha
  · rename_i f hf
    cases ha
    exact .method hf
  · cases ha

theorem of_hostOverloaded {x : Ref .host} (ha : h.hostOverloaded op x rs = .ok a) :
    h.ComesTo op (.host x) rs a := by
  unfold Heap.hostOverloaded at ha
  split at ha
  · rename_i f hf
    cases ha
    exact .hosted hf
  · cases ha

/-- What a binary operator comes to. An instance or a host object answers only if it is on the
    left. -/
theorem of_binary (ha : h.binary op l r = .ok a) : h.ComesTo op l [r] a := by
  -- `nil` on either side comes first. Otherwise the left operand decides what the right one may be.
  unfold Heap.binary at ha
  split at ha
  · exact of_map (fun _ => Operator.isPlain_onNil) ha
  · exact of_map (fun _ => Operator.isPlain_onNil) ha
  · exact of_map (fun _ => Operator.isPlain_onNil) ha
  · exact of_map (fun _ => Operator.isPlain_onNumbers) ha
  · cases ha
  · split at ha
    · cases ha
    · split at ha
      · exact of_map (fun _ => Operator.isPlain_onStrings) ha
      · cases ha
  · split at ha
    · cases ha
    · split at ha
      · exact of_onLists ha
      · cases ha
  · split at ha
    · cases ha
    · split at ha
      · exact of_onDicts ha
      · cases ha
  · exact of_overloaded ha
  · exact of_hostOverloaded ha
  · cases ha

/-- A unary operator is the case without values on the right. -/
theorem of_unary (ha : h.unary op v = .ok a) : h.ComesTo op v [] a := by
  unfold Heap.unary at ha
  split at ha
  · cases ha
    exact .plain rfl
  · cases ha
    exact .distinct _
  · exact of_overloaded ha
  · exact of_hostOverloaded ha
  · cases ha

end Heap.ComesTo

end Script
