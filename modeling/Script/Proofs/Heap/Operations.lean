import Script.Heap.Operators
import Script.Proofs.Heap.Reach
import Script.Proofs.Value.Dictionary

/-!
# `Proofs.Heap.Operations` — operators carried out

`Heap.binary` and `Heap.unary` find out what an operator comes to, and `Heap.carryOut` makes the
object that it comes to. `Heap.operate` and `Heap.operateOn` are the two together.

Whatever an operator comes to, carrying it out leaves every object as it is (`keptIn_carryOut`), and
what the operators of lists and dictionaries make is a new object. The main statements say what is
in it: `list_set_operators` for lists, and `dict_union_monoid` for dictionaries.
-/

namespace Script

namespace Heap

variable {h h' : Heap}

/-- Applies an operator to two values: what is left to do, and the heap then. -/
def operate (h : Heap) (op : Operator) (l r : Value) : Except Fault (Dispatch × Heap) :=
  (h.binary op l r).map h.carryOut

/-- Applies an operator to one value: what is left to do, and the heap then. -/
def operateOn (h : Heap) (op : Operator) (v : Value) : Except Fault (Dispatch × Heap) :=
  (h.unary op v).map h.carryOut

/-! ## What was there -/

theorem KeptIn.refl (h : Heap) : h.KeptIn h := by
  constructor <;> exact fun _ _ ha => ha

theorem KeptIn.newList (hk : h.KeptIn h') (vs : Array Value) : h.KeptIn (h'.newList vs).2 :=
  { hk with lists := fun r a ha => Store.keptIn_push _ vs r a (hk.lists r a ha) }

theorem KeptIn.newDict (hk : h.KeptIn h') (d : Dict) : h.KeptIn (h'.newDict d).2 :=
  { hk with dicts := fun r a ha => Store.keptIn_push _ d r a (hk.dicts r a ha) }

/-- A bound method is a new function, and the scope that it is bound in is new too. -/
theorem KeptIn.boundMethod (hk : h.KeptIn h') (f : Function) (r : Ref .inst) :
    h.KeptIn (h'.boundMethod f r).2 := by
  refine { hk with scopes := ?_, functions := ?_ }
  · intro s scope hs
    have hold : h'.scopes.get? s = some scope := hk.scopes s scope hs
    have hne : s ≠ h'.scopes.next := by
      rintro rfl
      exact Nat.lt_irrefl _ (Store.lt_size_of_get? hold)
    show ((h'.scopes.push _).modify h'.scopes.next _).get? s = some scope
    rw [Store.get?_modify_ne hne]
    exact Store.keptIn_push _ _ s scope hold
  · intro s function hs
    exact Store.keptIn_push _ _ s function (hk.functions s function hs)

theorem keptIn_carryOut (h : Heap) (a : Applied) : h.KeptIn (h.carryOut a).2 := by
  cases a with
  | value v => exact .refl h
  | newList vs => exact (KeptIn.refl h).newList vs
  | newDict d => exact (KeptIn.refl h).newDict d
  | method f receiver arguments => exact (KeptIn.refl h).boundMethod f receiver
  | hosted f arguments => exact .refl h

/-! ## What is new -/

/-- The outcome is a list with these elements. It is new, and every object that was there is as it
    was. -/
def MakesList (h : Heap) (vs : List Value) (outcome : Except Fault (Dispatch × Heap)) : Prop :=
  ∃ r h', outcome = .ok (.resolved (.list r), h') ∧ h'.lists.get? r = some vs.toArray
    ∧ h.lists.get? r = none ∧ h.KeptIn h'

/-- The outcome is this dictionary. It is new, and every object that was there is as it was. -/
def MakesDict (h : Heap) (d : Dict) (outcome : Except Fault (Dispatch × Heap)) : Prop :=
  ∃ r h', outcome = .ok (.resolved (.dict r), h') ∧ h'.dicts.get? r = some d
    ∧ h.dicts.get? r = none ∧ h.KeptIn h'

theorem makesList_newList (h : Heap) (vs : List Value) :
    h.MakesList vs (.ok (h.carryOut (.newList vs.toArray))) :=
  ⟨h.lists.next, _, rfl, Store.get?_push_next _ _, Store.get?_eq_none_iff.mpr (Nat.le_refl _),
    keptIn_carryOut h (.newList vs.toArray)⟩

theorem makesDict_newDict (h : Heap) (d : Dict) :
    h.MakesDict d (.ok (h.carryOut (.newDict d))) :=
  ⟨h.dicts.next, _, rfl, Store.get?_push_next _ _, Store.get?_eq_none_iff.mpr (Nat.le_refl _),
    keptIn_carryOut h (.newDict d)⟩

end Heap

/-! ## Lists -/

section Lists

variable {h : Heap} {x y : Ref .list} {a b : List Value}

theorem Heap.elements_of_get? (hx : h.lists.get? x = some a.toArray) :
    h.elements x = a.toArray := by
  rw [Heap.elements, hx, Option.getD_some]

theorem Heap.operate_add_lists (hx : h.lists.get? x = some a.toArray)
    (hy : h.lists.get? y = some b.toArray) :
    h.MakesList (a ++ b) (h.operate .add (.list x) (.list y)) := by
  have happlied : h.binary .add (.list x) (.list y) = .ok (.newList (a ++ b).toArray) := by
    show Except.ok (Applied.newList (h.elements x ++ h.elements y)) = _
    rw [elements_of_get? hx, elements_of_get? hy, List.append_toArray]
  rw [operate, happlied]
  exact makesList_newList h (a ++ b)

theorem Heap.operate_sub_lists (hx : h.lists.get? x = some a.toArray)
    (hy : h.lists.get? y = some b.toArray) :
    h.MakesList (difference a b) (h.operate .sub (.list x) (.list y)) := by
  have happlied : h.binary .sub (.list x) (.list y) = .ok (.newList (difference a b).toArray) := by
    show Except.ok (Applied.newList
      (difference (h.elements x).toList (h.elements y).toList).toArray) = _
    rw [elements_of_get? hx, elements_of_get? hy]
  rw [operate, happlied]
  exact makesList_newList h (difference a b)

theorem Heap.operateOn_neg_list (hx : h.lists.get? x = some a.toArray) :
    h.MakesList (distinct a) (h.operateOn .neg (.list x)) := by
  have happlied : h.unary .neg (.list x) = .ok (.newList (distinct a).toArray) := by
    show Except.ok (Applied.newList (distinct (h.elements x).toList).toArray) = _
    rw [elements_of_get? hx]
  rw [operateOn, happlied]
  exact makesList_newList h (distinct a)

end Lists

/-- **Lists as sets.** The difference of two lists is made of those places of the first list at
    which a key occurs for the first time, if it does not occur in the second list at all. So it is
    a part of the first list in its order, no key occurs twice in it, and the keys in it are those
    of the first list without those of the second.

    Taking two lists away one after the other is taking them away together. To take the repetitions
    away a second time changes nothing, and to take them away from two lists together is to do so
    for the first list and to go on with what the second one has beyond the first.

    The operators `-`, `+` and the sign `-` compute just this. What they make is a new list, and
    their operands stay as they are. -/
theorem list_set_operators (a b c : List Value) :
    difference a b = (a.zipIdx.filter fun p =>
        p.1.key ∉ b.map Value.key ∧ p.1.key ∉ (a.take p.2).map Value.key).map (·.1)
      ∧ (difference a b).Sublist a
      ∧ ((difference a b).map Value.key).Nodup
      ∧ (∀ key, key ∈ (difference a b).map Value.key
          ↔ key ∈ a.map Value.key ∧ key ∉ b.map Value.key)
      ∧ difference (difference a b) c = difference a (b ++ c)
      ∧ distinct (distinct a) = distinct a
      ∧ distinct (a ++ b) = distinct a ++ difference b a
      ∧ ∀ (h : Heap) (x y : Ref .list),
          h.lists.get? x = some a.toArray → h.lists.get? y = some b.toArray →
          h.MakesList (difference a b) (h.operate .sub (.list x) (.list y))
          ∧ h.MakesList (a ++ b) (h.operate .add (.list x) (.list y))
          ∧ h.MakesList (distinct a) (h.operateOn .neg (.list x)) := by
  have hdifference : difference (difference a b) c = difference a (b ++ c) := by
    unfold difference
    rw [distinctBeyond_distinctBeyond]
    apply distinctBeyond_congr
    intro key
    rw [List.map_append, List.mem_append, List.mem_append, or_comm]
  have happend : distinct (a ++ b) = distinct a ++ difference b a := by
    unfold distinct difference
    rw [distinctBeyond_append, List.map_nil, List.append_nil]
  refine ⟨distinctBeyond_eq_filter _ a, distinctBeyond_sublist _ a, nodup_distinctBeyond _ a,
    fun key => mem_keys_distinctBeyond, hdifference, distinctBeyond_distinctBeyond [] [] a, happend,
    fun h x y hx hy => ?_⟩
  exact ⟨Heap.operate_sub_lists hx hy, Heap.operate_add_lists hx hy, Heap.operateOn_neg_list hx⟩

/-- A list with a repetition, some of whose elements occur in another one. -/
theorem list_set_operators_mixed :
    let h := ((Heap.empty.newList #[.bool true, .nil, .bool true, .string "a", .list ⟨0⟩]).2.newList
      #[.list ⟨0⟩, .nil]).2
    h.MakesList [.bool true, .string "a"] (h.operate .sub (.list ⟨0⟩) (.list ⟨1⟩))
      ∧ h.MakesList [.bool true, .nil, .string "a", .list ⟨0⟩] (h.operateOn .neg (.list ⟨0⟩)) := by
  intro h
  obtain ⟨-, -, -, -, -, -, -, hheap⟩ := list_set_operators
    [.bool true, .nil, .bool true, .string "a", .list ⟨0⟩] [.list ⟨0⟩, .nil] []
  obtain ⟨hsub, -, hneg⟩ := hheap h ⟨0⟩ ⟨1⟩ rfl rfl
  exact ⟨hsub, hneg⟩

/-! ## Dictionaries -/

theorem Heap.operate_add_dicts {h : Heap} {x y : Ref .dict} {a b : Dict}
    (hx : h.dicts.get? x = some a) (hy : h.dicts.get? y = some b) :
    h.MakesDict (a.union b) (h.operate .add (.dict x) (.dict y)) := by
  have happlied : h.binary .add (.dict x) (.dict y) = .ok (.newDict (a.union b)) := by
    show Except.ok (Applied.newDict ((h.dictionary x).union (h.dictionary y))) = _
    rw [Heap.dictionary, Heap.dictionary, hx, hy, Option.getD_some, Option.getD_some]
  rw [operate, happlied]
  exact makesDict_newDict h (a.union b)

/-- **Unions of dictionaries are a monoid in which the right side wins.** Of three dictionaries it
    does not matter which two are joined first: the entries are the same, keys and values, in the
    same order. Joining with a dictionary that has no entries changes nothing, on either side, and
    joining a dictionary with itself changes nothing. Under a key of the second dictionary is what
    the second one has there, and under any other key what the first one has. The keys are those of
    the first one, in order, and then those of the second one that the first one does not have.

    The operator `+` makes the union as a new dictionary, and its operands stay as they are. -/
theorem dict_union_monoid {a b c : Dict} {as bs cs : List (Value × Value)} (ha : a.Records as)
    (hb : b.Records bs) (hc : c.Records cs) :
    ((a.union b).union c).toList = (a.union (b.union c)).toList
      ∧ (∀ e : Dict, e.toList = [] →
          (a.union e).toList = a.toList ∧ (e.union a).toList = a.toList)
      ∧ (a.union a).toList = a.toList
      ∧ (∀ k : Value, (a.union b).get? k
          = if k.key ∈ b.toList.map (·.1.key) then b.get? k else a.get? k)
      ∧ (a.union b).toList.map (·.1) = a.toList.map (·.1)
          ++ (b.toList.map (·.1)).filter (fun k => k.key ∉ a.toList.map (·.1.key))
      ∧ ∀ (h : Heap) (x y : Ref .dict), h.dicts.get? x = some a → h.dicts.get? y = some b →
          h.MakesDict (a.union b) (h.operate .add (.dict x) (.dict y)) := by
  have hassoc : ((a.union b).union c).toList = (a.union (b.union c)).toList := by
    rw [((ha.union hb).union hc).spec.2, (ha.union (hb.union hc)).spec.2, List.append_assoc]
  have hnone : Dict.empty.Records [] := .ofEntries rfl
  have hempty : ∀ e : Dict, e.toList = [] →
      (a.union e).toList = a.toList ∧ (e.union a).toList = a.toList := by
    intro e he
    -- Only the entries of a dictionary matter, so it can be replaced by the empty one.
    have hright : a.union e = a.union .empty := by
      unfold Dict.union
      rw [he]
      rfl
    have hleft : e.union a = Dict.empty.union a := by
      unfold Dict.union
      rw [he]
      rfl
    rw [hright, hleft, ha.toList_union hnone, hnone.toList_union ha]
    exact ⟨rfl, ha.enterAll_toList⟩
  have hself : (a.union a).toList = a.toList := by
    rw [ha.toList_union ha]
    exact Dict.enterAll_of_subset ha.spec.1.nodup fun _ he => he
  exact ⟨hassoc, hempty, hself, ha.get?_union hb, ha.keys_union hb,
    fun h x y => Heap.operate_add_dicts⟩

/-- Two dictionaries that have a key in common, and one with a new key. -/
theorem dict_union_monoid_overlap : ∃ a b c : Dict,
    Dict.ofEntries [(.string "x", .nil), (.nil, .nil)] = .ok a
      ∧ Dict.ofEntries [(.bool true, .nil), (.string "x", .bool true)] = .ok b
      ∧ Dict.ofEntries [(.nil, .bool false)] = .ok c
      ∧ ((a.union b).union c).toList = (a.union (b.union c)).toList
      ∧ (a.union b).toList.map (·.1) = [.string "x", .nil, .bool true]
      ∧ (a.union b).get? (.string "x") = .ok (some (.bool true)) := by
  obtain ⟨a, ha⟩ : ∃ a, Dict.ofEntries [(.string "x", .nil), (.nil, .nil)] = .ok a := ⟨_, rfl⟩
  obtain ⟨b, hb⟩ : ∃ b, Dict.ofEntries [(.bool true, .nil), (.string "x", .bool true)] = .ok b :=
    ⟨_, rfl⟩
  obtain ⟨c, hc⟩ : ∃ c, Dict.ofEntries [(.nil, .bool false)] = .ok c := ⟨_, rfl⟩
  refine ⟨a, b, c, ha, hb, hc, ?_⟩
  have hrecords := Dict.Records.ofEntries ha
  have hrecords' := Dict.Records.ofEntries hb
  obtain ⟨hassoc, -, -, hget, hkeys, -⟩ :=
    dict_union_monoid hrecords hrecords' (Dict.Records.ofEntries hc)
  have hlist := hrecords.spec.2
  have hlist' := hrecords'.spec.2
  refine ⟨hassoc, ?_, ?_⟩
  · rw [hkeys, hlist, hlist']
    rfl
  · rw [hget, hlist', if_pos (by decide), Dict.get?_of_hashable rfl, hrecords'.spec.1.find?_eq,
      hlist']
    rfl

end Script
