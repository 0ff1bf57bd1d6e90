import Std.Data.HashMap
import Script.Value

/-!
# `Value.Dict` — dictionaries

A dictionary keeps its entries in the order in which their keys were first inserted, and an index
from keys to positions. Inserting under a key that is there changes the value and keeps both the
position and the key first inserted.
-/

namespace Script

/-- A dictionary: its entries, and where the entry of each key stands. -/
structure Dict where
  index : Std.HashMap Key Nat
  entries : Array (Value × Value)
  deriving Inhabited

namespace Dict

/-- No entries. -/
def empty : Dict := ⟨∅, #[]⟩

/-- The number of entries. -/
def size (d : Dict) : Nat := d.entries.size

/-- The entries in order. -/
def toList (d : Dict) : List (Value × Value) := d.entries.toList

/-- Inserts an entry whose key value is identified by `key`. -/
def put (d : Dict) (key : Key) (keyValue value : Value) : Dict :=
  match d.index[key]? with
  | some position => { d with entries := d.entries.modify position fun e => (e.1, value) }
  | none => ⟨d.index.insert key d.entries.size, d.entries.push (keyValue, value)⟩

/-- The value under a key. -/
def find? (d : Dict) (key : Key) : Option Value :=
  (d.index[key]?).bind fun position => (d.entries[position]?).map (·.2)

/-- The value under a key value, which has to be hashable. -/
def get? (d : Dict) (keyValue : Value) : Except Fault (Option Value) := do
  let key ← keyValue.dictKey
  return d.find? key

/-- Inserts an entry, whose key value has to be hashable. -/
def insert (d : Dict) (keyValue value : Value) : Except Fault Dict := do
  let key ← keyValue.dictKey
  return d.put key keyValue value

/-- Inserts entries one after the other. -/
def insertAll (d : Dict) : List (Value × Value) → Except Fault Dict
  | [] => .ok d
  | (k, v) :: rest => do (← d.insert k v).insertAll rest

/-- The dictionary of some entries. -/
def ofEntries (entries : List (Value × Value)) : Except Fault Dict := empty.insertAll entries

/-- The entries of two dictionaries, where the values of the second win. -/
def union (a b : Dict) : Dict :=
  (a.toList ++ b.toList).foldl (fun d e => d.put e.1.key e.1 e.2) empty

/-! ## One insertion -/

theorem put_of_present {d : Dict} {key : Key} {position : Nat} (h : d.index[key]? = some position)
    (k v : Value) :
    d.put key k v = { d with entries := d.entries.modify position fun e => (e.1, v) } := by
  simp [put, h]

theorem put_of_absent {d : Dict} {key : Key} (h : d.index[key]? = none) (k v : Value) :
    d.put key k v = ⟨d.index.insert key d.entries.size, d.entries.push (k, v)⟩ := by
  simp [put, h]

/-- Changing the value of an entry keeps every key. -/
theorem keys_modify (entries : Array (Value × Value)) (position : Nat) (v : Value) :
    (entries.modify position fun e => (e.1, v)).toList.map (·.1) = entries.toList.map (·.1) := by
  apply List.ext_getElem?
  intro i
  simp only [List.getElem?_map, Array.getElem?_toList, Array.getElem?_modify]
  split <;> simp [Function.comp_def]

/-- The keys that were there stay where they were. -/
theorem keys_put (d : Dict) (key : Key) (k v : Value) :
    d.toList.map (·.1) <+: (d.put key k v).toList.map (·.1) := by
  cases h : d.index[key]? with
  | some position =>
      rw [put_of_present h]
      exact ⟨[], by rw [List.append_nil]; exact (keys_modify d.entries position v).symm⟩
  | none =>
      rw [put_of_absent h]
      simp [toList]

end Dict

end Script
