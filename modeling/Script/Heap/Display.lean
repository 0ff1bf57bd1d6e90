import Script.Heap
import Script.Decimal.Layout
import Script.Text.Quoted

/-!
# `Heap.Display` — values as text

A string stands for itself; inside a list or a dictionary it is quoted. Lists and dictionaries can
hold each other, so the text of a value is built to a depth that no value without a cycle exceeds:
such a value nests at most every list and every dictionary once.
-/

namespace Script.Heap

/-- The text of a class. -/
def classText (h : Heap) (r : Ref .cls) : String :=
  match (h.classes.get? r).bind (·.superClass) with
  | some s => "<class " ++ h.className r ++ " extends " ++ h.className s ++ ">"
  | none => "<class " ++ h.className r ++ ">"

/-- The text of a value inside a collection, to a depth. A list or dictionary that contains itself
    has no text, and writing it out would never return; what this gives for one is cut off at the
    depth. -/
def nestedText (h : Heap) : Nat → Value → String
  | _, .nil => "<nil>"
  | _, .bool true => "true"
  | _, .bool false => "false"
  | _, .number x => Decimal.plain x
  | _, .string s => Text.quoted s
  | 0, .list _ => ""
  | depth + 1, .list r =>
    "[" ++ ", ".intercalate ((h.elements r).toList.map (nestedText h depth)) ++ "]"
  | 0, .dict _ => ""
  | depth + 1, .dict r =>
    "\x7b" ++ ", ".intercalate ((h.dictionary r).toList.map fun e =>
      nestedText h depth e.1 ++ ": " ++ nestedText h depth e.2) ++ "\x7d"
  | _, .function r => "<fn " ++ ((h.functions.get? r).map (·.declaration.title)).getD "" ++ ">"
  | _, .builtin _ => "<fn native>"
  | _, .cls r => h.classText r
  | _, .inst r =>
    "<instance <class " ++ ((h.instances.get? r).map (h.className ·.cls)).getD "" ++ ">>"
  | _, .host _ => "<instance native>"

/-- The text of a value. -/
def display (h : Heap) : Value → String
  | .string s => s
  | v => h.nestedText (h.lists.size + h.dicts.size + 1) v

/-- The outer shape of a value, with the length of a collection in place of its contents. -/
def shape (h : Heap) : Value → String
  | .nil => "Nil"
  | .bool b => "Bool(" ++ (if b then "true" else "false") ++ ")"
  | .number x => "Number(" ++ Decimal.explicit x ++ ")"
  | .string s => "String(" ++ Text.quoted s ++ ")"
  | .list r => "List(List(len=" ++ toString (h.elements r).size ++ "))"
  | .dict r => "Dict(Dict(len=" ++ toString (h.dictionary r).size ++ "))"
  | v => v.typeName

end Script.Heap
