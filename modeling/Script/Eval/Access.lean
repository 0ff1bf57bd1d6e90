import Script.Eval.Evaluator
import Script.Decimal.Binary
import Script.Value.Slice

/-!
# `Eval.Access` — indexes and slices

Reading and writing `object[…]` evaluate the object first and then the parts in brackets. A
dictionary takes one key; lists and strings take numbers, which are cut to whole ones.
-/

namespace Script

/-- A number as an index: cut to a whole one, and moved into the range of 64 bits. -/
def indexOfNumber (x : Float) : Int :=
  Decimal.clampedWhole (-Nat.pow 2 63) (Nat.pow 2 63 - 1) x

namespace Evaluator

open Step (inspect allocate attempt failAt blame ofExcept)

/-- A part of a slice. -/
def component (ev : Evaluator) (part : Option Expr) (bracket : Token) (scope : Ref .scope) :
    Step RuntimeError (Option Int) := do
  match part with
  | none => return none
  | some e =>
    match ← ev.expression e scope with
    | .number x => return some (indexOfNumber x)
    | _ => failAt .onlyNumbers bracket

/-- What the brackets of an access select. -/
def slice (ev : Evaluator) (a : Access) (scope : Ref .scope) : Step RuntimeError Slice := do
  match a.secondColon, a.third with
  | some colon, none => failAt .expectedStep colon
  | _, _ =>
    let first ← ev.component a.first a.bracket scope
    if a.isIndex then
      match first with
      | some position => return .index position
      | none => failAt .invalidAccess a.bracket
    else
      let second ← ev.component a.second a.bracket scope
      let third ← ev.component a.third a.bracket scope
      return .range first second third

/-- The key in the brackets of an access. -/
def key (ev : Evaluator) (a : Access) (scope : Ref .scope) : Step RuntimeError Value := do
  match a.first with
  | some e => if a.isIndex then ev.expression e scope else failAt .expectedKey a.bracket
  | none => failAt .expectedKey a.bracket

/-- Reads through an access. -/
def read (ev : Evaluator) (a : Access) (scope : Ref .scope) : Step RuntimeError Value := do
  match ← ev.expression a.object scope with
  | .dict r =>
    let k ← ev.key a scope
    let found ← inspect fun h => (h.dictionary r).get? k
    return (← blame a.bracket (ofExcept found)).getD .nil
  | .list r =>
    let s ← ev.slice a scope
    let selected ← inspect fun h => s.select (h.elements r)
    match ← blame a.bracket (ofExcept selected) with
    | .element v => return v
    | .items vs => allocate (·.newList vs.toArray)
  | .string text =>
    let s ← ev.slice a scope
    match ← blame a.bracket (ofExcept (s.select text.toList.toArray)) with
    | .element c => return .string (String.ofList [c])
    | .items cs => return .string (String.ofList cs)
  | _ => failAt .invalidAccess a.bracket

/-- Stores a value through an access. -/
def store (ev : Evaluator) (a : Access) (v : Value) (scope : Ref .scope) :
    Step RuntimeError Unit := do
  match ← ev.expression a.object scope with
  | .dict r =>
    let k ← ev.key a scope
    blame a.bracket (attempt (·.insertEntry r k v))
  | .list r =>
    match ← ev.slice a scope with
    | .index position =>
      if position < 0 then failAt .indexOutOfRange a.bracket
      else blame a.bracket (attempt (·.setElement r position.toNat v))
    | .range _ _ _ => failAt .invalidAccess a.bracket
  | _ => failAt .invalidAccess a.bracket

end Evaluator

end Script
