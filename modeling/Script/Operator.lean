import Script.Token

/-!
# `Operator` — the operators that objects can define

An object defines an operator by a method of the operator's name.
-/

namespace Script

/-- An operator. -/
inductive Operator where
  | add
  | sub
  | div
  | mod
  | mul
  | pow
  | neg
  | eq
  | neq
  | lt
  | lte
  | gt
  | gte
  deriving Repr, DecidableEq

namespace Operator

/-- Every operator. -/
def all : List Operator := [add, sub, div, mod, mul, pow, neg, eq, neq, lt, lte, gt, gte]

/-- The name of the method that defines an operator. -/
def method : Operator → String
  | add => "add"
  | sub => "sub"
  | div => "div"
  | mod => "mod"
  | mul => "mul"
  | pow => "pow"
  | neg => "neg"
  | eq => "eq"
  | neq => "neq"
  | lt => "lt"
  | lte => "lte"
  | gt => "gt"
  | gte => "gte"

/-- The operator whose method has the given name. -/
def ofMethod? (name : String) : Option Operator := all.find? (·.method == name)

/-- The operator that a token stands for between two operands. -/
def ofBinary? : TokenKind → Option Operator
  | .plus => some add
  | .minus => some sub
  | .slash => some div
  | .percent => some mod
  | .star => some mul
  | .caret => some pow
  | .equalEqual => some eq
  | .bangEqual => some neq
  | .less => some lt
  | .lessEqual => some lte
  | .greater => some gt
  | .greaterEqual => some gte
  | _ => none

end Operator

end Script
