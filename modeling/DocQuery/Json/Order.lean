import DocQuery.Json.Basic
import DocQuery.Text.Blank

/- Two orders of values: the partial one of comparisons, and the total one of sorting. -/

namespace DocQuery.Json

def toExtended : Json → Extended
  | .number n => .finite n.toBinary64
  | .string s => Extended.ofText (Text.trim s.toList)
  | .bool true => .finite .one
  | .bool false => .finite (.zero false)
  | _ => .nan

/-- The order of two values in a comparison. A number compares with what counts as one; strings
and booleans compare with their own kind; any other values are equal or not in order at all. -/
def compare? (a b : Json) : Option Ordering :=
  if a.isNumber || b.isNumber then a.toExtended.compare? b.toExtended
  else
    match a, b with
    | .string a, .string b => some (compare a b)
    | .bool a, .bool b => some (compare a b)
    | a, b => if a.same b then some .eq else none

def isTruthy : Json → Bool
  | .null => false
  | .bool b => b
  | .number n => !n.toBinary64.isZero
  | .string s => !s.isEmpty
  | .array _ => true
  | .object _ => true

def rank : Json → Nat
  | .null => 0
  | .bool _ => 1
  | .number _ => 2
  | .string _ => 3
  | .array _ => 4
  | .object _ => 5

/-- The order of two values in a sort: numbers, strings and booleans within their kind, and any
other values by kind alone. -/
def sortOrder : Json → Json → Ordering
  | .number a, .number b => a.order b
  | .string a, .string b => compare a b
  | .bool a, .bool b => compare a b
  | a, b => compare a.rank b.rank

end DocQuery.Json
