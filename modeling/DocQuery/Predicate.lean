import DocQuery.Json.Order
import DocQuery.Path.Basic

/- The meaning of predicates: whether a candidate element satisfies one. -/

namespace DocQuery

def Operand.resolve : Operand → Json → Option Json
  | field name, element => element.get? name
  | literal value, _ => some value

/-- The orders of its sides for which a comparison holds; `none` stands for sides that are missing
or not in order. -/
def Comparator.accepts : Comparator → Option Ordering → Bool
  | equal, order => order == some .eq
  | notEqual, order => order != some .eq
  | less, order => order == some .lt
  | lessEqual, order => order == some .lt || order == some .eq
  | greater, order => order == some .gt
  | greaterEqual, order => order == some .gt || order == some .eq

def Operand.compare? (left right : Operand) (element : Json) : Option Ordering := do
  let a ← left.resolve element
  let b ← right.resolve element
  a.compare? b

def Predicate.holds : Predicate → Json → Bool
  | compare op left right, element => op.accepts (left.compare? right element)
  | and left right, element => left.holds element && right.holds element
  | not inner, element => !inner.holds element
  | truthy operand, element => (operand.resolve element).any Json.isTruthy

end DocQuery
