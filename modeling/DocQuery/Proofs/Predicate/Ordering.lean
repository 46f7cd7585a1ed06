import DocQuery.Proofs.Predicate.Comparison

/- Comparisons by order. Main statement: where one holds, its sides are comparable: a number and
what counts as one, strings, or booleans. Those that allow equals also hold of the same null, array
or object on both sides. -/

namespace DocQuery

theorem Extended.compare?_eq_none_iff {x y : Extended} :
    x.compare? y = none ↔ x = .nan ∨ y = .nan := by
  cases x <;> cases y <;> simp [compare?]

namespace Json

/-- Values between which there is an order: a number and what counts as one, strings, booleans. -/
inductive Comparable : Json → Json → Prop
  | number {a b : Json} : a.isNumber = true ∨ b.isNumber = true → a.toExtended ≠ .nan →
      b.toExtended ≠ .nan → Comparable a b
  | string {s t : String} : Comparable (.string s) (.string t)
  | bool {x y : Bool} : Comparable (.bool x) (.bool y)

theorem Ordered.comparable_or_same {a b : Json} {order : Ordering} (h : a.Ordered b order) :
    a.Comparable b ∨ (order = .eq ∧ a.isUnordered = true ∧ a.same b = true) := by
  cases h with
  | number hnumber h =>
    have hnan : ¬ (a.toExtended = .nan ∨ b.toExtended = .nan) := by
      rw [← Extended.compare?_eq_none_iff, h]
      exact Option.some_ne_none order
    obtain ⟨ha, hb⟩ := not_or.mp hnan
    exact .inl (.number hnumber ha hb)
  | string => exact .inl .string
  | bool => exact .inl .bool
  | same hunordered h => exact .inr ⟨rfl, hunordered, h⟩

theorem isNumber_of_isUnordered {a : Json} (h : a.isUnordered = true) : a.isNumber = false := by
  cases a <;> first | rfl | contradiction

theorem not_comparable_of_same {a b : Json} (ha : a.isUnordered = true) (h : a.same b = true) :
    ¬ a.Comparable b := by
  intro hcomparable
  cases hcomparable with
  | number hnumber _ _ =>
    rw [isNumber_of_isUnordered ha, isNumber_of_isUnordered (isUnordered_of_same ha h)] at hnumber
    exact hnumber.elim Bool.false_ne_true Bool.false_ne_true
  | string => contradiction
  | bool => contradiction

end Json

/-- The comparators by order, whether they allow equals or not. -/
def Comparator.byOrder : List Comparator := [.less, .lessEqual, .greater, .greaterEqual]

theorem Comparator.isSome_of_accepts {op : Comparator} (hop : op ∈ byOrder)
    {order : Option Ordering} (h : op.accepts order = true) : order.isSome = true := by
  cases order with
  | some order => rfl
  | none => cases op <;> first | exact h | exact absurd hop (by decide)

theorem Comparator.accepts_eq_iff {op : Comparator} (hop : op ∈ byOrder) :
    op.accepts (some .eq) = true ↔ op = .lessEqual ∨ op = .greaterEqual := by
  cases op <;> first | decide | exact absurd hop (by decide)

namespace Operand

def Comparable (element : Json) (a b : Operand) : Prop :=
  ∃ x y, a.resolve element = some x ∧ b.resolve element = some y ∧ x.Comparable y

def SameUnordered (element : Json) (a b : Operand) : Prop :=
  ∃ x y, a.resolve element = some x ∧ b.resolve element = some y ∧ x.isUnordered = true ∧
    x.same y = true

variable {element : Json} {a b : Operand}

theorem comparable_or_same {order : Ordering} (h : a.compare? b element = some order) :
    Comparable element a b ∨ (order = .eq ∧ SameUnordered element a b) := by
  obtain ⟨x, y, hx, hy, h⟩ := compare?_eq_some_iff.mp h
  rcases h.comparable_or_same with h | ⟨horder, hunordered, hsame⟩
  · exact .inl ⟨x, y, hx, hy, h⟩
  · exact .inr ⟨horder, x, y, hx, hy, hunordered, hsame⟩

theorem SameUnordered.compare? (h : SameUnordered element a b) :
    a.compare? b element = some .eq := by
  obtain ⟨x, y, hx, hy, hunordered, hsame⟩ := h
  exact compare?_eq_some_iff.mpr ⟨x, y, hx, hy, .same hunordered hsame⟩

theorem SameUnordered.not_comparable (h : SameUnordered element a b) :
    ¬ Comparable element a b := by
  obtain ⟨x, y, hx, hy, hunordered, hsame⟩ := h
  rintro ⟨x', y', hx', hy', hcomparable⟩
  obtain rfl := Option.some.inj (hx.symm.trans hx')
  obtain rfl := Option.some.inj (hy.symm.trans hy')
  exact Json.not_comparable_of_same hunordered hsame hcomparable

end Operand

/-- A comparison by order that holds of an element is one of comparable operands, except where it
allows equals and the operands are the same null, array or object. -/
theorem comparable_of_relates_iff {op : Comparator} (hop : op ∈ Comparator.byOrder)
    (element : Json) (a b : Operand) :
    (op.Relates element a b → Operand.Comparable element a b) ↔
      ¬ ((op = .lessEqual ∨ op = .greaterEqual) ∧ Operand.SameUnordered element a b) := by
  constructor
  · rintro hcomparable ⟨hequals, hsame⟩
    refine hsame.not_comparable (hcomparable ?_)
    rw [Comparator.Relates, Predicate.holds, hsame.compare?]
    exact (Comparator.accepts_eq_iff hop).mpr hequals
  · intro hexcept hrelates
    rw [Comparator.Relates, Predicate.holds] at hrelates
    obtain ⟨order, horder⟩ :=
      Option.isSome_iff_exists.mp (Comparator.isSome_of_accepts hop hrelates)
    rcases Operand.comparable_or_same horder with h | ⟨rfl, hsame⟩
    · exact h
    · rw [horder] at hrelates
      exact absurd ⟨(Comparator.accepts_eq_iff hop).mp hrelates, hsame⟩ hexcept

/-- A text that counts as a number is comparable with one. -/
theorem comparable_of_relates_text :
    Comparator.lessEqual ∈ Comparator.byOrder ∧
    ¬ Operand.SameUnordered (.object [("size", .string " 1e0 ")]) (.field "size")
      (.literal (.number (.float .one))) ∧
    Comparator.lessEqual.Relates (.object [("size", .string " 1e0 ")]) (.field "size")
      (.literal (.number (.float .one))) ∧
    Operand.Comparable (.object [("size", .string " 1e0 ")]) (.field "size")
      (.literal (.number (.float .one))) := by
  have hsame : ¬ Operand.SameUnordered (.object [("size", .string " 1e0 ")]) (.field "size")
      (.literal (.number (.float .one))) := by
    rintro ⟨x, y, hx, -, hunordered, -⟩
    obtain rfl := Option.some.inj hx
    contradiction
  have hrelates : Comparator.lessEqual.Relates (.object [("size", .string " 1e0 ")])
      (.field "size") (.literal (.number (.float .one))) := by decide +kernel
  exact ⟨by decide, hsame, hrelates,
    (comparable_of_relates_iff (by decide) _ _ _).mpr (fun h => hsame h.2) hrelates⟩

/-- Two nulls are less or equal, but nothing orders them. -/
theorem not_comparable_of_relates :
    Comparator.lessEqual.Relates (.object [("a", .null), ("b", .null)]) (.field "a") (.field "b") ∧
    ¬ Operand.Comparable (.object [("a", .null), ("b", .null)]) (.field "a") (.field "b") :=
  ⟨rfl, Operand.SameUnordered.not_comparable ⟨.null, .null, rfl, rfl, rfl, rfl⟩⟩

end DocQuery
