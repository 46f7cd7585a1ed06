import DocQuery.Predicate
import DocQuery.Proofs.Json.Equality

/- Comparisons of two operands. Main statement: the six comparators go together as those of a
partial order do, in which an operand without a value is in order with nothing. -/

namespace DocQuery

theorem Extended.compare?_swap (x y : Extended) :
    y.compare? x = (x.compare? y).map Ordering.swap := by
  cases x <;> cases y
  case finite.finite => exact congrArg some Std.OrientedOrd.eq_swap
  case infinity.infinity => exact congrArg some Std.OrientedOrd.eq_swap
  case finite.infinity _ negative => cases negative <;> rfl
  case infinity.finite negative _ => cases negative <;> rfl
  all_goals rfl

namespace Json

/-- Values of a kind that has no order of its own. -/
def isUnordered : Json → Bool
  | .null => true
  | .array _ => true
  | .object _ => true
  | _ => false

/-- How one value stands to another where both are in order: as numbers if one of them is a number,
by their kind if they are strings or booleans, and as equals of any other kind. -/
inductive Ordered : Json → Json → Ordering → Prop
  | number {a b : Json} {order : Ordering} : a.isNumber = true ∨ b.isNumber = true →
      a.toExtended.compare? b.toExtended = some order → Ordered a b order
  | string {s t : String} : Ordered (.string s) (.string t) (compare s t)
  | bool {x y : Bool} : Ordered (.bool x) (.bool y) (compare x y)
  | same {a b : Json} : a.isUnordered = true → a.same b = true → Ordered a b .eq

theorem compare?_of_isNumber {a b : Json} (h : a.isNumber = true ∨ b.isNumber = true) :
    a.compare? b = a.toExtended.compare? b.toExtended := if_pos (Bool.or_eq_true_iff.mpr h)

theorem compare?_of_isUnordered {a b : Json} (ha : a.isUnordered = true)
    (hb : b.isUnordered = true) : a.compare? b = if a.same b then some .eq else none := by
  cases a <;> cases b <;> first | rfl | contradiction

theorem isUnordered_of_same {a b : Json} (ha : a.isUnordered = true) (h : a.same b = true) :
    b.isUnordered = true := by
  cases a <;> cases b <;> first | rfl | contradiction

theorem compare?_eq_some_iff {a b : Json} {order : Ordering} :
    a.compare? b = some order ↔ a.Ordered b order := by
  constructor
  · intro h
    by_cases hnumber : a.isNumber = true ∨ b.isNumber = true
    · rw [compare?_of_isNumber hnumber] at h
      exact .number hnumber h
    · by_cases hunordered : a.isUnordered = true ∧ b.isUnordered = true
      · rw [compare?_of_isUnordered hunordered.1 hunordered.2] at h
        obtain ⟨hsame, horder⟩ := Option.ite_none_right_eq_some.mp h
        exact Option.some.inj horder ▸ .same hunordered.1 hsame
      · cases a <;> cases b
        case string.string => exact Option.some.inj h ▸ .string
        case bool.bool => exact Option.some.inj h ▸ .bool
        all_goals simp [isNumber, isUnordered, compare?, same] at hnumber hunordered h
  · intro h
    cases h with
    | number hnumber h => rwa [compare?_of_isNumber hnumber]
    | string => rfl
    | bool => rfl
    | same ha h => rw [compare?_of_isUnordered ha (isUnordered_of_same ha h), if_pos h]

/-- What is in order stands the other way round from the other side. -/
theorem Ordered.swap {a b : Json} (ha : a.WellFormed) (hb : b.WellFormed) {order : Ordering}
    (h : a.Ordered b order) : b.Ordered a order.swap := by
  cases h with
  | number hnumber h =>
    refine .number hnumber.symm ?_
    rw [Extended.compare?_swap, h]
    rfl
  | @string s t =>
    have hswap : compare t s = (compare s t).swap := Std.OrientedOrd.eq_swap
    exact hswap ▸ .string
  | @bool x y =>
    have hswap : compare y x = (compare x y).swap := Std.OrientedOrd.eq_swap
    exact hswap ▸ .bool
  | same hunordered h => exact .same (isUnordered_of_same hunordered h) (ha.same_symm hb h)

theorem compare?_swap {a b : Json} (ha : a.WellFormed) (hb : b.WellFormed) :
    b.compare? a = (a.compare? b).map Ordering.swap := by
  cases hab : a.compare? b with
  | some order => exact compare?_eq_some_iff.mpr ((compare?_eq_some_iff.mp hab).swap ha hb)
  | none =>
    cases hba : b.compare? a with
    | none => rfl
    | some order =>
      have hswap := compare?_eq_some_iff.mpr ((compare?_eq_some_iff.mp hba).swap hb ha)
      rw [hab] at hswap
      contradiction

theorem WellFormed.ordered_self {a : Json} (h : a.WellFormed) : a.Ordered a .eq := by
  cases h with
  | number n => exact .number (.inl rfl) (congrArg some Std.ReflOrd.compare_self)
  | string s =>
    have hself : compare s s = .eq := Std.ReflOrd.compare_self
    exact hself ▸ .string
  | bool b =>
    have hself : compare b b = .eq := Std.ReflOrd.compare_self
    exact hself ▸ .bool
  | null => exact .same rfl rfl
  | array hitems => exact .same rfl (WellFormed.array hitems).same_self
  | object hdistinct hfields => exact .same rfl (WellFormed.object hdistinct hfields).same_self

end Json

/-- A literal is a document in which no object holds a key twice. -/
def Operand.WellFormed : Operand → Prop
  | field _ => True
  | literal value => value.WellFormed

namespace Operand

variable {element : Json} {a b : Operand}

theorem compare?_eq_some_iff {order : Ordering} : a.compare? b element = some order ↔
    ∃ x y, a.resolve element = some x ∧ b.resolve element = some y ∧ x.Ordered y order := by
  simp only [compare?, Option.bind_eq_bind, Option.bind_eq_some_iff, Json.compare?_eq_some_iff]
  constructor
  · rintro ⟨x, hx, y, hy, h⟩
    exact ⟨x, y, hx, hy, h⟩
  · rintro ⟨x, y, hx, hy, h⟩
    exact ⟨x, hx, y, hy, h⟩

theorem WellFormed.of_resolve (ha : a.WellFormed) (he : element.WellFormed) {x : Json}
    (hx : a.resolve element = some x) : x.WellFormed := by
  cases a with
  | literal value => exact Option.some.inj hx ▸ ha
  | field name =>
    cases he with
    | object _ hfields => exact hfields _ (Fields.mem_of_get? hx)
    | _ => contradiction

theorem compare?_swap (he : element.WellFormed) (ha : a.WellFormed) (hb : b.WellFormed) :
    b.compare? a element = (a.compare? b element).map Ordering.swap := by
  rw [compare?, compare?]
  cases hx : a.resolve element with
  | none => cases b.resolve element <;> rfl
  | some x =>
    cases hy : b.resolve element with
    | none => rfl
    | some y => exact Json.compare?_swap (ha.of_resolve he hx) (hb.of_resolve he hy)

theorem compare?_self_iff (he : element.WellFormed) (ha : a.WellFormed) :
    a.compare? a element = some .eq ↔ (a.resolve element).isSome = true := by
  rw [compare?_eq_some_iff, Option.isSome_iff_exists]
  constructor
  · rintro ⟨x, _, hx, _⟩
    exact ⟨x, hx⟩
  · rintro ⟨x, hx⟩
    exact ⟨x, x, hx, hx, (ha.of_resolve he hx).ordered_self⟩

end Operand

namespace Comparator

/-- A comparison of two operands holds of an element. -/
def Relates (op : Comparator) (element : Json) (a b : Operand) : Prop :=
  (Predicate.compare op a b).holds element = true

instance (op : Comparator) (element : Json) (a b : Operand) : Decidable (op.Relates element a b) :=
  inferInstanceAs (Decidable (_ = true))

/-- The comparator that says the same with its sides swapped. -/
def turned : Comparator → Comparator
  | equal => equal
  | notEqual => notEqual
  | less => greater
  | lessEqual => greaterEqual
  | greater => less
  | greaterEqual => lessEqual

theorem accepts_turned (op : Comparator) (order : Option Ordering) :
    op.turned.accepts (order.map Ordering.swap) = op.accepts order := by
  cases order with
  | none => cases op <;> rfl
  | some order => cases op <;> cases order <;> rfl

/-- Greater or equal is the negation of less but for what is in no order. -/
theorem not_accepts_less_ne_iff (order : Option Ordering) :
    (!less.accepts order) ≠ greaterEqual.accepts order ↔ order = none := by
  cases order with
  | none => decide
  | some order => cases order <;> decide

section Relates

variable {element : Json} {a b : Operand}

theorem relates_turned_iff (he : element.WellFormed) (ha : a.WellFormed) (hb : b.WellFormed)
    (op : Comparator) : op.turned.Relates element b a ↔ op.Relates element a b := by
  rw [Relates, Relates, Predicate.holds, Predicate.holds, Operand.compare?_swap he ha hb,
    accepts_turned]

theorem relates_notEqual_iff : notEqual.Relates element a b ↔ ¬ equal.Relates element a b :=
  bne_iff_ne.trans (not_congr beq_iff_eq.symm)

theorem relates_less_iff : less.Relates element a b ↔ a.compare? b element = some .lt := beq_iff_eq

theorem relates_equal_iff :
    equal.Relates element a b ↔ a.compare? b element = some .eq := beq_iff_eq

theorem relates_greater_iff :
    greater.Relates element a b ↔ a.compare? b element = some .gt := beq_iff_eq

theorem relates_lessEqual_iff :
    lessEqual.Relates element a b ↔ less.Relates element a b ∨ equal.Relates element a b :=
  Bool.or_eq_true_iff

theorem compare?_eq_none_iff : a.compare? b element = none ↔
    ¬ less.Relates element a b ∧ ¬ equal.Relates element a b ∧ ¬ greater.Relates element a b := by
  rw [relates_less_iff, relates_equal_iff, relates_greater_iff]
  cases a.compare? b element with
  | none => simp
  | some order => cases order <;> simp

end Relates

end Comparator

/-- The comparators together. An operand that has a value equals itself, to swap the sides is to
turn the comparator round, and at most one of less, equal and greater holds. None of them holds
where the operands are in no order, and only there greater or equal is not the negation of less. -/
theorem comparison_laws {element : Json} {a b : Operand} (he : element.WellFormed)
    (ha : a.WellFormed) (hb : b.WellFormed) :
    (Comparator.notEqual.Relates element a b ↔ ¬ Comparator.equal.Relates element a b) ∧
    (Comparator.equal.Relates element a b ↔ Comparator.equal.Relates element b a) ∧
    (Comparator.notEqual.Relates element a b ↔ Comparator.notEqual.Relates element b a) ∧
    (Comparator.less.Relates element a b ↔ Comparator.greater.Relates element b a) ∧
    (Comparator.lessEqual.Relates element a b ↔ Comparator.greaterEqual.Relates element b a) ∧
    (Comparator.lessEqual.Relates element a b ↔
      Comparator.less.Relates element a b ∨ Comparator.equal.Relates element a b) ∧
    ¬ (Comparator.less.Relates element a b ∧ Comparator.equal.Relates element a b) ∧
    ¬ (Comparator.less.Relates element a b ∧ Comparator.greater.Relates element a b) ∧
    ¬ (Comparator.equal.Relates element a b ∧ Comparator.greater.Relates element a b) ∧
    (Comparator.equal.Relates element a a ↔ (a.resolve element).isSome = true) ∧
    ((Predicate.not (.compare .less a b)).holds element ≠
        (Predicate.compare .greaterEqual a b).holds element ↔
      ¬ Comparator.less.Relates element a b ∧ ¬ Comparator.equal.Relates element a b ∧
        ¬ Comparator.greater.Relates element a b) := by
  have hturned := Comparator.relates_turned_iff he ha hb
  have hone {x y : Ordering} (hne : x ≠ y) :
      ¬ (a.compare? b element = some x ∧ a.compare? b element = some y) := by
    rintro ⟨hx, hy⟩
    exact hne (Option.some.inj (hx.symm.trans hy))
  refine ⟨Comparator.relates_notEqual_iff, (hturned .equal).symm, (hturned .notEqual).symm,
    (hturned .less).symm, (hturned .lessEqual).symm, Comparator.relates_lessEqual_iff,
    ?_, ?_, ?_, ?_, ?_⟩
  · rw [Comparator.relates_less_iff, Comparator.relates_equal_iff]
    exact hone (by decide)
  · rw [Comparator.relates_less_iff, Comparator.relates_greater_iff]
    exact hone (by decide)
  · rw [Comparator.relates_equal_iff, Comparator.relates_greater_iff]
    exact hone (by decide)
  · rw [Comparator.relates_equal_iff, Operand.compare?_self_iff he ha]
  · rw [← Comparator.compare?_eq_none_iff]
    exact Comparator.not_accepts_less_ne_iff _

def sizedElement : Json :=
  .object [("p", .object [("x", .null), ("y", .array [])]), ("n", .string "ten")]

/-- The object in the element, with its fields in another order. -/
def Operand.swapped : Operand := .literal (.object [("y", .array []), ("x", .null)])

/-- An object equals one with its fields in another order, from both sides. A text that is no number
is in no order with one, so it is neither less nor greater. -/
theorem comparison_laws_object :
    sizedElement.WellFormed ∧ Operand.swapped.WellFormed ∧
    Comparator.equal.Relates sizedElement .swapped (.field "p") ∧
    ¬ Comparator.notEqual.Relates sizedElement (.field "p") .swapped ∧
    (Predicate.not (.compare .less (.field "n") (.literal (.number (.float .one))))).holds
        sizedElement ≠
      (Predicate.compare .greaterEqual (.field "n") (.literal (.number (.float .one)))).holds
        sizedElement := by
  have he : sizedElement.WellFormed := by
    simp [sizedElement, Fields.Distinct, Fields.keys]
  have hswapped : Operand.swapped.WellFormed := by
    simp [Operand.swapped, Operand.WellFormed, Fields.Distinct, Fields.keys]
  have hone : (Operand.literal (.number (.float .one))).WellFormed := .number _
  have hequal : Comparator.equal.Relates sizedElement (.field "p") .swapped := by decide +kernel
  obtain ⟨hnegation, hsymm, -⟩ := comparison_laws he (a := .field "p") trivial hswapped
  obtain ⟨-, -, -, -, -, -, -, -, -, -, hnone⟩ :=
    comparison_laws he (a := .field "n") trivial hone
  exact ⟨he, hswapped, hsymm.mp hequal, fun hne => hnegation.mp hne hequal,
    hnone.mpr (by decide +kernel)⟩

end DocQuery
