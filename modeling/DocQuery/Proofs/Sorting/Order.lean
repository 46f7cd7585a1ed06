import DocQuery.Sorting

/- The order of sort keys. Main statement: it is a total preorder in both directions, with missing
keys last. -/

namespace DocQuery

namespace Json

/-- One value does not sort after another: numbers by value, strings by code points, false before
true, and any other values by their kinds alone. -/
inductive SortLE : Json → Json → Prop
  | number {a b : Number} : a.toBinary64.value ≤ b.toBinary64.value → SortLE (.number a) (.number b)
  | string {a b : String} : a ≤ b → SortLE (.string a) (.string b)
  | bool {a b : Bool} : (a = true → b = true) → SortLE (.bool a) (.bool b)
  | null : SortLE .null .null
  | array {as bs : List Json} : SortLE (.array as) (.array bs)
  | object {as bs : Fields} : SortLE (.object as) (.object bs)
  | kind {a b : Json} : a.rank < b.rank → SortLE a b

theorem isLE_compare_string {a b : String} : (compare a b).isLE = true ↔ a ≤ b :=
  isLE_compareOfLessAndEq String.le_antisymm String.not_le String.le_total

theorem isLE_compare_bool {a b : Bool} : (compare a b).isLE = true ↔ (a = true → b = true) := by
  revert a b
  decide

theorem sortOrder_of_rank_ne {a b : Json} (h : a.rank ≠ b.rank) :
    a.sortOrder b = compare a.rank b.rank := by
  cases a <;> cases b
  case number.number => exact absurd rfl h
  case string.string => exact absurd rfl h
  case bool.bool => exact absurd rfl h
  all_goals rfl

theorem isLE_sortOrder_iff {a b : Json} : (a.sortOrder b).isLE = true ↔ a.SortLE b := by
  constructor
  · intro h
    cases a <;> cases b
    case null.null => exact .null
    case bool.bool => exact .bool (isLE_compare_bool.mp h)
    case number.number => exact .number (Int.isLE_compare.mp h)
    case string.string => exact .string (isLE_compare_string.mp h)
    case array.array => exact .array
    case object.object => exact .object
    all_goals exact .kind (Nat.lt_of_le_of_ne (Nat.isLE_compare.mp h) (by simp [rank]))
  · intro h
    cases h with
    | number h => exact Int.isLE_compare.mpr h
    | string h => exact isLE_compare_string.mpr h
    | bool h => exact isLE_compare_bool.mpr h
    | null => rfl
    | array => rfl
    | object => rfl
    | kind h =>
      rw [sortOrder_of_rank_ne (Nat.ne_of_lt h)]
      exact Nat.isLE_compare.mpr (Nat.le_of_lt h)

theorem SortLE.rank_le {a b : Json} (h : a.SortLE b) : a.rank ≤ b.rank := by
  cases h with
  | kind h => exact Nat.le_of_lt h
  | _ => exact Nat.le_refl _

theorem SortLE.trans {a b c : Json} (hab : a.SortLE b) (hbc : b.SortLE c) : a.SortLE c := by
  cases hab with
  | kind h => exact .kind (Nat.lt_of_lt_of_le h hbc.rank_le)
  | number h =>
    cases hbc with
    | number h' => exact .number (Int.le_trans h h')
    | kind h' => exact .kind h'
  | string h =>
    cases hbc with
    | string h' => exact .string (String.le_trans h h')
    | kind h' => exact .kind h'
  | bool h =>
    cases hbc with
    | bool h' => exact .bool (h' ∘ h)
    | kind h' => exact .kind h'
  | null => exact hbc
  | array =>
    cases hbc with
    | array => exact .array
    | kind h' => exact .kind h'
  | object =>
    cases hbc with
    | object => exact .object
    | kind h' => exact .kind h'

theorem sortOrder_swap (a b : Json) : a.sortOrder b = (b.sortOrder a).swap := by
  cases a <;> cases b
  case number.number => exact Std.OrientedOrd.eq_swap
  case string.string => exact Std.OrientedOrd.eq_swap
  case bool.bool => exact Std.OrientedOrd.eq_swap
  all_goals rfl

instance : Std.TransCmp sortOrder where
  eq_swap := sortOrder_swap _ _
  isLE_trans hab hbc := by
    rw [isLE_sortOrder_iff] at hab hbc ⊢
    exact hab.trans hbc

end Json

/-- Two values in the order of a direction. -/
def Direction.InOrder : Direction → Json → Json → Prop
  | ascending, a, b => a.SortLE b
  | descending, a, b => b.SortLE a

/-- One key may stand before another in a direction. A missing key may only stand before a missing
one, whatever the direction. -/
inductive KeyLE (direction : Direction) : Option Json → Option Json → Prop
  | missing {key : Option Json} : KeyLE direction key none
  | present {a b : Json} : direction.InOrder a b → KeyLE direction (some a) (some b)

theorem isLE_compareKeys_iff {direction : Direction} {a b : Option Json} :
    (compareKeys direction a b).isLE = true ↔ KeyLE direction a b := by
  have hsome (a b : Json) :
      (compareKeys direction (some a) (some b)).isLE = true ↔ direction.InOrder a b := by
    cases direction with
    | ascending => exact Json.isLE_sortOrder_iff
    | descending =>
      rw [compareKeys, ← Json.sortOrder_swap]
      exact Json.isLE_sortOrder_iff
  constructor
  · intro h
    cases b with
    | none => exact .missing
    | some b =>
      cases a with
      | none => contradiction
      | some a => exact .present ((hsome a b).mp h)
  · intro h
    cases h with
    | missing => cases a <;> rfl
    | present h => exact (hsome _ _).mpr h

theorem Direction.InOrder.trans {direction : Direction} {a b c : Json}
    (hab : direction.InOrder a b) (hbc : direction.InOrder b c) : direction.InOrder a c := by
  cases direction with
  | ascending => exact Json.SortLE.trans hab hbc
  | descending => exact Json.SortLE.trans hbc hab

theorem KeyLE.trans {direction : Direction} {a b c : Option Json} (hab : KeyLE direction a b)
    (hbc : KeyLE direction b c) : KeyLE direction a c := by
  cases hbc with
  | missing => exact .missing
  | present hbc =>
    cases hab with
    | present hab => exact .present (hab.trans hbc)

instance (direction : Direction) : Std.TransCmp (compareKeys direction) where
  eq_swap {a b} := by
    cases a <;> cases b
    case some.some => cases direction <;> simp only [compareKeys, ← Json.sortOrder_swap]
    all_goals rfl
  isLE_trans hab hbc := by
    rw [isLE_compareKeys_iff] at hab hbc ⊢
    exact hab.trans hbc

/-- The order of sort keys is a total preorder in both directions, over keys of all kinds and
missing ones. Keys that are alike stand in the same way to every other key. -/
theorem compareKeys_preorder (direction : Direction) (a b c : Option Json) :
    compareKeys direction a a = .eq ∧
    compareKeys direction b a = (compareKeys direction a b).swap ∧
    ((compareKeys direction a b).isLE = true → (compareKeys direction b c).isLE = true →
      (compareKeys direction a c).isLE = true) ∧
    (compareKeys direction a b = .eq → compareKeys direction a c = compareKeys direction b c) ∧
    (Equivalence fun k l => compareKeys direction k l = .eq) ∧
    ((compareKeys direction a b).isLE = true ↔ KeyLE direction a b) := by
  refine ⟨Std.ReflCmp.compare_self, Std.OrientedCmp.eq_swap, Std.TransCmp.isLE_trans,
    Std.TransCmp.congr_left, ?_, isLE_compareKeys_iff⟩
  constructor
  · intro k
    exact Std.ReflCmp.compare_self
  · intro k l hkl
    exact Std.OrientedCmp.eq_symm hkl
  · intro k l m hkl hlm
    exact Std.TransCmp.eq_trans hkl hlm

end DocQuery
