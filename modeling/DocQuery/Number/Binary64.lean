/- Finite binary64 numbers held exactly, their order, and rounding of quotients and decimals to them. -/

namespace DocQuery

/-- A finite binary64 number: `mantissa * 2 ^ shift` units of `2 ^ -1074`. The mantissa has at most
53 bits, and exactly 53 where it is shifted. Zero keeps its sign. -/
structure Binary64 where
  negative : Bool
  mantissa : Nat
  shift : Nat
  mantissa_lt : mantissa < 9007199254740992
  shift_le : shift ≤ 2045
  canonical : shift = 0 ∨ 4503599627370496 ≤ mantissa
deriving DecidableEq

namespace Binary64

/-- The decimal places of a unit, and the power of two that a unit divides one into. -/
def unitPlaces : Nat := 1074

def units (x : Binary64) : Nat := x.mantissa <<< x.shift

theorem log2_shiftLeft {n : Nat} (h : 0 < n) (k : Nat) : (n <<< k).log2 = n.log2 + k := by
  obtain ⟨hlow, hhigh⟩ := (Nat.log2_eq_iff (Nat.ne_of_gt h)).mp rfl
  rw [Nat.log2_eq_iff (Nat.ne_of_gt (Nat.shiftLeft_pos_iff.mpr h)), Nat.shiftLeft_eq,
    Nat.add_right_comm, Nat.pow_add, Nat.pow_add]
  exact ⟨Nat.mul_le_mul_right _ hlow, Nat.mul_lt_mul_of_pos_right hhigh (Nat.two_pow_pos k)⟩

def value (x : Binary64) : Int := if x.negative then -x.units else x.units

/-- Numbers are ordered by value, so the two zeros compare equal. -/
def order (x y : Binary64) : Ordering := compare x.value y.value

def zero (negative : Bool) : Binary64 :=
  ⟨negative, 0, 0, by decide, by decide, .inl rfl⟩

def one : Binary64 := ⟨false, 4503599627370496, 1022, by decide, by decide, .inr (by decide)⟩

def isZero (x : Binary64) : Bool := x.mantissa == 0

def ofParts? (negative : Bool) (mantissa shift : Nat) : Option Binary64 :=
  if h : mantissa < 9007199254740992 ∧ shift ≤ 2045 ∧
      (shift = 0 ∨ 4503599627370496 ≤ mantissa) then
    some ⟨negative, mantissa, shift, h.1, h.2.1, h.2.2⟩
  else none

theorem ofParts?_parts (x : Binary64) : ofParts? x.negative x.mantissa x.shift = some x :=
  dif_pos ⟨x.mantissa_lt, x.shift_le, x.canonical⟩

theorem ofParts?_isSome {negative : Bool} {mantissa shift : Nat}
    (hm : mantissa < 9007199254740992) (hs : shift ≤ 2045)
    (hc : shift = 0 ∨ 4503599627370496 ≤ mantissa) :
    (ofParts? negative mantissa shift).isSome = true := by
  rw [ofParts?, dif_pos ⟨hm, hs, hc⟩]
  rfl

/-- A quotient rounded to the nearest whole number, ties to the even one. -/
def divNearest (n d : Nat) : Nat :=
  if 2 * (n % d) < d ∨ (2 * (n % d) = d ∧ n / d % 2 = 0) then n / d else n / d + 1

theorem divNearest_mul {d : Nat} (hd : 0 < d) (m : Nat) : divNearest (m * d) d = m := by
  have hr : m * d % d = 0 := Nat.mul_mod_left m d
  have hq : m * d / d = m := Nat.mul_div_cancel m hd
  rw [divNearest, hr, hq]
  exact if_pos (.inl hd)

theorem div_le_divNearest (n d : Nat) : n / d ≤ divNearest n d := by
  unfold divNearest
  split
  · exact Nat.le_refl _
  · exact Nat.le_succ _

/-- The power of two that brings a magnitude of `n` units down to at most 53 bits. -/
def shiftFor (n : Nat) : Nat := n.log2 - 52

theorem le_log2_iff {n : Nat} (h : 0 < n) : 52 ≤ n.log2 ↔ 4503599627370496 ≤ n :=
  Nat.le_log2 (Nat.ne_of_gt h)

theorem log2_lt_iff {n : Nat} (h : 0 < n) : n.log2 < 53 ↔ n < 9007199254740992 :=
  Nat.log2_lt (Nat.ne_of_gt h)

theorem shiftFor_units (x : Binary64) : shiftFor x.units = x.shift := by
  rw [shiftFor, units]
  rcases Nat.eq_zero_or_pos x.mantissa with h0 | hp
  · have hs : x.shift = 0 := x.canonical.resolve_right (by rw [h0]; decide)
    rw [h0, hs]
    rfl
  · have hhigh := (log2_lt_iff hp).mpr x.mantissa_lt
    rw [log2_shiftLeft hp]
    rcases x.canonical with hs | hc
    · omega
    · have hlow := (le_log2_iff hp).mpr hc
      omega

/-- The number nearest to `n / d` units, ties to the even mantissa; `none` beyond the largest. -/
def ofQuotient? (negative : Bool) (n d : Nat) : Option Binary64 :=
  let shift := shiftFor (n / d)
  let mantissa := divNearest n (d <<< shift)
  if mantissa < 9007199254740992 then ofParts? negative mantissa shift
  else ofParts? negative 4503599627370496 (shift + 1)

/-- Rounding leaves a representable quotient alone. -/
theorem ofQuotient?_units (x : Binary64) {d : Nat} (hd : 0 < d) :
    ofQuotient? x.negative (x.units * d) d = some x := by
  have hq : x.units * d / d = x.units := Nat.mul_div_cancel _ hd
  have hm : divNearest (x.units * d) (d <<< x.shift) = x.mantissa := by
    have : x.units * d = x.mantissa * d <<< x.shift := by
      rw [units, Nat.shiftLeft_eq, Nat.shiftLeft_eq, Nat.mul_assoc, Nat.mul_comm (2 ^ x.shift) d]
    rw [this]
    exact divNearest_mul (Nat.shiftLeft_pos_iff.mpr hd) _
  rw [ofQuotient?, hq, shiftFor_units, hm, if_pos x.mantissa_lt]
  exact ofParts?_parts x

theorem ofQuotient?_isSome {n d : Nat} (h : (n / d).log2 < 2097) (negative : Bool) :
    (ofQuotient? negative n d).isSome = true := by
  have hshift : shiftFor (n / d) ≤ 2044 := by
    rw [shiftFor]
    omega
  rw [ofQuotient?]
  split
  · next hm =>
    refine ofParts?_isSome hm (by omega) ?_
    rcases Nat.eq_zero_or_pos (shiftFor (n / d)) with h0 | hp
    · exact .inl h0
    · refine .inr (Nat.le_trans ?_ (div_le_divNearest _ _))
      have hlow : 52 + shiftFor (n / d) ≤ (n / d).log2 := by
        rw [shiftFor] at hp ⊢
        omega
      have hne : n / d ≠ 0 := by
        intro h0
        rw [h0] at hp
        exact absurd hp (by decide)
      rw [Nat.shiftLeft_eq, ← Nat.div_div_eq_div_mul, Nat.le_div_iff_mul_le (Nat.two_pow_pos _)]
      rw [Nat.le_log2 hne, Nat.pow_add] at hlow
      exact hlow
  · exact ofParts?_isSome (by decide) (by omega) (.inr (Nat.le_refl _))

/-- The number nearest to `significand * 10 ^ exponent`; `none` beyond the largest. Exponents far
outside the range are settled by size alone. -/
def ofDecimal? (negative : Bool) (significand : Nat) (exponent : Int) : Option Binary64 :=
  if significand = 0 then some (zero negative)
  else if 310 < exponent then none
  else if significand.log2 + 1 + exponent < -330 then some (zero negative)
  else ofQuotient? negative ((significand * Nat.pow 10 exponent.toNat) <<< unitPlaces)
    (Nat.pow 10 (-exponent).toNat)

theorem log2_shiftLeft_lt {n : Nat} (h : n < 18446744073709551616) :
    (n <<< unitPlaces / 1).log2 < 2097 := by
  have hplaces : unitPlaces = 1074 := rfl
  rw [Nat.div_one]
  rcases Nat.eq_zero_or_pos n with h0 | hp
  · rw [h0, Nat.zero_shiftLeft, Nat.log2_zero]
    decide
  · have hlog : n.log2 < 64 := (Nat.log2_lt (Nat.ne_of_gt hp)).mpr h
    rw [log2_shiftLeft hp]
    omega

def ofInt (n : Int) (h : n.natAbs < 18446744073709551616) : Binary64 :=
  (ofQuotient? (n < 0) (n.natAbs <<< unitPlaces) 1).get
    (ofQuotient?_isSome (log2_shiftLeft_lt h) _)

end Binary64

/-- A binary64 number, an infinity, or the value that is no number. -/
inductive Extended where
  | finite (x : Binary64)
  | infinity (negative : Bool)
  | nan
deriving DecidableEq

namespace Extended

def compare? : Extended → Extended → Option Ordering
  | .nan, _ => none
  | _, .nan => none
  | .finite x, .finite y => some (x.order y)
  | .finite _, .infinity negative => some (if negative then .gt else .lt)
  | .infinity negative, .finite _ => some (if negative then .lt else .gt)
  | .infinity a, .infinity b => some (compare b a)

def ofDecimal (negative : Bool) (significand : Nat) (exponent : Int) : Extended :=
  match Binary64.ofDecimal? negative significand exponent with
  | some x => .finite x
  | none => .infinity negative

end Extended
end DocQuery
