import DocQuery.Number.Numeral

/- The text of a binary64 number: the fewest digits that read back to it. Main statement: what is
written reads back. -/

namespace DocQuery

/-- A decimal number: a whole significand scaled by a power of ten. -/
structure Decimal where
  significand : Nat
  exponent : Int

namespace Decimal

def next (d : Decimal) : Decimal := { d with significand := d.significand + 1 }

/-- Exponents of the first digit at which a number is written without a power of ten. -/
def IsPositional (exponent : Int) : Prop := -5 ≤ exponent ∧ exponent ≤ 15

instance (exponent : Int) : Decidable (IsPositional exponent) :=
  inferInstanceAs (Decidable (_ ∧ _))

/-- Digits around a point, the first one at the given exponent. A whole number ends in `.0`. -/
def positional (digits : List Char) (exponent : Int) : List Char :=
  if exponent < 0 then
    '0' :: '.' :: List.replicate (-exponent - 1).toNat '0' ++ digits
  else
    let before := exponent.toNat + 1
    if digits.length ≤ before then
      digits ++ List.replicate (before - digits.length) '0' ++ ['.', '0']
    else digits.take before ++ '.' :: digits.drop before

def scientific (digits : List Char) (exponent : Int) : List Char :=
  digits.take 1 ++ (if digits.length ≤ 1 then [] else '.' :: digits.drop 1) ++
    'e' :: (if exponent < 0 then '-' else '+') :: Nat.toDigits 10 exponent.natAbs

/-- The text of a decimal number, without the zeros at the end of its significand. -/
def render (d : Decimal) : List Char :=
  let all := Nat.toDigits 10 d.significand
  let exponent := d.exponent + all.length - 1
  let digits := (all.reverse.dropWhile (· == '0')).reverse
  if IsPositional exponent then positional digits exponent else scientific digits exponent

end Decimal

namespace Binary64

/-- Decimal places after which every magnitude but zero has shown twenty digits. -/
def places : Nat := 343

def expansion (x : Binary64) : Nat := (x.units * Nat.pow 10 places) >>> unitPlaces

def ReadsBack (x : Binary64) (text : List Char) : Prop := Numeral.readFloat? text = some x

instance (x : Binary64) (text : List Char) : Decidable (x.ReadsBack text) :=
  inferInstanceAs (Decidable (_ = _))

/-- Of two neighbours on a grid, the one on the side of the middle that is given; on the middle
itself the even one. -/
def neighbour (lower : Decimal) : Ordering → Decimal
  | .lt => lower
  | .gt => lower.next
  | .eq => if lower.significand % 2 = 0 then lower else lower.next

theorem neighbour_eq (lower : Decimal) (side : Ordering) :
    neighbour lower side = lower ∨ neighbour lower side = lower.next := by
  cases side with
  | lt => exact .inl rfl
  | gt => exact .inr rfl
  | eq =>
    rw [neighbour]
    by_cases h : lower.significand % 2 = 0
    · exact .inl (if_pos h)
    · exact .inr (if_neg h)

/-- The side of the middle between a decimal number and the next one on which the magnitude lies. -/
def side (x : Binary64) (lower : Decimal) (spacing : Nat) : Ordering :=
  compare (2 * (x.units * Nat.pow 10 places))
    (((2 * lower.significand + 1) * spacing) <<< unitPlaces)

def write (x : Binary64) (d : Decimal) : List Char := Numeral.signed x.negative d.render

def readBackOf? (x : Binary64) (lower : Decimal) (side : Ordering) : Option (List Char) :=
  if x.ReadsBack (x.write lower) then
    if x.ReadsBack (x.write lower.next) then some (x.write (neighbour lower side))
    else some (x.write lower)
  else if x.ReadsBack (x.write lower.next) then some (x.write lower.next) else none

/-- The text of at most `n` digits that reads back, among the two neighbours of the magnitude on
the grid of its first `n` digits. -/
def withDigits? (x : Binary64) (n : Nat) : Option (List Char) :=
  let hidden := (Nat.toDigits 10 x.expansion).length - n
  let spacing := Nat.pow 10 hidden
  let lower : Decimal := ⟨x.expansion / spacing, hidden - places⟩
  x.readBackOf? lower (x.side lower spacing)

def exactText (x : Binary64) : List Char :=
  Numeral.signed x.negative
    (Nat.toDigits 10 (x.units * Nat.pow 5 unitPlaces) ++ 'e' :: '-' :: Nat.toDigits 10 unitPlaces)

/-- The text of a number: the fewest digits that read back, of which seventeen are enough. -/
def render (x : Binary64) : List Char :=
  if x.isZero then Numeral.signed x.negative ['0', '.', '0']
  else ((List.range' 1 17).findSome? x.withDigits?).getD x.exactText

theorem readsBack_of_readBackOf? {x : Binary64} {lower : Decimal} {side : Ordering}
    {text : List Char} (h : x.readBackOf? lower side = some text) : x.ReadsBack text := by
  rw [readBackOf?] at h
  by_cases hlower : x.ReadsBack (x.write lower)
  · rw [if_pos hlower] at h
    by_cases hnext : x.ReadsBack (x.write lower.next)
    · rw [if_pos hnext] at h
      rcases neighbour_eq lower side with he | he
      · rw [he] at h
        exact Option.some.inj h ▸ hlower
      · rw [he] at h
        exact Option.some.inj h ▸ hnext
    · rw [if_neg hnext] at h
      exact Option.some.inj h ▸ hlower
  · rw [if_neg hlower] at h
    by_cases hnext : x.ReadsBack (x.write lower.next)
    · rw [if_pos hnext] at h
      exact Option.some.inj h ▸ hnext
    · rw [if_neg hnext] at h
      contradiction

theorem le_log2_mul_five_pow {u : Nat} (hu : 0 < u) (k : Nat) :
    2 * k ≤ (u * Nat.pow 5 k).log2 := by
  have hpow : 4 ^ k ≤ Nat.pow 5 k := Nat.pow_le_pow_left (by decide) k
  have hle : 2 ^ (2 * k) ≤ u * Nat.pow 5 k := by
    rw [Nat.pow_mul]
    exact Nat.le_trans hpow (Nat.le_mul_of_pos_left _ hu)
  exact (Nat.le_log2 (Nat.ne_of_gt (Nat.lt_of_lt_of_le (Nat.two_pow_pos _) hle))).mpr hle

theorem mul_five_pow_shiftLeft (u k : Nat) : (u * Nat.pow 5 k) <<< k = u * Nat.pow 10 k := by
  rw [Nat.shiftLeft_eq, Nat.mul_assoc]
  exact congrArg (u * ·) (Nat.mul_pow 5 2 k).symm

theorem ofDecimal?_exact {x : Binary64} (hx : 0 < x.units) :
    ofDecimal? x.negative (x.units * Nat.pow 5 unitPlaces) (-unitPlaces) = some x := by
  have hlog := le_log2_mul_five_pow hx unitPlaces
  have hplaces : unitPlaces = 1074 := rfl
  have hne : x.units * Nat.pow 5 unitPlaces ≠ 0 := by
    intro h0
    rw [h0, Nat.log2_zero] at hlog
    omega
  have hup : (-(unitPlaces : Int)).toNat = 0 := by omega
  have hdown : (-(-(unitPlaces : Int))).toNat = unitPlaces := by omega
  unfold ofDecimal?
  rw [if_neg hne, if_neg (by omega), if_neg (by omega), hup, hdown]
  have hone : x.units * Nat.pow 5 unitPlaces * Nat.pow 10 0 = x.units * Nat.pow 5 unitPlaces :=
    Nat.mul_one _
  have hpos (k : Nat) : 0 < Nat.pow 10 k := Nat.pow_pos (by decide)
  rw [hone, mul_five_pow_shiftLeft]
  exact ofQuotient?_units x (hpos _)

theorem exactText_readsBack {x : Binary64} (hx : 0 < x.units) : x.ReadsBack x.exactText := by
  rw [ReadsBack, exactText, Numeral.readFloat?_scaled]
  exact ofDecimal?_exact hx

theorem units_pos_of_isZero {x : Binary64} (h : x.isZero = false) : 0 < x.units := by
  have hm : x.mantissa ≠ 0 := by simpa only [isZero, beq_eq_false_iff_ne] using h
  exact Nat.shiftLeft_pos_iff.mpr (Nat.pos_of_ne_zero hm)

theorem eq_zero_of_isZero {x : Binary64} (h : x.isZero = true) : x = zero x.negative := by
  obtain ⟨negative, mantissa, shift, hm, hs, hc⟩ := x
  have h0 : mantissa = 0 := by simpa only [isZero, beq_iff_eq] using h
  subst h0
  have hshift : shift = 0 := hc.resolve_right (by decide)
  subst hshift
  rfl

/-- What is written reads back. -/
theorem readFloat?_render (x : Binary64) : Numeral.readFloat? x.render = some x := by
  cases hz : x.isZero with
  | true =>
    rw [render, if_pos hz, eq_zero_of_isZero hz]
    cases x.negative with
    | false => rfl
    | true => rfl
  | false =>
    rw [render, if_neg (by rw [hz]; decide)]
    cases h : (List.range' 1 17).findSome? x.withDigits? with
    | none => exact exactText_readsBack (units_pos_of_isZero hz)
    | some text =>
      obtain ⟨n, _, hn⟩ := List.exists_of_findSome?_eq_some h
      exact readsBack_of_readBackOf? hn

end Binary64
end DocQuery
