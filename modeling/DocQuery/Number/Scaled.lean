import DocQuery.Number.Numeral

/- Numerals read by float arithmetic: a significand of at most 64 bits is multiplied or divided by a
power of ten, and every step rounds. A numeral of many digits can so miss the nearest number. -/

namespace DocQuery
namespace Binary64

def mul? (x y : Binary64) : Option Binary64 :=
  ofQuotient? (x.negative != y.negative) (x.units * y.units) (1 <<< unitPlaces)

def div? (x y : Binary64) : Option Binary64 :=
  if y.isZero then none
  else ofQuotient? (x.negative != y.negative) (x.units <<< unitPlaces) y.units

def powerOfTen? (k : Nat) : Option Binary64 := ofDecimal? false 1 k

/-- The quotient by `10 ^ k`, in steps of at most `10 ^ 308`, until nothing is left. -/
def divPowerOfTen? (x : Binary64) (k : Nat) : Option Binary64 :=
  if k ≤ 308 then (powerOfTen? k).bind x.div?
  else if x.isZero then some x
  else ((powerOfTen? 308).bind x.div?).bind (divPowerOfTen? · (k - 308))
termination_by k
decreasing_by omega

/-- The significand, rounded to a number, times or over a power of ten; `none` beyond the largest
number. Zero stays zero at every exponent. -/
def ofScaled? (negative : Bool) (significand : Nat) (exponent : Int) : Option Binary64 := do
  let x ← ofDecimal? negative significand 0
  if x.isZero then some x
  else if exponent < 0 then x.divPowerOfTen? (-exponent).toNat
  else (powerOfTen? exponent.toNat).bind x.mul?

end Binary64

namespace Numeral

/-- Appends digits to a significand as long as it fits 64 bits. What is left starts with the first
digit that does not fit. -/
def absorb (significand : Nat) : List Char → Nat × List Char
  | [] => (significand, [])
  | c :: digits =>
    if 10 * significand + (c.toNat - '0'.toNat) < 18446744073709551616 then
      absorb (10 * significand + (c.toNat - '0'.toNat)) digits
    else (significand, c :: digits)

/-- The number of float arithmetic. Digits of the whole part that do not fit only count as places,
and those of the fraction do not count. -/
def toScaled? (n : Numeral) : Option Binary64 :=
  let fraction := n.fraction.getD []
  let (whole, places) := absorb 0 n.whole
  let (significand, rest) := absorb whole fraction
  Binary64.ofScaled? n.negative significand
    (n.exponent.getD 0 + places.length - (fraction.length - rest.length : Nat))

end Numeral
end DocQuery
