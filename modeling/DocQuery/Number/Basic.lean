import DocQuery.Number.Shortest

/- Numbers of a document: integers of 64 bits, signed or unsigned, and finite floats. -/

namespace DocQuery

/-- A whole number that fits 64 bits, signed or unsigned. -/
structure WideInt where
  val : Int
  lower : -9223372036854775808 ≤ val
  upper : val < 18446744073709551616
deriving DecidableEq

namespace WideInt

def ofInt? (n : Int) : Option WideInt :=
  if h : -9223372036854775808 ≤ n ∧ n < 18446744073709551616 then some ⟨n, h.1, h.2⟩ else none

theorem natAbs_val_lt (n : WideInt) : n.val.natAbs < 18446744073709551616 := by
  have hl := n.lower
  have hu := n.upper
  omega

def ofWord (w : UInt64) : WideInt :=
  ⟨w.toNat, by omega, by have := w.toNat_lt; omega⟩

def toWord? (n : WideInt) : Option UInt64 :=
  if 0 ≤ n.val then some (UInt64.ofNat n.val.toNat) else none

theorem toWord?_ofWord (w : UInt64) : (ofWord w).toWord? = some w := by
  have h : 0 ≤ (ofWord w).val := Int.natCast_nonneg _
  rw [toWord?, if_pos h]
  exact congrArg some UInt64.ofNat_toNat

def toBinary64 (n : WideInt) : Binary64 := Binary64.ofInt n.val n.natAbs_val_lt

def render (n : WideInt) : List Char :=
  Numeral.signed (n.val < 0) (Nat.toDigits 10 n.val.natAbs)

end WideInt

/-- A number of a document. Integers and floats stay apart, also where their values agree. -/
inductive Number where
  | int (n : WideInt)
  | float (x : Binary64)
deriving DecidableEq

namespace Number

def toBinary64 : Number → Binary64
  | .int n => n.toBinary64
  | .float x => x

def order (a b : Number) : Ordering := a.toBinary64.order b.toBinary64

/-- Equality of numbers of one kind: integers by value, floats by value with both zeros alike. -/
def same : Number → Number → Bool
  | .int a, .int b => a.val == b.val
  | .float x, .float y => x.value == y.value
  | _, _ => false

def render : Number → List Char
  | .int n => n.render
  | .float x => x.render

/-- A whole number that fits is an integer, and any other numeral a float, read as given. -/
def ofNumeral? (fits : Int → Bool) (toFloat? : Numeral → Option Binary64) (n : Numeral) :
    Option Number :=
  match (n.toInt?.filter fits).bind WideInt.ofInt? with
  | some i => some (.int i)
  | none => (toFloat? n).map .float

end Number
end DocQuery
