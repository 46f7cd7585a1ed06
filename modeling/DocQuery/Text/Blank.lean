/- Blank characters, those with the Unicode property White_Space, and cutting them off a text. -/

namespace DocQuery.Text

/-- The 25 characters with the property White_Space. -/
def isBlank (c : Char) : Bool :=
  let n := c.toNat
  (0x9 ≤ n && n ≤ 0xD) || n == 0x20 || n == 0x85 || n == 0xA0 || n == 0x1680 ||
    (0x2000 ≤ n && n ≤ 0x200A) || n == 0x2028 || n == 0x2029 || n == 0x202F || n == 0x205F ||
    n == 0x3000

def skipBlanks (s : List Char) : List Char := s.dropWhile isBlank

theorem skipBlanks_length_le (s : List Char) : (skipBlanks s).length ≤ s.length :=
  (List.dropWhile_sublist isBlank).length_le

theorem skipBlanks_suffix (s : List Char) : skipBlanks s <:+ s := List.dropWhile_suffix isBlank

theorem skipBlanks_cons_blank {c : Char} (h : isBlank c = true) (s : List Char) :
    skipBlanks (c :: s) = skipBlanks s := List.dropWhile_cons_of_pos h

theorem skipBlanks_cons_of_not {c : Char} (h : isBlank c = false) (s : List Char) :
    skipBlanks (c :: s) = c :: s :=
  List.dropWhile_cons_of_neg (by simp only [h, Bool.false_eq_true, not_false_eq_true])

theorem skipBlanks_idem (s : List Char) : skipBlanks (skipBlanks s) = skipBlanks s := by
  induction s with
  | nil => rfl
  | cons c s ih =>
    cases h : isBlank c with
    | true => simpa only [skipBlanks_cons_blank h] using ih
    | false => simp only [skipBlanks_cons_of_not h]

def trim (s : List Char) : List Char := (skipBlanks (skipBlanks s).reverse).reverse

end DocQuery.Text
