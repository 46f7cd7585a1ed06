/- Sets of code points, and the size of a text in bytes. -/

namespace DocQuery.Text

/-- Membership in a set of code points given by closed ranges. -/
def inRanges (ranges : List (Nat × Nat)) (c : Char) : Bool :=
  ranges.any fun (low, high) => low ≤ c.toNat && c.toNat ≤ high

/-- The number of bytes of a text in UTF-8. -/
def utf8Size : List Char → Nat
  | [] => 0
  | c :: s => c.utf8Size + utf8Size s

@[simp] theorem utf8Size_nil : utf8Size [] = 0 := rfl

@[simp] theorem utf8Size_cons (c : Char) (s : List Char) :
    utf8Size (c :: s) = c.utf8Size + utf8Size s := rfl

@[simp] theorem utf8Size_append (s t : List Char) :
    utf8Size (s ++ t) = utf8Size s + utf8Size t := by
  induction s with
  | nil => rw [List.nil_append, utf8Size_nil, Nat.zero_add]
  | cons c s ih => rw [List.cons_append, utf8Size_cons, utf8Size_cons, ih, Nat.add_assoc]

end DocQuery.Text
