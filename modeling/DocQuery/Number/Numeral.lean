import DocQuery.Number.Binary64

/- Decimal numbers as they are written, and what they stand for. -/

namespace DocQuery

/-- A written number: its sign, its digits, and the parts that a whole number leaves out. -/
structure Numeral where
  negative : Bool
  whole : List Char
  fraction : Option (List Char)
  exponent : Option Int

namespace Numeral

def natOfDigits (digits : List Char) : Nat := Nat.ofDigitChars 10 digits 0

theorem natOfDigits_toDigits (n : Nat) : natOfDigits (Nat.toDigits 10 n) = n :=
  Nat.ofDigitChars_toDigits (by decide) (by decide)

def digits? (s : List Char) : Option (List Char × List Char) :=
  if s.takeWhile Char.isDigit = [] then none
  else some (s.takeWhile Char.isDigit, s.dropWhile Char.isDigit)

theorem append_of_digits? {s digits rest : List Char} (h : digits? s = some (digits, rest)) :
    s = digits ++ rest := by
  have hs : s.takeWhile Char.isDigit ++ s.dropWhile Char.isDigit = s :=
    List.takeWhile_append_dropWhile
  rw [digits?] at h
  by_cases hnil : s.takeWhile Char.isDigit = []
  · rw [if_pos hnil] at h
    contradiction
  · rw [if_neg hnil] at h
    obtain ⟨rfl, rfl⟩ := Prod.mk.inj (Option.some.inj h)
    exact hs.symm

theorem ne_nil_of_digits? {s digits rest : List Char} (h : digits? s = some (digits, rest)) :
    digits ≠ [] := by
  rw [digits?] at h
  by_cases hnil : s.takeWhile Char.isDigit = []
  · rw [if_pos hnil] at h
    contradiction
  · rw [if_neg hnil] at h
    exact (Prod.mk.inj (Option.some.inj h)).1 ▸ hnil

def NoDigit (s : List Char) : Prop := s.head?.all (fun c => !c.isDigit) = true

theorem NoDigit.takeWhile {s : List Char} (h : NoDigit s) : s.takeWhile Char.isDigit = [] := by
  cases s with
  | nil => rfl
  | cons c s => exact List.takeWhile_cons_of_neg (by simpa only [NoDigit, List.head?_cons,
      Option.all_some, Bool.not_eq_true', Bool.not_eq_true] using h)

theorem NoDigit.dropWhile {s : List Char} (h : NoDigit s) : s.dropWhile Char.isDigit = s := by
  have hs := List.takeWhile_append_dropWhile (p := Char.isDigit) (l := s)
  rwa [h.takeWhile, List.nil_append] at hs

theorem digits?_append {digits rest : List Char} (hd : ∀ c ∈ digits, c.isDigit = true)
    (hne : digits ≠ []) (hr : NoDigit rest) : digits? (digits ++ rest) = some (digits, rest) := by
  have htake : (digits ++ rest).takeWhile Char.isDigit = digits := by
    rw [List.takeWhile_append_of_pos hd, hr.takeWhile, List.append_nil]
  have hdrop : (digits ++ rest).dropWhile Char.isDigit = rest := by
    rw [List.dropWhile_append_of_pos hd, hr.dropWhile]
  rw [digits?, htake, hdrop, if_neg hne]

theorem digits?_toDigits (n : Nat) (rest : List Char) (hr : NoDigit rest) :
    digits? (Nat.toDigits 10 n ++ rest) = some (Nat.toDigits 10 n, rest) :=
  digits?_append (fun _ hc => Nat.isDigit_of_mem_toDigits (by decide) (by decide) hc)
    Nat.toDigits_ne_nil hr

/-- A point with digits after it; a text that starts with no point has no fraction. -/
def fraction? : List Char → Option (Option (List Char) × List Char)
  | '.' :: s => (digits? s).map fun (digits, rest) => (some digits, rest)
  | s => some (none, s)

def exponentDigits? : List Char → Option (Int × List Char)
  | '-' :: s => (digits? s).map fun (digits, rest) => (-natOfDigits digits, rest)
  | '+' :: s => (digits? s).map fun (digits, rest) => (natOfDigits digits, rest)
  | s => (digits? s).map fun (digits, rest) => (natOfDigits digits, rest)

def exponent? : List Char → Option (Option Int × List Char)
  | 'e' :: s => (exponentDigits? s).map fun (n, rest) => (some n, rest)
  | 'E' :: s => (exponentDigits? s).map fun (n, rest) => (some n, rest)
  | s => some (none, s)

theorem suffix_of_fraction? {s rest : List Char} {fraction : Option (List Char)}
    (h : fraction? s = some (fraction, rest)) : rest <:+ s := by
  unfold fraction? at h
  split at h
  · next s =>
    obtain ⟨⟨digits, r⟩, hd, hr⟩ := Option.map_eq_some_iff.mp h
    obtain ⟨_, rfl⟩ := Prod.mk.inj hr
    rw [append_of_digits? hd]
    exact (List.suffix_append _ _).trans (List.suffix_cons _ _)
  · obtain ⟨_, rfl⟩ := Prod.mk.inj (Option.some.inj h)
    exact List.suffix_refl _

theorem suffix_of_exponentDigits? {s rest : List Char} {n : Int}
    (h : exponentDigits? s = some (n, rest)) : rest <:+ s := by
  unfold exponentDigits? at h
  split at h
  · obtain ⟨⟨digits, r⟩, hd, hr⟩ := Option.map_eq_some_iff.mp h
    obtain ⟨_, rfl⟩ := Prod.mk.inj hr
    rw [append_of_digits? hd]
    exact (List.suffix_append _ _).trans (List.suffix_cons _ _)
  · obtain ⟨⟨digits, r⟩, hd, hr⟩ := Option.map_eq_some_iff.mp h
    obtain ⟨_, rfl⟩ := Prod.mk.inj hr
    rw [append_of_digits? hd]
    exact (List.suffix_append _ _).trans (List.suffix_cons _ _)
  · obtain ⟨⟨digits, r⟩, hd, hr⟩ := Option.map_eq_some_iff.mp h
    obtain ⟨_, rfl⟩ := Prod.mk.inj hr
    rw [append_of_digits? hd]
    exact List.suffix_append _ _

theorem suffix_of_exponent? {s rest : List Char} {exponent : Option Int}
    (h : exponent? s = some (exponent, rest)) : rest <:+ s := by
  unfold exponent? at h
  split at h
  · obtain ⟨⟨n, r⟩, hd, hr⟩ := Option.map_eq_some_iff.mp h
    obtain ⟨_, rfl⟩ := Prod.mk.inj hr
    exact (suffix_of_exponentDigits? hd).trans (List.suffix_cons _ _)
  · obtain ⟨⟨n, r⟩, hd, hr⟩ := Option.map_eq_some_iff.mp h
    obtain ⟨_, rfl⟩ := Prod.mk.inj hr
    exact (suffix_of_exponentDigits? hd).trans (List.suffix_cons _ _)
  · obtain ⟨_, rfl⟩ := Prod.mk.inj (Option.some.inj h)
    exact List.suffix_refl _

def unsigned? (negative : Bool) (s : List Char) : Option (Numeral × List Char) := do
  let (whole, s) ← digits? s
  let (fraction, s) ← fraction? s
  let (exponent, s) ← exponent? s
  return (⟨negative, whole, fraction, exponent⟩, s)

/-- The longest number at the front of a text, with an optional minus sign. -/
def scan? : List Char → Option (Numeral × List Char)
  | '-' :: s => unsigned? true s
  | s => unsigned? false s

theorem scan?_of_ne_minus {s : List Char} (h : s.head? ≠ some '-') :
    scan? s = unsigned? false s := by
  unfold scan?
  split
  · exact absurd rfl h
  · rfl

def signed (negative : Bool) (s : List Char) : List Char :=
  if negative then '-' :: s else s

theorem scan?_signed (negative : Bool) {s : List Char} (h : s.head? ≠ some '-') :
    scan? (signed negative s) = unsigned? negative s := by
  cases negative with
  | false => exact scan?_of_ne_minus h
  | true => rfl

def significand (n : Numeral) : Nat := natOfDigits (n.whole ++ n.fraction.getD [])

def scale (n : Numeral) : Int := n.exponent.getD 0 - (n.fraction.getD []).length

/-- The whole number written, if there is neither a fraction nor an exponent. -/
def toInt? (n : Numeral) : Option Int :=
  if n.fraction.isNone && n.exponent.isNone then
    some (if n.negative then -n.significand else n.significand)
  else none

def ofText? (s : List Char) : Option Numeral :=
  match scan? s with
  | some (n, []) => some n
  | _ => none

/-- The nearest finite number, if the numeral is not beyond the largest. -/
def toBinary64? (n : Numeral) : Option Binary64 :=
  Binary64.ofDecimal? n.negative n.significand n.scale

/-- The number of a text that does not read as a whole number. -/
def readFloat? (s : List Char) : Option Binary64 := do
  let n ← ofText? s
  guard n.toInt?.isNone
  n.toBinary64?

theorem head?_toDigits_append (n : Nat) (s : List Char) :
    (Nat.toDigits 10 n ++ s).head? ≠ some '-' := by
  cases hd : Nat.toDigits 10 n with
  | nil => exact absurd hd Nat.toDigits_ne_nil
  | cons c digits =>
    have hmem : c ∈ Nat.toDigits 10 n := hd ▸ List.mem_cons_self
    have hc := Nat.isDigit_of_mem_toDigits (by decide) (by decide) hmem
    intro h
    rw [Option.some.inj h] at hc
    exact absurd hc (by decide)

theorem readFloat?_scaled (negative : Bool) (n k : Nat) :
    readFloat? (signed negative (Nat.toDigits 10 n ++ 'e' :: '-' :: Nat.toDigits 10 k)) =
      Binary64.ofDecimal? negative n (-k) := by
  have hk : digits? (Nat.toDigits 10 k) = some (Nat.toDigits 10 k, []) := by
    simpa only [List.append_nil] using digits?_toDigits k [] rfl
  have hn := digits?_toDigits n ('e' :: '-' :: Nat.toDigits 10 k) rfl
  have hexp : exponent? ('e' :: '-' :: Nat.toDigits 10 k) = some (some (-(k : Int)), []) := by
    rw [exponent?, exponentDigits?, hk]
    simp only [Option.map_some, natOfDigits_toDigits]
  have hscan : scan? (signed negative (Nat.toDigits 10 n ++ 'e' :: '-' :: Nat.toDigits 10 k)) =
      some (⟨negative, Nat.toDigits 10 n, none, some (-k)⟩, []) := by
    rw [scan?_signed _ (head?_toDigits_append n _), unsigned?, hn]
    show (exponent? ('e' :: '-' :: Nat.toDigits 10 k)).bind _ = _
    rw [hexp]
    rfl
  rw [readFloat?, ofText?, hscan]
  show Binary64.ofDecimal? negative (natOfDigits (Nat.toDigits 10 n ++ [])) (-k - 0) = _
  rw [List.append_nil, natOfDigits_toDigits, Int.sub_zero]

def toExtended (n : Numeral) : Extended :=
  Extended.ofDecimal n.negative n.significand n.scale

end Numeral

namespace Extended

/-- Digits with an optional point among them, at least one digit in all, and an optional exponent. -/
def unsignedText? (negative : Bool) (s : List Char) : Option Extended := do
  let whole := s.takeWhile Char.isDigit
  let (fraction, s) := match s.dropWhile Char.isDigit with
    | '.' :: s => (s.takeWhile Char.isDigit, s.dropWhile Char.isDigit)
    | s => ([], s)
  let (exponent, s) ← Numeral.exponent? s
  guard (!(whole ++ fraction).isEmpty && s.isEmpty)
  return Numeral.toExtended ⟨negative, whole, some fraction, exponent⟩

def ofUnsignedText (negative : Bool) (s : List Char) : Extended :=
  let name := s.map Char.toLower
  if name = "inf".toList ∨ name = "infinity".toList then .infinity negative
  else (unsignedText? negative s).getD .nan

/-- The extended number that a text stands for: `inf`, `infinity` and a decimal number are read,
each with an optional sign, and any other text is no number. -/
def ofText : List Char → Extended
  | '-' :: s => ofUnsignedText true s
  | '+' :: s => ofUnsignedText false s
  | s => ofUnsignedText false s

end Extended
end DocQuery
