import DocQuery.Path.Basic
import DocQuery.Path.Identifier
import DocQuery.Path.Quoted
import DocQuery.Text.Blank

/- Reading the operands of a comparison: fields of the candidate, strings, numbers and booleans. -/

namespace DocQuery

open Text (skipBlanks)

/-- Takes one given character. An end where a bracket should close is an open bracket. -/
def expect (c : Char) : List Char → Except Fault (List Char)
  | [] => .error (if c = ']' ∨ c = ')' then .unclosedBracket else .unexpected [])
  | d :: s => if d = c then .ok s else .error (.unexpected (d :: s))

theorem eq_cons_of_expect {c : Char} {s rest : List Char} (h : expect c s = .ok rest) :
    s = c :: rest := by
  cases s with
  | nil => contradiction
  | cons d s =>
    rw [expect] at h
    by_cases hd : d = c
    · rw [if_pos hd] at h
      rw [hd, Except.ok.inj h]
    · rw [if_neg hd] at h
      contradiction

def readQuoted (s : List Char) : Reading String :=
  match s with
  | [] => .error (.unexpected [])
  | c :: s =>
    if Quoted.isQuote c then
      (Quoted.decode c s).map fun (text, rest) => (String.ofList text, rest)
    else .error (.unexpected (c :: s))

theorem isRest_of_readQuoted {s rest : List Char} {text : String}
    (h : readQuoted s = .ok (text, rest)) : IsRest rest s := by
  cases s with
  | nil => contradiction
  | cons c s =>
    rw [readQuoted] at h
    by_cases hq : Quoted.isQuote c = true
    · rw [if_pos hq] at h
      obtain ⟨⟨_, _⟩, ha, hr⟩ := Reading.ok_of_map h
      obtain ⟨_, rfl⟩ := Prod.mk.inj hr
      exact (Quoted.isRest_of_decode ha).cons
    · rw [if_neg hq] at h
      contradiction

/-- Integers of a path have 64 bits and a sign. -/
def fitsLiteral (n : Int) : Bool := -9223372036854775808 ≤ n && n < 9223372036854775808

/-- A number; a whole one that fits is an integer, any other the nearest float. -/
def readNumber (s : List Char) : Reading Number :=
  match Numeral.scan? s with
  | none => .error .invalidNumber
  | some (n, rest) =>
    match Number.ofNumeral? fitsLiteral Numeral.toBinary64? n with
    | none => .error .invalidNumber
    | some number => .ok (number, rest)

/-- The text after a word, if the word is there and ends there. -/
def keyword? (word s : List Char) : Option (List Char) :=
  if s.take word.length = word ∧
      ((s.drop word.length).head?.all fun c => !(Text.isAlphanumeric c || c == '_')) = true then
    some (s.drop word.length)
  else none

/-- A field whose name is in brackets. The fault `bad` is for what is no name. -/
def readBracketField (bad : Fault) (s : List Char) : Except Fault (Operand × List Char) :=
  match skipBlanks s with
  | [] => .error bad
  | c :: s =>
    if Quoted.isQuote c then do
      let (name, rest) ← readQuoted (c :: s)
      let rest ← expect ']' (skipBlanks rest)
      return (.field name, rest)
    else .error bad

def readLiteral (s : List Char) : Reading Operand :=
  match s with
  | [] => .error (.unexpected [])
  | c :: _ =>
    if Quoted.isQuote c then
      (readQuoted s).map fun (text, rest) => (.literal (.string text), rest)
    else if c = '-' ∨ c.isDigit = true then
      (readNumber s).map fun (n, rest) => (.literal (.number n), rest)
    else
      match keyword? ['t', 'r', 'u', 'e'] s, keyword? ['f', 'a', 'l', 's', 'e'] s with
      | some rest, _ => .ok (.literal (.bool true), rest)
      | none, some rest => .ok (.literal (.bool false), rest)
      | none, none => .error (.invalidOperand s)

def readOperand (s : List Char) : Reading Operand :=
  match skipBlanks s with
  | '@' :: '.' :: rest => (readIdentifier rest).map fun (name, rest) => (.field name, rest)
  | '@' :: '[' :: rest => readBracketField (.invalidOperand ('@' :: '[' :: rest)) rest
  | s => readLiteral s

theorem isRest_of_digits? {s digits rest : List Char}
    (h : Numeral.digits? s = some (digits, rest)) : IsRest rest s := by
  have hs := Numeral.append_of_digits? h
  obtain ⟨c, used, rfl⟩ := List.exists_cons_of_ne_nil (Numeral.ne_nil_of_digits? h)
  exact ⟨c, used, hs⟩

theorem isRest_of_unsigned? {negative : Bool} {s rest : List Char} {n : Numeral}
    (h : Numeral.unsigned? negative s = some (n, rest)) : IsRest rest s := by
  obtain ⟨⟨whole, s₁⟩, hwhole, h⟩ := Option.bind_eq_some_iff.mp h
  obtain ⟨⟨fraction, s₂⟩, hfraction, h⟩ := Option.bind_eq_some_iff.mp h
  obtain ⟨⟨exponent, s₃⟩, hexponent, h⟩ := Option.bind_eq_some_iff.mp h
  obtain ⟨_, rfl⟩ := Prod.mk.inj (Option.some.inj h)
  exact (isRest_of_digits? hwhole).shrink
    ((Numeral.suffix_of_exponent? hexponent).trans (Numeral.suffix_of_fraction? hfraction))

theorem isRest_of_scan? {s rest : List Char} {n : Numeral}
    (h : Numeral.scan? s = some (n, rest)) : IsRest rest s := by
  unfold Numeral.scan? at h
  split at h
  · exact (isRest_of_unsigned? h).cons
  · exact isRest_of_unsigned? h

theorem isRest_of_readNumber {s rest : List Char} {n : Number}
    (h : readNumber s = .ok (n, rest)) : IsRest rest s := by
  rw [readNumber] at h
  split at h
  · contradiction
  · next hscan =>
    split at h
    · contradiction
    · obtain ⟨_, rfl⟩ := Prod.mk.inj (Except.ok.inj h)
      exact isRest_of_scan? hscan

theorem isRest_of_keyword? {word s rest : List Char} (hword : word ≠ [])
    (h : keyword? word s = some rest) : IsRest rest s := by
  rw [keyword?] at h
  split at h
  · next hw =>
    obtain ⟨c, used, hcons⟩ := List.exists_cons_of_ne_nil hword
    refine ⟨c, used, ?_⟩
    have hs := List.take_append_drop word.length s
    rw [hw.1, hcons] at hs
    rw [← Option.some.inj h, hcons, hs]
  · contradiction

theorem isRest_of_readBracketField {bad : Fault} {s rest : List Char} {operand : Operand}
    (h : readBracketField bad s = .ok (operand, rest)) : IsRest rest s := by
  rw [readBracketField] at h
  split at h
  · contradiction
  · next c t hskip =>
    split at h
    · obtain ⟨⟨name, r⟩, hname, h⟩ := Reading.ok_of_bind h
      obtain ⟨r', hexpect, h⟩ := Reading.ok_of_bind h
      obtain ⟨_, rfl⟩ := Prod.mk.inj (Except.ok.inj h)
      have hr : r' <:+ r := by
        have hcons := eq_cons_of_expect hexpect
        exact (hcons ▸ List.suffix_cons ']' r').trans (Text.skipBlanks_suffix r)
      have hrest := (isRest_of_readQuoted hname).shrink hr
      exact hrest.of_suffix (hskip ▸ Text.skipBlanks_suffix s)
    · contradiction

theorem isRest_of_readLiteral {s rest : List Char} {operand : Operand}
    (h : readLiteral s = .ok (operand, rest)) : IsRest rest s := by
  cases s with
  | nil => contradiction
  | cons c s =>
    rw [readLiteral] at h
    split at h
    · obtain ⟨⟨text, r⟩, ha, hr⟩ := Reading.ok_of_map h
      obtain ⟨_, rfl⟩ := Prod.mk.inj hr
      exact isRest_of_readQuoted ha
    split at h
    · obtain ⟨⟨n, r⟩, ha, hr⟩ := Reading.ok_of_map h
      obtain ⟨_, rfl⟩ := Prod.mk.inj hr
      exact isRest_of_readNumber ha
    split at h
    · next hword =>
      obtain ⟨_, rfl⟩ := Prod.mk.inj (Except.ok.inj h)
      exact isRest_of_keyword? (by decide) hword
    · next hword =>
      obtain ⟨_, rfl⟩ := Prod.mk.inj (Except.ok.inj h)
      exact isRest_of_keyword? (by decide) hword
    · contradiction

theorem isRest_of_readOperand {s rest : List Char} {operand : Operand}
    (h : readOperand s = .ok (operand, rest)) : IsRest rest s := by
  rw [readOperand] at h
  refine .of_suffix (Text.skipBlanks_suffix s) ?_
  split at h
  · next hskip =>
    obtain ⟨⟨name, r⟩, ha, hr⟩ := Reading.ok_of_map h
    obtain ⟨_, rfl⟩ := Prod.mk.inj hr
    rw [hskip]
    exact (isRest_of_readIdentifier ha).cons.cons
  · next hskip =>
    rw [hskip]
    exact (isRest_of_readBracketField h).cons.cons
  · exact isRest_of_readLiteral h

end DocQuery
