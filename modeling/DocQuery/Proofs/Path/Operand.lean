import DocQuery.Path.Condition
import DocQuery.Proofs.Path.Lexical

/- Operands and comparisons: the readers take exactly the texts of the grammar. -/

namespace DocQuery

open Text (skipBlanks)

theorem append_of_keyword? {word s rest : List Char} (h : keyword? word s = some rest) :
    s = word ++ rest := by
  rw [keyword?] at h
  split at h
  · next hword =>
    have hs := List.take_append_drop word.length s
    rw [hword.1, Option.some.inj h] at hs
    exact hs.symm
  · contradiction

theorem keyword?_append (word : List Char) {rest : List Char} (hrest : Stops isIdentifierChar rest) :
    keyword? word (word ++ rest) = some rest := by
  rw [keyword?, List.take_left, List.drop_left]
  refine if_pos ⟨rfl, ?_⟩
  cases rest with
  | nil => rfl
  | cons c rest =>
    have hc := (Bool.or_eq_false_iff.mp (Bool.or_eq_false_iff.mp (hrest c rfl)).1).1
    rw [List.head?_cons, Option.all_some, hc]
    rfl

theorem keyword?_eq_none {word s : List Char} (h : s.take word.length ≠ word) :
    keyword? word s = none := if_neg fun hword => h hword.1

theorem OperandText.blanks_append {w t : List Char} {operand : Operand} (hw : Blanks w)
    (h : OperandText t operand) : OperandText (w ++ t) operand := by
  cases h with
  | field h₁ ht => exact List.append_assoc .. ▸ .field (hw.append h₁) ht
  | quotedField h₁ h₂ ht h₃ => exact List.append_assoc .. ▸ .quotedField (hw.append h₁) h₂ ht h₃
  | string h₁ ht => exact List.append_assoc .. ▸ .string (hw.append h₁) ht
  | number h₁ ht hn => exact List.append_assoc .. ▸ .number (hw.append h₁) ht hn
  | wordTrue h₁ => exact List.append_assoc .. ▸ .wordTrue (hw.append h₁)
  | wordFalse h₁ => exact List.append_assoc .. ▸ .wordFalse (hw.append h₁)

theorem operandText_of_readBracketField {bad : Fault} {s rest : List Char} {operand : Operand}
    (h : readBracketField bad s = .ok (operand, rest)) :
    ∃ t, '@' :: '[' :: s = t ++ rest ∧ OperandText t operand := by
  obtain ⟨w, hw, hs⟩ := exists_blanks s
  rw [readBracketField] at h
  split at h
  · contradiction
  · next c s' hskip =>
    split at h
    · obtain ⟨⟨name, r⟩, hname, h⟩ := Reading.ok_of_bind h
      obtain ⟨r', hexpect, h⟩ := Reading.ok_of_bind h
      obtain ⟨rfl, rfl⟩ := Prod.mk.inj (Except.ok.inj h)
      obtain ⟨t, ht, hquoted⟩ := quotedText_of_readQuoted hname
      obtain ⟨w₂, hw₂, hr⟩ := exists_blanks r
      rw [eq_cons_of_expect hexpect] at hr
      refine ⟨[] ++ '@' :: '[' :: (w ++ (t ++ (w₂ ++ [']']))), ?_,
        .quotedField .nil hw hquoted hw₂⟩
      rw [hs, hskip, ht, hr]
      simp only [List.append_assoc, List.cons_append, List.nil_append]
    · contradiction

theorem operandText_of_readLiteral {s rest : List Char} {operand : Operand}
    (h : readLiteral s = .ok (operand, rest)) : ∃ t, s = t ++ rest ∧ OperandText t operand := by
  cases s with
  | nil => contradiction
  | cons c s =>
    rw [readLiteral] at h
    split at h
    · obtain ⟨⟨text, r⟩, ha, hr⟩ := Reading.ok_of_map h
      obtain ⟨rfl, rfl⟩ := Prod.mk.inj hr
      obtain ⟨t, hs, ht⟩ := quotedText_of_readQuoted ha
      exact ⟨t, hs, .string .nil ht⟩
    split at h
    · obtain ⟨⟨number, r⟩, ha, hr⟩ := Reading.ok_of_map h
      obtain ⟨rfl, rfl⟩ := Prod.mk.inj hr
      obtain ⟨t, n, hs, ht, hn⟩ := numeralText_of_readNumber ha
      exact ⟨t, hs, .number .nil ht hn⟩
    split at h
    · next hword =>
      obtain ⟨rfl, rfl⟩ := Prod.mk.inj (Except.ok.inj h)
      exact ⟨_, append_of_keyword? hword, .wordTrue .nil⟩
    · next hword =>
      obtain ⟨rfl, rfl⟩ := Prod.mk.inj (Except.ok.inj h)
      exact ⟨_, append_of_keyword? hword, .wordFalse .nil⟩
    · contradiction

theorem operandText_of_readOperand {s rest : List Char} {operand : Operand}
    (h : readOperand s = .ok (operand, rest)) : ∃ t, s = t ++ rest ∧ OperandText t operand := by
  obtain ⟨w, hw, hs⟩ := exists_blanks s
  suffices hskip : ∃ t, skipBlanks s = t ++ rest ∧ OperandText t operand by
    obtain ⟨t, ht, htext⟩ := hskip
    exact ⟨w ++ t, by rw [List.append_assoc, ← ht, ← hs], htext.blanks_append hw⟩
  rw [readOperand] at h
  split at h
  · next hskip =>
    obtain ⟨⟨name, r⟩, ha, hr⟩ := Reading.ok_of_map h
    obtain ⟨rfl, rfl⟩ := Prod.mk.inj hr
    obtain ⟨t, rfl, ht⟩ := identifierText_of_readIdentifier ha
    exact ⟨'@' :: '.' :: t, hskip, .field .nil ht⟩
  · next hskip => exact hskip ▸ operandText_of_readBracketField h
  · exact operandText_of_readLiteral h

/-- The characters with which operands begin. -/
def startsOperand (c : Char) : Bool :=
  c == '@' || Quoted.isQuote c || c == '-' || c.isDigit || c == 't' || c == 'f'

theorem isBlank_of_startsOperand {c : Char} (h : startsOperand c = true) :
    Text.isBlank c = false := by
  cases hb : Text.isBlank c with
  | false => rfl
  | true =>
    have hname := not_identifier_of_isBlank hb
    have hdigit : c.isDigit = false := by
      cases hd : c.isDigit with
      | false => rfl
      | true => exact absurd (hname.symm.trans (isIdentifierChar_of_isDigit hd)) Bool.false_ne_true
    simp only [startsOperand, Quoted.isQuote, hdigit, Bool.or_eq_true, beq_iff_eq,
      Bool.false_eq_true, or_false] at h
    rcases h with (((rfl | rfl | rfl) | rfl) | rfl) | rfl <;> exact absurd hb (by decide)

theorem startsOperand_of_isOperatorChar {c : Char} (h : isOperatorChar c = true) :
    startsOperand c = false := by
  simp only [isOperatorChar, Bool.or_eq_true, beq_iff_eq] at h
  rcases h with (((rfl | rfl) | rfl) | rfl) | rfl <;> decide

theorem isBlank_of_isOperatorChar {c : Char} (h : isOperatorChar c = true) :
    Text.isBlank c = false := by
  simp only [isOperatorChar, Bool.or_eq_true, beq_iff_eq] at h
  rcases h with (((rfl | rfl) | rfl) | rfl) | rfl <;> decide

theorem OperandText.start {t : List Char} {operand : Operand} (h : OperandText t operand) :
    ∃ w c s, t = w ++ c :: s ∧ Blanks w ∧ startsOperand c = true := by
  cases h with
  | field hw ht => exact ⟨_, _, _, rfl, hw, by decide⟩
  | quotedField hw _ _ _ => exact ⟨_, _, _, rfl, hw, by decide⟩
  | string hw ht =>
    obtain ⟨q, s, rfl, hq⟩ := ht.eq_cons
    refine ⟨_, _, _, rfl, hw, ?_⟩
    rcases hq with rfl | rfl <;> decide
  | number hw ht hn =>
    obtain ⟨c, s, rfl, hc⟩ := Numeral.eq_cons_of_numeralText ht
    refine ⟨_, _, _, rfl, hw, ?_⟩
    rcases hc with rfl | hc
    · decide
    · simp only [startsOperand, hc, Bool.or_true, Bool.true_or]
  | wordTrue hw => exact ⟨_, _, _, rfl, hw, by decide⟩
  | wordFalse hw => exact ⟨_, _, _, rfl, hw, by decide⟩

theorem readOperand_of_cons {c : Char} {s : List Char} (hblank : Text.isBlank c = false)
    (hat : c ≠ '@') : readOperand (c :: s) = readLiteral (c :: s) := by
  rw [readOperand, Text.skipBlanks_cons_of_not hblank]
  split
  · next h => exact absurd (List.cons.inj h).1 hat
  · next h => exact absurd (List.cons.inj h).1 hat
  · rfl

theorem readBracketField_of_quotedText {w t w₁ : List Char} {name : String} (hw : Blanks w)
    (ht : QuotedText t name) (hw₁ : Blanks w₁) (bad : Fault) (rest : List Char) :
    readBracketField bad (w ++ (t ++ (w₁ ++ ']' :: rest))) = .ok (.field name, rest) := by
  have hread := ht.read (w₁ ++ ']' :: rest)
  have hskip := ht.skip hw (w₁ ++ ']' :: rest)
  obtain ⟨q, s, rfl, hq⟩ := ht.eq_cons
  rw [List.cons_append] at hread hskip ⊢
  simp only [readBracketField, hskip, isQuote_iff.mpr hq, if_true, hread]
  show (expect ']' (skipBlanks (w₁ ++ ']' :: rest)) >>= _) = _
  rw [hw₁.skip_cons (by decide), expect, if_pos rfl]
  rfl

theorem readOperand_of_quotedText {t : List Char} {text : String} (ht : QuotedText t text)
    (rest : List Char) : readOperand (t ++ rest) = .ok (.literal (.string text), rest) := by
  have hread := ht.read rest
  obtain ⟨q, s, rfl, hq⟩ := ht.eq_cons
  rw [List.cons_append] at hread ⊢
  rw [readOperand_of_cons (by rcases hq with rfl | rfl <;> decide)
    (by rcases hq with rfl | rfl <;> decide), readLiteral, if_pos (isQuote_iff.mpr hq), hread]
  rfl

section
variable {rest : List Char} (hrest : Stops goesOn rest)
include hrest

theorem readOperand_of_numeralText {t : List Char} {n : Numeral} {number : Number}
    (ht : NumeralText t n) (hn : Denotes n number) :
    readOperand (t ++ rest) = .ok (.literal (.number number), rest) := by
  have hread := readNumber_of_numeralText ht hn hrest
  obtain ⟨c, s, rfl, hc⟩ := Numeral.eq_cons_of_numeralText ht
  have hblank : Text.isBlank c = false := by
    rcases hc with rfl | hc
    · decide
    · exact isBlank_of_identifier (isIdentifierChar_of_isDigit hc)
  have hat : c ≠ '@' := by
    rintro rfl
    exact absurd hc (by decide)
  have hquote : ¬ Quoted.isQuote c = true := by
    intro hq
    rcases isQuote_iff.mp hq with rfl | rfl <;> exact absurd hc (by decide)
  rw [List.cons_append] at hread ⊢
  rw [readOperand_of_cons hblank hat, readLiteral, if_neg hquote, if_pos hc, hread]
  rfl

theorem readOperand_true :
    readOperand (['t', 'r', 'u', 'e'] ++ rest) = .ok (.literal (.bool true), rest) := by
  have hword := keyword?_append ['t', 'r', 'u', 'e'] hrest.identifier
  simp only [List.cons_append, List.nil_append] at hword ⊢
  rw [readOperand_of_cons (by decide) (by decide), readLiteral, if_neg (by decide),
    if_neg (by decide)]
  simp only [hword]

theorem readOperand_false :
    readOperand (['f', 'a', 'l', 's', 'e'] ++ rest) = .ok (.literal (.bool false), rest) := by
  have hword := keyword?_append ['f', 'a', 'l', 's', 'e'] hrest.identifier
  have hother : keyword? ['t', 'r', 'u', 'e'] (['f', 'a', 'l', 's', 'e'] ++ rest) = none := by
    refine keyword?_eq_none ?_
    intro h
    exact absurd (List.cons.inj h).1 (by decide)
  simp only [List.cons_append, List.nil_append] at hword hother ⊢
  rw [readOperand_of_cons (by decide) (by decide), readLiteral, if_neg (by decide),
    if_neg (by decide)]
  simp only [hword, hother]

end

theorem OperandText.read {t rest : List Char} {operand : Operand} (h : OperandText t operand)
    (hrest : Stops goesOn rest) : readOperand (t ++ rest) = .ok (operand, rest) := by
  have hskip {w : List Char} (hw : Blanks w) (s : List Char) :
      readOperand (w ++ s) = readOperand s := by rw [readOperand, hw.skip, ← readOperand]
  cases h with
  | @field w t name hw ht =>
    rw [List.append_assoc, hskip hw]
    show readOperand ('@' :: '.' :: (t ++ rest)) = _
    rw [readOperand, Text.skipBlanks_cons_of_not (by decide)]
    simp only [ht.read hrest.identifier]
    rfl
  | @quotedField w w₁ t w₂ name hw hw₁ ht hw₂ =>
    rw [List.append_assoc, hskip hw]
    simp only [List.cons_append, List.append_assoc, List.nil_append]
    rw [readOperand, Text.skipBlanks_cons_of_not (by decide)]
    exact readBracketField_of_quotedText hw₁ ht hw₂ _ rest
  | string hw ht =>
    rw [List.append_assoc, hskip hw]
    exact readOperand_of_quotedText ht rest
  | number hw ht hn =>
    rw [List.append_assoc, hskip hw]
    exact readOperand_of_numeralText hrest ht hn
  | wordTrue hw =>
    rw [List.append_assoc, hskip hw]
    exact readOperand_true hrest
  | wordFalse hw =>
    rw [List.append_assoc, hskip hw]
    exact readOperand_false hrest

theorem Comparator.ofText?_eq_some_iff {t : List Char} {op : Comparator} :
    Comparator.ofText? t = some op ↔ t = op.render := by
  constructor
  · intro h
    unfold Comparator.ofText? at h
    split at h <;> first | contradiction | (obtain rfl := Option.some.inj h; rfl)
  · rintro rfl
    cases op <;> rfl

theorem Comparator.isOperatorChar_of_mem_render (op : Comparator) :
    ∀ c ∈ op.render, isOperatorChar c = true := by
  refine List.all_eq_true.mp ?_
  cases op <;> rfl

theorem Comparator.exists_render (op : Comparator) : ∃ c s, op.render = c :: s := by
  cases op <;> exact ⟨_, _, rfl⟩

theorem comparisonText_of_readComparison {s rest : List Char} {p : Predicate}
    (h : readComparison s = .ok (p, rest)) :
    ∃ t w, s = t ++ (w ++ rest) ∧ Blanks w ∧ ComparisonText t p := by
  obtain ⟨⟨left, r⟩, hleft, h⟩ := Reading.ok_of_bind h
  obtain ⟨t, hs, ht⟩ := operandText_of_readOperand hleft
  obtain ⟨w, hw, hr⟩ := exists_blanks r
  dsimp only at h
  split at h
  · obtain ⟨rfl, rfl⟩ := Prod.mk.inj (Except.ok.inj h)
    exact ⟨t, w, by rw [← hr, hs], hw, .truthy ht⟩
  · split at h
    · contradiction
    · next op hop =>
      obtain ⟨⟨right, r'⟩, hright, h⟩ := Reading.ok_of_bind h
      obtain ⟨rfl, rfl⟩ := Prod.mk.inj (Except.ok.inj h)
      obtain ⟨u, hu, hutext⟩ := operandText_of_readOperand hright
      have hrun : skipBlanks r = op.render ++ (u ++ r') := by
        rw [← Comparator.ofText?_eq_some_iff.mp hop, ← hu]
        exact List.takeWhile_append_dropWhile.symm
      refine ⟨t ++ (w ++ (op.render ++ u)), [], ?_, .nil, .compare ht hw hutext⟩
      rw [hs, hr, hrun]
      simp only [List.append_assoc, List.nil_append]

/-- What stands behind a predicate: a further conjunct, or the end of its parentheses. -/
def Follows (rest : List Char) : Prop :=
  ∃ w s, Blanks w ∧ (rest = w ++ '&' :: '&' :: s ∨ rest = w ++ ')' :: s)

theorem Follows.skip {rest : List Char} (h : Follows rest) :
    ∃ c s, skipBlanks rest = c :: s ∧ isOperatorChar c = false := by
  obtain ⟨w, s, hw, rfl | rfl⟩ := h
  · rw [hw.skip, Text.skipBlanks_cons_of_not (by decide)]
    exact ⟨_, _, rfl, by decide⟩
  · rw [hw.skip, Text.skipBlanks_cons_of_not (by decide)]
    exact ⟨_, _, rfl, by decide⟩

/-- Blanks stop every class that holds none of them. -/
theorem Blanks.stops {p : Char → Bool} {w : List Char} (hw : Blanks w)
    (hp : ∀ c, Text.isBlank c = true → p c = false) : Stops p w := by
  cases w with
  | nil => exact .nil
  | cons c w => exact .cons (hp c (hw c List.mem_cons_self)) w

theorem goesOn_of_isBlank {c : Char} (h : Text.isBlank c = true) : goesOn c = false := by
  rw [goesOn, not_identifier_of_isBlank h, Bool.false_or, beq_eq_false_iff_ne]
  rintro rfl
  exact absurd h (by decide)

theorem goesOn_of_isOperatorChar {c : Char} (h : isOperatorChar c = true) : goesOn c = false := by
  simp only [isOperatorChar, Bool.or_eq_true, beq_iff_eq] at h
  rcases h with (((rfl | rfl) | rfl) | rfl) | rfl <;> decide

theorem Follows.stops {rest : List Char} (h : Follows rest) : Stops goesOn rest := by
  obtain ⟨w, s, hw, rfl | rfl⟩ := h
  · exact .append (hw.stops fun _ => goesOn_of_isBlank) (.cons (by decide) _)
  · exact .append (hw.stops fun _ => goesOn_of_isBlank) (.cons (by decide) _)

theorem OperandText.stops_operator {t : List Char} {operand : Operand} (h : OperandText t operand)
    (rest : List Char) : Stops isOperatorChar (t ++ rest) := by
  obtain ⟨w, c, s, rfl, hw, hc⟩ := h.start
  have hblank : ∀ c, Text.isBlank c = true → isOperatorChar c = false := by
    intro c hb
    cases hop : isOperatorChar c with
    | false => rfl
    | true => exact absurd (hb.symm.trans (isBlank_of_isOperatorChar hop)) Bool.noConfusion
  have hop : isOperatorChar c = false := by
    cases hop : isOperatorChar c with
    | false => rfl
    | true => exact absurd (hc.symm.trans (startsOperand_of_isOperatorChar hop)) Bool.noConfusion
  rw [List.append_assoc]
  exact .append (hw.stops hblank) (.cons hop _)

/-- The text of a comparison is read up to the blanks behind it. -/
theorem ComparisonText.read {t rest : List Char} {p : Predicate} (h : ComparisonText t p)
    (hrest : Follows rest) :
    ∃ r, readComparison (t ++ rest) = .ok (p, r) ∧ skipBlanks r = skipBlanks rest := by
  cases h with
  | truthy ht =>
    obtain ⟨c, s, hskip, hc⟩ := hrest.skip
    have hrun : (skipBlanks rest).takeWhile isOperatorChar = [] := by
      rw [hskip]
      exact List.takeWhile_cons_of_neg (by rw [hc]; exact Bool.false_ne_true)
    refine ⟨skipBlanks rest, ?_, Text.skipBlanks_idem rest⟩
    rw [readComparison, ht.read hrest.stops]
    simp only [Reading.bind_ok, hrun, if_true]
    rfl
  | @compare t w u op left right ht hw hu =>
    obtain ⟨c, s, hcs⟩ := op.exists_render
    have hc : isOperatorChar c = true :=
      op.isOperatorChar_of_mem_render c (hcs ▸ List.mem_cons_self)
    have hstop : Stops goesOn (w ++ (op.render ++ (u ++ rest))) := by
      refine .append (hw.stops fun _ => goesOn_of_isBlank) ?_
      rw [hcs]
      exact .cons (goesOn_of_isOperatorChar hc) _
    have hskip : skipBlanks (w ++ (op.render ++ (u ++ rest))) = op.render ++ (u ++ rest) := by
      rw [hw.skip, hcs]
      exact Text.skipBlanks_cons_of_not (isBlank_of_isOperatorChar hc) _
    have htake := (hu.stops_operator rest).takeWhile op.isOperatorChar_of_mem_render
    have hdrop := (hu.stops_operator rest).dropWhile op.isOperatorChar_of_mem_render
    refine ⟨rest, ?_, rfl⟩
    simp only [List.append_assoc]
    rw [readComparison, ht.read hstop]
    simp only [Reading.bind_ok, hskip, htake, hdrop]
    rw [if_neg (by rw [hcs]; exact List.cons_ne_nil c s)]
    simp only [Comparator.ofText?_eq_some_iff.mpr rfl, hu.read hrest.stops]
    rfl

end DocQuery
