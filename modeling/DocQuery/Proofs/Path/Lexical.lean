import DocQuery.Proofs.Path.Grammar

/- Blanks, names, quoted strings and numbers: the readers take exactly the texts of the grammar. -/

namespace DocQuery

open Text (skipBlanks)

theorem Reading.bind_ok {α β : Type} (a : α) (f : α → Except Fault β) :
    (Except.ok a >>= f) = f a := rfl

theorem Blanks.nil : Blanks [] := by
  intro c hc
  contradiction

theorem Blanks.space : Blanks [' '] := by
  intro c hc
  rw [List.mem_singleton.mp hc]
  decide

theorem Blanks.append {w w₁ : List Char} (h : Blanks w) (h₁ : Blanks w₁) : Blanks (w ++ w₁) := by
  intro c hc
  rcases List.mem_append.mp hc with hc | hc
  · exact h c hc
  · exact h₁ c hc

theorem Blanks.skip {w : List Char} (h : Blanks w) (s : List Char) :
    skipBlanks (w ++ s) = skipBlanks s := List.dropWhile_append_of_pos h

theorem Blanks.skip_cons {w : List Char} (h : Blanks w) {c : Char} (hc : Text.isBlank c = false)
    (s : List Char) : skipBlanks (w ++ c :: s) = c :: s := by
  rw [h.skip]
  exact Text.skipBlanks_cons_of_not hc s

theorem exists_blanks (s : List Char) : ∃ w, Blanks w ∧ s = w ++ skipBlanks s := by
  refine ⟨s.takeWhile Text.isBlank, ?_, List.takeWhile_append_dropWhile.symm⟩
  exact List.all_eq_true.mp List.all_takeWhile

/-- Stretches of code points above ASCII that hold all blanks and no alphanumeric character. -/
def blankStretches : List (Nat × Nat) :=
  [(0x80, 0xA0), (0x1680, 0x1680), (0x2000, 0x205F), (0x3000, 0x3000)]

theorem alphanumericRanges_apart :
    (Text.alphanumericRanges.all fun r => blankStretches.all fun b =>
      Nat.blt r.2 b.1 || Nat.blt b.2 r.1) = true := by decide +kernel

theorem inRanges_of_blankStretch {c : Char} {b : Nat × Nat} (hb : b ∈ blankStretches)
    (hlow : b.1 ≤ c.toNat) (hhigh : c.toNat ≤ b.2) :
    Text.inRanges Text.alphanumericRanges c = false := by
  rw [Text.inRanges, List.any_eq_false]
  intro r hr
  have hapart := List.all_eq_true.mp (List.all_eq_true.mp alphanumericRanges_apart r hr) b hb
  simp only [Bool.or_eq_true, Nat.blt_eq] at hapart
  simp only [Bool.and_eq_true, decide_eq_true_eq]
  omega

theorem isBlank_cases {c : Char} (h : Text.isBlank c = true) :
    (9 ≤ c.toNat ∧ c.toNat ≤ 13 ∨ c.toNat = 32) ∨
      0x80 ≤ c.toNat ∧ ∃ b ∈ blankStretches, b.1 ≤ c.toNat ∧ c.toNat ≤ b.2 := by
  simp only [Text.isBlank, Bool.or_eq_true, Bool.and_eq_true, decide_eq_true_eq, beq_iff_eq] at h
  simp only [blankStretches, List.mem_cons, List.not_mem_nil, or_false, exists_eq_or_imp,
    exists_eq_left]
  omega

/-- Names end where blanks begin. -/
theorem not_identifier_of_isBlank {c : Char} (h : Text.isBlank c = true) :
    isIdentifierChar c = false := by
  rcases isBlank_cases h with hascii | ⟨hcode, b, hb, hlow, hhigh⟩
  · have hmem : c.toNat ∈ [9, 10, 11, 12, 13, 32] := by
      simp only [List.mem_cons, List.not_mem_nil, or_false]
      omega
    have hall : ∀ n ∈ [9, 10, 11, 12, 13, 32], isIdentifierChar (Char.ofNat n) = false := by decide
    exact Char.ofNat_toNat c ▸ hall c.toNat hmem
  · have hne {d : Char} (hd : d.toNat < 0x80) : (c == d) = false := by
      rw [beq_eq_false_iff_ne]
      rintro rfl
      omega
    rw [isIdentifierChar, Text.isAlphanumeric, if_neg (by omega),
      inRanges_of_blankStretch hb hlow hhigh, hne (by decide), hne (by decide), hne (by decide)]
    rfl

theorem isBlank_of_identifier {c : Char} (h : isIdentifierChar c = true) :
    Text.isBlank c = false := by
  cases hb : Text.isBlank c with
  | false => rfl
  | true => exact absurd ((not_identifier_of_isBlank hb).symm.trans h) Bool.false_ne_true

/-- A text whose first character, if it has one, is outside a class of characters. -/
def Stops (p : Char → Bool) (rest : List Char) : Prop := ∀ c, rest.head? = some c → p c = false

theorem Stops.nil {p : Char → Bool} : Stops p [] := by
  intro c hc
  contradiction

theorem Stops.cons {p : Char → Bool} {c : Char} (hc : p c = false) (s : List Char) :
    Stops p (c :: s) := by
  intro d hd
  rw [← Option.some.inj hd]
  exact hc

theorem Stops.append {p : Char → Bool} {t rest : List Char} (ht : Stops p t)
    (hrest : Stops p rest) : Stops p (t ++ rest) := by
  cases t with
  | nil => exact hrest
  | cons c t => exact .cons (ht c rfl) _

theorem Stops.mono {p q : Char → Bool} {rest : List Char} (h : Stops p rest)
    (hpq : ∀ c, p c = false → q c = false) : Stops q rest := fun c hc => hpq c (h c hc)

theorem Stops.takeWhile {p : Char → Bool} {t rest : List Char} (hrest : Stops p rest)
    (ht : ∀ c ∈ t, p c = true) : (t ++ rest).takeWhile p = t := by
  rw [List.takeWhile_append_of_pos ht]
  cases rest with
  | nil => exact List.append_nil t
  | cons c rest =>
    have hc := hrest c rfl
    rw [List.takeWhile_cons_of_neg (by rw [hc]; exact Bool.false_ne_true), List.append_nil]

theorem Stops.dropWhile {p : Char → Bool} {t rest : List Char} (hrest : Stops p rest)
    (ht : ∀ c ∈ t, p c = true) : (t ++ rest).dropWhile p = rest := by
  rw [List.dropWhile_append_of_pos ht]
  cases rest with
  | nil => rfl
  | cons c rest =>
    have hc := hrest c rfl
    rw [List.dropWhile_cons_of_neg (by rw [hc]; exact Bool.false_ne_true)]

/-- Characters with which a name or a number may go on. -/
def goesOn (c : Char) : Bool := isIdentifierChar c || c == '.'

theorem isIdentifierChar_of_isDigit {c : Char} (h : c.isDigit = true) :
    isIdentifierChar c = true := by
  have hcode : 48 ≤ c.toNat ∧ c.toNat ≤ 57 := by
    rw [Char.isDigit, Bool.and_eq_true, decide_eq_true_eq, decide_eq_true_eq] at h
    exact ⟨UInt32.le_iff_toNat_le.mp h.1, UInt32.le_iff_toNat_le.mp h.2⟩
  have halpha : Text.isAlphanumeric c = true := by
    refine Text.isAlphanumeric_of_isAlphanum ?_ (by omega)
    rw [Char.isAlphanum, h, Bool.or_true]
  rw [isIdentifierChar, halpha, Bool.true_or, Bool.true_or, Bool.true_or]

section
variable {rest : List Char} (h : Stops goesOn rest)
include h

theorem Stops.identifier : Stops isIdentifierChar rest :=
  h.mono fun _ hc => (Bool.or_eq_false_iff.mp hc).1

theorem Stops.point : Stops (· == '.') rest := h.mono fun _ hc => (Bool.or_eq_false_iff.mp hc).2

theorem Stops.digit : Stops Char.isDigit rest := by
  refine h.identifier.mono ?_
  intro c hc
  cases hd : c.isDigit with
  | false => rfl
  | true => exact absurd (hc.symm.trans (isIdentifierChar_of_isDigit hd)) Bool.false_ne_true

end

theorem mem_takeWhile {p : Char → Bool} (s : List Char) : ∀ c ∈ s.takeWhile p, p c = true :=
  List.all_eq_true.mp List.all_takeWhile

theorem identifierText_of_readIdentifier {s rest : List Char} {name : String}
    (h : readIdentifier s = .ok (name, rest)) : ∃ t, s = t ++ rest ∧ IdentifierText t name := by
  rw [readIdentifier] at h
  split at h
  · contradiction
  · next hne =>
    obtain ⟨rfl, rfl⟩ := Prod.mk.inj (Except.ok.inj h)
    exact ⟨_, List.takeWhile_append_dropWhile.symm, .mk hne (mem_takeWhile s)⟩

theorem IdentifierText.read {t rest : List Char} {name : String} (h : IdentifierText t name)
    (hrest : Stops isIdentifierChar rest) : readIdentifier (t ++ rest) = .ok (name, rest) := by
  obtain ⟨hne, ht⟩ := h
  rw [readIdentifier, hrest.takeWhile ht, hrest.dropWhile ht, if_neg hne]

theorem mem_escapes_iff {e c : Char} : (e, c) ∈ escapes ↔ Quoted.unescape? e = some c := by
  constructor
  · intro h
    simp only [escapes, List.mem_cons, Prod.mk.injEq, List.not_mem_nil, or_false] at h
    rcases h with ⟨rfl, rfl⟩ | ⟨rfl, rfl⟩ | ⟨rfl, rfl⟩ | ⟨rfl, rfl⟩ | ⟨rfl, rfl⟩ | ⟨rfl, rfl⟩ <;> rfl
  · intro h
    unfold Quoted.unescape? at h
    split at h <;> first | contradiction | (obtain rfl := Option.some.inj h; decide)

theorem quotedBody_of_decode {quote : Char} {s text rest : List Char}
    (h : Quoted.decode quote s = .ok (text, rest)) :
    ∃ t, s = t ++ quote :: rest ∧ QuotedBody quote t text := by
  induction s using Quoted.decode.induct quote generalizing text with
  | case1 => contradiction
  | case2 => contradiction
  | case3 e s hnone =>
    rw [Quoted.decode, hnone] at h
    contradiction
  | case4 e s d hsome ih =>
    rw [Quoted.decode, hsome] at h
    obtain ⟨⟨text, r⟩, ha, hr⟩ := Reading.ok_of_map h
    obtain ⟨rfl, rfl⟩ := Prod.mk.inj hr
    obtain ⟨t, rfl, ht⟩ := ih ha
    exact ⟨'\\' :: e :: t, rfl, .escape (mem_escapes_iff.mpr hsome) ht⟩
  | case5 s hnil hslash =>
    rw [Quoted.decode, if_pos rfl] at h
    · obtain ⟨rfl, rfl⟩ := Prod.mk.inj (Except.ok.inj h)
      exact ⟨[], rfl, .nil⟩
    · exact hnil
    · exact hslash
  | case6 c s hnil hslash hquote ih =>
    rw [Quoted.decode, if_neg hquote] at h
    · obtain ⟨⟨text, r⟩, ha, hr⟩ := Reading.ok_of_map h
      obtain ⟨rfl, rfl⟩ := Prod.mk.inj hr
      obtain ⟨t, rfl, ht⟩ := ih ha
      refine ⟨c :: t, rfl, .plain hquote ?_ ht⟩
      intro hc
      cases t with
      | nil => exact hslash quote _ hc rfl
      | cons d t => exact hslash d _ hc rfl
    · exact hnil
    · exact hslash

theorem Quoted.decode_close {quote : Char} (hquote : quote ≠ '\\') (s : List Char) :
    decode quote (quote :: s) = .ok ([], s) := by
  rw [decode, if_pos rfl]
  · exact fun h => absurd h hquote
  · exact fun _ _ h => absurd h hquote

theorem Quoted.decode_plain {quote c : Char} (hc : c ≠ quote) (hslash : c ≠ '\\')
    (s : List Char) :
    decode quote (c :: s) = (decode quote s).map fun (text, rest) => (c :: text, rest) := by
  rw [decode, if_neg hc]
  · exact fun h => absurd h hslash
  · exact fun _ _ h => absurd h hslash

theorem QuotedBody.decode {quote : Char} {t text : List Char} (h : QuotedBody quote t text)
    (hquote : quote ≠ '\\') (rest : List Char) :
    Quoted.decode quote (t ++ quote :: rest) = .ok (text, rest) := by
  induction h with
  | nil => exact Quoted.decode_close hquote rest
  | plain hc hslash h ih =>
    rw [List.cons_append, Quoted.decode_plain hc hslash, ih]
    rfl
  | escape he h ih =>
    rw [List.cons_append, List.cons_append, Quoted.decode, mem_escapes_iff.mp he, ih]
    rfl

theorem isQuote_iff {c : Char} : Quoted.isQuote c = true ↔ c = '\'' ∨ c = '"' := by
  rw [Quoted.isQuote, Bool.or_eq_true, beq_iff_eq, beq_iff_eq]

theorem quotedText_of_readQuoted {s rest : List Char} {text : String}
    (h : readQuoted s = .ok (text, rest)) : ∃ t, s = t ++ rest ∧ QuotedText t text := by
  cases s with
  | nil => contradiction
  | cons c s =>
    rw [readQuoted] at h
    split at h
    · next hc =>
      obtain ⟨⟨text, r⟩, ha, hr⟩ := Reading.ok_of_map h
      obtain ⟨rfl, rfl⟩ := Prod.mk.inj hr
      obtain ⟨t, rfl, ht⟩ := quotedBody_of_decode ha
      refine ⟨c :: (t ++ [c]), ?_, .mk (isQuote_iff.mp hc) ht⟩
      rw [List.cons_append, List.append_assoc, List.singleton_append]
    · contradiction

theorem QuotedText.read {t : List Char} {text : String} (h : QuotedText t text)
    (rest : List Char) : readQuoted (t ++ rest) = .ok (text, rest) := by
  obtain ⟨hq, hbody⟩ := h
  next q s text =>
  have hslash : q ≠ '\\' := by rcases hq with rfl | rfl <;> decide
  rw [List.cons_append, List.append_assoc, List.singleton_append, readQuoted,
    if_pos (isQuote_iff.mpr hq), hbody.decode hslash]
  rfl

theorem QuotedText.eq_cons {t : List Char} {text : String} (h : QuotedText t text) :
    ∃ q s, t = q :: s ∧ (q = '\'' ∨ q = '"') := by
  obtain ⟨hq, hbody⟩ := h
  exact ⟨_, _, rfl, hq⟩

theorem QuotedText.skip {w t : List Char} {text : String} (hw : Blanks w) (h : QuotedText t text)
    (rest : List Char) : skipBlanks (w ++ (t ++ rest)) = t ++ rest := by
  obtain ⟨q, s, rfl, hq⟩ := h.eq_cons
  exact hw.skip_cons (by rcases hq with rfl | rfl <;> decide) _

namespace Numeral

theorem digits_of_digits? {s d rest : List Char} (h : digits? s = some (d, rest)) :
    s = d ++ rest ∧ Digits d := by
  refine ⟨append_of_digits? h, ne_nil_of_digits? h, ?_⟩
  rw [digits?] at h
  split at h
  · contradiction
  · obtain ⟨rfl, _⟩ := Prod.mk.inj (Option.some.inj h)
    exact mem_takeWhile s

theorem digits?_read {d rest : List Char} (h : Digits d) (hrest : Stops Char.isDigit rest) :
    digits? (d ++ rest) = some (d, rest) := by
  rw [digits?, hrest.takeWhile h.2, hrest.dropWhile h.2, if_neg h.1]

theorem digits_eq_cons {d : List Char} (h : Digits d) : ∃ c s, d = c :: s ∧ c.isDigit = true := by
  obtain ⟨c, s, rfl⟩ := List.exists_cons_of_ne_nil h.1
  exact ⟨c, s, rfl, h.2 c List.mem_cons_self⟩

theorem fractionText_of_fraction? {s rest : List Char} {fraction : Option (List Char)}
    (h : fraction? s = some (fraction, rest)) : ∃ t, s = t ++ rest ∧ FractionText t fraction := by
  unfold fraction? at h
  split at h
  · obtain ⟨⟨d, r⟩, hd, hr⟩ := Option.map_eq_some_iff.mp h
    obtain ⟨rfl, rfl⟩ := Prod.mk.inj hr
    obtain ⟨rfl, hdigits⟩ := digits_of_digits? hd
    exact ⟨'.' :: d, rfl, .present hdigits⟩
  · obtain ⟨rfl, rfl⟩ := Prod.mk.inj (Option.some.inj h)
    exact ⟨[], rfl, .absent⟩

theorem fraction?_read {t rest : List Char} {fraction : Option (List Char)}
    (h : FractionText t fraction) (hdigit : Stops Char.isDigit rest)
    (hpoint : Stops (· == '.') rest) : fraction? (t ++ rest) = some (fraction, rest) := by
  cases h with
  | absent =>
    unfold fraction?
    split
    · next hs => exact absurd (hpoint '.' (congrArg List.head? hs)) (by decide)
    · rfl
  | present hd =>
    rw [List.cons_append, fraction?, digits?_read hd hdigit]
    rfl

theorem exponentText_of_exponentDigits? {e : Char} {s rest : List Char} {n : Int}
    (he : e = 'e' ∨ e = 'E') (h : exponentDigits? s = some (n, rest)) :
    ∃ t, e :: s = t ++ rest ∧ ExponentText t (some n) := by
  unfold exponentDigits? at h
  split at h
  all_goals
    obtain ⟨⟨d, r⟩, hd, hr⟩ := Option.map_eq_some_iff.mp h
    obtain ⟨rfl, rfl⟩ := Prod.mk.inj hr
    obtain ⟨rfl, hdigits⟩ := digits_of_digits? hd
  · exact ⟨e :: '-' :: d, rfl, .minus he hdigits⟩
  · exact ⟨e :: '+' :: d, rfl, .plus he hdigits⟩
  · exact ⟨e :: d, rfl, .bare he hdigits⟩

theorem exponentText_of_exponent? {s rest : List Char} {exponent : Option Int}
    (h : exponent? s = some (exponent, rest)) : ∃ t, s = t ++ rest ∧ ExponentText t exponent := by
  unfold exponent? at h
  split at h
  · obtain ⟨⟨n, r⟩, hn, hr⟩ := Option.map_eq_some_iff.mp h
    obtain ⟨rfl, rfl⟩ := Prod.mk.inj hr
    exact exponentText_of_exponentDigits? (.inl rfl) hn
  · obtain ⟨⟨n, r⟩, hn, hr⟩ := Option.map_eq_some_iff.mp h
    obtain ⟨rfl, rfl⟩ := Prod.mk.inj hr
    exact exponentText_of_exponentDigits? (.inr rfl) hn
  · obtain ⟨rfl, rfl⟩ := Prod.mk.inj (Option.some.inj h)
    exact ⟨[], rfl, .absent⟩

theorem exponent?_of_exponentDigits? {e : Char} {s rest : List Char} {n : Int}
    (he : e = 'e' ∨ e = 'E') (h : exponentDigits? s = some (n, rest)) :
    exponent? (e :: s) = some (some n, rest) := by
  rcases he with rfl | rfl
  · rw [exponent?, h]
    rfl
  · rw [exponent?, h]
    rfl

theorem exponentDigits?_bare {d rest : List Char} (h : Digits d)
    (hrest : Stops Char.isDigit rest) :
    exponentDigits? (d ++ rest) = some ((natOfDigits d : Int), rest) := by
  have hread := digits?_read h hrest
  obtain ⟨c, s, rfl, hc⟩ := digits_eq_cons h
  unfold exponentDigits?
  split
  · next hs => exact absurd ((List.cons.inj hs).1 ▸ hc) (by decide)
  · next hs => exact absurd ((List.cons.inj hs).1 ▸ hc) (by decide)
  · rw [hread]
    rfl

theorem exponent?_read {t rest : List Char} {exponent : Option Int}
    (h : ExponentText t exponent) (hrest : Stops isIdentifierChar rest)
    (hdigit : Stops Char.isDigit rest) : exponent? (t ++ rest) = some (exponent, rest) := by
  cases h with
  | absent =>
    unfold exponent?
    split
    · next hs => exact absurd (hrest 'e' (congrArg List.head? hs)) (by decide)
    · next hs => exact absurd (hrest 'E' (congrArg List.head? hs)) (by decide)
    · rfl
  | bare he hd => exact exponent?_of_exponentDigits? he (exponentDigits?_bare hd hdigit)
  | @plus e s he hd =>
    refine exponent?_of_exponentDigits? he ?_
    show exponentDigits? ('+' :: (s ++ rest)) = _
    rw [exponentDigits?, digits?_read hd hdigit]
    rfl
  | @minus e s he hd =>
    refine exponent?_of_exponentDigits? he ?_
    show exponentDigits? ('-' :: (s ++ rest)) = _
    rw [exponentDigits?, digits?_read hd hdigit]
    rfl

theorem numeralText_of_unsigned? {negative : Bool} {s rest : List Char} {n : Numeral}
    (h : unsigned? negative s = some (n, rest)) :
    ∃ t, s = t ++ rest ∧ NumeralText (signed negative t) n := by
  obtain ⟨⟨whole, s₁⟩, hwhole, h⟩ := Option.bind_eq_some_iff.mp h
  obtain ⟨⟨fraction, s₂⟩, hfraction, h⟩ := Option.bind_eq_some_iff.mp h
  obtain ⟨⟨exponent, s₃⟩, hexponent, h⟩ := Option.bind_eq_some_iff.mp h
  obtain ⟨rfl, rfl⟩ := Prod.mk.inj (Option.some.inj h)
  obtain ⟨rfl, hdigits⟩ := digits_of_digits? hwhole
  obtain ⟨t₁, rfl, ht₁⟩ := fractionText_of_fraction? hfraction
  obtain ⟨t₂, rfl, ht₂⟩ := exponentText_of_exponent? hexponent
  exact ⟨whole ++ (t₁ ++ t₂), by simp only [List.append_assoc], .mk hdigits ht₁ ht₂⟩

theorem numeralText_of_scan? {s rest : List Char} {n : Numeral}
    (h : scan? s = some (n, rest)) : ∃ t, s = t ++ rest ∧ NumeralText t n := by
  unfold scan? at h
  split at h
  · obtain ⟨t, rfl, ht⟩ := numeralText_of_unsigned? h
    exact ⟨'-' :: t, rfl, ht⟩
  · exact numeralText_of_unsigned? h

theorem stops_fraction {p : Char → Bool} {t : List Char} {fraction : Option (List Char)}
    (h : FractionText t fraction) (hp : p '.' = false) : Stops p t := by
  cases h with
  | absent => exact .nil
  | present hd => exact .cons hp _

theorem stops_exponent {p : Char → Bool} {t : List Char} {exponent : Option Int}
    (h : ExponentText t exponent) (he : p 'e' = false) (hE : p 'E' = false) : Stops p t := by
  have hp {e : Char} (h : e = 'e' ∨ e = 'E') : p e = false := by
    rcases h with rfl | rfl
    · exact he
    · exact hE
  cases h with
  | absent => exact .nil
  | bare h hd => exact .cons (hp h) _
  | plus h hd => exact .cons (hp h) _
  | minus h hd => exact .cons (hp h) _

theorem scan?_read {t rest : List Char} {n : Numeral} (h : NumeralText t n)
    (hrest : Stops goesOn rest) : scan? (t ++ rest) = some (n, rest) := by
  obtain ⟨hwhole, hfraction, hexponent⟩ := h
  next negative whole s t fraction exponent =>
  have hdigit₂ : Stops Char.isDigit (t ++ rest) :=
    .append (stops_exponent hexponent (by decide) (by decide)) hrest.digit
  have hpoint₂ : Stops (· == '.') (t ++ rest) :=
    .append (stops_exponent hexponent (by decide) (by decide)) hrest.point
  have hdigit₁ : Stops Char.isDigit (s ++ (t ++ rest)) :=
    .append (stops_fraction hfraction (by decide)) hdigit₂
  have hsigned : signed negative (whole ++ (s ++ t)) ++ rest =
      signed negative (whole ++ (s ++ (t ++ rest))) := by
    cases negative <;> simp only [signed, if_true, if_false, Bool.false_eq_true, List.cons_append,
      List.append_assoc]
  have hhead : (whole ++ (s ++ (t ++ rest))).head? ≠ some '-' := by
    obtain ⟨c, d, rfl, hc⟩ := digits_eq_cons hwhole
    intro h
    exact absurd (Option.some.inj h ▸ hc) (by decide)
  rw [hsigned, scan?_signed _ hhead, unsigned?, digits?_read hwhole hdigit₁]
  show (fraction? (s ++ (t ++ rest))).bind _ = _
  rw [fraction?_read hfraction hdigit₂ hpoint₂]
  show (exponent? (t ++ rest)).bind _ = _
  rw [exponent?_read hexponent hrest.identifier hrest.digit]
  rfl

theorem eq_cons_of_numeralText {t : List Char} {n : Numeral} (h : NumeralText t n) :
    ∃ c s, t = c :: s ∧ (c = '-' ∨ c.isDigit = true) := by
  obtain ⟨hwhole, hfraction, hexponent⟩ := h
  next negative whole s t fraction exponent =>
  cases negative with
  | false =>
    obtain ⟨c, d, rfl, hc⟩ := digits_eq_cons hwhole
    exact ⟨c, _, rfl, .inr hc⟩
  | true => exact ⟨'-', _, rfl, .inl rfl⟩

end Numeral

theorem fitsLiteral_iff {i : Int} :
    fitsLiteral i = true ↔ -9223372036854775808 ≤ i ∧ i < 9223372036854775808 := by
  simp only [fitsLiteral, Bool.and_eq_true, decide_eq_true_eq]

theorem ofNumeral?_eq_some_iff {n : Numeral} {number : Number} :
    Number.ofNumeral? fitsLiteral Numeral.toBinary64? n = some number ↔ Denotes n number := by
  by_cases hfits : ∃ i, n.toInt? = some i ∧ fitsLiteral i = true
  · obtain ⟨i, hi, hfit⟩ := hfits
    have hrange := fitsLiteral_iff.mp hfit
    have hint : Number.ofNumeral? fitsLiteral Numeral.toBinary64? n =
        some (.int ⟨i, hrange.1, by omega⟩) := by
      rw [Number.ofNumeral?, hi, Option.filter_some_pos hfit, Option.bind_some, WideInt.ofInt?,
        dif_pos ⟨hrange.1, by omega⟩]
    rw [hint]
    constructor
    · intro h
      obtain rfl := Option.some.inj h
      exact .int hi hrange.1 hrange.2
    · intro h
      cases h with
      | @int j hj _ _ =>
        have hval : i = j.val := Option.some.inj (hi.symm.trans hj)
        subst hval
        rfl
      | float hno _ => exact absurd hrange (hno i hi)
  · have hnone : n.toInt?.filter fitsLiteral = none := by
      cases hi : n.toInt? with
      | none => rfl
      | some i => exact Option.filter_some_neg (Bool.eq_false_iff.mpr fun hfit => hfits ⟨i, hi, hfit⟩)
    rw [Number.ofNumeral?, hnone, Option.bind_none, Option.map_eq_some_iff]
    constructor
    · rintro ⟨x, hx, rfl⟩
      exact .float (fun i hi hrange => hfits ⟨i, hi, fitsLiteral_iff.mpr hrange⟩) hx
    · intro h
      cases h with
      | int hi hlow hhigh => exact absurd ⟨_, hi, fitsLiteral_iff.mpr ⟨hlow, hhigh⟩⟩ hfits
      | float _ hx => exact ⟨_, hx, rfl⟩

theorem numeralText_of_readNumber {s rest : List Char} {number : Number}
    (h : readNumber s = .ok (number, rest)) :
    ∃ t n, s = t ++ rest ∧ NumeralText t n ∧ Denotes n number := by
  rw [readNumber] at h
  split at h
  · contradiction
  · next n r hscan =>
    split at h
    · contradiction
    · next hnumber =>
      obtain ⟨rfl, rfl⟩ := Prod.mk.inj (Except.ok.inj h)
      obtain ⟨t, rfl, ht⟩ := Numeral.numeralText_of_scan? hscan
      exact ⟨t, n, rfl, ht, ofNumeral?_eq_some_iff.mp hnumber⟩

theorem readNumber_of_numeralText {t rest : List Char} {n : Numeral} {number : Number}
    (h : NumeralText t n) (hn : Denotes n number) (hrest : Stops goesOn rest) :
    readNumber (t ++ rest) = .ok (number, rest) := by
  simp only [readNumber, Numeral.scan?_read h hrest, ofNumeral?_eq_some_iff.mpr hn]

end DocQuery
