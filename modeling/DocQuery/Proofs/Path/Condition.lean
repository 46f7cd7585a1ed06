import DocQuery.Proofs.Path.Operand

/- Predicates: the reader takes exactly the texts of the grammar. What a reader may still open and
what is open already add up to the limit. -/

namespace DocQuery

open Text (skipBlanks)

theorem ComparisonText.blanks_append {w t : List Char} {p : Predicate} (hw : Blanks w)
    (h : ComparisonText t p) : ComparisonText (w ++ t) p := by
  cases h with
  | truthy ht => exact .truthy (ht.blanks_append hw)
  | compare ht hw₁ hu => exact List.append_assoc .. ▸ .compare (ht.blanks_append hw) hw₁ hu

theorem UnaryText.blanks_append {d : Nat} {w t : List Char} {p : Predicate} (hw : Blanks w)
    (h : UnaryText d t p) : UnaryText d (w ++ t) p := by
  cases h with
  | not hw₁ hd ht => exact List.append_assoc .. ▸ .not (hw.append hw₁) hd ht
  | group hw₁ hd ht hw₂ => exact List.append_assoc .. ▸ .group (hw.append hw₁) hd ht hw₂
  | comparison ht => exact .comparison (ht.blanks_append hw)

theorem readUnary_not {levels : Nat} {s rest : List Char} (hskip : skipBlanks s = '!' :: rest)
    (hrest : rest.head? ≠ some '=') :
    readUnary (levels + 1) s =
      (readUnary levels rest >>= fun (inner, rest) => pure (.not inner, rest)) := by
  rw [readUnary.eq_def]
  simp only [hskip, if_neg hrest]

theorem readUnary_zero_not {s rest : List Char} (hskip : skipBlanks s = '!' :: rest)
    (hrest : rest.head? ≠ some '=') : readUnary 0 s = .error (.tooDeep ('!' :: rest)) := by
  rw [readUnary.eq_def]
  simp only [hskip, if_neg hrest]

theorem readUnary_group {levels : Nat} {s rest : List Char} (hskip : skipBlanks s = '(' :: rest) :
    readUnary (levels + 1) s =
      (readConjunction levels rest >>= fun (inner, rest) =>
        expect ')' (skipBlanks rest) >>= fun rest => pure (inner, rest)) := by
  rw [readUnary.eq_def, readConjunction]
  simp only [hskip, bind_assoc]

theorem readComparison_skipBlanks (s : List Char) :
    readComparison (skipBlanks s) = readComparison s := by
  simp only [readComparison, readOperand, Text.skipBlanks_idem]

theorem readUnary_comparison {levels : Nat} {c : Char} {s rest : List Char}
    (hskip : skipBlanks s = c :: rest) (hc : startsOperand c = true) :
    readUnary levels s = readComparison s := by
  rw [readUnary.eq_def]
  split
  · next h => exact absurd ((List.cons.inj (hskip.symm.trans h)).1 ▸ hc) (by decide)
  · next h => exact absurd ((List.cons.inj (hskip.symm.trans h)).1 ▸ hc) (by decide)
  · exact readComparison_skipBlanks s

theorem readChain_congr {levels : Nat} {left : Predicate} {s s₁ : List Char}
    (h : skipBlanks s = skipBlanks s₁) : readChain levels left s = readChain levels left s₁ := by
  rw [readChain.eq_def, readChain.eq_def levels left s₁, h]

theorem readChain_and {levels : Nat} {left : Predicate} {s rest : List Char}
    (hskip : skipBlanks s = '&' :: '&' :: rest) :
    readChain (levels + 1) left s =
      (readUnary levels rest >>= fun (right, rest) => readChain levels (.and left right) rest) := by
  rw [readChain.eq_def]
  simp only [hskip]

theorem readChain_close {levels : Nat} {left : Predicate} {s rest : List Char}
    (hskip : skipBlanks s = ')' :: rest) :
    readChain levels left s = .ok (left, ')' :: rest) := by
  rw [readChain.eq_def, hskip]
  rfl

mutual

theorem unaryText_of_readUnary {levels d : Nat} {s rest : List Char} {p : Predicate}
    (hd : d + levels = maxNesting) (h : readUnary levels s = .ok (p, rest)) :
    ∃ t w, s = t ++ (w ++ rest) ∧ Blanks w ∧ UnaryText d t p := by
  have hcompare (h : readComparison (skipBlanks s) = .ok (p, rest)) :
      ∃ t w, s = t ++ (w ++ rest) ∧ Blanks w ∧ UnaryText d t p := by
    rw [readComparison_skipBlanks] at h
    obtain ⟨t, w, hs, hw, ht⟩ := comparisonText_of_readComparison h
    exact ⟨t, w, hs, hw, .comparison ht⟩
  obtain ⟨w, hw, hs⟩ := exists_blanks s
  rw [readUnary.eq_def] at h
  split at h
  · next s' hskip =>
    split at h
    · exact hcompare (hskip ▸ h)
    · cases levels with
      | zero => contradiction
      | succ levels =>
        obtain ⟨⟨inner, r⟩, hinner, h⟩ := Reading.ok_of_bind h
        obtain ⟨rfl, rfl⟩ := Prod.mk.inj (Except.ok.inj h)
        obtain ⟨t, w₁, hs', hw₁, ht⟩ := unaryText_of_readUnary (d := d + 1) (by omega) hinner
        refine ⟨w ++ '!' :: t, w₁, ?_, hw₁, .not hw (by omega) ht⟩
        rw [hs, hskip, hs']
        simp only [List.append_assoc, List.cons_append]
  · next s' hskip =>
    cases levels with
    | zero => contradiction
    | succ levels =>
      obtain ⟨⟨first, r⟩, hfirst, h⟩ := Reading.ok_of_bind h
      obtain ⟨⟨inner, r₁⟩, hinner, h⟩ := Reading.ok_of_bind h
      obtain ⟨r₂, hexpect, h⟩ := Reading.ok_of_bind h
      obtain ⟨rfl, rfl⟩ := Prod.mk.inj (Except.ok.inj h)
      obtain ⟨t, w₁, hs', hw₁, ht⟩ := unaryText_of_readUnary (d := d + 1) (by omega) hfirst
      obtain ⟨k, t₁, w₂, hs₁, hw₂, ht₁⟩ :=
        conjunctionText_of_readChain (by omega) (.single ht) hw₁ hinner
      obtain ⟨w₃, hw₃, hr₁⟩ := exists_blanks r₁
      refine ⟨w ++ '(' :: (t₁ ++ ((w₂ ++ w₃) ++ [')'])), [], ?_, .nil,
        .group hw (by omega) ht₁ (hw₂.append hw₃)⟩
      rw [hs, hskip, hs', hs₁, hr₁, eq_cons_of_expect hexpect]
      simp only [List.append_assoc, List.cons_append, List.nil_append]
  · exact hcompare h

theorem conjunctionText_of_readChain {levels d k : Nat} {t₀ w₀ s rest : List Char}
    {left p : Predicate} (hd : d + k + levels = maxNesting) (h₀ : ConjunctionText d k t₀ left)
    (hw₀ : Blanks w₀) (h : readChain levels left s = .ok (p, rest)) :
    ∃ k t w, t₀ ++ (w₀ ++ s) = t ++ (w ++ rest) ∧ Blanks w ∧ ConjunctionText d k t p := by
  obtain ⟨w, hw, hs⟩ := exists_blanks s
  rw [readChain.eq_def] at h
  split at h
  · next s' hskip =>
    cases levels with
    | zero => contradiction
    | succ levels =>
      obtain ⟨⟨right, r⟩, hright, h⟩ := Reading.ok_of_bind h
      obtain ⟨t, w₁, hs', hw₁, ht⟩ :=
        unaryText_of_readUnary (d := d + (k + 1)) (by omega) hright
      have hand := ConjunctionText.and h₀ (by omega) (hw₀.append hw) ht
      obtain ⟨k', t₁, w₂, ht₁, hw₂, htext⟩ := conjunctionText_of_readChain (by omega) hand hw₁ h
      refine ⟨k', t₁, w₂, ?_, hw₂, htext⟩
      rw [← ht₁, hs, hskip, hs']
      simp only [List.append_assoc, List.cons_append]
  · contradiction
  · obtain ⟨rfl, rfl⟩ := Prod.mk.inj (Except.ok.inj h)
    refine ⟨k, t₀, w₀ ++ w, ?_, hw₀.append hw, h₀⟩
    rw [List.append_assoc, ← hs]

end

theorem conjunctionText_of_readConjunction {s rest : List Char} {p : Predicate}
    (h : readConjunction maxNesting s = .ok (p, rest)) :
    ∃ k t w, s = t ++ (w ++ rest) ∧ Blanks w ∧ ConjunctionText 0 k t p := by
  obtain ⟨⟨first, r⟩, hfirst, h⟩ := Reading.ok_of_bind h
  obtain ⟨t, w, hs, hw, ht⟩ := unaryText_of_readUnary (d := 0) (Nat.zero_add _) hfirst
  rw [hs]
  exact conjunctionText_of_readChain (Nat.zero_add _) (.single ht) hw h

theorem ComparisonText.start {t : List Char} {p : Predicate} (h : ComparisonText t p) :
    ∃ w c s, t = w ++ c :: s ∧ Blanks w ∧ startsOperand c = true := by
  cases h with
  | truthy ht => exact ht.start
  | compare ht _ _ =>
    obtain ⟨w, c, s, rfl, hw, hc⟩ := ht.start
    exact ⟨w, c, _, List.append_assoc .., hw, hc⟩

theorem ConjunctionText.le_maxNesting {d k : Nat} {t : List Char} {p : Predicate}
    (h : ConjunctionText d k t p) (hd : d ≤ maxNesting) : d + k ≤ maxNesting := by
  cases h with
  | single _ => exact hd
  | and _ hk _ _ => exact hk

/-- An exclamation mark in front of a predicate is never the start of `!=`. -/
theorem UnaryText.stops_equals {d : Nat} {t : List Char} {p : Predicate} (h : UnaryText d t p)
    (rest : List Char) : Stops (· == '=') (t ++ rest) := by
  have hblanks {w : List Char} (hw : Blanks w) : Stops (· == '=') w := by
    refine hw.stops ?_
    intro c hb
    rw [beq_eq_false_iff_ne]
    rintro rfl
    exact absurd hb (by decide)
  cases h with
  | not hw _ _ =>
    rw [List.append_assoc]
    exact .append (hblanks hw) (.cons (by decide) _)
  | group hw _ _ _ =>
    rw [List.append_assoc]
    exact .append (hblanks hw) (.cons (by decide) _)
  | comparison ht =>
    obtain ⟨w, c, s, rfl, hw, hc⟩ := ht.start
    rw [List.append_assoc]
    refine .append (hblanks hw) (.cons ?_ _)
    rw [beq_eq_false_iff_ne]
    rintro rfl
    exact absurd hc (by decide)

mutual

/-- The text of a predicate is read up to the blanks behind it. -/
theorem UnaryText.read : ∀ {d : Nat} {t : List Char} {p : Predicate}, UnaryText d t p →
    ∀ (levels : Nat) (rest : List Char), d + levels = maxNesting → Follows rest →
      ∃ r, readUnary levels (t ++ rest) = .ok (p, r) ∧ skipBlanks r = skipBlanks rest
  | d, _, _, @UnaryText.not _ w s _ hw hd ht => by
    intro levels rest hlevels hrest
    obtain ⟨levels, rfl⟩ : ∃ n, levels = n + 1 := ⟨maxNesting - (d + 1), by omega⟩
    obtain ⟨r, hread, hr⟩ := UnaryText.read ht levels rest (by omega) hrest
    have hskip : skipBlanks (w ++ '!' :: s ++ rest) = '!' :: (s ++ rest) := by
      rw [List.append_assoc, hw.skip]
      exact Text.skipBlanks_cons_of_not (by decide) _
    refine ⟨r, ?_, hr⟩
    rw [readUnary_not hskip, hread]
    · rfl
    · intro h
      exact absurd (ht.stops_equals rest '=' h) (by decide)
  | d, _, _, @UnaryText.group _ k w s w₁ _ hw hd ht hw₁ => by
    intro levels rest hlevels hrest
    have hk := ht.le_maxNesting hd
    obtain ⟨levels, rfl⟩ : ∃ n, levels = k + n + 1 := ⟨maxNesting - (d + 1 + k), by omega⟩
    have hclose : Follows (w₁ ++ ')' :: rest) := ⟨w₁, rest, hw₁, .inr rfl⟩
    have hread := ConjunctionText.read ht levels _ (by omega) hclose
    have hskip : skipBlanks (w ++ '(' :: (s ++ (w₁ ++ [')'])) ++ rest) =
        '(' :: (s ++ (w₁ ++ ')' :: rest)) := by
      simp only [List.append_assoc, List.cons_append, List.nil_append]
      rw [hw.skip]
      exact Text.skipBlanks_cons_of_not (by decide) _
    have hskip₁ : skipBlanks (w₁ ++ ')' :: rest) = ')' :: rest := by
      rw [hw₁.skip]
      exact Text.skipBlanks_cons_of_not (by decide) _
    refine ⟨rest, ?_, rfl⟩
    rw [readUnary_group hskip, hread, readChain_close hskip₁]
    rfl
  | _, _, _, .comparison ht => by
    intro levels rest _ hrest
    obtain ⟨w, c, s, hs, hw, hc⟩ := ht.start
    obtain ⟨r, hread, hr⟩ := ht.read hrest
    refine ⟨r, ?_, hr⟩
    rw [readUnary_comparison ?_ hc, hread]
    · exact s ++ rest
    · rw [hs, List.append_assoc, hw.skip]
      exact Text.skipBlanks_cons_of_not (isBlank_of_startsOperand hc) _

/-- Reading a conjunction comes to going on with its conjuncts read. -/
theorem ConjunctionText.read : ∀ {d k : Nat} {t : List Char} {p : Predicate},
    ConjunctionText d k t p → ∀ (levels : Nat) (rest : List Char), d + k + levels = maxNesting →
      Follows rest → readConjunction (k + levels) (t ++ rest) = readChain levels p rest
  | d, _, _, _, .single ht => by
    intro levels rest hlevels hrest
    obtain ⟨r, hread, hr⟩ := UnaryText.read ht levels rest (by omega) hrest
    rw [Nat.zero_add, readConjunction, hread]
    exact readChain_congr hr
  | d, _, _, _, @ConjunctionText.and _ k s w t _ _ ht hk hw hu => by
    intro levels rest hlevels hrest
    have hnext : Follows (w ++ '&' :: '&' :: (t ++ rest)) := ⟨w, t ++ rest, hw, .inl rfl⟩
    have hread := ConjunctionText.read ht (levels + 1) _ (by omega) hnext
    obtain ⟨r, hright, hr⟩ := UnaryText.read hu levels rest (by omega) hrest
    have hskip : skipBlanks (w ++ '&' :: '&' :: (t ++ rest)) = '&' :: '&' :: (t ++ rest) := by
      rw [hw.skip]
      exact Text.skipBlanks_cons_of_not (by decide) _
    simp only [List.append_assoc, List.cons_append]
    rw [Nat.add_right_comm k 1 levels, Nat.add_assoc k levels 1, hread, readChain_and hskip, hright]
    exact readChain_congr hr

end

end DocQuery
