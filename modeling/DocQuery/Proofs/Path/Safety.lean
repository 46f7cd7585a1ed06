import DocQuery.Proofs.Path.Mirror

/- Paths read in place. Main statements: what is read in place is what is read from the list of the
characters, so no slice cuts a character, no level is closed that was not open and no loop is
endless; and the place of an error is a byte of the text where its character stands. -/

namespace DocQuery

open Text (isBlank skipBlanks)
open Cursor (Run before)

variable {text : List Char}

theorem mirrors_readIdentifier (s : List Char) (depth : Nat) :
    Mirrors text s depth (· = depth) (Cursor.readIdentifier text) (readIdentifier s) := by
  unfold Cursor.readIdentifier
  refine .inside fun hs => .span ?_ ?_
  · intro hnil
    rw [readIdentifier, if_pos hnil]
    split
    · next hend =>
      rw [(Cursor.size_le_position_iff hs).mp hend]
      exact .refuse (.unexpected [])
    · exact mirrors_unexpected s depth _
  · intro hne
    rw [readIdentifier, if_neg hne]
    exact .pure _ rfl

theorem map_append_cons (x : Reading (List Char)) (done : List Char) (c : Char) :
    ((x.map fun (t, rest) => (c :: t, rest)).map fun (t, rest) => (done ++ t, rest)) =
      x.map fun (t, rest) => ((done ++ [c]) ++ t, rest) := by
  cases x with
  | error fault => rfl
  | ok r => exact congrArg (fun t => Except.ok (t, r.2)) (List.append_cons done c r.1)

theorem map_nil_append (x : Reading (List Char)) :
    (x.map fun (t, rest) => ([] ++ t, rest)) = x := by
  cases x with
  | error fault => rfl
  | ok r => rfl

/-- The loop over a quoted text keeps in front what it has read. -/
theorem mirrors_decode {quote : Char} (hquote : quote ≠ '\\') {s : List Char} {rounds : Nat}
    (hrounds : s.length < rounds) (done : List Char) (depth : Nat) :
    Mirrors text s depth (· = depth) (Cursor.decodeWithin text quote rounds done)
      ((Quoted.decode quote s).map fun (t, rest) => (done ++ t, rest)) := by
  induction rounds generalizing s done with
  | zero => contradiction
  | succ rounds ih =>
    refine .peek ?_
    cases s with
    | nil => exact .refuse .unclosedString
    | cons c s =>
      dsimp only [List.head?_cons]
      have hlen : s.length < rounds := Nat.lt_of_succ_lt_succ hrounds
      by_cases hc : c = quote
      · subst hc
        rw [if_pos rfl, Quoted.decode_close hquote]
        refine .advance ?_
        show Mirrors text s depth _ _ (.ok (done ++ [], s))
        rw [List.append_nil]
        exact .pure done rfl
      rw [if_neg hc]
      by_cases hslash : c = '\\'
      · subst hslash
        rw [if_pos rfl]
        refine .advance (.peek ?_)
        cases s with
        | nil => exact .refuse .invalidEscape
        | cons e s =>
          dsimp only [List.head?_cons, Option.bind_some]
          rw [Quoted.decode]
          cases Quoted.unescape? e with
          | none => exact .refuse .invalidEscape
          | some d =>
            refine .advance ?_
            dsimp only
            rw [map_append_cons]
            exact ih (Nat.lt_of_succ_lt hlen) (done ++ [d])
      · rw [if_neg hslash, Quoted.decode_plain hc hslash, map_append_cons]
        exact .advance (ih hlen (done ++ [c]))

theorem mirrors_decodeAll {quote : Char} (hquote : quote ≠ '\\') (s : List Char) (depth : Nat) :
    Mirrors text s depth (· = depth) (Cursor.decodeWithin text quote (text.length + 1) [])
      (Quoted.decode quote s) := by
  refine .inside fun hs => ?_
  have hrounds : s.length < text.length + 1 := Nat.lt_succ_of_le hs.length_le
  have hread : Mirrors text s depth _ _ _ := mirrors_decode hquote hrounds [] depth
  rwa [map_nil_append] at hread

theorem mirrors_readQuoted (s : List Char) (depth : Nat) :
    Mirrors text s depth (· = depth) (Cursor.readQuoted text) (readQuoted s) := by
  refine .peek ?_
  cases s with
  | nil => exact mirrors_unexpected [] depth _
  | cons c s =>
    dsimp only [List.head?_cons]
    rw [readQuoted]
    by_cases hc : Quoted.isQuote c = true
    · -- The loop tests for the closing quote first, the decoder for the backslash.
      have hslash : c ≠ '\\' := by
        rintro rfl
        contradiction
      have hread : Mirrors text s depth _ _ _ := mirrors_decodeAll hslash s depth
      rw [if_pos hc, if_pos hc]
      exact .advance (hread.map String.ofList)
    · rw [if_neg hc, if_neg hc]
      exact mirrors_unexpected (c :: s) depth _

theorem mirrors_skipDigits (s : List Char) (depth : Nat) :
    Mirrors text s depth (· = depth) (Cursor.skipDigits text)
      (Numeral.left (Numeral.digits? s)) := by
  refine .peek ?_
  cases s with
  | nil => exact .refuse .invalidNumber
  | cons c s =>
    rw [List.head?_cons, Option.any_some, Numeral.digits?]
    cases hc : c.isDigit with
    | true =>
      rw [if_pos rfl, if_neg (by rw [List.takeWhile_cons_of_pos hc]; exact List.cons_ne_nil _ _)]
      exact mirrors_skip _ (c :: s) depth
    | false =>
      rw [if_neg Bool.false_ne_true,
        if_pos (List.takeWhile_cons_of_neg (Bool.eq_false_iff.mp hc))]
      exact .refuse .invalidNumber

theorem mirrors_skipFraction (s : List Char) (depth : Nat) :
    Mirrors text s depth (· = depth) (Cursor.skipFraction text)
      (Numeral.left (Numeral.fraction? s)) := by
  refine .test ?_ ?_
  · rintro t rfl
    exact .advance ((mirrors_skipDigits t depth).mapLeft fun _ => rfl)
  · intro hpoint
    unfold Numeral.fraction?
    split
    · exact absurd rfl hpoint
    · exact .pure () rfl

theorem mirrors_skipExponentDigits (s : List Char) (depth : Nat) :
    Mirrors text s depth (· = depth)
      (Cursor.skipIf text (fun c => c == '+' || c == '-') >>= fun _ => Cursor.skipDigits text)
      (Numeral.left (Numeral.exponentDigits? s)) := by
  unfold Numeral.exponentDigits?
  split
  · next s => exact .skipIf_pos rfl ((mirrors_skipDigits s depth).mapLeft fun _ => rfl)
  · next s => exact .skipIf_pos rfl ((mirrors_skipDigits s depth).mapLeft fun _ => rfl)
  · next hminus hplus =>
    refine .skipIf_neg ?_ ((mirrors_skipDigits s depth).mapLeft fun _ => rfl)
    cases s with
    | nil => rfl
    | cons c s =>
      simp only [List.head?_cons, Option.any_some, Bool.or_eq_false_iff, beq_eq_false_iff_ne]
      exact ⟨fun h => hplus s (h ▸ rfl), fun h => hminus s (h ▸ rfl)⟩

theorem mirrors_skipExponent (s : List Char) (depth : Nat) :
    Mirrors text s depth (· = depth) (Cursor.skipExponent text)
      (Numeral.left (Numeral.exponent? s)) := by
  refine .peek (.peek ?_)
  unfold Numeral.exponent?
  split
  · next h =>
    rcases h with h | h
    · obtain ⟨t, rfl⟩ := List.head?_eq_some_iff.mp h
      exact .advance ((mirrors_skipExponentDigits t depth).mapLeft fun _ => rfl)
    · obtain ⟨t, rfl⟩ := List.head?_eq_some_iff.mp h
      exact .advance ((mirrors_skipExponentDigits t depth).mapLeft fun _ => rfl)
  · next h =>
    split
    · exact absurd (.inl rfl) h
    · exact absurd (.inr rfl) h
    · exact .pure () rfl

theorem mirrors_skipUnsigned (negative : Bool) (s : List Char) (depth : Nat) :
    Mirrors text s depth (· = depth)
      (do
        Cursor.skipDigits text
        Cursor.skipFraction text
        Cursor.skipExponent text)
      (Numeral.left (Numeral.unsigned? negative s)) := by
  refine (mirrors_skipDigits s depth).bindLeft fun whole s₁ => ?_
  refine (mirrors_skipFraction s₁ depth).bindLeft fun fraction s₂ => ?_
  exact (mirrors_skipExponent s₂ depth).lastLeft fun _ => rfl

theorem mirrors_skipNumeral (s : List Char) (depth : Nat) :
    Mirrors text s depth (· = depth) (Cursor.skipNumeral text)
      (Numeral.left (Numeral.scan? s)) := by
  unfold Numeral.scan?
  split
  · next s => exact .skipIf_pos rfl (mirrors_skipUnsigned true s depth)
  · next hminus =>
    refine .skipIf_neg ?_ (mirrors_skipUnsigned false s depth)
    cases s with
    | nil => rfl
    | cons c s => exact beq_eq_false_iff_ne.mpr fun h => hminus s (h ▸ rfl)

theorem mirrors_readNumber (s : List Char) (depth : Nat) :
    Mirrors text s depth (· = depth) (Cursor.readNumber text) (readNumber s) := by
  refine .inside fun hs => .here ((mirrors_skipNumeral s depth).behind ?_ ?_)
  · intro hscan
    rw [readNumber, hscan]
  · intro n rest hscan
    obtain ⟨t, rfl, ht⟩ := Numeral.numeralText_of_scan? hscan
    have hread := Numeral.scan?_read ht .nil
    rw [List.append_nil] at hread
    refine .here (.step (fun _ => Cursor.slice_before hs _) (List.suffix_refl _) ?_)
    rw [Numeral.ofText?, hread, readNumber, hscan]
    dsimp only [Option.bind_some]
    cases Number.ofNumeral? fitsLiteral Numeral.toBinary64? n with
    | none => exact .refuse .invalidNumber
    | some number => exact .pure number rfl

theorem mirrors_readField (s : List Char) (depth : Nat) :
    Mirrors text s depth (· = depth) (Cursor.readField text (position text ('@' :: s)))
      (readOperand ('@' :: s)) := by
  have hat : skipBlanks ('@' :: s) = '@' :: s := Text.skipBlanks_cons_of_not rfl s
  refine .test ?_ fun hpoint => .test ?_ fun hbracket => ?_
  · rintro t rfl
    rw [readOperand, hat]
    exact .advance ((mirrors_readIdentifier t depth).map Operand.field)
  · rintro t rfl
    rw [readOperand, hat]
    refine .advance (.blanks (.peek ?_))
    show Mirrors text (skipBlanks t) depth _ _ (readBracketField _ t)
    rw [readBracketField]
    cases skipBlanks t with
    | nil => exact .refuse (.invalidOperand ('@' :: '[' :: t))
    | cons c s =>
      dsimp only
      rw [List.head?_cons, Option.any_some]
      by_cases hc : Quoted.isQuote c = true
      · rw [if_pos hc, if_pos hc]
        refine (mirrors_readQuoted (c :: s) depth).bind ?_
        rintro name rest _ _ rfl
        exact .close fun rest => .pure (Operand.field name) rfl
      · rw [if_neg hc, if_neg hc]
        exact .refuse (.invalidOperand ('@' :: '[' :: t))
  · have hread : readOperand ('@' :: s) = .error (.invalidOperand ('@' :: s)) := by
      rw [readOperand, hat]
      split
      · next h => exact absurd ((List.cons.inj h).2 ▸ rfl) hpoint
      · next h => exact absurd ((List.cons.inj h).2 ▸ rfl) hbracket
      · rfl
    rw [hread]
    exact .refuse (.invalidOperand ('@' :: s))

theorem mirrors_readBoolean {c : Char} {s : List Char} (hquote : ¬Quoted.isQuote c = true)
    (hdigit : ¬(c = '-' ∨ c.isDigit = true)) (depth : Nat) :
    Mirrors text (c :: s) depth (· = depth) (Cursor.readBoolean text (position text (c :: s)))
      (readLiteral (c :: s)) := by
  rw [readLiteral, if_neg hquote, if_neg hdigit]
  refine .startsWithKeyword _ ?_
  cases htrue : keyword? ['t', 'r', 'u', 'e'] (c :: s) with
  | some rest =>
    rw [append_of_keyword? htrue]
    exact .advanceBy ['t', 'r', 'u', 'e'] (.pure _ rfl)
  | none =>
    refine .startsWithKeyword _ ?_
    cases hfalse : keyword? ['f', 'a', 'l', 's', 'e'] (c :: s) with
    | some rest =>
      rw [append_of_keyword? hfalse]
      exact .advanceBy ['f', 'a', 'l', 's', 'e'] (.pure _ rfl)
    | none => exact .refuse (.invalidOperand (c :: s))

theorem mirrors_readOperand (s : List Char) (depth : Nat) :
    Mirrors text s depth (· = depth) (Cursor.readOperand text) (readOperand s) := by
  refine .blanks (.here (.peek ?_))
  have hskip := stops_skipBlanks s
  have hread : readOperand s = readOperand (skipBlanks s) := by
    rw [readOperand, readOperand, Text.skipBlanks_idem]
  rw [hread]
  cases hs : skipBlanks s with
  | nil => exact .refuse (.unexpected [])
  | cons c t =>
    rw [hs] at hskip
    dsimp only [List.head?_cons]
    by_cases hat : c = '@'
    · subst hat
      rw [if_pos rfl]
      exact .advance (mirrors_readField t depth)
    rw [if_neg hat, readOperand_of_cons (hskip c rfl) hat]
    by_cases hquote : Quoted.isQuote c = true
    · rw [if_pos hquote, readLiteral, if_pos hquote]
      exact (mirrors_readQuoted (c :: t) depth).map fun name => Operand.literal (.string name)
    rw [if_neg hquote]
    by_cases hdigit : c = '-' ∨ c.isDigit = true
    · rw [if_pos hdigit, readLiteral, if_neg hquote, if_pos hdigit]
      exact (mirrors_readNumber (c :: t) depth).map fun n => Operand.literal (.number n)
    · rw [if_neg hdigit]
      exact mirrors_readBoolean hquote hdigit depth

theorem mirrors_readComparison (s : List Char) (depth : Nat) :
    Mirrors text s depth (· = depth) (Cursor.readComparison text) (readComparison s) := by
  refine (mirrors_readOperand s depth).bind ?_
  rintro left rest _ _ rfl
  refine .blanks (.span ?_ ?_)
  · intro hnil
    dsimp only
    rw [if_pos hnil]
    exact .pure _ rfl
  · intro hne
    dsimp only
    rw [if_neg hne]
    cases Comparator.ofText? ((skipBlanks rest).takeWhile isOperatorChar) with
    | none => exact .refuse (.unknownOperator _)
    | some comparator =>
      refine (mirrors_readOperand _ _).bind ?_
      rintro right rest _ _ rfl
      exact .pure _ rfl

/-- A reader of single conjuncts, at every depth that is at least the one given. -/
def MirrorsUnary (text : List Char) (depth : Nat) (unary : Run Predicate) : Prop :=
  ∀ (s : List Char) (d : Nat), depth ≤ d → d ≤ maxNesting →
    Mirrors text s d (· = d) unary (readUnary (maxNesting - d) s)

theorem eq_of_isPrefixOf {a b : Char} {s : List Char} (h : [a, b].isPrefixOf s = true) :
    ∃ rest, s = a :: b :: rest := by
  obtain ⟨rest, rfl⟩ := List.isPrefixOf_iff_prefix.mp h
  exact ⟨rest, rfl⟩

/-- Each round of the loop takes at least `&&` from the text, so the rounds outlast it. -/
theorem mirrors_conjoin {depth : Nat} {unary : Run Predicate}
    (hunary : MirrorsUnary text depth unary) {s : List Char} {rounds d : Nat} (hd : depth ≤ d)
    (hmax : d ≤ maxNesting) (left : Predicate) (hrounds : s.length < rounds) :
    Mirrors text s d (· ≤ maxNesting) (Cursor.conjoinWithin text unary rounds left)
      (readChain (maxNesting - d) left s) := by
  induction rounds generalizing s d left with
  | zero => contradiction
  | succ rounds ih =>
    have hskip := Text.skipBlanks_length_le s
    refine .blanks (.startsWith _ ?_)
    cases hand : ['&', '&'].isPrefixOf (skipBlanks s) with
    | true =>
      obtain ⟨rest, hs⟩ := eq_of_isPrefixOf hand
      rw [if_pos rfl, hs]
      refine .descend (readChain · left s) (by rw [readChain.eq_def, hs]; rfl) fun hlt => ?_
      rw [readChain_and hs]
      refine .advanceBy ['&', '&'] ((hunary rest (d + 1) (by omega) hlt).bind ?_)
      rintro right rest' _ hright rfl
      have hlen := (isRest_of_readUnary hright).length_lt
      rw [hs, List.length_cons, List.length_cons] at hskip
      exact ih (by omega) hlt (.and left right) (by omega)
    | false =>
      rw [if_neg Bool.false_ne_true, readChain.eq_def]
      refine .startsWith _ ?_
      cases hor : ['|', '|'].isPrefixOf (skipBlanks s) with
      | true =>
        obtain ⟨rest, hs⟩ := eq_of_isPrefixOf hor
        rw [if_pos rfl, hs]
        exact .refuse (.unknownOperator ['|', '|'])
      | false =>
        rw [if_neg Bool.false_ne_true]
        split
        · next hs =>
          rw [hs] at hand
          contradiction
        · next hs =>
          rw [hs] at hor
          contradiction
        · exact .pure left hmax

theorem mirrors_chain {depth : Nat} {unary : Run Predicate}
    (hunary : MirrorsUnary text depth unary) {d : Nat} (hd : depth ≤ d) (hmax : d ≤ maxNesting)
    (left : Predicate) (s : List Char) :
    Mirrors text s d (· ≤ maxNesting) (Cursor.conjoinWithin text unary (text.length + 1) left)
      (readChain (maxNesting - d) left s) :=
  .inside fun hs => mirrors_conjoin hunary hd hmax left (Nat.lt_succ_of_le hs.length_le)

/-- Behind a conjunction the depth is the one before it, whatever its conjuncts have opened. -/
theorem mirrors_readConjunction {depth : Nat} {unary : Run Predicate}
    (hunary : MirrorsUnary text depth unary) (s : List Char) (hdepth : depth ≤ maxNesting) :
    Mirrors text s depth (· = depth) (Cursor.readConjunction text unary)
      (readConjunction (maxNesting - depth) s) := by
  refine .step (fun _ => rfl) (List.suffix_refl s) ?_
  refine (hunary s depth (Nat.le_refl _) hdepth).bind ?_
  rintro first rest _ _ rfl
  refine (mirrors_chain hunary (Nat.le_refl _) hdepth first rest).andThen (fun _ h => h) ?_
  -- The chain has left the depth wherever its last conjunct was; the entry depth is put back.
  intro all rest' d hall _
  dsimp only
  rw [hall]
  exact .step (fun _ => rfl) (List.suffix_refl rest') (.pure all rfl)

theorem isPrefixOf_bang {rest : List Char} :
    ['!', '='].isPrefixOf ('!' :: rest) = true ↔ rest.head? = some '=' := by
  cases rest with
  | nil => exact ⟨fun h => by contradiction, fun h => by contradiction⟩
  | cons c rest =>
    simp only [List.isPrefixOf, beq_self_eq_true, Bool.true_and, Bool.and_true, beq_iff_eq,
      List.head?_cons, Option.some.injEq]
    exact eq_comm

theorem readUnary_of_not {levels : Nat} {s : List Char}
    (hnot : ¬((skipBlanks s).head? = some '!' ∧ ['!', '='].isPrefixOf (skipBlanks s) = false))
    (hopen : (skipBlanks s).head? ≠ some '(') :
    readUnary levels s = readComparison (skipBlanks s) := by
  rw [readUnary.eq_def]
  split
  · next rest hs =>
    rw [hs] at hnot ⊢
    have hequals : ['!', '='].isPrefixOf ('!' :: rest) = true :=
      Bool.not_eq_false _ ▸ fun h => hnot ⟨rfl, h⟩
    rw [if_pos (isPrefixOf_bang.mp hequals)]
  · next hs =>
    rw [hs] at hopen
    exact absurd rfl hopen
  · rfl

/-- Each call inside another stands a level deeper: one call more than there are levels is enough. -/
theorem mirrors_readUnary {calls depth : Nat} (h : maxNesting < calls + depth) :
    MirrorsUnary text depth (Cursor.readUnary text calls) := by
  induction calls generalizing depth with
  | zero =>
    intro s d hd hmax
    omega
  | succ calls ih =>
    intro s d hd hmax
    -- The calls inside are made at the depth behind `!` or `(`, and deeper in a chain of `&&`.
    have hinner : MirrorsUnary text (d + 1) (Cursor.readUnary text calls) := ih (by omega)
    refine .blanks (.peek (.startsWith _ ?_))
    split
    · next hnot =>
      obtain ⟨hbang, hequals⟩ := hnot
      obtain ⟨rest, hs⟩ := List.head?_eq_some_iff.mp hbang
      rw [hs] at hequals ⊢
      have hrest : rest.head? ≠ some '=' := by
        intro hhead
        exact Bool.false_ne_true (hequals.symm.trans (isPrefixOf_bang.mpr hhead))
      refine .descend (readUnary · s) (readUnary_zero_not hs hrest) fun hlt => ?_
      rw [readUnary_not hs hrest]
      refine .advance ((hinner rest (d + 1) (Nat.le_refl _) hlt).bind ?_)
      rintro inner rest' _ _ rfl
      exact .ascend (.pure _ rfl)
    · next hnot =>
      refine .test ?_ fun hopen => ?_
      · intro rest hs
        refine .descend (readUnary · s) (by rw [readUnary.eq_def, hs]; rfl) fun hlt => ?_
        rw [readUnary_group hs]
        refine .advance ((mirrors_readConjunction hinner rest hlt).bind ?_)
        rintro inner rest' _ _ rfl
        exact .close fun rest => .ascend (.pure _ rfl)
      · rw [readUnary_of_not hnot hopen]
        exact mirrors_readComparison (skipBlanks s) d

theorem mirrors_readStep (s : List Char) (depth : Nat) :
    Mirrors text s depth (· = depth) (Cursor.readStep text) (readStep s) := by
  refine .test ?_ fun hstar => ?_
  · rintro t rfl
    exact .advance (.pure _ rfl)
  · unfold readStep
    split
    · exact absurd rfl hstar
    · exact (mirrors_readIdentifier s depth).map Segment.key

theorem readNextName_of_comma {s t : List Char} (h : skipBlanks s = ',' :: t) :
    readNextName s =
      match skipBlanks t with
      | [] => .error .unclosedBracket
      | s => (readQuoted s).map some := by
  rw [readNextName, h]
  rfl

theorem readNextName_of_not {s : List Char} (h : (skipBlanks s).head? ≠ some ',') :
    readNextName s = .ok none := by
  rw [readNextName]
  split
  · next hs =>
    rw [hs] at h
    exact absurd rfl h
  · rfl

theorem readQuoted_of_not {c : Char} (hc : ¬Quoted.isQuote c = true) (s : List Char) :
    readQuoted (c :: s) = .error (.unexpected (c :: s)) := if_neg hc

theorem mirrors_readNamesWithin {s : List Char} {rounds : Nat} (hrounds : s.length < rounds)
    (depth : Nat) :
    Mirrors text s depth (· = depth) (Cursor.readNamesWithin text rounds) (readMoreNames s) := by
  induction rounds generalizing s with
  | zero => contradiction
  | succ rounds ih =>
    refine .blanks (.test ?_ fun hcomma => ?_)
    · intro t ht
      have hnext := readNextName_of_comma ht
      refine .advance (.blanks (.peek ?_))
      cases hu : skipBlanks t with
      | nil =>
        rw [hu] at hnext
        rw [readMoreNames_of_error hnext]
        exact .refuse .unclosedBracket
      | cons c u =>
        rw [hu] at hnext
        rw [List.head?_cons]
        dsimp only at hnext ⊢
        by_cases hc : Quoted.isQuote c = true
        · rw [if_pos hc]
          refine (mirrors_readQuoted (c :: u) depth).andThen ?_ ?_
          · intro fault hfault
            rw [hfault] at hnext
            exact readMoreNames_of_error hnext
          · rintro name rest _ hname rfl
            rw [hname] at hnext
            have hlen := (isRest_of_readNextName hnext).length_lt
            rw [readMoreNames_of_some hnext]
            exact (ih (by omega)).map (name :: ·)
        · rw [if_neg hc]
          rw [readQuoted_of_not hc] at hnext
          rw [readMoreNames_of_error hnext]
          exact mirrors_unexpected (c :: u) depth _
    · rw [readMoreNames_of_none (readNextName_of_not hcomma)]
      exact .pure [] rfl

theorem mirrors_readNames (s : List Char) (depth : Nat) :
    Mirrors text s depth (· = depth) (Cursor.readNamesWithin text (text.length + 1))
      (readMoreNames s) :=
  .inside fun hs => mirrors_readNamesWithin (Nat.lt_succ_of_le hs.length_le) depth

/-- No level is open where a filter begins. -/
theorem mirrors_readFilter (s : List Char) :
    Mirrors text s 0 (· = 0) (Cursor.readFilter text) (readBracketContent ('?' :: s)) := by
  have hunary : MirrorsUnary text 0 (Cursor.readUnary text (maxNesting + 1)) :=
    mirrors_readUnary (Nat.lt_succ_self _)
  refine .close fun rest => ((mirrors_readConjunction hunary rest (Nat.zero_le _)).bind ?_)
  rintro condition rest' _ _ rfl
  exact .close fun rest => .pure (Segment.filter condition) rfl

theorem mirrors_readBracketContent (s : List Char) :
    Mirrors text s 0 (· = 0) (Cursor.readBracketContent text) (readBracketContent s) := by
  refine .peek ?_
  cases s with
  | nil => exact .refuse .unclosedBracket
  | cons c s =>
    rw [List.head?_cons]
    dsimp only
    by_cases hstar : c = '*'
    · subst hstar
      rw [if_pos rfl]
      exact .advance (.pure _ rfl)
    rw [if_neg hstar]
    by_cases hquestion : c = '?'
    · subst hquestion
      rw [if_pos rfl]
      exact .advance (mirrors_readFilter s)
    rw [if_neg hquestion, readBracketContent_of_cons hstar hquestion]
    by_cases hc : Quoted.isQuote c = true
    · rw [if_pos hc]
      refine (mirrors_readQuoted (c :: s) 0).bind ?_
      rintro first rest _ _ rfl
      refine (mirrors_readNames rest 0).bind ?_
      rintro names rest _ _ rfl
      exact .pure _ rfl
    · rw [if_neg hc, readQuoted_of_not hc]
      exact mirrors_unexpected (c :: s) 0 _

theorem mirrors_readBracket (s : List Char) :
    Mirrors text ('[' :: s) 0 (· = 0) (Cursor.readBracket text) (readBracket s) := by
  show Mirrors text ('[' :: s) 0 _ _ (expect '[' ('[' :: s) >>= readBracket)
  refine .expect fun rest hrest => ?_
  obtain ⟨_, rfl⟩ := List.cons.inj hrest
  refine .blanks ((mirrors_readBracketContent (skipBlanks s)).bind ?_)
  rintro segment rest _ _ rfl
  exact .close fun rest => .pure _ rfl

theorem mirrors_readSegment (c : Char) (s : List Char) :
    Mirrors text (c :: s) 0 (· = 0) (Cursor.readSegment text c) (readSegment (c :: s)) := by
  unfold Cursor.readSegment
  by_cases hpoint : c = '.'
  · subst hpoint
    rw [if_pos rfl]
    refine .advance (.test ?_ fun _ => mirrors_readStep s 0)
    rintro t rfl
    exact mirrors_unexpected ('.' :: t) 0 _
  rw [if_neg hpoint]
  by_cases hbracket : c = '['
  · subst hbracket
    rw [if_pos rfl]
    exact mirrors_readBracket s
  · rw [if_neg hbracket]
    have hread : readSegment (c :: s) = .error (.unexpected (c :: s)) := by
      unfold readSegment
      split
      · next h => exact absurd (List.cons.inj h).1 hpoint
      · next h => exact absurd (List.cons.inj h).1 hbracket
      · rfl
    rw [hread]
    exact mirrors_unexpected (c :: s) 0 _

/-- A reading up to the end of the text. -/
def toEnd {α : Type} (x : Except Fault α) : Reading α := x.map fun a => (a, [])

theorem Mirrors.mapEnd {α β : Type} {s : List Char} {depth : Nat} {expected : Nat → Prop}
    {x : Run β} {y : Except Fault β} (h : Mirrors text s depth expected x (toEnd y)) (f : β → α) :
    Mirrors text s depth expected (x >>= fun b => Pure.pure (f b)) (toEnd (y.map f)) := by
  have hmap := h.map f
  cases y with
  | error fault => exact hmap
  | ok b => exact hmap

theorem mirrors_readSegmentsWithin {s : List Char} {rounds : Nat} (hrounds : s.length < rounds) :
    Mirrors text s 0 (· = 0) (Cursor.readSegmentsWithin text rounds) (toEnd (readSegments s)) := by
  induction rounds generalizing s with
  | zero => contradiction
  | succ rounds ih =>
    refine .peek ?_
    cases s with
    | nil => exact .pure [] rfl
    | cons c s =>
      rw [List.head?_cons]
      dsimp only
      refine (mirrors_readSegment c s).andThen ?_ ?_
      · intro fault hfault
        rw [readSegments_cons, hfault]
        rfl
      · rintro segment rest _ hsegment rfl
        have hlen := (isRest_of_readSegment hsegment).length_lt
        rw [readSegments_cons, hsegment]
        exact (ih (Nat.lt_of_lt_of_le hlen (Nat.le_of_lt_succ hrounds))).mapEnd (segment :: ·)

theorem mirrors_readSegments (s : List Char) :
    Mirrors text s 0 (· = 0) (Cursor.readSegments text) (toEnd (readSegments s)) :=
  .inside fun hs => mirrors_readSegmentsWithin (Nat.lt_succ_of_le hs.length_le)

theorem mirrors_readPath {s : List Char} (hne : s ≠ []) :
    Mirrors text s 0 (· = 0) (Cursor.readPath text) (toEnd (readPath s)) := by
  refine .inside fun hs => .here ?_
  rw [if_neg (mt (Cursor.size_le_position_iff hs).mp hne)]
  refine .test ?_ fun hdollar => .test ?_ fun hbracket => ?_
  · rintro t rfl
    refine .advance (.startsWith _ ?_)
    cases heach : ['[', '*', ']'].isPrefixOf t with
    | true =>
      obtain ⟨rest, rfl⟩ := List.isPrefixOf_iff_prefix.mp heach
      exact .advanceBy ['[', '*', ']'] ((mirrors_readSegments rest).mapEnd _)
    | false =>
      rw [readPath]
      · exact (mirrors_readSegments t).mapEnd _
      · rintro rest rfl
        contradiction
  · rintro t rfl
    exact (mirrors_readSegments ('[' :: t)).mapEnd _
  · rw [readPath_relative hdollar hbracket]
    refine (mirrors_readStep s 0).andThen ?_ ?_
    · intro fault hfault
      rw [hfault]
      rfl
    · rintro first rest _ hfirst rfl
      rw [hfirst]
      exact (mirrors_readSegments rest).mapEnd fun segments => Path.mk .document (first :: segments)

namespace Path

theorem parseInPlace_eq (text : String) : parseInPlace text = (parse text).mapError .refused := by
  rw [parseInPlace, parse]
  cases Text.trim text.toList with
  | nil => rfl
  | cons c s =>
    have hstart : before (c :: s) (c :: s) 0 = ⟨0, 0⟩ := by
      rw [before, position, Nat.sub_self]
    have hends := mirrors_readPath (List.cons_ne_nil c s) (List.suffix_refl (c :: s))
    rw [hstart] at hends
    dsimp only
    generalize Cursor.readPath (c :: s) ⟨0, 0⟩ = run at hends ⊢
    generalize readPath (c :: s) = x at hends ⊢
    cases x with
    | error fault =>
      cases hends
      rfl
    | ok p =>
      cases hends
      rfl

theorem placedIn_of_parse {text : String} {error : SyntaxError} (h : parse text = .error error) :
    error.PlacedIn (Text.trim text.toList) := by
  rw [parse] at h
  cases htext : Text.trim text.toList with
  | nil =>
    rw [htext] at h
    obtain rfl := Except.error.inj h
    exact True.intro
  | cons c s =>
    rw [htext] at h
    dsimp only at h
    cases hread : readPath (c :: s) with
    | ok p =>
      rw [hread] at h
      contradiction
    | error fault =>
      rw [hread] at h
      obtain rfl := Except.error.inj h
      exact (failsWithin_readPath _ fault hread).placedIn

/-- Every text is read in place to its path or to its error, whose place is right: no slice is bad,
no level is closed that was not open, and no loop and no recursion is endless. -/
theorem parseInPlace_safe (text : String) :
    (∃ p, parse text = .ok p ∧ parseInPlace text = .ok p) ∨
      ∃ error, parse text = .error error ∧ parseInPlace text = .error (.refused error) ∧
        error.PlacedIn (Text.trim text.toList) := by
  rw [parseInPlace_eq]
  cases hparse : parse text with
  | ok p => exact .inl ⟨p, rfl, rfl⟩
  | error error => exact .inr ⟨error, rfl, rfl, placedIn_of_parse hparse⟩

example : parseInPlace "é .ß" = .error (.refused (.unexpectedChar ' ' 2)) := rfl

end Path
end DocQuery
