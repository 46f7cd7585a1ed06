import DocQuery.Proofs.Path.Depth

/- The canonical text of a path that was read. Main statement: it reads back as the path where its
filters open no more levels than a text may, and is refused as nested too deep where they do. It
opens other levels than the text that was read, since it puts a negated comparison in parentheses
and leaves those of a conjunction on the left out. -/

namespace DocQuery

open Text (skipBlanks)

/-- Segments that are written as they are read, however deep their predicates nest. -/
def Segment.hasText : Segment → Bool
  | key _ => true
  | wildcard => true
  | keys names => 2 ≤ names.length
  | filter condition => condition.isWritable

/-- The text of the segment opens no more levels than it may. -/
def Segment.fits : Segment → Bool
  | filter condition => condition.levels ≤ maxNesting
  | _ => true

def Path.fits (p : Path) : Bool := p.segments.all Segment.fits

theorem Segment.isWritable_eq (segment : Segment) :
    segment.isWritable = (segment.hasText && segment.fits) := by
  cases segment with
  | key name => rfl
  | wildcard => rfl
  | keys names => exact (Bool.and_true _).symm
  | filter condition => rfl

theorem Denotes.isLiteral {n : Numeral} {number : Number} (h : Denotes n number) :
    (Json.number number).isLiteral = true := by
  cases h with
  | int _ hlow hhigh => exact fitsLiteral_iff.mpr ⟨hlow, hhigh⟩
  | float _ _ => rfl

theorem OperandText.isWritable {t : List Char} {operand : Operand} (h : OperandText t operand) :
    operand.isWritable = true := by
  cases h with
  | field _ _ => rfl
  | quotedField _ _ _ _ => rfl
  | string _ _ => rfl
  | number _ _ hn => exact hn.isLiteral
  | wordTrue _ => rfl
  | wordFalse _ => rfl

theorem ComparisonText.isWritable {t : List Char} {p : Predicate} (h : ComparisonText t p) :
    p.isWritable = true := by
  cases h with
  | truthy ht => exact ht.isWritable
  | compare ht _ hu => exact Bool.and_eq_true_iff.mpr ⟨ht.isWritable, hu.isWritable⟩

mutual

theorem UnaryText.isWritable : ∀ {d : Nat} {t : List Char} {p : Predicate}, UnaryText d t p →
    p.isWritable = true
  | _, _, _, .not _ _ ht => by
    rw [Predicate.isWritable]
    exact UnaryText.isWritable ht
  | _, _, _, .group _ _ ht _ => ConjunctionText.isWritable ht
  | _, _, _, .comparison ht => ht.isWritable

theorem ConjunctionText.isWritable : ∀ {d k : Nat} {t : List Char} {p : Predicate},
    ConjunctionText d k t p → p.isWritable = true
  | _, _, _, _, .single ht => UnaryText.isWritable ht
  | _, _, _, _, .and ht _ _ hu =>
    Bool.and_eq_true_iff.mpr ⟨ConjunctionText.isWritable ht, UnaryText.isWritable hu⟩

end

theorem BracketText.hasText {t : List Char} {segment : Segment} (h : BracketText t segment) :
    segment.hasText = true := by
  cases h with
  | wildcard _ _ => rfl
  | filter _ _ ht _ _ => exact ht.isWritable
  | key _ _ _ => rfl
  | keys _ _ _ hne _ =>
    rw [Segment.hasText, decide_eq_true_eq]
    exact Nat.succ_le_succ (List.length_pos_iff.mpr hne)

theorem Path.hasText_of_parse {text : String} {p : Path} (h : parse text = .ok p) :
    ∀ segment ∈ p.segments, segment.hasText = true := by
  intro segment hmem
  obtain ⟨t, ht | ht⟩ := (pathText_of_parse h).text_of_mem hmem
  · cases ht with
    | wildcard => rfl
    | key _ => rfl
  · exact ht.hasText

/-- A reading that would open a level more than it may. -/
def IsTooDeep {α : Type} (x : Except Fault α) : Prop := ∃ rest, x = .error (.tooDeep rest)

theorem IsTooDeep.bind {α β : Type} {x : Except Fault α} (h : IsTooDeep x)
    (f : α → Except Fault β) : IsTooDeep (x >>= f) := by
  obtain ⟨rest, rfl⟩ := h
  exact ⟨rest, rfl⟩

theorem isTooDeep_map_iff {α β : Type} {x : Except Fault α} {f : α → β} :
    IsTooDeep (x.map f) ↔ IsTooDeep x := by
  cases x with
  | error fault => simp only [IsTooDeep, Except.map, Except.error.injEq]
  | ok a => simp only [IsTooDeep, Except.map, reduceCtorEq]

theorem readUnary_congr {levels : Nat} {s s₁ : List Char} (h : skipBlanks s = skipBlanks s₁) :
    readUnary levels s = readUnary levels s₁ := by
  rw [readUnary.eq_def, readUnary.eq_def levels s₁, h]

theorem isTooDeep_readUnary_open (rest : List Char) : IsTooDeep (readUnary 0 ('(' :: rest)) :=
  ⟨_, rfl⟩

theorem isTooDeep_readUnary_not {rest : List Char} (hrest : rest.head? ≠ some '=') :
    IsTooDeep (readUnary 0 ('!' :: rest)) :=
  ⟨_, readUnary_zero_not (Text.skipBlanks_cons_of_not (by decide) rest) hrest⟩

theorem isTooDeep_readChain_and {left : Predicate} {s rest : List Char}
    (hskip : skipBlanks s = '&' :: '&' :: rest) : IsTooDeep (readChain 0 left s) := by
  refine ⟨'&' :: '&' :: rest, ?_⟩
  rw [readChain.eq_def, hskip]
  rfl

namespace Predicate

theorem stops_equals {p : Predicate} (h : p.isWritable = true) (rest : List Char) :
    Stops (· == '=') (p.render ++ rest) := by
  induction p generalizing rest with
  | compare op left right =>
    obtain ⟨hleft, hright⟩ := Bool.and_eq_true_iff.mp h
    exact (UnaryText.comparison (d := 0) (comparisonText_render hleft hright)).stops_equals rest
  | and left right ihleft _ =>
    rw [render, List.append_assoc, List.append_assoc]
    exact ihleft (Bool.and_eq_true_iff.mp h).1 _
  | not inner _ => exact .cons (by decide) _
  | truthy operand =>
    have ht := UnaryText.comparison (d := 0) (.truthy (Operand.operandText_render h))
    exact ht.stops_equals rest

theorem group_stops_equals {p : Predicate} (h : p.isWritable = true) (needed : Bool)
    (rest : List Char) : Stops (· == '=') (group needed p.render ++ rest) := by
  cases needed with
  | false => exact stops_equals h rest
  | true => exact .cons (by decide) _

/-- The text of a predicate that opens more levels than are left is nested too deep. -/
def Overflows (p : Predicate) : Prop :=
  ∀ (levels : Nat) (rest : List Char), levels ≤ maxNesting → levels < p.levels →
    (p.isAnd = false → IsTooDeep (readUnary levels (p.render ++ rest))) ∧
      IsTooDeep (readConjunction levels (p.render ++ rest))

theorem isTooDeep_group {needed : Bool} {p : Predicate} (h : p.Overflows)
    (hneeded : p.isAnd = true → needed = true) {levels : Nat} (rest : List Char)
    (hmax : levels ≤ maxNesting) (hlevels : levels < groupLevels needed p.levels) :
    IsTooDeep (readUnary levels (group needed p.render ++ rest)) := by
  cases needed with
  | false =>
    refine (h levels rest hmax hlevels).1 ?_
    cases hand : p.isAnd with
    | false => rfl
    | true => exact absurd (hneeded hand) Bool.false_ne_true
  | true =>
    cases levels with
    | zero => exact isTooDeep_readUnary_open _
    | succ levels =>
      have hskip : skipBlanks (group true p.render ++ rest) = '(' :: (p.render ++ [')'] ++ rest) :=
        Text.skipBlanks_cons_of_not (by decide) _
      rw [readUnary_group hskip, List.append_assoc]
      exact (h levels _ (Nat.le_of_succ_le hmax) (Nat.lt_of_succ_lt_succ hlevels)).2.bind _

theorem overflows_not {inner : Predicate} (hwritable : inner.isWritable = true)
    (h : inner.Overflows) : (not inner).Overflows := by
  have hunary : ∀ (levels : Nat) (rest : List Char), levels ≤ maxNesting →
      levels < (not inner).levels → IsTooDeep (readUnary levels ((not inner).render ++ rest)) := by
    intro levels rest hmax hlevels
    have hstop := group_stops_equals hwritable (inner.isAnd || inner.isCompare) rest
    have hhead :
        (group (inner.isAnd || inner.isCompare) inner.render ++ rest).head? ≠ some '=' := by
      intro heq
      exact absurd (hstop '=' heq) (by decide)
    rw [Predicate.levels] at hlevels
    cases levels with
    | zero => exact isTooDeep_readUnary_not hhead
    | succ levels =>
      rw [render, List.cons_append, readUnary_not (Text.skipBlanks_cons_of_not (by decide) _) hhead]
      refine (isTooDeep_group h ?_ rest (Nat.le_of_succ_le hmax) ?_).bind _
      · intro hand
        rw [hand, Bool.true_or]
      · exact Nat.lt_of_succ_lt_succ hlevels
  intro levels rest hmax hlevels
  exact ⟨fun _ => hunary levels rest hmax hlevels, (hunary levels rest hmax hlevels).bind _⟩

theorem conjunctions_le_levels (p : Predicate) : p.conjunctions ≤ p.levels := by
  cases p with
  | compare op left right => exact Nat.le_refl _
  | and left right =>
    rw [conjunctions, levels]
    omega
  | not inner => exact Nat.zero_le _
  | truthy operand => exact Nat.le_refl _

theorem overflows_and {left right : Predicate} (hwritable : left.isWritable = true)
    (hleft : left.Overflows) (hright : right.Overflows) : (and left right).Overflows := by
  intro levels rest hmax hlevels
  refine ⟨(nomatch ·), ?_⟩
  rw [render, List.append_assoc, List.append_assoc]
  rcases Nat.lt_or_ge levels left.levels with hlt | hge
  · exact (hleft levels _ hmax hlt).2
  -- the conjuncts on the left are read, and the level or the predicate behind them is too much
  have ht := (derives_of_isWritable hwritable (d := maxNesting - levels) (by omega)).2
  have hconj := left.conjunctions_le_levels
  obtain ⟨n, rfl⟩ : ∃ n, levels = left.conjunctions + n := ⟨levels - left.conjunctions, by omega⟩
  have hnext : Follows ([' ', '&', '&', ' '] ++ (group right.isAnd right.render ++ rest)) :=
    ⟨[' '], _, .space, .inl rfl⟩
  have hskip : skipBlanks ([' ', '&', '&', ' '] ++ (group right.isAnd right.render ++ rest)) =
      '&' :: '&' :: ' ' :: (group right.isAnd right.render ++ rest) := rfl
  rw [ht.read n _ (by omega) hnext]
  cases n with
  | zero => exact isTooDeep_readChain_and hskip
  | succ n =>
    rw [readChain_and hskip]
    have hblank : readUnary n (' ' :: (group right.isAnd right.render ++ rest)) =
        readUnary n (group right.isAnd right.render ++ rest) := readUnary_congr rfl
    rw [hblank]
    refine (isTooDeep_group hright id rest ?_ ?_).bind _
    · omega
    · rw [Predicate.levels] at hlevels
      omega

theorem overflows_of_isWritable {p : Predicate} (h : p.isWritable = true) : p.Overflows := by
  induction p with
  | compare op left right =>
    intro levels rest _ hlevels
    exact absurd hlevels (Nat.not_lt_zero _)
  | and left right ihleft ihright =>
    obtain ⟨hleft, hright⟩ := Bool.and_eq_true_iff.mp h
    exact overflows_and hleft (ihleft hleft) (ihright hright)
  | not inner ih => exact overflows_not h (ih h)
  | truthy operand =>
    intro levels rest _ hlevels
    exact absurd hlevels (Nat.not_lt_zero _)

end Predicate

theorem isTooDeep_readSegment {condition : Predicate} (hwritable : condition.isWritable = true)
    (hlevels : maxNesting < condition.levels) (rest : List Char) :
    IsTooDeep (readSegment ((Segment.filter condition).render ++ rest)) := by
  have hopen : expect '(' (skipBlanks ('(' :: (condition.render ++ ([')', ']'] ++ rest)))) =
      .ok (condition.render ++ ([')', ']'] ++ rest)) := by
    rw [Text.skipBlanks_cons_of_not (by decide), expect_cons]
  have hcontent : IsTooDeep
      (readBracketContent ('?' :: '(' :: (condition.render ++ ([')', ']'] ++ rest)))) := by
    rw [readBracketContent, hopen]
    have hoverflows := Predicate.overflows_of_isWritable hwritable maxNesting ([')', ']'] ++ rest)
    exact (hoverflows (Nat.le_refl _) hlevels).2.bind _
  have hskip : skipBlanks ('?' :: '(' :: (condition.render ++ ([')', ']'] ++ rest))) =
      '?' :: '(' :: (condition.render ++ ([')', ']'] ++ rest)) :=
    Text.skipBlanks_cons_of_not (by decide) _
  rw [← hskip] at hcontent
  rw [Segment.render, List.append_assoc, List.append_assoc]
  exact hcontent.bind _

theorem readSegment_render {segment : Segment} (h : segment.isWritable = true) {rest : List Char}
    (hrest : Stops isIdentifierChar rest) :
    readSegment (segment.render ++ rest) = .ok (segment, rest) := by
  rcases Segment.text_render h with ⟨t, hrender, ht⟩ | ht
  · rw [hrender]
    exact ht.read hrest
  · exact ht.read rest

theorem Segment.exists_render (segment : Segment) :
    ∃ c s, segment.render = c :: s ∧ isIdentifierChar c = false := by
  cases segment with
  | key name =>
    rw [render]
    split
    · exact ⟨_, _, rfl, by decide⟩
    · exact ⟨_, _, rfl, by decide⟩
  | wildcard => exact ⟨_, _, rfl, by decide⟩
  | keys names => exact ⟨_, _, rfl, by decide⟩
  | filter condition => exact ⟨_, _, rfl, by decide⟩

/-- A name ends in front of the text of a segment. -/
theorem stops_segments (segments : List Segment) :
    Stops isIdentifierChar (segments.flatMap Segment.render) := by
  cases segments with
  | nil => exact .nil
  | cons segment segments =>
    obtain ⟨c, s, hrender, hc⟩ := segment.exists_render
    rw [List.flatMap_cons, hrender]
    exact .cons hc _

theorem readSegments_render (segment : Segment) (rest : List Char) :
    readSegments (segment.render ++ rest) = readSegment (segment.render ++ rest) >>=
      fun (segment, rest) => (readSegments rest).map (segment :: ·) := by
  obtain ⟨c, s, hrender, _⟩ := segment.exists_render
  rw [hrender]
  exact readSegments_cons c _

theorem isTooDeep_readSegments {segments : List Segment}
    (htext : ∀ segment ∈ segments, segment.hasText = true)
    (hfits : segments.all Segment.fits = false) :
    IsTooDeep (readSegments (segments.flatMap Segment.render)) := by
  induction segments with
  | nil => contradiction
  | cons segment segments ih =>
    rw [List.flatMap_cons, readSegments_render]
    have hsegment := htext segment List.mem_cons_self
    cases hfit : segment.fits with
    | false =>
      cases segment with
      | key name => contradiction
      | wildcard => contradiction
      | keys names => contradiction
      | filter condition =>
        have hlevels := of_decide_eq_false hfit
        exact (isTooDeep_readSegment hsegment (Nat.lt_of_not_le hlevels) _).bind _
    | true =>
      rw [List.all_cons, hfit, Bool.true_and] at hfits
      have hwritable : segment.isWritable = true := by
        rw [Segment.isWritable_eq, hsegment, hfit, Bool.and_self]
      rw [readSegment_render hwritable (stops_segments segments)]
      refine isTooDeep_map_iff.mpr (ih ?_ hfits)
      intro other hmem
      exact htext other (List.mem_cons_of_mem _ hmem)

/-- Where `$[*]` stands in front, what is too deep stands behind it. -/
theorem isTooDeep_readPath {s : List Char} (h : IsTooDeep (readSegments s)) :
    IsTooDeep (readPath ('$' :: s)) := by
  unfold readPath
  split
  · next rest heq =>
    have hwildcard : readSegment ('[' :: '*' :: ']' :: rest) = .ok (.wildcard, rest) :=
      (BracketText.wildcard .nil .nil).read rest
    rw [(List.cons.inj heq).2, readSegments_cons, hwildcard] at h
    exact isTooDeep_map_iff.mpr (isTooDeep_map_iff.mp h)
  · next heq =>
    rw [(List.cons.inj heq).2] at h
    exact isTooDeep_map_iff.mpr h
  · next heq => exact absurd (List.cons.inj heq).1 (by decide)
  · next hno _ => exact absurd rfl (hno s)

namespace Path

theorem isTooDeep_readPath_render {p : Path}
    (htext : ∀ segment ∈ p.segments, segment.hasText = true) (hfits : p.fits = false) :
    IsTooDeep (readPath p.render) := by
  obtain ⟨anchor, segments⟩ := p
  have hsegments := isTooDeep_readSegments htext hfits
  cases anchor with
  | document => exact isTooDeep_readPath hsegments
  | eachElement => exact isTooDeep_map_iff.mpr hsegments

theorem exists_render (p : Path) : ∃ s, p.render = '$' :: s := by
  obtain ⟨anchor, segments⟩ := p
  cases anchor <;> exact ⟨_, rfl⟩

theorem trim_toString (p : Path) : Text.trim (toString p).toList = p.render := by
  have htext : (toString p).toList = p.render := String.toList_ofList
  rw [htext, trim_render]

theorem parse_toString_of_not_fits {p : Path}
    (htext : ∀ segment ∈ p.segments, segment.hasText = true) (hfits : p.fits = false) :
    ∃ position, parse (toString p) = .error (.tooDeep position) := by
  obtain ⟨rest, hread⟩ := isTooDeep_readPath_render htext hfits
  have htrim := p.trim_toString
  obtain ⟨s, hs⟩ := p.exists_render
  rw [hs] at hread htrim
  refine ⟨position ('$' :: s) rest, ?_⟩
  unfold parse
  rw [htrim]
  simp only [hread]
  rfl

theorem parse_toString_of_fits {p : Path}
    (htext : ∀ segment ∈ p.segments, segment.hasText = true) (hfits : p.fits = true) :
    parse (toString p) = .ok p.anchored := by
  have hwritable : p.isWritable = true := by
    rw [isWritable, List.all_eq_true]
    intro segment hmem
    rw [Segment.isWritable_eq, htext segment hmem, List.all_eq_true.mp hfits segment hmem,
      Bool.and_self]
  apply parse_of_pathText
  rw [trim_toString]
  exact pathText_render hwritable

/-- The canonical text of a path that was read reads back, or it opens more levels than it may. -/
theorem parse_toString_of_parse {text : String} {p : Path} (h : parse text = .ok p) :
    (p.fits = true → parse (toString p) = .ok p.anchored) ∧
      (p.fits = false → ∃ position, parse (toString p) = .error (.tooDeep position)) :=
  ⟨parse_toString_of_fits (hasText_of_parse h), parse_toString_of_not_fits (hasText_of_parse h)⟩

theorem comparisonText_fields :
    ComparisonText ['@', '.', 'a', '=', '=', '@', '.', 'b']
      (.compare .equal (.field "a") (.field "b")) := by
  have hfield {c : Char} (hc : isIdentifierChar c = true) :=
    OperandText.field (w := []) .nil (identifierText_singleton hc)
  exact @ComparisonText.compare _ [] _ .equal _ _ (hfield (c := 'a') (by decide)) .nil
    (hfield (c := 'b') (by decide))

/-- A negated comparison gets parentheses. -/
theorem parse_toString_of_negation :
    parse ("x[?(" ++ "!@.a==@.b" ++ ")]") = .ok ⟨.document, [.key "x",
        .filter (.not (.compare .equal (.field "a") (.field "b")))]⟩ ∧
      parse (toString (Path.mk .document [.key "x",
          .filter (.not (.compare .equal (.field "a") (.field "b")))])) =
        .ok ⟨.document, [.key "x",
          .filter (.not (.compare .equal (.field "a") (.field "b")))]⟩ := by
  have h := parse_filter
    (.single (.not (w := []) .nil (by decide) (.comparison comparisonText_fields)))
  have hcanonical := (parse_toString_of_parse h).1 (by decide)
  exact ⟨h, hcanonical⟩

/-- As many negations as levels may be opened, in front of a comparison. -/
theorem parse_toString_of_negations :
    ∃ (p : Path) (position : Nat),
      parse ("x[?(" ++ String.ofList (List.replicate 128 '!' ++
        ['@', '.', 'a', '=', '=', '@', '.', 'b']) ++ ")]") = .ok p ∧
      parse (toString p) = .error (.tooDeep position) := by
  have hnegations : UnaryText 0
      (List.replicate 128 '!' ++ ['@', '.', 'a', '=', '=', '@', '.', 'b'])
      (Nat.repeat .not 128 (.compare .equal (.field "a") (.field "b"))) :=
    .negations (by decide) (.comparison comparisonText_fields)
  have hread := parse_filter (.single hnegations)
  obtain ⟨position, hposition⟩ :=
    parse_toString_of_not_fits (hasText_of_parse hread) (by decide +kernel)
  exact ⟨_, position, hread, hposition⟩

end Path

end DocQuery
