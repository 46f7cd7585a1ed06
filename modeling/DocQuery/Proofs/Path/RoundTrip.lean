import DocQuery.Proofs.Path.Acceptance

/- The canonical text of a path is a text of the grammar. Main statement: a path whose literals a
path can write, and whose filters do not nest too deep, reads back from its text. -/

namespace DocQuery

/-- Values that a path can write. Its whole numbers have 64 bits and a sign. -/
def Json.isLiteral : Json → Bool
  | .bool _ => true
  | .string _ => true
  | .number (.int i) => fitsLiteral i.val
  | .number (.float _) => true
  | _ => false

def Operand.isWritable : Operand → Bool
  | field _ => true
  | literal value => value.isLiteral

namespace Predicate

def isWritable : Predicate → Bool
  | compare _ left right => left.isWritable && right.isWritable
  | and left right => left.isWritable && right.isWritable
  | not inner => inner.isWritable
  | truthy operand => operand.isWritable

/-- The conjunctions of the text outside of parentheses. -/
def conjunctions : Predicate → Nat
  | and left _ => left.conjunctions + 1
  | _ => 0

/-- The levels of a text in parentheses, if they are needed. -/
def groupLevels (needed : Bool) (levels : Nat) : Nat := if needed then levels + 1 else levels

/-- The levels that the text opens: one inside each negation and each parenthesis, and as many
behind a conjunction as there are conjunctions up to it. -/
def levels : Predicate → Nat
  | compare _ _ _ => 0
  | and left right =>
    max left.levels (left.conjunctions + 1 + groupLevels right.isAnd right.levels)
  | not inner => groupLevels (inner.isAnd || inner.isCompare) inner.levels + 1
  | truthy _ => 0

end Predicate

/-- Steps that a text can hold: a list has at least two names, since one in brackets is a key. -/
def Segment.isWritable : Segment → Bool
  | key _ => true
  | wildcard => true
  | keys names => 2 ≤ names.length
  | filter condition => condition.isWritable && condition.levels ≤ maxNesting

namespace Path

def isWritable (p : Path) : Bool := p.segments.all Segment.isWritable

/-- The path that the text stands for. A wildcard in front of a document is its start at each
element. -/
def anchored : Path → Path
  | ⟨.document, .wildcard :: segments⟩ => ⟨.eachElement, segments⟩
  | p => p

end Path

theorem isIdentifier_iff {name : String} :
    isIdentifier name = true ↔ name.toList ≠ [] ∧ ∀ c ∈ name.toList, isIdentifierChar c = true := by
  rw [isIdentifier, Bool.and_eq_true, Bool.not_eq_true', List.isEmpty_eq_false_iff,
    List.all_eq_true]

theorem identifierText_of_isIdentifier {name : String} (h : isIdentifier name = true) :
    IdentifierText name.toList name := by
  have hname := isIdentifier_iff.mp h
  have ht := IdentifierText.mk hname.1 hname.2
  rwa [String.ofList_toList] at ht

theorem Quoted.quotedBody_encode (s : List Char) : QuotedBody '\'' (encode s) s := by
  obtain ⟨t, ht, hbody⟩ := quotedBody_of_decode (decode_encode s [])
  rwa [List.append_cancel_right ht]

theorem Quoted.quotedText_write (name : String) : QuotedText (write name) name := by
  have ht := QuotedText.mk (.inl rfl) (quotedBody_encode name.toList)
  rwa [String.ofList_toList] at ht

theorem Numeral.digits_toDigits (n : Nat) : Digits (Nat.toDigits 10 n) :=
  ⟨Nat.toDigits_ne_nil, fun _ hc => Nat.isDigit_of_mem_toDigits (by decide) (by decide) hc⟩

theorem WideInt.numeralText_render (i : WideInt) :
    NumeralText i.render ⟨i.val < 0, Nat.toDigits 10 i.val.natAbs, none, none⟩ := by
  have ht : NumeralText (Numeral.signed (i.val < 0) (Nat.toDigits 10 i.val.natAbs ++ ([] ++ [])))
      ⟨i.val < 0, Nat.toDigits 10 i.val.natAbs, none, none⟩ :=
    .mk (Numeral.digits_toDigits _) .absent .absent
  rwa [List.append_nil, List.append_nil] at ht

theorem WideInt.toInt?_numeral (i : WideInt) :
    Numeral.toInt? ⟨i.val < 0, Nat.toDigits 10 i.val.natAbs, none, none⟩ = some i.val := by
  have hdigits : Numeral.significand ⟨i.val < 0, Nat.toDigits 10 i.val.natAbs, none, none⟩ =
      i.val.natAbs := by
    rw [Numeral.significand, Option.getD_none, List.append_nil, Numeral.natOfDigits_toDigits]
  rw [Numeral.toInt?, hdigits]
  simp only [Option.isNone_none, Bool.and_self, if_true, decide_eq_true_eq, Option.some.injEq]
  split <;> omega

/-- A float is written with a point or an exponent, so it is read as a float. -/
theorem Binary64.numeralText_render (x : Binary64) :
    ∃ n, NumeralText x.render n ∧ Denotes n (.float x) := by
  have h := x.readFloat?_render
  obtain ⟨n, hn, h⟩ := Option.bind_eq_some_iff.mp h
  obtain ⟨_, hguard, h⟩ := Option.bind_eq_some_iff.mp h
  have hscan : Numeral.scan? x.render = some (n, []) := by
    rw [Numeral.ofText?] at hn
    split at hn
    · next hscan =>
      rw [hscan, Option.some.inj hn]
    · contradiction
  obtain ⟨t, hrender, ht⟩ := Numeral.numeralText_of_scan? hscan
  rw [List.append_nil] at hrender
  refine ⟨n, hrender ▸ ht, .float ?_ h⟩
  intro i hi
  rw [hi] at hguard
  contradiction

theorem Operand.operandText_render {o : Operand} (h : o.isWritable = true) :
    OperandText o.render o := by
  cases o with
  | field name =>
    rw [render]
    split
    · next hname => exact .field .nil (identifierText_of_isIdentifier hname)
    · exact .quotedField .nil .nil (Quoted.quotedText_write name) .nil
  | literal value =>
    cases value with
    | null => contradiction
    | bool b =>
      cases b with
      | false => exact .wordFalse .nil
      | true => exact .wordTrue .nil
    | number n =>
      cases n with
      | int i =>
        have hrange := fitsLiteral_iff.mp h
        exact .number .nil i.numeralText_render (.int i.toInt?_numeral hrange.1 hrange.2)
      | float x =>
        obtain ⟨n, ht, hn⟩ := x.numeralText_render
        exact .number .nil ht hn
    | string text => exact .string (w := []) .nil (Quoted.quotedText_write text)
    | array items => contradiction
    | object fields => contradiction

namespace Predicate

theorem comparisonText_render {op : Comparator} {left right : Operand}
    (hleft : left.isWritable = true) (hright : right.isWritable = true) :
    ComparisonText (compare op left right).render (.compare op left right) := by
  have ht := @ComparisonText.compare _ [] _ op _ _ (Operand.operandText_render hleft) .nil
    (Operand.operandText_render hright)
  rw [List.nil_append, ← List.append_assoc] at ht
  exact ht

/-- The text of a predicate, at any place with enough levels left. -/
def Derives (p : Predicate) : Prop :=
  ∀ {d : Nat}, d + p.levels ≤ maxNesting →
    (p.isAnd = false → UnaryText d p.render p) ∧ ConjunctionText d p.conjunctions p.render p

theorem derives_of_unaryText {p : Predicate} (hand : p.isAnd = false)
    (h : ∀ {d : Nat}, d + p.levels ≤ maxNesting → UnaryText d p.render p) : p.Derives := by
  intro d hd
  refine ⟨fun _ => h hd, ?_⟩
  cases p with
  | and left right => contradiction
  | compare op left right => exact .single (h hd)
  | not inner => exact .single (h hd)
  | truthy operand => exact .single (h hd)

theorem unaryText_group {needed : Bool} {p : Predicate} (h : p.Derives)
    (hneeded : p.isAnd = true → needed = true) {d : Nat}
    (hd : d + groupLevels needed p.levels ≤ maxNesting) :
    UnaryText d (group needed p.render) p := by
  cases needed with
  | false =>
    refine (h hd).1 ?_
    cases hand : p.isAnd with
    | false => rfl
    | true => exact absurd (hneeded hand) Bool.false_ne_true
  | true =>
    have hd' : d + (p.levels + 1) ≤ maxNesting := hd
    exact .group (w := []) .nil (by omega) (h (by omega)).2 .nil

theorem derives_not {inner : Predicate} (h : inner.Derives) : (not inner).Derives := by
  refine derives_of_unaryText rfl ?_
  intro d hd
  rw [levels] at hd
  refine .not (w := []) .nil (by omega) (unaryText_group h ?_ (by omega))
  intro hand
  rw [hand, Bool.true_or]

theorem derives_and {left right : Predicate} (hleft : left.Derives) (hright : right.Derives) :
    (and left right).Derives := by
  intro d hd
  rw [levels] at hd
  refine ⟨(nomatch ·), ?_⟩
  have hunary : UnaryText (d + (left.conjunctions + 1)) (group right.isAnd right.render) right :=
    unaryText_group hright id (by omega)
  have ht := ConjunctionText.and (hleft (by omega)).2 (by omega) .space
    (hunary.blanks_append .space)
  rw [render, List.append_assoc]
  exact ht

theorem derives_of_isWritable {p : Predicate} (h : p.isWritable = true) : p.Derives := by
  induction p with
  | compare op left right =>
    obtain ⟨hleft, hright⟩ := Bool.and_eq_true_iff.mp h
    exact derives_of_unaryText rfl fun _ => .comparison (comparisonText_render hleft hright)
  | and left right ihleft ihright =>
    obtain ⟨hleft, hright⟩ := Bool.and_eq_true_iff.mp h
    exact derives_and (ihleft hleft) (ihright hright)
  | not inner ih => exact derives_not (ih h)
  | truthy operand =>
    refine derives_of_unaryText rfl fun _ => .comparison (.truthy ?_)
    exact Operand.operandText_render h

end Predicate

theorem intercalate_names (first : String) (names : List String) :
    [','].intercalate ((first :: names).map Quoted.write) =
      Quoted.write first ++ names.flatMap fun name => ',' :: Quoted.write name := by
  induction names generalizing first with
  | nil => rfl
  | cons second names ih =>
    have h : [','].intercalate ((first :: second :: names).map Quoted.write) =
        Quoted.write first ++ ',' :: [','].intercalate ((second :: names).map Quoted.write) := rfl
    rw [h, ih, List.flatMap_cons, List.cons_append]

theorem namesText_render (names : List String) :
    NamesText (names.flatMap fun name => ',' :: Quoted.write name) names := by
  induction names with
  | nil => exact .nil
  | cons name names ih =>
    exact .cons (w := []) .nil .nil (Quoted.quotedText_write name) ih

namespace Segment

theorem bracketText_keys {first : String} {names : List String} (hne : names ≠ []) :
    BracketText (keys (first :: names)).render (.keys (first :: names)) := by
  have ht := BracketText.keys .nil (Quoted.quotedText_write first) (namesText_render names) hne .nil
  rw [render, intercalate_names]
  simpa only [List.nil_append, List.append_assoc, List.cons_append] using ht

theorem bracketText_filter {condition : Predicate} (h : (filter condition).isWritable = true) :
    BracketText (filter condition).render (.filter condition) := by
  obtain ⟨hwritable, hlevels⟩ := Bool.and_eq_true_iff.mp h
  have hlevels := of_decide_eq_true hlevels
  have hcondition := Predicate.derives_of_isWritable hwritable (d := 0) (by omega)
  have ht := BracketText.filter .nil .nil hcondition.2 .nil .nil
  rw [render]
  simpa only [List.nil_append, List.append_assoc, List.cons_append] using ht

/-- The text of a segment is a key behind a point, or in brackets. -/
theorem text_render {segment : Segment} (h : segment.isWritable = true) :
    (∃ t, segment.render = '.' :: t ∧ StepText t segment) ∨ BracketText segment.render segment := by
  cases segment with
  | key name =>
    rw [render]
    split
    · next hname => exact .inl ⟨_, rfl, .key (identifierText_of_isIdentifier hname)⟩
    · exact .inr (.key .nil (Quoted.quotedText_write name) .nil)
  | wildcard => exact .inr (.wildcard .nil .nil)
  | keys names =>
    cases names with
    | nil => contradiction
    | cons first names =>
      cases names with
      | nil => contradiction
      | cons second names => exact .inr (bracketText_keys (List.cons_ne_nil _ _))
  | filter condition => exact .inr (bracketText_filter h)

theorem segmentsText_cons {segment : Segment} (h : segment.isWritable = true) {s : List Char}
    {segments : List Segment} (hs : SegmentsText s segments) :
    SegmentsText (segment.render ++ s) (segment :: segments) := by
  rcases text_render h with ⟨t, hrender, ht⟩ | ht
  · rw [hrender]
    exact .dot ht hs
  · exact .bracket ht hs

theorem segmentsText_render {segments : List Segment}
    (h : segments.all isWritable = true) :
    SegmentsText (segments.flatMap render) segments := by
  induction segments with
  | nil => exact .nil
  | cons segment segments ih =>
    rw [List.all_cons, Bool.and_eq_true] at h
    rw [List.flatMap_cons]
    exact segmentsText_cons h.1 (ih h.2)

/-- The text of no other segment looks like the start at each element. -/
theorem eq_wildcard_of_prefix {segment : Segment} {s : List Char}
    (h : segment.isWritable = true) (hstart : ['[', '*', ']'] <+: segment.render ++ s) :
    segment = .wildcard := by
  cases segment with
  | key name =>
    rw [render] at hstart
    split at hstart
    · exact absurd (List.cons_prefix_cons.mp hstart).1 (by decide)
    · exact absurd (List.cons_prefix_cons.mp (List.cons_prefix_cons.mp hstart).2).1 (by decide)
  | wildcard => rfl
  | keys names =>
    cases names with
    | nil => contradiction
    | cons first names =>
      rw [render, intercalate_names] at hstart
      exact absurd (List.cons_prefix_cons.mp (List.cons_prefix_cons.mp hstart).2).1 (by decide)
  | filter condition =>
    exact absurd (List.cons_prefix_cons.mp (List.cons_prefix_cons.mp hstart).2).1 (by decide)

end Segment

/-- A text that ends in a character other than a blank. -/
def EndsVisibly (s : List Char) : Prop := ∃ t c, s = t ++ [c] ∧ Text.isBlank c = false

theorem EndsVisibly.append {s : List Char} (h : EndsVisibly s) (t : List Char) :
    EndsVisibly (t ++ s) := by
  obtain ⟨u, c, rfl, hc⟩ := h
  exact ⟨t ++ u, c, (List.append_assoc _ _ _).symm, hc⟩

theorem EndsVisibly.of_forall {s : List Char} (hne : s ≠ [])
    (h : ∀ c ∈ s, Text.isBlank c = false) : EndsVisibly s :=
  ⟨s.dropLast, s.getLast hne, (List.dropLast_concat_getLast hne).symm, h _ (List.getLast_mem hne)⟩

theorem EndsVisibly.trim {c : Char} {s : List Char} (h : EndsVisibly (c :: s))
    (hc : Text.isBlank c = false) : Text.trim (c :: s) = c :: s := by
  obtain ⟨t, d, hs, hd⟩ := h
  rw [Text.trim, Text.skipBlanks_cons_of_not hc, hs, List.reverse_append, List.reverse_singleton,
    List.singleton_append, Text.skipBlanks_cons_of_not hd, List.reverse_cons, List.reverse_reverse]

theorem Segment.endsVisibly_render (segment : Segment) : EndsVisibly segment.render := by
  have hbracket (s : List Char) : EndsVisibly (s ++ [']']) := ⟨s, ']', rfl, by decide⟩
  cases segment with
  | key name =>
    rw [render]
    split
    · next hname =>
      obtain ⟨hne, hchars⟩ := isIdentifier_iff.mp hname
      exact .append (.of_forall hne fun c hc => isBlank_of_identifier (hchars c hc)) ['.']
    · exact hbracket _
  | wildcard => exact hbracket ['[', '*']
  | keys names => exact hbracket _
  | filter condition =>
    refine .append ?_ _
    exact hbracket [')']

theorem Segment.endsVisibly_flatMap {s : List Char} (h : EndsVisibly s) (segments : List Segment) :
    EndsVisibly (s ++ segments.flatMap render) := by
  induction segments generalizing s with
  | nil => simpa only [List.flatMap_nil, List.append_nil] using h
  | cons segment segments ih =>
    rw [List.flatMap_cons, ← List.append_assoc]
    exact ih (segment.endsVisibly_render.append s)

namespace Path

theorem trim_render (p : Path) : Text.trim p.render = p.render := by
  obtain ⟨anchor, segments⟩ := p
  cases anchor with
  | document =>
    exact (Segment.endsVisibly_flatMap ⟨[], '$', rfl, by decide⟩ segments).trim (by decide)
  | eachElement =>
    exact (Segment.endsVisibly_flatMap ⟨['$', '[', '*'], ']', rfl, by decide⟩ segments).trim
      (by decide)

theorem pathText_render {p : Path} (h : p.isWritable = true) : PathText p.render p.anchored := by
  obtain ⟨anchor, segments⟩ := p
  have hs := Segment.segmentsText_render h
  cases anchor with
  | eachElement => exact .each hs
  | document =>
    cases segments with
    | nil => exact .root .nil (by decide)
    | cons segment segments =>
      rw [isWritable, List.all_cons, Bool.and_eq_true] at h
      have hroot (hno : segment ≠ .wildcard) :
          PathText (render ⟨.document, segment :: segments⟩) ⟨.document, segment :: segments⟩ := by
        refine .root hs ?_
        intro hstart
        exact hno (Segment.eq_wildcard_of_prefix h.1 hstart)
      cases segment with
      | wildcard => exact .each (Segment.segmentsText_render h.2)
      | key name => exact hroot (by simp only [ne_eq, reduceCtorEq, not_false_eq_true])
      | keys names => exact hroot (by simp only [ne_eq, reduceCtorEq, not_false_eq_true])
      | filter condition => exact hroot (by simp only [ne_eq, reduceCtorEq, not_false_eq_true])

theorem parse_of_render {p : Path} (h : p.isWritable = true) {text : String}
    (htext : text.toList = p.render) : parse text = .ok p.anchored := by
  refine parse_of_pathText ?_
  rw [htext, trim_render]
  exact pathText_render h

/-- The text of a filter is a path of its own, without the root. -/
theorem parse_filter_of_render {condition : Predicate}
    (h : (Segment.filter condition).isWritable = true) {text : String}
    (htext : Text.trim text.toList = (Segment.filter condition).render) :
    parse text = .ok ⟨.document, [.filter condition]⟩ := by
  have hpath := PathText.bracket (Segment.bracketText_filter h) .nil
  rw [List.append_nil, ← htext] at hpath
  exact parse_of_pathText hpath

/-- The canonical text of a path reads back as the path. -/
theorem parse_toString {p : Path} (h : p.isWritable = true) :
    parse (toString p) = .ok p.anchored := parse_of_render h String.toList_ofList

/-- A key that needs quotes, a negated comparison, and a conjunction on the right of another. -/
theorem parse_toString_grouped :
    parse (toString (Path.mk .document [.wildcard, .key "it's \\ \n", .keys ["", "a"],
      .filter (.and (.not (.compare .lessEqual (.field "x y") (.literal (.number (.float .one)))))
        (.and (.truthy (.field "id")) (.truthy (.literal (.string "\"")))))])) =
    .ok ⟨.eachElement, [.key "it's \\ \n", .keys ["", "a"],
      .filter (.and (.not (.compare .lessEqual (.field "x y") (.literal (.number (.float .one)))))
        (.and (.truthy (.field "id")) (.truthy (.literal (.string "\"")))))]⟩ :=
  parse_toString (by decide)

end Path

end DocQuery
