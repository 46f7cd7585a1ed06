import DocQuery.Path.Parser
import DocQuery.Proofs.Path.Condition

/- Brackets, segments and whole paths. Main statement: a text parses as a path exactly where the
grammar derives the path from it. -/

namespace DocQuery

open Text (skipBlanks)

theorem expect_cons (c : Char) (rest : List Char) : expect c (c :: rest) = .ok rest := if_pos rfl

theorem namesText_of_readNextName {s rest : List Char} {name : String}
    (h : readNextName s = .ok (some (name, rest))) :
    ∃ w w₁ t, s = w ++ ',' :: (w₁ ++ (t ++ rest)) ∧ Blanks w ∧ Blanks w₁ ∧ QuotedText t name := by
  obtain ⟨w, hw, hs⟩ := exists_blanks s
  rw [readNextName] at h
  split at h
  · next s' hskip =>
    obtain ⟨w₁, hw₁, hs'⟩ := exists_blanks s'
    split at h
    · contradiction
    · obtain ⟨_, hname, hr⟩ := Reading.ok_of_map h
      rw [Option.some.inj hr] at hname
      obtain ⟨t, ht, hquoted⟩ := quotedText_of_readQuoted hname
      exact ⟨w, w₁, t, by rw [hs, hskip, hs', ht], hw, hw₁, hquoted⟩
  · cases Except.ok.inj h

theorem namesText_of_readNamesWithin {fuel : Nat} {s rest : List Char} {names : List String}
    (h : readNamesWithin fuel s = .ok (names, rest)) :
    ∃ t w, s = t ++ (w ++ rest) ∧ Blanks w ∧ NamesText t names := by
  have hnone {s : List Char} : ∃ t w, s = t ++ (w ++ skipBlanks s) ∧ Blanks w ∧ NamesText t [] := by
    obtain ⟨w, hw, hs⟩ := exists_blanks s
    exact ⟨[], w, hs, hw, .nil⟩
  induction fuel generalizing s names with
  | zero =>
    obtain ⟨rfl, rfl⟩ := Prod.mk.inj (Except.ok.inj h)
    exact hnone
  | succ fuel ih =>
    rw [readNamesWithin] at h
    split at h
    · contradiction
    · obtain ⟨rfl, rfl⟩ := Prod.mk.inj (Except.ok.inj h)
      exact hnone
    · next hnext =>
      obtain ⟨⟨more, r⟩, ha, hr⟩ := Reading.ok_of_map h
      obtain ⟨rfl, rfl⟩ := Prod.mk.inj hr
      obtain ⟨w, w₁, t, hs, hw, hw₁, ht⟩ := namesText_of_readNextName hnext
      obtain ⟨t', w₂, hr, hw₂, hnames⟩ := ih ha
      refine ⟨w ++ ',' :: (w₁ ++ (t ++ t')), w₂, ?_, hw₂, .cons hw hw₁ ht hnames⟩
      rw [hs, hr]
      simp only [List.append_assoc, List.cons_append]

theorem readNextName_close {w : List Char} (hw : Blanks w) (rest : List Char) :
    readNextName (w ++ ']' :: rest) = .ok none := by
  rw [readNextName, hw.skip_cons (by decide)]
  rfl

theorem readNextName_comma {w w₁ t : List Char} {name : String} (hw : Blanks w) (hw₁ : Blanks w₁)
    (ht : QuotedText t name) (rest : List Char) :
    readNextName (w ++ ',' :: (w₁ ++ (t ++ rest))) = .ok (some (name, rest)) := by
  have hcomma : skipBlanks (w ++ ',' :: (w₁ ++ (t ++ rest))) = ',' :: (w₁ ++ (t ++ rest)) :=
    hw.skip_cons (by decide) _
  have hread := ht.read rest
  have hskip := ht.skip hw₁ rest
  obtain ⟨q, s, rfl, hq⟩ := ht.eq_cons
  rw [List.cons_append] at hread hskip hcomma ⊢
  simp only [readNextName, hcomma, hskip, hread]
  rfl

theorem NamesText.read {t : List Char} {names : List String} (h : NamesText t names)
    {w : List Char} (hw : Blanks w) (rest : List Char) :
    readMoreNames (t ++ (w ++ ']' :: rest)) = .ok (names, ']' :: rest) := by
  induction h with
  | nil =>
    rw [List.nil_append, readMoreNames_of_none (readNextName_close hw rest),
      hw.skip_cons (by decide)]
  | cons hw₁ hw₂ ht hnames ih =>
    simp only [List.append_assoc, List.cons_append]
    rw [readMoreNames_of_some (readNextName_comma hw₁ hw₂ ht _), ih]
    rfl

theorem bracketText_of_readBracketContent {w s r rest : List Char} {segment : Segment}
    (hw : Blanks w) (h : readBracketContent s = .ok (segment, r))
    (hclose : skipBlanks r = ']' :: rest) :
    ∃ t, '[' :: (w ++ s) = t ++ rest ∧ BracketText t segment := by
  obtain ⟨w₁, hw₁, hr⟩ := exists_blanks r
  rw [hclose] at hr
  unfold readBracketContent at h
  split at h
  · contradiction
  · obtain ⟨rfl, rfl⟩ := Prod.mk.inj (Except.ok.inj h)
    refine ⟨_, ?_, .wildcard hw hw₁⟩
    rw [hr]
    simp only [List.append_assoc, List.cons_append, List.nil_append]
  · next s' =>
    obtain ⟨s₁, hopen, h⟩ := Reading.ok_of_bind h
    obtain ⟨⟨p, s₂⟩, hcondition, h⟩ := Reading.ok_of_bind h
    obtain ⟨s₃, hend, h⟩ := Reading.ok_of_bind h
    obtain ⟨rfl, rfl⟩ := Prod.mk.inj (Except.ok.inj h)
    obtain ⟨w₂, hw₂, hs'⟩ := exists_blanks s'
    obtain ⟨k, t, w₃, hs₁, hw₃, ht⟩ := conjunctionText_of_readConjunction hcondition
    obtain ⟨w₄, hw₄, hs₂⟩ := exists_blanks s₂
    refine ⟨_, ?_, .filter hw hw₂ ht (hw₃.append hw₄) hw₁⟩
    rw [hs', eq_cons_of_expect hopen, hs₁, hs₂, eq_cons_of_expect hend, hr]
    simp only [List.append_assoc, List.cons_append, List.nil_append]
  · obtain ⟨⟨first, s₁⟩, hfirst, h⟩ := Reading.ok_of_bind h
    obtain ⟨⟨names, s₂⟩, hnames, h⟩ := Reading.ok_of_bind h
    obtain ⟨rfl, rfl⟩ := Prod.mk.inj (Except.ok.inj h)
    obtain ⟨t, hs, ht⟩ := quotedText_of_readQuoted hfirst
    obtain ⟨t', w₂, hs₁, hw₂, ht'⟩ := namesText_of_readNamesWithin hnames
    rw [hs, hs₁, hr]
    cases ht' with
    | nil =>
      refine ⟨_, ?_, .key hw ht (hw₂.append hw₁)⟩
      simp only [List.append_assoc, List.cons_append, List.nil_append]
    | cons hc hc₁ hquoted hmore =>
      refine ⟨_, ?_, .keys hw ht (.cons hc hc₁ hquoted hmore) (List.cons_ne_nil _ _)
        (hw₂.append hw₁)⟩
      simp only [List.append_assoc, List.cons_append, List.nil_append]

theorem bracketText_of_readBracket {s rest : List Char} {segment : Segment}
    (h : readBracket s = .ok (segment, rest)) :
    ∃ t, '[' :: s = t ++ rest ∧ BracketText t segment := by
  obtain ⟨w, hw, hs⟩ := exists_blanks s
  obtain ⟨⟨content, r⟩, hcontent, h⟩ := Reading.ok_of_bind h
  obtain ⟨r', hclose, h⟩ := Reading.ok_of_bind h
  obtain ⟨rfl, rfl⟩ := Prod.mk.inj (Except.ok.inj h)
  rw [hs]
  exact bracketText_of_readBracketContent hw hcontent (eq_cons_of_expect hclose)

theorem readBracket_of_content {w s w₁ rest : List Char} {segment : Segment}
    (hskip : skipBlanks (w ++ s) = s) (hw₁ : Blanks w₁)
    (h : readBracketContent s = .ok (segment, w₁ ++ ']' :: rest)) :
    readBracket (w ++ s) = .ok (segment, rest) := by
  rw [readBracket, hskip, h]
  simp only [Reading.bind_ok, hw₁.skip_cons (c := ']') (by decide), expect_cons]
  rfl

theorem readBracketContent_of_cons {c : Char} {s : List Char} (hstar : c ≠ '*')
    (hquestion : c ≠ '?') :
    readBracketContent (c :: s) = (do
      let (first, rest) ← readQuoted (c :: s)
      let (names, rest) ← readMoreNames rest
      return (.ofNames first names, rest)) := by
  unfold readBracketContent
  split
  · next h => contradiction
  · next h => exact absurd (List.cons.inj h).1 hstar
  · next h => exact absurd (List.cons.inj h).1 hquestion
  · rfl

theorem readBracketContent_quoted {t s r : List Char} {first : String}
    {names : List String} (ht : QuotedText t first) (h : readMoreNames s = .ok (names, r)) :
    readBracketContent (t ++ s) = .ok (.ofNames first names, r) := by
  have hread := ht.read s
  obtain ⟨q, t', rfl, hq⟩ := ht.eq_cons
  have hne {d : Char} (hd : ¬(d = '\'' ∨ d = '"')) : q ≠ d := fun h => hd (h ▸ hq)
  rw [List.cons_append] at hread ⊢
  rw [readBracketContent_of_cons (hne (by decide)) (hne (by decide)), hread]
  simp only [Reading.bind_ok, h]
  rfl

theorem BracketText.read {t : List Char} {segment : Segment} (h : BracketText t segment)
    (rest : List Char) : readSegment (t ++ rest) = .ok (segment, rest) := by
  cases h with
  | wildcard hw hw₁ =>
    simp only [List.append_assoc, List.cons_append, List.nil_append]
    exact readBracket_of_content (hw.skip_cons (by decide) _) hw₁ rfl
  | @filter w w₁ s w₂ w₃ k p hw hw₁ ht hw₂ hw₃ =>
    simp only [List.append_assoc, List.cons_append, List.nil_append]
    refine readBracket_of_content (hw.skip_cons (by decide) _) hw₃ ?_
    have hk := ht.le_maxNesting (Nat.zero_le _)
    have hclose : Follows (w₂ ++ ')' :: (w₃ ++ ']' :: rest)) := ⟨w₂, _, hw₂, .inr rfl⟩
    have hread := ht.read (maxNesting - k) _ (by omega) hclose
    rw [show k + (maxNesting - k) = maxNesting by omega,
      readChain_close (hw₂.skip_cons (by decide) _)] at hread
    simp only [readBracketContent, hw₁.skip_cons (c := '(') (by decide), expect_cons,
      Reading.bind_ok, hread]
    rw [Text.skipBlanks_cons_of_not (by decide), expect_cons]
    rfl
  | key hw ht hw₁ =>
    simp only [List.append_assoc, List.cons_append, List.nil_append]
    refine readBracket_of_content (ht.skip hw _) .nil ?_
    exact readBracketContent_quoted ht (NamesText.nil.read hw₁ rest)
  | @keys w t s w₁ first names hw ht hs hne hw₁ =>
    obtain ⟨second, more, rfl⟩ := List.exists_cons_of_ne_nil hne
    simp only [List.append_assoc, List.cons_append, List.nil_append]
    refine readBracket_of_content (ht.skip hw _) .nil ?_
    exact readBracketContent_quoted ht (hs.read hw₁ rest)

theorem stepText_of_readStep {s rest : List Char} {segment : Segment}
    (h : readStep s = .ok (segment, rest)) : ∃ t, s = t ++ rest ∧ StepText t segment := by
  unfold readStep at h
  split at h
  · obtain ⟨rfl, rfl⟩ := Prod.mk.inj (Except.ok.inj h)
    exact ⟨['*'], rfl, .wildcard⟩
  · obtain ⟨⟨name, r⟩, ha, hr⟩ := Reading.ok_of_map h
    obtain ⟨rfl, rfl⟩ := Prod.mk.inj hr
    obtain ⟨t, hs, ht⟩ := identifierText_of_readIdentifier ha
    exact ⟨t, hs, .key ht⟩

theorem StepText.eq_cons {t : List Char} {segment : Segment} (h : StepText t segment) :
    ∃ c s, t = c :: s ∧ (c = '*' ∨ isIdentifierChar c = true) := by
  cases h with
  | wildcard => exact ⟨_, _, rfl, .inl rfl⟩
  | key ht =>
    obtain ⟨hne, hname⟩ := ht
    obtain ⟨c, s, rfl⟩ := List.exists_cons_of_ne_nil hne
    exact ⟨c, s, rfl, .inr (hname c List.mem_cons_self)⟩

theorem StepText.read {t rest : List Char} {segment : Segment} (h : StepText t segment)
    (hrest : Stops isIdentifierChar rest) : readStep (t ++ rest) = .ok (segment, rest) := by
  cases h with
  | wildcard => rfl
  | key ht =>
    have hread := ht.read hrest
    unfold readStep
    split
    · next heq =>
      obtain ⟨hne, hname⟩ := ht
      obtain ⟨c, s, rfl⟩ := List.exists_cons_of_ne_nil hne
      exact absurd ((List.cons.inj heq).1 ▸ hname c List.mem_cons_self) (by decide)
    · rw [hread]
      rfl

theorem segmentsText_of_readSegment {s rest : List Char} {segment : Segment}
    {segments : List Segment} (h : readSegment s = .ok (segment, rest))
    (hrest : SegmentsText rest segments) : SegmentsText s (segment :: segments) := by
  unfold readSegment at h
  split at h
  · obtain ⟨t, rfl, ht⟩ := stepText_of_readStep h
    exact .dot ht hrest
  · obtain ⟨t, hs, ht⟩ := bracketText_of_readBracket h
    rw [hs]
    exact .bracket ht hrest
  · contradiction

theorem segmentsText_of_readSegments {s : List Char} {segments : List Segment}
    (h : readSegments s = .ok segments) : SegmentsText s segments := by
  rw [readSegments] at h
  generalize s.length = fuel at h
  induction fuel generalizing s segments with
  | zero =>
    cases s with
    | nil => exact Except.ok.inj h ▸ .nil
    | cons c s => contradiction
  | succ fuel ih =>
    cases s with
    | nil => exact Except.ok.inj h ▸ .nil
    | cons c s =>
      rw [readSegmentsWithin] at h
      · split at h
        · contradiction
        · next hfirst =>
          obtain ⟨more, hmore, rfl⟩ := Reading.ok_of_map h
          exact segmentsText_of_readSegment hfirst (ih hmore)
      · exact List.cons_ne_nil c s

theorem BracketText.eq_cons {t : List Char} {segment : Segment} (h : BracketText t segment) :
    ∃ s, t = '[' :: s := by
  cases h <;> exact ⟨_, rfl⟩

/-- No name goes on into the segments behind it. -/
theorem SegmentsText.stops {s : List Char} {segments : List Segment}
    (h : SegmentsText s segments) : Stops isIdentifierChar s := by
  cases h with
  | nil => exact .nil
  | dot _ _ => exact .cons (by decide) _
  | bracket ht _ =>
    obtain ⟨t, rfl⟩ := ht.eq_cons
    exact .cons (by decide) _

/-- Segments are read in front of any text that no name goes on into. -/
theorem SegmentsText.readSegments_append {s : List Char} {segments : List Segment}
    (h : SegmentsText s segments) {rest : List Char} (hrest : Stops isIdentifierChar rest) :
    readSegments (s ++ rest) = (readSegments rest).map (segments ++ ·) := by
  induction h with
  | nil =>
    rw [List.nil_append]
    cases readSegments rest <;> rfl
  | @dot t s segment segments ht hs ih =>
    have hread : readSegment ('.' :: (t ++ (s ++ rest))) = .ok (segment, s ++ rest) :=
      ht.read (.append hs.stops hrest)
    rw [List.cons_append, List.append_assoc, readSegments_cons, hread]
    simp only [Reading.bind_ok, ih]
    cases readSegments rest <;> rfl
  | @bracket t s segment segments ht hs ih =>
    have hread := ht.read (s ++ rest)
    obtain ⟨t, rfl⟩ := ht.eq_cons
    rw [List.append_assoc]
    rw [List.cons_append] at hread ⊢
    rw [readSegments_cons, hread]
    simp only [Reading.bind_ok, ih]
    cases readSegments rest <;> rfl

theorem BracketText.three_le_length {t : List Char} {segment : Segment}
    (h : BracketText t segment) : 3 ≤ t.length := by
  cases h with
  | wildcard _ _ => simp only [List.length_cons, List.length_append, List.length_nil]; omega
  | filter _ _ _ _ _ => simp only [List.length_cons, List.length_append, List.length_nil]; omega
  | key _ ht _ =>
    obtain ⟨q, s, rfl, _⟩ := ht.eq_cons
    simp only [List.length_cons, List.length_append, List.length_nil]
    omega
  | keys _ ht _ _ _ =>
    obtain ⟨q, s, rfl, _⟩ := ht.eq_cons
    simp only [List.length_cons, List.length_append, List.length_nil]
    omega

/-- What follows on segments does not make the first of them the start at each element. -/
theorem SegmentsText.prefix_of_append {s t : List Char} {segments : List Segment}
    (h : SegmentsText s segments) (hne : s ≠ []) (hstart : ['[', '*', ']'] <+: s ++ t) :
    ['[', '*', ']'] <+: s := by
  cases h with
  | nil => exact absurd rfl hne
  | dot _ _ => exact absurd (List.cons_prefix_cons.mp hstart).1 (by decide)
  | @bracket u v _ _ ht _ =>
    refine List.prefix_of_prefix_length_le hstart (List.prefix_append _ t) ?_
    have hlength := ht.three_le_length
    rw [List.length_append]
    exact Nat.le_add_right_of_le hlength

theorem pathText_of_readPath {s : List Char} {p : Path} (h : readPath s = .ok p) :
    PathText s p := by
  unfold readPath at h
  split at h
  · obtain ⟨segments, hs, rfl⟩ := Reading.ok_of_map h
    exact .each (segmentsText_of_readSegments hs)
  · next s hno =>
    obtain ⟨segments, hs, rfl⟩ := Reading.ok_of_map h
    refine .root (segmentsText_of_readSegments hs) ?_
    rintro ⟨rest, rfl⟩
    exact hno rest rfl
  · obtain ⟨segments, hs, rfl⟩ := Reading.ok_of_map h
    have hsegments := segmentsText_of_readSegments hs
    generalize hs' : '[' :: _ = s' at hsegments
    cases hsegments with
    | nil => contradiction
    | dot _ _ => exact absurd (List.cons.inj hs').1 (by decide)
    | bracket ht hmore => exact .bracket ht hmore
  · obtain ⟨⟨first, rest⟩, hfirst, h⟩ := Reading.ok_of_bind h
    obtain ⟨segments, hs, h⟩ := Reading.ok_of_bind h
    obtain rfl := Except.ok.inj h
    obtain ⟨t, rfl, ht⟩ := stepText_of_readStep hfirst
    exact .step ht (segmentsText_of_readSegments hs)

theorem readPath_relative {s : List Char} (hdollar : s.head? ≠ some '$')
    (hbracket : s.head? ≠ some '[') :
    readPath s = (do
      let (first, rest) ← readStep s
      (readSegments rest).map fun segments => ⟨.document, first :: segments⟩) := by
  unfold readPath
  split
  · exact absurd rfl hdollar
  · exact absurd rfl hdollar
  · exact absurd rfl hbracket
  · cases readStep s with
    | error fault => rfl
    | ok step =>
      simp only [Reading.bind_ok]
      cases readSegments step.2 <;> rfl

/-- A path is read in front of further segments, but for a start that would become another. -/
theorem PathText.readPath_append {s : List Char} {p : Path} (h : PathText s p) {t : List Char}
    (ht : Stops isIdentifierChar t) (hstart : ¬ (s = ['$'] ∧ ['[', '*', ']'] <+: t)) :
    readPath (s ++ t) = (readSegments t).map fun q => ⟨p.anchor, p.segments ++ q⟩ := by
  cases h with
  | each hs =>
    simp only [List.cons_append]
    rw [readPath, hs.readSegments_append ht]
    cases readSegments t <;> rfl
  | @root s segments hs hno =>
    rw [List.cons_append, readPath, hs.readSegments_append ht]
    · cases readSegments t <;> rfl
    · intro rest hrest
      have hprefix : ['[', '*', ']'] <+: s ++ t := ⟨rest, hrest.symm⟩
      cases s with
      | nil => exact hstart ⟨rfl, hprefix⟩
      | cons c s => exact hno (hs.prefix_of_append (List.cons_ne_nil c s) hprefix)
  | @step u s segment segments hu hs =>
    have hread := hu.read (.append hs.stops ht)
    obtain ⟨c, u, rfl, hc⟩ := hu.eq_cons
    have hne {d : Char} (hd : ¬(d = '*' ∨ isIdentifierChar d = true)) :
        (c :: u ++ (s ++ t)).head? ≠ some d := fun h => hd (Option.some.inj h ▸ hc)
    rw [List.append_assoc, readPath_relative (hne (by decide)) (hne (by decide)), hread]
    simp only [Reading.bind_ok, hs.readSegments_append ht]
    cases readSegments t <;> rfl
  | bracket hu hs =>
    have hread := (SegmentsText.bracket hu hs).readSegments_append ht
    obtain ⟨u, rfl⟩ := hu.eq_cons
    simp only [List.cons_append] at hread ⊢
    rw [readPath, hread]
    cases readSegments t <;> rfl

theorem PathText.read {s : List Char} {p : Path} (h : PathText s p) : readPath s = .ok p := by
  have hread := h.readPath_append .nil fun hstart => absurd hstart.2 (by decide)
  rw [List.append_nil] at hread
  rw [hread]
  show Except.ok (Path.mk p.anchor (p.segments ++ [])) = _
  rw [List.append_nil]

theorem PathText.ne_nil {s : List Char} {p : Path} (h : PathText s p) : s ≠ [] := by
  cases h with
  | each _ => exact List.cons_ne_nil _ _
  | root _ _ => exact List.cons_ne_nil _ _
  | step ht _ =>
    obtain ⟨c, t, rfl, _⟩ := ht.eq_cons
    exact List.cons_ne_nil _ _
  | bracket ht _ =>
    obtain ⟨t, rfl⟩ := ht.eq_cons
    exact List.cons_ne_nil _ _

/-- Every segment of a path is read from a text of its own. -/
theorem SegmentsText.text_of_mem {s : List Char} {segments : List Segment}
    (h : SegmentsText s segments) {segment : Segment} (hmem : segment ∈ segments) :
    ∃ t, StepText t segment ∨ BracketText t segment := by
  induction h with
  | nil => contradiction
  | dot ht _ ih =>
    rcases List.mem_cons.mp hmem with rfl | hmem
    · exact ⟨_, .inl ht⟩
    · exact ih hmem
  | bracket ht _ ih =>
    rcases List.mem_cons.mp hmem with rfl | hmem
    · exact ⟨_, .inr ht⟩
    · exact ih hmem

theorem PathText.text_of_mem {s : List Char} {p : Path} (h : PathText s p) {segment : Segment}
    (hmem : segment ∈ p.segments) : ∃ t, StepText t segment ∨ BracketText t segment := by
  cases h with
  | each hs => exact hs.text_of_mem hmem
  | root hs _ => exact hs.text_of_mem hmem
  | step ht hs => exact (SegmentsText.dot ht hs).text_of_mem hmem
  | bracket ht hs => exact (SegmentsText.bracket ht hs).text_of_mem hmem

namespace Path

theorem parse_of_pathText {text : String} {p : Path} (h : PathText (Text.trim text.toList) p) :
    parse text = .ok p := by
  obtain ⟨c, s, hs⟩ := List.exists_cons_of_ne_nil h.ne_nil
  have hread := h.read
  rw [hs] at hread
  simp only [parse, hs, hread]
  rfl

theorem pathText_of_parse {text : String} {p : Path} (h : parse text = .ok p) :
    PathText (Text.trim text.toList) p := by
  unfold parse at h
  split at h
  · contradiction
  · next hs =>
    rw [hs]
    refine pathText_of_readPath ?_
    cases hread : readPath _ with
    | error fault =>
      rw [hread] at h
      contradiction
    | ok q =>
      rw [hread] at h
      exact congrArg Except.ok (Except.ok.inj h)

/-- The texts that parse as a path are those from which the grammar derives it. -/
theorem parse_eq_ok_iff (text : String) (p : Path) :
    parse text = .ok p ↔ Text.trim text.toList ≠ [] ∧ PathText (Text.trim text.toList) p :=
  ⟨fun h => ⟨(pathText_of_parse h).ne_nil, pathText_of_parse h⟩, fun h => parse_of_pathText h.2⟩

end Path

end DocQuery
