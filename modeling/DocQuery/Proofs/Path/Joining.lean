import DocQuery.Proofs.Path.Depth
import DocQuery.Proofs.Path.Faults

/- Texts put together from path texts. Main statements: segments mean the same behind any path, and
fail at the same character; a relative path means the same behind `$.`. -/

namespace DocQuery

open Text (skipBlanks)

theorem stops_skipBlanks (s : List Char) : Stops Text.isBlank (skipBlanks s) := by
  induction s with
  | nil => exact .nil
  | cons c s ih =>
    cases hc : Text.isBlank c with
    | true => rwa [Text.skipBlanks_cons_blank hc]
    | false =>
      rw [Text.skipBlanks_cons_of_not hc]
      exact .cons hc s

theorem Stops.skipBlanks_eq {s : List Char} (h : Stops Text.isBlank s) : skipBlanks s = s := by
  cases s with
  | nil => rfl
  | cons c s => exact Text.skipBlanks_cons_of_not (h c rfl) s

theorem Stops.of_append {p : Char → Bool} {s t : List Char} (h : Stops p (s ++ t)) : Stops p s := by
  cases s with
  | nil => exact .nil
  | cons c s => exact .cons (h c rfl) s

theorem Blanks.reverse {w : List Char} (h : Blanks w) : Blanks w.reverse :=
  fun c hc => h c (List.mem_reverse.mp hc)

theorem exists_trim_append (s : List Char) :
    ∃ w, Blanks w ∧ skipBlanks s = Text.trim s ++ w := by
  obtain ⟨w, hw, hs⟩ := exists_blanks (skipBlanks s).reverse
  refine ⟨w.reverse, hw.reverse, ?_⟩
  have h := congrArg List.reverse hs
  rwa [List.reverse_reverse, List.reverse_append] at h

theorem exists_trim (s : List Char) :
    ∃ w w₁, Blanks w ∧ Blanks w₁ ∧ s = w ++ (Text.trim s ++ w₁) := by
  obtain ⟨w, hw, hs⟩ := exists_blanks s
  obtain ⟨w₁, hw₁, htrim⟩ := exists_trim_append s
  exact ⟨w, w₁, hw, hw₁, by rw [← htrim, ← hs]⟩

theorem stops_trim (s : List Char) : Stops Text.isBlank (Text.trim s) := by
  obtain ⟨w, _, hs⟩ := exists_trim_append s
  exact (hs ▸ stops_skipBlanks s).of_append

/-- Trimming leaves a text as it is just where no blank stands at its ends. -/
theorem trim_eq_self_iff {s : List Char} :
    Text.trim s = s ↔ Stops Text.isBlank s ∧ Stops Text.isBlank s.reverse := by
  constructor
  · intro h
    have hback := stops_skipBlanks (skipBlanks s).reverse
    rw [← List.reverse_reverse (skipBlanks (skipBlanks s).reverse), ← Text.trim, h] at hback
    exact ⟨h ▸ stops_trim s, hback⟩
  · rintro ⟨hfront, hback⟩
    rw [Text.trim, hfront.skipBlanks_eq, hback.skipBlanks_eq, List.reverse_reverse]

theorem endsVisibly_trim {s : List Char} (h : Text.trim s ≠ []) : EndsVisibly (Text.trim s) := by
  have hstops := stops_skipBlanks (skipBlanks s).reverse
  rw [Text.trim] at h ⊢
  cases hs : skipBlanks (skipBlanks s).reverse with
  | nil =>
    rw [hs] at h
    exact absurd rfl h
  | cons c t =>
    rw [hs] at hstops
    exact ⟨t.reverse, c, List.reverse_cons, hstops c rfl⟩

/-- A text that begins and ends visibly is what trimming leaves of it between blanks. -/
theorem EndsVisibly.trim_between {s w w₁ : List Char} (h : EndsVisibly s)
    (hs : Stops Text.isBlank s) (hw : Blanks w) (hw₁ : Blanks w₁) :
    Text.trim (w ++ (s ++ w₁)) = s := by
  obtain ⟨t, d, rfl, hd⟩ := h
  have hstops : Stops Text.isBlank (t ++ [d] ++ w₁) := by
    cases t with
    | nil => exact .cons hd w₁
    | cons c t => exact .cons (hs c rfl) _
  rw [Text.trim, hw.skip, hstops.skipBlanks_eq, List.reverse_append, hw₁.reverse.skip,
    List.reverse_append, List.reverse_singleton, List.singleton_append,
    Text.skipBlanks_cons_of_not hd, List.reverse_cons, List.reverse_reverse]

theorem trim_append {s t : List Char} (hs : Stops Text.isBlank s) (hne : s ≠ [])
    (ht : Stops Text.isBlank t) (htrim : Text.trim t ≠ []) :
    Text.trim (s ++ t) = s ++ Text.trim t := by
  obtain ⟨w, hw, htext⟩ := exists_trim_append t
  rw [ht.skipBlanks_eq] at htext
  obtain ⟨c, s, rfl⟩ := List.exists_cons_of_ne_nil hne
  have hend : EndsVisibly (c :: s ++ Text.trim t) := (endsVisibly_trim htrim).append _
  have h := hend.trim_between (.cons (hs c rfl) _) .nil hw
  rwa [List.nil_append, List.append_assoc, ← htext] at h

/-- A text that begins as a segment behind another one does. -/
def StartsSegment (s : List Char) : Prop := s.head? = some '.' ∨ s.head? = some '['

theorem StartsSegment.stops {p : Char → Bool} {s : List Char} (h : StartsSegment s)
    (hdot : p '.' = false) (hbracket : p '[' = false) : Stops p s := by
  intro c hc
  rcases h with h | h
  · exact Option.some.inj (h.symm.trans hc) ▸ hdot
  · exact Option.some.inj (h.symm.trans hc) ▸ hbracket

theorem StartsSegment.exists_trim {s : List Char} (h : StartsSegment s) :
    ∃ w, Text.trim s ≠ [] ∧ StartsSegment (Text.trim s) ∧ s = Text.trim s ++ w := by
  obtain ⟨w, hw, hs⟩ := exists_trim_append s
  rw [(h.stops (by decide) (by decide)).skipBlanks_eq] at hs
  cases htrim : Text.trim s with
  | nil =>
    rw [htrim, List.nil_append] at hs
    subst hs
    rcases h with h | h
    · exact absurd (hw '.' (List.mem_of_mem_head? h)) (by decide)
    · exact absurd (hw '[' (List.mem_of_mem_head? h)) (by decide)
  | cons c t =>
    rw [htrim] at hs
    rw [hs] at h
    exact ⟨w, List.cons_ne_nil c t, h, hs⟩

namespace Path

theorem parse_eq {text : String} {s : List Char} (h : Text.trim text.toList = s) (hne : s ≠ []) :
    parse text = (readPath s).mapError (Fault.locate s) := by
  obtain ⟨c, s, rfl⟩ := List.exists_cons_of_ne_nil hne
  simp only [parse, h]

section
variable {s t : String} {p : Path} (hs : Text.trim s.toList = s.toList) (hparse : parse s = .ok p)
  (ht : StartsSegment t.toList) (hstart : ¬ (s = "$" ∧ ['[', '*', ']'] <+: t.toList))
include hs hparse ht hstart

/-- Behind a path only segments are left to read, whatever the path is. -/
theorem parse_append_eq :
    parse (s ++ t) =
      ((readSegments (Text.trim t.toList)).map fun q => Path.mk p.anchor (p.segments ++ q)).mapError
        (Fault.locate (s.toList ++ Text.trim t.toList)) := by
  have htext : PathText s.toList p := hs ▸ pathText_of_parse hparse
  have hvisible : Stops Text.isBlank s.toList := hs ▸ stops_trim s.toList
  obtain ⟨w, hne, hsegment, hcut⟩ := ht.exists_trim
  have htrim : Text.trim (s ++ t).toList = s.toList ++ Text.trim t.toList := by
    rw [String.toList_append]
    exact trim_append hvisible htext.ne_nil (ht.stops (by decide) (by decide)) hne
  rw [parse_eq htrim (List.append_ne_nil_of_right_ne_nil _ hne), htext.readPath_append]
  · exact hsegment.stops (by decide) (by decide)
  · rintro ⟨hdollar, hprefix⟩
    refine hstart ⟨String.toList_inj.mp hdollar, hprefix.trans ?_⟩
    exact ⟨w, hcut.symm⟩

theorem parse_append_ok {q : List Segment} (h : readSegments (Text.trim t.toList) = .ok q) :
    parse (s ++ t) = .ok ⟨p.anchor, p.segments ++ q⟩ := by
  rw [parse_append_eq hs hparse ht hstart, h]
  rfl

theorem parse_append_error {fault : Fault}
    (h : readSegments (Text.trim t.toList) = .error fault) :
    parse (s ++ t) =
      .error ((fault.locate (Text.trim t.toList)).shift (Text.utf8Size s.toList)) := by
  rw [parse_append_eq hs hparse ht hstart, h,
    ← (failsWithin_readSegments _ fault h).locate_append s.toList]
  rfl

end

theorem parse_append_filter {s : String} {p : Path} (hs : Text.trim s.toList = s.toList)
    (hparse : parse s = .ok p) {k : Nat} {c : List Char} {condition : Predicate}
    (hc : ConjunctionText 0 k c condition) :
    parse (s ++ ("[?(" ++ String.ofList c ++ ")]")) =
      .ok ⟨p.anchor, p.segments ++ [.filter condition]⟩ := by
  have htext : ("[?(" ++ String.ofList c ++ ")]").toList =
      ['[', '?', '('] ++ (c ++ [')', ']']) := by
    simp only [String.toList_append, String.toList_ofList, List.append_assoc]
    rfl
  have hend : EndsVisibly (['[', '?', '('] ++ (c ++ [')', ']'])) :=
    .append (.append ⟨[')'], ']', rfl, by decide⟩ c) _
  have hread := (SegmentsText.bracket (.filter .nil .nil hc .nil .nil) .nil).readSegments_append .nil
  have ht : StartsSegment ("[?(" ++ String.ofList c ++ ")]").toList := htext ▸ .inr rfl
  refine parse_append_ok hs hparse ht ?_ ?_
  · rintro ⟨_, hprefix⟩
    rw [htext] at hprefix
    exact absurd (List.cons_prefix_cons.mp (List.cons_prefix_cons.mp hprefix).2).1 (by decide)
  · have htrim : Text.trim ("[?(" ++ String.ofList c ++ ")]").toList =
        ['[', '?', '('] ++ (c ++ [')', ']']) := by
      rw [htext]
      exact hend.trim (by decide)
    rw [htrim]
    rwa [List.append_nil, List.append_nil] at hread

/-- Segments behind a path are read as they are behind any other, here a single key; only the start
`$` takes `[*]` to itself. Where they fail, they fail with the same error, at the same byte of their
own. A filter may open all levels behind any path. -/
theorem parse_append {s t : String} {p : Path} (hs : Text.trim s.toList = s.toList)
    (hparse : parse s = .ok p) (ht : StartsSegment t.toList)
    (hstart : ¬ (s = "$" ∧ ['[', '*', ']'] <+: t.toList)) :
    (∀ q, parse ("x" ++ t) = .ok ⟨.document, .key "x" :: q⟩ →
        parse (s ++ t) = .ok ⟨p.anchor, p.segments ++ q⟩) ∧
      (∀ e, parse ("x" ++ t) = .error e →
        parse (s ++ t) = .error (e.shift (Text.utf8Size s.toList - 1))) ∧
      ∀ (k : Nat) (c : List Char) (condition : Predicate), ConjunctionText 0 k c condition →
        parse (s ++ ("[?(" ++ String.ofList c ++ ")]")) =
          .ok ⟨p.anchor, p.segments ++ [.filter condition]⟩ := by
  have hkey : parse "x" = .ok ⟨.document, [.key "x"]⟩ := rfl
  have hx : ¬ ("x" = "$" ∧ ['[', '*', ']'] <+: t.toList) := fun h => absurd h.1 (by decide)
  refine ⟨?_, ?_, fun _ _ _ hc => parse_append_filter hs hparse hc⟩
  · intro q hq
    cases hread : readSegments (Text.trim t.toList) with
    | error fault =>
      rw [parse_append_error rfl hkey ht hx hread] at hq
      contradiction
    | ok segments =>
      rw [parse_append_ok rfl hkey ht hx hread] at hq
      have hsegments : Segment.key "x" :: segments = .key "x" :: q :=
        (Path.mk.inj (Except.ok.inj hq)).2
      rw [parse_append_ok hs hparse ht hstart hread, (List.cons.inj hsegments).2]
  · intro e he
    cases hread : readSegments (Text.trim t.toList) with
    | error fault =>
      rw [parse_append_error rfl hkey ht hx hread] at he
      obtain ⟨c, s', hcons⟩ :=
        List.exists_cons_of_ne_nil (hs ▸ pathText_of_parse hparse).ne_nil
      have hsize : 1 ≤ Text.utf8Size s.toList := by
        rw [hcons, Text.utf8Size_cons]
        exact Nat.le_add_right_of_le c.utf8Size_pos
      have hshift : Text.utf8Size "x".toList + (Text.utf8Size s.toList - 1) =
          Text.utf8Size s.toList := Nat.add_sub_cancel' hsize
      rw [parse_append_error hs hparse ht hstart hread, ← Except.error.inj he,
        SyntaxError.shift_shift, hshift]
    | ok segments =>
      rw [parse_append_ok rfl hkey ht hx hread] at he
      contradiction

/-- Behind the start at each element `[*]` is a wildcard, and an error stands where it stood behind
the key. -/
theorem parse_append_each :
    parse "$[*]" = .ok ⟨.eachElement, []⟩ ∧
      parse ("x" ++ "[*]['b']") = .ok ⟨.document, [.key "x", .wildcard, .key "b"]⟩ ∧
      parse ("$[*]" ++ "[*]['b']") = .ok ⟨.eachElement, [.wildcard, .key "b"]⟩ ∧
      parse ("x" ++ "[b]") = .error (.unexpectedChar 'b' 2) ∧
      parse ("$[*]" ++ "[b]") = .error (.unexpectedChar 'b' 5) := by
  have heach : parse "$[*]" = .ok ⟨.eachElement, []⟩ := rfl
  have hkeys : parse ("x" ++ "[*]['b']") = .ok ⟨.document, [.key "x", .wildcard, .key "b"]⟩ := rfl
  have herror : parse ("x" ++ "[b]") = .error (.unexpectedChar 'b' 2) := rfl
  have hno (t : List Char) : ¬ ("$[*]" = "$" ∧ ['[', '*', ']'] <+: t) :=
    fun h => absurd h.1 (by decide)
  exact ⟨heach, hkeys, (parse_append rfl heach (t := "[*]['b']") (.inr rfl) (hno _)).1 _ hkeys,
    herror, (parse_append rfl heach (t := "[b]") (.inr rfl) (hno _)).2.1 _ herror⟩

theorem readPath_dollar {c : Char} {s : List Char} (hdollar : c ≠ '$') (hbracket : c ≠ '[') :
    readPath ('$' :: '.' :: c :: s) = readPath (c :: s) := by
  have hstep := readPath_relative (s := c :: s) (fun h => hdollar (Option.some.inj h))
    (fun h => hbracket (Option.some.inj h))
  have hroot : readPath ('$' :: '.' :: c :: s) =
      (readSegments ('.' :: c :: s)).map (⟨.document, ·⟩) := rfl
  have hsegment : readSegment ('.' :: c :: s) = readStep (c :: s) := rfl
  rw [hstep, hroot, readSegments_cons, hsegment]
  cases readStep (c :: s) with
  | error fault => rfl
  | ok step =>
    simp only [Reading.bind_ok]
    cases readSegments step.2 <;> rfl

/-- A relative path means the same behind `$.`, and fails there two bytes further on. -/
theorem parse_dollar_append {s : String} (hne : s ≠ "") (hs : Text.trim s.toList = s.toList)
    (hdollar : s.toList.head? ≠ some '$') (hbracket : s.toList.head? ≠ some '[') :
    parse ("$." ++ s) = (parse s).mapError (SyntaxError.shift 2) := by
  have hlist : s.toList ≠ [] := fun h => hne (String.toList_inj.mp h)
  have htrim : Text.trim ("$." ++ s).toList = ['$', '.'] ++ s.toList := by
    have hend : EndsVisibly s.toList := hs ▸ endsVisibly_trim (hs.symm ▸ hlist)
    rw [String.toList_append]
    exact (hend.append ['$', '.']).trim (by decide)
  rw [parse_eq htrim (List.cons_ne_nil _ _), parse_eq hs hlist]
  obtain ⟨c, t, hcons⟩ := List.exists_cons_of_ne_nil hlist
  rw [hcons] at hdollar hbracket ⊢
  have hread := readPath_dollar (s := t) (fun h => hdollar (congrArg some h))
    (fun h => hbracket (congrArg some h))
  rw [List.cons_append, List.cons_append, List.nil_append, hread]
  cases hfault : readPath (c :: t) with
  | error fault =>
    exact congrArg Except.error ((failsWithin_readPath _ fault hfault).locate_append ['$', '.'])
  | ok p => rfl

theorem parse_dollar_append_name :
    Text.trim "é.b[c]".toList = "é.b[c]".toList ∧
      parse "é.b[c]" = .error (.unexpectedChar 'c' 5) ∧
      parse ("$." ++ "é.b[c]") = .error (.unexpectedChar 'c' 7) := by
  have herror : parse "é.b[c]" = .error (.unexpectedChar 'c' 5) := rfl
  have hdollar := parse_dollar_append (s := "é.b[c]") (by decide) rfl (by decide) (by decide)
  rw [herror] at hdollar
  exact ⟨rfl, herror, hdollar⟩

end Path

end DocQuery
