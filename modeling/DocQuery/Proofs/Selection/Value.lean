import DocQuery.Proofs.Selection.Reach

/- The value that a path selects. Main statement: a path that may lead to several nodes selects an
array of them, unless the walk has no node left before a step fans out; any other path selects one
node or none. -/

namespace DocQuery

/-- A path that may lead to several nodes of a document: it starts at each item of an array, or one
of its steps fans out. -/
def Path.fansOut : Path → Json → Bool
  | ⟨.eachElement, _⟩, .array _ => true
  | ⟨_, segments⟩, _ => segments.any Segment.fansOut

/-- A walk comes to an end before a step fans out: the keys before that step lead nowhere. -/
def Path.CutShort (path : Path) (document : Json) : Prop :=
  reach ((path.route document).takeWhile fun segment => !segment.fansOut) document = []

theorem length_reach_le_one {segments : List Segment} (h : segments.any Segment.fansOut = false)
    (node : Json) : (reach segments node).length ≤ 1 := by
  induction segments generalizing node with
  | nil => simp [reach]
  | cons segment rest ih =>
    simp only [List.any_cons, Bool.or_eq_false_iff] at h
    cases segment with
    | key name =>
      rw [reach_cons, Segment.step]
      cases node.get? name with
      | none => simp
      | some child => simpa using ih h.2 child
    | _ => simp [Segment.fansOut] at h

theorem Selection.many_foldl_advance_eq (segments : List Segment) (selection : Selection) :
    (segments.foldl advance selection).many = (selection.many || (segments.any Segment.fansOut &&
      !(selection.nodes.flatMap
        (reach (segments.takeWhile fun segment => !segment.fansOut))).isEmpty)) := by
  induction segments generalizing selection with
  | nil => simp
  | cons segment rest ih =>
    rw [List.foldl_cons, ih, List.any_cons, List.takeWhile_cons]
    cases hfans : segment.fansOut with
    | false =>
      have hreach (front : List Segment) : (selection.advance segment).nodes.flatMap (reach front) =
          selection.nodes.flatMap (reach (segment :: front)) := List.flatMap_assoc
      have hmany : (selection.advance segment).many = selection.many := by simp [advance, hfans]
      rw [hreach, hmany]
      rfl
    | true =>
      cases hnodes : selection.nodes <;> simp [advance, hfans, hnodes, reach]

namespace Path

theorem fansOut_eq (path : Path) (document : Json) :
    path.fansOut document = (path.route document).any Segment.fansOut := by
  obtain ⟨anchor, segments⟩ := path
  cases anchor with
  | document => rfl
  | eachElement => cases document <;> rfl

theorem length_select_le_one {path : Path} {document : Json}
    (h : path.fansOut document = false) : (path.select document).length ≤ 1 := by
  rw [fansOut_eq] at h
  rw [select_eq_reach_route]
  exact length_reach_le_one h document

theorem many_walk_iff (path : Path) (document : Json) :
    (Selection.walk path.anchor path.segments document).many = true ↔
      path.fansOut document = true ∧ ¬ path.CutShort document := by
  obtain ⟨anchor, segments⟩ := path
  rw [Selection.walk, Selection.many_foldl_advance_eq]
  cases anchor <;> cases document <;>
    simp [Selection.start, fansOut, CutShort, route, Segment.fansOut, reach]

theorem select_eq_nil_of_cutShort {path : Path} {document : Json} (h : path.CutShort document) :
    path.select document = [] := by
  have happend := reach_append ((path.route document).takeWhile fun segment => !segment.fansOut)
    ((path.route document).dropWhile fun segment => !segment.fansOut) document
  rwa [List.takeWhile_append_dropWhile, h, List.flatMap_nil, ← select_eq_reach_route] at happend

end Path

/-- A path that may lead to several nodes selects the array of its nodes, which is empty where there
are none, unless the walk is cut short: then there are no nodes, and it selects nothing. Any other
path selects its node, if it has one. -/
theorem selectValue_shape (path : Path) (document : Json) :
    (path.fansOut document = true →
      (path.selectValue? document = some (.array (path.select document)) ↔
        ¬ path.CutShort document) ∧
      (path.CutShort document →
        path.select document = [] ∧ path.selectValue? document = none)) ∧
    (path.fansOut document = false →
      (path.select document).length ≤ 1 ∧
      path.selectValue? document = (path.select document).head? ∧
      (path.selectValue? document = none ↔ path.select document = [])) := by
  have hvalue : path.selectValue? document =
      if (Selection.walk path.anchor path.segments document).many then
        some (.array (path.select document)) else (path.select document).head? := rfl
  have hmany := path.many_walk_iff document
  refine ⟨?_, ?_⟩
  · intro hfans
    by_cases hcut : path.CutShort document
    · have hnodes := Path.select_eq_nil_of_cutShort hcut
      simp [hvalue, hmany, hcut, hnodes]
    · simp [hvalue, hmany, hfans, hcut]
  · intro hfans
    have hhead : path.selectValue? document = (path.select document).head? := by
      simp [hvalue, hmany, hfans]
    exact ⟨Path.length_select_le_one hfans, hhead, by rw [hhead, List.head?_eq_none_iff]⟩

/-- The key before the wildcard leads to an empty array, and nowhere; the key alone leads to the
array. -/
theorem selectValue_shape_wildcard :
    (Path.mk .document [.key "a", .wildcard]).fansOut (.object [("a", .array [])]) = true ∧
    ¬ (Path.mk .document [.key "a", .wildcard]).CutShort (.object [("a", .array [])]) ∧
    (Path.mk .document [.key "a", .wildcard]).selectValue? (.object [("a", .array [])]) =
      some (.array []) ∧
    (Path.mk .document [.key "a", .wildcard]).fansOut (.object []) = true ∧
    (Path.mk .document [.key "a", .wildcard]).CutShort (.object []) ∧
    (Path.mk .document [.key "a", .wildcard]).selectValue? (.object []) = none ∧
    (Path.mk .document [.key "a"]).fansOut (.object [("a", .array [])]) = false ∧
    (Path.mk .document [.key "a"]).selectValue? (.object [("a", .array [])]) =
      some (.array []) := by
  have hempty : ¬ (Path.mk .document [.key "a", .wildcard]).CutShort
      (.object [("a", .array [])]) := List.cons_ne_nil _ _
  have hmissing : (Path.mk .document [.key "a", .wildcard]).CutShort (.object []) := rfl
  exact ⟨rfl, hempty, ((selectValue_shape _ _).1 rfl).1.mpr hempty, rfl, hmissing,
    (((selectValue_shape _ _).1 rfl).2 hmissing).2, rfl, ((selectValue_shape _ _).2 rfl).2.1⟩

/-- Where the key before a wildcard is missing, nothing is selected, and no empty array either. -/
theorem selectValue_missing_key :
    Path.parse "a[*]" = .ok ⟨.document, [.key "a", .wildcard]⟩ ∧
    (Path.mk .document [.key "a", .wildcard]).fansOut (.object []) = true ∧
    (Path.mk .document [.key "a", .wildcard]).select (.object []) = [] ∧
    (Path.mk .document [.key "a", .wildcard]).selectValue? (.object []) ≠ some (.array []) :=
  ⟨rfl, rfl, rfl, (Option.some_ne_none _).symm⟩

end DocQuery
