import DocQuery.Proofs.Selection.Value

/- The members that a filter pages. Main statement: they are told by the nodes that a path selects
and by the form of the path, whichever of its steps a walk comes to take. -/

namespace DocQuery

/-- The nodes that a path selects. A single array stands for its items, unless there might have
been several nodes. -/
def Path.matched (path : Path) (document : Json) : List Json :=
  if path.fansOut document then path.select document
  else
    match path.select document with
    | [.array items] => items
    | nodes => nodes

namespace Path

theorem many_walk {path : Path} {document : Json} (h : path.select document ≠ []) :
    (Selection.walk path.anchor path.segments document).many = path.fansOut document := by
  rw [Bool.eq_iff_iff, many_walk_iff]
  exact and_iff_left fun hcut => h (select_eq_nil_of_cutShort hcut)

/-- What a filter pages does not hang on the steps that were taken. -/
theorem members_eq_matched (path : Path) (document : Json) :
    path.members document = path.matched document := by
  have hnodes : (Selection.walk path.anchor path.segments document).nodes =
      path.select document := rfl
  rw [members, matched, selectValue?, Selection.value?, hnodes]
  cases hselect : path.select document with
  | nil =>
    cases (Selection.walk path.anchor path.segments document).many <;>
      cases path.fansOut document <;> rfl
  | cons node nodes =>
    rw [many_walk (hselect ▸ List.cons_ne_nil node nodes)]
    cases hfans : path.fansOut document with
    | true => rfl
    | false =>
      have hsingle : nodes = [] := by simpa [hselect] using length_select_le_one hfans
      subst hsingle
      cases node <;> rfl

end Path
end DocQuery
