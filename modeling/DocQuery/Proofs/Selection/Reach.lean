import DocQuery.Stage

/- What segments reach from one node, by recursion on the segments. Main statement: a walk takes
each step from all of its nodes at once and reaches the same nodes in the same order, so a path that
goes on selects from each node what the further segments reach. -/

namespace DocQuery

/-- The nodes that the segments reach from a node. -/
def reach : List Segment → Json → List Json
  | [], node => [node]
  | segment :: rest, node => (segment.step node).flatMap (reach rest)

theorem reach_cons (segment : Segment) (rest : List Segment) (node : Json) :
    reach (segment :: rest) node = (segment.step node).flatMap (reach rest) := rfl

theorem reach_append (front rest : List Segment) (node : Json) :
    reach (front ++ rest) node = (reach front node).flatMap (reach rest) := by
  induction front generalizing node with
  | nil => exact (List.flatMap_singleton _ _).symm
  | cons segment front ih =>
    rw [List.cons_append, reach_cons, reach_cons, List.flatMap_assoc]
    exact congrArg (List.flatMap · _) (funext ih)

theorem Selection.nodes_foldl_advance (segments : List Segment) (selection : Selection) :
    (segments.foldl advance selection).nodes = selection.nodes.flatMap (reach segments) := by
  induction segments generalizing selection with
  | nil => exact (List.flatMap_singleton' _).symm
  | cons segment rest ih =>
    rw [List.foldl_cons, ih, advance, List.flatMap_assoc]
    rfl

theorem Selection.nodes_start_eachElement (document : Json) :
    (start .eachElement document).nodes = Stage.elements document := by
  cases document <;> rfl

namespace Path

theorem select_eq_reach (path : Path) (document : Json) :
    path.select document =
      (Selection.start path.anchor document).nodes.flatMap (reach path.segments) :=
  Selection.nodes_foldl_advance path.segments _

theorem select_document (segments : List Segment) (document : Json) :
    select ⟨.document, segments⟩ document = reach segments document := by
  rw [select_eq_reach]
  exact List.flatMap_singleton _ _

theorem select_eachElement (segments : List Segment) (document : Json) :
    select ⟨.eachElement, segments⟩ document =
      (Stage.elements document).flatMap (reach segments) := by
  rw [select_eq_reach, Selection.nodes_start_eachElement]

/-- The steps of a path from the document. A path from each element takes the items of an array
first. -/
def route : Path → Json → List Segment
  | ⟨.eachElement, segments⟩, .array _ => .wildcard :: segments
  | ⟨_, segments⟩, _ => segments

theorem select_eq_reach_route (path : Path) (document : Json) :
    path.select document = reach (path.route document) document := by
  obtain ⟨anchor, segments⟩ := path
  cases anchor with
  | document => exact select_document segments document
  | eachElement =>
    rw [select_eachElement]
    cases document with
    | array items => rfl
    | _ => exact List.flatMap_singleton _ _

/-- A path selects what its segments reach from the document, or from one element of it after the
other, in the same order and as often. A path that goes on selects from each node in turn what the
further segments select. -/
theorem select_depthFirst (anchor : Anchor) (segments more : List Segment) (document : Json) :
    select ⟨.document, segments⟩ document = reach segments document ∧
    select ⟨.eachElement, segments⟩ document =
      (Stage.elements document).flatMap (reach segments) ∧
    select ⟨anchor, segments ++ more⟩ document =
      (select ⟨anchor, segments⟩ document).flatMap (select ⟨.document, more⟩) := by
  refine ⟨select_document segments document, select_eachElement segments document, ?_⟩
  have hmore : select ⟨.document, more⟩ = reach more := funext (select_document more)
  have happend : reach (segments ++ more) = fun node => (reach segments node).flatMap (reach more) :=
    funext (reach_append segments more)
  rw [select_eq_reach, select_eq_reach, hmore, List.flatMap_assoc, happend]

end Path
end DocQuery
