import DocQuery.Proofs.Json.WellFormed
import DocQuery.Proofs.Projection.Rebuild
import DocQuery.Proofs.Selection.Reach

/- Projection against selection. Main statement: what a path selects from a document is what it
selects from its own projection, where filters need not look again. -/

namespace DocQuery

/-- The segment without its condition. -/
def Segment.widen : Segment → Segment
  | filter _ => wildcard
  | segment => segment

def Path.widen (path : Path) : Path := { path with segments := path.segments.map Segment.widen }

namespace Json

theorem flatMap_nonEmpty?_keepNamed {g : Json → List Json} {names : List String}
    (hg : ∀ fields, g (.object fields) = Fields.pick fields names) (f : Json → Option Json)
    (fields : Fields) :
    (fields.keepNamed f names).nonEmpty?.toList.flatMap g = (fields.pick names).filterMap f := by
  have hnone : g (.object []) = [] := (hg []).trans (List.filterMap_eq_nil_iff.mpr fun _ _ => rfl)
  rw [Fields.flatMap_nonEmpty? hnone, hg, Fields.keepNamed_eq_gather, Fields.pick,
    Fields.pick_gather, Fields.pick, List.filterMap_filterMap]

theorem flatMap_pick_throughArrays (f : Json → Option Json) (names : List String) (node : Json) :
    (node.throughArrays fun fields => (fields.keepNamed f names).nonEmpty?).toList.flatMap
        (pick names) =
      (node.pick names).filterMap f := by
  cases node with
  | object fields => exact flatMap_nonEmpty?_keepNamed (fun _ => rfl) f fields
  | array items =>
    rw [throughArrays, throughItems_eq, Option.toList_some, List.flatMap_singleton, pick, pick,
      List.filterMap_eq_flatMap_toList, List.flatMap_assoc, List.filterMap_flatMap]
    refine List.flatMap_congr ?_
    intro item _
    cases item with
    | object fields => exact flatMap_nonEmpty?_keepNamed (fun _ => rfl) f fields
    | array items => rfl
    | _ => rfl
  | _ => rfl

end Json

/-- A step from what was rebuilt leads to what is rebuilt of the nodes it leads to. -/
theorem flatMap_step_rebuild (segment : Segment) (rest : List Segment) (node : Json) :
    (rebuild (segment :: rest) node).toList.flatMap segment.widen.step =
      (segment.step node).filterMap (rebuild rest) := by
  cases segment with
  | key name =>
    cases node with
    | object fields =>
      rw [rebuild_key, rebuild, Json.throughArrays, Fields.keepNamed_singleton]
      show _ = (Fields.get? fields name).toList.filterMap (rebuild rest)
      cases Fields.get? fields name with
      | none => rfl
      | some value =>
        rw [Option.bind_some, Option.toList_some, List.filterMap_cons]
        cases rebuild rest value with
        | none => rfl
        | some kept =>
          show (Fields.get? [(name, kept)] name).toList ++ [] = [kept]
          rw [Fields.get?_cons_self]
          rfl
    | array items => rfl
    | _ => rfl
  | wildcard =>
    have h := Json.flatMap_children_keepMembers (fun _ => true) (rebuild rest) node
    rwa [List.filter_true] at h
  | keys names => exact Json.flatMap_pick_throughArrays _ names node
  | filter condition => exact Json.flatMap_children_keepMembers _ _ node

/-- Selection finds in what was rebuilt just what it finds in the node itself. -/
theorem flatMap_reach_rebuild (segments : List Segment) (node : Json) :
    (rebuild segments node).toList.flatMap (reach (segments.map Segment.widen)) =
      reach segments node := by
  induction segments generalizing node with
  | nil => rfl
  | cons segment rest ih =>
    calc (rebuild (segment :: rest) node).toList.flatMap
          (reach ((segment :: rest).map Segment.widen))
        = ((rebuild (segment :: rest) node).toList.flatMap segment.widen.step).flatMap
            (reach (rest.map Segment.widen)) := (List.flatMap_assoc ..).symm
      _ = ((segment.step node).filterMap (rebuild rest)).flatMap
            (reach (rest.map Segment.widen)) := by rw [flatMap_step_rebuild]
      _ = (segment.step node).flatMap (reach rest) := by
        rw [List.filterMap_eq_flatMap_toList, List.flatMap_assoc]
        exact List.flatMap_congr fun child _ => ih child

theorem reach_of_rebuild_eq_none {segments : List Segment} {node : Json}
    (h : rebuild segments node = none) : reach segments node = [] := by
  rw [← flatMap_reach_rebuild, h]
  rfl

theorem reach_of_rebuild_eq_some {segments : List Segment} {node kept : Json}
    (h : rebuild segments node = some kept) :
    reach (segments.map Segment.widen) kept = reach segments node := by
  rw [← flatMap_reach_rebuild segments node, h]
  exact (List.flatMap_singleton _ _).symm

theorem Segment.step_empty (segment : Segment) : segment.step (.object []) = [] := by
  cases segment with
  | keys names => exact List.filterMap_eq_nil_iff.mpr fun _ _ => rfl
  | _ => rfl

theorem Segment.step_null (segment : Segment) : segment.step .null = [] := by
  cases segment <;> rfl

namespace Projection

variable {options : Options} (hoptions : options.implicitFields = [])
include hoptions

theorem element_object {fields : Fields} (h : fields.Distinct) (path : Path) :
    (along path).element options (.object fields) =
      (rebuild path.segments (.object fields)).getD (.object []) := by
  have himplicit : implicitPart options fields = [] := by
    rw [implicitPart, hoptions]
    rfl
  rw [element, himplicit, reached?]
  cases hrebuild : rebuild path.segments (.object fields) with
  | none => rfl
  | some node =>
    obtain ⟨kept, rfl, hkept⟩ := rebuild_object h hrebuild
    exact congrArg Json.object (Fields.ofList_of_distinct hkept)

theorem reach_element {node : Json} (h : node.WellFormed) (path : Path) :
    reach (path.segments.map Segment.widen) ((along path).element options node) =
      reach path.segments node := by
  have hgetD {empty : Json} (hempty : ∀ segment : Segment, segment.step empty = []) :
      reach (path.segments.map Segment.widen) ((rebuild path.segments node).getD empty) =
        reach path.segments node := by
    cases hrebuild : rebuild path.segments node with
    | some kept => exact reach_of_rebuild_eq_some hrebuild
    | none =>
      rw [reach_of_rebuild_eq_none hrebuild, Option.getD_none]
      cases hsegments : path.segments with
      | nil =>
        rw [hsegments] at hrebuild
        contradiction
      | cons segment rest => rw [List.map_cons, reach_cons, hempty, List.flatMap_nil]
  cases node with
  | object fields =>
    rw [element_object hoptions h.distinct]
    exact hgetD Segment.step_empty
  | _ => exact hgetD Segment.step_null

end Projection

theorem Selection.start_of_ne_array {document : Json} (h : ∀ items, document ≠ .array items)
    (anchor : Anchor) : (start anchor document).nodes = [document] := by
  cases document with
  | array items => exact absurd rfl (h items)
  | _ => cases anchor <;> rfl

/-- A path selects from a document what it selects from its projection, with wildcards in the place
of filters. Where nothing is rebuilt, nothing is selected. -/
theorem Path.select_apply {options : Options} (hoptions : options.implicitFields = [])
    {document : Json} (h : document.WellFormed) (path : Path)
    (hpath : ¬ (path.anchor = .document ∧ ∃ items, document = .array items)) :
    path.widen.select ((Projection.along path).apply options document) = path.select document ∧
      ∀ segments node, rebuild segments node = none → select ⟨.document, segments⟩ node = [] := by
  constructor
  · obtain ⟨anchor, segments⟩ := path
    rw [select_eq_reach, select_eq_reach]
    have hsingle (hdocument : ∀ items, document ≠ .array items) :
        (Selection.start anchor ((Projection.along ⟨anchor, segments⟩).element options
          document)).nodes.flatMap (reach (segments.map Segment.widen)) =
        (Selection.start anchor document).nodes.flatMap (reach segments) := by
      rw [Selection.start_of_ne_array hdocument, Selection.start_of_ne_array
        (Projection.element_ne_array hdocument options _), List.flatMap_singleton,
        List.flatMap_singleton]
      exact Projection.reach_element hoptions h ⟨anchor, segments⟩
    cases document with
    | array items =>
      cases anchor with
      | document => exact absurd ⟨rfl, items, rfl⟩ hpath
      | eachElement =>
        refine (List.flatMap_map ..).trans (List.flatMap_congr ?_)
        intro item hitem
        exact Projection.reach_element hoptions (h.item hitem) ⟨.eachElement, segments⟩
    | _ => exact hsingle fun _ => Json.noConfusion
  · intro segments node hnone
    rw [select_document]
    exact reach_of_rebuild_eq_none hnone

/-- The filter drops the first member, and the last one lacks the key. -/
theorem Path.select_apply_of_filter :
    select ⟨.document, [.key "a", .wildcard, .key "c"]⟩
      ((Projection.along ⟨.document, [.key "a", .filter (.not (.truthy (.field "b"))),
          .key "c"]⟩).apply ⟨[], "none"⟩
        (.object [("a", .array [.object [("b", .bool true), ("c", .null)], .object [("c", .null)],
          .bool false])])) =
      [.null] := by
  have hdocument : Json.WellFormed (.object [("a", .array [.object [("b", .bool true),
      ("c", .null)], .object [("c", .null)], .bool false])]) := by
    refine .object (by decide) (List.forall_mem_singleton.mpr (.array ?_))
    simp only [List.forall_mem_cons]
    refine ⟨.object (by decide) ?_, .object (by decide) ?_, .bool false, by simp⟩
    · simp only [List.forall_mem_cons]
      exact ⟨.bool true, .null, by simp⟩
    · exact List.forall_mem_singleton.mpr .null
  exact (Path.select_apply rfl hdocument ⟨.document, [.key "a",
    .filter (.not (.truthy (.field "b"))), .key "c"]⟩ (by simp)).1.trans rfl

end DocQuery
