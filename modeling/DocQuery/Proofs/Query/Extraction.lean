import DocQuery.Proofs.Query.Reordering
import DocQuery.Proofs.Selection.Value
import DocQuery.Proofs.Sorting.Nested

/- Collections inside an object. Main statement: sorting one where it is and then taking it out gives
the same as taking it out and then sorting it, whatever a chain of keys leads to. -/

namespace DocQuery

def Path.ofKeys (chain : List String) : Path := ⟨.document, chain.map .key⟩

/-- The path from a collection, to which a chain of keys leads, to a key in each of its members. -/
def Path.intoMembers (chain : List String) (key : List Segment) : Path :=
  ⟨.document, chain.map .key ++ .wildcard :: key⟩

theorem Selection.many_foldl_advance (chain : List String) (selection : Selection) :
    ((chain.map Segment.key).foldl advance selection).many = selection.many := by
  have hkeys : (chain.map Segment.key).any Segment.fansOut = false := by simp [Segment.fansOut]
  rw [many_foldl_advance_eq, hkeys, Bool.false_and, Bool.or_false]

theorem Path.selectValue?_ofKeys (chain : List String) (document : Json) :
    (ofKeys chain).selectValue? document = (reach (chain.map .key) document).head? := by
  have hnodes : (Selection.walk .document (chain.map .key) document).nodes =
      reach (chain.map .key) document := select_document _ document
  have hmany : (Selection.walk .document (chain.map .key) document).many = false :=
    Selection.many_foldl_advance chain _
  rw [selectValue?, ofKeys, Selection.value?, hmany, hnodes]
  rfl

section Sorted

variable (direction : Direction) (key : List Segment)

theorem reach_sortAt (chain : List String) (node : Json) :
    reach (chain.map .key) (sortAt direction key (chain.map .key) node) =
      (reach (chain.map .key) node).map (sortAt direction key []) := by
  induction chain generalizing node with
  | nil => rfl
  | cons name chain ih =>
    have hstep := get?_sortAt direction key name (chain.map .key) node
    rw [List.map_cons, reach_cons, reach_cons, Segment.step, Segment.step, hstep]
    cases node.get? name with
    | none => rfl
    | some child =>
      rw [Option.map_some, Option.toList_some, Option.toList_some, List.flatMap_singleton,
        List.flatMap_singleton]
      exact ih child

theorem sortMembers_nil : sortMembers direction key [] = [] := by
  rw [sortMembers_eq, List.mergeSort_nil]

theorem sortMembers_singleton (member : Json) : sortMembers direction key [member] = [member] := by
  rw [sortMembers_eq, List.mergeSort_singleton]

/-- Where a chain leads to no array, there is one member at most, and a sort changes nothing. -/
theorem Path.members_sortAt (chain : List String) (document : Json) :
    (ofKeys chain).members (sortAt direction key (chain.map .key) document) =
      sortMembers direction key ((ofKeys chain).members document) := by
  rw [members, members, selectValue?_ofKeys, selectValue?_ofKeys, reach_sortAt, List.head?_map]
  cases (reach (chain.map .key) document).head? with
  | none => exact (sortMembers_nil direction key).symm
  | some value =>
    cases value with
    | array items => rfl
    | _ => exact (sortMembers_singleton direction key _).symm

theorem Path.sortParts_intoMembers (chain : List String) :
    (intoMembers chain key).sortParts = (chain.map .key, key) :=
  sortParts_append (wildcard_not_mem_keys chain) key

theorem Path.sort_intoMembers (name : String) (chain : List String) (fields : Fields) :
    (intoMembers (name :: chain) key).sort direction (.object fields) =
      sortAt direction key ((name :: chain).map .key) (.object fields) := by
  unfold sort
  rw [sortParts_intoMembers]
  rfl

end Sorted

theorem Stage.apply_filter_all (options : Options) (path : Path) (document : Json) :
    (filter path none none).apply options document = .array (path.members document) := rfl

/-- To sort the collection to which a chain leads in an object and then take it out gives the same
array as to take it out and then sort it. The chain may lead to no array, or nowhere. -/
theorem sameArray_sort_inside {sortText filterText name : String} {chain : List String}
    {key : List Segment}
    (hsort : Path.parse sortText = .ok (Path.intoMembers (name :: chain) key))
    (hfilter : Path.parse filterText = .ok (Path.ofKeys (name :: chain)))
    (options : Options) (direction : Direction) (fields : Fields) :
    SameArray options (.object fields)
      [.sort sortText direction, .filter filterText none none]
      [.filter filterText none none, .sort sortText direction] := by
  have hinside : (Stage.filter (Path.ofKeys (name :: chain)) none none).apply options
      ((Stage.sort (Path.intoMembers (name :: chain) key) direction).apply options
        (.object fields)) =
        .array (sortMembers direction key
          ((Path.ofKeys (name :: chain)).members (.object fields))) := by
    rw [Stage.apply_filter_all, Stage.apply, Path.sort_intoMembers, Path.members_sortAt]
  have houtside : (Stage.sort (Path.intoMembers (name :: chain) key) direction).apply options
      ((Stage.filter (Path.ofKeys (name :: chain)) none none).apply options (.object fields)) =
        .array (sortMembers direction key
          ((Path.ofKeys (name :: chain)).members (.object fields))) := by
    rw [Stage.apply_filter_all, Stage.apply_sort_array, Path.sortParts_intoMembers]
  exact sameArray_of_apply (Operation.compile_sort hsort options direction)
    (Operation.compile_filter hfilter options none none) hinside houtside

/-- Two members tie, and one has no key. The second chain passes through an array, and the third
leads to a string. -/
theorem sameArray_sort_inside_notes :
    Path.parse "a.note[*].k" = .ok (.intoMembers ["a", "note"] [.key "k"]) ∧
    Path.parse "a.note[*]" = .ok (.intoMembers ["a", "note"] []) ∧
    Path.parse "a.note" = .ok (.ofKeys ["a", "note"]) ∧
    SameArray .default
      (.object [("a", .object [("note", .array [.object [("n", .string "x")],
        .object [("k", .bool true), ("n", .string "y")], .object [("k", .bool false)],
        .object [("k", .bool true)]])])])
      [.sort "a.note[*].k" .descending, .filter "a.note" none none]
      [.filter "a.note" none none, .sort "a.note[*].k" .descending] ∧
    SameArray .default
      (.object [("a", .array [.object [("note", .array [.bool true, .bool false])]])])
      [.sort "a.note[*]" .ascending, .filter "a.note" none none]
      [.filter "a.note" none none, .sort "a.note[*]" .ascending] ∧
    SameArray .default (.object [("a", .object [("note", .string "x")])])
      [.sort "a.note[*]" .ascending, .filter "a.note" none none]
      [.filter "a.note" none none, .sort "a.note[*]" .ascending] := by
  have hkey : Path.parse "a.note[*].k" = .ok (.intoMembers ["a", "note"] [.key "k"]) := rfl
  have hwhole : Path.parse "a.note[*]" = .ok (.intoMembers ["a", "note"] []) := rfl
  have hfilter : Path.parse "a.note" = .ok (.ofKeys ["a", "note"]) := rfl
  exact ⟨hkey, hwhole, hfilter, sameArray_sort_inside hkey hfilter .default .descending _,
    sameArray_sort_inside hwhole hfilter .default .ascending _,
    sameArray_sort_inside hwhole hfilter .default .ascending _⟩

end DocQuery
