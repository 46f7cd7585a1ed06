import DocQuery.Pipeline
import DocQuery.Proofs.Sorting.Order
import DocQuery.Proofs.Sorting.Ties

/- Sorting an array. Main statement: a sort puts the members in the order of their keys, keeps
those whose keys are alike in the order that they had, and keeps every member. -/

namespace DocQuery

/-- Members in the order of their keys, each with the place that it had before. Where two keys may
stand either way round, their members keep their order. -/
structure StablySorted (direction : Direction) (key : Json → Option Json)
    (placed : List (Json × Nat)) : Prop where
  in_order : placed.Pairwise fun a b => KeyLE direction (key a.1) (key b.1)
  stable : placed.Pairwise fun a b => KeyLE direction (key b.1) (key a.1) → a.2 < b.2

namespace Path

/-- The segments that lead from a member to its key: those behind the first wildcard, and all of
them where there is none or where the path starts at each element. -/
inductive KeySegments : Path → List Segment → Prop
  | each {segments : List Segment} : KeySegments ⟨.eachElement, segments⟩ segments
  | whole {segments : List Segment} : .wildcard ∉ segments →
      KeySegments ⟨.document, segments⟩ segments
  | behind {front key : List Segment} : .wildcard ∉ front →
      KeySegments ⟨.document, front ++ .wildcard :: key⟩ key

def firstSelected? (key : List Segment) (member : Json) : Option Json :=
  (select ⟨.document, key⟩ member).head?

end Path

theorem Segment.isWildcard_iff {segment : Segment} :
    segment.isWildcard = true ↔ segment = .wildcard := by
  cases segment <;> simp [isWildcard]

theorem Path.sortParts_cases (path : Path) :
    (path.sortParts = ([], path.segments) ∧
      (path.anchor = .eachElement ∨ .wildcard ∉ path.segments)) ∨
    ∃ front key, path = ⟨.document, front ++ .wildcard :: key⟩ ∧ .wildcard ∉ front ∧
      path.sortParts = (front, key) := by
  obtain ⟨anchor, segments⟩ := path
  cases anchor with
  | eachElement => exact .inl ⟨rfl, .inl rfl⟩
  | document =>
    rw [sortParts, firstWildcard?]
    cases hfirst : segments.findIdx? Segment.isWildcard with
    | none =>
      refine .inl ⟨rfl, .inr ?_⟩
      intro hmem
      have hno := List.findIdx?_eq_none_iff.mp hfirst _ hmem
      contradiction
    | some i =>
      obtain ⟨hi, hwildcard, hbefore⟩ := List.findIdx?_eq_some_iff_getElem.mp hfirst
      refine .inr ⟨segments.take i, segments.drop (i + 1), ?_, ?_, rfl⟩
      · rw [← Segment.isWildcard_iff.mp hwildcard, List.getElem_cons_drop, List.take_append_drop]
      · intro hmem
        obtain ⟨j, hj, hwild⟩ := List.mem_take_iff_getElem.mp hmem
        have hji := Nat.lt_of_lt_of_le hj (Nat.min_le_left i segments.length)
        exact hbefore j hji (Segment.isWildcard_iff.mpr hwild)

theorem Path.keySegments_sortParts (path : Path) : path.KeySegments path.sortParts.2 := by
  obtain ⟨hparts, hpath⟩ | ⟨front, key, rfl, hfront, hparts⟩ := path.sortParts_cases
  · obtain ⟨anchor, segments⟩ := path
    rw [hparts]
    cases anchor with
    | eachElement => exact .each
    | document => exact .whole (hpath.resolve_left nofun)
  · rw [hparts]
    exact .behind hfront

def memberLE (direction : Direction) (key : Json → Option Json) (a b : Json) : Bool :=
  (compareKeys direction (key a) (key b)).isLE

variable {direction : Direction} {key : Json → Option Json}

theorem memberLE_iff {a b : Json} :
    memberLE direction key a b = true ↔ KeyLE direction (key a) (key b) := isLE_compareKeys_iff

theorem totalPreorder_memberLE (direction : Direction) (key : Json → Option Json) :
    TotalPreorder (memberLE direction key) := by
  constructor
  · intro a b c hab hbc
    exact Std.TransCmp.isLE_trans hab hbc
  · intro a b
    have hswap : compareKeys direction (key a) (key b) =
        (compareKeys direction (key b) (key a)).swap := Std.OrientedCmp.eq_swap
    rw [memberLE, memberLE, hswap]
    cases compareKeys direction (key b) (key a) <;> rfl

theorem sortMembers_eq (direction : Direction) (segments : List Segment) (members : List Json) :
    sortMembers direction segments members =
      members.mergeSort (memberLE direction (sortKey? segments)) := by
  have hmap : (members.mergeSort (memberLE direction (sortKey? segments))).map
      (fun member => (sortKey? segments member, member)) =
      (members.map fun member => (sortKey? segments member, member)).mergeSort
        fun a b => compareKeys direction a.1 b.1 != .gt := by
    apply List.map_mergeSort
    intro a _ b _
    rw [memberLE]
    cases compareKeys direction (sortKey? segments a) (sortKey? segments b) <;> rfl
  rw [sortMembers, ← hmap, List.map_map]
  exact List.map_id _

theorem exists_stablySorted (direction : Direction) (key : Json → Option Json)
    (members : List Json) :
    ∃ placed : List (Json × Nat), placed.Perm members.zipIdx ∧ StablySorted direction key placed ∧
      members.mergeSort (memberLE direction key) = placed.map Prod.fst := by
  obtain ⟨placed, hperm, hplaced, heq⟩ :=
    (totalPreorder_memberLE direction key).exists_placed members
  refine ⟨placed, hperm, ?_, heq⟩
  constructor
  · refine hplaced.imp ?_
    intro a b hab
    exact memberLE_iff.mp hab.1
  · refine hplaced.imp ?_
    intro a b hab hba
    exact hab.2 (memberLE_iff.mpr hba)

theorem Operation.run_sort {text : String} {path : Path} (h : Path.parse text = .ok path)
    (options : Options) (direction : Direction) (members : List Json) :
    (Operation.sort text direction).run options (.array members) =
      ⟨[], .ok (.array (sortMembers direction path.sortParts.2 members))⟩ := by
  rw [run, compile, h]
  rfl

/-- A sort of an array keeps its members and puts them in the order of their keys. -/
theorem run_sort_array {text : String} {path : Path} (h : Path.parse text = .ok path)
    (options : Options) (direction : Direction) (members : List Json) :
    ∃ (segments : List Segment) (placed : List (Json × Nat)),
      (Operation.sort text direction).run options (.array members) =
        ⟨[], .ok (.array (placed.map Prod.fst))⟩ ∧
      (placed.map Prod.fst).Perm members ∧ placed.Perm members.zipIdx ∧
      path.KeySegments segments ∧
      StablySorted direction (Path.firstSelected? segments) placed := by
  obtain ⟨placed, hperm, hsorted, heq⟩ :=
    exists_stablySorted direction (sortKey? path.sortParts.2) members
  refine ⟨path.sortParts.2, placed, ?_, ?_, hperm, path.keySegments_sortParts, hsorted⟩
  · rw [Operation.run_sort h, sortMembers_eq, heq]
  · have hmembers := hperm.map Prod.fst
    rwa [List.zipIdx_map_fst] at hmembers

def mixedKeys : List Json :=
  [.object [], .object [("k", .bool true)], .object [("k", .string "a")],
    .object [("n", .null), ("k", .bool true)]]

/-- Keys of two kinds, two that are alike, and a member without a key. -/
theorem run_sort_array_mixed :
    Path.parse "$[*].k" = .ok ⟨.eachElement, [.key "k"]⟩ ∧
    ∃ (segments : List Segment) (placed : List (Json × Nat)),
      (Operation.sort "$[*].k" .descending).run .default (.array mixedKeys) =
        ⟨[], .ok (.array (placed.map Prod.fst))⟩ ∧
      (placed.map Prod.fst).Perm mixedKeys ∧ placed.Perm mixedKeys.zipIdx ∧
      (Path.mk .eachElement [.key "k"]).KeySegments segments ∧
      StablySorted .descending (Path.firstSelected? segments) placed := by
  have hparse : Path.parse "$[*].k" = .ok ⟨.eachElement, [.key "k"]⟩ := rfl
  exact ⟨hparse, run_sort_array hparse .default .descending _⟩

end DocQuery
