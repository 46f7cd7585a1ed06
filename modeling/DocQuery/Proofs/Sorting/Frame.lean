import DocQuery.Proofs.Sorting.Nested

/- What a sort changes in an object. Main statement: the array to which the keys before the first
wildcard lead is replaced by its sorted copy and nothing else changes; where they lead to no array,
nothing changes at all. -/

namespace DocQuery

/-- A path from the document, parted by its first wildcard, with nothing but keys before it, leads by
them through objects to an array inside an object. -/
structure Path.SortsInside (path : Path) (fields : Fields) (chain : List String)
    (key : List Segment) (members : List Json) : Prop where
  path_eq : path = ⟨.document, chain.map .key ++ .wildcard :: key⟩
  chain_ne_nil : chain ≠ []
  leads : (Json.object fields).Leads chain (.array members)

section Sorted

variable (direction : Direction) (key : List Segment)

theorem sortAt_eq_self {front : List Segment} {node : Json}
    (h : ∀ chain members, front = chain.map .key → ¬ node.Leads chain (.array members)) :
    sortAt direction key front node = node := by
  induction front generalizing node with
  | nil =>
    cases node with
    | array members => exact absurd .here (h [] members rfl)
    | _ => rfl
  | cons segment front ih =>
    cases segment with
    | key name =>
      cases node with
      | object fields =>
        rw [sortAt]
        cases hget : Fields.get? fields name with
        | none => rw [Fields.modify_of_not_mem (Fields.get?_eq_none_iff.mp hget)]
        | some child =>
          obtain ⟨before, after, rfl, hbefore⟩ := Fields.get?_eq_some_iff.mp hget
          rw [Fields.modify_append hbefore, ih]
          intro chain members hchain hleads
          exact h (name :: chain) members (congrArg _ hchain) (.key hget hleads)
      | _ => rfl
    | _ => rfl

theorem Path.sort_object (path : Path) (fields : Fields) :
    path.sort direction (.object fields) =
      sortAt direction path.sortParts.2 path.sortParts.1 (.object fields) := by
  unfold sort
  obtain ⟨front, key⟩ := path.sortParts
  cases front <;> rfl

end Sorted

/-- The same members in the order of their keys. Those whose keys tie are left in their order. -/
def SortedCopy (direction : Direction) (key : List Segment) (members sorted : List Json) : Prop :=
  ∃ placed : List (Json × Nat), placed.Perm members.zipIdx ∧
    StablySorted direction (Path.firstSelected? key) placed ∧ sorted = placed.map Prod.fst

theorem sortedCopy_sortMembers (direction : Direction) (key : List Segment)
    (members : List Json) :
    SortedCopy direction key members (sortMembers direction key members) := by
  rw [sortMembers_eq]
  exact exists_stablySorted direction (sortKey? key) members

theorem Json.Leads.ne_nil {fields : Fields} {chain : List String} {members : List Json}
    (h : (Json.object fields).Leads chain (.array members)) : chain ≠ [] := by
  rintro rfl
  cases h

/-- A sort replaces the array to which the keys before the first wildcard of its path lead by its
sorted copy and leaves all else as it is. Where the path starts at each element or has no wildcard,
where something other than a key comes before it, and where the keys do not lead to an array, the
object stays as it is. -/
theorem sort_object_frame (path : Path) (direction : Direction) (fields : Fields) :
    (∀ chain key members, path.SortsInside fields chain key members →
      SortedCopy direction key members (sortMembers direction key members) ∧
      Json.Replaced (.array members) (.array (sortMembers direction key members)) chain
        (.object fields) (path.sort direction (.object fields))) ∧
    ((∀ chain key members, ¬ path.SortsInside fields chain key members) →
      path.sort direction (.object fields) = .object fields) := by
  constructor
  · rintro chain key members ⟨rfl, -, hleads⟩
    rw [Path.sort_object, Path.sortParts_append (wildcard_not_mem_keys chain)]
    exact ⟨sortedCopy_sortMembers direction key members, hleads.replaced direction key⟩
  · intro hnone
    rw [Path.sort_object]
    refine sortAt_eq_self direction _ ?_
    intro chain members hchain hleads
    obtain ⟨hparts, -⟩ | ⟨front, key, rfl, -, hparts⟩ := path.sortParts_cases
    · rw [hparts] at hchain
      exact hleads.ne_nil (List.map_eq_nil_iff.mp hchain.symm)
    · rw [hparts] at hchain
      obtain rfl : front = chain.map .key := hchain
      exact hnone chain key members ⟨rfl, hleads.ne_nil, hleads⟩

def nestedNotes : Fields :=
  [("id", .null), ("a", .object [("x", .null), ("note", .array [.bool true, .bool false]),
    ("y", .null)]), ("z", .string "")]

def scalarNote : Fields := [("id", .null), ("z", .string "")]

/-- A collection two keys deep, with fields on either side of each key. The key of the second path
leads to a string. -/
theorem sort_object_frame_nested :
    (Path.mk .document [.key "a", .key "note", .wildcard]).SortsInside nestedNotes ["a", "note"] []
      [.bool true, .bool false] ∧
    SortedCopy .ascending [] [.bool true, .bool false]
      (sortMembers .ascending [] [.bool true, .bool false]) ∧
    Json.Replaced (.array [.bool true, .bool false])
      (.array (sortMembers .ascending [] [.bool true, .bool false])) ["a", "note"]
      (.object nestedNotes)
      ((Path.mk .document [.key "a", .key "note", .wildcard]).sort .ascending
        (.object nestedNotes)) ∧
    (∀ chain key members, ¬ (Path.mk .document [.key "z", .wildcard]).SortsInside
      scalarNote chain key members) ∧
    (Path.mk .document [.key "z", .wildcard]).sort .descending (.object scalarNote) =
      .object scalarNote := by
  have hinside : (Path.mk .document [.key "a", .key "note", .wildcard]).SortsInside nestedNotes
      ["a", "note"] [] [.bool true, .bool false] :=
    ⟨rfl, List.cons_ne_nil _ _, .key rfl (.key rfl .here)⟩
  have hnone : ∀ chain key members, ¬ (Path.mk .document [.key "z", .wildcard]).SortsInside
      scalarNote chain key members := by
    rintro chain key members ⟨hpath, -, hleads⟩
    cases hleads with
    | @key name _ _ _ _ hget hchild =>
      obtain rfl : "z" = name := by simpa using congrArg (fun p : Path => p.segments.head?) hpath
      obtain rfl : Json.string "" = _ := Option.some.inj hget
      cases hchild
  obtain ⟨hsorted, hreplaced⟩ := (sort_object_frame _ .ascending _).1 _ _ _ hinside
  exact ⟨hinside, hsorted, hreplaced, hnone, (sort_object_frame _ .descending _).2 hnone⟩

end DocQuery
