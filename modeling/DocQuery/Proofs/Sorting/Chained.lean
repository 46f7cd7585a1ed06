import DocQuery.Proofs.Query.Compiled
import DocQuery.Proofs.Sorting.Nested

/- Sorts in a row. Main statement: a sort by one key after a sort by another puts the members in
the order of both keys, that of the later sort first. -/

namespace DocQuery

/-- Members in the order of two keys, each with the place that it had before. The second key tells
where the first may stand either way round, and the place tells where both may. -/
structure LexSorted (direction₁ direction₂ : Direction) (key₁ key₂ : Json → Option Json)
    (placed : List (Json × Nat)) : Prop where
  first : placed.Pairwise fun a b => KeyLE direction₁ (key₁ a.1) (key₁ b.1)
  second : placed.Pairwise fun a b => KeyLE direction₁ (key₁ b.1) (key₁ a.1) →
    KeyLE direction₂ (key₂ a.1) (key₂ b.1)
  stable : placed.Pairwise fun a b => KeyLE direction₁ (key₁ b.1) (key₁ a.1) →
    KeyLE direction₂ (key₂ b.1) (key₂ a.1) → a.2 < b.2

theorem lexLE_memberLE_iff {direction₁ direction₂ : Direction} {key₁ key₂ : Json → Option Json}
    {a b : Json} :
    lexLE (memberLE direction₁ key₁) (memberLE direction₂ key₂) a b = true ↔
      KeyLE direction₁ (key₁ a) (key₁ b) ∧
        (KeyLE direction₁ (key₁ b) (key₁ a) → KeyLE direction₂ (key₂ a) (key₂ b)) := by
  rw [lexLE_iff, memberLE_iff, memberLE_iff, memberLE_iff]

theorem exists_lexSorted (direction₁ direction₂ : Direction) (key₁ key₂ : Json → Option Json)
    (members : List Json) :
    ∃ placed : List (Json × Nat), placed.Perm members.zipIdx ∧
      LexSorted direction₁ direction₂ key₁ key₂ placed ∧
      (members.mergeSort (memberLE direction₂ key₂)).mergeSort (memberLE direction₁ key₁) =
        placed.map Prod.fst := by
  have h₁ := totalPreorder_memberLE direction₁ key₁
  have h₂ := totalPreorder_memberLE direction₂ key₂
  obtain ⟨placed, hperm, hplaced, heq⟩ := (h₁.lex h₂).exists_placed members
  refine ⟨placed, hperm, ?_, (h₁.mergeSort_mergeSort h₂ members).trans heq⟩
  simp only [lexLE_memberLE_iff] at hplaced
  constructor
  · exact hplaced.imp fun hab => hab.1.1
  · exact hplaced.imp fun hab => hab.1.2
  · refine hplaced.imp ?_
    intro a b hab hba₁ hba₂
    exact hab.2 ⟨hba₁, fun _ => hba₂⟩

/-- The sort that comes last tells the order first. Both sort the same collection: an array
document, or an array inside an object, to which a chain of keys leads before and after. -/
theorem query_sort_sort {text₁ text₂ : String} {path₁ path₂ : Path}
    (h₁ : Path.parse text₁ = .ok path₁) (h₂ : Path.parse text₂ = .ok path₂)
    {chain : List String} (hpath₁ : path₁.SortsAt chain) (hpath₂ : path₂.SortsAt chain)
    {document : Json} {members : List Json} (hdocument : document.Leads chain (.array members))
    (options : Options) (direction₁ direction₂ : Direction) :
    ∃ (document' : Json) (key₁ key₂ : List Segment) (placed : List (Json × Nat)),
      (query options document [.sort text₂ direction₂, .sort text₁ direction₁]).result =
        .ok document' ∧
      document'.Leads chain (.array (placed.map Prod.fst)) ∧
      (placed.map Prod.fst).Perm members ∧ placed.Perm members.zipIdx ∧
      path₁.KeySegments key₁ ∧ path₂.KeySegments key₂ ∧
      LexSorted direction₁ direction₂ (Path.firstSelected? key₁) (Path.firstSelected? key₂)
        placed := by
  obtain ⟨placed, hperm, hsorted, heq⟩ := exists_lexSorted direction₁ direction₂
    (sortKey? path₁.sortParts.2) (sortKey? path₂.sortParts.2) members
  have hresult := result_query_pair (Operation.compile_sort h₂ options direction₂)
    (Operation.compile_sort h₁ options direction₁) document
  have hleads := hpath₁.leads_sort (hpath₂.leads_sort hdocument direction₂) direction₁
  rw [sortMembers_eq, sortMembers_eq, heq] at hleads
  refine ⟨_, path₁.sortParts.2, path₂.sortParts.2, placed, hresult, hleads, ?_, hperm,
    path₁.keySegments_sortParts, path₂.keySegments_sortParts, hsorted⟩
  have hmembers := hperm.map Prod.fst
  rwa [List.zipIdx_map_fst] at hmembers

def twoKeyed : List Json :=
  [.object [("n", .string "x")], .object [("k", .bool true), ("n", .string "x")],
    .object [("k", .bool true), ("n", .string "y")], .object [("k", .bool false)]]

/-- A collection two keys deep, with members that tie in the later sort and one without its key. -/
theorem query_sort_sort_nested :
    Path.parse "a.note[*].k" =
      .ok ⟨.document, [.key "a", .key "note", .wildcard, .key "k"]⟩ ∧
    Path.parse "a.note[*].n" =
      .ok ⟨.document, [.key "a", .key "note", .wildcard, .key "n"]⟩ ∧
    ∃ (document' : Json) (key₁ key₂ : List Segment) (placed : List (Json × Nat)),
      (query .default (.object [("a", .object [("note", .array twoKeyed)])])
          [.sort "a.note[*].n" .descending, .sort "a.note[*].k" .ascending]).result =
        .ok document' ∧
      document'.Leads ["a", "note"] (.array (placed.map Prod.fst)) ∧
      (placed.map Prod.fst).Perm twoKeyed ∧ placed.Perm twoKeyed.zipIdx ∧
      (Path.mk .document [.key "a", .key "note", .wildcard, .key "k"]).KeySegments key₁ ∧
      (Path.mk .document [.key "a", .key "note", .wildcard, .key "n"]).KeySegments key₂ ∧
      LexSorted .ascending .descending (Path.firstSelected? key₁) (Path.firstSelected? key₂)
        placed := by
  have h₁ : Path.parse "a.note[*].k" =
      .ok ⟨.document, [.key "a", .key "note", .wildcard, .key "k"]⟩ := rfl
  have h₂ : Path.parse "a.note[*].n" =
      .ok ⟨.document, [.key "a", .key "note", .wildcard, .key "n"]⟩ := rfl
  have hpath₁ : (Path.mk .document [.key "a", .key "note", .wildcard, .key "k"]).SortsAt
      ["a", "note"] := @Path.SortsAt.inside ["a", "note"] [.key "k"]
  have hpath₂ : (Path.mk .document [.key "a", .key "note", .wildcard, .key "n"]).SortsAt
      ["a", "note"] := @Path.SortsAt.inside ["a", "note"] [.key "n"]
  refine ⟨h₁, h₂, ?_⟩
  exact query_sort_sort h₁ h₂ hpath₁ hpath₂ (.key rfl (.key rfl .here)) .default .ascending
    .descending

end DocQuery
