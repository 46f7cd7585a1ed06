import DocQuery.Proofs.Json.Fields
import DocQuery.Proofs.Sorting.Stable

/- Sorting a collection inside an object. Main statement: where a chain of keys leads to an array,
it leads to the sorted array after the sort. -/

namespace DocQuery

/-- A chain of keys leads through objects from one node to another. -/
inductive Json.Leads : List String → Json → Json → Prop
  | here {node : Json} : Leads [] node node
  | key {name : String} {chain : List String} {fields : Fields} {child node : Json} :
      fields.get? name = some child → Leads chain child node →
      Leads (name :: chain) (.object fields) node

/-- The second document is the first with one node in place of another, where a chain of keys leads.
All other fields are the same, and the keys of every object are in the same order. -/
inductive Json.Replaced (old new : Json) : List String → Json → Json → Prop
  | here : Replaced old new [] old new
  | key {name : String} {chain : List String} {front rest : Fields} {child child' : Json} :
      name ∉ front.keys → Replaced old new chain child child' →
      Replaced old new (name :: chain) (.object (front ++ (name, child) :: rest))
        (.object (front ++ (name, child') :: rest))

/-- A path sorts what a chain of keys leads to. In an array it sorts the array itself, and in an
object what the keys before its first wildcard lead to. -/
inductive Path.SortsAt : Path → List String → Prop
  | itself {path : Path} : SortsAt path []
  | inside {chain : List String} {key : List Segment} :
      SortsAt ⟨.document, chain.map .key ++ .wildcard :: key⟩ chain

theorem Fields.get?_modify (fields : Fields) (name : String) (f : Json → Json) :
    (fields.modify name f).get? name = (fields.get? name).map f := by
  induction fields with
  | nil => rfl
  | cons field rest ih =>
    obtain ⟨key, value⟩ := field
    by_cases hkey : key = name
    · subst hkey
      rw [modify, if_pos rfl, get?_cons_self, get?_cons_self, Option.map_some]
    · rw [modify, if_neg hkey, get?_cons_of_ne hkey, get?_cons_of_ne hkey]
      exact ih

theorem get?_sortAt (direction : Direction) (key : List Segment) (name : String)
    (chain : List Segment) (node : Json) :
    (sortAt direction key (.key name :: chain) node).get? name =
      (node.get? name).map (sortAt direction key chain) := by
  cases node with
  | object fields => exact Fields.get?_modify fields name _
  | _ => rfl

theorem Json.Replaced.leads {old new node node' : Json} {chain : List String}
    (h : Replaced old new chain node node') : node'.Leads chain new := by
  induction h with
  | here => exact .here
  | @key name _ front rest _ child' hfront _ ih =>
    exact .key (Fields.get?_eq_some_iff.mpr ⟨front, rest, rfl, hfront⟩) ih

theorem Json.Leads.replaced {chain : List String} {node : Json} {members : List Json}
    (h : node.Leads chain (.array members)) (direction : Direction) (key : List Segment) :
    Replaced (.array members) (.array (sortMembers direction key members)) chain node
      (DocQuery.sortAt direction key (chain.map .key) node) := by
  induction chain generalizing node with
  | nil =>
    cases h
    exact .here
  | cons name chain ih =>
    cases h with
    | key hget hchild =>
      obtain ⟨front, rest, rfl, hfront⟩ := Fields.get?_eq_some_iff.mp hget
      rw [List.map_cons, DocQuery.sortAt, Fields.modify_append hfront]
      exact .key hfront (ih hchild)

theorem Path.sortParts_append {front : List Segment} (h : .wildcard ∉ front)
    (key : List Segment) : sortParts ⟨.document, front ++ .wildcard :: key⟩ = (front, key) := by
  have hfront : front.findIdx? Segment.isWildcard = none := by
    refine List.findIdx?_eq_none_iff.mpr ?_
    intro segment hsegment
    refine Bool.eq_false_iff.mpr ?_
    intro hwildcard
    exact h (Segment.isWildcard_iff.mp hwildcard ▸ hsegment)
  have hfirst : firstWildcard? ⟨.document, front ++ .wildcard :: key⟩ = some front.length := by
    rw [firstWildcard?, List.findIdx?_append, hfront, List.findIdx?_cons, Segment.isWildcard,
      if_pos rfl, Option.none_or, Option.map_some, Nat.zero_add]
  rw [sortParts, hfirst]
  show (List.take _ _, List.drop _ _) = _
  rw [List.take_left, List.drop_length_add_append]
  rfl

/-- There is a collection to sort: an array is one itself, and an object has one where a path from
the document has steps before its first wildcard. -/
inductive Path.HasCollection : Path → Json → Prop
  | array {path : Path} {items : List Json} : HasCollection path (.array items)
  | object {front key : List Segment} {fields : Fields} : front ≠ [] → .wildcard ∉ front →
      HasCollection ⟨.document, front ++ .wildcard :: key⟩ (.object fields)

theorem wildcard_not_mem_keys (chain : List String) : .wildcard ∉ chain.map Segment.key := by
  intro hmem
  obtain ⟨name, _, hname⟩ := List.mem_map.mp hmem
  contradiction

theorem Path.SortsAt.leads_sort {path : Path} {chain : List String} (h : path.SortsAt chain)
    {document : Json} {members : List Json} (hdocument : document.Leads chain (.array members))
    (direction : Direction) :
    (path.sort direction document).Leads chain
      (.array (sortMembers direction path.sortParts.2 members)) := by
  cases h with
  | itself =>
    cases hdocument
    exact .here
  | @inside chain key =>
    have hparts := sortParts_append (wildcard_not_mem_keys chain) key
    cases chain with
    | nil =>
      cases hdocument
      exact .here
    | cons name chain =>
      have hsorted := (hdocument.replaced direction key).leads
      cases hdocument with
      | key hget hchild =>
        unfold sort
        rw [hparts]
        exact hsorted

end DocQuery
