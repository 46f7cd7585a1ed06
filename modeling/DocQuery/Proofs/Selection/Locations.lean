import DocQuery.Proofs.Json.WellFormed
import DocQuery.Proofs.Selection.Reach
import Mathlib.Data.List.Basic

/- Where the nodes that a path selects are in the document. Main statement: at the locations of a
path there are the nodes that it selects, one by one. -/

namespace DocQuery

/-- A place inside a node: an item of an array, or the value of a key of an object. -/
inductive Place where
  | index (i : Nat)
  | key (name : String)
deriving DecidableEq

abbrev Location := List Place

namespace Json

/-- The places inside a node: those of an array by index, those of an object in the order of its
keys. -/
def places : Json → List Place
  | .array items => (List.range items.length).map .index
  | .object fields => (Fields.keys fields).map .key
  | _ => []

def child? : Json → Place → Option Json
  | .array items, .index i => items[i]?
  | .object fields, .key name => Fields.get? fields name
  | _, _ => none

def at? : Json → Location → Option Json
  | node, [] => some node
  | node, place :: rest => (node.child? place).bind fun child => child.at? rest

def elementLocations : Json → List Location
  | .array items => (List.range items.length).map fun i => [.index i]
  | _ => [[]]

end Json

def Segment.locations : Segment → Json → List Location
  | key name, _ => [[.key name]]
  | wildcard, node => node.places.map fun place => [place]
  | keys names, node =>
    node.elementLocations.flatMap fun location => names.map fun name => location ++ [.key name]
  | filter condition, node =>
    (node.places.filter fun place => (node.child? place).any condition.holds).map
      fun place => [place]

/-- The locations that a function gives inside the node at a location, as seen from above. -/
def Json.under (f : Json → List Location) (node : Json) (location : Location) : List Location :=
  (node.at? location).elim [] fun child => (f child).map (location ++ ·)

def locations : List Segment → Json → List Location
  | [], _ => [[]]
  | segment :: rest, node => (segment.locations node).flatMap (node.under (locations rest))

def Path.locations (path : Path) (document : Json) : List Location :=
  DocQuery.locations (path.route document) document

namespace Json

theorem child?_key (name : String) (node : Json) : node.child? (.key name) = node.get? name := by
  cases node <;> rfl

theorem at?_singleton (place : Place) (node : Json) : node.at? [place] = node.child? place :=
  Option.bind_fun_some _

theorem at?_append (front rest : Location) (node : Json) :
    node.at? (front ++ rest) = (node.at? front).bind fun child => child.at? rest := by
  induction front generalizing node with
  | nil => rfl
  | cons place front ih =>
    rw [List.cons_append, at?, at?, Option.bind_assoc]
    exact congrArg _ (funext ih)

theorem WellFormed.child {node child : Json} (h : node.WellFormed) {place : Place}
    (hchild : node.child? place = some child) : child.WellFormed := by
  cases node with
  | array items =>
    cases place with
    | index i => exact h.item (List.mem_of_getElem? hchild)
    | key name => contradiction
  | object fields =>
    cases place with
    | index i => contradiction
    | key name => exact (wellFormed_object_iff.mp h).2 _ (Fields.mem_of_get? hchild)
  | _ => contradiction

theorem WellFormed.at {node child : Json} (h : node.WellFormed) {location : Location}
    (hchild : node.at? location = some child) : child.WellFormed := by
  induction location generalizing node with
  | nil => exact Option.some.inj hchild ▸ h
  | cons place rest ih =>
    obtain ⟨middle, hmiddle, hrest⟩ := Option.bind_eq_some_iff.mp hchild
    exact ih (h.child hmiddle) hrest

end Json

theorem filterMap_getElem?_range {α : Type} (items : List α) :
    (List.range items.length).filterMap (fun i => items[i]?) = items := by
  induction items with
  | nil => rfl
  | cons item items ih =>
    rw [List.length_cons, List.range_succ_eq_map, List.filterMap_cons, List.filterMap_map]
    exact congrArg (item :: ·) ih

namespace Json

theorem WellFormed.filterMap_child?_places {node : Json} (h : node.WellFormed) :
    node.places.filterMap node.child? = node.children := by
  cases node with
  | array items => rw [places, List.filterMap_map]; exact filterMap_getElem?_range items
  | object fields => rw [places, List.filterMap_map]; exact h.distinct.filterMap_get?_keys
  | _ => rfl

theorem filterMap_at?_elementLocations (node : Json) :
    node.elementLocations.filterMap node.at? = Stage.elements node := by
  cases node with
  | array items =>
    rw [elementLocations, List.filterMap_map]
    exact (List.filterMap_congr fun i _ => at?_singleton (.index i) _).trans
      (filterMap_getElem?_range items)
  | _ => rfl

theorem mem_elements_iff {node element : Json} :
    element ∈ Stage.elements node ↔
      ∃ location ∈ node.elementLocations, node.at? location = some element := by
  rw [← filterMap_at?_elementLocations, List.mem_filterMap]

theorem exists_of_mem_elementLocations {node : Json} {location : Location}
    (h : location ∈ node.elementLocations) : ∃ element, node.at? location = some element := by
  cases node with
  | array items =>
    obtain ⟨i, hi, rfl⟩ := List.mem_map.mp h
    have hlt := List.mem_range.mp hi
    exact ⟨items[i], (at?_singleton _ _).trans (List.getElem?_eq_getElem hlt)⟩
  | _ => exact ⟨_, by rw [List.mem_singleton.mp h]; rfl⟩

theorem pick_eq (names : List String) (node : Json) :
    node.pick names = (Stage.elements node).flatMap fun element => names.filterMap element.get? := by
  cases node with
  | array items =>
    refine List.flatMap_congr ?_
    intro item _
    cases item with
    | object fields => rfl
    | _ => simp [get?]
  | object fields => exact (List.flatMap_singleton _ _).symm
  | _ => simp [pick, Stage.elements, get?]

end Json

theorem Segment.filterMap_at?_locations (segment : Segment) {node : Json} (h : node.WellFormed) :
    (segment.locations node).filterMap node.at? = segment.step node := by
  have hplaces : node.places.filterMap (fun place => node.at? [place]) = node.children := by
    rw [← h.filterMap_child?_places]
    exact List.filterMap_congr fun place _ => node.at?_singleton place
  cases segment with
  | key name =>
    rw [locations, step, List.filterMap_eq_flatMap_toList, List.flatMap_singleton,
      node.at?_singleton, node.child?_key]
  | wildcard => rw [locations, List.filterMap_map]; exact hplaces
  | keys names =>
    have hnames (location : Location) :
        (names.map fun name => location ++ [.key name]).filterMap node.at? =
          (node.at? location).toList.flatMap fun element => names.filterMap element.get? := by
      simp only [List.filterMap_map, Function.comp_def, Json.at?_append, Json.at?_singleton,
        Json.child?_key]
      cases node.at? location <;> simp
    rw [locations, step, Json.pick_eq, List.filterMap_flatMap,
      ← Json.filterMap_at?_elementLocations, List.filterMap_eq_flatMap_toList, List.flatMap_assoc]
    exact List.flatMap_congr fun location _ => hnames location
  | filter condition =>
    rw [locations, step, List.filterMap_map, ← h.filterMap_child?_places, List.filter_filterMap,
      List.filterMap_filter]
    refine List.filterMap_congr ?_
    intro place _
    rw [Function.comp, node.at?_singleton]
    cases node.child? place <;> simp [Option.filter]

theorem Json.mem_step_iff {segment : Segment} {node : Json} (h : node.WellFormed) {child : Json} :
    child ∈ segment.step node ↔
      ∃ location ∈ segment.locations node, node.at? location = some child := by
  rw [← segment.filterMap_at?_locations h, List.mem_filterMap]

/-- Location by location there are the nodes that the segments reach. -/
theorem map_at?_locations (segments : List Segment) {node : Json} (h : node.WellFormed) :
    (locations segments node).map node.at? = (reach segments node).map some := by
  induction segments generalizing node with
  | nil => rfl
  | cons segment rest ih =>
    have hunder (location : Location) : (node.under (locations rest) location).map node.at? =
        (node.at? location).toList.flatMap fun child => (reach rest child).map some := by
      rw [Json.under]
      cases hat : node.at? location with
      | none => rfl
      | some child =>
        simp only [Option.elim_some, List.map_map, Function.comp_def, Json.at?_append, hat,
          Option.bind_some, Option.toList_some, List.flatMap_singleton]
        exact ih (h.at hat)
    rw [locations, reach_cons, List.map_flatMap, List.map_flatMap,
      ← segment.filterMap_at?_locations h, List.filterMap_eq_flatMap_toList, List.flatMap_assoc]
    exact List.flatMap_congr fun location _ => hunder location

theorem Path.map_at?_locations (path : Path) {document : Json} (h : document.WellFormed) :
    (path.locations document).map document.at? = (path.select document).map some := by
  rw [select_eq_reach_route]
  exact DocQuery.map_at?_locations _ h

end DocQuery
