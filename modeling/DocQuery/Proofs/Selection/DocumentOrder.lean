import DocQuery.Proofs.Selection.Locations
import Mathlib.Data.List.Sort

/- The order in which a path selects nodes. Main statement: it is the order of the document, each
node once, exactly where every key list names the keys of each object in the order of that object. -/

namespace DocQuery

/-- The order of locations in a document: a node comes before what is inside it, and what is at one
place of a node before what is at a later one. -/
inductive Json.Precedes : Json → Location → Location → Prop
  | above {node : Json} {place : Place} {location : Location} :
      Precedes node [] (place :: location)
  | beside {node : Json} {p q : Place} {a b : Location} :
      [p, q].Sublist node.places → Precedes node (p :: a) (q :: b)
  | inside {node child : Json} {place : Place} {a b : Location} :
      node.child? place = some child → Precedes child a b →
      Precedes node (place :: a) (place :: b)

theorem sublist_iff_pairwise {α : Type} {l m : List α} (hm : m.Nodup) (hsub : l ⊆ m) :
    l.Sublist m ↔ l.Pairwise fun a b => [a, b].Sublist m := by
  refine ⟨fun h => (List.pairwise_iff_forall_sublist.mpr id).sublist h, ?_⟩
  intro hpair
  induction m generalizing l with
  | nil => rw [List.eq_nil_of_subset_nil hsub]
  | cons c m ih =>
    obtain ⟨hc, hdistinct⟩ := List.nodup_cons.mp hm
    have htail {a b : α} (ha : a ≠ c) (hab : [a, b].Sublist (c :: m)) : [a, b].Sublist m := by
      cases hab with
      | cons _ hab => exact hab
      | cons_cons => contradiction
    cases l with
    | nil => exact List.nil_sublist _
    | cons a l =>
      obtain ⟨hfirst, hrest⟩ := List.pairwise_cons.mp hpair
      by_cases ha : a = c
      · subst ha
        have hmem : l ⊆ m := by
          intro b hb
          exact List.singleton_sublist.mp (List.cons_sublist_cons.mp (hfirst b hb))
        have hne : ∀ b ∈ l, b ≠ a := fun b hb hba => hc (hba ▸ hmem hb)
        exact (ih hdistinct hmem (hrest.imp_of_mem fun hb _ => htail (hne _ hb))).cons_cons a
      · have hne : ∀ b ∈ a :: l, b ≠ c := by
          intro b hb hbc
          subst hbc
          rcases List.mem_cons.mp hb with hb | hb
          · exact ha hb.symm
          · exact hc ((htail ha (hfirst b hb)).subset (by simp))
        have hmem : a :: l ⊆ m := by
          intro b hb
          exact (List.mem_cons.mp (hsub hb)).resolve_left (hne b hb)
        exact (ih hdistinct hmem (hpair.imp_of_mem fun hb _ => htail (hne _ hb))).cons c

namespace Json

theorem WellFormed.nodup_places {node : Json} (h : node.WellFormed) : node.places.Nodup := by
  cases node with
  | array items => exact List.nodup_range.map fun i j hij => Place.index.inj hij
  | object fields => exact List.Nodup.map (fun a b hab => Place.key.inj hab) h.distinct
  | _ => exact List.nodup_nil

theorem precedes_cons_cons_iff {node : Json} {p q : Place} {a b : Location} :
    node.Precedes (p :: a) (q :: b) ↔
      [p, q].Sublist node.places ∨ p = q ∧ ∃ child ∈ node.child? p, child.Precedes a b := by
  constructor
  · rintro (_ | hsub | ⟨hchild, hrest⟩)
    · exact .inl hsub
    · exact .inr ⟨rfl, _, hchild, hrest⟩
  · rintro (hsub | ⟨rfl, child, hchild, hrest⟩)
    · exact .beside hsub
    · exact .inside hchild hrest

instance decidablePrecedes : ∀ (node : Json) (a b : Location), Decidable (node.Precedes a b)
  | _, [], [] => isFalse (by rintro ⟨⟩)
  | _, [], _ :: _ => isTrue .above
  | _, _ :: _, [] => isFalse (by rintro ⟨⟩)
  | node, p :: a, q :: b =>
    have : DecidablePred fun child : Json => child.Precedes a b :=
      fun child => decidablePrecedes child a b
    decidable_of_iff _ precedes_cons_cons_iff.symm

theorem WellFormed.precedes_cons_iff {node child : Json} (h : node.WellFormed) {place : Place}
    (hchild : node.child? place = some child) {a b : Location} :
    node.Precedes (place :: a) (place :: b) ↔ child.Precedes a b := by
  simp [precedes_cons_cons_iff, hchild, List.nodup_iff_sublist.mp h.nodup_places place]

theorem WellFormed.not_precedes_self {node : Json} (h : node.WellFormed) (location : Location) :
    ¬ node.Precedes location location := by
  induction location generalizing node with
  | nil => rintro ⟨⟩
  | cons place rest ih =>
    rw [precedes_cons_cons_iff]
    rintro (hsub | ⟨-, child, hchild, hself⟩)
    · exact List.nodup_iff_sublist.mp h.nodup_places place hsub
    · exact ih (h.child hchild) hself

/-- Below a location the order is that of the node there. -/
theorem WellFormed.precedes_append_iff {node child : Json} (h : node.WellFormed)
    {location : Location} (hchild : node.at? location = some child) {a b : Location} :
    node.Precedes (location ++ a) (location ++ b) ↔ child.Precedes a b := by
  induction location generalizing node with
  | nil => rw [Option.some.inj hchild]; rfl
  | cons place rest ih =>
    obtain ⟨middle, hmiddle, hrest⟩ := Option.bind_eq_some_iff.mp hchild
    rw [List.cons_append, List.cons_append, h.precedes_cons_iff hmiddle]
    exact ih (h.child hmiddle) hrest

section Apart

variable {f : Json → List Location} {node child : Json}

theorem exists_append_of_mem_under {location target : Location}
    (h : target ∈ node.under f location) : ∃ rest, target = location ++ rest := by
  rw [under] at h
  cases hchild : node.at? location with
  | none => simp [hchild] at h
  | some child =>
    rw [hchild] at h
    obtain ⟨rest, -, rfl⟩ := List.mem_map.mp h
    exact ⟨rest, rfl⟩

theorem under_append {location : Location} (hchild : node.at? location = some child)
    (rest : Location) :
    node.under f (location ++ rest) = (child.under f rest).map (location ++ ·) := by
  rw [under, under, at?_append, hchild, Option.bind_some]
  cases child.at? rest <;> simp

theorem WellFormed.pairwise_under_iff (h : node.WellFormed) {location : Location}
    (hchild : node.at? location = some child) :
    (node.under f location).Pairwise node.Precedes ↔ (f child).Pairwise child.Precedes := by
  rw [under, hchild, Option.elim_some, List.pairwise_map]
  simp only [h.precedes_append_iff hchild]

/-- All that a function gives at the first location comes before all that it gives at the second. -/
def Apart (f : Json → List Location) (node : Json) (a b : Location) : Prop :=
  ∀ x ∈ node.under f a, ∀ y ∈ node.under f b, node.Precedes x y

theorem apart_of_sublist {p q : Place} (h : [p, q].Sublist node.places) (a b : Location) :
    node.Apart f (p :: a) (q :: b) := by
  intro x hx y hy
  obtain ⟨x, rfl⟩ := exists_append_of_mem_under hx
  obtain ⟨y, rfl⟩ := exists_append_of_mem_under hy
  exact .beside h

theorem pairwise_apart_of_sublist {places : List Place} (h : places.Sublist node.places) :
    (places.map fun place => [place]).Pairwise (node.Apart f) := by
  rw [List.pairwise_map, List.pairwise_iff_forall_sublist]
  intro p q hpq
  exact apart_of_sublist (hpq.trans h) [] []

theorem WellFormed.apart_append_iff (h : node.WellFormed) {location : Location}
    (hchild : node.at? location = some child) {a b : Location} :
    node.Apart f (location ++ a) (location ++ b) ↔ child.Apart f a b := by
  simp only [Apart, under_append hchild, List.forall_mem_map, h.precedes_append_iff hchild]

end Apart

end Json

/-- The names of a list under which the further segments reach something in an object. -/
def Fields.leading (fields : Fields) (names : List String) (rest : List Segment) : List String :=
  names.filter fun name => !(reach (.key name :: rest) (.object fields)).isEmpty

/-- In each object to which a key list is applied, the names that lead on are in the order of the
keys, each once. -/
def Json.NamesInOrder (names : List String) (rest : List Segment) (node : Json) : Prop :=
  ∀ fields, .object fields ∈ Stage.elements node →
    (Fields.leading fields names rest).Sublist (Fields.keys fields)

/-- All key lists among the segments are in the order of the objects that they meet. -/
def ListsInOrder (segments : List Segment) (document : Json) : Prop :=
  ∀ front names rest, segments = front ++ .keys names :: rest →
    ∀ node ∈ reach front document, node.NamesInOrder names rest

theorem listsInOrder_nil (node : Json) : ListsInOrder [] node := by
  intro front names rest h
  simp at h

theorem listsInOrder_cons_iff {segment : Segment} {rest : List Segment} {node : Json} :
    ListsInOrder (segment :: rest) node ↔
      (∀ names, segment = .keys names → node.NamesInOrder names rest) ∧
      ∀ child ∈ segment.step node, ListsInOrder rest child := by
  constructor
  · intro h
    constructor
    · rintro names rfl
      exact h [] names rest rfl node (List.mem_singleton_self node)
    · rintro child hchild front names tail rfl middle hmiddle
      exact h (segment :: front) names tail rfl middle
        (List.mem_flatMap.mpr ⟨child, hchild, hmiddle⟩)
  · rintro ⟨hfirst, hrest⟩ front names tail heq middle hmiddle
    cases front with
    | nil =>
      obtain ⟨rfl, rfl⟩ := List.cons.inj heq
      rw [List.mem_singleton.mp hmiddle]
      exact hfirst names rfl
    | cons _ front =>
      obtain ⟨rfl, rfl⟩ := List.cons.inj heq
      obtain ⟨child, hchild, hmiddle⟩ := List.mem_flatMap.mp hmiddle
      exact hrest child hchild front names tail rfl middle hmiddle

section Locations

variable {rest : List Segment} {node : Json}

theorem isEmpty_locations (segments : List Segment) (h : node.WellFormed) :
    (locations segments node).isEmpty = (reach segments node).isEmpty := by
  simpa using congrArg List.isEmpty (map_at?_locations segments h)

theorem locations_key (name : String) :
    locations (.key name :: rest) node = node.under (locations rest) [.key name] :=
  List.flatMap_singleton _ _

theorem Json.key_sublist_places_iff {fields : Fields} {names : List String} :
    (names.map Place.key).Sublist (places (.object fields)) ↔ names.Sublist fields.keys := by
  refine ⟨?_, fun h => h.map Place.key⟩
  intro h
  obtain ⟨names', hnames, heq⟩ := List.sublist_map_iff.mp h
  have hinj : Function.Injective Place.key := fun _ _ => Place.key.inj
  rwa [List.map_injective_iff.mpr hinj heq]

theorem Json.WellFormed.apart_key_iff {fields : Fields} (h : (Json.object fields).WellFormed)
    {k l : String} :
    (Json.object fields).Apart (locations rest) [.key k] [.key l] ↔
      (locations (.key k :: rest) (.object fields) ≠ [] →
        locations (.key l :: rest) (.object fields) ≠ [] → [k, l].Sublist fields.keys) := by
  rw [Json.Apart, ← locations_key, ← locations_key]
  constructor
  · intro hapart hk hl
    obtain ⟨x, hx⟩ := List.exists_mem_of_ne_nil _ hk
    obtain ⟨y, hy⟩ := List.exists_mem_of_ne_nil _ hl
    by_cases hkl : k = l
    · -- A name that is listed twice would have a location come before itself.
      subst hkl
      exact absurd (hapart x hx x hx) (h.not_precedes_self x)
    · have hprec := hapart x hx y hy
      rw [locations_key] at hx hy
      obtain ⟨x, rfl⟩ := Json.exists_append_of_mem_under hx
      obtain ⟨y, rfl⟩ := Json.exists_append_of_mem_under hy
      cases hprec with
      | beside hsub => exact (@key_sublist_places_iff fields [k, l]).mp hsub
      | inside => contradiction
  · intro hsub x hx y hy
    have hplaces := (@key_sublist_places_iff fields [k, l]).mpr
      (hsub (List.ne_nil_of_mem hx) (List.ne_nil_of_mem hy))
    rw [locations_key] at hx hy
    exact apart_of_sublist hplaces [] [] x hx y hy

theorem Fields.leading_subset (fields : Fields) (names : List String) :
    fields.leading names rest ⊆ fields.keys := by
  intro name hname
  have hreach := (List.mem_filter.mp hname).2
  rw [reach_cons, Segment.step] at hreach
  refine Fields.isSome_get?_iff.mp (Option.isSome_iff_ne_none.mpr ?_)
  intro hnone
  have hget : (Json.object fields).get? name = none := hnone
  simp [hget] at hreach

/-- The names of a list keep apart in an object where they are in the order of its keys. -/
theorem Json.WellFormed.pairwise_apart_keys_iff {fields : Fields}
    (h : (Json.object fields).WellFormed) (names : List String) :
    (names.map fun name => [.key name]).Pairwise ((Json.object fields).Apart (locations rest)) ↔
      (fields.leading names rest).Sublist fields.keys := by
  rw [sublist_iff_pairwise h.distinct (fields.leading_subset names), Fields.leading,
    List.pairwise_filter, List.pairwise_map]
  simp only [h.apart_key_iff, ← isEmpty_locations _ h, Bool.not_eq_true', List.isEmpty_eq_false_iff]

theorem Json.WellFormed.pairwise_apart_names_iff (h : node.WellFormed) {location : Location}
    {element : Json} (hat : node.at? location = some element) (names : List String) :
    (names.map fun name => location ++ [.key name]).Pairwise (node.Apart (locations rest)) ↔
      ∀ fields, .object fields = element →
        (Fields.leading fields names rest).Sublist (Fields.keys fields) := by
  have happend : (names.map fun name => location ++ [Place.key name]).Pairwise
      (node.Apart (locations rest)) ↔
        (names.map fun name => [Place.key name]).Pairwise (element.Apart (locations rest)) := by
    simp only [List.pairwise_map, h.apart_append_iff hat]
  rw [happend]
  cases element with
  | object fields =>
    rw [(h.at hat).pairwise_apart_keys_iff]
    exact ⟨fun hsub _ heq => Json.object.inj heq ▸ hsub, fun hall => hall fields rfl⟩
  | _ =>
    refine iff_of_true ?_ fun fields heq => by contradiction
    rw [List.pairwise_map]
    refine List.pairwise_of_forall fun k l x hx => ?_
    simp [under, at?, child?] at hx

theorem Json.pairwise_apart_elements (f : Json → List Location) (names : List String) (node : Json) :
    node.elementLocations.Pairwise fun a b =>
      ∀ x ∈ names.map fun name => a ++ [.key name], ∀ y ∈ names.map fun name => b ++ [.key name],
        node.Apart f x y := by
  cases node with
  | array items =>
    have hplaces := List.pairwise_iff_forall_sublist.mpr
      (id : ∀ {a b}, [a, b].Sublist (places (.array items)) → _)
    rw [places, List.pairwise_map] at hplaces
    rw [elementLocations, List.pairwise_map]
    refine hplaces.imp ?_
    intro i j hij x hx y hy
    obtain ⟨k, -, rfl⟩ := List.mem_map.mp hx
    obtain ⟨l, -, rfl⟩ := List.mem_map.mp hy
    exact apart_of_sublist hij [.key k] [.key l]
  | _ => exact List.pairwise_singleton _ _

/-- The locations at which a segment looks are in the order of the document, but for the names of a
key list. -/
theorem Segment.pairwise_apart_locations_iff (segment : Segment) (h : node.WellFormed) :
    (segment.locations node).Pairwise (node.Apart (DocQuery.locations rest)) ↔
      ∀ names, segment = .keys names → node.NamesInOrder names rest := by
  cases segment with
  | key name => exact iff_of_true (List.pairwise_singleton _ _) fun names heq => by contradiction
  | wildcard =>
    exact iff_of_true (Json.pairwise_apart_of_sublist (List.Sublist.refl _))
      fun names heq => by contradiction
  | filter condition =>
    exact iff_of_true (Json.pairwise_apart_of_sublist List.filter_sublist)
      fun names heq => by contradiction
  | keys names =>
    have hnames : node.NamesInOrder names rest ↔ ∀ location ∈ node.elementLocations,
        (names.map fun name => location ++ [.key name]).Pairwise
          (node.Apart (DocQuery.locations rest)) := by
      constructor
      · intro hin location hlocation
        obtain ⟨element, hat⟩ := Json.exists_of_mem_elementLocations hlocation
        refine (h.pairwise_apart_names_iff hat names).mpr ?_
        rintro fields rfl
        exact hin fields (Json.mem_elements_iff.mpr ⟨location, hlocation, hat⟩)
      · intro hall fields hfields
        obtain ⟨location, hlocation, hat⟩ := Json.mem_elements_iff.mp hfields
        exact (h.pairwise_apart_names_iff hat names).mp (hall location hlocation) fields rfl
    rw [locations, List.pairwise_flatMap,
      and_iff_left (Json.pairwise_apart_elements (DocQuery.locations rest) names node), ← hnames]
    exact ⟨fun hin _ heq => Segment.keys.inj heq ▸ hin, fun hall => hall names rfl⟩

theorem pairwise_locations_iff (segments : List Segment) (h : node.WellFormed) :
    (locations segments node).Pairwise node.Precedes ↔ ListsInOrder segments node := by
  induction segments generalizing node with
  | nil => exact iff_of_true (List.pairwise_singleton _ _) (listsInOrder_nil node)
  | cons segment rest ih =>
    have hunder : (∀ location ∈ segment.locations node,
        (node.under (locations rest) location).Pairwise node.Precedes) ↔
          ∀ child ∈ segment.step node, ListsInOrder rest child := by
      constructor
      · intro hall child hchild
        obtain ⟨location, hlocation, hat⟩ := (Json.mem_step_iff h).mp hchild
        exact (ih (h.at hat)).mp ((h.pairwise_under_iff hat).mp (hall location hlocation))
      · intro hall location hlocation
        cases hat : node.at? location with
        | none => simp [Json.under, hat]
        | some child =>
          have hchild := (Json.mem_step_iff h).mpr ⟨location, hlocation, hat⟩
          exact (h.pairwise_under_iff hat).mpr ((ih (h.at hat)).mpr (hall child hchild))
    rw [locations, List.pairwise_flatMap, listsInOrder_cons_iff, hunder, and_comm]
    exact and_congr_left' (segment.pairwise_apart_locations_iff h)

end Locations

theorem Path.listsInOrder_of_no_keys {path : Path} (h : ∀ names, .keys names ∉ path.segments)
    (document : Json) : ListsInOrder (path.route document) document := by
  intro front names rest heq
  have hmem : .keys names ∈ path.route document := by simp [heq]
  obtain ⟨anchor, segments⟩ := path
  refine absurd ?_ (h names)
  cases anchor <;> cases document <;> simpa [route] using hmem

/-- A path selects the nodes at its locations. These are in the order of the document, each once,
exactly where its key lists name the keys of each object that they meet in the order of that object,
as far as the keys lead on; a path without key lists has nothing to heed. -/
theorem pairwise_precedes_iff (path : Path) {document : Json} (h : document.WellFormed) :
    (path.locations document).map document.at? = (path.select document).map some ∧
    ((path.locations document).Pairwise document.Precedes ↔
      ListsInOrder (path.route document) document) ∧
    ((∀ names, .keys names ∉ path.segments) →
      (path.locations document).Pairwise document.Precedes) := by
  have hiff := pairwise_locations_iff (path.route document) h
  exact ⟨path.map_at?_locations h, hiff,
    fun hkeys => hiff.mpr (Path.listsInOrder_of_no_keys hkeys document)⟩

def listedNotes : Json :=
  .object [("note", .array [.object [("id", .null), ("k", .bool true)],
    .object [("k", .bool false)]])]

/-- The second item has one of the listed keys only. -/
theorem pairwise_precedes_iff_items :
    listedNotes.WellFormed ∧
    (Path.mk .document [.key "note", .keys ["id", "k"]]).locations listedNotes =
      [[.key "note", .index 0, .key "id"], [.key "note", .index 0, .key "k"],
        [.key "note", .index 1, .key "k"]] ∧
    ListsInOrder [.key "note", .keys ["id", "k"]] listedNotes ∧
    (∀ names, .keys names ∉ (Path.mk .eachElement [.wildcard]).segments) ∧
    ((Path.mk .eachElement [.wildcard]).locations (.array [.array [.null], .null])).Pairwise
      (Json.array [.array [.null], .null]).Precedes := by
  have hwell : listedNotes.WellFormed := by
    simp [listedNotes, Fields.Distinct, Fields.keys]
  have hkeys : ∀ names, .keys names ∉ (Path.mk .eachElement [.wildcard]).segments := by simp
  have horder := (pairwise_precedes_iff (.mk .document [.key "note", .keys ["id", "k"]]) hwell).2.1
  exact ⟨hwell, by decide, horder.mp (by decide), hkeys,
    (pairwise_precedes_iff _ (by simp)).2.2 hkeys⟩

/-- A key list that names two keys the other way round. -/
theorem not_pairwise_precedes :
    Path.parse "$['b','a']" = .ok ⟨.document, [.keys ["b", "a"]]⟩ ∧
    (Json.object [("a", .bool true), ("b", .bool false)]).WellFormed ∧
    ¬ ((Path.mk .document [.keys ["b", "a"]]).locations
      (.object [("a", .bool true), ("b", .bool false)])).Pairwise
        (Json.object [("a", .bool true), ("b", .bool false)]).Precedes :=
  ⟨rfl, by simp [Fields.Distinct, Fields.keys], by decide⟩

end DocQuery
