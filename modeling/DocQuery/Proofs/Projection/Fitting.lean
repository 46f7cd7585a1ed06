import DocQuery.Proofs.Projection.Elements
import DocQuery.Proofs.Projection.Settled

/- What the path names and nothing else. Main statement: a projection of an object has the implicit
fields of the object, and over them at most one object that fits the path. -/

namespace DocQuery

def Segment.isKeyed : Segment → Bool
  | key _ => true
  | keys _ => true
  | _ => false

/-- A value with nothing in it but what the segments name. No object in their way is empty. -/
inductive Fits : List Segment → Json → Prop
  | whole (node : Json) : Fits [] node
  | key {name : String} {rest : List Segment} {value : Json} :
      Fits rest value → Fits (.key name :: rest) (.object [(name, value)])
  | keys {names : List String} {rest : List Segment} {fields : Fields} : fields ≠ [] →
      (∀ field ∈ fields, field.1 ∈ names) → (∀ field ∈ fields, Fits rest field.2) →
      Fits (.keys names :: rest) (.object fields)
  | through {segment : Segment} {rest : List Segment} {items : List Json} :
      segment.isKeyed = true → (∀ item ∈ items, Fits (segment :: rest) item) →
      Fits (segment :: rest) (.array items)
  | items {segment : Segment} {rest : List Segment} {items : List Json} :
      segment.isKeyed = false → (∀ item ∈ items, Fits rest item) →
      Fits (segment :: rest) (.array items)
  | fields {segment : Segment} {rest : List Segment} {fields : Fields} :
      segment.isKeyed = false → fields ≠ [] → (∀ field ∈ fields, Fits rest field.2) →
      Fits (segment :: rest) (.object fields)

theorem Json.Nest.fits {segment : Segment} {rest : List Segment} (hsegment : segment.isKeyed = true)
    {node : Json} (h : node.Nest fun fields => Fits (segment :: rest) (.object fields)) :
    Fits (segment :: rest) node := by
  induction h with
  | object h => exact h
  | array _ ih => exact .through hsegment ih

theorem fits_of_keepMembers {segment : Segment} {rest : List Segment}
    (hsegment : segment.isKeyed = false) {condition : Json → Bool} {f : Json → Option Json}
    {node kept : Json} (h : node.keepMembers condition f = some kept)
    (hf : ∀ source part, f source = some part → Fits rest part) : Fits (segment :: rest) kept := by
  have hchildren : ∀ child ∈ kept.children, Fits rest child := by
    intro child hchild
    obtain ⟨source, _, hkept⟩ := exists_of_mem_children h hchild
    exact hf source child hkept
  cases node with
  | array items =>
    obtain rfl := Option.some.inj h
    exact .items hsegment hchildren
  | object fields =>
    obtain ⟨hne, rfl⟩ := Fields.nonEmpty?_eq_some_iff.mp h
    exact .fields hsegment hne (List.forall_mem_map.mp hchildren)
  | _ => contradiction

theorem fits_of_rebuild {segments : List Segment} {node kept : Json}
    (h : rebuild segments node = some kept) : Fits segments kept := by
  induction segments generalizing node kept with
  | nil => exact .whole kept
  | cons segment rest ih =>
    cases segment with
    | key name =>
      refine Json.Nest.fits rfl (Json.nest_of_throughArrays ?_ h)
      intro fields node hnode
      obtain ⟨value, _, hvalue⟩ := Option.bind_eq_some_iff.mp hnode
      obtain ⟨part, hpart, hobject⟩ := Option.bind_eq_some_iff.mp hvalue
      obtain rfl := Option.some.inj hobject
      exact .object (.key (ih hpart))
    | keys names =>
      refine Json.Nest.fits rfl (Json.nest_of_throughArrays ?_ h)
      intro fields node hnode
      obtain ⟨hne, rfl⟩ := Fields.nonEmpty?_eq_some_iff.mp hnode
      refine .object (.keys hne ?_ ?_)
      · intro field hfield
        exact (Fields.exists_of_mem_keepNamed hfield).1
      · intro field hfield
        obtain ⟨_, value, _, hpart⟩ := Fields.exists_of_mem_keepNamed hfield
        exact ih hpart
    | wildcard => exact fits_of_keepMembers rfl h fun _ _ => ih
    | filter condition => exact fits_of_keepMembers rfl h fun _ _ => ih

namespace Projection

/-- An output with the implicit fields of an element, and over them the fields of an object that
fits the path. There is no such object if there is no path. -/
structure Overlaid (options : Options) (projection : Projection) (element output : Json)
    (upper : Option Fields) : Prop where
  isObject : output.isObject = true
  get?_eq : ∀ key, output.get? key = (upper.bind fun kept => kept.get? key).or
    (if key ∈ options.implicitFields then element.get? key else none)
  fits : ∀ kept, upper = some kept →
    ∃ path, projection = along path ∧ Fits path.segments (.object kept)

/-- Every object among the elements of a document is projected to its implicit fields and, over
them, at most one object that fits the path. -/
theorem overlaid_apply {document : Json} (h : document.WellFormed) (options : Options)
    (projection : Projection) :
    List.Forall₂ (fun element output =>
        element.isObject = true → ∃ upper, Overlaid options projection element output upper)
      (Stage.elements document) (Stage.elements (projection.apply options document)) := by
  apply forall₂_elements
  intro element helement hobject
  cases element with
  | object fields =>
    have hfields := wellFormed_of_mem_elements h helement
    refine ⟨projection.reached? (.object fields), rfl, ?_, ?_⟩
    · exact get?_element hfields.distinct options projection
    · intro kept hreached
      obtain ⟨path, hpath, hrebuild⟩ := exists_of_reached? hreached
      exact ⟨path, hpath, fits_of_rebuild hrebuild⟩
  | _ => contradiction

/-- An item with neither key is dropped, and so is a field that the path does not name. -/
theorem overlaid_apply_keys :
    ∃ upper, Overlaid .default (along ⟨.eachElement, [.key "g", .wildcard, .keys ["k", "n"]]⟩)
      (.object [("g", .array [.object [("x", .null), ("k", .null)], .object [("x", .null)]]),
        ("id", .string "7"), ("x", .null)])
      (.object [("id", .string "7"), ("g", .array [.object [("k", .null)]])]) upper := by
  have hdocument : Json.WellFormed (.array [.object [("g", .array [.object [("x", .null),
      ("k", .null)], .object [("x", .null)]]), ("id", .string "7"), ("x", .null)], .bool true]) := by
    simp [Fields.Distinct, Fields.keys]
  have hprojected := overlaid_apply hdocument .default
    (along ⟨.eachElement, [.key "g", .wildcard, .keys ["k", "n"]]⟩)
  exact (List.forall₂_cons.mp hprojected).1 rfl

end Projection
end DocQuery
