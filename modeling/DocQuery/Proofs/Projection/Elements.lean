import DocQuery.Proofs.Json.WellFormed
import DocQuery.Proofs.Projection.Rebuild
import DocQuery.Stage
import Mathlib.Data.List.Forall2

/- Projections element by element. An element that is an object is projected to its implicit fields
and, over them, what the path keeps of it. -/

namespace DocQuery

/-- The implicit fields of an object, and over them what is kept of it. -/
def layered (options : Options) (keep : Fields → Fields) (fields : Fields) : Fields :=
  (Projection.implicitPart options fields).overlay (keep fields)

theorem Projection.distinct_implicitPart (options : Options) (fields : Fields) :
    (implicitPart options fields).Distinct := Fields.distinct_ofList _

theorem Projection.get?_implicitPart (options : Options) (fields : Fields) (key : String) :
    (implicitPart options fields).get? key =
      if key ∈ options.implicitFields then fields.get? key else none :=
  Fields.get?_gather _ _ key

theorem distinct_layered (options : Options) (keep : Fields → Fields) (fields : Fields) :
    (layered options keep fields).Distinct :=
  (Projection.distinct_implicitPart options fields).overlay _

theorem Keeps.get?_layered {keep : Fields → Fields} (h : Keeps keep) {fields : Fields}
    (hfields : fields.Distinct) (options : Options) (key : String) :
    (layered options keep fields).get? key =
      ((keep fields).get? key).or
        (if key ∈ options.implicitFields then fields.get? key else none) := by
  rw [layered, Fields.get?_overlay (h.distinct hfields), Projection.get?_implicitPart]

namespace Projection

/-- What a projection keeps of an object beside its implicit fields. -/
def keptFields (projection : Projection) (fields : Fields) : Fields :=
  (projection.reached? (.object fields)).getD []

theorem element_eq_layered (options : Options) (projection : Projection) (fields : Fields) :
    projection.element options (.object fields) =
      .object (layered options projection.keptFields fields) := rfl

theorem keptFields_of_nonEmpty? {path : Path} {fields kept : Fields}
    (h : rebuild path.segments (.object fields) = kept.nonEmpty?) :
    (along path).keptFields fields = kept := by
  rw [keptFields, reached?, h]
  cases kept <;> rfl

theorem keptFields_of_some {path : Path} {fields kept : Fields}
    (h : rebuild path.segments (.object fields) = some (.object kept)) :
    (along path).keptFields fields = kept := by
  rw [keptFields, reached?, h]
  rfl

theorem keeps_keptFields (projection : Projection) : Keeps projection.keptFields := by
  cases projection with
  | implicitOnly => exact .named (fun _ => none) []
  | along path =>
    obtain ⟨anchor, segments⟩ := path
    cases segments with
    | nil =>
      have hall : (along ⟨anchor, []⟩).keptFields = Fields.keep some :=
        funext fun fields => (Fields.keep_some fields).symm
      exact hall ▸ .members some
    | cons segment rest =>
      obtain ⟨keep, hkeep, hrebuild⟩ := exists_keeps segment rest
      have hall : (along ⟨anchor, segment :: rest⟩).keptFields = keep :=
        funext fun fields => keptFields_of_nonEmpty? (hrebuild fields)
      exact hall ▸ hkeep

theorem exists_of_reached? {projection : Projection} {element : Json} {kept : Fields}
    (h : projection.reached? element = some kept) :
    ∃ path, projection = along path ∧ rebuild path.segments element = some (.object kept) := by
  cases projection with
  | implicitOnly => contradiction
  | along path =>
    refine ⟨path, rfl, ?_⟩
    rw [reached?] at h
    split at h
    · next hrebuild => rw [hrebuild, Option.some.inj h]
    · contradiction

/-- What is found in a projection of an object was reached by the path, or is implicit. -/
theorem get?_element {fields : Fields} (h : fields.Distinct) (options : Options)
    (projection : Projection) (key : String) :
    (projection.element options (.object fields)).get? key =
      ((projection.reached? (.object fields)).bind fun kept => kept.get? key).or
        (if key ∈ options.implicitFields then fields.get? key else none) := by
  have hkept : (projection.keptFields fields).get? key =
      (projection.reached? (.object fields)).bind fun kept => kept.get? key := by
    rw [keptFields]
    cases projection.reached? (.object fields) with
    | none => rfl
    | some kept => rfl
  rw [← hkept]
  exact (keeps_keptFields projection).get?_layered h options key

theorem apply_of_ne_array {document : Json} (h : ∀ items, document ≠ .array items)
    (options : Options) (projection : Projection) :
    projection.apply options document = projection.element options document := by
  cases document with
  | array items => exact absurd rfl (h items)
  | _ => rfl

theorem elements_of_ne_array {document : Json} (h : ∀ items, document ≠ .array items) :
    Stage.elements document = [document] := by
  cases document with
  | array items => exact absurd rfl (h items)
  | _ => rfl

theorem elements_apply (options : Options) (projection : Projection) (document : Json) :
    Stage.elements (projection.apply options document) =
      (Stage.elements document).map (projection.element options) := by
  by_cases harray : ∃ items, document = .array items
  · obtain ⟨items, rfl⟩ := harray
    rfl
  · have hdocument (items : List Json) : document ≠ .array items := fun h => harray ⟨items, h⟩
    rw [apply_of_ne_array hdocument, elements_of_ne_array hdocument,
      elements_of_ne_array (element_ne_array hdocument options projection), List.map_singleton]

/-- A projected document has the projection of each element in the place of the element. -/
theorem forall₂_elements {options : Options} {projection : Projection} {document : Json}
    {R : Json → Json → Prop}
    (h : ∀ element ∈ Stage.elements document, R element (projection.element options element)) :
    List.Forall₂ R (Stage.elements document)
      (Stage.elements (projection.apply options document)) := by
  rw [elements_apply, List.forall₂_map_right_iff, List.forall₂_same]
  exact h

theorem wellFormed_of_mem_elements {document element : Json} (h : document.WellFormed)
    (helement : element ∈ Stage.elements document) : element.WellFormed := by
  by_cases harray : ∃ items, document = .array items
  · obtain ⟨items, rfl⟩ := harray
    exact h.item helement
  · have hdocument (items : List Json) : document ≠ .array items := fun h => harray ⟨items, h⟩
    rw [elements_of_ne_array hdocument] at helement
    exact List.mem_singleton.mp helement ▸ h

end Projection
end DocQuery
