import DocQuery.Proofs.Projection.Elements

/- What is kept is in the source. Main statements: a projection of an object is an object embedded
in it, and each implicit field of it is there, whole unless the path keeps a part of it only. -/

namespace DocQuery

/-- A value with some of the fields and items of another, at any depth, and with no others. The
items stay in order. -/
inductive Json.Embedded : Json → Json → Prop
  | whole (node : Json) : Embedded node node
  | object {kept fields : Fields} : kept.keys ⊆ fields.keys →
      (∀ key part value, kept.get? key = some part → fields.get? key = some value →
        Embedded part value) → Embedded (.object kept) (.object fields)
  | array {kept items : List Json} : List.SublistForall₂ Embedded kept items →
      Embedded (.array kept) (.array items)

namespace Json

theorem embedded_object_iff {kept fields : Fields} :
    Embedded (.object kept) (.object fields) ↔ ∀ key part, kept.get? key = some part →
      ∃ value, fields.get? key = some value ∧ Embedded part value := by
  constructor
  · intro h key part hpart
    cases h with
    | whole => exact ⟨part, hpart, .whole part⟩
    | object hkeys hvalues =>
      have hkey := Fields.isSome_get?_iff.mpr (hkeys (Fields.mem_keys_of_get? hpart))
      obtain ⟨value, hvalue⟩ := Option.isSome_iff_exists.mp hkey
      exact ⟨value, hvalue, hvalues key part value hpart hvalue⟩
  · intro h
    refine .object ?_ ?_
    · intro key hkey
      obtain ⟨part, hpart⟩ := Option.isSome_iff_exists.mp (Fields.isSome_get?_iff.mpr hkey)
      obtain ⟨value, hvalue, _⟩ := h key part hpart
      exact Fields.mem_keys_of_get? hvalue
    · intro key part value hpart hvalue
      obtain ⟨value', hvalue', hembedded⟩ := h key part hpart
      exact Option.some.inj (hvalue'.symm.trans hvalue) ▸ hembedded

def isScalar : Json → Bool
  | .array _ => false
  | .object _ => false
  | _ => true

theorem Embedded.eq_of_isScalar {part value : Json} (h : part.Embedded value)
    (hvalue : value.isScalar = true) : part = value := by
  cases h with
  | whole => rfl
  | object => contradiction
  | array => contradiction

end Json

theorem sublistForall₂_filterMap {α β : Type} {R : β → α → Prop} {f : α → Option β} {l : List α}
    (h : ∀ a ∈ l, ∀ b, f a = some b → R b a) : List.SublistForall₂ R (l.filterMap f) l := by
  induction l with
  | nil => exact .nil
  | cons a l ih =>
    obtain ⟨ha, hl⟩ := List.forall_mem_cons.mp h
    cases hf : f a with
    | none =>
      rw [List.filterMap_cons_none hf]
      exact .cons_right (ih hl)
    | some b =>
      rw [List.filterMap_cons_some hf]
      exact .cons (ha b hf) (ih hl)

theorem embedded_of_rebuild {segments : List Segment} {node kept : Json} (hnode : node.WellFormed)
    (h : rebuild segments node = some kept) : kept.Embedded node := by
  induction segments generalizing node kept with
  | nil => exact Option.some.inj h ▸ .whole node
  | cons segment rest ih =>
    -- A key is taken again from the items of an array, so that the induction is on the node too.
    induction hnode generalizing kept with
    | @object fields hdistinct hvalues =>
      obtain ⟨kept, rfl, hkept⟩ := rebuild_object hdistinct h
      refine Json.embedded_object_iff.mpr ?_
      intro key part hpart
      obtain ⟨value, hvalue, hrest⟩ := exists_of_mem_rebuild h (Fields.mem_of_get? hpart)
      exact ⟨value, hdistinct.get?_eq_some_iff.mpr hvalue, ih (hvalues _ hvalue) hrest⟩
    | @array items hitems ihitems =>
      obtain ⟨f, hf, hitem⟩ := rebuild_items segment rest items
      rw [hf] at h
      rw [← Option.some.inj h]
      refine .array (sublistForall₂_filterMap ?_)
      intro item hmem part hpart
      rcases hitem item part hpart with hrest | hagain
      · exact ih (hitems item hmem) hrest
      · exact ihitems item hmem hagain
    | _ => cases segment <;> contradiction

namespace Projection

theorem embedded_element {fields : Fields} (h : (Json.object fields).WellFormed)
    (options : Options) (projection : Projection) :
    (projection.element options (.object fields)).Embedded (.object fields) := by
  refine Json.embedded_object_iff.mpr ?_
  intro key part hpart
  have hget := get?_element h.distinct options projection key
  rcases Option.or_eq_some_iff.mp (hget.symm.trans hpart) with hkept | ⟨_, himplicit⟩
  · obtain ⟨kept, hreached, hkey⟩ := Option.bind_eq_some_iff.mp hkept
    obtain ⟨path, _, hrebuild⟩ := exists_of_reached? hreached
    exact Json.embedded_object_iff.mp (embedded_of_rebuild h hrebuild) key part hkey
  · exact ⟨part, (Option.ite_none_right_eq_some.mp himplicit).2, .whole part⟩

/-- Every object among the elements of a document is projected to an object embedded in it. -/
theorem embedded_apply {document : Json} (h : document.WellFormed) (options : Options)
    (projection : Projection) :
    List.Forall₂ (fun element output =>
        element.isObject = true → output.isObject = true ∧ output.Embedded element)
      (Stage.elements document) (Stage.elements (projection.apply options document)) := by
  apply forall₂_elements
  intro element helement hobject
  cases element with
  | object fields =>
    exact ⟨rfl, embedded_element (wellFormed_of_mem_elements h helement) options projection⟩
  | _ => contradiction

def nestedGroups : Json :=
  .object [("g", .array [.array [.object [("k", .null), ("n", .null)], .bool false],
    .object [("n", .null)], .object [("k", .bool true)]]), ("id", .string "7"), ("n", .null)]

def nestedGroupKeys : Json :=
  .object [("id", .string "7"),
    ("g", .array [.array [.object [("k", .null)]], .object [("k", .bool true)]])]

/-- The key that the path starts from is implicit, and it leads through an array in an array. -/
theorem embedded_apply_nested :
    (along ⟨.document, [.key "g", .key "k"]⟩).apply ⟨["id", "g"], "none"⟩ nestedGroups =
      nestedGroupKeys ∧
    nestedGroupKeys.Embedded nestedGroups := by
  have hdocument : nestedGroups.WellFormed := by
    simp [nestedGroups, Fields.Distinct, Fields.keys]
  have hprojected := embedded_apply hdocument ⟨["id", "g"], "none"⟩
    (along ⟨.document, [.key "g", .key "k"]⟩)
  exact ⟨rfl, ((List.forall₂_cons.mp hprojected).1 rfl).2⟩

def keptAt (projection : Projection) (element : Json) (key : String) : Option Json :=
  (projection.reached? element).bind fun kept => kept.get? key

/-- Every implicit field of an element is in its projection, with a part of its value. It is there
whole just where the path keeps nothing or all of it, as of any scalar. -/
theorem implicit_apply {document : Json} (h : document.WellFormed) (options : Options)
    (projection : Projection) :
    List.Forall₂ (fun element output => ∀ key ∈ options.implicitFields, ∀ value,
        element.get? key = some value →
          ∃ part, output.get? key = some part ∧ part.Embedded value ∧
            (part = value ↔ projection.keptAt element key = none ∨
              projection.keptAt element key = some value) ∧
            (value.isScalar = true → part = value))
      (Stage.elements document) (Stage.elements (projection.apply options document)) := by
  apply forall₂_elements
  intro element helement key hkey value hvalue
  cases element with
  | object fields =>
    have hfields := wellFormed_of_mem_elements h helement
    have hget : (projection.element options (.object fields)).get? key =
        (projection.keptAt (.object fields) key).or (some value) := by
      rw [get?_element hfields.distinct, if_pos hkey]
      exact congrArg _ hvalue
    have hembedded {part : Json} (hpart : (projection.element options (.object fields)).get? key =
        some part) : part.Embedded value := by
      obtain ⟨value', hvalue', hpart'⟩ := Json.embedded_object_iff.mp
        (embedded_element hfields options projection) key part hpart
      exact Option.some.inj (hvalue'.symm.trans hvalue) ▸ hpart'
    cases hkept : projection.keptAt (.object fields) key with
    | none =>
      rw [hkept, Option.none_or] at hget
      exact ⟨value, hget, .whole value, by simp only [true_or], fun _ => rfl⟩
    | some part =>
      rw [hkept, Option.some_or] at hget
      refine ⟨part, hget, hembedded hget, ?_, (hembedded hget).eq_of_isScalar⟩
      simp only [reduceCtorEq, Option.some.injEq, false_or]
  | _ => contradiction

def compositeId : Json := .object [("x", .null), ("y", .null)]

/-- The path keeps a part of one implicit field, and the other is a string. -/
theorem implicit_apply_href :
    (∃ part, ((along ⟨.document, [.key "id", .key "x"]⟩).apply .default
        (.object [("id", compositeId), ("href", .string "/7")])).get? "id" = some part ∧
      part.Embedded compositeId ∧ part ≠ compositeId) ∧
    ((along ⟨.document, [.key "id", .key "x"]⟩).apply .default
        (.object [("id", compositeId), ("href", .string "/7")])).get? "href" =
      some (.string "/7") := by
  have hdocument : Json.WellFormed (.object [("id", compositeId), ("href", .string "/7")]) := by
    simp [compositeId, Fields.Distinct, Fields.keys]
  have hprojected := implicit_apply hdocument .default (along ⟨.document, [.key "id", .key "x"]⟩)
  have helement := (List.forall₂_cons.mp hprojected).1
  have hkept : (along ⟨.document, [.key "id", .key "x"]⟩).keptAt
      (.object [("id", compositeId), ("href", .string "/7")]) "id" =
        some (.object [("x", .null)]) := rfl
  obtain ⟨part, hpart, hembedded, hwhole, _⟩ := helement "id" (by decide) _ rfl
  obtain ⟨href, hhref, _, _, hscalar⟩ := helement "href" (by decide) _ rfl
  refine ⟨⟨part, hpart, hembedded, ?_⟩, hscalar rfl ▸ hhref⟩
  rw [ne_eq, hwhole, hkept]
  simp [compositeId]

/-- A path into an implicit field keeps less of it than no path does. -/
theorem implicit_apply_ne :
    Path.parse "id.x" = .ok ⟨.document, [.key "id", .key "x"]⟩ ∧
    "id" ∈ Options.default.implicitFields ∧
    (implicitOnly.apply .default (.object [("id", compositeId)])).get? "id" = some compositeId ∧
    ((along ⟨.document, [.key "id", .key "x"]⟩).apply .default
        (.object [("id", compositeId)])).get? "id" ≠ some compositeId := by
  refine ⟨rfl, by decide, rfl, ?_⟩
  show some (Json.object [("x", .null)]) ≠ some compositeId
  simp [compositeId]

end Projection
end DocQuery
