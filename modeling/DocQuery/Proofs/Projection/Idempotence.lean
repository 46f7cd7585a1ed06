import DocQuery.Proofs.Projection.Elements
import DocQuery.Proofs.Projection.Settled

/- Projecting twice. Main statement: where what was kept is settled, the second projection changes
nothing; where no implicit field is a key that the path keeps, it changes nothing only there. -/

namespace DocQuery

namespace Keeps

variable {keep : Fields → Fields} (h : Keeps keep)
include h

theorem exists_value : ∃ value : String → Json → Option Json, ∀ {fields : Fields},
    fields.Distinct → ∀ key, (keep fields).get? key = (fields.get? key).bind (value key) := by
  cases h with
  | members f => exact ⟨fun _ => f, fun hfields => Fields.get?_keep hfields f⟩
  | named f names =>
    refine ⟨fun key value => if key ∈ names then f value else none, ?_⟩
    intro fields _ key
    rw [Fields.keepNamed_eq_gather, Fields.get?_gather]
    by_cases hkey : key ∈ names
    · simp only [hkey, if_true]
    · simp only [hkey, if_false, Option.bind_fun_none]

theorem nil : keep [] = [] := by
  cases h with
  | members f => rfl
  | named f names =>
    rw [Fields.keepNamed_eq_gather]
    exact congrArg Fields.ofList (List.filterMap_eq_nil_iff.mpr fun _ _ => rfl)

theorem keys_overlay {lower fields : Fields} (hlower : lower.Distinct) (hfields : fields.Distinct)
    (hget : ∀ key, (keep (lower.overlay (keep fields))).get? key = (keep fields).get? key) :
    ((keep (lower.overlay (keep fields))).keys.filter fun key => key ∉ lower.keys) =
      (keep fields).keys.filter fun key => key ∉ lower.keys := by
  cases h with
  | members f =>
    have hlower' : ((lower.keys.filter fun key => ((fields.keep f).get? key).isSome).filter
        fun key => key ∉ lower.keys) = [] := by
      refine List.filter_eq_nil_iff.mpr ?_
      intro key hkey
      simp only [List.mem_of_mem_filter hkey, not_true_eq_false, decide_false, Bool.false_eq_true,
        not_false_eq_true]
    have hupper : ((fields.keep f).keys.filter fun key => key ∉ lower.keys).filter
        (fun key => ((fields.keep f).get? key).isSome) =
          (fields.keep f).keys.filter fun key => key ∉ lower.keys := by
      refine List.filter_eq_self.mpr ?_
      intro key hkey
      exact Fields.isSome_get?_iff.mpr (List.mem_of_mem_filter hkey)
    rw [Fields.keys_keep (hlower.overlay _)]
    simp only [hget]
    rw [Fields.keys_overlay (hfields.keep f), List.filter_append, List.filter_append, hlower',
      hupper, List.nil_append, List.filter_filter]
    simp only [Bool.and_self]
  | named f names =>
    refine congrArg (List.filter _) ?_
    simp only [Fields.keepNamed_eq_gather, Fields.get?_gather] at hget ⊢
    refine Fields.keys_gather_congr ?_
    intro name hname
    have hname' := hget name
    rw [if_pos hname, if_pos hname] at hname'
    rw [hname']

variable {fields : Fields} (hfields : fields.Distinct) (options : Options)
include hfields

theorem get?_keep_layered (hself : keep (keep fields) = keep fields) (key : String) :
    (keep (layered options keep fields)).get? key = (keep fields).get? key := by
  obtain ⟨value, hvalue⟩ := h.exists_value
  have hkept := hvalue (h.distinct hfields) key
  rw [hself] at hkept
  rw [hvalue (distinct_layered options keep fields), h.get?_layered hfields]
  cases hsome : (keep fields).get? key with
  | some kept =>
    rw [hsome] at hkept
    exact hkept.symm
  | none =>
    rw [Option.none_or]
    split
    · rw [← hvalue hfields, hsome]
    · rfl

theorem keys_implicitPart_layered :
    (Projection.implicitPart options (layered options keep fields)).keys =
      (Projection.implicitPart options fields).keys := by
  refine Fields.keys_gather_congr ?_
  intro name hname
  obtain ⟨value, hvalue⟩ := h.exists_value
  rw [h.get?_layered hfields, if_pos hname, hvalue hfields]
  cases fields.get? name with
  | none => rfl
  | some original => rw [Option.isSome_or, Option.isSome_some, Bool.or_true]

theorem layered_layered (hself : keep (keep fields) = keep fields) :
    layered options keep (layered options keep fields) = layered options keep fields := by
  have hget := h.get?_keep_layered hfields options hself
  have hdistinct := distinct_layered options keep fields
  refine (distinct_layered options keep _).ext ?_ ?_
  · have hupper := h.keys_overlay (Projection.distinct_implicitPart options fields) hfields hget
    rw [layered, Fields.keys_overlay (h.distinct hdistinct), keys_implicitPart_layered h hfields,
      layered, hupper, Fields.keys_overlay (h.distinct hfields)]
  · intro key
    rw [h.get?_layered hdistinct, hget, h.get?_layered hfields]
    cases (keep fields).get? key with
    | some kept => rfl
    | none =>
      rw [Option.none_or, Option.none_or]
      split <;> rfl

theorem keep_keep (hapart : ∀ key ∈ options.implicitFields, key ∉ (keep fields).keys)
    (heq : layered options keep (layered options keep fields) = layered options keep fields) :
    keep (keep fields) = keep fields := by
  obtain ⟨value, hvalue⟩ := h.exists_value
  have hkeep := h.distinct hfields
  have hget (key : String) : (keep (keep fields)).get? key = (keep fields).get? key := by
    rw [hvalue hkeep]
    cases hsome : (keep fields).get? key with
    | none => rfl
    | some kept =>
      have hkey : key ∉ options.implicitFields := fun hkey =>
        hapart key hkey (Fields.mem_keys_of_get? hsome)
      have honce : (layered options keep fields).get? key = some kept := by
        rw [h.get?_layered hfields, hsome, Option.some_or]
      have htwice := h.get?_layered (distinct_layered options keep fields) options key
      rw [heq, honce, hvalue (distinct_layered options keep fields), honce, if_neg hkey,
        Option.or_none] at htwice
      exact htwice.symm
  have hover : Fields.overlay [] (keep fields) = keep fields := Fields.ofList_of_distinct hkeep
  refine (h.distinct hkeep).ext ?_ hget
  have hkeys := h.keys_overlay Fields.distinct_nil hfields (by rw [hover]; exact hget)
  have hall (keys : List String) : (keys.filter fun key => key ∉ Fields.keys []) = keys :=
    List.filter_eq_self.mpr fun _ _ => decide_eq_true List.not_mem_nil
  rwa [hover, hall, hall] at hkeys

end Keeps

namespace Projection

theorem settled_iff_keptFields {path : Path} {fields kept : Fields}
    (h : rebuild path.segments (.object fields) = some (.object kept)) :
    Settled path.segments (.object kept) ↔ (along path).keptFields kept = kept := by
  rw [settled_iff h]
  obtain ⟨anchor, segments⟩ := path
  cases segments with
  | nil => exact ⟨fun _ => rfl, fun _ => rfl⟩
  | cons segment rest =>
    obtain ⟨keep, _, hrebuild⟩ := exists_keeps segment rest
    obtain ⟨hne, heq⟩ := Fields.nonEmpty?_eq_some_iff.mp ((hrebuild fields).symm.trans h)
    rw [keptFields_of_nonEmpty? (hrebuild kept), hrebuild, Fields.nonEmpty?_eq_some_iff,
      Json.object.injEq]
    rw [← Json.object.inj heq] at hne
    exact ⟨fun hkept => hkept.2.symm, fun hkept => ⟨hkept.symm ▸ hne, hkept.symm⟩⟩

def SettledAt (projection : Projection) (element : Json) : Prop :=
  match projection with
  | implicitOnly => True
  | along path => ∀ kept, rebuild path.segments element = some kept → Settled path.segments kept

def ApartAt (options : Options) (projection : Projection) (element : Json) : Prop :=
  ∀ kept, projection.reached? element = some kept → ∀ key ∈ options.implicitFields, key ∉ kept.keys

theorem keptFields_keptFields {fields : Fields} (hfields : fields.Distinct)
    {projection : Projection} (h : projection.SettledAt (.object fields)) :
    projection.keptFields (projection.keptFields fields) = projection.keptFields fields := by
  cases projection with
  | implicitOnly => rfl
  | along path =>
    cases hrebuild : rebuild path.segments (.object fields) with
    | none =>
      have hnone : (along path).keptFields fields = [] := by
        rw [keptFields, reached?, hrebuild]
        rfl
      rw [hnone]
      exact (keeps_keptFields _).nil
    | some node =>
      obtain ⟨kept, rfl, _⟩ := rebuild_object hfields hrebuild
      rw [keptFields_of_some hrebuild]
      exact (settled_iff_keptFields hrebuild).mp (h _ hrebuild)

theorem settledAt_of_keptFields {fields : Fields} (hfields : fields.Distinct)
    {projection : Projection}
    (h : projection.keptFields (projection.keptFields fields) = projection.keptFields fields) :
    projection.SettledAt (.object fields) := by
  cases projection with
  | implicitOnly => trivial
  | along path =>
    intro node hrebuild
    obtain ⟨kept, rfl, _⟩ := rebuild_object hfields hrebuild
    rw [keptFields_of_some hrebuild] at h
    exact (settled_iff_keptFields hrebuild).mpr h

theorem settledAt_array {options : Options} {projection : Projection} {items : List Json} :
    projection.element options (projection.element options (.array items)) =
        projection.element options (.array items) ↔ projection.SettledAt (.array items) := by
  cases projection with
  | implicitOnly => exact ⟨fun _ => trivial, fun _ => rfl⟩
  | along path =>
    obtain ⟨kept, hkept⟩ := rebuild_array path.segments items
    obtain ⟨kept', hkept'⟩ := rebuild_array path.segments kept
    have honce : (along path).element options (.array items) = .array kept :=
      congrArg (·.getD .null) hkept
    have htwice : (along path).element options (.array kept) = .array kept' :=
      congrArg (·.getD .null) hkept'
    have hsettled := settled_iff hkept
    rw [hkept', Option.some.injEq] at hsettled
    rw [honce, htwice, ← hsettled]
    refine ⟨fun h node hnode => ?_, fun h => h _ hkept⟩
    rw [← Option.some.inj (hkept.symm.trans hnode)]
    exact h

theorem settledAt_scalar (options : Options) {projection : Projection} {node : Json}
    (harray : ∀ items, node ≠ .array items) (hobject : ∀ fields, node ≠ .object fields) :
    projection.element options (projection.element options node) =
        projection.element options node ∧ projection.SettledAt node := by
  cases projection with
  | implicitOnly =>
    refine ⟨?_, trivial⟩
    cases node with
    | object fields => exact absurd rfl (hobject fields)
    | _ => rfl
  | along path =>
    have hnode := element_along hobject options path
    rcases rebuild_scalar harray hobject path.segments with h | h
    · rw [h, Option.getD_none] at hnode
      rw [hnode, element_null]
      exact ⟨rfl, fun kept hkept => nomatch h.symm.trans hkept⟩
    · rw [h, Option.getD_some] at hnode
      rw [hnode, hnode]
      refine ⟨rfl, fun kept hkept => ?_⟩
      rw [← Option.some.inj (h.symm.trans hkept)]
      exact (settled_iff h).mpr h

theorem element_element {element : Json} (h : element.WellFormed) (options : Options)
    {projection : Projection} (hsettled : projection.SettledAt element) :
    projection.element options (projection.element options element) =
      projection.element options element := by
  cases element with
  | object fields =>
    rw [element_eq_layered, element_eq_layered]
    exact congrArg Json.object ((keeps_keptFields projection).layered_layered h.distinct options
      (keptFields_keptFields h.distinct hsettled))
  | array items => exact settledAt_array.mpr hsettled
  | _ => exact (settledAt_scalar options (fun _ => Json.noConfusion) fun _ => Json.noConfusion).1

theorem settledAt_of_element_element {element : Json} (h : element.WellFormed) {options : Options}
    {projection : Projection} (hapart : projection.ApartAt options element)
    (heq : projection.element options (projection.element options element) =
      projection.element options element) : projection.SettledAt element := by
  cases element with
  | object fields =>
    rw [element_eq_layered, element_eq_layered] at heq
    refine settledAt_of_keptFields h.distinct ?_
    refine (keeps_keptFields projection).keep_keep h.distinct options ?_ (Json.object.inj heq)
    intro key hkey
    rw [keptFields]
    cases hreached : projection.reached? (.object fields) with
    | none => exact List.not_mem_nil
    | some kept => exact hapart kept hreached key hkey
  | array items => exact settledAt_array.mp heq
  | _ => exact (settledAt_scalar options (fun _ => Json.noConfusion) fun _ => Json.noConfusion).2

/-- What the path keeps of the elements of a document is settled. -/
def SettledOn (projection : Projection) (document : Json) : Prop :=
  ∀ element ∈ Stage.elements document, projection.SettledAt element

/-- No implicit field is a key of what the path keeps of an element of a document. -/
def ApartOn (options : Options) (projection : Projection) (document : Json) : Prop :=
  ∀ element ∈ Stage.elements document, projection.ApartAt options element

/-- A filter stands nowhere but in the last place. -/
def filtersLast : Projection → Bool
  | implicitOnly => true
  | along path => path.segments.dropLast.all fun segment => !segment.isFilter

theorem settledAt_of_filtersLast {projection : Projection} (h : projection.filtersLast = true)
    (element : Json) : projection.SettledAt element := by
  cases projection with
  | implicitOnly => trivial
  | along path =>
    intro kept hkept
    refine settled_of_filters_last ?_ hkept
    intro segment hsegment
    exact Bool.not_eq_true' _ ▸ List.all_eq_true.mp h segment hsegment

theorem apply_apply_iff (options : Options) (projection : Projection) (document : Json) :
    projection.apply options (projection.apply options document) =
        projection.apply options document ↔
      ∀ element ∈ Stage.elements document,
        projection.element options (projection.element options element) =
          projection.element options element := by
  by_cases harray : ∃ items, document = .array items
  · obtain ⟨items, rfl⟩ := harray
    rw [apply, apply, Json.array.injEq, List.map_map]
    exact List.map_inj_left
  · have hdocument (items : List Json) : document ≠ .array items := fun h => harray ⟨items, h⟩
    rw [apply_of_ne_array hdocument, apply_of_ne_array (element_ne_array hdocument options projection),
      elements_of_ne_array hdocument, List.forall_mem_singleton]

/-- A document is projected twice as it is projected once where what the path keeps of it is
settled, and only there if no implicit field is a key of it. With filters in the last place, all
that is kept is settled. -/
theorem apply_apply {document : Json} (h : document.WellFormed) (options : Options)
    (projection : Projection) :
    (projection.SettledOn document →
      projection.apply options (projection.apply options document) =
        projection.apply options document) ∧
    (projection.ApartOn options document →
      projection.apply options (projection.apply options document) =
        projection.apply options document → projection.SettledOn document) ∧
    (projection.filtersLast = true → projection.SettledOn document) := by
  refine ⟨?_, ?_, ?_⟩
  · intro hsettled
    rw [apply_apply_iff]
    intro element helement
    exact element_element (wellFormed_of_mem_elements h helement) options (hsettled element helement)
  · intro hapart heq element helement
    rw [apply_apply_iff] at heq
    exact settledAt_of_element_element (wellFormed_of_mem_elements h helement)
      (hapart element helement) (heq element helement)
  · intro hlast element _
    exact settledAt_of_filtersLast hlast element

def signedNote : Json :=
  .object [("note", .array [.object [("author", .string "Ann"), ("text", .null)]])]

/-- One field of each note that has an author. -/
def fromSigned (name : String) : Projection :=
  along ⟨.document, [.key "note", .filter (.truthy (.field "author")), .key name]⟩

/-- The filter looks at a field that the path keeps. -/
theorem apply_apply_of_kept_field :
    (fromSigned "author").apply .default ((fromSigned "author").apply .default signedNote) =
      .object [("note", .array [.object [("author", .string "Ann")]])] := by
  have hdocument : signedNote.WellFormed := by
    refine .object (by decide) (List.forall_mem_singleton.mpr (.array ?_))
    refine List.forall_mem_singleton.mpr (.object (by decide) ?_)
    simp only [List.forall_mem_cons]
    exact ⟨.string "Ann", .null, by simp⟩
  refine ((apply_apply hdocument .default (fromSigned "author")).1 ?_).trans rfl
  intro element helement kept hkept
  obtain rfl := List.mem_singleton.mp helement
  obtain rfl := Option.some.inj hkept
  refine .object (List.forall_mem_singleton.mpr (List.forall_mem_singleton.mpr ⟨rfl, .object ?_⟩))
  exact List.forall_mem_singleton.mpr trivial

/-- The filter looks at a field that the path does not keep. -/
theorem apply_apply_ne :
    (fromSigned "text").apply .default ((fromSigned "text").apply .default signedNote) ≠
      (fromSigned "text").apply .default signedNote := by
  show Json.object [("note", .array [])] ≠ .object [("note", .array [.object [("text", .null)]])]
  simp only [ne_eq, Json.object.injEq, List.cons.injEq, Prod.mk.injEq, Json.array.injEq,
    List.nil_eq, reduceCtorEq, and_false, false_and, not_false_eq_true]

end Projection

end DocQuery
