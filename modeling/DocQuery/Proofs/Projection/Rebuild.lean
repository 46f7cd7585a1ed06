import DocQuery.Projection
import DocQuery.Proofs.Json.Fields
import DocQuery.Selection

/- What a step of rebuilding keeps of an object, of the members of a node, and of arrays. -/

namespace DocQuery

namespace Fields

theorem keepNamed_eq_gather (f : Json → Option Json) (names : List String) (fields : Fields) :
    fields.keepNamed f names = gather (fun name => (fields.get? name).bind f) names := by
  refine congrArg ofList (List.filterMap_congr ?_)
  intro name _
  rw [Option.map_bind]
  refine congrArg (Option.bind (fields.get? name)) ?_
  funext value
  exact Option.map_eq_bind.symm

theorem keepNamed_singleton (f : Json → Option Json) (name : String) (fields : Fields) :
    (fields.keepNamed f [name]).nonEmpty? =
      ((fields.get? name).bind f).map fun kept => .object [(name, kept)] := by
  rw [keepNamed_eq_gather, gather, List.filterMap_cons]
  cases (fields.get? name).bind f with
  | none => rfl
  | some kept => rfl

theorem values_keep (f : Json → Option Json) (fields : Fields) :
    (fields.keep f).values = fields.values.filterMap f := by
  rw [keep, values, values, List.map_filterMap, List.filterMap_map]
  refine List.filterMap_congr ?_
  intro field _
  cases hf : f field.2 with
  | none => simp only [Function.comp_apply, hf, Option.map_none]
  | some kept => simp only [Function.comp_apply, hf, Option.map_some]

theorem values_filter (condition : Json → Bool) (fields : Fields) :
    values (fields.filter fun field => condition field.2) = fields.values.filter condition := by
  rw [values, values, List.filter_map]
  rfl

theorem flatMap_nonEmpty? {α : Type} {g : Json → List α} (hg : g (.object []) = [])
    (fields : Fields) : fields.nonEmpty?.toList.flatMap g = g (.object fields) := by
  cases fields with
  | nil => exact hg.symm
  | cons field rest => exact List.flatMap_singleton _ _

theorem keep_cons_none {f : Json → Option Json} {value : Json} (h : f value = none) (key : String)
    (rest : Fields) : keep f ((key, value) :: rest) = keep f rest :=
  List.filterMap_cons_none (by simp only [h, Option.map_none])

theorem keep_cons_some {f : Json → Option Json} {value kept : Json} (h : f value = some kept)
    (key : String) (rest : Fields) :
    keep f ((key, value) :: rest) = (key, kept) :: keep f rest :=
  List.filterMap_cons_some (by simp only [h, Option.map_some])

theorem keep_some (fields : Fields) : fields.keep some = fields := by
  refine Eq.trans (List.filterMap_congr fun field _ => ?_) List.filterMap_some
  rfl

theorem keep_filter (condition : Json → Bool) (f : Json → Option Json) (fields : Fields) :
    keep f (fields.filter fun field => condition field.2) =
      fields.keep fun value => if condition value then f value else none := by
  rw [keep, List.filterMap_filter]
  refine List.filterMap_congr fun field _ => ?_
  split
  · next hcondition => simp only [hcondition, if_true]
  · next hcondition => simp only [hcondition, if_false, Option.map_none, Bool.false_eq_true]

theorem keys_keep_sublist (f : Json → Option Json) (fields : Fields) :
    (fields.keep f).keys.Sublist fields.keys := by
  induction fields with
  | nil => exact .slnil
  | cons field rest ih =>
    obtain ⟨key, value⟩ := field
    cases hf : f value with
    | none =>
      rw [keep_cons_none hf]
      exact ih.cons _
    | some kept =>
      rw [keep_cons_some hf]
      exact ih.cons_cons _

theorem Distinct.keep {fields : Fields} (h : fields.Distinct) (f : Json → Option Json) :
    (fields.keep f).Distinct := (keys_keep_sublist f fields).nodup h

theorem get?_keep {fields : Fields} (h : fields.Distinct) (f : Json → Option Json)
    (key : String) : (fields.keep f).get? key = (fields.get? key).bind f := by
  induction fields with
  | nil => rfl
  | cons field rest ih =>
    obtain ⟨k, v⟩ := field
    have hrest := ih h.tail
    by_cases hk : k = key
    · subst hk
      rw [h.get?_tail] at hrest
      rw [get?_cons_self, Option.bind_some]
      cases hf : f v with
      | none => rw [keep_cons_none hf, hrest, Option.bind_none]
      | some kept => rw [keep_cons_some hf, get?_cons_self]
    · rw [get?_cons_of_ne hk, ← hrest]
      cases hf : f v with
      | none => rw [keep_cons_none hf]
      | some kept => rw [keep_cons_some hf, get?_cons_of_ne hk]

theorem keys_keep {fields : Fields} (h : fields.Distinct) (f : Json → Option Json) :
    (fields.keep f).keys = fields.keys.filter fun key => ((fields.keep f).get? key).isSome := by
  induction fields with
  | nil => rfl
  | cons field rest ih =>
    obtain ⟨k, v⟩ := field
    have hrest := ih h.tail
    have hnone : (keep f rest).get? k = none := by
      rw [get?_keep h.tail, h.get?_tail, Option.bind_none]
    cases hf : f v with
    | none =>
      rw [keep_cons_none hf, keys_cons, List.filter_cons_of_neg, ← hrest]
      rw [hnone]
      exact Bool.false_ne_true
    | some kept =>
      rw [keep_cons_some hf, keys_cons, keys_cons, List.filter_cons_of_pos]
      · refine congrArg (k :: ·) (hrest.trans (List.filter_congr ?_))
        intro key hkey
        have hne : k ≠ key := by
          rintro rfl
          exact (List.nodup_cons.mp h).1 hkey
        rw [get?_cons_of_ne hne]
      · rw [get?_cons_self]
        rfl

theorem exists_of_mem_keep {f : Json → Option Json} {fields : Fields} {field : String × Json}
    (h : field ∈ fields.keep f) : ∃ value, (field.1, value) ∈ fields ∧ f value = some field.2 := by
  obtain ⟨source, hsource, hkept⟩ := List.mem_filterMap.mp h
  obtain ⟨part, hpart, rfl⟩ := Option.map_eq_some_iff.mp hkept
  exact ⟨source.2, hsource, hpart⟩

theorem exists_of_mem_keepNamed {f : Json → Option Json} {names : List String} {fields : Fields}
    {field : String × Json} (h : field ∈ fields.keepNamed f names) :
    field.1 ∈ names ∧ ∃ value, (field.1, value) ∈ fields ∧ f value = some field.2 := by
  rw [keepNamed_eq_gather] at h
  have hget := (distinct_gather _ _).get?_eq_some_iff.mpr h
  rw [get?_gather] at hget
  obtain ⟨hname, hkept⟩ := Option.ite_none_right_eq_some.mp hget
  obtain ⟨value, hvalue, hpart⟩ := Option.bind_eq_some_iff.mp hkept
  exact ⟨hname, value, mem_of_get? hvalue, hpart⟩

theorem nonEmpty?_eq_some_iff {fields : Fields} {node : Json} :
    fields.nonEmpty? = some node ↔ fields ≠ [] ∧ node = .object fields := by
  cases fields with
  | nil => simp only [nonEmpty?, reduceCtorEq, ne_eq, not_true_eq_false, false_and]
  | cons field rest =>
    simp only [nonEmpty?, Option.some.injEq, ne_eq, reduceCtorEq, not_false_eq_true, true_and]
    exact eq_comm

end Fields

theorem rebuild_key (name : String) (rest : List Segment) (node : Json) :
    rebuild (.key name :: rest) node = rebuild (.keys [name] :: rest) node := by
  refine congrArg (fun f => Json.throughArrays f node) ?_
  funext fields
  rw [Fields.keepNamed_singleton, Option.map_bind]
  refine congrArg (Option.bind (fields.get? name)) ?_
  funext value
  exact Option.map_eq_bind.symm

/-- Ways to keep some fields of an object: those whose values are kept, or those of given names. -/
inductive Keeps : (Fields → Fields) → Prop
  | members (f : Json → Option Json) : Keeps (Fields.keep f)
  | named (f : Json → Option Json) (names : List String) : Keeps (Fields.keepNamed f names)

theorem Keeps.distinct {keep : Fields → Fields} (h : Keeps keep) {fields : Fields}
    (hfields : fields.Distinct) : (keep fields).Distinct := by
  cases h with
  | members f => exact hfields.keep f
  | named f names => exact Fields.distinct_ofList _

/-- Of an object, segments rebuild an object of the fields that are kept in one of the two ways. -/
theorem exists_keeps (segment : Segment) (rest : List Segment) :
    ∃ keep, Keeps keep ∧
      ∀ fields, rebuild (segment :: rest) (.object fields) = (keep fields).nonEmpty? := by
  have hmembers (condition : Json → Bool) : ∃ keep, Keeps keep ∧ ∀ fields,
      (Json.object fields).keepMembers condition (rebuild rest) = (keep fields).nonEmpty? :=
    ⟨_, .members fun value => if condition value then rebuild rest value else none,
      fun fields => congrArg Fields.nonEmpty? (Fields.keep_filter condition (rebuild rest) fields)⟩
  cases segment with
  | key name => exact ⟨_, .named (rebuild rest) [name], fun fields => rebuild_key name rest _⟩
  | keys names => exact ⟨_, .named (rebuild rest) names, fun _ => rfl⟩
  | wildcard => exact hmembers fun _ => true
  | filter condition => exact hmembers condition.holds

/-- Of an object, an object is rebuilt, if anything is, and keys that do not repeat stay so. -/
theorem exists_object_of_rebuild {fields : Fields} {segments : List Segment} {node : Json}
    (h : rebuild segments (.object fields) = some node) :
    ∃ kept : Fields, node = .object kept ∧ (fields.Distinct → kept.Distinct) := by
  cases segments with
  | nil => exact ⟨fields, (Option.some.inj h).symm, id⟩
  | cons segment rest =>
    obtain ⟨keep, hkeep, hrebuild⟩ := exists_keeps segment rest
    rw [hrebuild, Fields.nonEmpty?_eq_some_iff] at h
    exact ⟨keep fields, h.2, hkeep.distinct⟩

theorem rebuild_object {fields : Fields} (h : fields.Distinct) {segments : List Segment}
    {node : Json} (hnode : rebuild segments (.object fields) = some node) :
    ∃ kept : Fields, node = .object kept ∧ kept.Distinct := by
  obtain ⟨kept, hkept, hdistinct⟩ := exists_object_of_rebuild hnode
  exact ⟨kept, hkept, hdistinct h⟩

theorem exists_of_mem_keepMembers {condition : Json → Bool} {f : Json → Option Json}
    {fields kept : Fields} (h : (Json.object fields).keepMembers condition f = some (.object kept))
    {field : String × Json} (hfield : field ∈ kept) :
    ∃ value, (field.1, value) ∈ fields ∧ f value = some field.2 := by
  obtain rfl := Json.object.inj (Fields.nonEmpty?_eq_some_iff.mp h).2
  obtain ⟨value, hvalue, hpart⟩ := Fields.exists_of_mem_keep hfield
  exact ⟨value, List.mem_of_mem_filter hvalue, hpart⟩

theorem exists_of_mem_rebuild {segment : Segment} {rest : List Segment} {fields kept : Fields}
    (h : rebuild (segment :: rest) (.object fields) = some (.object kept)) {field : String × Json}
    (hfield : field ∈ kept) :
    ∃ value, (field.1, value) ∈ fields ∧ rebuild rest value = some field.2 := by
  cases segment with
  | key name =>
    rw [rebuild_key] at h
    obtain rfl := Json.object.inj (Fields.nonEmpty?_eq_some_iff.mp h).2
    exact (Fields.exists_of_mem_keepNamed hfield).2
  | keys names =>
    obtain rfl := Json.object.inj (Fields.nonEmpty?_eq_some_iff.mp h).2
    exact (Fields.exists_of_mem_keepNamed hfield).2
  | wildcard => exact exists_of_mem_keepMembers h hfield
  | filter condition => exact exists_of_mem_keepMembers h hfield

/-- The items of an array are rebuilt one by one, by the rest or, behind a key, by all segments. -/
theorem rebuild_items (segment : Segment) (rest : List Segment) (items : List Json) :
    ∃ f, rebuild (segment :: rest) (.array items) = some (.array (items.filterMap f)) ∧
      ∀ item part, f item = some part →
        rebuild rest item = some part ∨ rebuild (segment :: rest) item = some part := by
  have hthrough (f : Fields → Option Json) :
      (Json.array items).throughArrays f = some (.array (items.filterMap (Json.throughArrays f))) :=
    congrArg (fun items => some (Json.array items)) (Json.throughItems_eq f items)
  cases segment with
  | key name => exact ⟨rebuild (.key name :: rest), hthrough _, fun _ _ => .inr⟩
  | keys names => exact ⟨rebuild (.keys names :: rest), hthrough _, fun _ _ => .inr⟩
  | wildcard =>
    refine ⟨rebuild rest, ?_, fun _ _ => .inl⟩
    rw [rebuild, Json.keepMembers, List.filter_true]
  | filter condition =>
    refine ⟨fun item => if condition.holds item then rebuild rest item else none, ?_, ?_⟩
    · rw [rebuild, Json.keepMembers, List.filterMap_filter]
    · intro item part hpart
      exact .inl (Option.ite_none_right_eq_some.mp hpart).2

namespace Json

theorem flatMap_children_keepMembers (condition : Json → Bool) (f : Json → Option Json)
    (node : Json) :
    (node.keepMembers condition f).toList.flatMap children =
      (node.children.filter condition).filterMap f := by
  cases node with
  | array items => exact List.flatMap_singleton _ _
  | object fields =>
    rw [keepMembers, Fields.flatMap_nonEmpty? rfl]
    exact (Fields.values_keep _ _).trans (congrArg _ (Fields.values_filter condition fields))
  | _ => rfl

end Json

theorem rebuild_array (segments : List Segment) (items : List Json) :
    ∃ kept, rebuild segments (.array items) = some (.array kept) := by
  cases segments with
  | nil => exact ⟨items, rfl⟩
  | cons segment rest => cases segment <;> exact ⟨_, rfl⟩

theorem rebuild_scalar {node : Json} (harray : ∀ items, node ≠ .array items)
    (hobject : ∀ fields, node ≠ .object fields) (segments : List Segment) :
    rebuild segments node = none ∨ rebuild segments node = some node := by
  cases segments with
  | nil => exact .inr rfl
  | cons segment rest =>
    cases node with
    | array items => exact absurd rfl (harray items)
    | object fields => exact absurd rfl (hobject fields)
    | _ => cases segment <;> exact .inl rfl

namespace Projection

theorem element_along {node : Json} (h : ∀ fields, node ≠ .object fields) (options : Options)
    (path : Path) :
    (along path).element options node = (rebuild path.segments node).getD .null := by
  cases node with
  | object fields => exact absurd rfl (h fields)
  | _ => rfl

theorem element_null (options : Options) (path : Path) :
    (along path).element options .null = .null := by
  show (rebuild path.segments .null).getD .null = .null
  cases path.segments with
  | nil => rfl
  | cons segment rest => cases segment <;> rfl

theorem element_ne_array {node : Json} (hnode : ∀ items, node ≠ .array items) (options : Options)
    (projection : Projection) (items : List Json) :
    projection.element options node ≠ .array items := by
  have hscalar (hobject : ∀ fields, node ≠ .object fields) (path : Path) :
      (rebuild path.segments node).getD .null ≠ .array items := by
    rcases rebuild_scalar hnode hobject path.segments with h | h
    · rw [h]
      exact Json.noConfusion
    · rw [h]
      exact hnode items
  cases node with
  | array items => exact absurd rfl (hnode items)
  | object fields => exact Json.noConfusion
  | _ =>
    cases projection with
    | implicitOnly => exact Json.noConfusion
    | along path => exact hscalar (fun _ => Json.noConfusion) path

end Projection
end DocQuery
