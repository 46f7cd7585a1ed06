import DocQuery.Proofs.Projection.Rebuild

/- Rebuilding what was rebuilt. It changes nothing exactly where every member that a filter looks at
satisfies the filter once more, now that it may have lost fields. -/

namespace DocQuery

/-- An object with a property, or an array of such of any depth. -/
inductive Json.Nest (p : Fields → Prop) : Json → Prop
  | object {fields : Fields} : p fields → Nest p (.object fields)
  | array {items : List Json} : (∀ item ∈ items, Nest p item) → Nest p (.array items)

/-- Every member of a rebuilt node that a filter among the segments looks at satisfies it. -/
def Settled : List Segment → Json → Prop
  | [], _ => True
  | .key name :: rest, node =>
    node.Nest fun fields => ∀ child ∈ fields.pick [name], Settled rest child
  | .wildcard :: rest, node => ∀ child ∈ node.children, Settled rest child
  | .keys names :: rest, node =>
    node.Nest fun fields => ∀ child ∈ fields.pick names, Settled rest child
  | .filter condition :: rest, node =>
    ∀ child ∈ node.children, condition.holds child = true ∧ Settled rest child

namespace Json

theorem Nest.congr {p q r : Fields → Prop} {node : Json} (h : node.Nest r)
    (hpq : ∀ fields, r fields → (p fields ↔ q fields)) : node.Nest p ↔ node.Nest q := by
  induction h with
  | @object fields hr =>
    constructor
    · rintro ⟨hp⟩
      exact .object ((hpq fields hr).mp hp)
    · rintro ⟨hq⟩
      exact .object ((hpq fields hr).mpr hq)
  | array _ ih =>
    constructor
    · rintro (_ | hp)
      exact .array fun item hitem => (ih item hitem).mp (hp item hitem)
    · rintro (_ | hq)
      exact .array fun item hitem => (ih item hitem).mpr (hq item hitem)

theorem Nest.mono {p q : Fields → Prop} {node : Json} (h : node.Nest p)
    (hpq : ∀ fields, p fields → q fields) : node.Nest q := by
  induction h with
  | object hp => exact .object (hpq _ hp)
  | array _ ih => exact .array ih

mutual

theorem nest_of_throughArrays {f : Fields → Option Json} {p : Fields → Prop}
    (hf : ∀ fields node, f fields = some node → node.Nest p) :
    ∀ {node kept : Json}, node.throughArrays f = some kept → kept.Nest p
  | .array items, kept, h => by
    rw [← Option.some.inj h]
    exact .array (nest_of_throughItems hf)
  | .object fields, kept, h => hf fields kept h
  | .null, _, h => nomatch h
  | .bool _, _, h => nomatch h
  | .number _, _, h => nomatch h
  | .string _, _, h => nomatch h

theorem nest_of_throughItems {f : Fields → Option Json} {p : Fields → Prop}
    (hf : ∀ fields node, f fields = some node → node.Nest p) :
    ∀ {items : List Json}, ∀ kept ∈ throughItems f items, kept.Nest p
  | [], kept, h => absurd h List.not_mem_nil
  | item :: items, kept, h => by
    rcases List.mem_append.mp h with h | h
    · exact nest_of_throughArrays hf (Option.mem_toList.mp h)
    · exact nest_of_throughItems hf kept h

end

theorem throughArrays_eq_self_iff {f : Fields → Option Json} {node : Json}
    (h : node.Nest fun _ => True) :
    node.throughArrays f = some node ↔ node.Nest fun fields => f fields = some (.object fields) := by
  induction h with
  | @object fields _ =>
    refine ⟨fun h => .object h, ?_⟩
    rintro ⟨h⟩
    exact h
  | @array items _ ih =>
    rw [throughArrays, throughItems_eq, Option.some.injEq, Json.array.injEq]
    have hself : items.filterMap (throughArrays f) = items ↔
        ∀ item ∈ items, item.throughArrays f = some item := by
      have := List.filterMap_eq_map_iff_forall_eq_some (f := throughArrays f) (g := id) (l := items)
      rwa [List.map_id] at this
    rw [hself]
    refine ⟨fun h => .array fun item hitem => (ih item hitem).mp (h item hitem), ?_⟩
    rintro (_ | h) item hitem
    exact (ih item hitem).mpr (h item hitem)

theorem children_of_keepMembers {condition : Json → Bool} {f : Json → Option Json}
    {node kept : Json} (h : node.keepMembers condition f = some kept) :
    kept.children = (node.children.filter condition).filterMap f := by
  have hchildren := flatMap_children_keepMembers condition f node
  rw [h] at hchildren
  exact (List.flatMap_singleton _ _).symm.trans hchildren

end Json

theorem filterMap_filter_eq_self_iff {α : Type} {p : α → Bool} {f : α → Option α} {l : List α} :
    (l.filter p).filterMap f = l ↔ ∀ x ∈ l, p x = true ∧ f x = some x := by
  have hmap := List.filterMap_eq_map_iff_forall_eq_some
    (f := fun x => if p x then f x else none) (g := id) (l := l)
  rw [List.map_id] at hmap
  rw [List.filterMap_filter, hmap]
  refine forall_congr' fun x => forall_congr' fun _ => ?_
  cases p x with
  | false => simp only [Bool.false_eq_true, if_false, reduceCtorEq, false_and]
  | true => simp only [if_true, id_eq, true_and]

namespace Fields

theorem keep_filter_eq_self_iff {condition : Json → Bool} {f : Json → Option Json}
    {fields : Fields} :
    keep f (fields.filter fun field => condition field.2) = fields ↔
      ∀ child ∈ fields.values, condition child = true ∧ f child = some child := by
  rw [keep, filterMap_filter_eq_self_iff, values, List.forall_mem_map]
  refine forall_congr' fun field => forall_congr' fun _ => and_congr_right fun _ => ?_
  cases hf : f field.2 with
  | none => simp only [hf, Option.map_none, reduceCtorEq]
  | some kept => simp only [hf, Option.map_some, Option.some.injEq, Prod.ext_iff, true_and]

theorem keepNamed_eq_self_iff {f : Json → Option Json} {names : List String} (fields : Fields) :
    (fields.keepNamed f names).keepNamed f names = fields.keepNamed f names ↔
      ∀ child ∈ (fields.keepNamed f names).pick names, f child = some child := by
  rw [keepNamed_eq_gather f names fields, keepNamed_eq_gather, gather_eq_iff, pick, pick_gather]
  simp only [List.mem_filterMap, forall_exists_index, and_imp]
  constructor
  · intro h child name hname hchild
    have hname' := h name hname
    rwa [get?_gather, if_pos hname, hchild, Option.bind_some] at hname'
  · intro h name hname
    rw [get?_gather, if_pos hname]
    cases hchild : (fields.get? name).bind f with
    | none => rfl
    | some child => exact h child name hname hchild

end Fields

theorem keepMembers_eq_self_iff {condition : Json → Bool} {f : Json → Option Json}
    {node kept : Json} (h : node.keepMembers condition f = some kept) :
    kept.keepMembers condition f = some kept ↔
      ∀ child ∈ kept.children, condition child = true ∧ f child = some child := by
  cases node with
  | array items =>
    rw [← Option.some.inj h, Json.keepMembers, Option.some.injEq, Json.array.injEq]
    exact filterMap_filter_eq_self_iff
  | object fields =>
    obtain ⟨hne, rfl⟩ := Fields.nonEmpty?_eq_some_iff.mp h
    rw [Json.keepMembers, Fields.nonEmpty?_eq_some_iff, Json.object.injEq]
    refine ⟨fun heq => Fields.keep_filter_eq_self_iff.mp heq.2.symm, ?_⟩
    intro hchildren
    have heq := Fields.keep_filter_eq_self_iff.mpr hchildren
    exact ⟨heq.symm ▸ hne, heq.symm⟩
  | _ => contradiction

theorem throughArrays_keepNamed_eq_self_iff {f : Json → Option Json} {names : List String}
    {node kept : Json}
    (h : (node.throughArrays fun fields => (fields.keepNamed f names).nonEmpty?) = some kept) :
    (kept.throughArrays fun fields => (fields.keepNamed f names).nonEmpty?) = some kept ↔
      kept.Nest fun fields => ∀ child ∈ fields.pick names, f child = some child := by
  have hnest : kept.Nest fun fields =>
      fields ≠ [] ∧ ∃ source : Fields, fields = source.keepNamed f names := by
    refine Json.nest_of_throughArrays ?_ h
    intro source node hnode
    obtain ⟨hne, rfl⟩ := Fields.nonEmpty?_eq_some_iff.mp hnode
    exact .object ⟨hne, source, rfl⟩
  rw [Json.throughArrays_eq_self_iff (hnest.mono fun _ _ => trivial)]
  refine hnest.congr ?_
  rintro fields ⟨hne, source, rfl⟩
  rw [Fields.nonEmpty?_eq_some_iff, Json.object.injEq, ← Fields.keepNamed_eq_self_iff]
  exact ⟨fun heq => heq.2.symm, fun heq => ⟨heq.symm ▸ hne, heq.symm⟩⟩

theorem exists_of_mem_children {condition : Json → Bool} {f : Json → Option Json} {node kept : Json}
    (h : node.keepMembers condition f = some kept) {child : Json} (hchild : child ∈ kept.children) :
    ∃ source, condition source = true ∧ f source = some child := by
  rw [Json.children_of_keepMembers h] at hchild
  obtain ⟨source, hsource, hf⟩ := List.mem_filterMap.mp hchild
  exact ⟨source, (List.mem_filter.mp hsource).2, hf⟩

theorem nest_of_keepNamed {f : Json → Option Json} {names : List String} {node kept : Json}
    (h : (node.throughArrays fun fields => (fields.keepNamed f names).nonEmpty?) = some kept) :
    kept.Nest fun fields => ∀ child ∈ fields.pick names, ∃ source, f source = some child := by
  refine Json.nest_of_throughArrays ?_ h
  intro source node hnode
  obtain ⟨hne, rfl⟩ := Fields.nonEmpty?_eq_some_iff.mp hnode
  refine .object ?_
  intro child hchild
  rw [Fields.keepNamed_eq_gather, Fields.pick, Fields.pick_gather] at hchild
  obtain ⟨name, hname, hvalue⟩ := List.mem_filterMap.mp hchild
  obtain ⟨value, _, hkept⟩ := Option.bind_eq_some_iff.mp hvalue
  exact ⟨value, hkept⟩

/-- What was rebuilt is rebuilt as it is just where it is settled. -/
theorem settled_iff {segments : List Segment} {node kept : Json}
    (h : rebuild segments node = some kept) :
    Settled segments kept ↔ rebuild segments kept = some kept := by
  induction segments generalizing node kept with
  | nil => exact ⟨fun _ => rfl, fun _ => trivial⟩
  | cons segment rest ih =>
    have hkeys {names : List String} (h : rebuild (.keys names :: rest) node = some kept) :
        Settled (.keys names :: rest) kept ↔ rebuild (.keys names :: rest) kept = some kept := by
      refine Iff.trans ?_ (throughArrays_keepNamed_eq_self_iff h).symm
      refine (nest_of_keepNamed h).congr ?_
      intro fields hsource
      refine forall_congr' fun child => forall_congr' fun hchild => ?_
      obtain ⟨source, hkept⟩ := hsource child hchild
      exact ih hkept
    cases segment with
    | key name =>
      rw [rebuild_key] at h ⊢
      exact hkeys h
    | keys names => exact hkeys h
    | wildcard =>
      refine Iff.trans ?_ (keepMembers_eq_self_iff h).symm
      refine forall_congr' fun child => forall_congr' fun hchild => ?_
      obtain ⟨source, _, hkept⟩ := exists_of_mem_children h hchild
      rw [ih hkept]
      exact (and_iff_right rfl).symm
    | filter condition =>
      refine Iff.trans ?_ (keepMembers_eq_self_iff h).symm
      refine forall_congr' fun child => forall_congr' fun hchild => ?_
      obtain ⟨source, _, hkept⟩ := exists_of_mem_children h hchild
      rw [ih hkept]

def Segment.isFilter : Segment → Bool
  | filter _ => true
  | _ => false

/-- A member that a filter in the last place keeps is kept whole. -/
theorem settled_of_filters_last {segments : List Segment}
    (hlast : ∀ segment ∈ segments.dropLast, segment.isFilter = false) {node kept : Json}
    (h : rebuild segments node = some kept) : Settled segments kept := by
  induction segments generalizing node kept with
  | nil => trivial
  | cons segment rest ih =>
    have hrest : ∀ segment ∈ rest.dropLast, segment.isFilter = false := by
      intro other hother
      refine hlast other ?_
      cases rest with
      | nil => contradiction
      | cons next rest => exact List.mem_cons_of_mem _ hother
    have hkeys {names : List String} (h : rebuild (.keys names :: rest) node = some kept) :
        Settled (.keys names :: rest) kept := by
      refine (nest_of_keepNamed h).mono ?_
      intro fields hsource child hchild
      obtain ⟨source, hkept⟩ := hsource child hchild
      exact ih hrest hkept
    cases segment with
    | key name =>
      rw [rebuild_key] at h
      exact hkeys h
    | keys names => exact hkeys h
    | wildcard =>
      intro child hchild
      obtain ⟨source, _, hkept⟩ := exists_of_mem_children h hchild
      exact ih hrest hkept
    | filter condition =>
      cases rest with
      | nil =>
        intro child hchild
        obtain ⟨source, hcondition, hkept⟩ := exists_of_mem_children h hchild
        exact ⟨Option.some.inj hkept ▸ hcondition, trivial⟩
      | cons next rest => exact nomatch hlast (.filter condition) List.mem_cons_self

end DocQuery
