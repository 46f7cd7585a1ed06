import DocQuery.Proofs.Path.Joining
import DocQuery.Proofs.Projection.Elements
import DocQuery.Proofs.Query.Composition

/- The sentinel as the path of a projection. Main statement: it stands for no path, in each way to
run a projection, just where no blank stands at its ends; for a path text is trimmed before it is
compared, and the sentinel is not. -/

namespace DocQuery

/-- An element without what no implicit field holds. -/
inductive Projection.Reduced (options : Options) : Json → Json → Prop
  | object {fields kept : Fields} : kept.Distinct →
    (∀ key, kept.get? key = if key ∈ options.implicitFields then fields.get? key else none) →
    Reduced options (.object fields) (.object kept)
  | other {element : Json} : (∀ fields, element ≠ .object fields) → Reduced options element .null

/-- A projection to the sentinel succeeds and keeps the implicit fields: run by itself, behind other
operations in a query, and behind other stages in a pipeline. -/
structure Options.SentinelWorks (options : Options) : Prop where
  run : ∀ document, ((Operation.fields options.sentinel).run options document).result =
    .ok (Projection.implicitOnly.apply options document)
  query : ∀ document ops middle, (query options document ops).result = .ok middle →
    (DocQuery.query options document (ops ++ [.fields options.sentinel])).result =
      .ok (Projection.implicitOnly.apply options middle)
  pipeline : ∀ ops pipeline, Pipeline.compile options ops = .ok pipeline →
    ∃ longer, Pipeline.compile options (ops ++ [.fields options.sentinel]) = .ok longer ∧
      ∀ document, longer.run document =
        Projection.implicitOnly.apply options (pipeline.run document)

namespace Projection

theorem reduced_element (options : Options) (element : Json) :
    Reduced options element (implicitOnly.element options element) := by
  cases element with
  | object fields =>
    exact .object (distinct_implicitPart options fields) (get?_implicitPart options fields)
  | _ => exact .other fun fields => by simp

theorem forall₂_reduced (options : Options) (items : List Json) :
    List.Forall₂ (Reduced options) items (items.map (implicitOnly.element options)) := by
  rw [List.forall₂_map_right_iff, List.forall₂_same]
  exact fun element _ => reduced_element options element

theorem parse_self {sentinel : String} (h : Text.trim sentinel.toList = sentinel.toList) :
    parse sentinel sentinel = .ok .implicitOnly := if_pos h

theorem rebuild_empty (segments : List Segment) :
    rebuild segments (.array []) = some (.array []) := by
  cases segments with
  | nil => rfl
  | cons segment rest =>
    cases segment with
    | key name => rfl
    | keys names => rfl
    | wildcard => rfl
    | filter condition => rfl

end Projection

variable {options : Options}

theorem Pipeline.exists_compile_concat {ops : List Operation} {op : Operation} {stage : Stage}
    {pipeline : Pipeline} (h : compile options ops = .ok pipeline)
    (hop : op.compile options = .ok stage) :
    ∃ longer, compile options (ops ++ [op]) = .ok longer ∧
      ∀ document, longer.run document = stage.apply options (pipeline.run document) := by
  have hlast : compile options [op] = .ok ⟨options, [stage]⟩ :=
    compile_eq_ok_iff.mpr ⟨_, mapM_cons_ok_iff.mpr ⟨_, _, hop, rfl, rfl⟩, rfl⟩
  have hrun (document : Json) : (Pipeline.mk options (pipeline.stages ++ [stage])).run document =
      stage.apply options (pipeline.run document) := by
    obtain ⟨stages, _, rfl⟩ := compile_eq_ok_iff.mp h
    exact List.foldl_append
  exact ⟨_, compile_append_eq_ok_iff.mpr ⟨_, _, h, hlast, rfl, hrun⟩, hrun⟩

theorem result_query_eq_ok_iff {ops : List Operation} {document result : Json} :
    (query options document ops).result = .ok result ↔
      ∃ pipeline, Pipeline.compile options ops = .ok pipeline ∧ pipeline.run document = result := by
  constructor
  · intro h
    cases hops : ops.mapM (Operation.compile options) with
    | ok stages =>
      rw [query, queryFrom_of_mapM hops] at h
      exact ⟨_, Pipeline.compile_eq_ok_iff.mpr ⟨stages, hops, rfl⟩, Except.ok.inj h⟩
    | error e =>
      rw [query, result_queryFrom_of_firstFailure (firstFailure_of_mapM hops)] at h
      contradiction
  · rintro ⟨pipeline, hcompile, rfl⟩
    obtain ⟨stages, hops, rfl⟩ := Pipeline.compile_eq_ok_iff.mp hcompile
    rw [query, queryFrom_of_mapM hops]

namespace Options

theorem sentinelWorks_of_trim (h : Text.trim options.sentinel.toList = options.sentinel.toList) :
    options.SentinelWorks := by
  have hcompile := Operation.compile_fields (Projection.parse_self h)
  refine ⟨?_, ?_, ?_⟩
  · intro document
    rw [Operation.run, hcompile]
    rfl
  · intro document ops middle hquery
    obtain ⟨pipeline, hops, rfl⟩ := result_query_eq_ok_iff.mp hquery
    obtain ⟨longer, hlonger, hrun⟩ := Pipeline.exists_compile_concat hops hcompile
    exact result_query_eq_ok_iff.mpr ⟨longer, hlonger, hrun document⟩
  · intro ops pipeline hops
    exact Pipeline.exists_compile_concat hops hcompile

/-- A sentinel that is trimmed when it is given as a path is read as a path of keys. Such a path
keeps an empty array as it is, and no path keeps nothing of it. -/
theorem trim_of_sentinelWorks (h : options.SentinelWorks) :
    Text.trim options.sentinel.toList = options.sentinel.toList := by
  refine Decidable.byContradiction fun hne => ?_
  have hrun := h.run (.array [.array []])
  rw [Operation.run, Operation.compile, Projection.parse, if_neg hne] at hrun
  cases hparse : Path.parse options.sentinel with
  | error cause =>
    rw [hparse] at hrun
    contradiction
  | ok path =>
    rw [hparse] at hrun
    have hkept : (Projection.along path).element options (.array []) = .array [] := by
      show (rebuild path.segments (.array [])).getD .null = _
      rw [Projection.rebuild_empty]
      rfl
    have hitems : (Projection.along path).apply options (.array [.array []]) = .array [.null] :=
      Except.ok.inj hrun
    rw [Projection.apply, List.map_singleton, hkept] at hitems
    simp at hitems

/-- The sentinel works for every document just where no blank stands at its ends. A projection
without a path then reduces each object to its implicit fields and anything else to null. -/
theorem sentinelWorks_iff (options : Options) :
    (options.SentinelWorks ↔ Stops Text.isBlank options.sentinel.toList ∧
      Stops Text.isBlank options.sentinel.toList.reverse) ∧
    (∀ items, ∃ outputs, Projection.implicitOnly.apply options (.array items) = .array outputs ∧
      List.Forall₂ (Projection.Reduced options) items outputs) ∧
    ∀ document, (∀ items, document ≠ .array items) →
      Projection.Reduced options document (Projection.implicitOnly.apply options document) := by
  refine ⟨?_, ?_, ?_⟩
  · rw [← trim_eq_self_iff]
    exact ⟨trim_of_sentinelWorks, sentinelWorks_of_trim⟩
  · exact fun items => ⟨_, rfl, Projection.forall₂_reduced options items⟩
  · intro document hdocument
    rw [Projection.apply_of_ne_array hdocument]
    exact Projection.reduced_element options document

/-- An empty sentinel works, though no path is empty. -/
theorem sentinelWorks_empty :
    Stops Text.isBlank "".toList ∧ Stops Text.isBlank "".toList.reverse ∧
    SentinelWorks ⟨["id"], ""⟩ ∧
    Projection.Reduced ⟨["id"], ""⟩ (.object [("id", .string "7"), ("none", .bool true)])
      (.object [("id", .string "7")]) := by
  have hstops : Stops Text.isBlank "".toList := .nil
  refine ⟨hstops, hstops, (sentinelWorks_iff ⟨["id"], ""⟩).1.mpr ⟨hstops, hstops⟩, ?_⟩
  exact (sentinelWorks_iff ⟨["id"], ""⟩).2.2
    (.object [("id", .string "7"), ("none", .bool true)]) fun items h => by cases h

/-- A sentinel between blanks is read as a key. -/
theorem not_sentinelWorks_padded :
    (query ⟨["id"], " none "⟩ (.object [("id", .string "7"), ("none", .bool true)])
        [.fields " none "]).result =
      .ok (.object [("id", .string "7"), ("none", .bool true)]) ∧
    Projection.implicitOnly.apply ⟨["id"], " none "⟩
        (.object [("id", .string "7"), ("none", .bool true)]) = .object [("id", .string "7")] ∧
    ¬ SentinelWorks ⟨["id"], " none "⟩ := by
  refine ⟨rfl, rfl, fun h => ?_⟩
  have hquery := h.query (.object [("id", .string "7"), ("none", .bool true)]) [] _ rfl
  have hsame : Json.object [("id", .string "7"), ("none", .bool true)] =
      .object [("id", .string "7")] := Except.ok.inj hquery
  simp at hsame

end Options
end DocQuery
