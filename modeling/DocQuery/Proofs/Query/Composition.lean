import DocQuery.Proofs.Query.Descriptors

/- Queries in parts. Main statement: a query by two lists of descriptors is a query by the first and
then, on its result, by the second, and a pipeline of two lists is one pipeline after the other. -/

namespace DocQuery

variable {options : Options}

/-- The stage number shows in the log only. -/
theorem result_queryDescriptorsFrom (index : Nat) (document : Json) (descriptors : List Json) :
    (queryDescriptorsFrom options index document descriptors).result =
      (queryJson options document (.array descriptors)).result := by
  rw [queryJson]
  generalize 0 = other
  induction descriptors generalizing index other document with
  | nil => rfl
  | cons descriptor descriptors ih =>
    rw [queryDescriptorsFrom, queryDescriptorsFrom]
    cases Operation.ofJson descriptor >>= Operation.compile options with
    | error e => rfl
    | ok stage => exact ih (index + 1) (stage.apply options document) (other + 1)

theorem result_queryJson_append (document : Json) (front back : List Json) :
    (queryJson options document (.array (front ++ back))).result =
      (queryJson options document (.array front)).result >>= fun middle =>
        (queryJson options middle (.array back)).result := by
  rw [queryJson, queryDescriptorsFrom_andThen, Outcome.result_andThen]
  simp only [result_queryDescriptorsFrom]

theorem result_queryJson_eq_foldlM (document : Json) (descriptors : List Json) :
    (queryJson options document (.array descriptors)).result =
      descriptors.foldlM
        (fun middle descriptor => (queryJson options middle (.array [descriptor])).result)
        document := by
  induction descriptors generalizing document with
  | nil => rfl
  | cons descriptor descriptors ih =>
    rw [List.foldlM_cons, ← List.singleton_append, result_queryJson_append]
    simp only [ih]

namespace Pipeline

variable {options : Options} {ops ops' : List Operation}

theorem compile_eq_ok_iff {pipeline : Pipeline} : compile options ops = .ok pipeline ↔
    ∃ stages, ops.mapM (Operation.compile options) = .ok stages ∧
      pipeline = ⟨options, stages⟩ := by
  unfold compile
  cases ops.mapM (Operation.compile options) with
  | ok stages => simp [Except.map, eq_comm]
  | error e => simp [Except.map]

theorem compile_append_eq_ok_iff {whole : Pipeline} :
    compile options (ops ++ ops') = .ok whole ↔
      ∃ first second, compile options ops = .ok first ∧ compile options ops' = .ok second ∧
        whole = ⟨options, first.stages ++ second.stages⟩ ∧
        ∀ document, whole.run document = second.run (first.run document) := by
  simp only [compile_eq_ok_iff, List.mapM_append, bind_eq_ok_iff]
  constructor
  · rintro ⟨_, ⟨stages, hstages, stages', hstages', happend⟩, rfl⟩
    cases happend
    exact ⟨_, _, ⟨stages, hstages, rfl⟩, ⟨stages', hstages', rfl⟩, rfl,
      fun document => List.foldl_append⟩
  · rintro ⟨_, _, ⟨stages, hstages, rfl⟩, ⟨stages', hstages', rfl⟩, rfl, _⟩
    exact ⟨_, ⟨stages, hstages, stages', hstages', rfl⟩, rfl⟩

end Pipeline

/-- A query by two lists of descriptors succeeds where the query by the first one does and the query
of its result by the second one does, with the same result, and fails with the first error of
theirs. So descriptors may be handed over one at a time, and a pipeline of two lists of operations
runs as the pipelines of both, one after the other. -/
theorem queryJson_append (options : Options) (document : Json) (front back : List Json) :
    (∀ result, (queryJson options document (.array (front ++ back))).result = .ok result ↔
      ∃ middle, (queryJson options document (.array front)).result = .ok middle ∧
        (queryJson options middle (.array back)).result = .ok result) ∧
    (∀ e, (queryJson options document (.array (front ++ back))).result = .error e ↔
      (queryJson options document (.array front)).result = .error e ∨
      ∃ middle, (queryJson options document (.array front)).result = .ok middle ∧
        (queryJson options middle (.array back)).result = .error e) ∧
    (∀ descriptors, (queryJson options document (.array descriptors)).result =
      descriptors.foldlM
        (fun middle descriptor => (queryJson options middle (.array [descriptor])).result)
        document) ∧
    (∀ (ops ops' : List Operation) (whole : Pipeline),
      Pipeline.compile options (ops ++ ops') = .ok whole ↔
      ∃ first second, Pipeline.compile options ops = .ok first ∧
        Pipeline.compile options ops' = .ok second ∧
        whole = ⟨options, first.stages ++ second.stages⟩ ∧
        ∀ document, whole.run document = second.run (first.run document)) := by
  rw [result_queryJson_append]
  exact ⟨fun result => bind_eq_ok_iff, fun e => bind_eq_error_iff,
    result_queryJson_eq_foldlM document, fun ops ops' whole => Pipeline.compile_append_eq_ok_iff⟩

end DocQuery
