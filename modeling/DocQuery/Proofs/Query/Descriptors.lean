import DocQuery.Proofs.Query.Compiled

/- Queries given as descriptors. Main statement: they do what the operations that are described do,
up to the first descriptor that fails. -/

namespace DocQuery

/-- A descriptor fails: it describes no operation, or one whose path does not parse. -/
inductive DescriptorFails (options : Options) (descriptor : Json) : QueryError → Prop
  | unreadable {e : QueryError} : Operation.ofJson descriptor = .error e →
      DescriptorFails options descriptor e
  | path {op : Operation} {cause : SyntaxError} : Operation.ofJson descriptor = .ok op →
      op.PathFails options cause → DescriptorFails options descriptor (.pathSyntax op.path cause)

/-- The first descriptor that fails stands at place `i`. -/
structure FirstFailsAt (options : Options) (descriptors : List Json) (i : Nat) (e : QueryError) :
    Prop where
  fails : ∃ descriptor, descriptors[i]? = some descriptor ∧ DescriptorFails options descriptor e
  sound_before : ∀ descriptor ∈ descriptors.take i, ∀ e', ¬ DescriptorFails options descriptor e'

def Outcome.andThen (outcome : Outcome) (next : Json → Outcome) : Outcome :=
  match outcome.result with
  | .ok document => (next document).after outcome.log
  | .error _ => outcome

namespace Outcome

theorem result_andThen (outcome : Outcome) (next : Json → Outcome) :
    (outcome.andThen next).result = outcome.result >>= fun document => (next document).result := by
  obtain ⟨log, result⟩ := outcome
  cases result with
  | ok document => rfl
  | error e => rfl

theorem after_andThen (events : List Event) (outcome : Outcome) (next : Json → Outcome) :
    (outcome.after events).andThen next = (outcome.andThen next).after events := by
  obtain ⟨log, result⟩ := outcome
  cases result with
  | ok document => simp [andThen, after, List.append_assoc]
  | error e => rfl

end Outcome

variable {options : Options}

theorem descriptorFails_iff {descriptor : Json} {e : QueryError} :
    DescriptorFails options descriptor e ↔
      (Operation.ofJson descriptor >>= Operation.compile options) = .error e := by
  constructor
  · intro h
    cases h with
    | unreadable h =>
      rw [h]
      rfl
    | path hop hfails =>
      rw [hop]
      exact Operation.compile_eq_error_iff.mpr ⟨_, hfails, rfl⟩
  · intro h
    cases hop : Operation.ofJson descriptor with
    | error e' =>
      rw [hop] at h
      cases h
      exact .unreadable hop
    | ok op =>
      rw [hop] at h
      obtain ⟨cause, hfails, rfl⟩ := Operation.compile_eq_error_iff.mp h
      exact .path hop hfails

theorem queryDescriptorsFrom_cons_ok {descriptor : Json} {op : Operation} {stage : Stage}
    (hread : Operation.ofJson descriptor = .ok op) (hcompile : op.compile options = .ok stage)
    (index : Nat) (document : Json) (descriptors : List Json) :
    queryDescriptorsFrom options index document (descriptor :: descriptors) =
      (queryDescriptorsFrom options (index + 1) (stage.apply options document) descriptors).after
        (stage.events options index document) := by
  have hstage : (Operation.ofJson descriptor >>= Operation.compile options) = .ok stage := by
    rw [hread]
    exact hcompile
  rw [queryDescriptorsFrom, hstage]

theorem queryDescriptorsFrom_cons_error {descriptor : Json} {e : QueryError}
    (h : DescriptorFails options descriptor e) (index : Nat) (document : Json)
    (descriptors : List Json) :
    queryDescriptorsFrom options index document (descriptor :: descriptors) =
      ⟨[.aborting index none e], .error e⟩ := by
  rw [queryDescriptorsFrom, descriptorFails_iff.mp h]

theorem exists_stages {descriptors : List Json}
    (h : ∀ descriptor ∈ descriptors, ∀ e, ¬ DescriptorFails options descriptor e) :
    ∃ ops stages, descriptors.mapM Operation.ofJson = .ok ops ∧
      ops.mapM (Operation.compile options) = .ok stages := by
  induction descriptors with
  | nil => exact ⟨[], [], rfl, rfl⟩
  | cons descriptor descriptors ih =>
    rw [List.forall_mem_cons] at h
    obtain ⟨ops, stages, hreads, hcompiles⟩ := ih h.2
    cases hread : Operation.ofJson descriptor with
    | error e => exact absurd (.unreadable hread) (h.1 e)
    | ok op =>
      cases hcompile : op.compile options with
      | error e =>
        obtain ⟨cause, hfails, _⟩ := Operation.compile_eq_error_iff.mp hcompile
        exact absurd (.path hread hfails) (h.1 _)
      | ok stage =>
        exact ⟨op :: ops, stage :: stages, mapM_cons_ok_iff.mpr ⟨_, _, hread, hreads, rfl⟩,
          mapM_cons_ok_iff.mpr ⟨_, _, hcompile, hcompiles, rfl⟩⟩

theorem queryDescriptorsFrom_of_mapM {descriptors : List Json} {ops : List Operation}
    {stages : List Stage} (hreads : descriptors.mapM Operation.ofJson = .ok ops)
    (hcompiles : ops.mapM (Operation.compile options) = .ok stages) (index : Nat)
    (document : Json) :
    queryDescriptorsFrom options index document descriptors =
      ⟨Pipeline.logFrom options index document stages,
        .ok ((Pipeline.mk options stages).run document)⟩ := by
  induction descriptors generalizing ops stages index document with
  | nil =>
    cases hreads
    cases hcompiles
    rfl
  | cons descriptor descriptors ih =>
    obtain ⟨op, ops, hread, hdescriptors, rfl⟩ := mapM_cons_ok_iff.mp hreads
    obtain ⟨stage, stages, hcompile, hops, rfl⟩ := mapM_cons_ok_iff.mp hcompiles
    rw [queryDescriptorsFrom_cons_ok hread hcompile, ih hdescriptors hops]
    rfl

theorem queryDescriptorsFrom_andThen (index : Nat) (document : Json) (front back : List Json) :
    queryDescriptorsFrom options index document (front ++ back) =
      (queryDescriptorsFrom options index document front).andThen fun middle =>
        queryDescriptorsFrom options (index + front.length) middle back := by
  induction front generalizing index document with
  | nil => rfl
  | cons descriptor front ih =>
    rw [List.cons_append, queryDescriptorsFrom, queryDescriptorsFrom]
    cases Operation.ofJson descriptor >>= Operation.compile options with
    | error e => rfl
    | ok stage =>
      simp only [ih, Outcome.after_andThen, List.length_cons, Nat.add_assoc, Nat.add_comm 1]

theorem exists_query_front {front : List Json}
    (h : ∀ descriptor ∈ front, ∀ e, ¬ DescriptorFails options descriptor e) (document : Json)
    (rest : List Json) :
    ∃ ops document', front.mapM Operation.ofJson = .ok ops ∧
      (query options document ops).result = .ok document' ∧
      queryDescriptorsFrom options 0 document (front ++ rest) =
        (queryDescriptorsFrom options front.length document' rest).after
          (query options document ops).log := by
  obtain ⟨ops, stages, hreads, hcompiles⟩ := exists_stages h
  have hquery := queryFrom_of_mapM hcompiles 0 document
  refine ⟨ops, (Pipeline.mk options stages).run document, hreads, ?_, ?_⟩
  · rw [query, hquery]
  · rw [query, hquery, queryDescriptorsFrom_andThen, queryDescriptorsFrom_of_mapM hreads hcompiles,
      Nat.zero_add]
    rfl

/-- Where no descriptor fails, they do all that their operations do. Otherwise the first one that
fails ends the query: its error is reported once, after all that the operations before it report.
What is no list of descriptors is refused at once. -/
theorem queryJson_eq_query (options : Options) (document operations : Json) :
    ((∀ descriptors, operations ≠ .array descriptors) →
      queryJson options document operations =
        ⟨[], .error (.invalidDescriptor (.notAList operations))⟩) ∧
    ∀ descriptors, operations = .array descriptors →
      (∀ i e, FirstFailsAt options descriptors i e →
        ∃ ops, (descriptors.take i).mapM Operation.ofJson = .ok ops ∧
          queryJson options document operations =
            ⟨(query options document ops).log ++ [.aborting i none e], .error e⟩) ∧
      ((∀ descriptor ∈ descriptors, ∀ e, ¬ DescriptorFails options descriptor e) →
        ∃ ops, descriptors.mapM Operation.ofJson = .ok ops ∧
          queryJson options document operations = query options document ops) := by
  refine ⟨?_, ?_⟩
  · intro hlist
    cases operations with
    | array descriptors => exact absurd rfl (hlist descriptors)
    | _ => rfl
  · rintro descriptors rfl
    refine ⟨?_, ?_⟩
    · intro i e hfirst
      obtain ⟨descriptor, hget, hfails⟩ := hfirst.fails
      obtain ⟨hi, hdescriptor⟩ := List.getElem?_eq_some_iff.mp hget
      have hsplit : descriptors = descriptors.take i ++ descriptor :: descriptors.drop (i + 1) := by
        rw [← hdescriptor, List.getElem_cons_drop, List.take_append_drop]
      obtain ⟨ops, document', hreads, _, hrun⟩ := exists_query_front hfirst.sound_before document
        (descriptor :: descriptors.drop (i + 1))
      rw [← hsplit, queryDescriptorsFrom_cons_error hfails,
        List.length_take_of_le (Nat.le_of_lt hi)] at hrun
      exact ⟨ops, hreads, hrun⟩
    · intro hsound
      obtain ⟨ops, document', hreads, hresult, hrun⟩ := exists_query_front hsound document []
      rw [List.append_nil, queryDescriptorsFrom, ← hresult, Outcome.after, List.append_nil] at hrun
      exact ⟨ops, hreads, hrun⟩

end DocQuery
