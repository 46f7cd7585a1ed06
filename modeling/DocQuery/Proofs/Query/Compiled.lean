import DocQuery.Pipeline

/- Queries and compiled pipelines. Main statement: a query gives and reports what its compiled
pipeline does, or fails with the error of the first operation whose path does not parse. -/

namespace DocQuery

/-- The path of an operation does not parse. Only a projection knows the sentinel. -/
def Operation.PathFails (options : Options) (cause : SyntaxError) : Operation → Prop
  | .fields path => Projection.parse options.sentinel path = .error cause
  | .filter path _ _ => Path.parse path = .error cause
  | .sort path _ => Path.parse path = .error cause

/-- The error of the first operation whose path does not parse. -/
inductive FirstFailure (options : Options) : List Operation → QueryError → Prop
  | head {op : Operation} {ops : List Operation} {cause : SyntaxError} :
      op.PathFails options cause → FirstFailure options (op :: ops) (.pathSyntax op.path cause)
  | tail {op : Operation} {ops : List Operation} {e : QueryError} :
      (∀ cause, ¬ op.PathFails options cause) → FirstFailure options ops e →
      FirstFailure options (op :: ops) e

section Bind

variable {ε α β : Type} {x : Except ε α} {f : α → Except ε β}

theorem bind_eq_ok_iff {b : β} : x >>= f = .ok b ↔ ∃ a, x = .ok a ∧ f a = .ok b := by
  cases x with
  | ok a => simp [bind, Except.bind]
  | error e => simp [bind, Except.bind]

theorem bind_eq_error_iff {e : ε} :
    x >>= f = .error e ↔ x = .error e ∨ ∃ a, x = .ok a ∧ f a = .error e := by
  cases x with
  | ok a => simp [bind, Except.bind]
  | error e => simp [bind, Except.bind]

end Bind

theorem mapError_map_eq_error_iff {α β ε δ : Type} {x : Except ε α} {f : α → β} {g : ε → δ}
    {e : δ} : (x.map f).mapError g = .error e ↔ ∃ cause, x = .error cause ∧ e = g cause := by
  constructor
  · intro h
    cases x with
    | error cause => exact ⟨cause, rfl, (Except.error.inj h).symm⟩
    | ok a => cases h
  · rintro ⟨cause, rfl, rfl⟩
    rfl

namespace Operation

theorem compile_eq_error_iff {options : Options} {op : Operation} {e : QueryError} :
    op.compile options = .error e ↔
      ∃ cause, op.PathFails options cause ∧ e = .pathSyntax op.path cause := by
  cases op with
  | fields path => exact mapError_map_eq_error_iff
  | filter path limit offset => exact mapError_map_eq_error_iff
  | sort path direction => exact mapError_map_eq_error_iff

theorem not_pathFails_of_compile {options : Options} {op : Operation} {stage : Stage}
    (h : op.compile options = .ok stage) (cause : SyntaxError) : ¬ op.PathFails options cause := by
  intro hfails
  have herror := compile_eq_error_iff.mpr ⟨cause, hfails, rfl⟩
  rw [h] at herror
  contradiction

theorem compile_fields {options : Options} {text : String} {projection : Projection}
    (h : Projection.parse options.sentinel text = .ok projection) :
    (fields text).compile options = .ok (.fields projection) := by
  rw [compile, h]
  rfl

theorem compile_filter {text : String} {path : Path} (h : Path.parse text = .ok path)
    (options : Options) (limit offset : Option UInt64) :
    (filter text limit offset).compile options = .ok (.filter path limit offset) := by
  rw [compile, h]
  rfl

theorem compile_sort {text : String} {path : Path} (h : Path.parse text = .ok path)
    (options : Options) (direction : Direction) :
    (sort text direction).compile options = .ok (.sort path direction) := by
  rw [compile, h]
  rfl

end Operation

theorem mapM_cons_ok_iff {α β ε : Type} {f : α → Except ε β} {a : α} {as : List α}
    {bs : List β} : (a :: as).mapM f = .ok bs ↔
      ∃ b rest, f a = .ok b ∧ as.mapM f = .ok rest ∧ bs = b :: rest := by
  rw [List.mapM_cons]
  constructor
  · intro h
    cases ha : f a with
    | error e =>
      rw [ha] at h
      contradiction
    | ok b =>
      cases has : as.mapM f with
      | error e =>
        rw [ha, has] at h
        contradiction
      | ok rest =>
        rw [ha, has] at h
        exact ⟨b, rest, rfl, rfl, (Except.ok.inj h).symm⟩
  · rintro ⟨b, rest, ha, has, rfl⟩
    rw [ha, has]
    rfl

theorem firstFailure_of_mapM {options : Options} {ops : List Operation} {e : QueryError}
    (h : ops.mapM (Operation.compile options) = .error e) : FirstFailure options ops e := by
  induction ops with
  | nil => contradiction
  | cons op ops ih =>
    rw [List.mapM_cons] at h
    cases hop : op.compile options with
    | error e' =>
      rw [hop] at h
      obtain ⟨cause, hfails, rfl⟩ := Operation.compile_eq_error_iff.mp hop
      cases h
      exact .head hfails
    | ok stage =>
      refine .tail (Operation.not_pathFails_of_compile hop) (ih ?_)
      cases hops : ops.mapM (Operation.compile options) with
      | error e' =>
        rw [hop, hops] at h
        exact h
      | ok stages =>
        rw [hop, hops] at h
        contradiction

theorem queryFrom_cons_ok {options : Options} {op : Operation} {stage : Stage}
    (h : op.compile options = .ok stage) (index : Nat) (document : Json) (ops : List Operation) :
    queryFrom options index document (op :: ops) =
      (queryFrom options (index + 1) (stage.apply options document) ops).after
        (stage.events options index document) := by
  rw [queryFrom, h]

theorem queryFrom_cons_error {options : Options} {op : Operation} {e : QueryError}
    (h : op.compile options = .error e) (index : Nat) (document : Json) (ops : List Operation) :
    queryFrom options index document (op :: ops) = ⟨[.aborting index (some op.kind) e], .error e⟩ := by
  rw [queryFrom, h]

theorem result_query_single {options : Options} {op : Operation} {stage : Stage}
    (h : op.compile options = .ok stage) (document : Json) :
    (query options document [op]).result = .ok (stage.apply options document) := by
  rw [query, queryFrom_cons_ok h]
  rfl

theorem result_query_pair {options : Options} {first second : Operation}
    {stage stage' : Stage} (h : first.compile options = .ok stage)
    (h' : second.compile options = .ok stage') (document : Json) :
    (query options document [first, second]).result =
      .ok (stage'.apply options (stage.apply options document)) := by
  rw [query, queryFrom_cons_ok h, queryFrom_cons_ok h']
  rfl

theorem queryFrom_of_mapM {options : Options} {ops : List Operation} {stages : List Stage}
    (h : ops.mapM (Operation.compile options) = .ok stages) (index : Nat) (document : Json) :
    queryFrom options index document ops =
      ⟨Pipeline.logFrom options index document stages,
        .ok ((Pipeline.mk options stages).run document)⟩ := by
  induction ops generalizing stages index document with
  | nil =>
    cases h
    rfl
  | cons op ops ih =>
    obtain ⟨stage, rest, hop, hops, rfl⟩ := mapM_cons_ok_iff.mp h
    rw [queryFrom_cons_ok hop, ih hops]
    rfl

/-- An operation that fails ends the query, whatever the operations before it make of the
document. -/
theorem result_queryFrom_of_firstFailure {options : Options} {ops : List Operation}
    {e : QueryError} (h : FirstFailure options ops e) (index : Nat) (document : Json) :
    (queryFrom options index document ops).result = .error e := by
  induction h generalizing index document with
  | head hfails =>
    rw [queryFrom_cons_error (Operation.compile_eq_error_iff.mpr ⟨_, hfails, rfl⟩)]
  | @tail op ops e hparses hrest ih =>
    cases hop : op.compile options with
    | error e' =>
      obtain ⟨cause, hfails, _⟩ := Operation.compile_eq_error_iff.mp hop
      exact absurd hfails (hparses cause)
    | ok stage =>
      rw [queryFrom_cons_ok hop]
      exact ih (index + 1) (stage.apply options document)

/-- Where the operations compile, a query ends with what the pipeline makes of the document, after
the same events. Where they do not, it fails with the same error, that of the first operation
whose path does not parse. -/
theorem query_compile (options : Options) (ops : List Operation) (document : Json) :
    (∀ pipeline, Pipeline.compile options ops = .ok pipeline →
      query options document ops = ⟨pipeline.log document, .ok (pipeline.run document)⟩) ∧
    (∀ e, Pipeline.compile options ops = .error e →
      FirstFailure options ops e ∧ (query options document ops).result = .error e) := by
  unfold Pipeline.compile
  cases hops : ops.mapM (Operation.compile options) with
  | ok stages =>
    constructor
    · intro pipeline h
      cases h
      exact queryFrom_of_mapM hops 0 document
    · intro e h
      contradiction
  | error e' =>
    constructor
    · intro pipeline h
      contradiction
    · intro e h
      cases h
      have hfirst := firstFailure_of_mapM hops
      exact ⟨hfirst, result_queryFrom_of_firstFailure hfirst 0 document⟩

end DocQuery
