import DocQuery.Proofs.Projection.Rebuild
import DocQuery.Proofs.Query.Compiled
import DocQuery.Proofs.Selection.Members
import DocQuery.Proofs.Sorting.Nested

/- The log of a query. Main statement: it tells the run, stage by stage, first what a stage remarks
and then its operation, its path and the size of what it gives. A query that fails warns of it last,
and nothing else warns. -/

namespace DocQuery

def keptCount (limit offset : Option UInt64) (total : Nat) : Nat :=
  let rest := total - offset.elim 0 UInt64.toNat
  limit.elim rest fun n => min n.toNat rest

def Path.unreachedCount (path : Path) (document : Json) : Nat :=
  (Stage.elements document).countP fun element =>
    element.isObject && (rebuild path.segments element).isNone

/-- The path that an operation shows, and what it remarks on its input. -/
inductive Operation.Remarks (options : Options) (input : Json) :
    Operation → String → List Event → Prop
  | implicitOnly {text : String} : Projection.parse options.sentinel text = .ok .implicitOnly →
      Remarks options input (.fields text) options.sentinel []
  | fields {text : String} {path : Path} :
      Projection.parse options.sentinel text = .ok (.along path) →
      Remarks options input (.fields text) (toString path)
        (List.replicate (path.unreachedCount input) (.reachedNothing path))
  | filter {text : String} {path : Path} {limit offset : Option UInt64} :
      Path.parse text = .ok path →
      Remarks options input (.filter text limit offset) (toString path)
        [.filtered path (path.matched input).length
          (keptCount limit offset (path.matched input).length)]
  | sort {text : String} {path : Path} {direction : Direction} :
      Path.parse text = .ok path → path.HasCollection input →
      Remarks options input (.sort text direction) (toString path) []
  | noSort {text : String} {path : Path} {direction : Direction} :
      Path.parse text = .ok path → ¬ path.HasCollection input →
      Remarks options input (.sort text direction) (toString path) [.noCollection path]

variable {options : Options}

namespace Operation

end Operation

/-- A stage that was run: what its operation makes of its input, and what it has to tell. -/
structure StageRun (options : Options) where
  op : Operation
  input : Json
  output : Json
  path : String
  remarks : List Event
  result_run : (op.run options input).result = .ok output
  remarks_run : op.Remarks options input path remarks

namespace StageRun

def done : StageRun options × Nat → Event
  | (run, index) => .stageDone index run.op.kind run.path run.output.size

def events : StageRun options × Nat → List Event
  | (run, index) => run.remarks ++ [done (run, index)]

end StageRun

section EventsAt

variable {outcome : Outcome} {runs : List (StageRun options × Nat)} {ending : List Event}

end EventsAt

example : query .default .null [.fields "none", .filter "" none none, .fields "a"] =
    ⟨[.stageDone 0 .fields "none" 1, .aborting 1 (some .filter) (.pathSyntax "" .emptyPath)],
      .error (.pathSyntax "" .emptyPath)⟩ := rfl

end DocQuery
