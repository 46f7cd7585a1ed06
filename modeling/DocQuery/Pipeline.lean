import DocQuery.Operation.Decode
import DocQuery.Stage

/- Queries: operations run one after the other, each on the result of the one before. -/

namespace DocQuery

structure Outcome where
  log : List Event
  result : Except QueryError Json

namespace Outcome

def after (events : List Event) (outcome : Outcome) : Outcome :=
  { outcome with log := events ++ outcome.log }

end Outcome

/-- What stage number `index` reports on a document. -/
def Stage.events (options : Options) (index : Nat) (stage : Stage) (document : Json) : List Event :=
  stage.remarks document ++
    [.stageDone index stage.kind (stage.describePath options) (stage.apply options document).size]

def Operation.run (options : Options) (op : Operation) (document : Json) : Outcome :=
  match op.compile options with
  | .error e => ⟨[], .error e⟩
  | .ok stage => ⟨stage.remarks document, .ok (stage.apply options document)⟩

/-- Runs operations from stage number `index` on, each compiled when it is reached. The first one
that fails ends the query. -/
def queryFrom (options : Options) (index : Nat) (document : Json) : List Operation → Outcome
  | [] => ⟨[], .ok document⟩
  | op :: ops =>
    match op.compile options with
    | .error e => ⟨[.aborting index (some op.kind) e], .error e⟩
    | .ok stage =>
      (queryFrom options (index + 1) (stage.apply options document) ops).after
        (stage.events options index document)

def query (options : Options) (document : Json) (ops : List Operation) : Outcome :=
  queryFrom options 0 document ops

/-- Runs descriptors from stage number `index` on, each read when it is reached. -/
def queryDescriptorsFrom (options : Options) (index : Nat) (document : Json) :
    List Json → Outcome
  | [] => ⟨[], .ok document⟩
  | descriptor :: descriptors =>
    match Operation.ofJson descriptor >>= Operation.compile options with
    | .error e => ⟨[.aborting index none e], .error e⟩
    | .ok stage =>
      (queryDescriptorsFrom options (index + 1) (stage.apply options document) descriptors).after
        (stage.events options index document)

def queryJson (options : Options) (document : Json) : Json → Outcome
  | .array descriptors => queryDescriptorsFrom options 0 document descriptors
  | operations => ⟨[], .error (.invalidDescriptor (.notAList operations))⟩

/-- Operations compiled once, to be run on any number of documents. -/
structure Pipeline where
  options : Options
  stages : List Stage

namespace Pipeline

def compile (options : Options) (ops : List Operation) : Except QueryError Pipeline :=
  (ops.mapM (Operation.compile options)).map fun stages => ⟨options, stages⟩

def length (pipeline : Pipeline) : Nat := pipeline.stages.length

def isEmpty (pipeline : Pipeline) : Bool := pipeline.stages.isEmpty

def run (pipeline : Pipeline) (document : Json) : Json :=
  pipeline.stages.foldl (fun document stage => stage.apply pipeline.options document) document

def logFrom (options : Options) (index : Nat) (document : Json) : List Stage → List Event
  | [] => []
  | stage :: stages =>
    stage.events options index document ++
      logFrom options (index + 1) (stage.apply options document) stages

def log (pipeline : Pipeline) (document : Json) : List Event :=
  logFrom pipeline.options 0 document pipeline.stages

end Pipeline
end DocQuery
