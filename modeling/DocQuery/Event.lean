import DocQuery.Error
import DocQuery.Operation.Basic
import DocQuery.Path.Printer

/- What a query reports while it runs. -/

namespace DocQuery

inductive Level where
  | trace
  | debug
  | warn
deriving DecidableEq

inductive Event where
  | reachedNothing (path : Path)
  | filtered (path : Path) (total kept : Nat)
  | noCollection (path : Path)
  /-- A stage gave a result with so many members. -/
  | stageDone (stage : Nat) (kind : OperationKind) (path : String) (size : Nat)
  /-- A stage failed; its kind is known if its descriptor was read before. -/
  | aborting (stage : Nat) (kind : Option OperationKind) (error : QueryError)

inductive Attribute where
  | count (n : Nat)
  | text (s : String)

namespace Event

def level : Event → Level
  | reachedNothing _ => .trace
  | filtered _ _ _ => .trace
  | noCollection _ => .trace
  | stageDone _ _ _ _ => .debug
  | aborting _ _ _ => .warn

def message : Event → String
  | reachedNothing _ => "path reached nothing, keeping implicit fields only"
  | filtered _ _ _ => "filter"
  | noCollection _ => "no collection to sort"
  | stageDone _ _ _ _ => "stage done"
  | aborting _ _ _ => "aborting query"

def attributes : Event → List (String × Attribute)
  | reachedNothing path => [("path", .text (toString path))]
  | filtered path total kept =>
    [("path", .text (toString path)), ("total", .count total), ("kept", .count kept)]
  | noCollection path => [("path", .text (toString path))]
  | stageDone stage kind path size =>
    [("stage", .count stage), ("op", .text kind.name), ("path", .text path), ("size", .count size)]
  | aborting stage kind error =>
    ("stage", .count stage) ::
      ((kind.map fun kind => ("op", .text kind.name)).toList ++ [("error", .text error.message)])

end Event

def Level.name : Level → String
  | trace => "TRACE"
  | debug => "DEBUG"
  | warn => "WARN"

end DocQuery
