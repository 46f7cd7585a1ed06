import DocQuery.Event
import DocQuery.Path.Parser
import DocQuery.Projection

/- Stages: operations whose paths are parsed. Running one cannot fail. -/

namespace DocQuery

def page (limit offset : Option UInt64) (members : List Json) : List Json :=
  let rest := members.drop (offset.elim 0 UInt64.toNat)
  limit.elim rest fun n => rest.take n.toNat

/-- The members that a path reaches. A path that reaches a single array reaches its items. -/
def Path.members (path : Path) (document : Json) : List Json :=
  match path.selectValue? document with
  | some (.array items) => items
  | some value => [value]
  | none => []

inductive Stage where
  | fields (projection : Projection)
  | filter (path : Path) (limit offset : Option UInt64)
  | sort (path : Path) (direction : Direction)

namespace Stage

def kind : Stage → OperationKind
  | fields _ => .fields
  | filter _ _ _ => .filter
  | sort _ _ => .sort

/-- The canonical path; a projection without one shows the sentinel. -/
def describePath (options : Options) : Stage → String
  | fields projection => projection.render options.sentinel
  | filter path _ _ => toString path
  | sort path _ => toString path

def apply (options : Options) (stage : Stage) (document : Json) : Json :=
  match stage with
  | fields projection => projection.apply options document
  | filter path limit offset => .array (page limit offset (path.members document))
  | sort path direction => path.sort direction document

def elements : Json → List Json
  | .array items => items
  | document => [document]

def remarks (stage : Stage) (document : Json) : List Event :=
  match stage with
  | fields .implicitOnly => []
  | fields (.along path) =>
    ((elements document).filter (Projection.along path).misses).map fun _ => .reachedNothing path
  | filter path limit offset =>
    let members := path.members document
    [.filtered path members.length (page limit offset members).length]
  | sort path _ => if path.sortsNothing document then [.noCollection path] else []

end Stage

def Json.size : Json → Nat
  | .array items => items.length
  | .object fields => fields.length
  | _ => 1

/-- Parses the path of an operation. Only projections know the sentinel. -/
def Operation.compile (options : Options) (op : Operation) : Except QueryError Stage :=
  match op with
  | .fields path =>
    ((Projection.parse options.sentinel path).map Stage.fields).mapError (.pathSyntax path)
  | .filter path limit offset =>
    ((Path.parse path).map (Stage.filter · limit offset)).mapError (.pathSyntax path)
  | .sort path direction =>
    ((Path.parse path).map (Stage.sort · direction)).mapError (.pathSyntax path)

end DocQuery
