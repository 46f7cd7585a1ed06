import DocQuery.Sorting

/- Operations, the steps of a query, with their paths as text. -/

namespace DocQuery

inductive OperationKind where
  | fields
  | filter
  | sort
deriving DecidableEq

inductive Operation where
  /-- Keeps what a path reaches, and the implicit fields. -/
  | fields (path : String)
  /-- Keeps the members that a path reaches, from an offset on and up to a limit. -/
  | filter (path : String) (limit offset : Option UInt64)
  | sort (path : String) (direction : Direction)
deriving DecidableEq

namespace OperationKind

def name : OperationKind → String
  | fields => "fields"
  | filter => "filter"
  | sort => "sort"

def ofName? : String → Option OperationKind
  | "fields" => some fields
  | "filter" => some filter
  | "sort" => some sort
  | _ => none

theorem ofName?_name (kind : OperationKind) : ofName? kind.name = some kind := by
  cases kind with
  | fields => rfl
  | filter => rfl
  | sort => rfl

end OperationKind

def Direction.name : Direction → String
  | ascending => "asc"
  | descending => "desc"

def Direction.ofName? : String → Option Direction
  | "asc" => some ascending
  | "desc" => some descending
  | _ => none

theorem Direction.ofName?_name (direction : Direction) : ofName? direction.name = some direction := by
  cases direction with
  | ascending => rfl
  | descending => rfl

namespace Operation

def kind : Operation → OperationKind
  | fields _ => .fields
  | filter _ _ _ => .filter
  | sort _ _ => .sort

def path : Operation → String
  | fields path => path
  | filter path _ _ => path
  | sort path _ => path

/-- Sets limit and offset of a filter; other operations have none. -/
def paginate (op : Operation) (limit offset : Option UInt64) : Operation :=
  match op with
  | filter path _ _ => filter path limit offset
  | op => op

def countField (name : String) (count : Option UInt64) : Fields :=
  (count.map fun n => (name, Json.number (.int (.ofWord n)))).toList

def toJson : Operation → Json
  | fields path => .object [("op", .string "fields"), ("path", .string path)]
  | filter path limit offset =>
    .object ([("op", .string "filter"), ("path", .string path)] ++ countField "limit" limit ++
      countField "offset" offset)
  | sort path direction =>
    .object [("op", .string "sort"), ("path", .string path), ("order", .string direction.name)]

end Operation
end DocQuery
