import DocQuery.Error
import DocQuery.Operation.Basic

/- Reading operations from their descriptors. Fields are checked in the order in which they are
written, and only then is one missed. -/

namespace DocQuery

namespace Json

/-- The direction that an object names: its one key, with nothing as its value. -/
def decodeDirectionObject : Fields → Except ShapeError Direction
  | [(name, value)] =>
    match Direction.ofName? name, value with
    | none, _ => .error (.unknownDirection name)
    | some direction, .null => .ok direction
    | some direction, .object [] => .ok direction
    | some _, got => .error (.wrongType got .unit)
  | _ => .error .notSingleKey

def decodeDirection : Json → Except ShapeError Direction
  | .string name =>
    match Direction.ofName? name with
    | some direction => .ok direction
    | none => .error (.unknownDirection name)
  | .object fields => decodeDirectionObject fields
  | got => .error (.wrongType got .variant)

end Json

namespace Operation

/-- Checks a field of a descriptor. A field that its kind does not know may hold anything. -/
def checkField (kind : OperationKind) (field : String × Json) : Except ShapeError Unit :=
  match kind, field.1 with
  | _, "path" => field.2.decodeString.map fun _ => ()
  | .filter, "limit" => field.2.decodeCount.map fun _ => ()
  | .filter, "offset" => field.2.decodeCount.map fun _ => ()
  | .sort, "order" => field.2.decodeDirection.map fun _ => ()
  | _, _ => .ok ()

def countOf (fields : Fields) (name : String) : Except ShapeError (Option UInt64) :=
  match fields.get? name with
  | none => .ok none
  | some value => value.decodeCount

def ofFields (kind : OperationKind) (fields : Fields) : Except ShapeError Operation := do
  fields.forM (checkField kind)
  match fields.get? "path" with
  | none => .error (.missingField "path")
  | some value =>
    let path ← value.decodeString
    match kind with
    | .fields => return .fields path
    | .filter => return .filter path (← countOf fields "limit") (← countOf fields "offset")
    | .sort =>
      match fields.get? "order" with
      | none => return .sort path .ascending
      | some value => return .sort path (← value.decodeDirection)

def ofJson (descriptor : Json) : Except QueryError Operation :=
  match descriptor with
  | .object entries =>
    match Fields.get? entries "op" with
    | none => .error (.invalidDescriptor (.missingOp descriptor))
    | some (.string name) =>
      match OperationKind.ofName? name with
      | none => .error (.unsupportedOperation name)
      | some kind => (ofFields kind entries).mapError fun e => .invalidDescriptor (.shape e)
    | some op => .error (.unsupportedOperation op.toText)
  | _ => .error (.invalidDescriptor (.missingOp descriptor))

end Operation
end DocQuery
