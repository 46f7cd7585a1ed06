import DocQuery.Shape

/- What a query is configured with. -/

namespace DocQuery

def defaultSentinel : String := "none"

structure Options where
  /-- Keys that every projection keeps of an element, whole unless its path reaches into them. -/
  implicitFields : List String
  /-- The text that stands for no path in a projection. -/
  sentinel : String
deriving DecidableEq

namespace Options

def default : Options := ⟨["id", "href"], defaultSentinel⟩

def decodeStrings : Json → Except ShapeError (List String)
  | .array items => items.mapM Json.decodeString
  | got => .error (.wrongType got .list)

def checkField : String × Json → Except ShapeError Unit
  | ("implicitFields", value) => (decodeStrings value).map fun _ => ()
  | ("noneSentinel", value) => value.decodeString.map fun _ => ()
  | _ => .ok ()

/-- Options given by name, in any order; what is not given takes its default. -/
def ofFields (fields : Fields) : Except ShapeError Options := do
  fields.forM checkField
  let implicitFields ← (fields.get? "implicitFields").elim (pure default.implicitFields) decodeStrings
  let sentinel ← (fields.get? "noneSentinel").elim (pure default.sentinel) Json.decodeString
  return ⟨implicitFields, sentinel⟩

def ofItems : List Json → Except ShapeError Options
  | [] => .ok default
  | [implicitFields] => do return { default with implicitFields := ← decodeStrings implicitFields }
  | implicitFields :: sentinel :: more => do
    let implicitFields ← decodeStrings implicitFields
    let sentinel ← sentinel.decodeString
    if more.isEmpty then return ⟨implicitFields, sentinel⟩
    else .error (.tooLong (more.length + 2))

def ofJson : Json → Except ShapeError Options
  | .object fields => ofFields fields
  | .array items => ofItems items
  | got => .error (.wrongType got .options)

end Options
end DocQuery
