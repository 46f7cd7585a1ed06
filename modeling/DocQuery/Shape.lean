import DocQuery.Json.Printer
import DocQuery.Text.Visible

/- What a descriptor holds where something else was expected. -/

namespace DocQuery

/-- What is expected of a value. -/
inductive Expected where
  | string
  | count
  | list
  | variant
  | unit
  | options
deriving DecidableEq

inductive ShapeError where
  | missingField (name : String)
  | wrongType (got : Json) (expected : Expected)
  | negativeCount (n : Int)
  | unknownDirection (name : String)
  | notSingleKey
  | tooLong (length : Nat)

def Expected.describe : Expected → String
  | string => "a string"
  | count => "usize"
  | list => "a sequence"
  | variant => "string or map"
  | unit => "unit"
  | options => "struct QueryOptions"

/-- A value as a message shows it: scalars with their value, arrays and objects by their kind. -/
def Json.describe : Json → String
  | .null => "null"
  | .bool b => s!"boolean `{b}`"
  | .number (.int n) => s!"integer `{n.val}`"
  | .number (.float x) => s!"floating point `{String.ofList x.render}`"
  | .string s => s!"string {String.ofList (Text.visible s.toList)}"
  | .array _ => "sequence"
  | .object _ => "map"

def ShapeError.message : ShapeError → String
  | missingField name => s!"missing field `{name}`"
  | wrongType got expected => s!"invalid type: {got.describe}, expected {expected.describe}"
  | negativeCount n => s!"invalid value: integer `{n}`, expected {Expected.count.describe}"
  | unknownDirection name => s!"unknown variant `{name}`, expected `asc` or `desc`"
  | notSingleKey => "invalid value: map, expected map with a single key"
  | tooLong length => s!"invalid length {length}, expected fewer elements in array"

namespace Json

def decodeString : Json → Except ShapeError String
  | .string s => .ok s
  | got => .error (.wrongType got .string)

/-- A count that fits a word; null stands for none. -/
def decodeCount : Json → Except ShapeError (Option UInt64)
  | .null => .ok none
  | .number (.int n) =>
    match n.toWord? with
    | some w => .ok (some w)
    | none => .error (.negativeCount n.val)
  | got => .error (.wrongType got .count)

end Json
end DocQuery
