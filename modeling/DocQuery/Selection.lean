import DocQuery.Predicate

/- Selection: the nodes of a document that a path reaches, step by step. A wildcard and a filter
reach them in document order, a key list in the order of its names. -/

namespace DocQuery

def Fields.pick (fields : Fields) (names : List String) : List Json := names.filterMap fields.get?

def Json.children : Json → List Json
  | .array items => items
  | .object fields => Fields.values fields
  | _ => []

/-- The values of the given names in a node, or in each object of an array. -/
def Json.pick (names : List String) : Json → List Json
  | .object fields => Fields.pick fields names
  | .array items =>
    items.flatMap fun
      | .object fields => Fields.pick fields names
      | _ => []
  | _ => []

namespace Segment

def step : Segment → Json → List Json
  | key name, node => (node.get? name).toList
  | wildcard, node => node.children
  | keys names, node => node.pick names
  | filter condition, node => node.children.filter condition.holds

/-- A segment other than a key may lead to several nodes. -/
def fansOut : Segment → Bool
  | key _ => false
  | _ => true

end Segment

/-- The nodes reached, and whether a step that fans out was taken. -/
structure Selection where
  nodes : List Json
  many : Bool

namespace Selection

def start : Anchor → Json → Selection
  | .eachElement, .array items => ⟨items, true⟩
  | _, document => ⟨[document], false⟩

def advance (selection : Selection) (segment : Segment) : Selection where
  nodes := selection.nodes.flatMap segment.step
  many := selection.many || (segment.fansOut && !selection.nodes.isEmpty)

def walk (anchor : Anchor) (segments : List Segment) (document : Json) : Selection :=
  segments.foldl advance (start anchor document)

/-- An array of the nodes if there may be many, and otherwise the node, if there is one. -/
def value? (selection : Selection) : Option Json :=
  if selection.many then some (.array selection.nodes) else selection.nodes.head?

end Selection

namespace Path

def select (path : Path) (document : Json) : List Json :=
  (Selection.walk path.anchor path.segments document).nodes

def selectValue? (path : Path) (document : Json) : Option Json :=
  (Selection.walk path.anchor path.segments document).value?

end Path
end DocQuery
