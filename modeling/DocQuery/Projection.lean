import DocQuery.Options
import DocQuery.Predicate

/- Projection: a document reduced to what a path reaches and to the implicit fields, with the
ancestors of what is kept. -/

namespace DocQuery

def Fields.nonEmpty? : Fields → Option Json
  | [] => none
  | fields => some (.object fields)

def Fields.keep (f : Json → Option Json) (fields : Fields) : Fields :=
  fields.filterMap fun (key, value) => (f value).map (key, ·)

/-- The fields of the given names whose values a function keeps; a repeated name counts once. -/
def Fields.keepNamed (f : Json → Option Json) (names : List String) (fields : Fields) : Fields :=
  .ofList (names.filterMap fun name => do
    let value ← fields.get? name
    return (name, ← f value))

namespace Json

mutual

/-- Applies a function of objects, through arrays of any depth, and drops the items that it does
not keep. -/
def throughArrays (f : Fields → Option Json) : Json → Option Json
  | .array items => some (.array (throughItems f items))
  | .object fields => f fields
  | _ => none

def throughItems (f : Fields → Option Json) : List Json → List Json
  | [] => []
  | item :: items => (throughArrays f item).toList ++ throughItems f items

end

theorem throughItems_eq (f : Fields → Option Json) (items : List Json) :
    throughItems f items = items.filterMap (throughArrays f) := by
  induction items with
  | nil => rfl
  | cons item items ih =>
    rw [throughItems, ih]
    cases h : throughArrays f item with
    | none => rw [List.filterMap_cons_none h]; rfl
    | some kept => rw [List.filterMap_cons_some h]; rfl

/-- Keeps of the members of a node those that satisfy a condition and that a function keeps. An
object of which nothing is left is dropped, an array is not. -/
def keepMembers (condition : Json → Bool) (f : Json → Option Json) : Json → Option Json
  | .array items => some (.array ((items.filter condition).filterMap f))
  | .object fields => Fields.nonEmpty? (Fields.keep f (fields.filter fun field => condition field.2))
  | _ => none

end Json

/-- A node reduced to what the segments reach; `none` where they reach nothing. -/
def rebuild : List Segment → Json → Option Json
  | [], node => some node
  | .key name :: rest, node =>
    node.throughArrays fun fields => do
      let kept ← rebuild rest (← fields.get? name)
      return .object [(name, kept)]
  | .keys names :: rest, node =>
    node.throughArrays fun fields => (fields.keepNamed (rebuild rest) names).nonEmpty?
  | .wildcard :: rest, node => node.keepMembers (fun _ => true) (rebuild rest)
  | .filter condition :: rest, node => node.keepMembers condition.holds (rebuild rest)

namespace Projection

def reached? : Projection → Json → Option Fields
  | implicitOnly, _ => none
  | along path, element =>
    match rebuild path.segments element with
    | some (.object kept) => some kept
    | _ => none

def implicitPart (options : Options) (fields : Fields) : Fields :=
  .ofList (options.implicitFields.filterMap fun key => (fields.get? key).map (key, ·))

/-- The projection of one element. What is no object has no implicit fields. -/
def element (options : Options) (projection : Projection) : Json → Json
  | .object fields =>
    .object ((implicitPart options fields).overlay
      ((projection.reached? (.object fields)).getD []))
  | node =>
    match projection with
    | implicitOnly => .null
    | along path => (rebuild path.segments node).getD .null

def apply (options : Options) (projection : Projection) : Json → Json
  | .array items => .array (items.map (projection.element options))
  | document => projection.element options document

def misses (projection : Projection) (element : Json) : Bool :=
  match projection with
  | implicitOnly => false
  | along _ => element.isObject && (projection.reached? element).isNone

end Projection
end DocQuery
