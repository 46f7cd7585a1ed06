import DocQuery.Selection

/- Sorting a collection by the key that a path locates in each of its members. -/

namespace DocQuery

inductive Direction where
  | ascending
  | descending
deriving DecidableEq

/-- The order of two sort keys. A missing key comes after every other one in both directions. -/
def compareKeys (direction : Direction) : Option Json → Option Json → Ordering
  | none, none => .eq
  | none, some _ => .gt
  | some _, none => .lt
  | some a, some b =>
    match direction with
    | .ascending => a.sortOrder b
    | .descending => (a.sortOrder b).swap

def sortKey? (key : List Segment) (member : Json) : Option Json :=
  (Selection.walk .document key member).nodes.head?

def sortMembers (direction : Direction) (key : List Segment) (members : List Json) : List Json :=
  let keyed := members.map fun member => (sortKey? key member, member)
  let sorted := keyed.mergeSort fun a b => compareKeys direction a.1 b.1 != .gt
  sorted.map Prod.snd

namespace Path

/-- The segments that lead to a collection, and those that lead to the key in its members. They
are parted by the first wildcard. -/
def sortParts (path : Path) : List Segment × List Segment :=
  match path.anchor, path.firstWildcard? with
  | .document, some i => (path.segments.take i, path.segments.drop (i + 1))
  | _, _ => ([], path.segments)

end Path

/-- Sorts the array to which a chain of keys leads. Where it leads to none, all stays as it is. -/
def sortAt (direction : Direction) (key : List Segment) : List Segment → Json → Json
  | [], .array members => .array (sortMembers direction key members)
  | .key name :: rest, .object fields =>
    .object (Fields.modify name (sortAt direction key rest) fields)
  | _, node => node

def Path.sort (path : Path) (direction : Direction) (document : Json) : Json :=
  match path.sortParts, document with
  | (_, key), .array members => .array (sortMembers direction key members)
  | (s :: chain, key), .object fields => sortAt direction key (s :: chain) (.object fields)
  | _, document => document

def Path.sortsNothing (path : Path) : Json → Bool
  | .array _ => false
  | .object _ => path.sortParts.1.isEmpty
  | _ => true

end DocQuery
