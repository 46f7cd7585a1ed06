import DocQuery.Json.Basic

/- Paths: where they start, their steps, and the predicates that filter steps hold. -/

namespace DocQuery

/-- Where a path starts: at the document itself, or at each element of an array document. -/
inductive Anchor where
  | document
  | eachElement
deriving DecidableEq

inductive Comparator where
  | equal
  | notEqual
  | less
  | lessEqual
  | greater
  | greaterEqual
deriving DecidableEq

/-- One side of a comparison: a field of the candidate element, or a value of its own. -/
inductive Operand where
  | field (name : String)
  | literal (value : Json)

inductive Predicate where
  | compare (op : Comparator) (left right : Operand)
  | and (left right : Predicate)
  | not (inner : Predicate)
  | truthy (operand : Operand)

inductive Segment where
  | key (name : String)
  | wildcard
  | keys (names : List String)
  | filter (condition : Predicate)

structure Path where
  anchor : Anchor
  segments : List Segment

/-- What a projection keeps beside the implicit fields: nothing, or what a path reaches. -/
inductive Projection where
  | implicitOnly
  | along (path : Path)

/-- Equality up to the order of fields in literals. -/
def Operand.same : Operand → Operand → Bool
  | .field a, .field b => a == b
  | .literal a, .literal b => a.same b
  | _, _ => false

def Predicate.same : Predicate → Predicate → Bool
  | .compare op left right, .compare op' left' right' =>
    op == op' && left.same left' && right.same right'
  | .and left right, .and left' right' => left.same left' && right.same right'
  | .not inner, .not inner' => inner.same inner'
  | .truthy operand, .truthy operand' => operand.same operand'
  | _, _ => false

def Segment.same : Segment → Segment → Bool
  | .key a, .key b => a == b
  | .wildcard, .wildcard => true
  | .keys as, .keys bs => as == bs
  | .filter p, .filter q => p.same q
  | _, _ => false

def Segment.isWildcard : Segment → Bool
  | .wildcard => true
  | _ => false

namespace Path

def same (p q : Path) : Bool :=
  p.anchor == q.anchor && p.segments.length == q.segments.length &&
    (p.segments.zip q.segments).all fun (s, t) => s.same t

def firstWildcard? (p : Path) : Option Nat := p.segments.findIdx? Segment.isWildcard

end Path
end DocQuery
