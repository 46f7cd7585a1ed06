import DocQuery.Json.Printer
import DocQuery.Path.Basic
import DocQuery.Path.Identifier
import DocQuery.Path.Quoted

/- The canonical text of paths. -/

namespace DocQuery

def Comparator.render : Comparator → List Char
  | equal => ['=', '=']
  | notEqual => ['!', '=']
  | less => ['<']
  | lessEqual => ['<', '=']
  | greater => ['>']
  | greaterEqual => ['>', '=']

/-- Strings are written like names in quotes, any other literal as JSON. -/
def Operand.render : Operand → List Char
  | field name =>
    if isIdentifier name then '@' :: '.' :: name.toList
    else '@' :: '[' :: Quoted.write name ++ [']']
  | literal (.string text) => Quoted.write text
  | literal value => value.render

namespace Predicate

def group (needed : Bool) (text : List Char) : List Char :=
  if needed then '(' :: text ++ [')'] else text

def isAnd : Predicate → Bool
  | and _ _ => true
  | _ => false

def isCompare : Predicate → Bool
  | compare _ _ _ => true
  | _ => false

/-- Conjunctions lean to the left, so one on the right is in parentheses; so is what a negation
would otherwise take a part of. -/
def render : Predicate → List Char
  | compare op left right => left.render ++ op.render ++ right.render
  | and left right => left.render ++ [' ', '&', '&', ' '] ++ group right.isAnd right.render
  | not inner => '!' :: group (inner.isAnd || inner.isCompare) inner.render
  | truthy operand => operand.render

end Predicate

def Segment.render : Segment → List Char
  | key name =>
    if isIdentifier name then '.' :: name.toList else '[' :: Quoted.write name ++ [']']
  | wildcard => ['[', '*', ']']
  | keys names => '[' :: [','].intercalate (names.map Quoted.write) ++ [']']
  | filter condition => ['[', '?', '('] ++ condition.render ++ [')', ']']

def Anchor.render : Anchor → List Char
  | document => ['$']
  | eachElement => ['$', '[', '*', ']']

def Path.render (p : Path) : List Char := p.anchor.render ++ p.segments.flatMap Segment.render

instance : ToString Path := ⟨fun p => String.ofList p.render⟩

def Projection.render (sentinel : String) : Projection → String
  | implicitOnly => sentinel
  | along path => toString path

end DocQuery
