import DocQuery.Text.CodePoint

/- Why a path text is refused. Positions count bytes of the trimmed text. -/

namespace DocQuery

/-- The levels that the text of a predicate may open. Each `!`, `(` and `&&` opens one. -/
def maxNesting : Nat := 128

inductive SyntaxError where
  | emptyPath
  | unexpectedChar (c : Char) (position : Nat)
  | unexpectedEnd
  | unclosedBracket
  | unclosedString
  | invalidEscape
  | invalidNumber
  | unknownOperator (op : String)
  | invalidOperand (position : Nat)
  | tooDeep (position : Nat)
deriving DecidableEq

def SyntaxError.message : SyntaxError → String
  | emptyPath => "Empty path"
  | unexpectedChar c position => s!"Unexpected character '{c}' at position {position}"
  | unexpectedEnd => "Unexpected end of input"
  | unclosedBracket => "Unclosed bracket"
  | unclosedString => "Unclosed string"
  | invalidEscape => "Invalid escape sequence"
  | invalidNumber => "Invalid number"
  | unknownOperator op => s!"Unknown operator: {op}"
  | invalidOperand position => s!"Invalid operand at position {position}"
  | tooDeep position => s!"Predicate nested deeper than {maxNesting} levels at position {position}"

/-- An error while reading, with the text that was left where it has a place. -/
inductive Fault where
  | unexpected (rest : List Char)
  | unclosedBracket
  | unclosedString
  | invalidEscape
  | invalidNumber
  | unknownOperator (op : List Char)
  | invalidOperand (rest : List Char)
  | tooDeep (rest : List Char)
deriving DecidableEq

/-- The byte at which a rest of a text begins. -/
def position (text rest : List Char) : Nat := Text.utf8Size text - Text.utf8Size rest

theorem position_append (used rest : List Char) :
    position (used ++ rest) rest = Text.utf8Size used := by
  rw [position, Text.utf8Size_append, Nat.add_sub_cancel]

def Fault.locate (text : List Char) : Fault → SyntaxError
  | unexpected [] => .unexpectedEnd
  | unexpected (c :: rest) => .unexpectedChar c (position text (c :: rest))
  | unclosedBracket => .unclosedBracket
  | unclosedString => .unclosedString
  | invalidEscape => .invalidEscape
  | invalidNumber => .invalidNumber
  | unknownOperator op => .unknownOperator (String.ofList op)
  | invalidOperand rest => .invalidOperand (position text rest)
  | tooDeep rest => .tooDeep (position text rest)

end DocQuery
