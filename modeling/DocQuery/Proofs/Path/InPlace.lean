import DocQuery.Proofs.Path.Cursor

/- A path read in place, one production of its grammar after the other. Each production is given the
text and moves the cursor over what it reads. -/

namespace DocQuery
namespace Cursor

open Text (isBlank)

variable (text : List Char)

def readIdentifier : Run String := do
  let start ← here
  skipWhile text isIdentifierChar
  let stop ← here
  if stop = start then
    if Text.utf8Size text ≤ stop then refuse .unexpectedEnd else unexpected text
  else return String.ofList (← slice text start stop)

/-- The text up to the closing quote, behind what of it was read before. -/
def decodeWithin (quote : Char) : (rounds : Nat) → List Char → Run (List Char)
  | 0, _ => halt .endless
  | rounds + 1, done => do
    match ← peek text with
    | none => refuse .unclosedString
    | some c =>
      if c = quote then
        advance text
        return done
      else if c = '\\' then
        advance text
        match (← peek text).bind Quoted.unescape? with
        | none => refuse .invalidEscape
        | some d =>
          advance text
          decodeWithin quote rounds (done ++ [d])
      else
        advance text
        decodeWithin quote rounds (done ++ [c])

def readQuoted : Run String := do
  match ← peek text with
  | none => unexpected text
  | some c =>
    if Quoted.isQuote c then
      advance text
      return String.ofList (← decodeWithin text c (text.length + 1) [])
    else unexpected text

def skipDigits : Run Unit := do
  if (← peek text).any Char.isDigit then skipWhile text Char.isDigit else refuse .invalidNumber

def skipFraction : Run Unit := do
  if (← peek text) = some '.' then
    advance text
    skipDigits text
  else return

def skipExponent : Run Unit := do
  if (← peek text) = some 'e' ∨ (← peek text) = some 'E' then
    advance text
    skipIf text fun c => c == '+' || c == '-'
    skipDigits text
  else return

def skipNumeral : Run Unit := do
  skipIf text (· == '-')
  skipDigits text
  skipFraction text
  skipExponent text

def readNumber : Run Number := do
  let start ← here
  skipNumeral text
  let numeral ← slice text start (← here)
  match (Numeral.ofText? numeral).bind (Number.ofNumeral? fitsLiteral Numeral.toBinary64?) with
  | none => refuse .invalidNumber
  | some number => return number

/-- A field after its `@`, which is at the byte `start`. -/
def readField (start : Nat) : Run Operand := do
  if (← peek text) = some '.' then
    advance text
    return .field (← readIdentifier text)
  else if (← peek text) = some '[' then
    advance text
    skipWhile text isBlank
    if (← peek text).any Quoted.isQuote then
      let name ← readQuoted text
      skipWhile text isBlank
      expect text ']'
      return .field name
    else refuse (.invalidOperand start)
  else refuse (.invalidOperand start)

def readBoolean (start : Nat) : Run Operand := do
  if ← startsWithKeyword text ['t', 'r', 'u', 'e'] then
    advanceBy text 4
    return .literal (.bool true)
  else if ← startsWithKeyword text ['f', 'a', 'l', 's', 'e'] then
    advanceBy text 5
    return .literal (.bool false)
  else refuse (.invalidOperand start)

def readOperand : Run Operand := do
  skipWhile text isBlank
  let start ← here
  match ← peek text with
  | none => refuse .unexpectedEnd
  | some c =>
    if c = '@' then
      advance text
      readField text start
    else if Quoted.isQuote c then return .literal (.string (← readQuoted text))
    else if c = '-' ∨ c.isDigit = true then return .literal (.number (← readNumber text))
    else readBoolean text start

def readComparison : Run Predicate := do
  let left ← readOperand text
  skipWhile text isBlank
  let start ← here
  skipWhile text isOperatorChar
  let stop ← here
  if stop = start then return .truthy left
  else
    let op ← slice text start stop
    match Comparator.ofText? op with
    | none => refuse (.unknownOperator (String.ofList op))
    | some comparator => return .compare comparator left (← readOperand text)

def descend : Run Unit := do
  let cursor ← get
  if maxNesting ≤ cursor.depth then refuse (.tooDeep cursor.position)
  else set { cursor with depth := cursor.depth + 1 }

def ascend : Run Unit := do
  let cursor ← get
  if cursor.depth = 0 then halt .notOpen
  else set { cursor with depth := cursor.depth - 1 }

def setDepth (depth : Nat) : Run Unit := modify fun cursor => { cursor with depth }

/-- What is conjoined to a predicate that was read, each conjunct one level deeper. -/
def conjoinWithin (unary : Run Predicate) : (rounds : Nat) → Predicate → Run Predicate
  | 0, _ => halt .endless
  | rounds + 1, left => do
    skipWhile text isBlank
    if ← startsWith text ['&', '&'] then
      descend
      advanceBy text 2
      let right ← unary
      conjoinWithin unary rounds (.and left right)
    else if ← startsWith text ['|', '|'] then refuse (.unknownOperator "||")
    else return left

/-- A predicate with all its conjuncts, whose levels are closed again behind the last one. -/
def readConjunction (unary : Run Predicate) : Run Predicate := do
  let entry := (← get).depth
  let first ← unary
  let all ← conjoinWithin text unary (text.length + 1) first
  setDepth entry
  return all

/-- A predicate without conjunction, in fewer than `calls` calls inside one another. -/
def readUnary : (calls : Nat) → Run Predicate
  | 0 => halt .endless
  | calls + 1 => do
    skipWhile text isBlank
    if (← peek text) = some '!' ∧ (← startsWith text ['!', '=']) = false then
      descend
      advance text
      let inner ← readUnary calls
      ascend
      return .not inner
    else if (← peek text) = some '(' then
      descend
      advance text
      let inner ← readConjunction text (readUnary calls)
      skipWhile text isBlank
      expect text ')'
      ascend
      return inner
    else readComparison text

def readStep : Run Segment := do
  if (← peek text) = some '*' then
    advance text
    return .wildcard
  else return .key (← readIdentifier text)

def readNamesWithin : (rounds : Nat) → Run (List String)
  | 0 => halt .endless
  | rounds + 1 => do
    skipWhile text isBlank
    if (← peek text) = some ',' then
      advance text
      skipWhile text isBlank
      match ← peek text with
      | none => refuse .unclosedBracket
      | some c =>
        if Quoted.isQuote c then
          let name ← readQuoted text
          let names ← readNamesWithin rounds
          return name :: names
        else unexpected text
    else return []

def readFilter : Run Segment := do
  skipWhile text isBlank
  expect text '('
  let condition ← readConjunction text (readUnary text (maxNesting + 1))
  skipWhile text isBlank
  expect text ')'
  return .filter condition

def readBracketContent : Run Segment := do
  match ← peek text with
  | none => refuse .unclosedBracket
  | some c =>
    if c = '*' then
      advance text
      return .wildcard
    else if c = '?' then
      advance text
      readFilter text
    else if Quoted.isQuote c then
      let first ← readQuoted text
      let names ← readNamesWithin text (text.length + 1)
      return .ofNames first names
    else unexpected text

def readBracket : Run Segment := do
  expect text '['
  skipWhile text isBlank
  let segment ← readBracketContent text
  skipWhile text isBlank
  expect text ']'
  return segment

/-- A segment that begins with the character given. -/
def readSegment (c : Char) : Run Segment := do
  if c = '.' then
    advance text
    if (← peek text) = some '.' then unexpected text else readStep text
  else if c = '[' then readBracket text
  else unexpected text

def readSegmentsWithin : (rounds : Nat) → Run (List Segment)
  | 0 => halt .endless
  | rounds + 1 => do
    match ← peek text with
    | none => return []
    | some c =>
      let segment ← readSegment text c
      let segments ← readSegmentsWithin rounds
      return segment :: segments

def readSegments : Run (List Segment) := readSegmentsWithin text (text.length + 1)

def readPath : Run Path := do
  if Text.utf8Size text ≤ (← here) then refuse .emptyPath
  else if (← peek text) = some '$' then
    advance text
    if ← startsWith text ['[', '*', ']'] then
      advanceBy text 3
      return ⟨.eachElement, ← readSegments text⟩
    else return ⟨.document, ← readSegments text⟩
  else if (← peek text) = some '[' then return ⟨.document, ← readSegments text⟩
  else
    let first ← readStep text
    return ⟨.document, first :: (← readSegments text)⟩

end Cursor

/-- The path that a text between blanks writes, read in place. -/
def Path.parseInPlace (text : String) : Except Halt Path :=
  (Cursor.readPath (Text.trim text.toList) ⟨0, 0⟩).map Prod.fst

end DocQuery
