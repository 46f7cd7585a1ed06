import DocQuery.Json.Basic
import DocQuery.Number.Scaled

/- Reading a document from JSON text. A repeated key keeps its first place and its last value. -/

namespace DocQuery.Json

def isSpace (c : Char) : Bool := c == ' ' || c == '\t' || c == '\n' || c == '\r'

def skipSpaces (s : List Char) : List Char := s.dropWhile isSpace

def hexDigit? (c : Char) : Option Nat :=
  if '0' ≤ c ∧ c ≤ '9' then some (c.toNat - '0'.toNat)
  else if 'a' ≤ c ∧ c ≤ 'f' then some (c.toNat - 'a'.toNat + 10)
  else if 'A' ≤ c ∧ c ≤ 'F' then some (c.toNat - 'A'.toNat + 10)
  else none

def codeUnit? : List Char → Option (Nat × List Char)
  | a :: b :: c :: d :: s => do
    let a ← hexDigit? a
    let b ← hexDigit? b
    let c ← hexDigit? c
    let d ← hexDigit? d
    return (((a * 16 + b) * 16 + c) * 16 + d, s)
  | _ => none

/-- The character after `\u`. A high surrogate needs the escape of a low one behind it. -/
def escapedCodePoint? (s : List Char) : Option (Char × List Char) := do
  let (unit, s) ← codeUnit? s
  if 0xD800 ≤ unit ∧ unit ≤ 0xDBFF then
    match s with
    | '\\' :: 'u' :: s =>
      let (low, s) ← codeUnit? s
      guard (0xDC00 ≤ low ∧ low ≤ 0xDFFF)
      return (Char.ofNat (0x10000 + (unit - 0xD800) * 0x400 + (low - 0xDC00)), s)
    | _ => none
  else
    guard (¬ (0xDC00 ≤ unit ∧ unit ≤ 0xDFFF))
    return (Char.ofNat unit, s)

def escaped? : List Char → Option (Char × List Char)
  | 'u' :: s => escapedCodePoint? s
  | 'b' :: s => some ('\x08', s)
  | 'f' :: s => some ('\x0c', s)
  | 'n' :: s => some ('\n', s)
  | 'r' :: s => some ('\r', s)
  | 't' :: s => some ('\t', s)
  | c :: s => if c = '"' ∨ c = '\\' ∨ c = '/' then some (c, s) else none
  | [] => none

/-- The characters up to the closing quote, at most `fuel` of them, and the text after it. -/
def readString? : (fuel : Nat) → List Char → Option (List Char × List Char)
  | 0, _ => none
  | _, [] => none
  | fuel + 1, c :: s =>
    if c = '"' then some ([], s)
    else if c = '\\' then do
      let (c, s) ← escaped? s
      let (text, s) ← readString? fuel s
      return (c :: text, s)
    else if c.toNat < 0x20 then none
    else do
      let (text, s) ← readString? fuel s
      return (c :: text, s)

/-- A number, whose first digit is zero only if it is the whole part. A negative zero is a float,
and floats are read by float arithmetic. -/
def readNumber? (s : List Char) : Option (Number × List Char) := do
  let (n, s) ← Numeral.scan? s
  guard (n.whole.length = 1 ∨ n.whole.head? ≠ some '0')
  let number ← Number.ofNumeral? (fun i => !(n.negative && i == 0)) Numeral.toScaled? n
  return (number, s)

mutual

/-- A value at the front of a text, with at most `fuel` steps of nesting and repetition. -/
def readValue? : (fuel : Nat) → List Char → Option (Json × List Char)
  | 0, _ => none
  | fuel + 1, s =>
    match skipSpaces s with
    | '\x7b' :: s =>
      match skipSpaces s with
      | '\x7d' :: s => some (.object [], s)
      | s => (readFields? fuel s).map fun (fields, s) => (.object (Fields.ofList fields), s)
    | '[' :: s =>
      match skipSpaces s with
      | ']' :: s => some (.array [], s)
      | s => (readItems? fuel s).map fun (items, s) => (.array items, s)
    | '"' :: s => (readString? (s.length + 1) s).map fun (text, s) => (.string (String.ofList text), s)
    | 'n' :: 'u' :: 'l' :: 'l' :: s => some (.null, s)
    | 't' :: 'r' :: 'u' :: 'e' :: s => some (.bool true, s)
    | 'f' :: 'a' :: 'l' :: 's' :: 'e' :: s => some (.bool false, s)
    | s => (readNumber? s).map fun (n, s) => (.number n, s)

def readItems? : (fuel : Nat) → List Char → Option (List Json × List Char)
  | 0, _ => none
  | fuel + 1, s => do
    let (item, s) ← readValue? fuel s
    match skipSpaces s with
    | ',' :: s =>
      let (items, s) ← readItems? fuel s
      return (item :: items, s)
    | ']' :: s => return ([item], s)
    | _ => none

def readFields? : (fuel : Nat) → List Char → Option (List (String × Json) × List Char)
  | 0, _ => none
  | fuel + 1, s => do
    match skipSpaces s with
    | '"' :: s =>
      let (key, s) ← readString? (s.length + 1) s
      match skipSpaces s with
      | ':' :: s =>
        let (value, s) ← readValue? fuel s
        match skipSpaces s with
        | ',' :: s =>
          let (fields, s) ← readFields? fuel s
          return ((String.ofList key, value) :: fields, s)
        | '\x7d' :: s => return ([(String.ofList key, value)], s)
        | _ => none
      | _ => none
    | _ => none

end

def ofText? (text : String) : Option Json :=
  let s := text.toList
  match readValue? (2 * s.length + 2) s with
  | some (value, rest) => if (skipSpaces rest).isEmpty then some value else none
  | none => none

end DocQuery.Json
