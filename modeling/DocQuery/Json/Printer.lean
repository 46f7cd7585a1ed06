import DocQuery.Json.Basic

/- The compact text of a document: no blanks, and escapes only where a string needs them. -/

namespace DocQuery.Json

/-- The character inside a JSON string. Only quotes, backslashes and controls are escaped. -/
def escapeChar (c : Char) : List Char :=
  if c = '"' then ['\\', '"']
  else if c = '\\' then ['\\', '\\']
  else if c = '\x08' then ['\\', 'b']
  else if c = '\x0c' then ['\\', 'f']
  else if c = '\n' then ['\\', 'n']
  else if c = '\r' then ['\\', 'r']
  else if c = '\t' then ['\\', 't']
  else if c.toNat < 0x20 then
    ['\\', 'u', '0', '0', Nat.digitChar (c.toNat / 16), Nat.digitChar (c.toNat % 16)]
  else [c]

def renderString (s : String) : List Char := '"' :: s.toList.flatMap escapeChar ++ ['"']

mutual

def render : Json → List Char
  | .null => ['n', 'u', 'l', 'l']
  | .bool true => ['t', 'r', 'u', 'e']
  | .bool false => ['f', 'a', 'l', 's', 'e']
  | .number n => n.render
  | .string s => renderString s
  | .array items => '[' :: renderItems items
  | .object fields => '\x7b' :: renderFields fields

def renderItems : List Json → List Char
  | [] => [']']
  | [item] => render item ++ [']']
  | item :: next :: rest => render item ++ ',' :: renderItems (next :: rest)

def renderFields : List (String × Json) → List Char
  | [] => ['\x7d']
  | [(key, value)] => renderString key ++ ':' :: render value ++ ['\x7d']
  | (key, value) :: next :: rest =>
    renderString key ++ ':' :: render value ++ ',' :: renderFields (next :: rest)

end

def toText (j : Json) : String := String.ofList j.render

end DocQuery.Json
