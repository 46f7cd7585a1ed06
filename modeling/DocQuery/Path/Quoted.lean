import DocQuery.Path.Reading

/- Quoted strings of a path. Main statement: what is written between single quotes reads back. -/

namespace DocQuery.Quoted

def isQuote (c : Char) : Bool := c == '\'' || c == '"'

/-- The character that a backslash and this one stand for. -/
def unescape? : Char → Option Char
  | 'n' => some '\n'
  | 't' => some '\t'
  | 'r' => some '\r'
  | '\\' => some '\\'
  | '\'' => some '\''
  | '"' => some '"'
  | _ => none

/-- The text up to the closing quote, and the rest after it. -/
def decode (quote : Char) : List Char → Reading (List Char)
  | [] => .error .unclosedString
  | ['\\'] => .error .invalidEscape
  | '\\' :: e :: rest =>
    match unescape? e with
    | none => .error .invalidEscape
    | some d => (decode quote rest).map fun (text, rest) => (d :: text, rest)
  | c :: rest =>
    if c = quote then .ok ([], rest)
    else (decode quote rest).map fun (text, rest) => (c :: text, rest)

def encodeChar (c : Char) : List Char :=
  if c = '\\' then ['\\', '\\']
  else if c = '\'' then ['\\', '\'']
  else if c = '\n' then ['\\', 'n']
  else if c = '\t' then ['\\', 't']
  else if c = '\r' then ['\\', 'r']
  else [c]

def encode (text : List Char) : List Char := text.flatMap encodeChar

def write (text : String) : List Char := '\'' :: encode text.toList ++ ['\'']

theorem decode_encodeChar (c : Char) (rest : List Char) :
    decode '\'' (encodeChar c ++ rest) =
      (decode '\'' rest).map fun (text, rest) => (c :: text, rest) := by
  unfold encodeChar
  split
  · next h => subst h; rfl
  split
  · next h => subst h; rfl
  split
  · next h => subst h; rfl
  split
  · next h => subst h; rfl
  split
  · next h => subst h; rfl
  · next hslash hquote _ _ _ =>
    rw [List.singleton_append, decode, if_neg hquote]
    · intro h
      exact absurd h hslash
    · intro e rest h
      exact absurd h hslash

/-- Reading takes back what was written, and nothing of the text behind it. -/
theorem decode_encode (text rest : List Char) :
    decode '\'' (encode text ++ '\'' :: rest) = .ok (text, rest) := by
  induction text with
  | nil => rfl
  | cons c text ih =>
    have hcons : encode (c :: text) = encodeChar c ++ encode text := List.flatMap_cons
    rw [hcons, List.append_assoc, decode_encodeChar, ih]
    rfl

theorem isRest_of_decode {quote : Char} {s text rest : List Char}
    (h : decode quote s = .ok (text, rest)) : IsRest rest s := by
  induction s using decode.induct quote generalizing text with
  | case1 => contradiction
  | case2 => contradiction
  | case3 e s hnone =>
    rw [decode, hnone] at h
    contradiction
  | case4 e s d hsome ih =>
    rw [decode, hsome] at h
    obtain ⟨⟨_, _⟩, ha, hr⟩ := Reading.ok_of_map h
    obtain ⟨rfl, rfl⟩ := Prod.mk.inj hr
    exact (ih ha).cons.cons
  | case5 s hnil hslash =>
    rw [decode, if_pos rfl] at h
    · obtain ⟨rfl, rfl⟩ := Prod.mk.inj (Except.ok.inj h)
      exact .head _ _
    · exact hnil
    · exact hslash
  | case6 c s hnil hslash hquote ih =>
    rw [decode, if_neg hquote] at h
    · obtain ⟨⟨_, _⟩, ha, hr⟩ := Reading.ok_of_map h
      obtain ⟨rfl, rfl⟩ := Prod.mk.inj hr
      exact (ih ha).cons
    · exact hnil
    · exact hslash

end DocQuery.Quoted
