import DocQuery.Path.Reading
import DocQuery.Text.Alphanumeric

/- Names that a path writes without quotes. -/

namespace DocQuery

/-- Characters of a name that is written without quotes. -/
def isIdentifierChar (c : Char) : Bool :=
  Text.isAlphanumeric c || c == '_' || c == '-' || c == '@'

def isIdentifier (name : String) : Bool :=
  !name.toList.isEmpty && name.toList.all isIdentifierChar

/-- The longest name at the front of a text; a name has at least one character. -/
def readIdentifier (s : List Char) : Reading String :=
  if s.takeWhile isIdentifierChar = [] then .error (.unexpected s)
  else .ok (String.ofList (s.takeWhile isIdentifierChar), s.dropWhile isIdentifierChar)

theorem isRest_of_readIdentifier {s rest : List Char} {name : String}
    (h : readIdentifier s = .ok (name, rest)) : IsRest rest s := by
  have hs : s.takeWhile isIdentifierChar ++ s.dropWhile isIdentifierChar = s :=
    List.takeWhile_append_dropWhile
  rw [readIdentifier] at h
  by_cases hnil : s.takeWhile isIdentifierChar = []
  · rw [if_pos hnil] at h
    contradiction
  · rw [if_neg hnil] at h
    obtain ⟨_, rfl⟩ := Prod.mk.inj (Except.ok.inj h)
    obtain ⟨c, used, htake⟩ := List.exists_cons_of_ne_nil hnil
    exact ⟨c, used, by rw [← htake, hs]⟩

end DocQuery
