import DocQuery.Path.Error

/- Reading steps: each gives a result and the text that is left, a proper suffix of what it was
given. -/

namespace DocQuery

/-- What a reading step gives: a result and the text after it, or a fault. -/
abbrev Reading (α : Type) := Except Fault (α × List Char)

namespace Reading

theorem ok_of_bind {α β : Type} {x : Except Fault α} {f : α → Except Fault β} {b : β}
    (h : x >>= f = .ok b) : ∃ a, x = .ok a ∧ f a = .ok b := by
  cases x with
  | error e => contradiction
  | ok a => exact ⟨a, rfl, h⟩

theorem ok_of_map {α β : Type} {x : Except Fault α} {f : α → β} {b : β}
    (h : x.map f = .ok b) : ∃ a, x = .ok a ∧ f a = b := by
  cases x with
  | error e => contradiction
  | ok a => exact ⟨a, rfl, Except.ok.inj h⟩

end Reading

/-- The rest of a text of which at least one character was read. -/
def IsRest (rest s : List Char) : Prop := ∃ c used, s = c :: used ++ rest

namespace IsRest

theorem head (c : Char) (rest : List Char) : IsRest rest (c :: rest) := ⟨c, [], rfl⟩

theorem suffix {rest s : List Char} (h : IsRest rest s) : rest <:+ s := by
  obtain ⟨c, used, rfl⟩ := h
  exact List.suffix_append _ _

theorem length_lt {rest s : List Char} (h : IsRest rest s) : rest.length < s.length := by
  obtain ⟨c, used, rfl⟩ := h
  rw [List.length_append, List.length_cons]
  omega

theorem of_suffix {rest t s : List Char} (ht : t <:+ s) (h : IsRest rest t) : IsRest rest s := by
  obtain ⟨c, used, rfl⟩ := h
  obtain ⟨front, rfl⟩ := ht
  cases front with
  | nil => exact ⟨c, used, rfl⟩
  | cons d front => exact ⟨d, front ++ c :: used, by simp only [List.cons_append, List.append_assoc]⟩

theorem shrink {rest t s : List Char} (hr : rest <:+ t) (h : IsRest t s) : IsRest rest s := by
  obtain ⟨c, used, rfl⟩ := h
  obtain ⟨front, rfl⟩ := hr
  exact ⟨c, used ++ front, by simp only [List.cons_append, List.append_assoc]⟩

theorem trans {rest t s : List Char} (hr : IsRest rest t) (h : IsRest t s) : IsRest rest s :=
  h.shrink hr.suffix

theorem cons {rest s : List Char} (h : IsRest rest s) {c : Char} : IsRest rest (c :: s) :=
  h.of_suffix (List.suffix_cons c s)

end IsRest
end DocQuery
