import DocQuery.Path.Parser

/- Steps of a reader that works in place. Its cursor moves over the bytes of the text and counts the
levels that are open; what it looks at is a slice of the text between two bytes. Three things would
stop it for good: a slice that is no stretch of whole characters, a level closed that was not open,
and a loop or a recursion without an end. -/

namespace DocQuery

namespace Text

/-- A text in two parts, the first of a given number of bytes. -/
def splitBytes? : List Char → Nat → Option (List Char × List Char)
  | s, 0 => some ([], s)
  | [], _ + 1 => none
  | c :: s, n + 1 =>
    if c.utf8Size ≤ n + 1 then
      (splitBytes? s (n + 1 - c.utf8Size)).map fun (t, rest) => (c :: t, rest)
    else none

/-- The text from one byte to another. There is none if a bound is inside a character or behind the
end, or if the bounds are out of order. -/
def slice? (s : List Char) (start stop : Nat) : Option (List Char) :=
  if start ≤ stop then do
    let (_, rest) ← splitBytes? s start
    let (t, _) ← splitBytes? rest (stop - start)
    return t
  else none

theorem utf8Size_eq_zero {s : List Char} : utf8Size s = 0 ↔ s = [] := by
  cases s with
  | nil => exact ⟨fun _ => rfl, fun _ => rfl⟩
  | cons c s =>
    have hpos := c.utf8Size_pos
    rw [utf8Size_cons]
    exact ⟨fun h => by omega, fun h => by contradiction⟩

theorem splitBytes?_append (t rest : List Char) :
    splitBytes? (t ++ rest) (utf8Size t) = some (t, rest) := by
  induction t with
  | nil => 
    cases rest <;> rfl
  | cons c t ih =>
    obtain ⟨n, hn⟩ := Nat.exists_eq_succ_of_ne_zero (Nat.ne_of_gt c.utf8Size_pos)
    have hsize : utf8Size (c :: t) = n + utf8Size t + 1 := by
      rw [utf8Size_cons, hn]
      omega
    have hrest : n + utf8Size t + 1 - c.utf8Size = utf8Size t := by omega
    rw [List.cons_append, hsize, splitBytes?, if_pos (by omega), hrest, ih]
    rfl

theorem append_of_splitBytes? {s t rest : List Char} {n : Nat}
    (h : splitBytes? s n = some (t, rest)) : s = t ++ rest ∧ utf8Size t = n := by
  induction s generalizing n t with
  | nil =>
    cases n with
    | zero =>
      obtain ⟨rfl, rfl⟩ := Prod.mk.inj (Option.some.inj h)
      exact ⟨rfl, rfl⟩
    | succ n => contradiction
  | cons c s ih =>
    cases n with
    | zero =>
      obtain ⟨rfl, rfl⟩ := Prod.mk.inj (Option.some.inj h)
      exact ⟨rfl, rfl⟩
    | succ n =>
      rw [splitBytes?] at h
      split at h
      · next hle =>
        obtain ⟨⟨u, r⟩, hu, hr⟩ := Option.map_eq_some_iff.mp h
        obtain ⟨rfl, rfl⟩ := Prod.mk.inj hr
        obtain ⟨rfl, hsize⟩ := ih hu
        exact ⟨rfl, by rw [utf8Size_cons]; omega⟩
      · contradiction

theorem slice?_eq_some_iff {s t : List Char} {start stop : Nat} :
    slice? s start stop = some t ↔
      ∃ front rest, s = front ++ (t ++ rest) ∧ utf8Size front = start ∧
        start + utf8Size t = stop := by
  rw [slice?]
  constructor
  · intro h
    split at h
    · next hle =>
      obtain ⟨⟨front, r⟩, hfront, h⟩ := Option.bind_eq_some_iff.mp h
      obtain ⟨⟨u, rest⟩, hu, h⟩ := Option.bind_eq_some_iff.mp h
      obtain rfl := Option.some.inj h
      obtain ⟨rfl, hsize⟩ := append_of_splitBytes? hfront
      obtain ⟨rfl, hsize'⟩ := append_of_splitBytes? hu
      exact ⟨front, rest, rfl, hsize, by omega⟩
    · contradiction
  · rintro ⟨front, rest, rfl, rfl, rfl⟩
    rw [if_pos (Nat.le_add_right _ _), splitBytes?_append]
    show (splitBytes? (t ++ rest) (utf8Size front + utf8Size t - utf8Size front)).bind _ = _
    rw [Nat.add_sub_cancel_left, splitBytes?_append]
    rfl

end Text

/-- Where a reader stands: the byte before it, and the levels that are open there. -/
structure Cursor where
  position : Nat
  depth : Nat

/-- Why a reader stops: an error of the text, a slice that is none, a level closed that is not open,
or a loop or a recursion that is cut off. -/
inductive Halt where
  | refused (error : SyntaxError)
  | badSlice (start stop : Nat)
  | notOpen
  | endless
deriving DecidableEq

namespace Cursor

open Text (isBlank)

abbrev Run (α : Type) := StateT Cursor (Except Halt) α

def halt {α : Type} (reason : Halt) : Run α := fun _ => .error reason

def refuse {α : Type} (error : SyntaxError) : Run α := halt (.refused error)

variable (text : List Char)

/-- The text from one byte to another. Nothing is read on behind a slice that is none. -/
def slice (start stop : Nat) : Run (List Char) :=
  match Text.slice? text start stop with
  | none => halt (.badSlice start stop)
  | some t => pure t

/-- The byte before which the cursor is. -/
def here : Run Nat := do return (← get).position

/-- What is in front of the cursor. -/
def ahead : Run (List Char) := do slice text (← here) (Text.utf8Size text)

def peek : Run (Option Char) := do return (← ahead text).head?

def startsWith (word : List Char) : Run Bool := do return word.isPrefixOf (← ahead text)

/-- Whether a word is in front of the cursor and ends there as a word. -/
def startsWithKeyword (word : List Char) : Run Bool := do
  if ← startsWith text word then
    let rest ← slice text ((← here) + Text.utf8Size word) (Text.utf8Size text)
    return rest.head?.all fun c => !(Text.isAlphanumeric c || c == '_')
  else return false

def advance : Run Unit := do
  match ← peek text with
  | none => return
  | some c => modify fun cursor => { cursor with position := cursor.position + c.utf8Size }

def advanceBy : Nat → Run Unit
  | 0 => pure ()
  | n + 1 => do
    advance text
    advanceBy n

/-- Over the characters of a class, in fewer than `rounds` rounds. -/
def skipWithin (p : Char → Bool) : (rounds : Nat) → Run Unit
  | 0 => halt .endless
  | rounds + 1 => do
    if (← peek text).any p then
      advance text
      skipWithin p rounds
    else return

/-- No loop has more rounds than the text has characters, and one more to stop. -/
def skipWhile (p : Char → Bool) : Run Unit := skipWithin text p (text.length + 1)

def skipIf (p : Char → Bool) : Run Unit := do
  if (← peek text).any p then advance text else return

def unexpected {α : Type} : Run α := do
  match ← peek text with
  | none => refuse .unexpectedEnd
  | some c => refuse (.unexpectedChar c (← here))

def expect (c : Char) : Run Unit := do
  match ← peek text with
  | none => if c = ']' ∨ c = ')' then refuse .unclosedBracket else unexpected text
  | some d => if d = c then advance text else unexpected text

/-- The cursor before a rest of the text. -/
def before (text rest : List Char) (depth : Nat) : Cursor := ⟨DocQuery.position text rest, depth⟩

variable {text} {s : List Char} {depth : Nat}

theorem bind_of_ok {α β : Type} {x : Run α} {f : α → Run β} {a : α} {cursor cursor' : Cursor}
    (h : x cursor = .ok (a, cursor')) : (x >>= f) cursor = f a cursor' := by
  show Except.bind (x cursor) (fun r => f r.1 r.2) = f a cursor'
  rw [h]
  rfl

theorem bind_of_error {α β : Type} {x : Run α} {f : α → Run β} {reason : Halt} {cursor : Cursor}
    (h : x cursor = .error reason) : (x >>= f) cursor = .error reason := by
  show Except.bind (x cursor) (fun r => f r.1 r.2) = .error reason
  rw [h]
  rfl

theorem here_bind {α : Type} (f : Nat → Run α) (cursor : Cursor) :
    (here >>= f) cursor = f cursor.position cursor := rfl

theorem slice_before {t : List Char} (h : t ++ s <:+ text) (cursor : Cursor) :
    slice text (DocQuery.position text (t ++ s)) (DocQuery.position text s) cursor =
      .ok (t, cursor) := by
  obtain ⟨front, rfl⟩ := h
  have hstop : DocQuery.position (front ++ (t ++ s)) s =
      Text.utf8Size front + Text.utf8Size t := by
    rw [← List.append_assoc, position_append, Text.utf8Size_append]
  rw [slice, position_append, hstop, Text.slice?_eq_some_iff.mpr ⟨front, s, rfl, rfl, rfl⟩]
  rfl

theorem slice_rest (h : s <:+ text) (cursor : Cursor) :
    slice text (DocQuery.position text s) (Text.utf8Size text) cursor = .ok (s, cursor) := by
  have hslice := slice_before (t := s) (s := []) ((List.append_nil s).symm ▸ h) cursor
  rw [List.append_nil] at hslice
  exact hslice

theorem ahead_before (h : s <:+ text) :
    ahead text (before text s depth) = .ok (s, before text s depth) := slice_rest h _

theorem peek_before (h : s <:+ text) :
    peek text (before text s depth) = .ok (s.head?, before text s depth) :=
  bind_of_ok (ahead_before h)

theorem startsWith_before (h : s <:+ text) (word : List Char) :
    startsWith text word (before text s depth) = .ok (word.isPrefixOf s, before text s depth) :=
  bind_of_ok (ahead_before h)

theorem position_add {t : List Char} (h : t ++ s <:+ text) :
    DocQuery.position text (t ++ s) + Text.utf8Size t = DocQuery.position text s := by
  obtain ⟨front, rfl⟩ := h
  rw [position_append, ← List.append_assoc, position_append, Text.utf8Size_append]

theorem position_add_size (h : s <:+ text) :
    DocQuery.position text s + Text.utf8Size s = Text.utf8Size text := by
  obtain ⟨front, rfl⟩ := h
  rw [position_append, Text.utf8Size_append]

theorem size_le_position_iff (h : s <:+ text) :
    Text.utf8Size text ≤ DocQuery.position text s ↔ s = [] := by
  have hadd := position_add_size h
  rw [← Text.utf8Size_eq_zero]
  omega

theorem position_eq_iff {t : List Char} (h : t ++ s <:+ text) :
    DocQuery.position text s = DocQuery.position text (t ++ s) ↔ t = [] := by
  have hadd := position_add h
  rw [← Text.utf8Size_eq_zero]
  omega

/-- Whether a word is in front of the cursor and ends there is what looking for it tells. -/
theorem startsWithKeyword_before (h : s <:+ text) (word : List Char) :
    startsWithKeyword text word (before text s depth) =
      .ok ((keyword? word s).isSome, before text s depth) := by
  rw [startsWithKeyword, bind_of_ok (startsWith_before h word)]
  cases hword : word.isPrefixOf s with
  | false =>
    have hne : ¬s.take word.length = word := fun htake =>
      absurd (List.isPrefixOf_iff_prefix.mpr (List.prefix_iff_eq_take.mpr htake.symm))
        (Bool.eq_false_iff.mp hword)
    rw [if_neg Bool.false_ne_true, keyword?, if_neg fun hand => hne hand.1]
    rfl
  | true =>
    obtain ⟨rest, rfl⟩ := List.isPrefixOf_iff_prefix.mp hword
    have hslice := slice_rest ((List.suffix_append word rest).trans h)
    rw [← position_add h] at hslice
    rw [if_pos rfl, here_bind, keyword?, List.take_left, List.drop_left]
    refine (bind_of_ok (hslice _)).trans ?_
    cases rest.head?.all fun c => !(Text.isAlphanumeric c || c == '_') with
    | false => rw [if_neg fun hand => Bool.false_ne_true hand.2]; rfl
    | true => rw [if_pos ⟨rfl, rfl⟩]; rfl

theorem advance_before {c : Char} (h : c :: s <:+ text) :
    advance text (before text (c :: s) depth) = .ok ((), before text s depth) := by
  have hposition := position_add (t := [c]) h
  rw [advance, bind_of_ok (peek_before h)]
  show Except.ok ((), Cursor.mk (DocQuery.position text (c :: s) + c.utf8Size) depth) = _
  exact congrArg (fun n => Except.ok ((), Cursor.mk n depth)) hposition

theorem advanceBy_before {t : List Char} (h : t ++ s <:+ text) :
    advanceBy text t.length (before text (t ++ s) depth) = .ok ((), before text s depth) := by
  induction t with
  | nil => rfl
  | cons c t ih =>
    rw [List.length_cons, advanceBy, List.cons_append, bind_of_ok (advance_before (s := t ++ s) h)]
    exact ih ((List.suffix_cons c _).trans h)

theorem skipWithin_before {p : Char → Bool} {rounds : Nat} (h : s <:+ text)
    (hrounds : s.length < rounds) :
    skipWithin text p rounds (before text s depth) =
      .ok ((), before text (s.dropWhile p) depth) := by
  induction s generalizing rounds with
  | nil =>
    cases rounds with
    | zero => contradiction
    | succ rounds =>
      rw [skipWithin, bind_of_ok (peek_before h)]
      rfl
  | cons c s ih =>
    cases rounds with
    | zero => contradiction
    | succ rounds =>
      rw [skipWithin, bind_of_ok (peek_before h), List.head?_cons, Option.any_some]
      cases hc : p c with
      | true =>
        rw [if_pos rfl, bind_of_ok (advance_before h), List.dropWhile_cons_of_pos hc]
        exact ih ((List.suffix_cons c s).trans h) (Nat.lt_of_succ_lt_succ hrounds)
      | false =>
        rw [if_neg Bool.false_ne_true, List.dropWhile_cons_of_neg (Bool.eq_false_iff.mp hc)]
        rfl

theorem skipWhile_before {p : Char → Bool} (h : s <:+ text) :
    skipWhile text p (before text s depth) = .ok ((), before text (s.dropWhile p) depth) :=
  skipWithin_before h (Nat.lt_succ_of_le h.length_le)

end Cursor
end DocQuery
