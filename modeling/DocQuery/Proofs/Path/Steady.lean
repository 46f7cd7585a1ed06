import DocQuery.Proofs.Path.InPlace

/- Runs that leave the levels alone: what they come to does not depend on how many are open. Every
reader of a path in place is one, as far as it reads no condition. -/

namespace DocQuery

open Text (isBlank)

namespace Cursor

/-- A run that comes to the same at every depth and ends at the depth where it began. -/
def Steady {α : Type} (x : Run α) : Prop :=
  ∀ position, (∃ reason, reason ≠ .notOpen ∧ ∀ depth, x ⟨position, depth⟩ = .error reason) ∨
    ∃ a stop, ∀ depth, x ⟨position, depth⟩ = .ok (a, ⟨stop, depth⟩)

namespace Steady

variable {α β : Type} {text : List Char}

theorem pure (a : α) : Steady (Pure.pure a) := fun position => .inr ⟨a, position, fun _ => rfl⟩

theorem halt {reason : Halt} (h : reason ≠ .notOpen) : Steady (α := α) (Cursor.halt reason) :=
  fun _ => .inl ⟨reason, h, fun _ => rfl⟩

theorem refuse (error : SyntaxError) : Steady (α := α) (Cursor.refuse error) :=
  halt fun h => by cases h

theorem bind {x : Run α} {f : α → Run β} (hx : Steady x) (hf : ∀ a, Steady (f a)) :
    Steady (x >>= f) := by
  intro position
  rcases hx position with ⟨reason, hreason, herror⟩ | ⟨a, middle, hok⟩
  · exact .inl ⟨reason, hreason, fun depth => bind_of_error (herror depth)⟩
  · rcases hf a middle with ⟨reason, hreason, herror⟩ | ⟨b, stop, hok'⟩
    · exact .inl ⟨reason, hreason, fun depth => (bind_of_ok (hok depth)).trans (herror depth)⟩
    · exact .inr ⟨b, stop, fun depth => (bind_of_ok (hok depth)).trans (hok' depth)⟩

theorem ite {c : Prop} [Decidable c] {x y : Run α} (hx : Steady x) (hy : Steady y) :
    Steady (if c then x else y) := by
  split
  · exact hx
  · exact hy

theorem here : Steady Cursor.here := fun position => .inr ⟨position, position, fun _ => rfl⟩

theorem slice (start stop : Nat) : Steady (Cursor.slice text start stop) := by
  unfold Cursor.slice
  split
  · exact halt fun h => by cases h
  · exact pure _

theorem ahead : Steady (Cursor.ahead text) := here.bind fun position => slice position _

theorem peek : Steady (Cursor.peek text) := ahead.bind fun rest => pure rest.head?

theorem startsWith (word : List Char) : Steady (Cursor.startsWith text word) :=
  ahead.bind fun rest => pure (word.isPrefixOf rest)

theorem startsWithKeyword (word : List Char) : Steady (Cursor.startsWithKeyword text word) :=
  (startsWith word).bind fun _ =>
    ite (here.bind fun _ => (slice _ _).bind fun _ => pure _) (pure false)

theorem advance : Steady (Cursor.advance text) := by
  refine peek.bind fun next => ?_
  cases next with
  | none => exact pure ()
  | some c => exact fun position => .inr ⟨(), position + c.utf8Size, fun _ => rfl⟩

theorem advanceBy (n : Nat) : Steady (Cursor.advanceBy text n) := by
  induction n with
  | zero => exact pure ()
  | succ n ih => exact advance.bind fun _ => ih

theorem skipWhile (p : Char → Bool) : Steady (Cursor.skipWhile text p) := by
  unfold Cursor.skipWhile
  generalize text.length + 1 = rounds
  induction rounds with
  | zero => exact halt fun h => by cases h
  | succ rounds ih => exact peek.bind fun _ => ite (advance.bind fun _ => ih) (pure ())

theorem skipIf (p : Char → Bool) : Steady (Cursor.skipIf text p) :=
  peek.bind fun _ => ite advance (pure ())

theorem unexpected : Steady (α := α) (Cursor.unexpected text) := by
  refine peek.bind fun next => ?_
  cases next with
  | none => exact refuse .unexpectedEnd
  | some c => exact here.bind fun position => refuse (.unexpectedChar c position)

theorem expect (c : Char) : Steady (Cursor.expect text c) := by
  refine peek.bind fun next => ?_
  cases next with
  | none => exact ite (refuse .unclosedBracket) unexpected
  | some d => exact ite advance unexpected

theorem readIdentifier : Steady (Cursor.readIdentifier text) :=
  here.bind fun _ => (skipWhile _).bind fun _ => here.bind fun _ =>
    ite (ite (refuse .unexpectedEnd) unexpected) ((slice _ _).bind fun _ => pure _)

theorem decodeWithin (quote : Char) (rounds : Nat) (done : List Char) :
    Steady (Cursor.decodeWithin text quote rounds done) := by
  induction rounds generalizing done with
  | zero => exact halt fun h => by cases h
  | succ rounds ih =>
    refine peek.bind fun next => ?_
    cases next with
    | none => exact refuse .unclosedString
    | some c =>
      refine ite (advance.bind fun _ => pure done) (ite ?_ (advance.bind fun _ => ih _))
      refine advance.bind fun _ => peek.bind fun next => ?_
      split
      · exact refuse .invalidEscape
      · exact advance.bind fun _ => ih _

theorem readQuoted : Steady (Cursor.readQuoted text) := by
  refine peek.bind fun next => ?_
  cases next with
  | none => exact unexpected
  | some c =>
    exact ite (advance.bind fun _ => (decodeWithin c _ []).bind fun _ => pure _) unexpected

theorem skipDigits : Steady (Cursor.skipDigits text) :=
  peek.bind fun _ => ite (skipWhile _) (refuse .invalidNumber)

theorem skipFraction : Steady (Cursor.skipFraction text) :=
  peek.bind fun _ => ite (advance.bind fun _ => skipDigits) (pure ())

theorem skipExponent : Steady (Cursor.skipExponent text) :=
  peek.bind fun _ => peek.bind fun _ =>
    ite (advance.bind fun _ => (skipIf _).bind fun _ => skipDigits) (pure ())

theorem skipNumeral : Steady (Cursor.skipNumeral text) :=
  (skipIf _).bind fun _ => skipDigits.bind fun _ => skipFraction.bind fun _ => skipExponent

theorem readNumber : Steady (Cursor.readNumber text) := by
  refine here.bind fun _ => skipNumeral.bind fun _ => here.bind fun _ => (slice _ _).bind fun _ => ?_
  split
  · exact refuse .invalidNumber
  · exact pure _

theorem readField (start : Nat) : Steady (Cursor.readField text start) :=
  peek.bind fun _ => ite (advance.bind fun _ => readIdentifier.bind fun _ => pure _)
    (peek.bind fun _ => ite
      (advance.bind fun _ => (skipWhile _).bind fun _ => peek.bind fun _ => ite
        (readQuoted.bind fun _ => (skipWhile _).bind fun _ => (expect _).bind fun _ => pure _)
        (refuse _))
      (refuse _))

theorem readBoolean (start : Nat) : Steady (Cursor.readBoolean text start) :=
  (startsWithKeyword _).bind fun _ => ite ((advanceBy 4).bind fun _ => pure _)
    ((startsWithKeyword _).bind fun _ => ite ((advanceBy 5).bind fun _ => pure _) (refuse _))

theorem readOperand : Steady (Cursor.readOperand text) := by
  refine (skipWhile _).bind fun _ => here.bind fun start => peek.bind fun next => ?_
  cases next with
  | none => exact refuse .unexpectedEnd
  | some c =>
    exact ite (advance.bind fun _ => readField start)
      (ite (readQuoted.bind fun _ => pure _) (ite (readNumber.bind fun _ => pure _)
        (readBoolean start)))

theorem readComparison : Steady (Cursor.readComparison text) := by
  refine readOperand.bind fun left => (skipWhile _).bind fun _ => here.bind fun _ =>
    (skipWhile _).bind fun _ => here.bind fun _ => ite (pure _) ((slice _ _).bind fun op => ?_)
  split
  · exact refuse _
  · exact readOperand.bind fun _ => pure _

end Steady
end Cursor
end DocQuery
