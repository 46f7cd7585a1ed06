import DocQuery.Proofs.Path.InPlace
import Mathlib.Logic.Relation

/- The readers of conditions as a machine. The calls that wait for others stand on a stack, so what
is open is seen apart from the counter of the cursor. Main statement: the machine comes to what the
readers come to, from any place and above any stack. -/

namespace DocQuery.Nesting

open Text (isBlank)
open Cursor (Run)

inductive Call where
  | unary
  | conjunction

/-- A call that waits for what another one reads. -/
inductive Frame where
  | negation
  | group
  /-- A conjunction with the depth that it began at, the conjunctions that it has opened, and what
  was read before the conjunct. -/
  | conjunction (entry opened : Nat) (left : Option Predicate)

inductive Control where
  | enter (call : Call)
  /-- Looks behind a conjunct for the next one. -/
  | chain (entry opened : Nat) (left : Predicate)
  | leave (call : Call) (result : Predicate)

structure State where
  control : Control
  stack : List Frame
  cursor : Cursor

def conjoin : Option Predicate → Predicate → Predicate
  | none, p => p
  | some left, p => .and left p

variable (text : List Char)

/-- What is read up to the next call or return. A call that nobody waits for has come to an end. -/
def perform : Control → List Frame → Run (Control × List Frame)
  | .enter .unary, stack => do
    Cursor.skipWhile text isBlank
    if (← Cursor.peek text) = some '!' ∧ (← Cursor.startsWith text ['!', '=']) = false then
      Cursor.descend
      Cursor.advance text
      return (.enter .unary, .negation :: stack)
    else if (← Cursor.peek text) = some '(' then
      Cursor.descend
      Cursor.advance text
      return (.enter .conjunction, .group :: stack)
    else return (.leave .unary (← Cursor.readComparison text), stack)
  | .enter .conjunction, stack => do
    let entry ← get
    return (.enter .unary, .conjunction entry.depth 0 none :: stack)
  | .chain entry opened left, stack => do
    Cursor.skipWhile text isBlank
    if ← Cursor.startsWith text ['&', '&'] then
      Cursor.descend
      Cursor.advanceBy text 2
      return (.enter .unary, .conjunction entry (opened + 1) (some left) :: stack)
    else if ← Cursor.startsWith text ['|', '|'] then Cursor.refuse (.unknownOperator "||")
    else
      Cursor.setDepth entry
      return (.leave .conjunction left, stack)
  | .leave .unary p, .negation :: stack => do
    Cursor.ascend
    return (.leave .unary (.not p), stack)
  | .leave .conjunction p, .group :: stack => do
    Cursor.skipWhile text isBlank
    Cursor.expect text ')'
    Cursor.ascend
    return (.leave .unary p, stack)
  | .leave .unary p, .conjunction entry opened left :: stack =>
    return (.chain entry opened (conjoin left p), stack)
  | control, stack => return (control, stack)

def step (s : State) : Except Halt State :=
  (perform text s.control s.stack s.cursor).map fun ((control, stack), cursor) =>
    ⟨control, stack, cursor⟩

abbrev Reaches : State → State → Prop := Relation.ReflTransGen fun s t => step text s = .ok t

/-- From a state the machine comes to what a run gives: its result, returned to the stack, or the
same halt. Of a run that is cut off nothing is said. -/
def Answers (s : State) (call : Call) (stack : List Frame) :
    Except Halt (Predicate × Cursor) → Prop
  | .ok (p, cursor) => Reaches text s ⟨.leave call p, stack, cursor⟩
  | .error .endless => True
  | .error reason => ∃ t, Reaches text s t ∧ step text t = .error reason

def AnswersAfter (call : Call) (stack : List Frame) :
    Except Halt ((Control × List Frame) × Cursor) → Except Halt (Predicate × Cursor) → Prop
  | .ok ((control, stack'), cursor), y => Answers text ⟨control, stack', cursor⟩ call stack y
  | .error reason, y => y = .error reason

/-- A step that begins as a run does, and after which the machine comes to what the run gives. -/
def Begins (call : Call) (stack : List Frame) (m : Run (Control × List Frame)) (x : Run Predicate) :
    Prop :=
  ∀ cursor, AnswersAfter text call stack (m cursor) (x cursor)

variable {text} {α : Type} {call : Call} {stack : List Frame}

theorem Answers.of_reaches {s t : State} {y : Except Halt (Predicate × Cursor)}
    (hs : Reaches text s t) (h : Answers text t call stack y) : Answers text s call stack y := by
  cases y with
  | ok r => exact hs.trans h
  | error reason =>
    cases reason with
    | endless => exact True.intro
    | _ =>
      obtain ⟨u, hu, hstep⟩ := h
      exact ⟨u, hs.trans hu, hstep⟩

theorem Answers.bind {s : State} {call' : Call} {stack' : List Frame} {x : Run Predicate}
    {f : Predicate → Run Predicate} {cursor : Cursor}
    (hx : Answers text s call' stack' (x cursor))
    (hf : ∀ p cursor', Answers text ⟨.leave call' p, stack', cursor'⟩ call stack (f p cursor')) :
    Answers text s call stack ((x >>= f) cursor) := by
  cases h : x cursor with
  | ok r =>
    obtain ⟨p, cursor'⟩ := r
    rw [h] at hx
    rw [Cursor.bind_of_ok h]
    exact .of_reaches hx (hf p cursor')
  | error reason =>
    rw [h] at hx
    rw [Cursor.bind_of_error h]
    cases reason with
    | endless => exact True.intro
    | _ => exact hx

namespace Begins

theorem bind {x : Run α} {m : α → Run (Control × List Frame)} {y : α → Run Predicate}
    (h : ∀ a, Begins text call stack (m a) (y a)) : Begins text call stack (x >>= m) (x >>= y) := by
  intro cursor
  cases hx : x cursor with
  | ok r =>
    rw [Cursor.bind_of_ok hx, Cursor.bind_of_ok hx]
    exact h r.1 r.2
  | error reason =>
    rw [Cursor.bind_of_error hx, Cursor.bind_of_error hx]
    rfl

theorem ite {c : Prop} [Decidable c] {m m' : Run (Control × List Frame)} {x x' : Run Predicate}
    (h : Begins text call stack m x) (h' : Begins text call stack m' x') :
    Begins text call stack (if c then m else m') (if c then x else x') := by
  split
  · exact h
  · exact h'

theorem refuse (error : SyntaxError) :
    Begins text call stack (Cursor.refuse error) (Cursor.refuse error) := fun _ => rfl

theorem pure {control : Control} {stack' : List Frame} {x : Run Predicate}
    (h : ∀ cursor, Answers text ⟨control, stack', cursor⟩ call stack (x cursor)) :
    Begins text call stack (Pure.pure (control, stack')) x := h

theorem leave (p : Predicate) :
    Begins text call stack (Pure.pure (.leave call p, stack)) (Pure.pure p) :=
  fun _ => .refl

theorem last (x : Run Predicate) :
    Begins text call stack (x >>= fun p => Pure.pure (.leave call p, stack)) x := by
  have h : Begins text call stack (x >>= fun p => Pure.pure (.leave call p, stack))
      (x >>= Pure.pure) := .bind fun p => .leave p
  rwa [bind_pure] at h

theorem answers {control : Control} {stack' : List Frame} {x : Run Predicate}
    (h : Begins text call stack (perform text control stack') x) (cursor : Cursor) :
    Answers text ⟨control, stack', cursor⟩ call stack (x cursor) := by
  have hstep : step text ⟨control, stack', cursor⟩ = (perform text control stack' cursor).map
      fun ((control, stack), cursor) => ⟨control, stack, cursor⟩ := rfl
  have hafter := h cursor
  cases hperform : perform text control stack' cursor with
  | ok r =>
    rw [hperform] at hstep hafter
    exact .of_reaches (.single hstep) hafter
  | error reason =>
    rw [hperform] at hstep hafter
    have hx : x cursor = .error reason := hafter
    rw [hx]
    cases reason with
    | endless => exact True.intro
    | _ => exact ⟨_, .refl, hstep⟩

end Begins

/-- A run that the machine does when it enters a call, from any place and above any stack. -/
def Performs (text : List Char) (call : Call) (x : Run Predicate) : Prop :=
  ∀ stack cursor, Answers text ⟨.enter call, stack, cursor⟩ call stack (x cursor)

theorem conjoinWithin_bind (unary : Run Predicate) (rounds : Nat) (left : Predicate)
    (k : Predicate → Run Predicate) :
    (Cursor.conjoinWithin text unary (rounds + 1) left >>= k) = (do
      Cursor.skipWhile text isBlank
      if ← Cursor.startsWith text ['&', '&'] then
        Cursor.descend
        Cursor.advanceBy text 2
        let right ← unary
        Cursor.conjoinWithin text unary rounds (.and left right) >>= k
      else if ← Cursor.startsWith text ['|', '|'] then Cursor.refuse (.unknownOperator "||")
      else k left) := by
  rw [Cursor.conjoinWithin, bind_assoc]
  refine bind_congr fun _ => ?_
  rw [bind_assoc]
  refine bind_congr fun conjoined => ?_
  split
  · simp only [bind_assoc]
  · rw [bind_assoc]
    refine bind_congr fun disjoined => ?_
    split
    · rfl
    · rw [pure_bind]

theorem answers_conjoin {unary : Run Predicate} (hunary : Performs text .unary unary)
    (entry opened rounds : Nat) (left : Predicate) (cursor : Cursor) :
    Answers text ⟨.chain entry opened left, stack, cursor⟩ .conjunction stack
      ((Cursor.conjoinWithin text unary rounds left >>= fun all => do
        Cursor.setDepth entry
        return all) cursor) := by
  induction rounds generalizing opened left cursor with
  | zero => exact True.intro
  | succ rounds ih =>
    rw [conjoinWithin_bind]
    refine Begins.answers (.bind fun _ => .bind fun _ => .ite ?_ (.bind fun _ => .ite ?_ ?_)) cursor
    · refine .bind fun _ => .bind fun _ => .pure fun cursor => .bind (hunary _ cursor) ?_
      intro right cursor
      exact .of_reaches (.single rfl) (ih (opened + 1) (.and left right) cursor)
    · exact .refuse _
    · exact .bind fun _ => .leave left

theorem performs_conjunction {unary : Run Predicate} (hunary : Performs text .unary unary) :
    Performs text .conjunction (Cursor.readConjunction text unary) := by
  intro stack cursor
  refine Begins.answers (.bind fun entry => .pure fun cursor => .bind (hunary _ cursor) ?_) cursor
  intro first cursor
  exact .of_reaches (.single rfl) (answers_conjoin hunary entry.depth 0 _ first cursor)

theorem performs_unary (calls : Nat) : Performs text .unary (Cursor.readUnary text calls) := by
  induction calls with
  | zero => exact fun _ _ => True.intro
  | succ calls ih =>
    intro stack cursor
    -- A negation and a group wait on the stack for the call inside, which is one of fewer calls.
    refine Begins.answers (.bind fun _ => .bind fun _ => .bind fun _ => .ite ?_
      (.bind fun _ => .ite ?_ ?_)) cursor
    · refine .bind fun _ => .bind fun _ => .pure fun cursor => .bind (ih _ cursor) ?_
      intro inner cursor
      exact Begins.answers (.bind fun _ => .leave (.not inner)) cursor
    · refine .bind fun _ => .bind fun _ => .pure fun cursor =>
        .bind (performs_conjunction ih _ cursor) ?_
      intro inner cursor
      exact Begins.answers
        (.bind fun _ => .bind fun _ => .bind fun _ => .leave inner) cursor
    · exact .last _

end DocQuery.Nesting
