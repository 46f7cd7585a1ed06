import DocQuery.Proofs.Path.Nesting
import DocQuery.Proofs.Path.Safety
import DocQuery.Proofs.Path.Steady

/- The counter of levels. At every step of the machine it is the depth at which the first call was
made and one more for each level that is open on the stack. Main statement: it never leaves its
bounds, no level is closed at zero, every call that succeeds ends at the depth where it began, and
the calls inside one another are at most two for each level. -/

namespace DocQuery.Nesting

open Text (skipBlanks)
open Cursor (Run Steady before)

/-- The levels that waiting calls have opened: one each for a negation and a group, and one for each
conjunction of a chain. -/
def levels : List Frame → Nat
  | [] => 0
  | .negation :: stack => levels stack + 1
  | .group :: stack => levels stack + 1
  | .conjunction _ opened _ :: stack => levels stack + opened

namespace State

def levels (s : State) : Nat :=
  match s.control with
  | .chain _ opened _ => Nesting.levels s.stack + opened
  | _ => Nesting.levels s.stack

def calls (s : State) : Nat :=
  match s.control with
  | .leave _ _ => s.stack.length
  | _ => s.stack.length + 1

end State

/-- What may stand on the stack below a call that was made at a depth. -/
inductive Below (start : Nat) : Call → Nat → List Frame → Prop
  | start (call : Call) : Below start call start []
  | negation {depth : Nat} {stack : List Frame} : Below start .unary depth stack →
    Below start .unary (depth + 1) (.negation :: stack)
  | group {depth : Nat} {stack : List Frame} : Below start .unary depth stack →
    Below start .conjunction (depth + 1) (.group :: stack)
  | conjunction {entry : Nat} {stack : List Frame} (opened : Nat) (left : Option Predicate) :
    Below start .conjunction entry stack →
    Below start .unary (entry + opened) (.conjunction entry opened left :: stack)

/-- The counter agrees with the stack and is in its bounds. -/
def Balanced (start : Nat) (s : State) : Prop :=
  s.cursor.depth ≤ maxNesting ∧
  match s.control with
  | .enter call => Below start call s.cursor.depth s.stack
  | .chain entry opened _ => Below start .conjunction entry s.stack ∧ s.cursor.depth = entry + opened
  | .leave call _ => Below start call s.cursor.depth s.stack

def BalancedAfter (start : Nat) : Except Halt ((Control × List Frame) × Cursor) → Prop
  | .ok ((control, stack), cursor) => Balanced start ⟨control, stack, cursor⟩
  | .error reason => reason ≠ .notOpen

def Keeps (start depth : Nat) (m : Run (Control × List Frame)) : Prop :=
  ∀ position, BalancedAfter start (m ⟨position, depth⟩)

variable {text : List Char} {start depth : Nat}

namespace Below

variable {call : Call} {stack : List Frame}

theorem depth_eq (h : Below start call depth stack) : depth = start + levels stack := by
  induction h with
  | start => rfl
  | negation _ ih =>
    rw [levels]
    omega
  | group _ ih =>
    rw [levels]
    omega
  | conjunction opened _ _ ih =>
    rw [levels]
    omega

/-- Each level but the first has at most the call that opened it and the conjunction around it. -/
theorem length_le (h : Below start call depth stack) :
    stack.length ≤ 2 * levels stack +
      match call with
      | .unary => 1
      | .conjunction => 0 := by
  induction h with
  | start call => exact Nat.zero_le _
  | negation _ ih =>
    rw [levels, List.length_cons]
    dsimp only at ih ⊢
    omega
  | group _ ih =>
    rw [levels, List.length_cons]
    dsimp only at ih ⊢
    omega
  | conjunction opened _ _ ih =>
    rw [levels, List.length_cons]
    dsimp only at ih ⊢
    omega

end Below

namespace Balanced

variable {s : State}

theorem depth_eq (h : Balanced start s) : s.cursor.depth = start + s.levels := by
  obtain ⟨control, stack, cursor⟩ := s
  obtain ⟨_, hcontrol⟩ := h
  cases control with
  | enter call => exact hcontrol.depth_eq
  | chain entry opened left =>
    have hentry := hcontrol.1.depth_eq
    have hdepth := hcontrol.2
    dsimp only [State.levels] at hentry hdepth ⊢
    omega
  | leave call p => exact hcontrol.depth_eq

theorem calls_le (h : Balanced start s) : s.calls ≤ 2 * (s.levels + 1) := by
  obtain ⟨control, stack, cursor⟩ := s
  obtain ⟨_, hcontrol⟩ := h
  cases control with
  | enter call =>
    have hlength := Below.length_le hcontrol
    cases call <;> dsimp only [State.calls, State.levels] at hlength ⊢ <;> omega
  | chain entry opened left =>
    have hlength := hcontrol.1.length_le
    dsimp only [State.calls, State.levels] at hlength ⊢
    omega
  | leave call p =>
    have hlength := Below.length_le hcontrol
    cases call <;> dsimp only [State.calls, State.levels] at hlength ⊢ <;> omega

end Balanced

namespace Keeps

variable {α : Type} {m m' : Run (Control × List Frame)}

theorem pure {control : Control} {stack : List Frame}
    (h : ∀ position, Balanced start ⟨control, stack, ⟨position, depth⟩⟩) :
    Keeps start depth (Pure.pure (control, stack)) := h

theorem refuse (error : SyntaxError) : Keeps start depth (Cursor.refuse error) :=
  fun _ h => by cases h

theorem ite {c : Prop} [Decidable c] (h : Keeps start depth m) (h' : Keeps start depth m') :
    Keeps start depth (if c then m else m') := by
  split
  · exact h
  · exact h'

theorem steady {x : Run α} {f : α → Run (Control × List Frame)} (hx : Steady x)
    (hf : ∀ a, Keeps start depth (f a)) : Keeps start depth (x >>= f) := by
  intro position
  rcases hx position with ⟨reason, hreason, herror⟩ | ⟨a, stop, hok⟩
  · rw [Cursor.bind_of_error (herror depth)]
    exact hreason
  · rw [Cursor.bind_of_ok (hok depth)]
    exact hf a stop

theorem descend {f : Unit → Run (Control × List Frame)}
    (hf : depth < maxNesting → Keeps start (depth + 1) (f ())) :
    Keeps start depth (Cursor.descend >>= f) := by
  intro position
  by_cases hdepth : depth < maxNesting
  · have hopen : Cursor.descend ⟨position, depth⟩ = .ok ((), ⟨position, depth + 1⟩) :=
      congrFun (if_neg (Nat.not_le_of_lt hdepth)) _
    rw [Cursor.bind_of_ok hopen]
    exact hf hdepth position
  · have hclosed : Cursor.descend ⟨position, depth⟩ =
        .error (.refused (.tooDeep position)) :=
      congrFun (if_pos (Nat.le_of_not_lt hdepth)) _
    rw [Cursor.bind_of_error hclosed]
    exact fun h => by cases h

theorem ascend {f : Unit → Run (Control × List Frame)} (hf : Keeps start depth (f ())) :
    Keeps start (depth + 1) (Cursor.ascend >>= f) := hf

theorem setDepth {entry : Nat} {f : Unit → Run (Control × List Frame)}
    (hf : Keeps start entry (f ())) : Keeps start depth (Cursor.setDepth entry >>= f) := hf

end Keeps

theorem keeps_enter_unary {stack : List Frame} (h : Below start .unary depth stack)
    (hmax : depth ≤ maxNesting) : Keeps start depth (perform text (.enter .unary) stack) := by
  refine .steady (.skipWhile _) fun _ => .steady .peek fun _ => .steady (.startsWith _) fun _ =>
    .ite ?_ (.steady .peek fun _ => .ite ?_ ?_)
  · exact .descend fun hlt => .steady .advance fun _ => .pure fun _ => ⟨hlt, .negation h⟩
  · exact .descend fun hlt => .steady .advance fun _ => .pure fun _ => ⟨hlt, .group h⟩
  · exact .steady .readComparison fun _ => .pure fun _ => ⟨hmax, h⟩

theorem keeps_enter_conjunction {stack : List Frame} (h : Below start .conjunction depth stack)
    (hmax : depth ≤ maxNesting) :
    Keeps start depth (perform text (.enter .conjunction) stack) :=
  fun _ => ⟨hmax, .conjunction 0 none h⟩

theorem keeps_chain {entry opened : Nat} {left : Predicate} {stack : List Frame}
    (h : Below start .conjunction entry stack) (hmax : entry + opened ≤ maxNesting) :
    Keeps start (entry + opened) (perform text (.chain entry opened left) stack) := by
  refine .steady (.skipWhile _) fun _ => .steady (.startsWith _) fun _ =>
    .ite ?_ (.steady (.startsWith _) fun _ => .ite (.refuse _) ?_)
  · refine .descend fun hlt => .steady (.advanceBy 2) fun _ => .pure fun _ => ⟨hlt, ?_⟩
    exact .conjunction (opened + 1) (some left) h
  · exact .setDepth (.pure fun _ => ⟨Nat.le_trans (Nat.le_add_right _ _) hmax, h⟩)

/-- What returns finds below it a call that waits for it, or none at all. -/
theorem keeps_leave {call : Call} {p : Predicate} {stack : List Frame}
    (h : Below start call depth stack) (hmax : depth ≤ maxNesting) :
    Keeps start depth (perform text (.leave call p) stack) := by
  cases h with
  | start =>
    cases call with
    | unary => exact .pure fun _ => ⟨hmax, .start .unary⟩
    | conjunction => exact .pure fun _ => ⟨hmax, .start .conjunction⟩
  | negation h => exact .ascend (.pure fun _ => ⟨Nat.le_of_succ_le hmax, h⟩)
  | group h =>
    exact .steady (.skipWhile _) fun _ => .steady (.expect _) fun _ =>
      .ascend (.pure fun _ => ⟨Nat.le_of_succ_le hmax, h⟩)
  | conjunction opened left h => exact .pure fun _ => ⟨hmax, h, rfl⟩

theorem Balanced.after_perform {s : State} (h : Balanced start s) :
    BalancedAfter start (perform text s.control s.stack s.cursor) := by
  obtain ⟨control, stack, ⟨position, depth⟩⟩ := s
  obtain ⟨hmax, hcontrol⟩ := h
  cases control with
  | enter call =>
    cases call with
    | unary => exact keeps_enter_unary hcontrol hmax position
    | conjunction => exact keeps_enter_conjunction hcontrol hmax position
  | chain entry opened left =>
    obtain ⟨hbelow, hdepth⟩ := hcontrol
    obtain rfl : depth = entry + opened := hdepth
    exact keeps_chain hbelow hmax position
  | leave call p => exact keeps_leave hcontrol hmax position

theorem Balanced.step {s t : State} (h : Balanced start s) (hstep : step text s = .ok t) :
    Balanced start t := by
  have hafter : BalancedAfter start (perform text s.control s.stack s.cursor) := h.after_perform
  rw [Nesting.step] at hstep
  cases hperform : perform text s.control s.stack s.cursor with
  | ok r =>
    rw [hperform] at hstep hafter
    obtain rfl := Except.ok.inj hstep
    exact hafter
  | error reason =>
    rw [hperform] at hstep
    contradiction

theorem Balanced.step_ne_notOpen {s : State} (h : Balanced start s) :
    Nesting.step text s ≠ .error .notOpen := by
  have hafter : BalancedAfter start (perform text s.control s.stack s.cursor) := h.after_perform
  rw [Nesting.step]
  cases hperform : perform text s.control s.stack s.cursor with
  | ok r => exact fun hstep => by contradiction
  | error reason =>
    rw [hperform] at hafter
    exact fun hstep => hafter (Except.error.inj hstep)

theorem Balanced.reaches {s t : State} (h : Balanced start s) (hsteps : Reaches text s t) :
    Balanced start t := by
  induction hsteps with
  | refl => exact h
  | tail _ hstep ih => exact ih.step hstep

namespace Call

/-- The reader of a call. No more calls than there are levels, and one more, are inside one another. -/
def run (text : List Char) : Call → Run Predicate
  | unary => Cursor.readUnary text (maxNesting + 1)
  | conjunction => Cursor.readConjunction text (Cursor.readUnary text (maxNesting + 1))

def read (levels : Nat) (s : List Char) : Call → Except Fault (Predicate × List Char)
  | unary => readUnary levels s
  | conjunction => readConjunction levels s

theorem performs (call : Call) : Performs text call (call.run text) := by
  cases call with
  | unary => exact performs_unary _
  | conjunction => exact performs_conjunction (performs_unary _)

theorem mirrors (call : Call) (s : List Char) (h : depth ≤ maxNesting) :
    Mirrors text s depth (· = depth) (call.run text) (call.read (maxNesting - depth) s) := by
  have hunary : MirrorsUnary text depth (Cursor.readUnary text (maxNesting + 1)) :=
    mirrors_readUnary (by omega)
  cases call with
  | unary => exact hunary s depth (Nat.le_refl _) h
  | conjunction => exact mirrors_readConjunction hunary s h

theorem before_or_badSlice (text : List Char) (cursor : Cursor) :
    (∃ s, s <:+ text ∧ cursor = before text s cursor.depth) ∨
      Cursor.ahead text cursor = .error (.badSlice cursor.position (Text.utf8Size text)) := by
  obtain ⟨place, depth⟩ := cursor
  cases hslice : Text.slice? text place (Text.utf8Size text) with
  | none =>
    refine .inr ?_
    show Cursor.slice text place (Text.utf8Size text) ⟨place, depth⟩ = _
    rw [Cursor.slice, hslice]
    rfl
  | some s =>
    obtain ⟨front, rest, rfl, hfront, hsize⟩ := Text.slice?_eq_some_iff.mp hslice
    rw [Text.utf8Size_append, Text.utf8Size_append] at hsize
    obtain rfl : rest = [] := Text.utf8Size_eq_zero.mp (by omega)
    rw [List.append_nil]
    exact .inl ⟨s, List.suffix_append front s, by rw [before, position_append, hfront]⟩

theorem run_of_badSlice {cursor : Cursor} {reason : Halt}
    (h : Cursor.ahead text cursor = .error reason) (call : Call) :
    call.run text cursor = .error reason := by
  have hpeek : Cursor.peek text cursor = .error reason := Cursor.bind_of_error h
  have hskip : Cursor.skipWhile text Text.isBlank cursor = .error reason :=
    Cursor.bind_of_error hpeek
  have hunary : Cursor.readUnary text (maxNesting + 1) cursor = .error reason :=
    Cursor.bind_of_error hskip
  cases call with
  | unary => exact hunary
  | conjunction => exact (Cursor.bind_of_ok rfl).trans (Cursor.bind_of_error hunary)

theorem run_ne_endless (call : Call) {cursor : Cursor} (h : cursor.depth ≤ maxNesting) :
    call.run text cursor ≠ .error .endless := by
  intro hrun
  rcases before_or_badSlice text cursor with ⟨s, hs, hcursor⟩ | hbad
  · have hends := call.mirrors s h hs
    rw [← hcursor, hrun] at hends
    cases hends
  · rw [run_of_badSlice hbad call] at hrun
    cases hrun

end Call

/-- A call that is made at any place with no more levels open than there may be keeps the counter in
its bounds: at each step it counts the levels that are open on the stack, none is closed that is not
open, and no more are open at once than were left at the call, with at most two calls inside one
another for each. The call ends, and at the depth of the call if it succeeds, with what is read from
the text with the levels that were left. -/
theorem balanced_call (text : List Char) (call : Call) (cursor : Cursor)
    (h : cursor.depth ≤ maxNesting) :
    (∀ s, Reaches text ⟨.enter call, [], cursor⟩ s →
      s.cursor.depth ≤ maxNesting ∧ s.cursor.depth = cursor.depth + s.levels ∧
      s.levels ≤ maxNesting - cursor.depth ∧ s.calls ≤ 2 * (maxNesting - cursor.depth + 1) ∧
      step text s ≠ .error .notOpen) ∧
    (∀ p stop, call.run text cursor = .ok (p, stop) → stop.depth = cursor.depth ∧
      Reaches text ⟨.enter call, [], cursor⟩ ⟨.leave call p, [], stop⟩) ∧
    (∀ reason, call.run text cursor = .error reason → reason ≠ .endless ∧ reason ≠ .notOpen ∧
      ∃ s, Reaches text ⟨.enter call, [], cursor⟩ s ∧ step text s = .error reason) ∧
    ∀ s, s <:+ text → cursor = before text s cursor.depth →
      Ends text s (· = cursor.depth) (call.run text cursor)
        (call.read (maxNesting - cursor.depth) s) := by
  have hstart : Balanced cursor.depth ⟨.enter call, [], cursor⟩ := ⟨h, .start call⟩
  have hanswers : Answers text ⟨.enter call, [], cursor⟩ call [] (call.run text cursor) :=
    call.performs [] cursor
  refine ⟨?_, ?_, ?_, ?_⟩
  · intro s hs
    have hbalanced := hstart.reaches hs
    have hdepth := hbalanced.depth_eq
    have hmax := hbalanced.1
    have hcalls := hbalanced.calls_le
    exact ⟨hmax, hdepth, by omega, by omega, hbalanced.step_ne_notOpen⟩
  · intro p stop hrun
    rw [hrun] at hanswers
    exact ⟨(hstart.reaches hanswers).depth_eq, hanswers⟩
  · intro reason hrun
    have hendless : reason ≠ .endless := by
      rintro rfl
      exact call.run_ne_endless h hrun
    rw [hrun] at hanswers
    have hhalts : ∃ s, Reaches text ⟨.enter call, [], cursor⟩ s ∧ step text s = .error reason := by
      cases reason with
      | endless => exact absurd rfl hendless
      | _ => exact hanswers
    obtain ⟨s, hs, hstep⟩ := hhalts
    refine ⟨hendless, ?_, s, hs, hstep⟩
    rintro rfl
    exact (hstart.reaches hs).step_ne_notOpen hstep
  · intro s hs hcursor
    have hends := call.mirrors s h hs
    rwa [← hcursor] at hends

def nestedText : List Char := "!(true&&!false)".toList

theorem readUnary_nestedText :
    readUnary 4 nestedText = .ok (.not (.and (.truthy (.literal (.bool true)))
      (.not (.truthy (.literal (.bool false))))), []) := by
  have hinner : ConjunctionText 126 1 "true&&!false".toList
      (.and (.truthy (.literal (.bool true))) (.not (.truthy (.literal (.bool false))))) :=
    .and (.single (.comparison (.truthy (.wordTrue .nil)))) (by decide) .nil
      (.not .nil (by decide) (.comparison (.truthy (.wordFalse .nil))))
  have hgroup : skipBlanks "(true&&!false)".toList = '(' :: ("true&&!false".toList ++ [')']) := rfl
  have hnot : skipBlanks nestedText = '!' :: "(true&&!false)".toList := rfl
  rw [readUnary_not hnot (by decide), readUnary_group hgroup,
    hinner.read 1 [')'] rfl ⟨[], [], .nil, .inr rfl⟩, readChain_close rfl]
  rfl

theorem readUnary_nestedText_tooDeep :
    readUnary 3 nestedText = .error (.tooDeep "!false)".toList) := by
  have hinner : ConjunctionText 127 0 "true".toList (.truthy (.literal (.bool true))) :=
    .single (.comparison (.truthy (.wordTrue .nil)))
  have hgroup : skipBlanks "(true&&!false)".toList =
      '(' :: ("true".toList ++ "&&!false)".toList) := rfl
  have hand : skipBlanks "&&!false)".toList = '&' :: '&' :: "!false)".toList := rfl
  have hlast : skipBlanks "!false)".toList = '!' :: "false)".toList := rfl
  have hnot : skipBlanks nestedText = '!' :: "(true&&!false)".toList := rfl
  rw [readUnary_not hnot (by decide), readUnary_group hgroup,
    hinner.read 1 "&&!false)".toList rfl ⟨[], _, .nil, .inl rfl⟩, readChain_and hand,
    readUnary_zero_not hlast (by decide)]
  rfl

/-- Four levels are open at the last negation. With three left it is refused. -/
theorem balanced_call_negation :
    Call.unary.run nestedText ⟨0, 124⟩ =
      .ok (.not (.and (.truthy (.literal (.bool true))) (.not (.truthy (.literal (.bool false))))),
        ⟨15, 124⟩) ∧
    (∀ s, Reaches nestedText ⟨.enter .unary, [], ⟨0, 124⟩⟩ s → s.levels ≤ 4 ∧ s.calls ≤ 10) ∧
    Call.unary.run nestedText ⟨0, 125⟩ = .error (.refused (.tooDeep 8)) ∧
    ∃ s, Reaches nestedText ⟨.enter .unary, [], ⟨0, 125⟩⟩ s ∧ s.levels ≤ 3 ∧
      step nestedText s = .error (.refused (.tooDeep 8)) := by
  obtain ⟨hsteps, -, -, hends⟩ := balanced_call nestedText .unary ⟨0, 124⟩ (by decide)
  obtain ⟨hsteps', -, hfails, hends'⟩ := balanced_call nestedText .unary ⟨0, 125⟩ (by decide)
  have hread : Ends nestedText nestedText (· = 124) (Call.unary.run nestedText ⟨0, 124⟩)
      (readUnary 4 nestedText) := hends nestedText List.suffix_rfl rfl
  have hrefused : Ends nestedText nestedText (· = 125) (Call.unary.run nestedText ⟨0, 125⟩)
      (readUnary 3 nestedText) := hends' nestedText List.suffix_rfl rfl
  rw [readUnary_nestedText] at hread
  rw [readUnary_nestedText_tooDeep] at hrefused
  obtain ⟨_, rfl, hrun⟩ := hread.eq_ok
  refine ⟨hrun, ?_, hrefused.eq_refused, ?_⟩
  · intro s hs
    obtain ⟨_, _, hlevels, hcalls, _⟩ := hsteps s hs
    exact ⟨hlevels, hcalls⟩
  · obtain ⟨_, _, s, hs, hstep⟩ := hfails _ hrefused.eq_refused
    exact ⟨s, hs, (hsteps' s hs).2.2.1, hstep⟩

end DocQuery.Nesting
