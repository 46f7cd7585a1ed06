import DocQuery.Proofs.Path.InPlace
import DocQuery.Proofs.Path.Joining

/- A run on a cursor mirrors a reading of the text in front of it: it comes to the same result, with
the cursor before the rest of the reading, or to the error of the fault. One rule for each step of a
run takes what is left to show to the text behind the step. -/

namespace DocQuery

open Text (isBlank skipBlanks)
open Cursor (Run before)

/-- A run ends as a reading does: with its result and the cursor before its rest, at a depth as
expected, or with the error of its fault. -/
inductive Ends {α : Type} (text s : List Char) (expected : Nat → Prop) :
    Except Halt (α × Cursor) → Except Fault (α × List Char) → Prop
  | ok {a : α} {rest : List Char} {depth : Nat} (hrest : rest <:+ s) (hdepth : expected depth) :
    Ends text s expected (.ok (a, before text rest depth)) (.ok (a, rest))
  | refused (fault : Fault) :
    Ends text s expected (.error (.refused (fault.locate text))) (.error fault)

/-- Started before a rest of the text, a run ends as a reading of this rest does. -/
def Mirrors {α : Type} (text s : List Char) (depth : Nat) (expected : Nat → Prop) (x : Run α)
    (y : Except Fault (α × List Char)) : Prop :=
  s <:+ text → Ends text s expected (x (before text s depth)) y

section
variable {α β : Type} {text s : List Char} {depth : Nat} {expected : Nat → Prop}

theorem Ends.eq_ok {result : Except Halt (α × Cursor)} {a : α} {rest : List Char}
    (h : Ends text s expected result (.ok (a, rest))) :
    ∃ depth, expected depth ∧ result = .ok (a, before text rest depth) := by
  cases h with
  | ok _ hdepth => exact ⟨_, hdepth, rfl⟩

theorem Ends.eq_refused {result : Except Halt (α × Cursor)} {fault : Fault}
    (h : Ends text s expected result (.error fault)) :
    result = .error (.refused (fault.locate text)) := by
  cases h with
  | refused => rfl

theorem Ends.of_suffix {t : List Char} {result : Except Halt (α × Cursor)} {y : Reading α}
    (h : Ends text t expected result y) (ht : t <:+ s) : Ends text s expected result y := by
  cases h with
  | ok hrest hdepth => exact .ok (hrest.trans ht) hdepth
  | refused fault => exact .refused fault

namespace Mirrors

theorem pure (a : α) (h : expected depth) :
    Mirrors text s depth expected (Pure.pure a) (.ok (a, s)) :=
  fun _ => .ok (List.suffix_refl s) h

theorem refuse (fault : Fault) :
    Mirrors (α := α) text s depth expected (Cursor.refuse (fault.locate text)) (.error fault) :=
  fun _ => .refused fault

theorem inside {x : Run α} {y : Reading α}
    (h : s <:+ text → Mirrors text s depth expected x y) : Mirrors text s depth expected x y :=
  fun hs => h hs hs

/-- A run that goes on after one that mirrors a reading. -/
theorem andThen {x : Run β} {f : β → Run α} {y : Reading β} {z : Reading α} {between : Nat → Prop}
    (hx : Mirrors text s depth between x y) (herror : ∀ fault, y = .error fault → z = .error fault)
    (hf : ∀ b rest depth', y = .ok (b, rest) → between depth' →
      Mirrors text rest depth' expected (f b) z) :
    Mirrors text s depth expected (x >>= f) z := by
  intro hs
  generalize hrun : x (before text s depth) = run
  have hends := hx hs
  rw [hrun] at hends
  cases hends with
  | ok hrest hdepth =>
    rw [Cursor.bind_of_ok hrun]
    exact (hf _ _ _ rfl hdepth (hrest.trans hs)).of_suffix hrest
  | refused fault =>
    rw [Cursor.bind_of_error hrun, herror fault rfl]
    exact .refused fault

theorem bind {x : Run β} {f : β → Run α} {y : Except Fault (β × List Char)}
    {g : β × List Char → Except Fault (α × List Char)} {between : Nat → Prop}
    (hx : Mirrors text s depth between x y)
    (hf : ∀ b rest depth', y = .ok (b, rest) → between depth' →
      Mirrors text rest depth' expected (f b) (g (b, rest))) :
    Mirrors text s depth expected (x >>= f) (y >>= g) := by
  refine hx.andThen ?_ ?_
  · rintro fault rfl
    rfl
  · rintro b rest depth' rfl hbetween
    exact hf b rest depth' rfl hbetween

theorem map {x : Run β} {y : Reading β} (hx : Mirrors text s depth expected x y) (f : β → α) :
    Mirrors text s depth expected (x >>= fun b => Pure.pure (f b))
      (y.map fun (b, rest) => (f b, rest)) := by
  refine hx.andThen ?_ ?_
  · rintro fault rfl
    rfl
  · rintro b rest depth' rfl hbetween
    exact pure (f b) hbetween

/-- A step that moves the cursor to a later rest. -/
theorem step {x : Run β} {f : β → Run α} {y : Reading α} {b : β} {t : List Char} {depth' : Nat}
    (hx : s <:+ text → x (before text s depth) = .ok (b, before text t depth')) (ht : t <:+ s)
    (hf : Mirrors text t depth' expected (f b) y) :
    Mirrors text s depth expected (x >>= f) y := by
  intro hs
  rw [Cursor.bind_of_ok (hx hs)]
  exact (hf (ht.trans hs)).of_suffix ht

theorem here {f : Nat → Run α} {y : Reading α}
    (h : Mirrors text s depth expected (f (position text s)) y) :
    Mirrors text s depth expected (Cursor.here >>= f) y :=
  .step (fun _ => rfl) (List.suffix_refl s) h

theorem peek {f : Option Char → Run α} {y : Reading α}
    (h : Mirrors text s depth expected (f s.head?) y) :
    Mirrors text s depth expected (Cursor.peek text >>= f) y :=
  .step Cursor.peek_before (List.suffix_refl s) h

theorem test {c : Char} {present absent : Run α} {y : Reading α}
    (hpresent : ∀ t, s = c :: t → Mirrors text (c :: t) depth expected present y)
    (habsent : s.head? ≠ some c → Mirrors text s depth expected absent y) :
    Mirrors text s depth expected
      (Cursor.peek text >>= fun next => if next = some c then present else absent) y := by
  refine .peek ?_
  split
  · next hhead =>
    obtain ⟨t, rfl⟩ := List.head?_eq_some_iff.mp hhead
    exact hpresent t rfl
  · next hhead => exact habsent hhead

theorem startsWith (word : List Char) {f : Bool → Run α} {y : Reading α}
    (h : Mirrors text s depth expected (f (word.isPrefixOf s)) y) :
    Mirrors text s depth expected (Cursor.startsWith text word >>= f) y :=
  .step (fun hs => Cursor.startsWith_before hs word) (List.suffix_refl s) h

theorem startsWithKeyword (word : List Char) {f : Bool → Run α} {y : Reading α}
    (h : Mirrors text s depth expected (f (keyword? word s).isSome) y) :
    Mirrors text s depth expected (Cursor.startsWithKeyword text word >>= f) y :=
  .step (fun hs => Cursor.startsWithKeyword_before hs word) (List.suffix_refl s) h

theorem advance {c : Char} {f : Unit → Run α} {y : Reading α}
    (h : Mirrors text s depth expected (f ()) y) :
    Mirrors text (c :: s) depth expected (Cursor.advance text >>= f) y :=
  .step Cursor.advance_before (List.suffix_cons c s) h

theorem advanceBy (word : List Char) {f : Unit → Run α} {y : Reading α}
    (h : Mirrors text s depth expected (f ()) y) :
    Mirrors text (word ++ s) depth expected (Cursor.advanceBy text word.length >>= f) y :=
  .step Cursor.advanceBy_before (List.suffix_append word s) h

theorem skip {p : Char → Bool} {f : Unit → Run α} {y : Reading α}
    (h : Mirrors text (s.dropWhile p) depth expected (f ()) y) :
    Mirrors text s depth expected (Cursor.skipWhile text p >>= f) y :=
  .step Cursor.skipWhile_before (List.dropWhile_suffix p) h

theorem blanks {f : Unit → Run α} {y : Reading α}
    (h : Mirrors text (skipBlanks s) depth expected (f ()) y) :
    Mirrors text s depth expected (Cursor.skipWhile text isBlank >>= f) y := .skip h

theorem skipIf_pos {c : Char} {p : Char → Bool} (hp : p c = true) {f : Unit → Run α}
    {y : Reading α} (h : Mirrors text s depth expected (f ()) y) :
    Mirrors text (c :: s) depth expected (Cursor.skipIf text p >>= f) y := by
  refine .step (fun hs => ?_) (List.suffix_cons c s) h
  rw [Cursor.skipIf, Cursor.bind_of_ok (Cursor.peek_before hs), List.head?_cons, Option.any_some,
    if_pos hp]
  exact Cursor.advance_before hs

theorem skipIf_neg {p : Char → Bool} (hp : s.head?.any p = false) {f : Unit → Run α}
    {y : Reading α} (h : Mirrors text s depth expected (f ()) y) :
    Mirrors text s depth expected (Cursor.skipIf text p >>= f) y := by
  refine .step (fun hs => ?_) (List.suffix_refl s) h
  rw [Cursor.skipIf, Cursor.bind_of_ok (Cursor.peek_before hs), hp, if_neg Bool.false_ne_true]
  rfl

/-- A run of characters of a class: nothing is sliced where there are none. -/
theorem span {p : Char → Bool} {absent : Nat → Run α} {present : List Char → Run α} {y : Reading α}
    (habsent : s.takeWhile p = [] → Mirrors text s depth expected (absent (position text s)) y)
    (hpresent : s.takeWhile p ≠ [] →
      Mirrors text (s.dropWhile p) depth expected (present (s.takeWhile p)) y) :
    Mirrors text s depth expected (do
      let start ← Cursor.here
      Cursor.skipWhile text p
      let stop ← Cursor.here
      if stop = start then absent stop
      else
        let t ← Cursor.slice text start stop
        present t) y := by
  refine .inside fun hs => .here (.skip (.here ?_))
  have happ : s.takeWhile p ++ s.dropWhile p = s := List.takeWhile_append_dropWhile
  have hpos := Cursor.position_eq_iff (happ.symm ▸ hs)
  have hslice := Cursor.slice_before (happ.symm ▸ hs)
  rw [happ] at hpos hslice
  split
  · next hstop =>
    have hnil := hpos.mp hstop
    have hdrop : s.dropWhile p = s := by rwa [hnil, List.nil_append] at happ
    rw [hdrop]
    exact habsent hnil
  · next hstop =>
    exact .step (fun _ => hslice _) (List.suffix_refl _) (hpresent (mt hpos.mpr hstop))

/-- What follows the opening of a level, if one is left to open. -/
theorem descend {f : Unit → Run α} (y : Nat → Reading α) (hzero : y 0 = .error (.tooDeep s))
    (hsucc : depth < maxNesting →
      Mirrors text s (depth + 1) expected (f ()) (y (maxNesting - (depth + 1) + 1))) :
    Mirrors text s depth expected (Cursor.descend >>= f) (y (maxNesting - depth)) := by
  by_cases hdepth : depth < maxNesting
  · have hopen : Cursor.descend (before text s depth) = .ok ((), before text s (depth + 1)) :=
      congrFun (if_neg (Nat.not_le_of_lt hdepth)) _
    have hlevels : maxNesting - depth = maxNesting - (depth + 1) + 1 := by omega
    rw [hlevels]
    exact .step (fun _ => hopen) (List.suffix_refl s) (hsucc hdepth)
  · have hclosed : Cursor.descend (before text s depth) =
        .error (.refused ((Fault.tooDeep s).locate text)) :=
      congrFun (if_pos (Nat.le_of_not_lt hdepth)) _
    have hlevels : maxNesting - depth = 0 := by omega
    intro _
    rw [hlevels, hzero, Cursor.bind_of_error hclosed]
    exact .refused (.tooDeep s)

theorem ascend {f : Unit → Run α} {y : Reading α} (h : Mirrors text s depth expected (f ()) y) :
    Mirrors text s (depth + 1) expected (Cursor.ascend >>= f) y :=
  .step (fun _ => rfl) (List.suffix_refl s) h

end Mirrors

theorem mirrors_advance (c : Char) (s : List Char) (depth : Nat) :
    Mirrors text (c :: s) depth (· = depth) (Cursor.advance text) (.ok ((), s)) :=
  fun hs => Cursor.advance_before hs ▸ .ok (List.suffix_cons c s) rfl

theorem mirrors_skip (p : Char → Bool) (s : List Char) (depth : Nat) :
    Mirrors text s depth (· = depth) (Cursor.skipWhile text p) (.ok ((), s.dropWhile p)) :=
  fun hs => Cursor.skipWhile_before hs ▸ .ok (List.dropWhile_suffix p) rfl

theorem mirrors_unexpected (s : List Char) (depth : Nat) (expected : Nat → Prop) :
    Mirrors (α := α) text s depth expected (Cursor.unexpected text) (.error (.unexpected s)) := by
  refine .peek ?_
  cases s with
  | nil => exact .refuse (.unexpected [])
  | cons c s => exact .here (.refuse (.unexpected (c :: s)))

theorem mirrors_expect (c : Char) (s : List Char) (depth : Nat) :
    Mirrors text s depth (· = depth) (Cursor.expect text c) ((expect c s).map ((), ·)) := by
  refine .peek ?_
  cases s with
  | nil =>
    dsimp only [List.head?_nil]
    rw [expect]
    split
    · exact .refuse .unclosedBracket
    · exact mirrors_unexpected [] depth _
  | cons d s =>
    dsimp only [List.head?_cons]
    rw [expect]
    split
    · exact mirrors_advance d s depth
    · exact mirrors_unexpected (d :: s) depth _

theorem Mirrors.expect {c : Char} {f : Unit → Run α}
    {g : List Char → Except Fault (α × List Char)}
    (h : ∀ rest, s = c :: rest → Mirrors text rest depth expected (f ()) (g rest)) :
    Mirrors text s depth expected (Cursor.expect text c >>= f) (DocQuery.expect c s >>= g) := by
  refine (mirrors_expect c s depth).andThen ?_ ?_
  · intro fault hfault
    cases hexpect : DocQuery.expect c s with
    | error fault' =>
      rw [hexpect] at hfault
      obtain rfl := Except.error.inj hfault
      rfl
    | ok rest =>
      rw [hexpect] at hfault
      contradiction
  · rintro _ rest _ hok rfl
    obtain ⟨rest', hexpect, hrest⟩ := Reading.ok_of_map hok
    obtain ⟨_, rfl⟩ := Prod.mk.inj hrest
    rw [hexpect]
    exact h rest' (eq_cons_of_expect hexpect)

/-- A character that is expected behind blanks. -/
theorem Mirrors.close {c : Char} {f : Unit → Run α} {g : List Char → Except Fault (α × List Char)}
    (h : ∀ rest, Mirrors text rest depth expected (f ()) (g rest)) :
    Mirrors text s depth expected
      (Cursor.skipWhile text isBlank >>= fun _ => Cursor.expect text c >>= f)
      (DocQuery.expect c (skipBlanks s) >>= g) :=
  .blanks (.expect fun rest _ => h rest)

/-- What is left of a numeral that was looked for. -/
def Numeral.left : Option (α × List Char) → Reading Unit
  | none => .error .invalidNumber
  | some r => .ok ((), r.2)

theorem Mirrors.lastLeft {x : Run Unit} {y : Option (α × List Char)}
    (h : Mirrors text s depth expected x (Numeral.left y))
    {g : α × List Char → Option (β × List Char)} (hg : ∀ r, Numeral.left (g r) = .ok ((), r.2)) :
    Mirrors text s depth expected x (Numeral.left (y.bind g)) := by
  cases y with
  | none => exact h
  | some r =>
    rw [Option.bind_some, hg]
    exact h

theorem Mirrors.mapLeft {x : Run Unit} {y : Option (α × List Char)}
    (h : Mirrors text s depth expected x (Numeral.left y)) {f : α × List Char → β × List Char}
    (hf : ∀ r, (f r).2 = r.2) : Mirrors text s depth expected x (Numeral.left (y.map f)) := by
  rw [Option.map_eq_bind]
  exact h.lastLeft fun r => congrArg (fun rest => Except.ok ((), rest)) (hf r)

theorem Mirrors.behind {x : Run Unit} {f : Unit → Run α} {y : Option (β × List Char)}
    {z : Reading α} (hx : Mirrors text s depth (· = depth) x (Numeral.left y))
    (hnone : y = none → z = .error .invalidNumber)
    (hsome : ∀ b rest, y = some (b, rest) → Mirrors text rest depth expected (f ()) z) :
    Mirrors text s depth expected (x >>= f) z := by
  cases y with
  | none =>
    refine hx.andThen ?_ fun _ _ _ h => by contradiction
    intro fault hfault
    rw [hnone rfl, ← Except.error.inj hfault]
  | some r =>
    refine hx.andThen (fun _ h => by contradiction) ?_
    rintro _ rest _ hok rfl
    obtain ⟨_, rfl⟩ := Prod.mk.inj (Except.ok.inj hok)
    exact hsome r.1 r.2 rfl

theorem Mirrors.bindLeft {x : Run Unit} {f : Unit → Run Unit} {y : Option (α × List Char)}
    {g : α × List Char → Option (β × List Char)}
    (hx : Mirrors text s depth (· = depth) x (Numeral.left y))
    (hf : ∀ a rest, Mirrors text rest depth expected (f ()) (Numeral.left (g (a, rest)))) :
    Mirrors text s depth expected (x >>= f) (Numeral.left (y.bind g)) := by
  refine hx.behind ?_ ?_
  · rintro rfl
    rfl
  · rintro a rest rfl
    exact hf a rest

end
end DocQuery
