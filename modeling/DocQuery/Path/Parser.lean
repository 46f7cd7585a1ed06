import DocQuery.Path.Condition

/- Reading paths. A path is a start and any number of segments, each after a point or in brackets. -/

namespace DocQuery

open Text (skipBlanks)

def readStep : List Char → Reading Segment
  | '*' :: s => .ok (.wildcard, s)
  | s => (readIdentifier s).map fun (name, rest) => (.key name, rest)

def readNextName (s : List Char) : Except Fault (Option (String × List Char)) :=
  match skipBlanks s with
  | ',' :: s =>
    match skipBlanks s with
    | [] => .error .unclosedBracket
    | s => (readQuoted s).map some
  | _ => .ok none

theorem isRest_of_readNextName {s rest : List Char} {name : String}
    (h : readNextName s = .ok (some (name, rest))) : IsRest rest s := by
  rw [readNextName] at h
  refine .of_suffix (Text.skipBlanks_suffix s) ?_
  split at h
  · next s' hcomma =>
    rw [hcomma]
    refine .cons (.of_suffix (Text.skipBlanks_suffix s') ?_)
    split at h
    · contradiction
    · obtain ⟨_, hname, hr⟩ := Reading.ok_of_map h
      rw [Option.some.inj hr] at hname
      exact isRest_of_readQuoted hname
  · exact nomatch Except.ok.inj h

/-- At most `fuel` names after the first one of a list. -/
def readNamesWithin : (fuel : Nat) → List Char → Reading (List String)
  | 0, s => .ok ([], skipBlanks s)
  | fuel + 1, s =>
    match readNextName s with
    | .error fault => .error fault
    | .ok none => .ok ([], skipBlanks s)
    | .ok (some (name, rest)) =>
      (readNamesWithin fuel rest).map fun (names, rest) => (name :: names, rest)

/-- The names after the first one of a list. There are fewer of them than characters. -/
def readMoreNames (s : List Char) : Reading (List String) := readNamesWithin s.length s

theorem readNamesWithin_eq {fuel : Nat} {s : List Char} (h : s.length ≤ fuel) :
    readNamesWithin fuel s = readMoreNames s := by
  suffices hall : ∀ (a b : Nat) (s : List Char), s.length ≤ a → s.length ≤ b →
      readNamesWithin a s = readNamesWithin b s from hall _ _ s h (Nat.le_refl _)
  intro a
  induction a with
  | zero =>
    intro b s ha _
    have hs : s = [] := List.eq_nil_of_length_eq_zero (Nat.le_zero.mp ha)
    subst hs
    cases b with
    | zero => rfl
    | succ b => rfl
  | succ a ih =>
    intro b s ha hb
    cases b with
    | zero =>
      have hs : s = [] := List.eq_nil_of_length_eq_zero (Nat.le_zero.mp hb)
      subst hs
      rfl
    | succ b =>
      rw [readNamesWithin, readNamesWithin]
      cases hnext : readNextName s with
      | error fault => rfl
      | ok next =>
        cases next with
        | none => rfl
        | some next =>
          obtain ⟨name, rest⟩ := next
          have hrest := (isRest_of_readNextName hnext).length_lt
          exact congrArg (Except.map _) (ih b rest (by omega) (by omega))

theorem readMoreNames_of_error {s : List Char} {fault : Fault}
    (h : readNextName s = .error fault) : readMoreNames s = .error fault := by
  rw [← readNamesWithin_eq (Nat.le_succ s.length), readNamesWithin, h]

theorem readMoreNames_of_none {s : List Char} (h : readNextName s = .ok none) :
    readMoreNames s = .ok ([], skipBlanks s) := by
  rw [← readNamesWithin_eq (Nat.le_succ s.length), readNamesWithin, h]

theorem readMoreNames_of_some {s rest : List Char} {name : String}
    (h : readNextName s = .ok (some (name, rest))) :
    readMoreNames s = (readMoreNames rest).map fun (names, rest) => (name :: names, rest) := by
  rw [← readNamesWithin_eq (Nat.le_succ s.length), readNamesWithin, h]
  exact congrArg (Except.map _)
    (readNamesWithin_eq (Nat.le_of_lt (isRest_of_readNextName h).length_lt))

/-- One name is a key, several are a key list. -/
def Segment.ofNames (first : String) : List String → Segment
  | [] => .key first
  | names => .keys (first :: names)

def readBracketContent : List Char → Except Fault (Segment × List Char)
  | [] => .error .unclosedBracket
  | '*' :: s => .ok (.wildcard, s)
  | '?' :: s => do
    let rest ← expect '(' (skipBlanks s)
    let (condition, rest) ← readConjunction maxNesting rest
    let rest ← expect ')' (skipBlanks rest)
    return (.filter condition, rest)
  | s => do
    let (first, rest) ← readQuoted s
    let (names, rest) ← readMoreNames rest
    return (.ofNames first names, rest)

def readBracket (s : List Char) : Except Fault (Segment × List Char) := do
  let (segment, rest) ← readBracketContent (skipBlanks s)
  let rest ← expect ']' (skipBlanks rest)
  return (segment, rest)

def readSegment : List Char → Except Fault (Segment × List Char)
  | '.' :: s => readStep s
  | '[' :: s => readBracket s
  | s => .error (.unexpected s)

theorem isRest_of_readStep {s rest : List Char} {segment : Segment}
    (h : readStep s = .ok (segment, rest)) : IsRest rest s := by
  unfold readStep at h
  split at h
  · obtain ⟨_, rfl⟩ := Prod.mk.inj (Except.ok.inj h)
    exact .head _ _
  · obtain ⟨⟨name, r⟩, ha, hr⟩ := Reading.ok_of_map h
    obtain ⟨_, rfl⟩ := Prod.mk.inj hr
    exact isRest_of_readIdentifier ha

theorem suffix_of_readNamesWithin {fuel : Nat} {s rest : List Char} {names : List String}
    (h : readNamesWithin fuel s = .ok (names, rest)) : rest <:+ s := by
  induction fuel generalizing s names with
  | zero =>
    obtain ⟨_, rfl⟩ := Prod.mk.inj (Except.ok.inj h)
    exact Text.skipBlanks_suffix s
  | succ fuel ih =>
    rw [readNamesWithin] at h
    split at h
    · contradiction
    · obtain ⟨_, rfl⟩ := Prod.mk.inj (Except.ok.inj h)
      exact Text.skipBlanks_suffix s
    · next hnext =>
      obtain ⟨⟨more, r⟩, ha, hr⟩ := Reading.ok_of_map h
      obtain ⟨_, rfl⟩ := Prod.mk.inj hr
      exact (ih ha).trans (isRest_of_readNextName hnext).suffix

theorem isRest_of_readBracketContent {s rest : List Char} {segment : Segment}
    (h : readBracketContent s = .ok (segment, rest)) : IsRest rest s := by
  unfold readBracketContent at h
  split at h
  · contradiction
  · obtain ⟨_, rfl⟩ := Prod.mk.inj (Except.ok.inj h)
    exact .head _ _
  · obtain ⟨r, hopen, h⟩ := Reading.ok_of_bind h
    obtain ⟨⟨condition, r'⟩, hcondition, h⟩ := Reading.ok_of_bind h
    obtain ⟨r'', hclose, h⟩ := Reading.ok_of_bind h
    obtain ⟨_, rfl⟩ := Prod.mk.inj (Except.ok.inj h)
    exact (((isRest_of_readConjunction hcondition).of_suffix (suffix_of_expect hopen)).shrink
      (suffix_of_expect hclose)).cons
  · obtain ⟨⟨first, r⟩, hfirst, h⟩ := Reading.ok_of_bind h
    obtain ⟨⟨names, r'⟩, hnames, h⟩ := Reading.ok_of_bind h
    obtain ⟨_, rfl⟩ := Prod.mk.inj (Except.ok.inj h)
    exact (isRest_of_readQuoted hfirst).shrink (suffix_of_readNamesWithin hnames)

theorem isRest_of_readSegment {s rest : List Char} {segment : Segment}
    (h : readSegment s = .ok (segment, rest)) : IsRest rest s := by
  unfold readSegment at h
  split at h
  · exact (isRest_of_readStep h).cons
  · obtain ⟨⟨content, r⟩, hcontent, h⟩ := Reading.ok_of_bind h
    obtain ⟨r', hclose, h⟩ := Reading.ok_of_bind h
    obtain ⟨_, rfl⟩ := Prod.mk.inj (Except.ok.inj h)
    exact (((isRest_of_readBracketContent hcontent).shrink (suffix_of_expect hclose)).of_suffix
      (Text.skipBlanks_suffix _)).cons
  · contradiction

/-- At most `fuel` segments, up to the end of the text. -/
def readSegmentsWithin : (fuel : Nat) → List Char → Except Fault (List Segment)
  | _, [] => .ok []
  | 0, s => .error (.unexpected s)
  | fuel + 1, s =>
    match readSegment s with
    | .error fault => .error fault
    | .ok (segment, rest) => (readSegmentsWithin fuel rest).map (segment :: ·)

/-- Segments up to the end of the text. There are no more of them than characters. -/
def readSegments (s : List Char) : Except Fault (List Segment) := readSegmentsWithin s.length s

theorem readSegmentsWithin_eq {fuel : Nat} {s : List Char} (h : s.length ≤ fuel) :
    readSegmentsWithin fuel s = readSegments s := by
  suffices hall : ∀ (a b : Nat) (s : List Char), s.length ≤ a → s.length ≤ b →
      readSegmentsWithin a s = readSegmentsWithin b s from hall _ _ s h (Nat.le_refl _)
  intro a
  induction a with
  | zero =>
    intro b s ha _
    have hs : s = [] := List.eq_nil_of_length_eq_zero (Nat.le_zero.mp ha)
    subst hs
    rw [readSegmentsWithin, readSegmentsWithin]
  | succ a ih =>
    intro b s ha hb
    cases s with
    | nil => rw [readSegmentsWithin, readSegmentsWithin]
    | cons c s =>
      cases b with
      | zero => exact absurd hb (Nat.not_succ_le_zero _)
      | succ b =>
        rw [readSegmentsWithin, readSegmentsWithin]
        · cases hstep : readSegment (c :: s) with
          | error fault => rfl
          | ok step =>
            obtain ⟨segment, rest⟩ := step
            have hrest := (isRest_of_readSegment hstep).length_lt
            exact congrArg (Except.map _) (ih b rest (by omega) (by omega))
        · intro h
          contradiction
        · intro h
          contradiction

theorem readSegments_cons (c : Char) (s : List Char) :
    readSegments (c :: s) = readSegment (c :: s) >>= fun (segment, rest) =>
      (readSegments rest).map (segment :: ·) := by
  rw [readSegments, List.length_cons, readSegmentsWithin]
  · cases hstep : readSegment (c :: s) with
    | error fault => rfl
    | ok step =>
      obtain ⟨segment, rest⟩ := step
      have hrest := (isRest_of_readSegment hstep).length_lt
      rw [List.length_cons] at hrest
      exact congrArg (Except.map _) (readSegmentsWithin_eq (Nat.le_of_lt_succ hrest))
  · intro h
    contradiction

def readPath : List Char → Except Fault Path
  | '$' :: '[' :: '*' :: ']' :: s => (readSegments s).map (⟨.eachElement, ·⟩)
  | '$' :: s => (readSegments s).map (⟨.document, ·⟩)
  | '[' :: s => (readSegments ('[' :: s)).map (⟨.document, ·⟩)
  | s => do
    let (first, rest) ← readStep s
    let segments ← readSegments rest
    return ⟨.document, first :: segments⟩

namespace Path

/-- The path that a text between blanks writes. -/
def parse (text : String) : Except SyntaxError Path :=
  match Text.trim text.toList with
  | [] => .error .emptyPath
  | c :: s => (readPath (c :: s)).mapError (Fault.locate (c :: s))

end Path

namespace Projection

/-- The path that a text writes, or no path where the text is the sentinel. -/
def parse (sentinel text : String) : Except SyntaxError Projection :=
  if Text.trim text.toList = sentinel.toList then .ok .implicitOnly
  else (Path.parse text).map .along

end Projection
end DocQuery
