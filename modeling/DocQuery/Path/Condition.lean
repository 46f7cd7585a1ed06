import DocQuery.Path.Operand

/- Reading predicates. A reading is given the levels that it may still open: a negation, a
parenthesis and a conjunction take one from what is read inside or after them. -/

namespace DocQuery

open Text (skipBlanks)

def isOperatorChar (c : Char) : Bool := c == '=' || c == '!' || c == '<' || c == '>' || c == '~'

def Comparator.ofText? : List Char → Option Comparator
  | ['=', '='] => some .equal
  | ['!', '='] => some .notEqual
  | ['<'] => some .less
  | ['<', '='] => some .lessEqual
  | ['>'] => some .greater
  | ['>', '='] => some .greaterEqual
  | _ => none

/-- An operand, alone or compared with another. The longest run of operator characters has to be an
operator as a whole. -/
def readComparison (s : List Char) : Except Fault (Predicate × List Char) := do
  let (left, rest) ← readOperand s
  let rest := skipBlanks rest
  let op := rest.takeWhile isOperatorChar
  if op = [] then return (.truthy left, rest)
  match Comparator.ofText? op with
  | none => .error (.unknownOperator op)
  | some comparator =>
    let (right, rest) ← readOperand (rest.dropWhile isOperatorChar)
    return (.compare comparator left right, rest)

mutual

/-- A negation, a predicate in parentheses or a comparison, after any blanks. -/
def readUnary (levels : Nat) (s : List Char) : Except Fault (Predicate × List Char) :=
  match skipBlanks s with
  | '!' :: rest =>
    if rest.head? = some '=' then readComparison ('!' :: rest)
    else
      match levels with
      | 0 => .error (.tooDeep ('!' :: rest))
      | levels + 1 => do
        let (inner, rest) ← readUnary levels rest
        return (.not inner, rest)
  | '(' :: rest =>
    match levels with
    | 0 => .error (.tooDeep ('(' :: rest))
    | levels + 1 => do
      let (first, rest) ← readUnary levels rest
      let (inner, rest) ← readChain levels first rest
      let rest ← expect ')' (skipBlanks rest)
      return (inner, rest)
  | s => readComparison s

/-- What is conjoined to a predicate that was read. Conjunctions lean to the left, and each further
conjunct has one level less than the one before. -/
def readChain (levels : Nat) (left : Predicate) (s : List Char) :
    Except Fault (Predicate × List Char) :=
  match skipBlanks s with
  | '&' :: '&' :: rest =>
    match levels with
    | 0 => .error (.tooDeep ('&' :: '&' :: rest))
    | levels + 1 => do
      let (right, rest) ← readUnary levels rest
      readChain levels (.and left right) rest
  | '|' :: '|' :: _ => .error (.unknownOperator ['|', '|'])
  | s => .ok (left, s)

end

/-- A predicate with all its conjuncts. -/
def readConjunction (levels : Nat) (s : List Char) : Except Fault (Predicate × List Char) := do
  let (first, rest) ← readUnary levels s
  readChain levels first rest

theorem isRest_of_readComparison {s rest : List Char} {p : Predicate}
    (h : readComparison s = .ok (p, rest)) : IsRest rest s := by
  obtain ⟨⟨left, r⟩, hleft, h⟩ := Reading.ok_of_bind h
  have hrest := (isRest_of_readOperand hleft).shrink (Text.skipBlanks_suffix r)
  dsimp only at h
  split at h
  · obtain ⟨_, rfl⟩ := Prod.mk.inj (Except.ok.inj h)
    exact hrest
  · split at h
    · contradiction
    · obtain ⟨⟨right, r'⟩, hright, h⟩ := Reading.ok_of_bind h
      obtain ⟨_, rfl⟩ := Prod.mk.inj (Except.ok.inj h)
      exact (isRest_of_readOperand hright).trans (hrest.shrink (List.dropWhile_suffix _))

theorem suffix_of_expect {c : Char} {s rest : List Char} (h : expect c (skipBlanks s) = .ok rest) :
    rest <:+ s := by
  have hcons := eq_cons_of_expect h
  exact (hcons ▸ List.suffix_cons c rest).trans (Text.skipBlanks_suffix s)

mutual

theorem isRest_of_readUnary {levels : Nat} {s rest : List Char} {p : Predicate}
    (h : readUnary levels s = .ok (p, rest)) : IsRest rest s := by
  rw [readUnary.eq_def] at h
  refine .of_suffix (Text.skipBlanks_suffix s) ?_
  split at h
  · next t hskip =>
    rw [hskip]
    split at h
    · exact isRest_of_readComparison h
    · cases levels with
      | zero => contradiction
      | succ levels =>
        obtain ⟨⟨inner, r⟩, hinner, h⟩ := Reading.ok_of_bind h
        obtain ⟨_, rfl⟩ := Prod.mk.inj (Except.ok.inj h)
        exact (isRest_of_readUnary hinner).cons
  · next t hskip =>
    rw [hskip]
    cases levels with
    | zero => contradiction
    | succ levels =>
      obtain ⟨⟨first, r⟩, hfirst, h⟩ := Reading.ok_of_bind h
      obtain ⟨⟨inner, r'⟩, hinner, h⟩ := Reading.ok_of_bind h
      obtain ⟨r'', hexpect, h⟩ := Reading.ok_of_bind h
      obtain ⟨_, rfl⟩ := Prod.mk.inj (Except.ok.inj h)
      exact ((isRest_of_readUnary hfirst).shrink
        ((suffix_of_expect hexpect).trans (suffix_of_readChain hinner))).cons
  · exact isRest_of_readComparison h

theorem suffix_of_readChain {levels : Nat} {left p : Predicate} {s rest : List Char}
    (h : readChain levels left s = .ok (p, rest)) : rest <:+ s := by
  rw [readChain.eq_def] at h
  refine .trans ?_ (Text.skipBlanks_suffix s)
  split at h
  · next t hskip =>
    rw [hskip]
    cases levels with
    | zero => contradiction
    | succ levels =>
      obtain ⟨⟨right, r⟩, hright, h⟩ := Reading.ok_of_bind h
      exact (suffix_of_readChain h).trans (isRest_of_readUnary hright).cons.cons.suffix
  · contradiction
  · obtain ⟨_, rfl⟩ := Prod.mk.inj (Except.ok.inj h)
    exact List.suffix_refl _

end

theorem isRest_of_readConjunction {levels : Nat} {s rest : List Char} {p : Predicate}
    (h : readConjunction levels s = .ok (p, rest)) : IsRest rest s := by
  obtain ⟨⟨first, r⟩, hfirst, h⟩ := Reading.ok_of_bind h
  exact (isRest_of_readUnary hfirst).shrink (suffix_of_readChain h)

end DocQuery
