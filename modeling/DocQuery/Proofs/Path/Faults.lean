import DocQuery.Path.Parser

/- Where a path text is refused. Main statement: the place of an error is a byte of the text, and
there stands what the error is about; so the place moves with the text. -/

namespace DocQuery

open Text (skipBlanks)

/-- A text that begins with what opens a level of a predicate. -/
def OpensLevel (s : List Char) : Prop := ∃ t, s = '!' :: t ∨ s = '(' :: t ∨ s = '&' :: '&' :: t

/-- The text that a fault leaves is a rest of the text that was read. -/
def Fault.Within (s : List Char) : Fault → Prop
  | unexpected rest => rest <:+ s
  | invalidOperand rest => rest <:+ s ∧ rest ≠ []
  | tooDeep rest => rest <:+ s ∧ OpensLevel rest
  | _ => True

theorem Fault.Within.of_suffix {s t : List Char} {fault : Fault} (hs : s <:+ t)
    (h : fault.Within s) : fault.Within t := by
  cases fault with
  | unexpected rest => exact List.IsSuffix.trans h hs
  | invalidOperand rest => exact ⟨h.1.trans hs, h.2⟩
  | tooDeep rest => exact ⟨h.1.trans hs, h.2⟩
  | _ => exact True.intro

/-- A reading whose faults lie in a text. -/
def FailsWithin {α : Type} (s : List Char) (x : Except Fault α) : Prop :=
  ∀ fault, x = .error fault → fault.Within s

namespace FailsWithin

variable {α β : Type} {s t : List Char}

theorem ok (a : α) : FailsWithin s (.ok a) := by
  intro fault h
  contradiction

theorem error {fault : Fault} (h : fault.Within s) :
    FailsWithin (α := α) s (.error fault) := by
  intro _ hfault
  exact Except.error.inj hfault ▸ h

theorem of_suffix {x : Except Fault α} (hs : s <:+ t) (h : FailsWithin s x) : FailsWithin t x :=
  fun fault hfault => (h fault hfault).of_suffix hs

theorem map {x : Except Fault α} (h : FailsWithin s x) (f : α → β) : FailsWithin s (x.map f) := by
  cases x with
  | error fault => exact .error (h fault rfl)
  | ok a => exact .ok _

theorem bind {x : Except Fault α} {f : α → Except Fault β} (hx : FailsWithin s x)
    (hf : ∀ a, x = .ok a → FailsWithin s (f a)) : FailsWithin s (x >>= f) := by
  cases x with
  | error fault => exact .error (hx fault rfl)
  | ok a => exact hf a rfl

/-- Going on with the text that a first reading has left. -/
theorem andThen {x : Reading α} {f : α × List Char → Except Fault β} (hx : FailsWithin s x)
    (hrest : ∀ a rest, x = .ok (a, rest) → rest <:+ s)
    (hf : ∀ a rest, FailsWithin rest (f (a, rest))) : FailsWithin s (x >>= f) := by
  refine hx.bind ?_
  rintro ⟨a, rest⟩ hread
  exact (hf a rest).of_suffix (hrest a rest hread)

end FailsWithin

theorem failsWithin_expect (c : Char) (s : List Char) : FailsWithin s (expect c s) := by
  cases s with
  | nil =>
    rw [expect]
    split
    · exact .error True.intro
    · exact .error (List.suffix_refl _)
  | cons d s =>
    rw [expect]
    split
    · exact .ok s
    · exact .error (List.suffix_refl _)

theorem failsWithin_close (c : Char) (s : List Char) : FailsWithin s (expect c (skipBlanks s)) :=
  (failsWithin_expect c _).of_suffix (Text.skipBlanks_suffix s)

theorem failsWithin_readIdentifier (s : List Char) : FailsWithin s (readIdentifier s) := by
  rw [readIdentifier]
  split
  · exact .error (List.suffix_refl s)
  · exact .ok _

theorem failsWithin_decode (quote : Char) (s : List Char) :
    FailsWithin s (Quoted.decode quote s) := by
  induction s using Quoted.decode.induct quote with
  | case1 => exact .error True.intro
  | case2 => exact .error True.intro
  | case3 e s hnone =>
    rw [Quoted.decode, hnone]
    exact .error True.intro
  | case4 e s d hsome ih =>
    rw [Quoted.decode, hsome]
    exact (ih.of_suffix ((List.suffix_cons e s).trans (List.suffix_cons _ _))).map _
  | case5 s hnil hslash =>
    rw [Quoted.decode, if_pos rfl]
    · exact .ok _
    · exact hnil
    · exact hslash
  | case6 c s hnil hslash hquote ih =>
    rw [Quoted.decode, if_neg hquote]
    · exact (ih.of_suffix (List.suffix_cons c s)).map _
    · exact hnil
    · exact hslash

theorem failsWithin_readQuoted (s : List Char) : FailsWithin s (readQuoted s) := by
  cases s with
  | nil => exact .error (List.suffix_refl _)
  | cons c s =>
    rw [readQuoted]
    split
    · exact ((failsWithin_decode c s).of_suffix (List.suffix_cons c s)).map _
    · exact .error (List.suffix_refl _)

theorem failsWithin_readNumber (s : List Char) : FailsWithin s (readNumber s) := by
  rw [readNumber]
  split
  · exact .error True.intro
  · split
    · exact .error True.intro
    · exact .ok _

theorem failsWithin_readBracketField {bad : Fault} {s t : List Char} (hs : s <:+ t)
    (hbad : bad.Within t) : FailsWithin t (readBracketField bad s) := by
  rw [readBracketField]
  split
  · exact .error hbad
  · next c s' hskip =>
    have hsuffix : c :: s' <:+ t := hskip ▸ (Text.skipBlanks_suffix s).trans hs
    split
    · refine .of_suffix hsuffix (.andThen (failsWithin_readQuoted _) ?_ ?_)
      · exact fun name rest hname => (isRest_of_readQuoted hname).suffix
      · exact fun name rest => (failsWithin_close ']' rest).bind fun _ _ => .ok _
    · exact .error hbad

theorem failsWithin_readLiteral (s : List Char) : FailsWithin s (readLiteral s) := by
  cases s with
  | nil => exact .error (List.suffix_refl _)
  | cons c s =>
    rw [readLiteral]
    split
    · exact (failsWithin_readQuoted _).map _
    split
    · exact (failsWithin_readNumber _).map _
    split
    · exact .ok _
    · exact .ok _
    · exact .error ⟨List.suffix_refl _, List.cons_ne_nil c s⟩

theorem failsWithin_readOperand (s : List Char) : FailsWithin s (readOperand s) := by
  rw [readOperand]
  refine .of_suffix (Text.skipBlanks_suffix s) ?_
  split
  · next rest hskip =>
    rw [hskip]
    exact .of_suffix (List.suffix_append ['@', '.'] rest) ((failsWithin_readIdentifier rest).map _)
  · next rest hskip =>
    rw [hskip]
    exact failsWithin_readBracketField (List.suffix_append ['@', '['] rest)
      ⟨List.suffix_refl _, List.cons_ne_nil _ _⟩
  · exact failsWithin_readLiteral _

theorem failsWithin_readComparison (s : List Char) : FailsWithin s (readComparison s) := by
  refine .andThen (failsWithin_readOperand s) ?_ ?_
  · exact fun operand rest hread => (isRest_of_readOperand hread).suffix
  · intro left rest
    refine .of_suffix (Text.skipBlanks_suffix rest) ?_
    dsimp only
    split
    · exact .ok _
    split
    · exact .error True.intro
    · refine .of_suffix (List.dropWhile_suffix isOperatorChar) ?_
      exact (failsWithin_readOperand _).bind fun _ _ => .ok _

mutual

theorem failsWithin_readUnary (levels : Nat) (s : List Char) :
    FailsWithin s (readUnary levels s) := by
  rw [readUnary.eq_def]
  refine .of_suffix (Text.skipBlanks_suffix s) ?_
  split
  · next t hskip =>
    rw [hskip]
    split
    · exact failsWithin_readComparison _
    · cases levels with
      | zero => exact .error ⟨List.suffix_refl _, t, .inl rfl⟩
      | succ levels =>
        refine .of_suffix (List.suffix_cons '!' t) ?_
        exact (failsWithin_readUnary levels t).bind fun _ _ => .ok _
  · next t hskip =>
    rw [hskip]
    cases levels with
    | zero => exact .error ⟨List.suffix_refl _, t, .inr (.inl rfl)⟩
    | succ levels =>
      refine .of_suffix (List.suffix_cons '(' t) (.andThen (failsWithin_readUnary levels t) ?_ ?_)
      · exact fun first rest hfirst => (isRest_of_readUnary hfirst).suffix
      · intro first rest
        refine .andThen (failsWithin_readChain levels first rest) ?_ ?_
        · exact fun inner rest hinner => suffix_of_readChain hinner
        · exact fun inner rest => (failsWithin_close ')' rest).bind fun _ _ => .ok _
  · exact failsWithin_readComparison _

theorem failsWithin_readChain (levels : Nat) (left : Predicate) (s : List Char) :
    FailsWithin s (readChain levels left s) := by
  rw [readChain.eq_def]
  refine .of_suffix (Text.skipBlanks_suffix s) ?_
  split
  · next t hskip =>
    rw [hskip]
    cases levels with
    | zero => exact .error ⟨List.suffix_refl _, t, .inr (.inr rfl)⟩
    | succ levels =>
      refine .of_suffix (List.suffix_append ['&', '&'] t)
        (.andThen (failsWithin_readUnary levels t) ?_ ?_)
      · exact fun right rest hright => (isRest_of_readUnary hright).suffix
      · exact fun right rest => failsWithin_readChain levels (.and left right) rest
  · exact .error True.intro
  · exact .ok _

end

theorem failsWithin_readConjunction (levels : Nat) (s : List Char) :
    FailsWithin s (readConjunction levels s) := by
  refine .andThen (failsWithin_readUnary levels s) ?_ ?_
  · exact fun first rest hfirst => (isRest_of_readUnary hfirst).suffix
  · exact fun first rest => failsWithin_readChain levels first rest

theorem failsWithin_readStep (s : List Char) : FailsWithin s (readStep s) := by
  unfold readStep
  split
  · exact .ok _
  · exact (failsWithin_readIdentifier s).map _

theorem failsWithin_readNextName (s : List Char) : FailsWithin s (readNextName s) := by
  rw [readNextName]
  refine .of_suffix (Text.skipBlanks_suffix s) ?_
  split
  · next t hcomma =>
    rw [hcomma]
    refine .of_suffix ((Text.skipBlanks_suffix t).trans (List.suffix_cons ',' t)) ?_
    split
    · exact .error True.intro
    · exact (failsWithin_readQuoted _).map _
  · exact .ok _

theorem failsWithin_readNamesWithin (fuel : Nat) (s : List Char) :
    FailsWithin s (readNamesWithin fuel s) := by
  induction fuel generalizing s with
  | zero => exact .ok _
  | succ fuel ih =>
    rw [readNamesWithin]
    split
    · next hnext => exact .error (failsWithin_readNextName s _ hnext)
    · exact .ok _
    · next name rest hnext =>
      exact ((ih rest).of_suffix (isRest_of_readNextName hnext).suffix).map _

theorem failsWithin_readBracketContent (s : List Char) :
    FailsWithin s (readBracketContent s) := by
  unfold readBracketContent
  split
  · exact .error True.intro
  · exact .ok _
  · next t =>
    refine .of_suffix (List.suffix_cons '?' t) ((failsWithin_close '(' t).bind ?_)
    intro rest hopen
    refine .of_suffix (suffix_of_expect hopen)
      (.andThen (failsWithin_readConjunction maxNesting rest) ?_ ?_)
    · exact fun condition rest hread => (isRest_of_readConjunction hread).suffix
    · exact fun condition rest => (failsWithin_close ')' rest).bind fun _ _ => .ok _
  · refine .andThen (failsWithin_readQuoted s) ?_ ?_
    · exact fun first rest hfirst => (isRest_of_readQuoted hfirst).suffix
    · exact fun first rest => (failsWithin_readNamesWithin _ rest).bind fun _ _ => .ok _

theorem failsWithin_readSegment (s : List Char) : FailsWithin s (readSegment s) := by
  unfold readSegment
  split
  · next t => exact .of_suffix (List.suffix_cons '.' t) (failsWithin_readStep t)
  · next t =>
    refine .of_suffix ((Text.skipBlanks_suffix t).trans (List.suffix_cons '[' t))
      (.andThen (failsWithin_readBracketContent _) ?_ ?_)
    · exact fun segment rest hread => (isRest_of_readBracketContent hread).suffix
    · exact fun segment rest => (failsWithin_close ']' rest).bind fun _ _ => .ok _
  · exact .error (List.suffix_refl s)

theorem failsWithin_readSegments (s : List Char) : FailsWithin s (readSegments s) := by
  rw [readSegments]
  generalize s.length = fuel
  induction fuel generalizing s with
  | zero =>
    cases s with
    | nil => exact .ok _
    | cons c s => exact .error (List.suffix_refl _)
  | succ fuel ih =>
    cases s with
    | nil => exact .ok _
    | cons c s =>
      rw [readSegmentsWithin]
      · split
        · next hsegment => exact .error (failsWithin_readSegment _ _ hsegment)
        · next segment rest hsegment =>
          exact ((ih rest).of_suffix (isRest_of_readSegment hsegment).suffix).map _
      · exact List.cons_ne_nil c s

theorem failsWithin_readPath (s : List Char) : FailsWithin s (readPath s) := by
  unfold readPath
  split
  · next t =>
    refine .of_suffix (List.suffix_append ['$', '[', '*', ']'] t) ?_
    exact (failsWithin_readSegments t).map _
  · next t _ => exact .of_suffix (List.suffix_cons '$' t) ((failsWithin_readSegments t).map _)
  · exact (failsWithin_readSegments _).map _
  · refine .andThen (failsWithin_readStep s) ?_ ?_
    · exact fun first rest hfirst => (isRest_of_readStep hfirst).suffix
    · exact fun first rest => (failsWithin_readSegments rest).bind fun _ _ => .ok _

/-- The place of an error is the first byte of a character of the text: of the one that is not
expected, of what is no operand, or of what would open a level too many. -/
def SyntaxError.PlacedIn (text : List Char) : SyntaxError → Prop
  | unexpectedChar c position =>
    ∃ front rest, text = front ++ c :: rest ∧ Text.utf8Size front = position
  | invalidOperand position =>
    ∃ front c rest, text = front ++ c :: rest ∧ Text.utf8Size front = position
  | tooDeep position =>
    ∃ front rest, text = front ++ rest ∧ Text.utf8Size front = position ∧ OpensLevel rest
  | _ => True

theorem Fault.Within.placedIn {text : List Char} {fault : Fault} (h : fault.Within text) :
    (fault.locate text).PlacedIn text := by
  cases fault with
  | unexpected rest =>
    cases rest with
    | nil => exact True.intro
    | cons c rest =>
      obtain ⟨front, rfl⟩ := h
      exact ⟨front, rest, rfl, (position_append front _).symm⟩
  | invalidOperand rest =>
    obtain ⟨⟨front, rfl⟩, hne⟩ := h
    obtain ⟨c, rest, rfl⟩ := List.exists_cons_of_ne_nil hne
    exact ⟨front, c, rest, rfl, (position_append front _).symm⟩
  | tooDeep rest =>
    obtain ⟨⟨front, rfl⟩, hopens⟩ := h
    exact ⟨front, rest, rfl, (position_append front _).symm, hopens⟩
  | _ => exact True.intro

/-- The error, its place counted from `n` bytes further in front. -/
def SyntaxError.shift (n : Nat) : SyntaxError → SyntaxError
  | unexpectedChar c position => .unexpectedChar c (position + n)
  | invalidOperand position => .invalidOperand (position + n)
  | tooDeep position => .tooDeep (position + n)
  | error => error

theorem SyntaxError.shift_shift (m n : Nat) (e : SyntaxError) :
    (e.shift m).shift n = e.shift (m + n) := by
  cases e <;> simp only [shift, Nat.add_assoc]

theorem position_append_suffix (front : List Char) {s rest : List Char} (h : rest <:+ s) :
    position (front ++ s) rest = position s rest + Text.utf8Size front := by
  obtain ⟨used, rfl⟩ := h
  rw [← List.append_assoc, position_append, position_append, Text.utf8Size_append, Nat.add_comm]

/-- What stands in front of a text moves the places of its faults. -/
theorem Fault.Within.locate_append {s : List Char} {fault : Fault} (h : fault.Within s)
    (front : List Char) :
    fault.locate (front ++ s) = (fault.locate s).shift (Text.utf8Size front) := by
  cases fault with
  | unexpected rest =>
    cases rest with
    | nil => rfl
    | cons c rest => exact congrArg (SyntaxError.unexpectedChar c) (position_append_suffix front h)
  | invalidOperand rest =>
    exact congrArg SyntaxError.invalidOperand (position_append_suffix front h.1)
  | tooDeep rest => exact congrArg SyntaxError.tooDeep (position_append_suffix front h.1)
  | _ => rfl

end DocQuery
