import DocQuery.Proofs.Path.Joining

/- Blanks inside brackets. Main statement: blanks behind an opening bracket or in front of a closing
one, outside of quotes, change nothing but a start `$[*]`, which they make the start of the document
with a wildcard behind it. -/

namespace DocQuery

/-- Where a place of a text lies: outside of quotes, inside of them, or behind a backslash there. -/
inductive Quoting where
  | outside
  | inside (quote : Char)
  | escaped (quote : Char)
deriving DecidableEq

namespace Quoting

def next : Quoting → Char → Quoting
  | outside, c => if Quoted.isQuote c then inside c else outside
  | inside quote, c =>
    if c = '\\' then escaped quote
    else if c = quote then outside
    else inside quote
  | escaped quote, _ => inside quote

/-- The place behind a text. -/
def behind (s : List Char) : Quoting := s.foldl next outside

end Quoting

/-- Blanks `w` put at one place of a text: behind an opening bracket or in front of a closing one,
outside of quotes. -/
inductive Spaced (w : List Char) : List Char → List Char → Prop
  | opening {a b : List Char} : Quoting.behind a = .outside →
      Spaced w (a ++ '[' :: b) (a ++ '[' :: (w ++ b))
  | closing {a b : List Char} : Quoting.behind a = .outside →
      Spaced w (a ++ ']' :: b) (a ++ (w ++ ']' :: b))

namespace Quoting

theorem behind_append {s : List Char} (hs : behind s = outside) (t : List Char) :
    behind (s ++ t) = behind t := by
  rw [behind, List.foldl_append, ← behind, hs, behind]

theorem behind_of_forall {s : List Char} (h : ∀ c ∈ s, Quoted.isQuote c = false) :
    behind s = outside := by
  induction s with
  | nil => rfl
  | cons c s ih =>
    have hc : behind [c] = outside := if_neg (Bool.eq_false_iff.mp (h c List.mem_cons_self))
    rw [← List.singleton_append, behind_append hc]
    exact ih fun d hd => h d (List.mem_cons_of_mem c hd)

end Quoting

namespace QuotedBody

variable {quote : Char} {s t : List Char}

theorem foldl_next (h : QuotedBody quote s t) :
    s.foldl Quoting.next (.inside quote) = .inside quote := by
  induction h with
  | nil => rfl
  | plain hc hslash _ ih =>
    rw [List.foldl_cons, Quoting.next, if_neg hslash, if_neg hc]
    exact ih
  | escape he _ ih => exact ih

/-- The closing quote comes behind all of what is quoted. -/
theorem foldl_next_ne (h : QuotedBody quote s t) {a : List Char} (ha : a <+: s) :
    a.foldl Quoting.next (.inside quote) ≠ .outside := by
  induction h generalizing a with
  | nil =>
    rw [List.prefix_nil.mp ha]
    exact Quoting.noConfusion
  | @plain c s t hc hslash _ ih =>
    cases a with
    | nil => exact Quoting.noConfusion
    | cons d a =>
      obtain ⟨rfl, hrest⟩ := List.cons_prefix_cons.mp ha
      rw [List.foldl_cons, Quoting.next, if_neg hslash, if_neg hc]
      exact ih hrest
  | @escape e c s t he _ ih =>
    cases a with
    | nil => exact Quoting.noConfusion
    | cons d a =>
      obtain ⟨rfl, hrest⟩ := List.cons_prefix_cons.mp ha
      cases a with
      | nil => exact Quoting.noConfusion
      | cons d a =>
        show a.foldl Quoting.next (.inside quote) ≠ .outside
        exact ih (List.cons_prefix_cons.mp hrest).2

end QuotedBody

theorem QuotedText.behind {t : List Char} {text : String} (h : QuotedText t text) :
    Quoting.behind t = .outside := by
  obtain ⟨hq, hbody⟩ := h
  next q s text =>
  have hslash : q ≠ '\\' := by rcases hq with rfl | rfl <;> decide
  have hopen : Quoting.next .outside q = .inside q := if_pos (isQuote_iff.mpr hq)
  have hclose : Quoting.next (.inside q) q = .outside := by
    rw [Quoting.next, if_neg hslash, if_pos rfl]
  rw [Quoting.behind, List.foldl_cons, hopen, List.foldl_append, hbody.foldl_next]
  exact hclose

namespace Spaced

variable {w s t u : List Char}

theorem exists_place (h : Spaced w s u) :
    ∃ a c b, s = a ++ c :: b ∧ Quoting.behind a = .outside ∧ (c = '[' ∨ c = ']') := by
  cases h with
  | opening ha => exact ⟨_, _, _, rfl, ha, .inl rfl⟩
  | closing ha => exact ⟨_, _, _, rfl, ha, .inr rfl⟩

theorem exists_inserted (h : Spaced w s u) : ∃ a b, s = a ++ b ∧ u = a ++ (w ++ b) := by
  cases h with
  | @opening a b _ => exact ⟨a ++ ['['], b, List.append_cons a '[' b, List.append_cons a '[' (w ++ b)⟩
  | @closing a b _ => exact ⟨a, ']' :: b, rfl, rfl⟩

/-- A place of two texts, one behind the other, is a place of one of them. -/
theorem place_of_append {a b : List Char} {c : Char} (h : s ++ t = a ++ c :: b) :
    (∃ b', s = a ++ c :: b' ∧ b = b' ++ t) ∨ ∃ a', a = s ++ a' ∧ t = a' ++ c :: b := by
  rcases List.append_eq_append_iff.mp h with ⟨a', ha, ht⟩ | ⟨b', hs, hb⟩
  · exact .inr ⟨a', ha, ht⟩
  · cases b' with
    | nil => exact .inr ⟨[], by rw [hs, List.append_nil, List.append_nil], hb.symm⟩
    | cons d b' =>
      obtain ⟨rfl, rfl⟩ := List.cons.inj hb
      exact .inl ⟨b', hs, rfl⟩

theorem of_append (hs : Quoting.behind s = .outside) (h : Spaced w (s ++ t) u) :
    (∃ s', Spaced w s s' ∧ u = s' ++ t) ∨ ∃ t', Spaced w t t' ∧ u = s ++ t' := by
  generalize hst : s ++ t = r at h
  cases h with
  | @opening a b ha =>
    rcases place_of_append hst with ⟨b', rfl, rfl⟩ | ⟨a', rfl, rfl⟩
    · exact .inl ⟨_, .opening ha, by simp only [List.append_assoc, List.cons_append]⟩
    · rw [Quoting.behind_append hs] at ha
      exact .inr ⟨_, .opening ha, List.append_assoc ..⟩
  | @closing a b ha =>
    rcases place_of_append hst with ⟨b', rfl, rfl⟩ | ⟨a', rfl, rfl⟩
    · exact .inl ⟨_, .closing ha, by simp only [List.append_assoc, List.cons_append]⟩
    · rw [Quoting.behind_append hs] at ha
      exact .inr ⟨_, .closing ha, List.append_assoc ..⟩

end Spaced

/-- A text of a kind that, with blanks put in, stays of its kind. -/
structure Loose (w : List Char) (R : List Char → Prop) (t : List Char) : Prop where
  kind : R t
  closed : Quoting.behind t = .outside
  spaced : ∀ {u}, Spaced w t u → R u

/-- A text of one kind with a text of another behind it. -/
inductive Joined (R S : List Char → Prop) : List Char → Prop
  | mk {s t : List Char} : R s → S t → Joined R S (s ++ t)

namespace Loose

variable {w s t : List Char} {R S : List Char → Prop}

theorem mono (h : Loose w R t) (hRS : ∀ u, R u → S u) : Loose w S t :=
  ⟨hRS t h.kind, h.closed, fun hu => hRS _ (h.spaced hu)⟩

theorem append (hs : Loose w R s) (ht : Loose w S t) : Loose w (Joined R S) (s ++ t) := by
  refine ⟨.mk hs.kind ht.kind, ?_, ?_⟩
  · rw [Quoting.behind_append hs.closed]
    exact ht.closed
  · intro u hu
    rcases hu.of_append hs.closed with ⟨s', hs', rfl⟩ | ⟨t', ht', rfl⟩
    · exact .mk (hs.spaced hs') ht.kind
    · exact .mk hs.kind (ht.spaced ht')

/-- A text in which there is no place for blanks. -/
theorem fixed (hclosed : Quoting.behind t = .outside)
    (hplace : ∀ a c b, t = a ++ c :: b → Quoting.behind a = .outside → c ≠ '[' ∧ c ≠ ']') :
    Loose w (· = t) t := by
  refine ⟨rfl, hclosed, ?_⟩
  intro u hu
  obtain ⟨a, c, b, hs, ha, hc⟩ := hu.exists_place
  obtain ⟨hopen, hclose⟩ := hplace a c b hs ha
  rcases hc with hc | hc
  · exact absurd hc hopen
  · exact absurd hc hclose

end Loose

theorem Loose.of_fixed {w t : List Char} {R : List Char → Prop} (h : Loose w (· = t) t)
    (ht : R t) : Loose w R t := by
  refine h.mono ?_
  rintro _ rfl
  exact ht

theorem Loose.fixed_append {w s t : List Char} (hs : Loose w (· = s) s) (ht : Loose w (· = t) t) :
    Loose w (· = s ++ t) (s ++ t) := by
  refine (hs.append ht).mono ?_
  rintro _ ⟨rfl, rfl⟩
  rfl

/-- Characters that are neither quotes nor brackets. -/
def isPlain (c : Char) : Bool := !(Quoted.isQuote c || c == '[' || c == ']')

theorem isPlain_iff {c : Char} :
    isPlain c = true ↔ Quoted.isQuote c = false ∧ c ≠ '[' ∧ c ≠ ']' := by
  simp only [isPlain, Bool.not_eq_true', Bool.or_eq_false_iff, beq_eq_false_iff_ne, and_assoc,
    ne_eq]

def Plain (t : List Char) : Prop := ∀ c ∈ t, isPlain c = true

theorem Plain.nil : Plain [] := List.forall_mem_nil _

theorem Plain.cons {c : Char} {t : List Char} (hc : isPlain c = true) (ht : Plain t) :
    Plain (c :: t) := by
  intro d hd
  rcases List.mem_cons.mp hd with rfl | hd
  · exact hc
  · exact ht d hd

theorem Plain.append {s t : List Char} (hs : Plain s) (ht : Plain t) : Plain (s ++ t) := by
  intro c hc
  rcases List.mem_append.mp hc with hc | hc
  · exact hs c hc
  · exact ht c hc

theorem Plain.loose {w t : List Char} (h : Plain t) : Loose w (· = t) t := by
  refine .fixed (Quoting.behind_of_forall fun c hc => (isPlain_iff.mp (h c hc)).1) ?_
  intro a c b hs _
  exact (isPlain_iff.mp (h c (hs ▸ List.mem_append_right a List.mem_cons_self))).2

theorem QuotedText.loose {w t : List Char} {text : String} (h : QuotedText t text) :
    Loose w (· = t) t := by
  refine .fixed h.behind ?_
  intro a c b hs ha
  obtain ⟨hq, hbody⟩ := h
  next q s text =>
  cases a with
  | nil =>
    obtain ⟨rfl, _⟩ := List.cons.inj hs
    rcases hq with rfl | rfl <;> decide
  | cons d a =>
    have hrest : s ++ [q] = a ++ c :: b := (List.cons.inj hs).2
    obtain rfl : q = d := (List.cons.inj hs).1
    have hlength : a.length ≤ s.length := by
      have hlengths := congrArg List.length hrest
      simp only [List.length_append, List.length_cons, List.length_nil] at hlengths
      omega
    have hprefix : a <+: s :=
      List.prefix_of_prefix_length_le ⟨c :: b, hrest.symm⟩ (List.prefix_append s [q]) hlength
    have hopen : Quoting.next .outside q = .inside q := if_pos (isQuote_iff.mpr hq)
    rw [Quoting.behind, List.foldl_cons, hopen] at ha
    exact absurd ha (hbody.foldl_next_ne hprefix)

theorem isPlain_of {p : Char → Bool} (hp : ['\'', '"', '[', ']'].all (fun c => !p c) = true)
    {c : Char} (hc : p c = true) : isPlain c = true := by
  cases hplain : isPlain c with
  | true => rfl
  | false =>
    have hmem : c ∈ ['\'', '"', '[', ']'] := by
      simpa only [isPlain, Quoted.isQuote, Bool.not_eq_false', Bool.or_eq_true, beq_iff_eq,
        List.mem_cons, List.not_mem_nil, or_false, or_assoc] using hplain
    have hno := List.all_eq_true.mp hp c hmem
    rw [hc] at hno
    contradiction

theorem Blanks.plain {w : List Char} (hw : Blanks w) : Plain w :=
  fun c hc => isPlain_of (p := Text.isBlank) (by decide) (hw c hc)

theorem IdentifierText.plain {t : List Char} {name : String} (h : IdentifierText t name) :
    Plain t := by
  obtain ⟨_, ht⟩ := h
  exact fun c hc => isPlain_of (p := isIdentifierChar) (by decide) (ht c hc)

theorem Comparator.plain_render (op : Comparator) : Plain op.render := by
  refine List.all_eq_true.mp ?_
  cases op <;> rfl

theorem Digits.plain {d : List Char} (h : Digits d) : Plain d :=
  fun c hc => isPlain_of (p := Char.isDigit) (by decide) (h.2 c hc)

theorem FractionText.plain {t : List Char} {fraction : Option (List Char)}
    (h : FractionText t fraction) : Plain t := by
  cases h with
  | absent => exact .nil
  | present hd => exact .cons (by decide) hd.plain

theorem ExponentText.plain {t : List Char} {exponent : Option Int} (h : ExponentText t exponent) :
    Plain t := by
  have hletter {e : Char} (he : e = 'e' ∨ e = 'E') : isPlain e = true := by
    rcases he with rfl | rfl <;> decide
  cases h with
  | absent => exact .nil
  | bare he hd => exact .cons (hletter he) hd.plain
  | plus he hd => exact .cons (hletter he) (.cons (by decide) hd.plain)
  | minus he hd => exact .cons (hletter he) (.cons (by decide) hd.plain)

theorem NumeralText.plain {t : List Char} {n : Numeral} (h : NumeralText t n) : Plain t := by
  obtain ⟨hwhole, hfraction, hexponent⟩ := h
  next negative whole s t fraction exponent =>
  have hplain : Plain (whole ++ (s ++ t)) :=
    hwhole.plain.append (hfraction.plain.append hexponent.plain)
  cases negative with
  | false => exact hplain
  | true => exact .cons (by decide) hplain

theorem NamesText.loose {w t : List Char} {names : List String} (h : NamesText t names) :
    Loose w (· = t) t := by
  induction h with
  | nil => exact Plain.nil.loose
  | @cons w₀ w₁ t s name names hw₀ hw₁ ht _ ih =>
    have hcomma : Plain (w₀ ++ ',' :: w₁) := hw₀.plain.append (.cons (by decide) hw₁.plain)
    have htext : w₀ ++ ',' :: (w₁ ++ (t ++ s)) = (w₀ ++ ',' :: w₁) ++ (t ++ s) := by
      simp only [List.append_assoc, List.cons_append]
    rw [htext]
    exact hcomma.loose.fixed_append (ht.loose.fixed_append ih)

theorem StepText.loose {w t : List Char} {segment : Segment} (h : StepText t segment) :
    Loose w (StepText · segment) t := by
  have ht := h
  cases h with
  | wildcard => exact .of_fixed (Plain.loose (.cons (by decide) .nil)) ht
  | key hname => exact .of_fixed hname.plain.loose ht

/-- An opening bracket with blanks behind it. -/
inductive OpeningText : List Char → Prop
  | mk {w : List Char} : Blanks w → OpeningText ('[' :: w)

/-- A closing bracket with blanks in front of it. -/
inductive ClosingText : List Char → Prop
  | mk {w : List Char} : Blanks w → ClosingText (w ++ [']'])

/-- The blanks stand at the first character of a text or behind it. -/
theorem Spaced.of_cons {w t u : List Char} {c : Char} (hc : Quoted.isQuote c = false)
    (h : Spaced w (c :: t) u) :
    c = '[' ∧ u = '[' :: (w ++ t) ∨ c = ']' ∧ u = w ++ ']' :: t ∨
      ∃ t', Spaced w t t' ∧ u = c :: t' := by
  have hclosed : Quoting.behind [c] = .outside := if_neg (Bool.eq_false_iff.mp hc)
  generalize hs : c :: t = s at h
  cases h with
  | @opening a b ha =>
    cases a with
    | nil =>
      obtain ⟨rfl, rfl⟩ := List.cons.inj hs
      exact .inl ⟨rfl, rfl⟩
    | cons d a =>
      obtain ⟨rfl, rfl⟩ := List.cons.inj hs
      rw [← List.singleton_append, Quoting.behind_append hclosed] at ha
      exact .inr (.inr ⟨_, .opening ha, rfl⟩)
  | @closing a b ha =>
    cases a with
    | nil =>
      obtain ⟨rfl, rfl⟩ := List.cons.inj hs
      exact .inr (.inl ⟨rfl, rfl⟩)
    | cons d a =>
      obtain ⟨rfl, rfl⟩ := List.cons.inj hs
      rw [← List.singleton_append, Quoting.behind_append hclosed] at ha
      exact .inr (.inr ⟨_, .closing ha, rfl⟩)

theorem not_spaced_nil {w u : List Char} : ¬ Spaced w [] u := by
  intro h
  obtain ⟨a, c, b, hs, _, _⟩ := h.exists_place
  exact absurd hs.symm (List.append_ne_nil_of_right_ne_nil a (List.cons_ne_nil c b))

section
variable {w : List Char} (hw : Blanks w)
include hw

theorem Loose.opening {w₁ : List Char} (hw₁ : Blanks w₁) : Loose w OpeningText ('[' :: w₁) := by
  have hplain := hw₁.plain.loose (w := w)
  refine ⟨.mk hw₁, ?_, ?_⟩
  · rw [← List.singleton_append, Quoting.behind_append rfl]
    exact hplain.closed
  · intro u hu
    rcases hu.of_cons (by decide) with ⟨_, rfl⟩ | ⟨h, _⟩ | ⟨t', ht', rfl⟩
    · exact .mk (hw.append hw₁)
    · exact absurd h (by decide)
    · rw [hplain.spaced ht']
      exact .mk hw₁

theorem Loose.closing {w₁ : List Char} (hw₁ : Blanks w₁) : Loose w ClosingText (w₁ ++ [']']) := by
  have hplain := hw₁.plain.loose (w := w)
  refine ⟨.mk hw₁, ?_, ?_⟩
  · rw [Quoting.behind_append hplain.closed]
    rfl
  · intro u hu
    rcases hu.of_append hplain.closed with ⟨t', ht', rfl⟩ | ⟨t', ht', rfl⟩
    · rw [hplain.spaced ht']
      exact .mk hw₁
    · rcases ht'.of_cons (by decide) with ⟨h, _⟩ | ⟨_, rfl⟩ | ⟨_, hnil, _⟩
      · exact absurd h (by decide)
      · rw [← List.append_assoc]
        exact .mk (hw₁.append hw)
      · exact absurd hnil not_spaced_nil

theorem OperandText.loose {t : List Char} {operand : Operand} (h : OperandText t operand) :
    Loose w (OperandText · operand) t := by
  have ht := h
  cases h with
  | field hw₀ hname =>
    exact .of_fixed (hw₀.plain.append (.cons (by decide) (.cons (by decide) hname.plain))).loose ht
  | @quotedField w₀ w₁ t w₂ name hw₀ hw₁ hname hw₂ =>
    have hat : Plain (w₀ ++ ['@']) := hw₀.plain.append (.cons (by decide) .nil)
    have htext : w₀ ++ '@' :: '[' :: (w₁ ++ (t ++ (w₂ ++ [']']))) =
        (w₀ ++ ['@']) ++ (('[' :: w₁) ++ (t ++ (w₂ ++ [']']))) := by
      simp only [List.append_assoc, List.cons_append, List.nil_append]
    rw [htext]
    refine (hat.loose.append ((Loose.opening hw hw₁).append
      (hname.loose.append (Loose.closing hw hw₂)))).mono ?_
    rintro _ ⟨rfl, ⟨⟨hw₁⟩, ⟨rfl, hclose⟩⟩⟩
    obtain ⟨hw₂⟩ := hclose
    simpa only [List.append_assoc, List.cons_append, List.nil_append] using
      OperandText.quotedField hw₀ hw₁ hname hw₂
  | string hw₀ htext => exact .of_fixed (hw₀.plain.loose.fixed_append htext.loose) ht
  | number hw₀ hn _ => exact .of_fixed (hw₀.plain.append hn.plain).loose ht
  | wordTrue hw₀ => exact .of_fixed (hw₀.plain.append (List.all_eq_true.mp rfl)).loose ht
  | wordFalse hw₀ => exact .of_fixed (hw₀.plain.append (List.all_eq_true.mp rfl)).loose ht

theorem ComparisonText.loose {t : List Char} {p : Predicate} (h : ComparisonText t p) :
    Loose w (ComparisonText · p) t := by
  cases h with
  | truthy ht => exact (ht.loose hw).mono fun _ => .truthy
  | @compare t w₁ u op left right ht hw₁ hu =>
    have hop : Plain (w₁ ++ op.render) := hw₁.plain.append op.plain_render
    rw [← List.append_assoc w₁]
    refine ((ht.loose hw).append (hop.loose.append (hu.loose hw))).mono ?_
    rintro _ ⟨ht, ⟨rfl, hu⟩⟩
    rw [List.append_assoc]
    exact .compare ht hw₁ hu

end

mutual

theorem UnaryText.loose {w : List Char} (hw : Blanks w) :
    ∀ {d : Nat} {t : List Char} {p : Predicate}, UnaryText d t p → Loose w (UnaryText d · p) t
  | _, _, _, @UnaryText.not d w₀ s p hw₀ hd ht => by
    have hmark : Plain (w₀ ++ ['!']) := hw₀.plain.append (.cons (by decide) .nil)
    rw [← List.singleton_append, ← List.append_assoc]
    refine (hmark.loose.append (UnaryText.loose hw ht)).mono ?_
    rintro _ ⟨rfl, ht⟩
    rw [List.append_assoc]
    exact .not hw₀ hd ht
  | _, _, _, @UnaryText.group d k w₀ s w₁ p hw₀ hd ht hw₁ => by
    have hopen : Plain (w₀ ++ ['(']) := hw₀.plain.append (.cons (by decide) .nil)
    have hclose : Plain (w₁ ++ [')']) := hw₁.plain.append (.cons (by decide) .nil)
    rw [← List.singleton_append, ← List.append_assoc]
    refine (hopen.loose.append ((ConjunctionText.loose hw ht).append hclose.loose)).mono ?_
    rintro _ ⟨rfl, ⟨ht, rfl⟩⟩
    rw [List.append_assoc]
    exact .group hw₀ hd ht hw₁
  | _, _, _, .comparison ht => (ht.loose hw).mono fun _ => .comparison

theorem ConjunctionText.loose {w : List Char} (hw : Blanks w) :
    ∀ {d k : Nat} {t : List Char} {p : Predicate},
      ConjunctionText d k t p → Loose w (ConjunctionText d k · p) t
  | _, _, _, _, .single ht => (UnaryText.loose hw ht).mono fun _ => .single
  | _, _, _, _, @ConjunctionText.and d k s w₀ t left right ht hk hw₀ hu => by
    have hand : Plain (w₀ ++ ['&', '&']) :=
      hw₀.plain.append (.cons (by decide) (.cons (by decide) .nil))
    have htext : w₀ ++ '&' :: '&' :: t = (w₀ ++ ['&', '&']) ++ t := by
      rw [List.append_assoc]
      rfl
    rw [htext]
    have hright := hand.loose.append (UnaryText.loose hw hu)
    refine ((ConjunctionText.loose hw ht).append hright).mono ?_
    rintro _ ⟨ht, ⟨rfl, hu⟩⟩
    rw [List.append_assoc w₀]
    exact .and ht hk hw₀ hu

end

section
variable {w : List Char} (hw : Blanks w)
include hw

theorem BracketText.loose {t : List Char} {segment : Segment} (h : BracketText t segment) :
    Loose w (BracketText · segment) t := by
  cases h with
  | @wildcard w₀ w₁ hw₀ hw₁ =>
    have hstar : Plain ['*'] := .cons (by decide) .nil
    refine ((Loose.opening hw hw₀).append (hstar.loose.append (Loose.closing hw hw₁))).mono ?_
    rintro _ ⟨⟨hw₀⟩, ⟨rfl, hclose⟩⟩
    obtain ⟨hw₁⟩ := hclose
    exact .wildcard hw₀ hw₁
  | @filter w₀ w₁ s w₂ w₃ k p hw₀ hw₁ ht hw₂ hw₃ =>
    have hopen : Plain ('?' :: (w₁ ++ ['('])) :=
      .cons (by decide) (hw₁.plain.append (.cons (by decide) .nil))
    have hclose : Plain (w₂ ++ [')']) := hw₂.plain.append (.cons (by decide) .nil)
    have htext : '[' :: (w₀ ++ '?' :: (w₁ ++ '(' :: (s ++ (w₂ ++ ')' :: (w₃ ++ [']']))))) =
        ('[' :: w₀) ++ (('?' :: (w₁ ++ ['('])) ++ (s ++ ((w₂ ++ [')']) ++ (w₃ ++ [']'])))) := by
      simp only [List.append_assoc, List.cons_append, List.nil_append]
    rw [htext]
    refine ((Loose.opening hw hw₀).append (hopen.loose.append ((ht.loose hw).append
      (hclose.loose.append (Loose.closing hw hw₃))))).mono ?_
    rintro _ ⟨⟨hw₀⟩, ⟨rfl, ⟨ht, ⟨rfl, hend⟩⟩⟩⟩
    obtain ⟨hw₃⟩ := hend
    simpa only [List.append_assoc, List.cons_append, List.nil_append] using
      BracketText.filter hw₀ hw₁ ht hw₂ hw₃
  | @key w₀ t w₁ name hw₀ ht hw₁ =>
    refine ((Loose.opening hw hw₀).append (ht.loose.append (Loose.closing hw hw₁))).mono ?_
    rintro _ ⟨⟨hw₀⟩, ⟨rfl, hclose⟩⟩
    obtain ⟨hw₁⟩ := hclose
    exact .key hw₀ ht hw₁
  | @keys w₀ t s w₁ first names hw₀ ht hs hne hw₁ =>
    refine ((Loose.opening hw hw₀).append (ht.loose.append (hs.loose.append
      (Loose.closing hw hw₁)))).mono ?_
    rintro _ ⟨⟨hw₀⟩, ⟨rfl, ⟨rfl, hclose⟩⟩⟩
    obtain ⟨hw₁⟩ := hclose
    exact .keys hw₀ ht hs hne hw₁

theorem SegmentsText.loose {s : List Char} {segments : List Segment}
    (h : SegmentsText s segments) : Loose w (SegmentsText · segments) s := by
  induction h with
  | nil => exact .of_fixed Plain.nil.loose .nil
  | @dot t s segment segments ht _ ih =>
    have hdot : Plain ['.'] := .cons (by decide) .nil
    refine (hdot.loose.append (ht.loose.append ih)).mono ?_
    rintro _ ⟨rfl, ⟨ht, hs⟩⟩
    rw [List.singleton_append]
    exact .dot ht hs
  | bracket ht _ ih =>
    refine ((ht.loose hw).append ih).mono ?_
    rintro _ ⟨ht, hs⟩
    exact .bracket ht hs

end

theorem StepText.endsVisibly {t : List Char} {segment : Segment} (h : StepText t segment) :
    EndsVisibly t := by
  cases h with
  | wildcard => exact ⟨[], '*', rfl, by decide⟩
  | key hname =>
    obtain ⟨hne, hname⟩ := hname
    exact .of_forall hne fun c hc => isBlank_of_identifier (hname c hc)

theorem BracketText.endsVisibly {t : List Char} {segment : Segment} (h : BracketText t segment) :
    EndsVisibly t := by
  have hclose (w : List Char) : EndsVisibly (w ++ [']']) := ⟨w, ']', rfl, by decide⟩
  cases h with
  | @wildcard w₀ w₁ _ _ => exact ((hclose w₁).append ['*']).append ('[' :: w₀)
  | @filter w₀ w₁ s w₂ w₃ k p _ _ _ _ _ =>
    have hend := ((hclose w₃).append (w₂ ++ [')'])).append ('[' :: (w₀ ++ '?' :: (w₁ ++ '(' :: s)))
    simpa only [List.append_assoc, List.cons_append, List.nil_append] using hend
  | @key w₀ t w₁ name _ _ _ => exact ((hclose w₁).append t).append ('[' :: w₀)
  | @keys w₀ t s w₁ first names _ _ _ _ _ =>
    exact (((hclose w₁).append s).append t).append ('[' :: w₀)

theorem SegmentsText.endsVisibly_append {s : List Char} {segments : List Segment}
    (h : SegmentsText s segments) {t : List Char} (ht : EndsVisibly t) : EndsVisibly (t ++ s) := by
  induction h generalizing t with
  | nil => rwa [List.append_nil]
  | @dot u s segment segments hu _ ih =>
    have hend := ih ((hu.endsVisibly.append ['.']).append t)
    simpa only [List.append_assoc, List.cons_append, List.nil_append] using hend
  | bracket hu _ ih =>
    have hend := ih (hu.endsVisibly.append t)
    rwa [List.append_assoc] at hend

namespace PathText

variable {s : List Char} {p : Path}

theorem endsVisibly (h : PathText s p) : EndsVisibly s := by
  cases h with
  | each hs => exact hs.endsVisibly_append ⟨['$', '[', '*'], ']', rfl, by decide⟩
  | root hs _ => exact hs.endsVisibly_append ⟨[], '$', rfl, by decide⟩
  | step ht hs => exact hs.endsVisibly_append ht.endsVisibly
  | bracket ht hs => exact hs.endsVisibly_append ht.endsVisibly

theorem stops_blank (h : PathText s p) : Stops Text.isBlank s := by
  cases h with
  | each _ => exact .cons (by decide) _
  | root _ _ => exact .cons (by decide) _
  | step ht _ =>
    obtain ⟨c, t, rfl, hc⟩ := ht.eq_cons
    refine .cons ?_ _
    rcases hc with rfl | hc
    · decide
    · exact isBlank_of_identifier hc
  | bracket ht _ =>
    obtain ⟨t, rfl⟩ := ht.eq_cons
    exact .cons (by decide) _

end PathText

/-- A text that begins with the start at each element. -/
def StartsAtEach (s : List Char) : Prop := ['$', '[', '*', ']'] <+: s

instance (s : List Char) : Decidable (StartsAtEach s) :=
  inferInstanceAs (Decidable (['$', '[', '*', ']'] <+: s))

/-- What a text stands for in which blanks were put: the same path, or one with a wildcard in place
of the start at each element, if the text no longer begins with that. -/
structure SpacedPath (s : List Char) (p : Path) (u : List Char) : Prop where
  same : (StartsAtEach s → StartsAtEach u) → PathText u p
  unanchored : StartsAtEach s → ¬ StartsAtEach u →
    PathText u ⟨.document, .wildcard :: p.segments⟩

theorem SpacedPath.of_same {s u : List Char} {p : Path} (hs : ¬ StartsAtEach s)
    (hu : PathText u p) : SpacedPath s p u := ⟨fun _ => hu, fun h => absurd h hs⟩

/-- Blanks that are put in do not bring visible characters together. -/
theorem prefix_of_inserted {w : List Char} (hw : Blanks w) {l a b : List Char}
    (hl : (l.all fun c => !Text.isBlank c) = true) (h : l <+: a ++ (w ++ b)) : l <+: a ++ b := by
  induction a generalizing l with
  | nil =>
    cases w with
    | nil => exact h
    | cons c w =>
      cases l with
      | nil => exact List.nil_prefix
      | cons d l =>
        obtain rfl := (List.cons_prefix_cons.mp h).1
        rw [List.all_cons, hw d List.mem_cons_self] at hl
        contradiction
  | cons c a ih =>
    cases l with
    | nil => exact List.nil_prefix
    | cons d l =>
      obtain ⟨rfl, hrest⟩ := List.cons_prefix_cons.mp h
      rw [List.all_cons, Bool.and_eq_true] at hl
      exact List.cons_prefix_cons.mpr ⟨rfl, ih hl.2 hrest⟩

theorem BracketText.eq_of_prefix {t : List Char} (h : BracketText t .wildcard)
    (hstart : ['[', '*', ']'] <+: t) : t = ['[', '*', ']'] := by
  cases h with
  | @wildcard w w₁ hw hw₁ =>
    have hrest := (List.cons_prefix_cons.mp hstart).2
    cases w with
    | cons c w =>
      exact absurd (hw c List.mem_cons_self) ((List.cons_prefix_cons.mp hrest).1 ▸ by decide)
    | nil =>
      have hrest := (List.cons_prefix_cons.mp hrest).2
      cases w₁ with
      | cons c w₁ =>
        exact absurd (hw₁ c List.mem_cons_self) ((List.cons_prefix_cons.mp hrest).1 ▸ by decide)
      | nil => rfl

theorem PathText.startsAtEach {s : List Char} {p : Path} (h : PathText s p)
    (hstart : StartsAtEach s) : p.anchor = .eachElement := by
  cases h with
  | each _ => rfl
  | root _ hno => exact absurd (List.cons_prefix_cons.mp hstart).2 hno
  | step ht _ =>
    obtain ⟨c, t, rfl, hc⟩ := ht.eq_cons
    obtain rfl := (List.cons_prefix_cons.mp hstart).1
    exact absurd hc (by decide)
  | bracket ht _ =>
    obtain ⟨t, rfl⟩ := ht.eq_cons
    exact absurd (List.cons_prefix_cons.mp hstart).1 (by decide)

section
variable {w s : List Char} {p : Path} (hw : Blanks w)
include hw

theorem PathText.loose (h : PathText s p) : Loose w (SpacedPath s p) s := by
  have hdollar : Plain ['$'] := .cons (by decide) .nil
  have hs := h
  cases h with
  | @each s segments hsegments =>
    have heach : StartsAtEach ('$' :: '[' :: '*' :: ']' :: s) := ⟨s, rfl⟩
    refine (hdollar.loose.append (((BracketText.wildcard .nil .nil).loose hw).append
      (hsegments.loose hw))).mono ?_
    rintro _ ⟨rfl, @⟨b, s', hb, hsegments⟩⟩
    by_cases hstart : StartsAtEach (['$'] ++ (b ++ s'))
    · have hprefix := List.prefix_of_prefix_length_le (List.cons_prefix_cons.mp hstart).2
        (List.prefix_append b s') hb.three_le_length
      obtain rfl := hb.eq_of_prefix hprefix
      exact ⟨fun _ => .each hsegments, fun _ hno => absurd hstart hno⟩
    · refine ⟨fun hsame => absurd (hsame heach) hstart, ?_⟩
      intro _ _
      have htext : SegmentsText (b ++ s') (.wildcard :: segments) := .bracket hb hsegments
      exact .root htext fun hprefix => hstart (List.cons_prefix_cons.mpr ⟨rfl, hprefix⟩)
  | @root s segments hsegments hno =>
    have hnot : ¬ StartsAtEach ('$' :: s) :=
      fun hstart => Anchor.noConfusion (hs.startsAtEach hstart)
    refine ⟨.of_same hnot hs, ?_, ?_⟩
    · rw [← List.singleton_append, Quoting.behind_append rfl]
      exact (hsegments.loose hw).closed
    · intro u hu
      rcases hu.of_cons (by decide) with ⟨h, _⟩ | ⟨h, _⟩ | ⟨t, ht, rfl⟩
      · exact absurd h (by decide)
      · exact absurd h (by decide)
      · refine .of_same hnot (.root ((hsegments.loose hw).spaced ht) ?_)
        intro hstart
        obtain ⟨a, b, rfl, rfl⟩ := ht.exists_inserted
        exact hno (prefix_of_inserted hw rfl hstart)
  | step ht hsegments =>
    refine (ht.loose.append (hsegments.loose hw)).mono ?_
    rintro _ ⟨ht, hsegments⟩
    exact .of_same (fun hstart => Anchor.noConfusion (hs.startsAtEach hstart)) (.step ht hsegments)
  | bracket ht hsegments =>
    refine ((ht.loose hw).append (hsegments.loose hw)).mono ?_
    rintro _ ⟨ht, hsegments⟩
    refine .of_same (fun hstart => Anchor.noConfusion (hs.startsAtEach hstart)) ?_
    exact .bracket ht hsegments

end

theorem SpacedPath.exists_pathText {s u : List Char} {p : Path} (h : SpacedPath s p u) :
    ∃ q, PathText u q := by
  by_cases hsame : StartsAtEach s → StartsAtEach u
  · exact ⟨_, h.same hsame⟩
  · obtain ⟨hs, hu⟩ := Classical.not_imp.mp hsame
    exact ⟨_, h.unanchored hs hu⟩

namespace Path

/-- The blanks at the two ends of a text are cut off before and after. -/
theorem spacedPath_trim {w : List Char} (hw : Blanks w) {s u : String} {p : Path}
    (h : Spaced w s.toList u.toList) (hparse : parse s = .ok p) :
    SpacedPath (Text.trim s.toList) p (Text.trim u.toList) := by
  have htext := pathText_of_parse hparse
  obtain ⟨w₀, w₁, hw₀, hw₁, hs⟩ := exists_trim s.toList
  have hloose : Loose w (Joined (· = w₀) (Joined (SpacedPath (Text.trim s.toList) p) (· = w₁)))
      (w₀ ++ (Text.trim s.toList ++ w₁)) :=
    hw₀.plain.loose.append ((htext.loose hw).append hw₁.plain.loose)
  have hjoined := hloose.spaced (hs ▸ h)
  generalize u.toList = text at hjoined ⊢
  obtain ⟨rfl, ⟨hspaced, rfl⟩⟩ := hjoined
  obtain ⟨q, hq⟩ := hspaced.exists_pathText
  rwa [hq.endsVisibly.trim_between hq.stops_blank hw₀ hw₁]

/-- Blanks behind an opening bracket or in front of a closing one, outside of quotes, leave a path
as it is exactly where they leave a start `$[*]` in place. Inside of that start they make it the
start of the document, with a wildcard behind it. -/
theorem parse_spaced {w : List Char} (hw : Blanks w) {s u : String} {p : Path}
    (h : Spaced w s.toList u.toList) (hparse : parse s = .ok p) :
    (parse u = .ok p ↔
        (StartsAtEach (Text.trim s.toList) → StartsAtEach (Text.trim u.toList))) ∧
      (StartsAtEach (Text.trim s.toList) → ¬ StartsAtEach (Text.trim u.toList) →
        p.anchor = .eachElement ∧ parse u = .ok ⟨.document, .wildcard :: p.segments⟩) := by
  have hu := spacedPath_trim hw h hparse
  have hanchor := (pathText_of_parse hparse).startsAtEach
  refine ⟨⟨?_, fun hsame => parse_of_pathText (hu.same hsame)⟩, ?_⟩
  · intro hsame hstart
    refine Classical.byContradiction fun hno => ?_
    have hchanged := parse_of_pathText (hu.unanchored hstart hno)
    have hpath := Except.ok.inj (hsame.symm.trans hchanged)
    have hlength := congrArg (fun q => q.segments.length) hpath
    exact absurd hlength (Nat.ne_of_lt (Nat.lt_succ_self _))
  · intro hstart hno
    exact ⟨hanchor hstart, parse_of_pathText (hu.unanchored hstart hno)⟩

/-- A bracket inside of quotes is no place for blanks, the one in front of them is. -/
theorem parse_spaced_key :
    parse "$[*]['a[']" = .ok ⟨.eachElement, [.key "a["]⟩ ∧
      Spaced [' ', '\t'] "$[*]['a[']".toList "$[*][ \t'a[']".toList ∧
      StartsAtEach (Text.trim "$[*][ \t'a[']".toList) ∧
      parse "$[*][ \t'a[']" = .ok ⟨.eachElement, [.key "a["]⟩ := by
  have hparse : parse "$[*]['a[']" = .ok ⟨.eachElement, [.key "a["]⟩ := rfl
  have hw : Blanks [' ', '\t'] := List.all_eq_true.mp rfl
  have hspaced : Spaced [' ', '\t'] "$[*]['a[']".toList "$[*][ \t'a[']".toList :=
    .opening (a := ['$', '[', '*', ']']) rfl
  have hstart : StartsAtEach (Text.trim "$[*][ \t'a[']".toList) := by decide
  exact ⟨hparse, hspaced, hstart, (parse_spaced hw hspaced hparse).1.mpr fun _ => hstart⟩

/-- A blank inside of the start at each element makes it a wildcard. -/
theorem parse_spaced_ne :
    parse "$[*]" = .ok ⟨.eachElement, []⟩ ∧ Blanks [' '] ∧
      Spaced [' '] "$[*]".toList "$[ *]".toList ∧
      parse "$[ *]" = .ok ⟨.document, [.wildcard]⟩ ∧ parse "$[ *]" ≠ .ok ⟨.eachElement, []⟩ := by
  refine ⟨rfl, .space, .opening (a := ['$']) rfl, rfl, ?_⟩
  intro h
  exact Anchor.noConfusion (congrArg anchor (Except.ok.inj h))

end Path

end DocQuery
