import DocQuery.Path.Operand
import DocQuery.Path.Printer

/- The grammar of path texts. Each relation holds of a whole text and of what it stands for; blanks
stand only where a rule names them. -/

namespace DocQuery

def Blanks (s : List Char) : Prop := ∀ c ∈ s, Text.isBlank c = true

/-- A name without quotes. -/
inductive IdentifierText : List Char → String → Prop
  | mk {t : List Char} : t ≠ [] → (∀ c ∈ t, isIdentifierChar c = true) →
      IdentifierText t (String.ofList t)

/-- What may follow a backslash, with the character that the two stand for. -/
def escapes : List (Char × Char) :=
  [('n', '\n'), ('t', '\t'), ('r', '\r'), ('\\', '\\'), ('\'', '\''), ('"', '"')]

inductive QuotedBody (quote : Char) : List Char → List Char → Prop
  | nil : QuotedBody quote [] []
  | plain {c : Char} {s t : List Char} : c ≠ quote → c ≠ '\\' → QuotedBody quote s t →
      QuotedBody quote (c :: s) (c :: t)
  | escape {e c : Char} {s t : List Char} : (e, c) ∈ escapes → QuotedBody quote s t →
      QuotedBody quote ('\\' :: e :: s) (c :: t)

inductive QuotedText : List Char → String → Prop
  | mk {q : Char} {s t : List Char} : q = '\'' ∨ q = '"' → QuotedBody q s t →
      QuotedText (q :: (s ++ [q])) (String.ofList t)

def Digits (s : List Char) : Prop := s ≠ [] ∧ ∀ c ∈ s, c.isDigit = true

inductive FractionText : List Char → Option (List Char) → Prop
  | absent : FractionText [] none
  | present {s : List Char} : Digits s → FractionText ('.' :: s) (some s)

inductive ExponentText : List Char → Option Int → Prop
  | absent : ExponentText [] none
  | bare {e : Char} {s : List Char} : e = 'e' ∨ e = 'E' → Digits s →
      ExponentText (e :: s) (some (Numeral.natOfDigits s))
  | plus {e : Char} {s : List Char} : e = 'e' ∨ e = 'E' → Digits s →
      ExponentText (e :: '+' :: s) (some (Numeral.natOfDigits s))
  | minus {e : Char} {s : List Char} : e = 'e' ∨ e = 'E' → Digits s →
      ExponentText (e :: '-' :: s) (some (-Numeral.natOfDigits s))

inductive NumeralText : List Char → Numeral → Prop
  | mk {negative : Bool} {whole s t : List Char} {fraction : Option (List Char)}
      {exponent : Option Int} : Digits whole → FractionText s fraction → ExponentText t exponent →
      NumeralText (Numeral.signed negative (whole ++ (s ++ t))) ⟨negative, whole, fraction, exponent⟩

/-- A whole number that fits 64 bits with a sign stands for itself, any other numeral for the
nearest float, which has to be finite. -/
inductive Denotes (n : Numeral) : Number → Prop
  | int {i : WideInt} : n.toInt? = some i.val → -9223372036854775808 ≤ i.val →
      i.val < 9223372036854775808 → Denotes n (.int i)
  | float {x : Binary64} :
      (∀ i, n.toInt? = some i → ¬(-9223372036854775808 ≤ i ∧ i < 9223372036854775808)) →
      n.toBinary64? = some x → Denotes n (.float x)

inductive OperandText : List Char → Operand → Prop
  | field {w t : List Char} {name : String} : Blanks w → IdentifierText t name →
      OperandText (w ++ '@' :: '.' :: t) (.field name)
  | quotedField {w w₁ t w₂ : List Char} {name : String} : Blanks w → Blanks w₁ →
      QuotedText t name → Blanks w₂ →
      OperandText (w ++ '@' :: '[' :: (w₁ ++ (t ++ (w₂ ++ [']'])))) (.field name)
  | string {w t : List Char} {text : String} : Blanks w → QuotedText t text →
      OperandText (w ++ t) (.literal (.string text))
  | number {w t : List Char} {n : Numeral} {number : Number} : Blanks w → NumeralText t n →
      Denotes n number → OperandText (w ++ t) (.literal (.number number))
  | wordTrue {w : List Char} : Blanks w →
      OperandText (w ++ ['t', 'r', 'u', 'e']) (.literal (.bool true))
  | wordFalse {w : List Char} : Blanks w →
      OperandText (w ++ ['f', 'a', 'l', 's', 'e']) (.literal (.bool false))

inductive ComparisonText : List Char → Predicate → Prop
  | truthy {t : List Char} {operand : Operand} : OperandText t operand →
      ComparisonText t (.truthy operand)
  | compare {t w u : List Char} {op : Comparator} {left right : Operand} : OperandText t left →
      Blanks w → OperandText u right →
      ComparisonText (t ++ (w ++ (op.render ++ u))) (.compare op left right)

mutual

/-- A negation, a predicate in parentheses or a comparison, inside `d` open levels. -/
inductive UnaryText : Nat → List Char → Predicate → Prop
  | not {d : Nat} {w s : List Char} {p : Predicate} : Blanks w → d + 1 ≤ maxNesting →
      UnaryText (d + 1) s p → UnaryText d (w ++ '!' :: s) (.not p)
  | group {d k : Nat} {w s w₁ : List Char} {p : Predicate} : Blanks w → d + 1 ≤ maxNesting →
      ConjunctionText (d + 1) k s p → Blanks w₁ →
      UnaryText d (w ++ '(' :: (s ++ (w₁ ++ [')']))) p
  | comparison {d : Nat} {s : List Char} {p : Predicate} : ComparisonText s p → UnaryText d s p

/-- A predicate with `k` further conjuncts, folded to the left, inside `d` open levels. Each
conjunction opens one more level than the one before. -/
inductive ConjunctionText : Nat → Nat → List Char → Predicate → Prop
  | single {d : Nat} {s : List Char} {p : Predicate} : UnaryText d s p → ConjunctionText d 0 s p
  | and {d k : Nat} {s w t : List Char} {left right : Predicate} : ConjunctionText d k s left →
      d + (k + 1) ≤ maxNesting → Blanks w → UnaryText (d + (k + 1)) t right →
      ConjunctionText d (k + 1) (s ++ (w ++ '&' :: '&' :: t)) (.and left right)

end

/-- The names of a list behind the first one. -/
inductive NamesText : List Char → List String → Prop
  | nil : NamesText [] []
  | cons {w w₁ t s : List Char} {name : String} {names : List String} : Blanks w → Blanks w₁ →
      QuotedText t name → NamesText s names →
      NamesText (w ++ ',' :: (w₁ ++ (t ++ s))) (name :: names)

inductive BracketText : List Char → Segment → Prop
  | wildcard {w w₁ : List Char} : Blanks w → Blanks w₁ →
      BracketText ('[' :: (w ++ '*' :: (w₁ ++ [']']))) .wildcard
  | filter {w w₁ s w₂ w₃ : List Char} {k : Nat} {p : Predicate} : Blanks w → Blanks w₁ →
      ConjunctionText 0 k s p → Blanks w₂ → Blanks w₃ →
      BracketText ('[' :: (w ++ '?' :: (w₁ ++ '(' :: (s ++ (w₂ ++ ')' :: (w₃ ++ [']']))))))
        (.filter p)
  | key {w t w₁ : List Char} {name : String} : Blanks w → QuotedText t name → Blanks w₁ →
      BracketText ('[' :: (w ++ (t ++ (w₁ ++ [']'])))) (.key name)
  | keys {w t s w₁ : List Char} {first : String} {names : List String} : Blanks w →
      QuotedText t first → NamesText s names → names ≠ [] → Blanks w₁ →
      BracketText ('[' :: (w ++ (t ++ (s ++ (w₁ ++ [']']))))) (.keys (first :: names))

inductive StepText : List Char → Segment → Prop
  | wildcard : StepText ['*'] .wildcard
  | key {t : List Char} {name : String} : IdentifierText t name → StepText t (.key name)

inductive SegmentsText : List Char → List Segment → Prop
  | nil : SegmentsText [] []
  | dot {t s : List Char} {segment : Segment} {segments : List Segment} : StepText t segment →
      SegmentsText s segments → SegmentsText ('.' :: (t ++ s)) (segment :: segments)
  | bracket {t s : List Char} {segment : Segment} {segments : List Segment} :
      BracketText t segment → SegmentsText s segments → SegmentsText (t ++ s) (segment :: segments)

/-- A whole path. Where `$[*]` stands in front, it is the start and never a segment. -/
inductive PathText : List Char → Path → Prop
  | each {s : List Char} {segments : List Segment} : SegmentsText s segments →
      PathText ('$' :: '[' :: '*' :: ']' :: s) ⟨.eachElement, segments⟩
  | root {s : List Char} {segments : List Segment} : SegmentsText s segments →
      ¬ ['[', '*', ']'] <+: s → PathText ('$' :: s) ⟨.document, segments⟩
  | step {t s : List Char} {segment : Segment} {segments : List Segment} : StepText t segment →
      SegmentsText s segments → PathText (t ++ s) ⟨.document, segment :: segments⟩
  | bracket {t s : List Char} {segment : Segment} {segments : List Segment} :
      BracketText t segment → SegmentsText s segments →
      PathText (t ++ s) ⟨.document, segment :: segments⟩

end DocQuery
