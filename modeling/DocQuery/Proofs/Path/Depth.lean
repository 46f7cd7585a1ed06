import Mathlib.Order.Bounds.Defs
import DocQuery.Proofs.Path.RoundTrip

/- How deep predicates nest. Main statements: a predicate of a path nests no deeper than a text may
open levels where its conjunctions wrap at most two connectives on their left, and the deepest one
of all nests 8257. A conjunction takes its level from the conjuncts behind it, but stands above the
first one too, and a group gives the levels of its conjunctions back. -/

namespace DocQuery

namespace Predicate

/-- The most connectives that stand above one comparison. -/
def depth : Predicate → Nat
  | compare _ _ _ => 0
  | and left right => max left.depth right.depth + 1
  | not inner => inner.depth + 1
  | truthy _ => 0

/-- The greatest depth that a conjunction wraps on its left. -/
def leftDepth : Predicate → Nat
  | compare _ _ _ => 0
  | and left right => max left.depth right.leftDepth
  | not inner => inner.leftDepth
  | truthy _ => 0

theorem leftDepth_le_depth (p : Predicate) : p.leftDepth ≤ p.depth := by
  induction p with
  | compare op left right => exact Nat.le_refl _
  | and left right _ ihright =>
    rw [leftDepth, depth]
    omega
  | not inner ih => exact Nat.le_succ_of_le ih
  | truthy operand => exact Nat.le_refl _

end Predicate

theorem ComparisonText.depth_eq {t : List Char} {p : Predicate} (h : ComparisonText t p) :
    p.depth = 0 := by
  cases h <;> rfl

mutual

theorem UnaryText.add_depth_le : ∀ {d : Nat} {t : List Char} {p : Predicate}, UnaryText d t p →
    d ≤ maxNesting → d + p.depth ≤ maxNesting + (p.leftDepth - 2)
  | _, _, _, .not _ hd ht => by
    intro _
    have hinner := UnaryText.add_depth_le ht hd
    rw [Predicate.depth, Predicate.leftDepth]
    omega
  | _, _, _, .group _ hd ht _ => by
    intro _
    have hinner := ConjunctionText.add_depth_le ht hd
    omega
  | _, _, _, .comparison ht => by
    intro hd
    rw [ht.depth_eq]
    omega

theorem ConjunctionText.add_depth_le : ∀ {d k : Nat} {t : List Char} {p : Predicate},
    ConjunctionText d k t p → d ≤ maxNesting →
      d + p.depth ≤ maxNesting + (p.leftDepth - 2) + min k 1
  | _, _, _, _, .single ht => UnaryText.add_depth_le ht
  | _, _, _, _, @ConjunctionText.and _ _ _ _ _ left _ ht hk _ hu => by
    intro hd
    have hleft := ConjunctionText.add_depth_le ht hd
    have hle := left.leftDepth_le_depth
    have hright := UnaryText.add_depth_le hu hk
    rw [Predicate.depth, Predicate.leftDepth]
    omega

end

theorem ConjunctionText.depth_le_leftDepth {k : Nat} {t : List Char} {p : Predicate}
    (h : ConjunctionText 0 k t p) : p.depth ≤ maxNesting + (p.leftDepth - 2) := by
  cases h with
  | single ht =>
    have hdepth := ht.add_depth_le (Nat.zero_le _)
    omega
  | and _ hk _ hu =>
    have hright := hu.add_depth_le hk
    have hmax : 3 ≤ maxNesting := by decide
    rw [Predicate.depth, Predicate.leftDepth]
    omega

/-- The depth up to which a predicate without conjuncts may nest where so many levels are left. It
spends one level on a group or a negation. -/
def deepest : Nat → Nat
  | 0 => 0
  | levels + 1 => deepest levels + max 1 levels

theorem deepest_mono {a b : Nat} (h : a ≤ b) : deepest a ≤ deepest b := by
  induction h with
  | refl => exact Nat.le_refl _
  | step _ ih => exact Nat.le_trans ih (Nat.le_add_right _ _)

mutual

theorem UnaryText.depth_le : ∀ {d : Nat} {t : List Char} {p : Predicate}, UnaryText d t p →
    ∀ (levels : Nat), d + levels = maxNesting → p.depth ≤ deepest levels
  | _, _, _, .not _ hd ht => by
    intro levels hlevels
    cases levels with
    | zero => omega
    | succ levels =>
      have hinner := UnaryText.depth_le ht levels (by omega)
      rw [Predicate.depth, deepest]
      omega
  | _, _, _, .group _ hd ht _ => by
    intro levels hlevels
    have hk := ht.le_maxNesting hd
    cases levels with
    | zero => omega
    | succ levels =>
      have hinner := ConjunctionText.depth_le ht levels (by omega)
      rw [deepest]
      omega
  | _, _, _, .comparison ht => by
    intro levels _
    rw [ht.depth_eq]
    exact Nat.zero_le _

theorem ConjunctionText.depth_le : ∀ {d k : Nat} {t : List Char} {p : Predicate},
    ConjunctionText d k t p → ∀ (levels : Nat), d + levels = maxNesting →
      p.depth ≤ deepest levels + k
  | _, _, _, _, .single ht => UnaryText.depth_le ht
  | _, _, _, _, @ConjunctionText.and _ k _ _ _ _ _ ht hk _ hu => by
    intro levels hlevels
    have hleft := ConjunctionText.depth_le ht levels hlevels
    have hright := UnaryText.depth_le hu (levels - (k + 1)) (by omega)
    have hmono : deepest (levels - (k + 1)) ≤ deepest levels := deepest_mono (Nat.sub_le _ _)
    rw [Predicate.depth]
    omega

end

theorem deepest_maxNesting :
    deepest maxNesting + maxNesting = maxNesting * (maxNesting + 1) / 2 + 1 := by
  decide +kernel

theorem identifierText_singleton {c : Char} (hc : isIdentifierChar c = true) :
    IdentifierText [c] (String.ofList [c]) := by
  refine .mk (List.cons_ne_nil _ _) ?_
  intro b hb
  rw [List.mem_singleton.mp hb]
  exact hc

theorem unaryText_field (d : Nat) {c : Char} (hc : isIdentifierChar c = true) :
    UnaryText d ['@', '.', c] (.truthy (.field (String.ofList [c]))) :=
  .comparison (.truthy (.field (w := []) .nil (identifierText_singleton hc)))

theorem UnaryText.negations {d n : Nat} {t : List Char} {p : Predicate} (hd : d + n ≤ maxNesting)
    (h : UnaryText (d + n) t p) :
    UnaryText d (List.replicate n '!' ++ t) (Nat.repeat .not n p) := by
  induction n generalizing d with
  | zero => exact h
  | succ n ih =>
    have hinner := ih (d := d + 1) (by omega) (Nat.add_right_comm d 1 n ▸ h)
    exact .not (w := []) .nil (by omega) hinner

theorem Predicate.depth_negations (n : Nat) (p : Predicate) :
    (Nat.repeat .not n p : Predicate).depth = p.depth + n := by
  induction n with
  | zero => rfl
  | succ n ih => exact congrArg (· + 1) ih

theorem exists_conjunctionText_depth {d : Nat} {t : List Char} {p : Predicate}
    (h : UnaryText d t p) (k : Nat) (hk : d + k ≤ maxNesting) :
    ∃ s q, ConjunctionText d k s q ∧ q.depth = p.depth + k := by
  induction k with
  | zero => exact ⟨t, p, .single h, rfl⟩
  | succ k ih =>
    obtain ⟨s, q, hs, hq⟩ := ih (by omega)
    refine ⟨_, _, .and hs hk .nil (unaryText_field _ (c := 'a') (by decide)), ?_⟩
    rw [Predicate.depth, Predicate.depth, Nat.max_eq_left (Nat.zero_le _), hq]
    rfl

theorem exists_unaryText_deepest (levels : Nat) :
    ∀ d, d + levels = maxNesting → ∃ t p, UnaryText d t p ∧ p.depth = deepest levels := by
  induction levels with
  | zero =>
    intro d _
    exact ⟨_, _, unaryText_field d (c := 'a') (by decide), rfl⟩
  | succ levels ih =>
    intro d hd
    obtain ⟨t, p, ht, hp⟩ := ih (d + 1) (by omega)
    cases levels with
    | zero =>
      refine ⟨_, _, .not (w := []) .nil (by omega) ht, ?_⟩
      rw [Predicate.depth, hp]
      rfl
    | succ levels =>
      obtain ⟨s, q, hs, hq⟩ := exists_conjunctionText_depth ht (levels + 1) (by omega)
      refine ⟨_, q, .group (w := []) .nil (by omega) hs .nil, ?_⟩
      have hnext : deepest (levels + 2) = deepest (levels + 1) + max 1 (levels + 1) := rfl
      rw [hq, hp, hnext, Nat.max_eq_right (Nat.le_add_left 1 levels)]

namespace Path

/-- A path with a filter behind a key. -/
theorem parse_filter {k : Nat} {t : List Char} {p : Predicate} (h : ConjunctionText 0 k t p) :
    parse ("x[?(" ++ String.ofList t ++ ")]") = .ok ⟨.document, [.key "x", .filter p]⟩ := by
  have hname : IdentifierText ['x'] "x" := identifierText_singleton (by decide)
  have ht := PathText.step (.key hname) (.bracket (.filter .nil .nil h .nil .nil) .nil)
  have hend : EndsVisibly (['x', '[', '?', '('] ++ (t ++ [')', ']'])) := by
    refine .append (.append ?_ t) _
    exact ⟨[')'], ']', rfl, by decide⟩
  have htext : ("x[?(" ++ String.ofList t ++ ")]").toList =
      ['x', '[', '?', '('] ++ (t ++ [')', ']']) := by
    simp only [String.toList_append, String.toList_ofList, List.append_assoc]
    rfl
  rw [List.append_nil] at ht
  refine parse_of_pathText ?_
  rw [htext]
  exact (hend.trim (by decide)).symm ▸ ht

theorem conjunctionText_of_mem {text : String} {p : Path} (h : parse text = .ok p)
    {condition : Predicate} (hmem : .filter condition ∈ p.segments) :
    ∃ k t, ConjunctionText 0 k t condition := by
  obtain ⟨t, ht | ht⟩ := (pathText_of_parse h).text_of_mem hmem
  · cases ht
  · cases ht with
    | filter _ _ ht _ _ => exact ⟨_, _, ht⟩

theorem depth_le_of_mem {text : String} {p : Path} (h : parse text = .ok p)
    {condition : Predicate} (hmem : .filter condition ∈ p.segments) :
    condition.depth ≤ maxNesting * (maxNesting + 1) / 2 + 1 := by
  obtain ⟨k, t, ht⟩ := conjunctionText_of_mem h hmem
  have hk := ht.le_maxNesting (Nat.zero_le _)
  have hdepth := ht.depth_le maxNesting (Nat.zero_add _)
  rw [← deepest_maxNesting]
  omega

theorem exists_depth_eq :
    ∃ (text : String) (p : Path) (condition : Predicate), parse text = .ok p ∧
      .filter condition ∈ p.segments ∧
      condition.depth = maxNesting * (maxNesting + 1) / 2 + 1 := by
  obtain ⟨t, p, ht, hp⟩ := exists_unaryText_deepest maxNesting 0 (Nat.zero_add _)
  obtain ⟨s, q, hs, hq⟩ := exists_conjunctionText_depth ht maxNesting (by omega)
  refine ⟨_, _, q, parse_filter hs, ?_, ?_⟩
  · exact List.mem_cons_of_mem _ List.mem_cons_self
  · rw [hq, hp, deepest_maxNesting]

/-- The greatest depth of a predicate in a path that is accepted. It is 8257, where a text may open
128 levels. -/
theorem isGreatest_depth :
    IsGreatest {depth | ∃ (text : String) (p : Path) (condition : Predicate),
        parse text = .ok p ∧ .filter condition ∈ p.segments ∧ condition.depth = depth}
      (maxNesting * (maxNesting + 1) / 2 + 1) := by
  constructor
  · exact exists_depth_eq
  · rintro depth ⟨text, p, condition, hparse, hmem, rfl⟩
    exact depth_le_of_mem hparse hmem

/-- A predicate of a path nests no deeper than a text may open levels, where its conjunctions wrap
at most two connectives on their left. Any other is deeper by no more than what they wrap. -/
theorem depth_le_of_parse {text : String} {p : Path} (h : parse text = .ok p)
    {condition : Predicate} (hmem : .filter condition ∈ p.segments) :
    (condition.leftDepth ≤ 2 → condition.depth ≤ maxNesting) ∧
      condition.depth ≤ maxNesting + (condition.leftDepth - 2) ∧
      condition.depth ≤ maxNesting * (maxNesting + 1) / 2 + 1 := by
  obtain ⟨k, t, ht⟩ := conjunctionText_of_mem h hmem
  have hdepth := ht.depth_le_leftDepth
  refine ⟨?_, hdepth, depth_le_of_mem h hmem⟩
  intro hleft
  rwa [Nat.sub_eq_zero_of_le hleft] at hdepth

theorem depth_le_of_parse_negated :
    parse ("x[?(" ++ "!(@.a&&@.b)" ++ ")]") = .ok ⟨.document, [.key "x",
        .filter (.not (.and (.truthy (.field "a")) (.truthy (.field "b"))))]⟩ ∧
      (Predicate.not (.and (.truthy (.field "a")) (.truthy (.field "b")))).leftDepth ≤ 2 ∧
      (Predicate.not (.and (.truthy (.field "a")) (.truthy (.field "b")))).depth ≤ maxNesting := by
  have hand := ConjunctionText.and (d := 2) (w := [])
    (.single (unaryText_field 2 (c := 'a') (by decide))) (by decide) .nil
    (unaryText_field 3 (c := 'b') (by decide))
  have hnot := UnaryText.not (d := 0) (w := []) .nil (by decide)
    (.group (w := []) .nil (by decide) hand .nil)
  have hparse := parse_filter (.single hnot)
  have hdepth := depth_le_of_parse hparse (List.mem_cons_of_mem _ List.mem_cons_self)
  exact ⟨hparse, by decide, hdepth.1 (by decide)⟩

/-- With three connectives on the left of a conjunction the limit is exceeded. -/
theorem exists_leftDepth_three :
    ∃ (text : String) (p : Path) (condition : Predicate), parse text = .ok p ∧
      .filter condition ∈ p.segments ∧ condition.leftDepth = 3 ∧ maxNesting < condition.depth := by
  have hfirst := UnaryText.not (w := []) .nil (by decide)
    (unaryText_field 128 (c := 'a') (by decide))
  have hinner := ConjunctionText.and (w := []) (.single hfirst) (by decide) .nil
    (unaryText_field 128 (c := 'b') (by decide))
  have hgroup := UnaryText.group (d := 126) (w := []) .nil (by decide) hinner .nil
  have hchain := ConjunctionText.and (w := []) (.and (w := []) (.single hgroup) (by decide) .nil
    (unaryText_field 127 (c := 'c') (by decide))) (by decide) .nil
    (unaryText_field 128 (c := 'd') (by decide))
  have hnegations := UnaryText.negations (d := 0) (n := 125) (by decide)
    (.group (w := []) .nil (by decide) hchain .nil)
  refine ⟨_, _, _, parse_filter (.single hnegations),
    List.mem_cons_of_mem _ List.mem_cons_self, ?_, ?_⟩
  · rfl
  · rw [Predicate.depth_negations]
    decide

/-- As many negations as levels may be opened, and a conjunction above them. -/
theorem parse_conjoined_negations :
    ∃ condition : Predicate,
      parse ("x[?(" ++ String.ofList (List.replicate 128 '!' ++ ['@', '.', 'a'] ++
        ['&', '&', '@', '.', 'b']) ++ ")]") = .ok ⟨.document, [.key "x", .filter condition]⟩ ∧
      maxNesting < condition.depth := by
  have hnegations : UnaryText 0 (List.replicate 128 '!' ++ ['@', '.', 'a'])
      (Nat.repeat .not 128 (.truthy (.field "a"))) :=
    .negations (by decide) (unaryText_field 128 (by decide))
  have ht := ConjunctionText.and (w := []) (.single hnegations) (by decide) .nil
    (unaryText_field 1 (c := 'b') (by decide))
  refine ⟨.and (Nat.repeat .not 128 (.truthy (.field "a"))) (.truthy (.field "b")),
    parse_filter ht, ?_⟩
  rw [Predicate.depth, Predicate.depth_negations]
  decide

end Path

end DocQuery
