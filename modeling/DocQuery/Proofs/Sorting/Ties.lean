import Mathlib.Data.List.Basic

/- Stable sorts by any order in which members may tie. Main statement: a sorted list is told by the
order in which it holds the members of each tie. So members may be dropped before or after a sort,
and two sorts in a row come to one by both orders. -/

namespace DocQuery

variable {α : Type} {le : α → α → Bool}

/-- Any two members stand in one of the two orders, or in both. -/
structure TotalPreorder (le : α → α → Bool) : Prop where
  trans : ∀ a b c, le a b = true → le b c = true → le a c = true
  total : ∀ a b, (le a b || le b a) = true

/-- Two members may stand either way round. -/
def tied (le : α → α → Bool) (a b : α) : Bool := le a b && le b a

theorem tied_iff {a b : α} : tied le a b = true ↔ le a b = true ∧ le b a = true :=
  Bool.and_eq_true_iff

theorem zipIdxLE_iff {a b : α × Nat} :
    List.zipIdxLE le a b = true ↔ le a.1 b.1 = true ∧ (le b.1 a.1 = true → a.2 ≤ b.2) := by
  rw [List.zipIdxLE]
  split
  · split <;> simp_all
  · simp_all

theorem mergeSort_pair (le : α → α → Bool) (a b : α) :
    [a, b].mergeSort le = if le a b then [a, b] else [b, a] := by
  rw [List.mergeSort]
  simp only [List.MergeSort.Internal.splitInTwo_fst, List.MergeSort.Internal.splitInTwo_snd,
    List.length_cons, List.length_nil, Nat.reduceAdd, Nat.reduceDiv, List.take_succ_cons,
    List.take_zero, List.drop_succ_cons, List.drop_zero, List.mergeSort_singleton]
  rw [List.cons_merge_cons]
  split
  · rw [List.nil_merge]
  · rw [List.merge_right]

theorem pairwise_places_ne {members : List α} {placed : List (α × Nat)}
    (h : placed.Perm members.zipIdx) : placed.Pairwise fun a b => a.2 ≠ b.2 := by
  have hplaces := (h.map Prod.snd).nodup_iff.mpr
  rw [List.zipIdx_map_snd] at hplaces
  exact List.pairwise_map.mp (hplaces List.nodup_range')

namespace TotalPreorder

variable (h : TotalPreorder le)
include h

theorem refl (a : α) : le a a = true := by
  have htotal := h.total a a
  rwa [Bool.or_self] at htotal

theorem tied_self (a : α) : tied le a a = true := tied_iff.mpr ⟨h.refl a, h.refl a⟩

theorem le_of_tied {a b c : α} (hb : tied le a b = true) (hc : tied le a c = true) :
    le b c = true := h.trans b a c (tied_iff.mp hb).2 (tied_iff.mp hc).1

theorem pairwise_mergeSort (members : List α) :
    (members.mergeSort le).Pairwise fun a b => le a b = true :=
  List.pairwise_mergeSort h.trans h.total members

/-- The members with their former places, in the order to which a sort brings them. Where two
members tie, the one from the earlier place comes first. -/
theorem exists_placed (members : List α) :
    ∃ placed : List (α × Nat), placed.Perm members.zipIdx ∧
      placed.Pairwise (fun a b => le a.1 b.1 = true ∧ (le b.1 a.1 = true → a.2 < b.2)) ∧
      members.mergeSort le = placed.map Prod.fst := by
  have hperm := List.mergeSort_perm members.zipIdx (List.zipIdxLE le)
  have hsorted := List.pairwise_mergeSort (List.zipIdxLE_trans h.trans)
    (List.zipIdxLE_total h.total) members.zipIdx
  refine ⟨_, hperm, hsorted.imp₂ ?_ (pairwise_places_ne hperm), List.mergeSort_zipIdx.symm⟩
  intro a b hab hne
  obtain ⟨hle, htie⟩ := zipIdxLE_iff.mp hab
  exact ⟨hle, fun hba => Nat.lt_of_le_of_ne (htie hba) hne⟩

theorem filter_tied_mergeSort (a : α) (members : List α) :
    (members.mergeSort le).filter (tied le a) = members.filter (tied le a) := by
  have hties : (members.filter (tied le a)).Pairwise fun b c => le b c = true := by
    refine List.pairwise_iff_forall_sublist.mpr ?_
    intro b c hsub
    have hb := List.mem_filter.mp (hsub.subset List.mem_cons_self)
    have hc := List.mem_filter.mp (hsub.subset (List.mem_cons_of_mem _ List.mem_cons_self))
    exact h.le_of_tied hb.2 hc.2
  have hsub := (List.sublist_mergeSort h.trans h.total hties List.filter_sublist).filter
    (tied le a)
  rw [List.filter_filter] at hsub
  simp only [Bool.and_self] at hsub
  have hlength := ((List.mergeSort_perm members le).filter (tied le a)).length_eq
  exact (hsub.eq_of_length hlength.symm).symm

theorem mem_of_filter_tied {as bs : List α}
    (hties : ∀ a, as.filter (tied le a) = bs.filter (tied le a)) {a : α} (ha : a ∈ as) :
    a ∈ bs := by
  have hfilter := List.mem_filter.mpr ⟨ha, h.tied_self a⟩
  rw [hties] at hfilter
  exact (List.mem_filter.mp hfilter).1

/-- Sorted lists that hold the members of each tie in the same order are the same. -/
theorem eq_of_filter_tied {as bs : List α} (has : as.Pairwise fun a b => le a b = true)
    (hbs : bs.Pairwise fun a b => le a b = true)
    (hties : ∀ a, as.filter (tied le a) = bs.filter (tied le a)) : as = bs := by
  induction as generalizing bs with
  | nil =>
    refine (List.eq_nil_iff_forall_not_mem.mpr ?_).symm
    intro b hb
    exact List.not_mem_nil (h.mem_of_filter_tied (fun a => (hties a).symm) hb)
  | cons a as ih =>
    cases bs with
    | nil => exact absurd (h.mem_of_filter_tied hties List.mem_cons_self) List.not_mem_nil
    | cons b bs =>
      rw [List.pairwise_cons] at has hbs
      -- Each list holds the first member of the other one, so the two of them tie.
      have hab : tied le a b = true := by
        refine tied_iff.mpr ⟨?_, ?_⟩
        · rcases List.mem_cons.mp (h.mem_of_filter_tied (fun a => (hties a).symm)
            List.mem_cons_self) with rfl | hb
          · exact h.refl b
          · exact has.1 b hb
        · rcases List.mem_cons.mp (h.mem_of_filter_tied hties List.mem_cons_self) with rfl | ha
          · exact h.refl a
          · exact hbs.1 a ha
      have hfirst := hties a
      rw [List.filter_cons_of_pos (h.tied_self a), List.filter_cons_of_pos hab] at hfirst
      obtain ⟨rfl, _⟩ := List.cons.inj hfirst
      refine congrArg (a :: ·) (ih has.2 hbs.2 ?_)
      intro c
      have hc := hties c
      rw [List.filter_cons, List.filter_cons] at hc
      split at hc
      · exact (List.cons.inj hc).2
      · exact hc

theorem filter_mergeSort (keep : α → Bool) (members : List α) :
    (members.mergeSort le).filter keep = (members.filter keep).mergeSort le := by
  refine h.eq_of_filter_tied ((h.pairwise_mergeSort members).filter keep)
    (h.pairwise_mergeSort _) ?_
  intro a
  rw [List.filter_comm, h.filter_tied_mergeSort, List.filter_comm, h.filter_tied_mergeSort]

end TotalPreorder

/-- The order by two others, of which the second tells where the first one ties. -/
def lexLE (first second : α → α → Bool) (a b : α) : Bool :=
  first a b && (!first b a || second a b)

variable {first second : α → α → Bool}

theorem lexLE_iff {a b : α} : lexLE first second a b = true ↔
    first a b = true ∧ (first b a = true → second a b = true) := by
  rw [lexLE, Bool.and_eq_true_iff]
  cases first b a <;> simp

theorem tied_lexLE (a b : α) :
    tied (lexLE first second) a b = (tied second a b && tied first a b) := by
  rw [Bool.eq_iff_iff, Bool.and_eq_true_iff, tied_iff, tied_iff, tied_iff, lexLE_iff, lexLE_iff]
  constructor
  · rintro ⟨⟨hab, hab'⟩, hba, hba'⟩
    exact ⟨⟨hab' hba, hba' hab⟩, hab, hba⟩
  · rintro ⟨⟨hab', hba'⟩, hab, hba⟩
    exact ⟨⟨hab, fun _ => hab'⟩, hba, fun _ => hba'⟩

namespace TotalPreorder

variable (h : TotalPreorder first) (h' : TotalPreorder second)
include h h'

theorem lex : TotalPreorder (lexLE first second) := by
  constructor
  · intro a b c hab hbc
    rw [lexLE_iff] at hab hbc ⊢
    refine ⟨h.trans a b c hab.1 hbc.1, ?_⟩
    intro hca
    exact h'.trans a b c (hab.2 (h.trans b c a hbc.1 hca)) (hbc.2 (h.trans c a b hca hab.1))
  · intro a b
    have hfirst := h.total a b
    have hsecond := h'.total a b
    rw [Bool.or_eq_true_iff, lexLE_iff, lexLE_iff]
    rw [Bool.or_eq_true_iff] at hfirst hsecond
    cases hab : first a b <;> cases hba : first b a <;> simp_all

/-- A sort keeps what an earlier one did to the members that tie in it. -/
theorem mergeSort_mergeSort (members : List α) :
    (members.mergeSort second).mergeSort first = members.mergeSort (lexLE first second) := by
  have hlex := h.lex h'
  have hsorted : ((members.mergeSort second).mergeSort first).Pairwise
      fun a b => lexLE first second a b = true := by
    refine List.pairwise_iff_forall_sublist.mpr ?_
    intro a b hsub
    have hab := List.pairwise_iff_forall_sublist.mp (h.pairwise_mergeSort _) hsub
    refine lexLE_iff.mpr ⟨hab, ?_⟩
    intro hba
    have hties := hsub.filter (tied first a)
    rw [h.filter_tied_mergeSort, List.filter_cons_of_pos (h.tied_self a),
      List.filter_cons_of_pos (tied_iff.mpr ⟨hab, hba⟩), List.filter_nil] at hties
    exact List.pairwise_iff_forall_sublist.mp ((h'.pairwise_mergeSort members).filter _) hties
  refine hlex.eq_of_filter_tied hsorted (hlex.pairwise_mergeSort members) ?_
  intro a
  rw [hlex.filter_tied_mergeSort]
  simp only [funext (tied_lexLE a), ← List.filter_filter]
  rw [h.filter_tied_mergeSort, List.filter_comm, h'.filter_tied_mergeSort, List.filter_comm]

end TotalPreorder
end DocQuery
