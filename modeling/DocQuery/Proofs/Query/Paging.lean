import DocQuery.Proofs.Query.Compiled
import DocQuery.Proofs.Selection.Members
import Mathlib.Data.List.Basic

/- Pages of a filter. Main statement: a page holds the members between two places, the pages of one
size make up the whole, and a page of a page is a page. -/

namespace DocQuery

section Window

variable {α : Type}

/-- The members from an offset on, up to a limit or to the last one. -/
def window (limit : Option Nat) (offset : Nat) (members : List α) : List α :=
  members.extract offset (limit.elim members.length fun n => min (offset + n) members.length)

/-- The number of pages of a size that so many members fill. -/
def pageCount (size length : Nat) : Nat := (length + size - 1) / size

theorem window_none (offset : Nat) (members : List α) :
    window none offset members = members.drop offset := by
  rw [window, List.extract_eq_take_drop, Option.elim_none]
  exact List.take_of_length_le (by simp)

theorem window_some (n offset : Nat) (members : List α) :
    window (some n) offset members = (members.drop offset).take n := by
  rw [window, List.extract_eq_take_drop, Option.elim_some, List.take_eq_take_iff, List.length_drop]
  omega

theorem window_of_length_le {offset : Nat} {members : List α} (h : members.length ≤ offset)
    (limit : Option Nat) : window limit offset members = [] := by
  cases limit with
  | none => rw [window_none, List.drop_of_length_le h]
  | some n => rw [window_some, List.drop_of_length_le h, List.take_nil]

theorem window_window (limit limit' : Option Nat) (offset offset' : Nat) (members : List α) :
    window limit' offset' (window limit offset members) =
      window (Option.merge min limit' (limit.map (· - offset'))) (offset + offset') members := by
  cases limit <;> cases limit' <;>
    simp [window_none, window_some, List.drop_take, List.take_take]

theorem flatMap_window_range (size count : Nat) (members : List α) :
    ((List.range count).flatMap fun k => window (some size) (k * size) members) =
      members.take (count * size) := by
  induction count with
  | zero => simp
  | succ count ih =>
    rw [List.range_succ, List.flatMap_append, ih, List.flatMap_singleton, window_some,
      Nat.succ_mul, List.take_add]

theorem length_le_pageCount_mul {size : Nat} (h : 0 < size) (length : Nat) :
    length ≤ pageCount size length * size := by
  have hlast := Nat.lt_div_mul_add (a := length + size - 1) h
  rw [pageCount]
  omega

theorem mul_lt_of_lt_pageCount {k size length : Nat} (hsize : 0 < size)
    (h : k < pageCount size length) : k * size < length := by
  have hnext : (k + 1) * size ≤ length + size - 1 :=
    Nat.le_trans (Nat.mul_le_mul_right size h) (Nat.div_mul_le_self _ size)
  rw [Nat.succ_mul] at hnext
  omega

end Window

/-- Pages are told by places that never wrap around. -/
theorem page_eq_window (limit offset : Option UInt64) (members : List Json) :
    page limit offset members =
      window (limit.map UInt64.toNat) (offset.elim 0 UInt64.toNat) members := by
  cases limit with
  | none => exact (window_none _ members).symm
  | some n => exact (window_some n.toNat _ members).symm

namespace Stage

variable (options : Options) (path : Path) (document : Json)

theorem apply_filter (limit offset : Option UInt64) :
    (filter path limit offset).apply options document =
      .array (window (limit.map UInt64.toNat) (offset.elim 0 UInt64.toNat)
        (path.matched document)) := by
  rw [apply, page_eq_window, Path.members_eq_matched]

theorem flatMap_pages {size : UInt64} (hsize : 0 < size)
    (h : (path.matched document).length < UInt64.size) :
    ((List.range (pageCount size.toNat (path.matched document).length)).flatMap fun k =>
      elements ((filter path (some size) (some (.ofNat (k * size.toNat)))).apply options document)) =
        path.matched document := by
  have hsize' : 0 < size.toNat := UInt64.lt_iff_toNat_lt.mp hsize
  have hpages : ∀ k ∈ List.range (pageCount size.toNat (path.matched document).length),
      elements ((filter path (some size) (some (.ofNat (k * size.toNat)))).apply options document) =
        window (some size.toNat) (k * size.toNat) (path.matched document) := by
    intro k hk
    have hoffset : k * size.toNat < UInt64.size :=
      Nat.lt_trans (mul_lt_of_lt_pageCount hsize' (List.mem_range.mp hk)) h
    rw [apply_filter, elements, Option.elim_some, UInt64.toNat_ofNat_of_lt' hoffset]
    rfl
  rw [List.flatMap_congr hpages, flatMap_window_range]
  exact List.take_of_length_le (length_le_pageCount_mul hsize' _)

/-- A filter gives the members between two places, and none where it begins behind the last. The
pages of one size are all of the members. To page again with the root path is to take one page, from
both offsets on and up to the limit that is reached first. -/
theorem apply_filter_eq_window :
    (∀ limit offset, (filter path limit offset).apply options document =
        .array (window (limit.map UInt64.toNat) (offset.elim 0 UInt64.toNat)
          (path.matched document)) ∧
      ((path.matched document).length ≤ offset.elim 0 UInt64.toNat →
        (filter path limit offset).apply options document = .array [])) ∧
    (∀ text, Path.parse text = .ok path → ∀ limit offset,
      ((Operation.filter text limit offset).run options document).result =
        .ok ((filter path limit offset).apply options document)) ∧
    (∀ size : UInt64, 0 < size → (path.matched document).length < UInt64.size →
      ((List.range (pageCount size.toNat (path.matched document).length)).flatMap fun k =>
        elements ((filter path (some size) (some (.ofNat (k * size.toNat)))).apply options
          document)) = elements ((filter path none none).apply options document)) ∧
    Path.parse "$" = .ok ⟨.document, []⟩ ∧
    (∀ limit offset limit' offset', (filter ⟨.document, []⟩ limit' offset').apply options
        ((filter path limit offset).apply options document) =
      .array (window
        (Option.merge min (limit'.map UInt64.toNat)
          (limit.map fun n => n.toNat - offset'.elim 0 UInt64.toNat))
        (offset.elim 0 UInt64.toNat + offset'.elim 0 UInt64.toNat) (path.matched document))) := by
  refine ⟨?_, ?_, ?_, rfl, ?_⟩
  · intro limit offset
    refine ⟨apply_filter options path document limit offset, ?_⟩
    intro hlength
    rw [apply_filter, window_of_length_le hlength]
  · intro text htext limit offset
    rw [Operation.run, Operation.compile_filter htext]
  · intro size hsize hlength
    rw [flatMap_pages options path document hsize hlength, apply_filter]
    exact (window_none 0 _).symm
  · intro limit offset limit' offset'
    rw [apply_filter, apply_filter]
    show Json.array (window _ _ (window _ _ _)) = _
    rw [window_window, Option.map_map]
    rfl

def threeMembers : Json := .object [("a", .array [.null, .bool true, .string "x"])]

/-- The first page of two that begins at the second member, the pages of two of three members, and
a page of that first page. -/
theorem apply_filter_eq_window_three :
    Path.parse "a" = .ok ⟨.document, [.key "a"]⟩ ∧
    ((Operation.filter "a" (some 2) (some 1)).run .default threeMembers).result =
      .ok (.array [.bool true, .string "x"]) ∧
    ([0, 1].flatMap fun k =>
      elements ((filter ⟨.document, [.key "a"]⟩ (some 2) (some (.ofNat (k * 2)))).apply .default
        threeMembers)) =
      [.null, .bool true, .string "x"] ∧
    (filter ⟨.document, []⟩ (some 5) (some 1)).apply .default
        ((filter ⟨.document, [.key "a"]⟩ (some 2) (some 1)).apply .default threeMembers) =
      .array [.string "x"] := by
  have hparse : Path.parse "a" = .ok ⟨.document, [.key "a"]⟩ := rfl
  obtain ⟨hplaces, hhandler, hpages, _, hagain⟩ := apply_filter_eq_window .default
    ⟨.document, [.key "a"]⟩ threeMembers
  refine ⟨hparse, ?_, hpages 2 (by decide) (by decide), hagain (some 2) (some 1) (some 5) (some 1)⟩
  rw [hhandler "a" hparse, (hplaces (some 2) (some 1)).1]
  rfl

end Stage
end DocQuery
