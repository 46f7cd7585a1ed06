import DocQuery.Proofs.Json.WellFormed
import Mathlib.Data.List.Perm.Subperm

/- Equality of documents. Main statements: among documents in which no object holds a key twice,
every document equals itself, and two are equal in either order. -/

namespace DocQuery

theorem Number.same_self (n : Number) : n.same n = true := by
  cases n <;> exact beq_self_eq_true _

theorem Number.same_comm (m n : Number) : m.same n = n.same m := by
  cases m <;> cases n
  case int.int => exact BEq.comm
  case float.float => exact BEq.comm
  all_goals rfl

/-- Distinct keys that are all among as many others are all of these. -/
theorem Fields.Distinct.keys_subset {as bs : Fields} (h : as.Distinct) (hkeys : as.keys ⊆ bs.keys)
    (hlength : as.length = bs.length) : bs.keys ⊆ as.keys := by
  have hle : bs.keys.length ≤ as.keys.length := by
    simp only [keys, List.length_map, hlength, Nat.le_refl]
  exact ((List.subperm_of_subset h hkeys).perm_of_length_le hle).symm.subset

namespace Json

theorem sameItems_self {items : List Json} (h : ∀ item ∈ items, item.same item = true) :
    sameItems items items = true := by
  induction items with
  | nil => rfl
  | cons item items ih =>
    obtain ⟨hitem, hrest⟩ := List.forall_mem_cons.mp h
    rw [sameItems, hitem, ih hrest]
    rfl

theorem sameItems_symm {as bs : List Json}
    (hsymm : ∀ a ∈ as, ∀ b ∈ bs, a.same b = true → b.same a = true)
    (h : sameItems as bs = true) : sameItems bs as = true := by
  induction as generalizing bs with
  | nil =>
    cases bs with
    | nil => rfl
    | cons b bs => contradiction
  | cons a as ih =>
    cases bs with
    | nil => contradiction
    | cons b bs =>
      rw [sameItems, Bool.and_eq_true] at h ⊢
      refine ⟨hsymm a List.mem_cons_self b List.mem_cons_self h.1, ih ?_ h.2⟩
      intro a' ha' b' hb'
      exact hsymm a' (List.mem_cons_of_mem a ha') b' (List.mem_cons_of_mem b hb')

/-- Each field has an equal under its key. -/
theorem sameFields_iff {entries fields : Fields} :
    sameFields entries fields = true ↔
      ∀ entry ∈ entries, ∃ value, fields.get? entry.1 = some value ∧ entry.2.same value = true := by
  induction entries with
  | nil => simp [sameFields]
  | cons entry entries ih =>
    obtain ⟨key, a⟩ := entry
    rw [sameFields, Bool.and_eq_true, ih, List.forall_mem_cons]
    cases fields.get? key <;> simp

theorem WellFormed.same_self {a : Json} (h : a.WellFormed) : a.same a = true := by
  induction h with
  | null => rfl
  | bool b => exact beq_self_eq_true b
  | number n => exact n.same_self
  | string s => exact beq_self_eq_true s
  | array _ ih => exact sameItems_self ih
  | object hdistinct _ ih =>
    rw [same, beq_self_eq_true, Bool.true_and, sameFields_iff]
    intro field hfield
    exact ⟨field.2, hdistinct.get?_eq_some_iff.mpr hfield, ih field hfield⟩

theorem WellFormed.same_symm {a b : Json} (ha : a.WellFormed) (hb : b.WellFormed)
    (h : a.same b = true) : b.same a = true := by
  induction ha generalizing b with
  | null =>
    cases b with
    | null => rfl
    | _ => contradiction
  | bool x =>
    cases b with
    | bool y => exact BEq.symm h
    | _ => contradiction
  | number m =>
    cases b with
    | number n => exact (Number.same_comm n m).trans h
    | _ => contradiction
  | string s =>
    cases b with
    | string t => exact BEq.symm h
    | _ => contradiction
  | array _ ih =>
    cases b with
    | array bs => exact sameItems_symm (fun a ha b hitem => ih a ha (hb.item hitem)) h
    | _ => contradiction
  | @object as hdistinct _ ih =>
    cases b with
    | object bs =>
      rw [same, Bool.and_eq_true, sameFields_iff, beq_iff_eq] at h ⊢
      obtain ⟨hlength, hfields⟩ := h
      refine ⟨hlength.symm, ?_⟩
      have hkeys : as.keys ⊆ Fields.keys bs := by
        intro key hkey
        obtain ⟨field, hfield, rfl⟩ := List.mem_map.mp hkey
        obtain ⟨value, hvalue, _⟩ := hfields field hfield
        exact Fields.mem_keys_of_get? hvalue
      rintro ⟨key, value⟩ hfield
      -- There are as many fields on both sides, so this one has a partner too.
      have hkey := hdistinct.keys_subset hkeys hlength (List.mem_map_of_mem hfield)
      obtain ⟨⟨_, partner⟩, hpartner, rfl⟩ := List.mem_map.mp hkey
      obtain ⟨value', hvalue', hsame⟩ := hfields _ hpartner
      rw [hb.distinct.get?_eq_some_iff.mpr hfield] at hvalue'
      obtain rfl := Option.some.inj hvalue'
      refine ⟨partner, hdistinct.get?_eq_some_iff.mpr hpartner, ?_⟩
      exact ih _ hpartner ((wellFormed_object_iff.mp hb).2 _ hfield) hsame
    | _ => contradiction

end Json
end DocQuery
