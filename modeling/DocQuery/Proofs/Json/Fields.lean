import DocQuery.Json.Basic
import Mathlib.Data.List.Nodup

/- Field lists as maps from keys to values: what insertion does to the order of the keys and to
what is found under a key. -/

namespace DocQuery.Fields

/-- Each key is there once. -/
def Distinct (fields : Fields) : Prop := fields.keys.Nodup

instance (fields : Fields) : Decidable fields.Distinct :=
  inferInstanceAs (Decidable (List.Nodup _))

theorem keys_cons (key : String) (value : Json) (rest : Fields) :
    keys ((key, value) :: rest) = key :: rest.keys := rfl

theorem keys_append (a b : Fields) : keys (a ++ b) = a.keys ++ b.keys := List.map_append

theorem get?_eq_none_iff {fields : Fields} {key : String} :
    fields.get? key = none ↔ key ∉ fields.keys := by
  induction fields with
  | nil => simp only [get?_nil, keys, List.map_nil, List.not_mem_nil, not_false_eq_true]
  | cons field rest ih =>
    obtain ⟨k, v⟩ := field
    rw [keys_cons, List.mem_cons, not_or]
    by_cases h : k = key
    · subst h
      simp only [get?_cons_self, reduceCtorEq, not_true_eq_false, false_and]
    · rw [get?_cons_of_ne h, ih]
      simp only [Ne.symm h, not_false_eq_true, true_and]

theorem isSome_get?_iff {fields : Fields} {key : String} :
    (fields.get? key).isSome = true ↔ key ∈ fields.keys := by
  rw [Option.isSome_iff_ne_none, ne_eq, get?_eq_none_iff, Decidable.not_not]

theorem mem_keys_of_get? {fields : Fields} {key : String} {value : Json}
    (h : fields.get? key = some value) : key ∈ fields.keys := by
  rw [← isSome_get?_iff, h]
  rfl

theorem mem_of_get? {fields : Fields} {key : String} {value : Json}
    (h : fields.get? key = some value) : (key, value) ∈ fields := by
  obtain ⟨front, rest, rfl, _⟩ := List.lookup_eq_some_iff.mp h
  exact List.mem_append_right _ List.mem_cons_self

/-- A key leads to the value of its first field. -/
theorem get?_eq_some_iff {fields : Fields} {name : String} {value : Json} :
    fields.get? name = some value ↔
      ∃ front rest : Fields, fields = front ++ (name, value) :: rest ∧ name ∉ front.keys := by
  have hkeys (front : Fields) : name ∉ front.keys ↔ ∀ field ∈ front, name != field.1 := by
    simp only [keys, List.mem_map, not_exists, not_and, bne_iff_ne, ne_eq, @eq_comm String name]
  simp only [hkeys]
  exact List.lookup_eq_some_iff

theorem Distinct.tail {field : String × Json} {rest : Fields} (h : Distinct (field :: rest)) :
    rest.Distinct := (List.nodup_cons.mp h).2

theorem Distinct.get?_tail {key : String} {value : Json} {rest : Fields}
    (h : Distinct ((key, value) :: rest)) : rest.get? key = none :=
  get?_eq_none_iff.mpr (List.nodup_cons.mp h).1

theorem Distinct.get?_eq_some_iff {fields : Fields} (h : fields.Distinct) {key : String}
    {value : Json} : fields.get? key = some value ↔ (key, value) ∈ fields := by
  refine ⟨mem_of_get?, ?_⟩
  intro hmem
  induction fields with
  | nil => contradiction
  | cons field rest ih =>
    rcases List.mem_cons.mp hmem with rfl | hrest
    · exact get?_cons_self key value rest
    · have hget := ih h.tail hrest
      obtain ⟨k, v⟩ := field
      have hne : k ≠ key := by
        rintro rfl
        rw [h.get?_tail] at hget
        contradiction
      rw [get?_cons_of_ne hne, hget]

theorem Distinct.filterMap_get?_keys {fields : Fields} (h : fields.Distinct) :
    fields.keys.filterMap fields.get? = fields.values := by
  induction fields with
  | nil => rfl
  | cons field rest ih =>
    obtain ⟨key, value⟩ := field
    have hrest : ∀ name ∈ keys rest, get? ((key, value) :: rest) name = get? rest name := by
      intro name hname
      refine get?_cons_of_ne ?_ value rest
      rintro rfl
      exact (List.nodup_cons.mp h).1 hname
    rw [keys_cons, List.filterMap_cons_some (get?_cons_self key value rest),
      List.filterMap_congr hrest, ih h.tail]
    rfl

/-- Lists with the same keys in the same order are told apart by what is found under a key. -/
theorem Distinct.ext {a b : Fields} (ha : a.Distinct) (hkeys : a.keys = b.keys)
    (hget : ∀ key, a.get? key = b.get? key) : a = b := by
  induction a generalizing b with
  | nil => exact (List.map_eq_nil_iff.mp hkeys.symm).symm
  | cons field rest ih =>
    cases b with
    | nil => contradiction
    | cons field' rest' =>
      obtain ⟨k, v⟩ := field
      obtain ⟨k', v'⟩ := field'
      obtain ⟨rfl, htail⟩ := List.cons.inj hkeys
      have hb : Distinct ((k, v') :: rest') := by
        rw [Distinct, ← hkeys]
        exact ha
      have hvalue := hget k
      rw [get?_cons_self, get?_cons_self] at hvalue
      rw [Option.some.inj hvalue, ih ha.tail htail]
      intro key
      by_cases h : k = key
      · rw [← h, ha.get?_tail, hb.get?_tail]
      · simpa only [get?_cons_of_ne h] using hget key

theorem insert_of_not_mem {fields : Fields} {key : String} (h : key ∉ fields.keys)
    (value : Json) : insert key value fields = fields ++ [(key, value)] := by
  induction fields with
  | nil => rfl
  | cons field rest ih =>
    obtain ⟨k, v⟩ := field
    rw [keys_cons, List.mem_cons, not_or] at h
    rw [insert, if_neg (Ne.symm h.1), ih h.2, List.cons_append]

/-- The value of a key changes where it is. -/
theorem modify_append {front : Fields} {name : String} (h : name ∉ front.keys) (f : Json → Json)
    (value : Json) (rest : Fields) :
    modify name f (front ++ (name, value) :: rest) = front ++ (name, f value) :: rest := by
  induction front with
  | nil => exact if_pos rfl
  | cons field front ih =>
    rw [keys_cons, List.mem_cons, not_or] at h
    rw [List.cons_append, modify, if_neg (Ne.symm h.1), ih h.2, List.cons_append]

theorem modify_of_not_mem {fields : Fields} {name : String} (h : name ∉ fields.keys)
    (f : Json → Json) : fields.modify name f = fields := by
  induction fields with
  | nil => rfl
  | cons field fields ih =>
    rw [keys_cons, List.mem_cons, not_or] at h
    rw [modify, if_neg (Ne.symm h.1), ih h.2]

theorem keys_insert_of_mem {fields : Fields} {key : String} (h : key ∈ fields.keys)
    (value : Json) : (insert key value fields).keys = fields.keys := by
  induction fields with
  | nil => contradiction
  | cons field rest ih =>
    obtain ⟨k, v⟩ := field
    by_cases hk : k = key
    · rw [insert, if_pos hk, keys_cons, keys_cons, hk]
    · have hrest : key ∈ keys rest := (List.mem_cons.mp h).resolve_left (Ne.symm hk)
      rw [insert, if_neg hk, keys_cons, keys_cons, ih hrest]

theorem keys_insert (key : String) (value : Json) (fields : Fields) :
    (insert key value fields).keys =
      if key ∈ fields.keys then fields.keys else fields.keys ++ [key] := by
  split
  · next h => exact keys_insert_of_mem h value
  · next h =>
    rw [insert_of_not_mem h, keys_append]
    rfl

theorem get?_insert (key : String) (value : Json) (fields : Fields) (other : String) :
    (insert key value fields).get? other =
      if key = other then some value else fields.get? other := by
  split
  · next h =>
    subst h
    exact get?_insert_self fields key value
  · next h => exact get?_insert_of_ne h fields value

theorem Distinct.insert {fields : Fields} (h : fields.Distinct) (key : String) (value : Json) :
    (fields.insert key value).Distinct := by
  rw [Distinct, keys_insert]
  split
  · exact h
  · next hkey =>
    rw [List.nodup_append]
    refine ⟨h, List.nodup_singleton key, ?_⟩
    rintro a ha b hb rfl
    rw [List.mem_singleton.mp hb] at ha
    exact hkey ha

theorem overlay_cons (fields : Fields) (key : String) (value : Json) (upper : Fields) :
    overlay fields ((key, value) :: upper) = overlay (insert key value fields) upper := rfl

theorem Distinct.overlay {fields : Fields} (h : fields.Distinct) (upper : Fields) :
    (fields.overlay upper).Distinct := by
  induction upper generalizing fields with
  | nil => exact h
  | cons field upper ih => exact ih (h.insert field.1 field.2)

theorem distinct_nil : Distinct [] := List.nodup_nil

theorem distinct_ofList (entries : List (String × Json)) : (ofList entries).Distinct :=
  distinct_nil.overlay entries

theorem keys_overlay {upper : Fields} (h : upper.Distinct) (fields : Fields) :
    (overlay fields upper).keys =
      fields.keys ++ upper.keys.filter fun key => key ∉ fields.keys := by
  induction upper generalizing fields with
  | nil => exact (List.append_nil _).symm
  | cons field upper ih =>
    obtain ⟨key, value⟩ := field
    have hkey : key ∉ keys upper := (List.nodup_cons.mp h).1
    rw [overlay_cons, ih h.tail, keys_insert, keys_cons]
    split
    · next hmem => rw [List.filter_cons_of_neg (by simp only [hmem, not_true_eq_false, decide_false,
        Bool.false_eq_true, not_false_eq_true])]
    · next hmem =>
      rw [List.filter_cons_of_pos (by simp only [hmem, not_false_eq_true, decide_true]),
        List.append_assoc, List.singleton_append]
      refine congrArg (fun more => fields.keys ++ key :: more) (List.filter_congr ?_)
      intro other hother
      have hne : other ≠ key := by
        rintro rfl
        exact hkey hother
      simp only [List.mem_append, List.mem_singleton, hne, or_false]

theorem get?_overlay {upper : Fields} (h : upper.Distinct) (fields : Fields) (key : String) :
    (overlay fields upper).get? key = (upper.get? key).or (fields.get? key) := by
  induction upper generalizing fields with
  | nil => rfl
  | cons field upper ih =>
    obtain ⟨k, v⟩ := field
    rw [overlay_cons, ih h.tail, get?_insert]
    split
    · next hk =>
      subst hk
      rw [h.get?_tail, get?_cons_self, Option.none_or, Option.some_or]
    · next hk => rw [get?_cons_of_ne hk]

theorem ofList_of_distinct {fields : Fields} (h : fields.Distinct) : ofList fields = fields := by
  refine (distinct_ofList fields).ext ?_ ?_
  · rw [ofList, keys_overlay h]
    exact List.filter_eq_self.mpr fun _ _ => decide_eq_true List.not_mem_nil
  · intro key
    rw [ofList, get?_overlay h, get?_nil, Option.or_none]

/-- The keys of an overlay depend on nothing but keys. -/
theorem keys_overlay_congr {a b upper upper' : Fields} (h : a.keys = b.keys)
    (hupper : upper.keys = upper'.keys) : (overlay a upper).keys = (overlay b upper').keys := by
  induction upper generalizing a b upper' with
  | nil => rwa [List.map_eq_nil_iff.mp hupper.symm]
  | cons field upper ih =>
    cases upper' with
    | nil => contradiction
    | cons field' upper' =>
      obtain ⟨k, v⟩ := field
      obtain ⟨k', v'⟩ := field'
      obtain ⟨rfl, htail⟩ := List.cons.inj hupper
      rw [overlay_cons, overlay_cons]
      refine ih ?_ htail
      rw [keys_insert, keys_insert, h]

/-- What a function finds under names; a repeated name counts once. -/
def gather (f : String → Option Json) (names : List String) : Fields :=
  .ofList (names.filterMap fun name => (f name).map (name, ·))

theorem distinct_gather (f : String → Option Json) (names : List String) :
    (gather f names).Distinct := distinct_ofList _

theorem get?_overlay_entries (f : String → Option Json) (names : List String) (fields : Fields)
    (key : String) :
    (overlay fields (names.filterMap fun name => (f name).map (name, ·))).get? key =
      (if key ∈ names then f key else none).or (fields.get? key) := by
  induction names generalizing fields with
  | nil => rfl
  | cons name names ih =>
    cases hname : f name with
    | none =>
      rw [List.filterMap_cons_none (by rw [hname]; rfl), ih]
      by_cases h : key = name
      · subst h
        simp only [hname, ite_self, Option.none_or]
      · simp only [List.mem_cons, h, false_or]
    | some value =>
      rw [List.filterMap_cons_some (by rw [hname]; rfl), overlay_cons, ih, get?_insert]
      by_cases h : key = name
      · subst h
        simp only [hname, List.mem_cons_self, if_true, Option.some_or]
        split <;> rfl
      · simp only [List.mem_cons, h, false_or, Ne.symm h, if_false]

theorem get?_gather (f : String → Option Json) (names : List String) (key : String) :
    (gather f names).get? key = if key ∈ names then f key else none := by
  rw [gather, ofList, get?_overlay_entries, get?_nil, Option.or_none]

theorem pick_gather (f : String → Option Json) (names : List String) :
    names.filterMap (gather f names).get? = names.filterMap f := by
  refine List.filterMap_congr ?_
  intro name hname
  rw [get?_gather, if_pos hname]

theorem gather_eq_iff {f g : String → Option Json} {names : List String} :
    gather f names = gather g names ↔ ∀ name ∈ names, f name = g name := by
  constructor
  · intro h name hname
    have hget := congrArg (get? · name) h
    simpa only [get?_gather, if_pos hname] using hget
  · intro h
    refine congrArg ofList (List.filterMap_congr ?_)
    intro name hname
    rw [h name hname]

/-- The order of the keys depends on the names alone and on which of them something is found. -/
theorem keys_gather_congr {f g : String → Option Json} {names : List String}
    (h : ∀ name ∈ names, (f name).isSome = (g name).isSome) :
    (gather f names).keys = (gather g names).keys := by
  have hkeys (f : String → Option Json) :
      keys (names.filterMap fun name => (f name).map (name, ·)) =
        names.filter fun name => (f name).isSome := by
    rw [keys, List.map_filterMap, ← List.filterMap_eq_filter]
    refine List.filterMap_congr ?_
    intro name _
    cases hname : f name with
    | none => simp only [hname, Option.map_none, Option.guard, Option.isSome_none,
        Bool.false_eq_true, if_false]
    | some value => simp only [hname, Option.map_some, Option.guard, Option.isSome_some, if_true]
  refine keys_overlay_congr rfl ?_
  rw [hkeys, hkeys]
  exact List.filter_congr h

end DocQuery.Fields
