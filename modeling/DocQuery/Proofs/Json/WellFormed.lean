import DocQuery.Json.Reader
import DocQuery.Proofs.Json.Fields

/- Documents in which no object holds a key twice. Main statement: every document that is read from
a text is one. -/

namespace DocQuery

namespace Json

/-- No object inside holds a key twice. -/
inductive WellFormed : Json → Prop
  | null : WellFormed .null
  | bool (b : Bool) : WellFormed (.bool b)
  | number (n : Number) : WellFormed (.number n)
  | string (s : String) : WellFormed (.string s)
  | array {items : List Json} : (∀ item ∈ items, WellFormed item) → WellFormed (.array items)
  | object {fields : Fields} : fields.Distinct → (∀ field ∈ fields, WellFormed field.2) →
      WellFormed (.object fields)

theorem WellFormed.item {items : List Json} (h : WellFormed (.array items)) {item : Json}
    (hitem : item ∈ items) : item.WellFormed := by
  cases h with
  | array hitems => exact hitems item hitem

theorem WellFormed.distinct {fields : Fields} (h : WellFormed (.object fields)) :
    fields.Distinct := by
  cases h with
  | object hfields _ => exact hfields

attribute [simp] WellFormed.null WellFormed.bool WellFormed.number WellFormed.string

@[simp] theorem wellFormed_array_iff {items : List Json} :
    WellFormed (.array items) ↔ ∀ item ∈ items, item.WellFormed :=
  ⟨fun h _ => h.item, .array⟩

@[simp] theorem wellFormed_object_iff {fields : Fields} :
    WellFormed (.object fields) ↔ fields.Distinct ∧ ∀ field ∈ fields, field.2.WellFormed := by
  refine ⟨?_, fun h => .object h.1 h.2⟩
  intro h
  cases h with
  | object hfields hvalues => exact ⟨hfields, hvalues⟩

end Json

theorem Fields.mem_insert {key : String} {value : Json} {fields : Fields} {field : String × Json}
    (h : field ∈ fields.insert key value) : field = (key, value) ∨ field ∈ fields := by
  induction fields with
  | nil => exact .inl (List.mem_singleton.mp h)
  | cons first rest ih =>
    obtain ⟨k, v⟩ := first
    rw [insert] at h
    split at h
    · rcases List.mem_cons.mp h with h | h
      · exact .inl h
      · exact .inr (List.mem_cons_of_mem _ h)
    · rcases List.mem_cons.mp h with h | h
      · exact .inr (h ▸ List.mem_cons_self)
      · exact (ih h).imp_right (List.mem_cons_of_mem _)

theorem Fields.mem_overlay {fields upper : Fields} {field : String × Json}
    (h : field ∈ fields.overlay upper) : field ∈ fields ∨ field ∈ upper := by
  induction upper generalizing fields with
  | nil => exact .inl h
  | cons first upper ih =>
    rcases ih h with h | h
    · rcases mem_insert h with h | h
      · exact .inr (h ▸ List.mem_cons_self)
      · exact .inl h
    · exact .inr (List.mem_cons_of_mem _ h)

namespace Json

theorem wellFormed_ofList {entries : List (String × Json)}
    (h : ∀ field ∈ entries, WellFormed field.2) : WellFormed (.object (Fields.ofList entries)) := by
  refine .object (Fields.distinct_ofList entries) ?_
  intro field hfield
  rcases Fields.mem_overlay hfield with hfield | hfield
  · contradiction
  · exact h field hfield

mutual

theorem wellFormed_of_readValue? : ∀ {fuel : Nat} {s rest : List Char} {value : Json},
    readValue? fuel s = some (value, rest) → value.WellFormed
  | 0, _, _, _, h => nomatch h
  | fuel + 1, s, rest, value, h => by
    rw [readValue?] at h
    split at h
    · split at h
      · obtain ⟨rfl, rfl⟩ := Prod.mk.inj (Option.some.inj h)
        exact .object Fields.distinct_nil fun field hfield => absurd hfield List.not_mem_nil
      · obtain ⟨⟨fields, r⟩, hfields, hr⟩ := Option.map_eq_some_iff.mp h
        obtain ⟨rfl, rfl⟩ := Prod.mk.inj hr
        exact wellFormed_ofList (wellFormed_of_readFields? hfields)
    · split at h
      · obtain ⟨rfl, rfl⟩ := Prod.mk.inj (Option.some.inj h)
        exact .array fun item hitem => absurd hitem List.not_mem_nil
      · obtain ⟨⟨items, r⟩, hitems, hr⟩ := Option.map_eq_some_iff.mp h
        obtain ⟨rfl, rfl⟩ := Prod.mk.inj hr
        exact .array (wellFormed_of_readItems? hitems)
    · obtain ⟨⟨text, r⟩, _, hr⟩ := Option.map_eq_some_iff.mp h
      obtain ⟨rfl, rfl⟩ := Prod.mk.inj hr
      exact .string _
    · obtain ⟨rfl, rfl⟩ := Prod.mk.inj (Option.some.inj h)
      exact .null
    · obtain ⟨rfl, rfl⟩ := Prod.mk.inj (Option.some.inj h)
      exact .bool true
    · obtain ⟨rfl, rfl⟩ := Prod.mk.inj (Option.some.inj h)
      exact .bool false
    · obtain ⟨⟨n, r⟩, _, hr⟩ := Option.map_eq_some_iff.mp h
      obtain ⟨rfl, rfl⟩ := Prod.mk.inj hr
      exact .number n

theorem wellFormed_of_readItems? : ∀ {fuel : Nat} {s rest : List Char} {items : List Json},
    readItems? fuel s = some (items, rest) → ∀ item ∈ items, item.WellFormed
  | 0, _, _, _, h => nomatch h
  | fuel + 1, s, rest, items, h => by
    rw [readItems?] at h
    obtain ⟨⟨item, r⟩, hitem, h⟩ := Option.bind_eq_some_iff.mp h
    have hfirst := wellFormed_of_readValue? hitem
    dsimp only at h
    split at h
    · obtain ⟨⟨more, r'⟩, hmore, h⟩ := Option.bind_eq_some_iff.mp h
      obtain ⟨rfl, rfl⟩ := Prod.mk.inj (Option.some.inj h)
      exact List.forall_mem_cons.mpr ⟨hfirst, wellFormed_of_readItems? hmore⟩
    · obtain ⟨rfl, rfl⟩ := Prod.mk.inj (Option.some.inj h)
      exact List.forall_mem_singleton.mpr hfirst
    · contradiction

theorem wellFormed_of_readFields? : ∀ {fuel : Nat} {s rest : List Char}
    {fields : List (String × Json)},
    readFields? fuel s = some (fields, rest) → ∀ field ∈ fields, WellFormed field.2
  | 0, _, _, _, h => nomatch h
  | fuel + 1, s, rest, fields, h => by
    rw [readFields?] at h
    split at h
    · obtain ⟨⟨key, r⟩, _, h⟩ := Option.bind_eq_some_iff.mp h
      dsimp only at h
      split at h
      · obtain ⟨⟨value, r'⟩, hvalue, h⟩ := Option.bind_eq_some_iff.mp h
        have hfirst := wellFormed_of_readValue? hvalue
        dsimp only at h
        split at h
        · obtain ⟨⟨more, r''⟩, hmore, h⟩ := Option.bind_eq_some_iff.mp h
          obtain ⟨rfl, rfl⟩ := Prod.mk.inj (Option.some.inj h)
          exact List.forall_mem_cons.mpr ⟨hfirst, wellFormed_of_readFields? hmore⟩
        · obtain ⟨rfl, rfl⟩ := Prod.mk.inj (Option.some.inj h)
          exact List.forall_mem_singleton.mpr hfirst
        · contradiction
      · contradiction
    · contradiction

end

theorem wellFormed_of_ofText? {text : String} {document : Json} (h : ofText? text = some document) :
    document.WellFormed := by
  rw [ofText?] at h
  split at h
  · next hread =>
    split at h
    · exact Option.some.inj h ▸ wellFormed_of_readValue? hread
    · contradiction
  · contradiction

end Json
end DocQuery
