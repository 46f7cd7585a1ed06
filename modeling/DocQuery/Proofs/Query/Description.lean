import DocQuery.Proofs.Json.Fields
import DocQuery.Proofs.Query.Compiled
import Mathlib.Logic.Relation

/- Descriptors of operations. A descriptor says what stands under the keys that its kind reads, so it
describes one operation at most, whatever else it holds and in whatever order. Main statement: an
operation is read back from its descriptor, and from each restatement of one. -/

namespace DocQuery

inductive CountIs : Option Json → Option UInt64 → Prop
  | absent : CountIs none none
  | null : CountIs (some .null) none
  | count (n : UInt64) : CountIs (some (.number (.int (.ofWord n)))) (some n)

/-- A direction that an optional field gives, by its name or as the one key of an object. -/
inductive DirectionIs : Option Json → Direction → Prop
  | absent : DirectionIs none .ascending
  | name (direction : Direction) : DirectionIs (some (.string direction.name)) direction
  | key (direction : Direction) : DirectionIs (some (.object [(direction.name, .null)])) direction
  | emptyKey (direction : Direction) :
    DirectionIs (some (.object [(direction.name, .object [])])) direction

def Operation.SettingsIn (fields : Fields) : Operation → Prop
  | .fields _ => True
  | .filter _ limit offset =>
    CountIs (fields.get? "limit") limit ∧ CountIs (fields.get? "offset") offset
  | .sort _ direction => DirectionIs (fields.get? "order") direction

structure Fields.Describes (fields : Fields) (op : Operation) : Prop where
  kind : fields.get? "op" = some (.string op.kind.name)
  path : fields.get? "path" = some (.string op.path)
  settings : op.SettingsIn fields

theorem WideInt.eq_ofWord_of_toWord? {n : WideInt} {w : UInt64} (h : n.toWord? = some w) :
    n = ofWord w := by
  obtain ⟨val, lower, upper⟩ := n
  rw [toWord?] at h
  split at h
  · next hsign =>
    obtain rfl := Option.some.inj h
    have hword : (UInt64.ofNat val.toNat).toNat = val.toNat :=
      UInt64.toNat_ofNat_of_lt' (by simp only [UInt64.size]; omega)
    simp only [ofWord, hword, WideInt.mk.injEq]
    exact (Int.toNat_of_nonneg hsign).symm
  · contradiction

theorem Direction.name_of_ofName? {name : String} {direction : Direction}
    (h : ofName? name = some direction) : direction.name = name := by
  unfold ofName? at h
  split at h
  · exact Option.some.inj h ▸ rfl
  · exact Option.some.inj h ▸ rfl
  · contradiction

theorem OperationKind.name_of_ofName? {name : String} {kind : OperationKind}
    (h : ofName? name = some kind) : kind.name = name := by
  unfold ofName? at h
  split at h
  · exact Option.some.inj h ▸ rfl
  · exact Option.some.inj h ▸ rfl
  · exact Option.some.inj h ▸ rfl
  · contradiction

namespace Json

theorem decodeString_eq_ok_iff {value : Json} {s : String} :
    value.decodeString = .ok s ↔ value = .string s := by
  constructor
  · intro h
    cases value with
    | string t => rw [Except.ok.inj h]
    | _ => contradiction
  · rintro rfl
    rfl

theorem decodeCount_eq_ok_iff {value : Json} {count : Option UInt64} :
    value.decodeCount = .ok count ↔ CountIs (some value) count := by
  constructor
  · intro h
    unfold decodeCount at h
    split at h
    · exact Except.ok.inj h ▸ .null
    · next n =>
      split at h
      · next w hword =>
        rw [WideInt.eq_ofWord_of_toWord? hword, ← Except.ok.inj h]
        exact .count w
      · contradiction
    · contradiction
  · intro h
    cases h with
    | null => rfl
    | count n =>
      rw [decodeCount, WideInt.toWord?_ofWord]

theorem decodeDirection_eq_ok_iff {value : Json} {direction : Direction} :
    value.decodeDirection = .ok direction ↔ DirectionIs (some value) direction := by
  constructor
  · intro h
    unfold decodeDirection at h
    split at h
    · next name =>
      split at h
      · next hname =>
        rw [← Direction.name_of_ofName? hname, ← Except.ok.inj h]
        exact .name _
      · contradiction
    · next fields =>
      unfold decodeDirectionObject at h
      split at h
      · next name value =>
        split at h
        · contradiction
        · next hname =>
          rw [← Direction.name_of_ofName? hname, ← Except.ok.inj h]
          exact .key _
        · next hname =>
          rw [← Direction.name_of_ofName? hname, ← Except.ok.inj h]
          exact .emptyKey _
        · contradiction
      · contradiction
    · contradiction
  · intro h
    cases h with
    | name => rw [decodeDirection, Direction.ofName?_name]
    | key => simp only [decodeDirection, decodeDirectionObject, Direction.ofName?_name]
    | emptyKey => simp only [decodeDirection, decodeDirectionObject, Direction.ofName?_name]

end Json

namespace Operation

theorem countOf_eq_ok_iff {fields : Fields} {name : String} {count : Option UInt64} :
    countOf fields name = .ok count ↔ CountIs (fields.get? name) count := by
  rw [countOf]
  cases fields.get? name with
  | none =>
    constructor
    · intro h
      exact Except.ok.inj h ▸ .absent
    · intro h
      cases h
      rfl
  | some value => exact Json.decodeCount_eq_ok_iff

theorem forM_eq_ok_iff {fields : Fields} {check : String × Json → Except ShapeError Unit} :
    fields.forM check = .ok () ↔ ∀ field ∈ fields, check field = .ok () := by
  induction fields with
  | nil => exact ⟨fun _ => List.forall_mem_nil _, fun _ => rfl⟩
  | cons field fields ih =>
    rw [List.forall_mem_cons, List.forM]
    cases check field with
    | error e => exact ⟨fun h => by contradiction, fun h => by have := h.1; contradiction⟩
    | ok u => exact ⟨fun h => ⟨rfl, ih.mp h⟩, fun h => ih.mpr h.2⟩

theorem checkField_of_describes {fields : Fields} (h : fields.Distinct) {op : Operation}
    (hdescribes : fields.Describes op) {field : String × Json} (hfield : field ∈ fields) :
    checkField op.kind field = .ok () := by
  obtain ⟨key, value⟩ := field
  have hget : fields.get? key = some value := h.get?_eq_some_iff.mpr hfield
  have hpasses {count : Option UInt64} (hcount : CountIs (fields.get? key) count) :
      value.decodeCount.map (fun _ => ()) = .ok () := by
    rw [hget, ← Json.decodeCount_eq_ok_iff] at hcount
    rw [hcount]
    rfl
  unfold checkField
  -- The keys that a kind reads, each with its own check, and all the others.
  split
  · next hkey =>
    obtain rfl : key = "path" := hkey
    obtain rfl := Option.some.inj (hget.symm.trans hdescribes.path)
    rfl
  · next hkind hkey =>
    obtain rfl : key = "limit" := hkey
    cases op with
    | filter path limit offset => exact hpasses hdescribes.settings.1
    | _ => contradiction
  · next hkind hkey =>
    obtain rfl : key = "offset" := hkey
    cases op with
    | filter path limit offset => exact hpasses hdescribes.settings.2
    | _ => contradiction
  · next hkind hkey =>
    obtain rfl : key = "order" := hkey
    cases op with
    | sort path direction =>
      have horder : DirectionIs (fields.get? "order") direction := hdescribes.settings
      rw [hget, ← Json.decodeDirection_eq_ok_iff] at horder
      rw [horder]
      rfl
    | _ => contradiction
  · rfl

theorem ofFields_of_describes {fields : Fields} (h : fields.Distinct) {op : Operation}
    (hdescribes : fields.Describes op) : ofFields op.kind fields = .ok op := by
  have hcheck := forM_eq_ok_iff.mpr fun field => checkField_of_describes h hdescribes
  rw [ofFields, hcheck, hdescribes.path]
  cases op with
  | fields path => rfl
  | filter path limit offset =>
    have hlimit := countOf_eq_ok_iff.mpr hdescribes.settings.1
    have hoffset := countOf_eq_ok_iff.mpr hdescribes.settings.2
    show (countOf fields "limit" >>= fun limit => countOf fields "offset" >>= fun offset =>
      Except.ok (Operation.filter path limit offset)) = _
    rw [hlimit, hoffset]
    rfl
  | sort path direction =>
    have horder : DirectionIs (fields.get? "order") direction := hdescribes.settings
    cases hget : fields.get? "order" with
    | none =>
      rw [hget] at horder
      cases horder
      rfl
    | some value =>
      rw [hget, ← Json.decodeDirection_eq_ok_iff] at horder
      show (value.decodeDirection >>= fun direction => Except.ok (sort path direction)) = _
      rw [horder]
      rfl

theorem describes_of_ofFields {kind : OperationKind} {fields : Fields} {op : Operation}
    (hkind : fields.get? "op" = some (.string kind.name)) (h : ofFields kind fields = .ok op) :
    fields.Describes op := by
  obtain ⟨_, _, h⟩ := bind_eq_ok_iff.mp h
  split at h
  · contradiction
  · next value hpath =>
    obtain ⟨path, hstring, h⟩ := bind_eq_ok_iff.mp h
    rw [Json.decodeString_eq_ok_iff.mp hstring] at hpath
    cases kind with
    | fields =>
      cases h
      exact ⟨hkind, hpath, True.intro⟩
    | filter =>
      obtain ⟨limit, hlimit, h⟩ := bind_eq_ok_iff.mp h
      obtain ⟨offset, hoffset, h⟩ := bind_eq_ok_iff.mp h
      cases h
      exact ⟨hkind, hpath, countOf_eq_ok_iff.mp hlimit, countOf_eq_ok_iff.mp hoffset⟩
    | sort =>
      dsimp only at h
      split at h
      · next horder =>
        cases h
        refine ⟨hkind, hpath, ?_⟩
        rw [SettingsIn, horder]
        exact .absent
      · next value horder =>
        obtain ⟨direction, hdirection, h⟩ := bind_eq_ok_iff.mp h
        cases h
        refine ⟨hkind, hpath, ?_⟩
        rw [SettingsIn, horder]
        exact Json.decodeDirection_eq_ok_iff.mp hdirection

/-- A descriptor is read as the operation that its fields describe. -/
theorem ofJson_eq_ok_iff {fields : Fields} (h : fields.Distinct) {op : Operation} :
    ofJson (.object fields) = .ok op ↔ fields.Describes op := by
  constructor
  · intro hread
    rw [ofJson] at hread
    split at hread
    · contradiction
    · next name hname =>
      split at hread
      · contradiction
      · next kind hkind =>
        rw [← OperationKind.name_of_ofName? hkind] at hname
        cases hfields : ofFields kind fields with
        | error e =>
          rw [hfields] at hread
          contradiction
        | ok op' =>
          rw [hfields] at hread
          exact Except.ok.inj hread ▸ describes_of_ofFields hname hfields
    · contradiction
  · intro hdescribes
    rw [ofJson, hdescribes.kind]
    dsimp only
    rw [OperationKind.ofName?_name]
    dsimp only
    rw [ofFields_of_describes h hdescribes]
    rfl

theorem exists_describes_toJson (op : Operation) :
    ∃ fields : Fields, op.toJson = .object fields ∧ fields.Distinct ∧ fields.Describes op := by
  cases op with
  | fields path => exact ⟨_, rfl, by simp [Fields.Distinct, Fields.keys], rfl, rfl, True.intro⟩
  | filter path limit offset =>
    refine ⟨_, rfl, ?_, ?_⟩
    · cases limit <;> cases offset <;> simp [countField, Fields.Distinct, Fields.keys]
    · cases limit with
      | none =>
        cases offset with
        | none => exact ⟨rfl, rfl, .absent, .absent⟩
        | some n => exact ⟨rfl, rfl, .absent, .count n⟩
      | some m =>
        cases offset with
        | none => exact ⟨rfl, rfl, .count m, .absent⟩
        | some n => exact ⟨rfl, rfl, .count m, .count n⟩
  | sort path direction =>
    exact ⟨_, rfl, by simp [Fields.Distinct, Fields.keys], rfl, rfl, .name direction⟩

theorem ofJson_toJson (op : Operation) : ofJson op.toJson = .ok op := by
  obtain ⟨fields, hjson, hdistinct, hdescribes⟩ := op.exists_describes_toJson
  rw [hjson]
  exact (ofJson_eq_ok_iff hdistinct).mpr hdescribes

end Operation

def OperationKind.fieldNames : OperationKind → List String
  | fields => ["op", "path"]
  | filter => ["op", "path", "limit", "offset"]
  | sort => ["op", "path", "order"]

namespace Fields

/-- Changes of a descriptor after which it describes the same. -/
inductive Restates (kind : OperationKind) (a : Fields) : Fields → Prop
  | reordered {b : Fields} : a.Perm b → Restates kind a b
  | unknown {key : String} (value : Json) : key ∉ kind.fieldNames →
    Restates kind a (a.insert key value)
  | noCount {key : String} : kind = .filter → key = "limit" ∨ key = "offset" → key ∉ a.keys →
    Restates kind a (a.insert key .null)
  | ascending : kind = .sort → "order" ∉ a.keys →
    Restates kind a (a.insert "order" (.string "asc"))

variable {a b : Fields} {op : Operation}

theorem Distinct.perm (h : a.Distinct) (hperm : a.Perm b) : b.Distinct :=
  (hperm.map Prod.fst).nodup_iff.mp h

theorem Distinct.get?_perm (h : a.Distinct) (hperm : a.Perm b) (key : String) :
    b.get? key = a.get? key := by
  ext value
  rw [(h.perm hperm).get?_eq_some_iff, h.get?_eq_some_iff, hperm.mem_iff]

/-- Only what is found under the keys of the kind counts. -/
theorem Describes.congr (h : a.Describes op)
    (hget : ∀ key ∈ op.kind.fieldNames, b.get? key = a.get? key) : b.Describes op := by
  have hmem : "op" ∈ op.kind.fieldNames ∧ "path" ∈ op.kind.fieldNames := by
    cases op <;> simp [Operation.kind, OperationKind.fieldNames]
  refine ⟨hget "op" hmem.1 ▸ h.kind, hget "path" hmem.2 ▸ h.path, ?_⟩
  cases op with
  | fields path => exact True.intro
  | filter path limit offset =>
    have hlimit := hget "limit" (by simp [Operation.kind, OperationKind.fieldNames])
    have hoffset := hget "offset" (by simp [Operation.kind, OperationKind.fieldNames])
    exact ⟨hlimit ▸ h.settings.1, hoffset ▸ h.settings.2⟩
  | sort path direction =>
    have horder := hget "order" (by simp [Operation.kind, OperationKind.fieldNames])
    rw [Operation.SettingsIn, horder]
    exact h.settings

theorem Describes.insert_null (h : a.Describes op) (hkind : op.kind = .filter) {key : String}
    (hkey : key = "limit" ∨ key = "offset") (habsent : key ∉ a.keys) :
    (a.insert key .null).Describes op := by
  have hnull {count : Option UInt64} (hcount : CountIs (a.get? key) count) :
      CountIs ((a.insert key .null).get? key) count := by
    rw [get?_eq_none_iff.mpr habsent] at hcount
    cases hcount
    rw [get?_insert_self]
    exact .null
  cases op with
  | filter path limit offset =>
    obtain ⟨hlimit, hoffset⟩ := h.settings
    rcases hkey with rfl | rfl
    · refine ⟨?_, ?_, hnull hlimit, ?_⟩
      · exact (get?_insert_of_ne (by decide) a .null).trans h.kind
      · exact (get?_insert_of_ne (by decide) a .null).trans h.path
      · rw [get?_insert_of_ne (by decide)]
        exact hoffset
    · refine ⟨?_, ?_, ?_, hnull hoffset⟩
      · exact (get?_insert_of_ne (by decide) a .null).trans h.kind
      · exact (get?_insert_of_ne (by decide) a .null).trans h.path
      · rw [get?_insert_of_ne (by decide)]
        exact hlimit
  | _ => contradiction

theorem Describes.insert_ascending (h : a.Describes op) (hkind : op.kind = .sort)
    (habsent : "order" ∉ a.keys) : (a.insert "order" (.string "asc")).Describes op := by
  cases op with
  | sort path direction =>
    have horder : DirectionIs (a.get? "order") direction := h.settings
    rw [get?_eq_none_iff.mpr habsent] at horder
    cases horder
    refine ⟨?_, ?_, ?_⟩
    · exact (get?_insert_of_ne (by decide) a _).trans h.kind
    · exact (get?_insert_of_ne (by decide) a _).trans h.path
    · rw [Operation.SettingsIn, get?_insert_self]
      exact .name .ascending
  | _ => contradiction

theorem Describes.restated (h : a.Describes op) (hdistinct : a.Distinct)
    (hrestates : Restates op.kind a b) : b.Distinct ∧ b.Describes op := by
  cases hrestates with
  | reordered hperm =>
    exact ⟨hdistinct.perm hperm, h.congr fun key _ => hdistinct.get?_perm hperm key⟩
  | @unknown name value hname =>
    refine ⟨hdistinct.insert name value, h.congr ?_⟩
    intro key hkey
    refine get?_insert_of_ne ?_ a value
    rintro rfl
    exact hname hkey
  | noCount hkind hkey habsent =>
    exact ⟨hdistinct.insert _ _, h.insert_null hkind hkey habsent⟩
  | ascending hkind habsent => exact ⟨hdistinct.insert _ _, h.insert_ascending hkind habsent⟩

theorem Describes.restated_many (h : a.Describes op) (hdistinct : a.Distinct)
    (hrestates : Relation.ReflTransGen (Restates op.kind) a b) : b.Distinct ∧ b.Describes op := by
  induction hrestates with
  | refl => exact ⟨hdistinct, h⟩
  | tail _ hstep ih => exact ih.2.restated ih.1 hstep

end Fields

namespace Operation

/-- Every operation is read back from its descriptor, also with other limits and offsets. What is
read from an object stays the same when the object is restated: its keys in another order, more keys
that its kind does not know, and null for a missing count or `asc` for a missing direction. -/
theorem ofJson_restated (op : Operation) :
    (ofJson op.toJson = .ok op ∧ ∀ limit offset,
      ofJson (op.paginate limit offset).toJson = .ok (op.paginate limit offset)) ∧
    ∀ fields restated : Fields, fields.Distinct → ofJson (.object fields) = .ok op →
      Relation.ReflTransGen (Fields.Restates op.kind) fields restated →
      ofJson (.object restated) = .ok op := by
  refine ⟨⟨op.ofJson_toJson, fun limit offset => (op.paginate limit offset).ofJson_toJson⟩, ?_⟩
  intro fields restated hdistinct hread hrestates
  have hdescribes := (ofJson_eq_ok_iff hdistinct).mp hread
  obtain ⟨hdistinct', hdescribes'⟩ := hdescribes.restated_many hdistinct hrestates
  exact (ofJson_eq_ok_iff hdistinct').mpr hdescribes'

/-- A sort without a direction takes a limit, which it does not know, and `asc`. -/
theorem ofJson_restated_sort :
    ofJson (.object [("op", .string "sort"), ("path", .string "a")]) =
      .ok (sort "a" .ascending) ∧
    ofJson (.object [("order", .string "asc"), ("limit", .bool true), ("path", .string "a"),
      ("op", .string "sort")]) = .ok (sort "a" .ascending) := by
  have hread : ofJson (.object [("op", .string "sort"), ("path", .string "a")]) =
      .ok (sort "a" .ascending) := rfl
  refine ⟨hread, (ofJson_restated (sort "a" .ascending)).2 _ _ (by decide) hread ?_⟩
  refine .tail (.tail (.single (@Fields.Restates.unknown _ _ "limit" (.bool true) (by decide)))
    (.ascending rfl (by decide))) ?_
  exact .reordered (List.reverse_perm _).symm

end Operation
end DocQuery
