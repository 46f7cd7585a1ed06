import DocQuery.Proofs.Path.RoundTrip
import DocQuery.Proofs.Projection.Idempotence
import DocQuery.Proofs.Query.Compiled
import DocQuery.Proofs.Selection.Reach
import DocQuery.Proofs.Sorting.Stable

/- Stages that may change places. Main statements: a filter and a sort of an array give the same in
either order, and so do a projection to keys and a stage that looks at no other keys. -/

namespace DocQuery

/-- Both lists of operations make an array of a document, and the same one. -/
def SameArray (options : Options) (document : Json) (ops ops' : List Operation) : Prop :=
  ∃ members, (query options document ops).result = .ok (.array members) ∧
    (query options document ops').result = .ok (.array members)

theorem sameArray_of_apply {options : Options} {document : Json} {first second : Operation}
    {stage stage' : Stage} (h : first.compile options = .ok stage)
    (h' : second.compile options = .ok stage') {members : List Json}
    (hfirst : stage'.apply options (stage.apply options document) = .array members)
    (hsecond : stage.apply options (stage'.apply options document) = .array members) :
    SameArray options document [first, second] [second, first] := by
  refine ⟨members, ?_, ?_⟩
  · rw [result_query_pair h h', hfirst]
  · rw [result_query_pair h' h, hsecond]

section Members

variable (direction : Direction) (key : List Segment)

theorem filter_sortMembers (keep : Json → Bool) (members : List Json) :
    (sortMembers direction key members).filter keep =
      sortMembers direction key (members.filter keep) := by
  rw [sortMembers_eq, sortMembers_eq]
  exact (totalPreorder_memberLE direction (sortKey? key)).filter_mergeSort keep members

theorem map_sortMembers {f : Json → Json} (hkey : ∀ member, sortKey? key (f member) =
    sortKey? key member) (members : List Json) :
    (sortMembers direction key members).map f = sortMembers direction key (members.map f) := by
  rw [sortMembers_eq, sortMembers_eq]
  apply List.map_mergeSort
  intro a _ b _
  rw [memberLE, memberLE, hkey, hkey]

end Members

namespace Stage

variable (options : Options) (members : List Json)

theorem apply_fields_array (projection : Projection) :
    (fields projection).apply options (.array members) =
      .array (members.map (projection.element options)) := rfl

theorem apply_filter_array (condition : Predicate) (limit offset : Option UInt64) :
    (filter ⟨.document, [.filter condition]⟩ limit offset).apply options (.array members) =
      .array (page limit offset (members.filter condition.holds)) :=
  congrArg (fun nodes => Json.array (page limit offset nodes)) (List.flatMap_singleton _ _)

theorem apply_sort_array (path : Path) (direction : Direction) :
    (sort path direction).apply options (.array members) =
      .array (sortMembers direction path.sortParts.2 members) := rfl

end Stage

/-- A filter of an array and a sort of it give the same array in either order. -/
theorem sameArray_sort_filter {sortText filterText : String} {path : Path} {condition : Predicate}
    (hsort : Path.parse sortText = .ok path)
    (hfilter : Path.parse filterText = .ok ⟨.document, [.filter condition]⟩) (options : Options)
    (direction : Direction) (members : List Json) :
    SameArray options (.array members)
      [.sort sortText direction, .filter filterText none none]
      [.filter filterText none none, .sort sortText direction] := by
  have hsorted : (Stage.filter ⟨.document, [.filter condition]⟩ none none).apply options
      ((Stage.sort path direction).apply options (.array members)) =
        .array (sortMembers direction path.sortParts.2 (members.filter condition.holds)) := by
    rw [Stage.apply_sort_array, Stage.apply_filter_array, filter_sortMembers]
    rfl
  have hfiltered : (Stage.sort path direction).apply options
      ((Stage.filter ⟨.document, [.filter condition]⟩ none none).apply options (.array members)) =
        .array (sortMembers direction path.sortParts.2 (members.filter condition.holds)) := by
    rw [Stage.apply_filter_array, Stage.apply_sort_array]
    rfl
  exact sameArray_of_apply (Operation.compile_sort hsort options direction)
    (Operation.compile_filter hfilter options none none) hsorted hfiltered

/-- The filter drops a member that ties with one that it keeps. -/
theorem sameArray_sort_filter_negated :
    Path.parse "$[*].k" = .ok ⟨.eachElement, [.key "k"]⟩ ∧
    Path.parse "[?(!@.n)]" = .ok ⟨.document, [.filter (.not (.truthy (.field "n")))]⟩ ∧
    SameArray .default
      (.array [.object [("k", .string "b")], .object [("k", .string "a"), ("n", .bool true)],
        .object [("k", .string "a")], .null])
      [.sort "$[*].k" .descending, .filter "[?(!@.n)]" none none]
      [.filter "[?(!@.n)]" none none, .sort "$[*].k" .descending] := by
  have hsort : Path.parse "$[*].k" = .ok ⟨.eachElement, [.key "k"]⟩ := rfl
  have hfilter : Path.parse "[?(!@.n)]" =
      .ok ⟨.document, [.filter (.not (.truthy (.field "n")))]⟩ :=
    Path.parse_filter_of_render (by decide) rfl
  exact ⟨hsort, hfilter, sameArray_sort_filter hsort hfilter .default .descending _⟩

theorem page_map (limit offset : Option UInt64) (f : Json → Json) (members : List Json) :
    page limit offset (members.map f) = (page limit offset members).map f := by
  rw [page, page, ← List.map_drop]
  cases limit with
  | none => rfl
  | some n => exact List.map_take.symm

def Operand.fieldNames : Operand → List String
  | field name => [name]
  | literal _ => []

def Predicate.fieldNames : Predicate → List String
  | compare _ left right => left.fieldNames ++ right.fieldNames
  | and left right => left.fieldNames ++ right.fieldNames
  | not inner => inner.fieldNames
  | truthy operand => operand.fieldNames

theorem Operand.resolve_congr {operand : Operand} {a b : Json}
    (h : ∀ name ∈ operand.fieldNames, a.get? name = b.get? name) :
    operand.resolve a = operand.resolve b := by
  cases operand with
  | field name => exact h name List.mem_cons_self
  | literal value => rfl

theorem Predicate.holds_congr {condition : Predicate} {a b : Json}
    (h : ∀ name ∈ condition.fieldNames, a.get? name = b.get? name) :
    condition.holds a = condition.holds b := by
  induction condition with
  | compare op left right =>
    obtain ⟨hleft, hright⟩ := List.forall_mem_append.mp h
    rw [holds, holds, Operand.compare?, Operand.compare?, Operand.resolve_congr hleft,
      Operand.resolve_congr hright]
  | and left right ihleft ihright =>
    obtain ⟨hleft, hright⟩ := List.forall_mem_append.mp h
    rw [holds, holds, ihleft hleft, ihright hright]
  | not inner ih => rw [holds, holds, ih h]
  | truthy operand => rw [holds, holds, Operand.resolve_congr h]

theorem sortKey?_cons (name : String) (rest : List Segment) (member : Json) :
    sortKey? (.key name :: rest) member =
      ((member.get? name).toList.flatMap (reach rest)).head? :=
  congrArg List.head? (Path.select_document (.key name :: rest) member)

theorem sortKey?_congr {name : String} {a b : Json} (h : a.get? name = b.get? name)
    (rest : List Segment) : sortKey? (.key name :: rest) a = sortKey? (.key name :: rest) b := by
  rw [sortKey?_cons, sortKey?_cons, h]

theorem rebuild_ofNames (first : String) (more : List String) (rest : List Segment) (node : Json) :
    rebuild (.ofNames first more :: rest) node = rebuild (.keys (first :: more) :: rest) node := by
  cases more with
  | nil => exact rebuild_key first rest node
  | cons name names => rfl

namespace Projection

def toKeys (first : String) (more : List String) : Projection :=
  along ⟨.eachElement, [.ofNames first more]⟩

theorem keptFields_toKeys (first : String) (more : List String) (fields : Fields) :
    (toKeys first more).keptFields fields = Fields.gather fields.get? (first :: more) := by
  refine (keptFields_of_nonEmpty? (rebuild_ofNames first more [] _)).trans ?_
  rw [Fields.keepNamed_eq_gather]
  refine Fields.gather_eq_iff.mpr ?_
  intro name _
  exact Option.bind_fun_some _

/-- Every element has the same value for a key before and after a projection. -/
def KeepsKey (options : Options) (projection : Projection) (name : String) : Prop :=
  ∀ element, (projection.element options element).get? name = element.get? name

variable {options : Options}

theorem keepsKey_implicitOnly {name : String} (h : name ∈ options.implicitFields) :
    KeepsKey options implicitOnly name := by
  intro element
  cases element with
  | object fields => exact (get?_implicitPart options fields name).trans (if_pos h)
  | _ => rfl

theorem keepsKey_toKeys {first name : String} {more : List String}
    (h : name ∈ first :: more ∨ name ∈ options.implicitFields) :
    KeepsKey options (toKeys first more) name := by
  intro element
  cases element with
  | object fields =>
    rw [element_eq_layered, layered, keptFields_toKeys]
    show Fields.get? (Fields.overlay _ _) name = Fields.get? fields name
    rw [Fields.get?_overlay (Fields.distinct_gather _ _), Fields.get?_gather, get?_implicitPart]
    cases Fields.get? fields name with
    | none =>
      rw [ite_self, ite_self]
      rfl
    | some value =>
      rcases h with h | h
      · rw [if_pos h]
        rfl
      · rw [if_pos h]
        split <;> rfl
  | _ =>
    rw [toKeys, element_along (fun _ => Json.noConfusion), rebuild_ofNames]
    rfl

/-- A projection to the keys in a text asks for a key: it is one of them, or it is implicit. A text
that is the sentinel asks for implicit keys only. -/
def AsksFor (options : Options) (text : String) (names : List String) (name : String) : Prop :=
  name ∈ options.implicitFields ∨ name ∈ names ∧ Text.trim text.toList ≠ options.sentinel.toList

theorem exists_keepsKey {text first : String} {more : List String}
    (h : Path.parse text = .ok ⟨.eachElement, [.ofNames first more]⟩) (options : Options) :
    ∃ projection, Projection.parse options.sentinel text = .ok projection ∧
      ∀ name, AsksFor options text (first :: more) name → KeepsKey options projection name := by
  by_cases hsentinel : Text.trim text.toList = options.sentinel.toList
  · refine ⟨implicitOnly, if_pos hsentinel, ?_⟩
    rintro name (himplicit | ⟨_, hne⟩)
    · exact keepsKey_implicitOnly himplicit
    · exact absurd hsentinel hne
  · refine ⟨toKeys first more, ?_, ?_⟩
    · rw [Projection.parse, if_neg hsentinel, h]
      rfl
    · rintro name (himplicit | ⟨hname, _⟩)
      · exact keepsKey_toKeys (.inr himplicit)
      · exact keepsKey_toKeys (.inl hname)

section Elements

variable {projection : Projection} (members : List Json)

theorem map_element_sortMembers {name : String} (h : KeepsKey options projection name)
    (direction : Direction) (rest : List Segment) :
    (sortMembers direction (.key name :: rest) members).map (projection.element options) =
      sortMembers direction (.key name :: rest) (members.map (projection.element options)) := by
  refine map_sortMembers direction _ ?_ members
  intro member
  exact sortKey?_congr (h member) rest

theorem filter_map_element {condition : Predicate}
    (h : ∀ name ∈ condition.fieldNames, KeepsKey options projection name) :
    (members.map (projection.element options)).filter condition.holds =
      (members.filter condition.holds).map (projection.element options) := by
  rw [List.filter_map]
  refine congrArg _ (List.filter_congr ?_)
  intro member _
  refine Predicate.holds_congr ?_
  intro name hname
  exact h name hname member

end Elements

end Projection

/-- A projection of the elements of an array to some keys, and a sort by a key that it asks for or
a filter by a predicate on such keys, give the same array in either order. -/
theorem sameArray_fields {fieldsText first : String} {more : List String}
    (hfields : Path.parse fieldsText = .ok ⟨.eachElement, [.ofNames first more]⟩)
    (options : Options) (members : List Json) :
    (∀ sortText name rest direction,
      Path.parse sortText = .ok ⟨.eachElement, .key name :: rest⟩ →
      Projection.AsksFor options fieldsText (first :: more) name →
      SameArray options (.array members)
        [.fields fieldsText, .sort sortText direction]
        [.sort sortText direction, .fields fieldsText]) ∧
    (∀ filterText condition limit offset,
      Path.parse filterText = .ok ⟨.document, [.filter condition]⟩ →
      (∀ name ∈ condition.fieldNames,
        Projection.AsksFor options fieldsText (first :: more) name) →
      SameArray options (.array members)
        [.fields fieldsText, .filter filterText limit offset]
        [.filter filterText limit offset, .fields fieldsText]) := by
  obtain ⟨projection, hparse, hkeeps⟩ := Projection.exists_keepsKey hfields options
  have hcompile := Operation.compile_fields hparse
  refine ⟨?_, ?_⟩
  · intro sortText name rest direction hsort hname
    have hkept := Projection.map_element_sortMembers members (hkeeps name hname) direction rest
    refine sameArray_of_apply hcompile (Operation.compile_sort hsort options direction)
      (Stage.apply_sort_array ..) ?_
    rw [Stage.apply_sort_array, Stage.apply_fields_array]
    exact congrArg Json.array hkept
  · intro filterText condition limit offset hfilter hnames
    have hkept := Projection.filter_map_element members
      fun name hname => hkeeps name (hnames name hname)
    refine sameArray_of_apply hcompile (Operation.compile_filter hfilter options limit offset)
      (Stage.apply_filter_array ..) ?_
    rw [Stage.apply_filter_array, Stage.apply_fields_array, ← page_map]
    exact congrArg (fun kept => Json.array (page limit offset kept)) hkept.symm

def mixedMembers : List Json :=
  [.object [("n", .null), ("k", .bool true), ("id", .string "2")], .string "s",
    .array [.object [("x", .null)]], .object [("id", .string "1"), ("x", .null)]]

/-- The sort looks at an implicit key, beside a text that is the sentinel. The filter looks at a
key that is implicit and in the text. -/
theorem sameArray_fields_implicit :
    Path.parse "$[*]['k','n']" = .ok ⟨.eachElement, [.ofNames "k" ["n"]]⟩ ∧
    SameArray ⟨["id"], "$[*]['k','n']"⟩ (.array mixedMembers)
      [.fields "$[*]['k','n']", .sort "$[*].id" .ascending]
      [.sort "$[*].id" .ascending, .fields "$[*]['k','n']"] ∧
    SameArray ⟨["id", "k"], "none"⟩ (.array mixedMembers)
      [.fields "$[*]['k','n']", .filter "[?(!@.k)]" none (some 1)]
      [.filter "[?(!@.k)]" none (some 1), .fields "$[*]['k','n']"] := by
  have hfields : Path.parse "$[*]['k','n']" = .ok ⟨.eachElement, [.ofNames "k" ["n"]]⟩ := rfl
  have hsort : Path.parse "$[*].id" = .ok ⟨.eachElement, [.key "id"]⟩ := rfl
  have hfilter : Path.parse "[?(!@.k)]" =
      .ok ⟨.document, [.filter (.not (.truthy (.field "k")))]⟩ :=
    Path.parse_filter_of_render (by decide) rfl
  refine ⟨hfields, ?_, ?_⟩
  · exact (sameArray_fields hfields _ _).1 _ "id" [] .ascending hsort (.inl (by decide))
  · refine (sameArray_fields hfields _ _).2 _ _ none (some 1) hfilter ?_
    intro name hname
    obtain rfl := List.mem_singleton.mp hname
    exact .inl (by decide)

/-- The ids are in order, the values of the other key are not. -/
def crossedMembers : List Json :=
  [.object [("id", .string "a"), ("k", .bool true)],
    .object [("id", .string "b"), ("k", .bool false)]]

/-- A text that is the sentinel asks for none of the keys in it, so a sort behind the projection
finds no keys. -/
theorem not_sameArray_fields_sentinel :
    Path.parse "$[*]['k']" = .ok ⟨.eachElement, [.ofNames "k" []]⟩ ∧
    Path.parse "$[*].k" = .ok ⟨.eachElement, [.key "k"]⟩ ∧
    (query ⟨["id"], "$[*]['k']"⟩ (.array crossedMembers)
        [.fields "$[*]['k']", .sort "$[*].k" .ascending]).result =
      .ok (.array [.object [("id", .string "a")], .object [("id", .string "b")]]) ∧
    (query ⟨["id"], "$[*]['k']"⟩ (.array crossedMembers)
        [.sort "$[*].k" .ascending, .fields "$[*]['k']"]).result =
      .ok (.array [.object [("id", .string "b")], .object [("id", .string "a")]]) ∧
    ¬ SameArray ⟨["id"], "$[*]['k']"⟩ (.array crossedMembers)
      [.fields "$[*]['k']", .sort "$[*].k" .ascending]
      [.sort "$[*].k" .ascending, .fields "$[*]['k']"] := by
  have hsort : Path.parse "$[*].k" = .ok ⟨.eachElement, [.key "k"]⟩ := rfl
  have hfields : Projection.parse "$[*]['k']" "$[*]['k']" = .ok .implicitOnly := rfl
  have h₁ : (query ⟨["id"], "$[*]['k']"⟩ (.array crossedMembers)
      [.fields "$[*]['k']", .sort "$[*].k" .ascending]).result =
        .ok (.array [.object [("id", .string "a")], .object [("id", .string "b")]]) := by
    rw [result_query_pair (Operation.compile_fields hfields)
      (Operation.compile_sort hsort _ .ascending), Stage.apply_fields_array,
      Stage.apply_sort_array, sortMembers_eq, crossedMembers, List.map_cons, List.map_singleton,
      mergeSort_pair]
    rfl
  have h₂ : (query ⟨["id"], "$[*]['k']"⟩ (.array crossedMembers)
      [.sort "$[*].k" .ascending, .fields "$[*]['k']"]).result =
        .ok (.array [.object [("id", .string "b")], .object [("id", .string "a")]]) := by
    rw [result_query_pair (Operation.compile_sort hsort _ .ascending)
      (Operation.compile_fields hfields), Stage.apply_sort_array, sortMembers_eq, crossedMembers,
      mergeSort_pair]
    rfl
  refine ⟨rfl, hsort, h₁, h₂, ?_⟩
  rintro ⟨members, hfirst, hsecond⟩
  have heq := h₁.symm.trans (hfirst.trans (hsecond.symm.trans h₂))
  simp at heq

end DocQuery
