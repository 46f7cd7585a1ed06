import DocQuery.Proofs.Query.Reordering
import DocQuery.Proofs.Selection.Members

/- Filters one after the other. Main statement: a filter of what a filter gave is one filter by the
conjunction of their predicates, so the predicates may change places. -/

namespace DocQuery
namespace Path

/-- A path that goes on with a filter. -/
def narrow (path : Path) (condition : Predicate) : Path :=
  { path with segments := path.segments ++ [.filter condition] }

variable (path : Path) (document : Json)

theorem select_narrow (condition : Predicate) :
    (path.narrow condition).select document =
      (path.select document).flatMap fun node => node.children.filter condition.holds := by
  rw [select, Selection.walk, narrow, List.foldl_append]
  rfl

theorem fansOut_narrow (condition : Predicate) : (path.narrow condition).fansOut document = true := by
  obtain ⟨anchor, segments⟩ := path
  cases anchor <;> cases document <;> simp [fansOut, narrow, Segment.fansOut]

theorem members_narrow (condition : Predicate) :
    (path.narrow condition).members document =
      (path.select document).flatMap fun node => node.children.filter condition.holds := by
  rw [members_eq_matched, matched, if_pos (fansOut_narrow path document condition), select_narrow]

theorem members_narrow_and (p q : Predicate) :
    (path.narrow (p.and q)).members document =
      ((path.narrow p).members document).filter q.holds := by
  have hholds : (p.and q).holds = fun child => q.holds child && p.holds child := by
    funext child
    exact Bool.and_comm _ _
  simp only [members_narrow, List.filter_flatMap, List.filter_filter, hholds]

theorem members_narrow_comm (p q : Predicate) :
    (path.narrow (p.and q)).members document = (path.narrow (q.and p)).members document := by
  have hholds : (p.and q).holds = (q.and p).holds := by
    funext child
    exact Bool.and_comm _ _
  simp only [members_narrow, hholds]

end Path

namespace Stage

variable (options : Options) (path : Path) (document : Json) (limit offset : Option UInt64)

theorem apply_filter_narrow (p q : Predicate) :
    (filter ⟨.document, [.filter q]⟩ limit offset).apply options
        ((filter (path.narrow p) none none).apply options document) =
      (filter (path.narrow (p.and q)) limit offset).apply options document := by
  show (filter ⟨.document, [.filter q]⟩ limit offset).apply options (.array _) = _
  rw [apply_filter_array]
  exact congrArg (fun members => Json.array (page limit offset members))
    (path.members_narrow_and document p q).symm

theorem apply_filter_narrow_comm (p q : Predicate) :
    (filter (path.narrow (p.and q)) limit offset).apply options document =
      (filter (path.narrow (q.and p)) limit offset).apply options document :=
  congrArg (fun members => Json.array (page limit offset members))
    (path.members_narrow_comm document p q)

end Stage

/-- A filter by a second predicate of what a filter by a first one gave, whatever path leads there,
is one filter by both. So the predicates may change places. -/
theorem sameArray_filter_filter (options : Options) (document : Json) (path : Path)
    (p q : Predicate) (limit offset : Option UInt64) :
    (Stage.filter ⟨.document, [.filter q]⟩ limit offset).apply options
        ((Stage.filter (path.narrow p) none none).apply options document) =
      (Stage.filter (path.narrow (p.and q)) limit offset).apply options document ∧
    (Stage.filter ⟨.document, [.filter q]⟩ limit offset).apply options
        ((Stage.filter (path.narrow p) none none).apply options document) =
      (Stage.filter ⟨.document, [.filter p]⟩ limit offset).apply options
        ((Stage.filter (path.narrow q) none none).apply options document) ∧
    ∀ first second, Path.parse first = .ok (path.narrow p) →
      Path.parse second = .ok ⟨.document, [.filter q]⟩ →
      (∀ both, Path.parse both = .ok (path.narrow (p.and q)) →
        SameArray options document [.filter first none none, .filter second limit offset]
          [.filter both limit offset]) ∧
      (∀ first' second', Path.parse first' = .ok (path.narrow q) →
        Path.parse second' = .ok ⟨.document, [.filter p]⟩ →
        SameArray options document [.filter first none none, .filter second limit offset]
          [.filter first' none none, .filter second' limit offset]) := by
  have hfused := Stage.apply_filter_narrow options path document limit offset p q
  have hswapped : (Stage.filter ⟨.document, [.filter p]⟩ limit offset).apply options
      ((Stage.filter (path.narrow q) none none).apply options document) =
        (Stage.filter (path.narrow (p.and q)) limit offset).apply options document := by
    rw [Stage.apply_filter_narrow]
    exact Stage.apply_filter_narrow_comm options path document limit offset q p
  refine ⟨hfused, hfused.trans hswapped.symm, ?_⟩
  intro first second hfirst hsecond
  have hresult := result_query_pair (Operation.compile_filter hfirst options none none)
    (Operation.compile_filter hsecond options limit offset) document
  rw [hfused] at hresult
  refine ⟨?_, ?_⟩
  · intro both hboth
    exact ⟨_, hresult,
      result_query_single (Operation.compile_filter hboth options limit offset) document⟩
  · intro first' second' hfirst' hsecond'
    refine ⟨_, hresult, ?_⟩
    rw [result_query_pair (Operation.compile_filter hfirst' options none none)
      (Operation.compile_filter hsecond' options limit offset), hswapped]
    rfl

/-- The path leads to a missing key in one item, to an object in another and to an array in the
last; the page leaves the first member out. -/
theorem sameArray_filter_filter_notes :
    Path.parse "$[*].a[?(@.x)]" =
      .ok (Path.narrow ⟨.eachElement, [.key "a"]⟩ (.truthy (.field "x"))) ∧
    Path.parse "$[?(!@.y)]" = .ok ⟨.document, [.filter (.not (.truthy (.field "y")))]⟩ ∧
    Path.parse "$[*].a[?(@.x && !@.y)]" = .ok (Path.narrow ⟨.eachElement, [.key "a"]⟩
      (.and (.truthy (.field "x")) (.not (.truthy (.field "y"))))) ∧
    SameArray .default
      (.array [.object [("b", .null)],
        .object [("a", .object [("k", .object [("x", .bool true)]), ("l", .null)])],
        .object [("a", .array [.object [("x", .bool true), ("y", .bool true)],
          .object [("x", .string "z")]])]])
      [.filter "$[*].a[?(@.x)]" none none, .filter "$[?(!@.y)]" none (some 1)]
      [.filter "$[*].a[?(@.x && !@.y)]" none (some 1)] := by
  have hfirst : Path.parse "$[*].a[?(@.x)]" =
      .ok (Path.narrow ⟨.eachElement, [.key "a"]⟩ (.truthy (.field "x"))) :=
    @Path.parse_of_render ⟨.eachElement, [.key "a", .filter (.truthy (.field "x"))]⟩ (by decide) _
      rfl
  have hsecond : Path.parse "$[?(!@.y)]" =
      .ok ⟨.document, [.filter (.not (.truthy (.field "y")))]⟩ :=
    @Path.parse_of_render ⟨.document, [.filter (.not (.truthy (.field "y")))]⟩ (by decide) _ rfl
  have hboth : Path.parse "$[*].a[?(@.x && !@.y)]" = .ok (Path.narrow ⟨.eachElement, [.key "a"]⟩
      (.and (.truthy (.field "x")) (.not (.truthy (.field "y"))))) :=
    @Path.parse_of_render ⟨.eachElement, [.key "a",
      .filter (.and (.truthy (.field "x")) (.not (.truthy (.field "y"))))]⟩ (by decide) _ rfl
  refine ⟨hfirst, hsecond, hboth, ?_⟩
  exact ((sameArray_filter_filter .default _ _ _ _ none (some 1)).2.2 _ _ hfirst hsecond).1 _ hboth

end DocQuery
