import Tracecat.Lib.Checks
import Tracecat.Pagination

/-!
# Pages as a partition

Following the cursors of a service from the first page, and back from each page.
Workflows and cases are paged rightly as long as there is one page; rows of a table
also where there are two rows on two pages.
-/

namespace Tracecat
namespace Pagination

open Keyset (sortBy)

/-! ## Runs along the cursors -/

section Runs

variable {α γ φ : Type}

/-- What a page at an offset shows of the ordered rows. -/
structure Shows (ordered : List α) (limit offset : Nat) (response : CursorPaginatedResponse α γ) :
    Prop where
  items : response.items = (ordered.drop offset).take limit
  hasMore : response.hasMore = decide (offset + limit < ordered.length)
  hasPrevious : response.hasPrevious = decide (0 < offset)

variable (pages : CursorPaginationParams γ → Except φ (CursorPaginatedResponse α γ))
  (ordered : List α) (limit : Nat)

/-- The pages that the next cursors lead to from the first page, by their offsets. -/
inductive Reached : Nat → CursorPaginatedResponse α γ → Prop
  | first {response : CursorPaginatedResponse α γ}
      (hPage : pages ⟨limit, none, false⟩ = .ok response) : Reached 0 response
  | next {offset : Nat} {response following : CursorPaginatedResponse α γ} {cursor : γ}
      (hReached : Reached offset response) (hCursor : response.nextCursor = some cursor)
      (hPage : pages ⟨limit, some cursor, false⟩ = .ok following) :
      Reached (offset + limit) following

/-- Going forward shows the ordered rows, page after page, and stops after the last. -/
structure Forward : Prop where
  first : ∃ response, pages ⟨limit, none, false⟩ = .ok response
  shows : ∀ {offset response}, Reached pages limit offset response →
    Shows ordered limit offset response
  goesOn : ∀ {offset response}, Reached pages limit offset response →
    offset + limit < ordered.length → ∃ cursor following, response.nextCursor = some cursor ∧
      pages ⟨limit, some cursor, false⟩ = .ok following
  stops : ∀ {offset response}, Reached pages limit offset response →
    ordered.length ≤ offset + limit → response.nextCursor = none

/-- Going back from a page shows the page before it, from which the next cursor comes back. -/
structure Partition : Prop extends Forward pages ordered limit where
  back : ∀ {offset response}, Reached pages limit offset response → 0 < offset →
    ∃ cursor before, response.prevCursor = some cursor ∧
      pages ⟨limit, some cursor, true⟩ = .ok before ∧ Shows ordered limit (offset - limit) before ∧
        ∃ again following, before.nextCursor = some again ∧
          pages ⟨limit, some again, false⟩ = .ok following ∧ following.items = response.items

/-- The pages that the next cursors lead to from a page, the last one included. -/
inductive Walk : CursorPaginatedResponse α γ → List (CursorPaginatedResponse α γ) → Prop
  | last {response : CursorPaginatedResponse α γ} (hLast : response.nextCursor = none) :
      Walk response []
  | next {response following : CursorPaginatedResponse α γ} {cursor : γ}
      {rest : List (CursorPaginatedResponse α γ)} (hCursor : response.nextCursor = some cursor)
      (hPage : pages ⟨limit, some cursor, false⟩ = .ok following) (hWalk : Walk following rest) :
      Walk response (following :: rest)

variable {pages ordered limit}

/-- Where there are more rows than on a page, there is a page after every page that does
not show the last of them. -/
theorem Forward.next (hForward : Forward pages ordered limit) {offset : Nat}
    {response : CursorPaginatedResponse α γ} (hReached : Reached pages limit offset response)
    (hMore : offset + limit < ordered.length) : ∃ cursor following,
      response.nextCursor = some cursor ∧ pages ⟨limit, some cursor, false⟩ = .ok following ∧
        Reached pages limit (offset + limit) following ∧
          Shows ordered limit (offset + limit) following := by
  obtain ⟨cursor, following, hCursor, hPage⟩ := hForward.goesOn hReached hMore
  have hNext := Reached.next hReached hCursor hPage
  exact ⟨cursor, following, hCursor, hPage, hNext, hForward.shows hNext⟩

theorem Forward.walk (hForward : Forward pages ordered limit) (hLimit : 1 ≤ limit) {offset : Nat}
    {response : CursorPaginatedResponse α γ} (hReached : Reached pages limit offset response) :
    ∃ rest, Walk pages limit response rest ∧
      (response :: rest).flatMap CursorPaginatedResponse.items = ordered.drop offset := by
  induction hLeft : ordered.length - offset using Nat.strongRecOn generalizing offset response with
  | _ left ih =>
      have hItems := (hForward.shows hReached).items
      rcases Nat.lt_or_ge (offset + limit) ordered.length with hMore | hEnd
      · obtain ⟨cursor, following, hCursor, hPage, hNext, -⟩ := hForward.next hReached hMore
        obtain ⟨rest, hWalk, hRest⟩ := ih _ (by omega) hNext rfl
        refine ⟨following :: rest, .next hCursor hPage hWalk, ?_⟩
        rw [List.flatMap_cons, hRest, hItems, ← List.drop_drop, List.take_append_drop]
      · refine ⟨[], .last (hForward.stops hReached hEnd), ?_⟩
        rw [List.flatMap_cons, List.flatMap_nil, List.append_nil, hItems, List.take_of_length_le]
        rw [List.length_drop]
        omega

theorem Forward.walk_all (hForward : Forward pages ordered limit) (hLimit : 1 ≤ limit) :
    ∃ first rest, pages ⟨limit, none, false⟩ = .ok first ∧ Walk pages limit first rest ∧
      (first :: rest).flatMap CursorPaginatedResponse.items = ordered := by
  obtain ⟨first, hFirst⟩ := hForward.first
  obtain ⟨rest, hWalk, hRest⟩ := hForward.walk hLimit (.first hFirst)
  exact ⟨first, rest, hFirst, hWalk, hRest⟩

/-- What a page of the ordered rows says when the rows before it are left out. -/
structure ShowsRest (cursorOf : α → γ) (limit : Nat) (rest : List α)
    (response : CursorPaginatedResponse α γ) : Prop where
  items : response.items = rest.take limit
  hasMore : response.hasMore = decide (limit < rest.length)
  nextCursor : response.nextCursor =
    if limit < rest.length then (rest.take limit).getLast?.map cursorOf else none

/-- A service goes forward if a row's cursor leads to the rows after the row. -/
theorem forward_of_rest {cursorOf : α → γ} (hLimit : 1 ≤ limit)
    (hFirst : ∃ response, pages ⟨limit, none, false⟩ = .ok response ∧
      ShowsRest cursorOf limit ordered response ∧ response.hasPrevious = false)
    (hNext : ∀ {first row later}, ordered = first ++ row :: later →
      ∃ response, pages ⟨limit, some (cursorOf row), false⟩ = .ok response ∧
        ShowsRest cursorOf limit later response ∧ response.hasPrevious = true) :
    Forward pages ordered limit := by
  have hRest : ∀ {offset response}, Reached pages limit offset response →
      ShowsRest cursorOf limit (ordered.drop offset) response ∧
        response.hasPrevious = decide (0 < offset) := by
    intro offset response hReached
    induction hReached with
    | first hPage =>
        obtain ⟨other, hOther, hShows, hPrevious⟩ := hFirst
        rw [hPage] at hOther
        cases Except.ok.inj hOther
        exact ⟨hShows, hPrevious⟩
    | @next offset response following cursor hReached hCursor hPage ih =>
        -- The cursor is that of the last row of the page.
        obtain ⟨hShows, -⟩ := ih
        have hMore : limit < (ordered.drop offset).length := by
          by_contra hShort
          rw [hShows.nextCursor, if_neg hShort] at hCursor
          cases hCursor
        rw [hShows.nextCursor, if_pos hMore] at hCursor
        obtain ⟨row, hRow, rfl⟩ := Option.map_eq_some_iff.mp hCursor
        obtain ⟨earlier, hEarlier⟩ := List.getLast?_eq_some_iff.mp hRow
        have hOrdered : ordered = (ordered.take offset ++ earlier) ++
            row :: ordered.drop (offset + limit) := by
          calc ordered
              = ordered.take offset ++ ((ordered.drop offset).take limit ++
                  (ordered.drop offset).drop limit) := by
                rw [List.take_append_drop, List.take_append_drop]
            _ = _ := by rw [hEarlier, List.drop_drop, List.append_assoc, List.append_assoc]; rfl
        obtain ⟨other, hOther, hOtherShows, hPrevious⟩ := hNext hOrdered
        rw [hPage] at hOther
        cases Except.ok.inj hOther
        refine ⟨hOtherShows, ?_⟩
        rw [hPrevious, eq_comm, decide_eq_true_iff]
        omega
  refine ⟨?_, ?_, ?_, ?_⟩
  · obtain ⟨response, hPage, -⟩ := hFirst
    exact ⟨response, hPage⟩
  · intro offset response hReached
    obtain ⟨hShows, hPrevious⟩ := hRest hReached
    refine ⟨hShows.items, ?_, hPrevious⟩
    rw [hShows.hasMore, List.length_drop, decide_eq_decide]
    omega
  · intro offset response hReached hMore
    obtain ⟨hShows, -⟩ := hRest hReached
    have hLong : limit < (ordered.drop offset).length := by
      rw [List.length_drop]
      omega
    have hCursor := hShows.nextCursor
    rw [if_pos hLong] at hCursor
    cases hRow : ((ordered.drop offset).take limit).getLast? with
    | none =>
        have hLength := congrArg List.length (List.getLast?_eq_none_iff.mp hRow)
        rw [List.length_take, List.length_nil] at hLength
        omega
    | some row =>
        rw [hRow] at hCursor
        obtain ⟨first, later, hSplit⟩ := List.append_of_mem
          (List.mem_of_mem_drop (List.mem_of_mem_take (List.mem_of_getLast? hRow)))
        obtain ⟨following, hPage, -⟩ := hNext hSplit
        exact ⟨cursorOf row, following, hCursor, hPage⟩
  · intro offset response hReached hLast
    obtain ⟨hShows, -⟩ := hRest hReached
    rw [hShows.nextCursor, if_neg]
    rw [List.length_drop]
    omega

theorem partition_of_single {cursorOf : α → γ} {response : CursorPaginatedResponse α γ}
    (hPage : pages ⟨limit, none, false⟩ = .ok response)
    (hShows : ShowsRest cursorOf limit ordered response ∧ response.hasPrevious = false)
    (hShort : ordered.length ≤ limit) : Partition pages ordered limit := by
  have hLast : response.nextCursor = none := by
    rw [hShows.1.nextCursor, if_neg (not_lt.mpr hShort)]
  have hOnly : ∀ {offset other}, Reached pages limit offset other →
      offset = 0 ∧ other = response := by
    intro offset other hReached
    induction hReached with
    | first hFirst =>
        rw [hPage] at hFirst
        exact ⟨rfl, (Except.ok.inj hFirst).symm⟩
    | next _ hCursor _ ih =>
        rw [ih.2, hLast] at hCursor
        cases hCursor
  refine ⟨⟨⟨response, hPage⟩, ?_, ?_, ?_⟩, ?_⟩
  · intro offset other hReached
    obtain ⟨rfl, rfl⟩ := hOnly hReached
    refine ⟨hShows.1.items, ?_, hShows.2⟩
    rw [Nat.zero_add]
    exact hShows.1.hasMore
  · intro offset other hReached hMore
    obtain ⟨rfl, rfl⟩ := hOnly hReached
    omega
  · intro offset other hReached _
    obtain ⟨rfl, rfl⟩ := hOnly hReached
    exact hLast
  · intro offset other hReached hOffset
    obtain ⟨rfl, rfl⟩ := hOnly hReached
    omega

end Runs

/-! ## Queries -/

section Queries

variable {α K : Type} [LinearOrder K] {key : α → K} {rows : List α}

/-- Which of two keys comes before the other in an order. -/
def comesBefore (direction : SortDirection) (first second : K) : Prop :=
  match direction with
  | .asc => first < second
  | .desc => second < first

instance (direction : SortDirection) (first second : K) :
    Decidable (comesBefore direction first second) := by
  unfold comesBefore
  cases direction with
  | asc => exact inferInstanceAs (Decidable (_ < _))
  | desc => exact inferInstanceAs (Decidable (_ < _))

theorem comesBefore_trans {direction : SortDirection} {first second third : K}
    (hFirst : comesBefore direction first second) (hSecond : comesBefore direction second third) :
    comesBefore direction first third := by
  cases direction with
  | asc => exact lt_trans hFirst hSecond
  | desc => exact lt_trans hSecond hFirst

theorem comesBefore_irrefl (direction : SortDirection) (first : K) :
    ¬ comesBefore direction first first := by
  cases direction with
  | asc => exact lt_irrefl _
  | desc => exact lt_irrefl _

theorem comesBefore_coe {Id V : Type} [LinearOrder Id] [LinearOrder V]
    {direction : SortDirection} {one two : V} {first second : Id} :
    comesBefore direction (toLex ((one : WithTop V), first)) (toLex ((two : WithTop V), second)) ↔
      comesBefore direction (toLex (one, first)) (toLex (two, second)) := by
  have hLt : ∀ (one two : V) (first second : Id),
      toLex ((one : WithTop V), first) < toLex ((two : WithTop V), second) ↔
        toLex (one, first) < toLex (two, second) := by
    intro one two first second
    simp only [Prod.Lex.toLex_lt_toLex, WithTop.coe_lt_coe, WithTop.coe_inj]
  cases direction with
  | asc => exact hLt one two first second
  | desc => exact hLt two one second first

theorem fetch_eq (limit : Nat) (rows : List α) :
    fetch limit rows = (rows.take limit, decide (limit < rows.length)) := by
  unfold fetch
  simp only [List.length_take]
  by_cases hMore : limit < rows.length
  · have hFound : limit < min (limit + 1) rows.length := by omega
    rw [decide_eq_true hFound, decide_eq_true hMore, if_pos rfl, List.take_take]
    congr 2
    omega
  · have hFound : ¬ limit < min (limit + 1) rows.length := by omega
    rw [decide_eq_false hFound, decide_eq_false hMore, if_neg Bool.false_ne_true,
      List.take_of_length_le (by omega), List.take_of_length_le (by omega)]

theorem perm_orderBy (direction : SortDirection) (key : α → K) (rows : List α) :
    (orderBy direction key rows).Perm rows := by
  cases direction with
  | asc => exact Keyset.perm_sortBy _ _
  | desc => exact Keyset.perm_sortBy _ _

omit [LinearOrder K] in
theorem nodup_toDual (hKeys : (rows.map key).Nodup) :
    (rows.map fun row => OrderDual.toDual (key row)).Nodup := by
  have hMap := hKeys.map OrderDual.toDual.injective
  rwa [List.map_map] at hMap

theorem pairwise_orderBy (direction : SortDirection) (hKeys : (rows.map key).Nodup) :
    (orderBy direction key rows).Pairwise fun first second =>
      comesBefore direction (key first) (key second) := by
  cases direction with
  | asc => exact Keyset.pairwise_sortBy hKeys
  | desc => exact Keyset.pairwise_sortBy (nodup_toDual hKeys)

theorem orderBy_filter (direction : SortDirection) (hKeys : (rows.map key).Nodup)
    (keep : α → Bool) :
    orderBy direction key (rows.filter keep) = (orderBy direction key rows).filter keep := by
  cases direction with
  | asc => exact Keyset.sortBy_filter hKeys keep
  | desc => exact Keyset.sortBy_filter (nodup_toDual hKeys) keep

theorem filter_before {direction : SortDirection} {first later : List α} {row : α}
    (hSorted : (first ++ row :: later).Pairwise fun one other =>
      comesBefore direction (key one) (key other)) :
    (first ++ row :: later).filter
      (fun other => decide (comesBefore direction (key other) (key row))) = first := by
  cases direction with
  | asc => exact Keyset.filter_lt hSorted
  | desc => exact @Keyset.filter_lt α Kᵒᵈ _ (fun row => OrderDual.toDual (key row)) _ _ _ hSorted

theorem filter_after {direction : SortDirection} {first later : List α} {row : α}
    (hSorted : (first ++ row :: later).Pairwise fun one other =>
      comesBefore direction (key one) (key other)) :
    (first ++ row :: later).filter
      (fun other => decide (comesBefore direction (key row) (key other))) = later := by
  cases direction with
  | asc => exact Keyset.filter_gt hSorted
  | desc => exact @Keyset.filter_gt α Kᵒᵈ _ (fun row => OrderDual.toDual (key row)) _ _ _ hSorted

theorem length_before {direction : SortDirection} (hKeys : (rows.map key).Nodup)
    {first later : List α} {row : α}
    (hOrdered : orderBy direction key rows = first ++ row :: later) :
    (rows.filter fun other => decide (comesBefore direction (key other) (key row))).length =
      first.length := by
  have hSorted := pairwise_orderBy direction hKeys
  have hPerm := ((perm_orderBy direction key rows).filter fun other =>
    decide (comesBefore direction (key other) (key row))).length_eq
  rw [hOrdered] at hSorted hPerm
  rw [← hPerm, filter_before hSorted]

omit [LinearOrder K] in
theorem exists_head {ordered : List α} {limit offset : Nat} (hLimit : 1 ≤ limit)
    (hOffset : offset < ordered.length) : ∃ first row later, ordered = first ++ row :: later ∧
      first.length = offset ∧ ((ordered.drop offset).take limit).head? = some row := by
  refine ⟨ordered.take offset, ordered[offset], ordered.drop (offset + 1), ?_, ?_, ?_⟩
  · rw [← List.drop_eq_getElem_cons hOffset, List.take_append_drop]
  · rw [List.length_take]
    omega
  · rw [List.drop_eq_getElem_cons hOffset, List.take_cons (by omega)]
    rfl

variable {Id V : Type} [LinearOrder Id] [LinearOrder V]

theorem above_eq (value cell : V) (id rowId : Id) :
    above value id cell rowId = decide (toLex (value, id) < toLex (cell, rowId)) := by
  rw [above, Bool.eq_iff_iff, Bool.or_eq_true, Bool.and_eq_true]
  simp only [decide_eq_true_iff, Prod.Lex.toLex_lt_toLex, @eq_comm V cell]

theorem below_eq (value cell : V) (id rowId : Id) :
    below value id cell rowId = decide (toLex (cell, rowId) < toLex (value, id)) := by
  rw [below, Bool.eq_iff_iff, Bool.or_eq_true, Bool.and_eq_true]
  simp only [decide_eq_true_iff, Prod.Lex.toLex_lt_toLex]

/-- The condition of a cursor selects the rows before it when going back. -/
theorem besideCursor_back (direction : SortDirection) (value cell : V) (id rowId : Id) :
    besideCursor direction true value id cell rowId =
      decide (comesBefore direction (toLex (cell, rowId)) (toLex (value, id))) := by
  cases direction with
  | asc => exact below_eq value cell id rowId
  | desc => exact above_eq value cell id rowId

theorem besideCursor_forth (direction : SortDirection) (value cell : V) (id rowId : Id) :
    besideCursor direction false value id cell rowId =
      decide (comesBefore direction (toLex (value, id)) (toLex (cell, rowId))) := by
  cases direction with
  | asc => exact above_eq value cell id rowId
  | desc => exact below_eq value cell id rowId

end Queries

/-! ## Services whose cursors select the rows beside a row -/

section Keysets

variable {α γ φ K : Type} [LinearOrder K]

/-- Going forward, a page has the rows after that of its cursor; going back, it counts the
rows before it. -/
structure KeysetPages (pages : CursorPaginationParams γ → Except φ (CursorPaginatedResponse α γ))
    (direction : SortDirection) (key : α → K) (cursorOf : α → γ) (rows : List α) (limit : Nat) :
    Prop where
  first : ∃ response, pages ⟨limit, none, false⟩ = .ok response ∧
    ShowsRest cursorOf limit (orderBy direction key rows) response ∧ response.hasPrevious = false
  forth : ∀ row, ∃ response, pages ⟨limit, some (cursorOf row), false⟩ = .ok response ∧
    ShowsRest cursorOf limit (orderBy direction key (rows.filter fun other =>
      decide (comesBefore direction (key row) (key other)))) response ∧
    response.hasPrevious = true
  prevCursor : ∀ {cursor response}, pages ⟨limit, some cursor, false⟩ = .ok response →
    response.prevCursor = response.items.head?.map cursorOf
  hasMore : ∀ {row response}, pages ⟨limit, some (cursorOf row), true⟩ = .ok response →
    response.hasMore = decide (limit < (rows.filter fun other =>
      decide (comesBefore direction (key other) (key row))).length)

namespace KeysetPages

variable {pages : CursorPaginationParams γ → Except φ (CursorPaginatedResponse α γ)}
  {direction : SortDirection} {key : α → K} {cursorOf : α → γ} {rows : List α} {limit : Nat}
  (hPages : KeysetPages pages direction key cursorOf rows limit) (hKeys : (rows.map key).Nodup)
  (hLimit : 1 ≤ limit)

include hPages hKeys hLimit

theorem forward : Forward pages (orderBy direction key rows) limit := by
  refine forward_of_rest hLimit hPages.first ?_
  intro first row later hOrdered
  have hSorted := pairwise_orderBy direction hKeys
  have hRest := hPages.forth row
  rw [hOrdered] at hSorted
  rwa [orderBy_filter direction hKeys, hOrdered, filter_after hSorted] at hRest

/-- Going back to the first page finds no more than its rows, so a second page has no way
back that shows it. -/
theorem partition_iff :
    Partition pages (orderBy direction key rows) limit ↔
      (orderBy direction key rows).length ≤ limit := by
  constructor
  · intro hPartition
    by_contra hLong
    have hMore : 0 + limit < (orderBy direction key rows).length := by omega
    obtain ⟨response, hFirst⟩ := hPartition.first
    obtain ⟨cursor, second, -, hPage, hReached, hShows⟩ :=
      hPartition.toForward.next (.first hFirst) hMore
    obtain ⟨prev, before, hPrev, hBack, hBefore, -⟩ := hPartition.back hReached (by omega)
    obtain ⟨first, row, later, hOrdered, hLength, hHead⟩ := exists_head hLimit hMore
    rw [← hShows.items] at hHead
    rw [hPages.prevCursor hPage, hHead] at hPrev
    cases Option.some.inj hPrev
    have hHasMore := hBefore.hasMore
    rw [hPages.hasMore hBack, length_before hKeys hOrdered, hLength, decide_eq_decide] at hHasMore
    omega
  · intro hShort
    obtain ⟨response, hFirst, hShows⟩ := hPages.first
    exact partition_of_single hFirst hShows hShort

end KeysetPages
end Keysets

/-! ## Workflows -/

section Workflows

variable {Id Time ρ : Type} [LinearOrder Id] [LinearOrder Time]
  {workflows : List (Workflow Id Time ρ)} {filters : Workflow Id Time ρ → Bool} {limit : Nat}

omit [LinearOrder Id] [LinearOrder Time] in
theorem Workflow.nodup_keys (hIds : (workflows.map Workflow.id).Nodup)
    (filters : Workflow Id Time ρ → Bool) :
    ((workflows.filter filters).map Workflow.key).Nodup := by
  have hSelected : ((workflows.filter filters).map Workflow.id).Nodup :=
    hIds.sublist (List.filter_sublist.map _)
  apply List.Nodup.of_map fun key => (ofLex key).2
  rwa [List.map_map]

/-- `list_workflows` as a service that does not fail. -/
def workflowPages (workflows : List (Workflow Id Time ρ)) (filters : Workflow Id Time ρ → Bool)
    (params : CursorPaginationParams (CursorData Id Time)) :
    Except Empty (CursorPaginatedResponse (Workflow Id Time ρ) (CursorData Id Time)) :=
  .ok (listWorkflows workflows filters params)

/-- The workflows that the filters select, in the order of the pages. -/
def orderedWorkflows (workflows : List (Workflow Id Time ρ))
    (filters : Workflow Id Time ρ → Bool) : List (Workflow Id Time ρ) :=
  orderBy .desc Workflow.key (workflows.filter filters)

theorem Workflow.afterCursor_cursor (row : Workflow Id Time ρ) (reverse : Bool)
    (selected : List (Workflow Id Time ρ)) :
    Workflow.afterCursor ⟨limit, some row.cursor, reverse⟩ selected =
      selected.filter fun other =>
        if reverse then decide (comesBefore .desc other.key row.key)
        else decide (comesBefore .desc row.key other.key) := by
  show selected.filter (fun other =>
    besideCursor .desc reverse row.createdAt row.id other.createdAt other.id) = _
  cases reverse with
  | true =>
      simp only [besideCursor_back]
      rfl
  | false =>
      simp only [besideCursor_forth]
      rfl

theorem listWorkflows_forth {cursor : Option (CursorData Id Time)}
    {rest : List (Workflow Id Time ρ)}
    (hRest : orderBy .desc Workflow.key (Workflow.afterCursor ⟨limit, cursor, false⟩
      (workflows.filter filters)) = rest) :
    ShowsRest Workflow.cursor limit rest
        (listWorkflows workflows filters ⟨limit, cursor, false⟩) ∧
      (listWorkflows workflows filters ⟨limit, cursor, false⟩).hasPrevious = cursor.isSome := by
  subst hRest
  simp only [listWorkflows, fetch_eq]
  refine ⟨⟨rfl, rfl, ?_⟩, trivial⟩
  simp only [decide_eq_true_eq]
  rfl

theorem keysetPages_workflows :
    KeysetPages (workflowPages workflows filters) .desc Workflow.key Workflow.cursor
      (workflows.filter filters) limit where
  first := ⟨_, rfl, listWorkflows_forth rfl⟩
  forth row := ⟨_, rfl, listWorkflows_forth (by rw [row.afterCursor_cursor false]; rfl)⟩
  prevCursor hPage := by
    rw [← Except.ok.inj hPage]
    simp only [listWorkflows, fetch_eq]
    rfl
  hasMore {row _} hPage := by
    rw [← Except.ok.inj hPage]
    simp only [listWorkflows, fetch_eq]
    rw [row.afterCursor_cursor true]
    show decide (limit < (orderBy .asc Workflow.key _).length) = _
    rw [(perm_orderBy _ _ _).length_eq]
    rfl

theorem workflows_partition_iff (hIds : (workflows.map Workflow.id).Nodup) (hLimit : 1 ≤ limit) :
    Partition (workflowPages workflows filters) (orderedWorkflows workflows filters) limit ↔
      (orderedWorkflows workflows filters).length ≤ limit :=
  keysetPages_workflows.partition_iff (Workflow.nodup_keys hIds filters) hLimit

end Workflows

/-! ## Cases -/

section Cases

variable {Id Time ρ : Type} [LinearOrder Id] [LinearOrder Time]
  {cases : List (Case Id Time ρ)} {filters : Case Id Time ρ → Bool} {limit : Nat}
  {order : Option CaseSort} {sort : Option SortDirection}

omit [LinearOrder Id] [LinearOrder Time] in
theorem Case.nodup_keys (hIds : (cases.map Case.id).Nodup) (filters : Case Id Time ρ → Bool)
    (sortColumn : CaseSort) : ((cases.filter filters).map (Case.key sortColumn)).Nodup := by
  have hSelected : ((cases.filter filters).map Case.id).Nodup :=
    hIds.sublist (List.filter_sublist.map _)
  apply List.Nodup.of_map fun key => (ofLex key).2
  rwa [List.map_map]

omit [LinearOrder Id] [LinearOrder Time] in
theorem Case.takes_sortAttr (row : Case Id Time ρ) (sortColumn : CaseSort) :
    sortColumn.takes (row.sortAttr sortColumn) = true := by
  cases sortColumn <;> rfl

/-- `search_cases` as a service that does not fail. -/
def casePages (cases : List (Case Id Time ρ)) (filters : Case Id Time ρ → Bool)
    (order : Option CaseSort) (sort : Option SortDirection)
    (params : CursorPaginationParams (CursorData Id (SortValue Time))) :
    Except Empty (CursorPaginatedResponse (Case Id Time ρ) (CursorData Id (SortValue Time))) :=
  .ok (searchCases cases filters order sort params)

def orderedCases (cases : List (Case Id Time ρ)) (filters : Case Id Time ρ → Bool)
    (order : Option CaseSort) (sort : Option SortDirection) : List (Case Id Time ρ) :=
  orderBy (sort.getD .desc) (Case.key (order.getD .createdAt)) (cases.filter filters)

theorem Case.afterCursor_cursor (row : Case Id Time ρ) (sortColumn : CaseSort)
    (sortDirection : SortDirection) (reverse : Bool) (selected : List (Case Id Time ρ)) :
    Case.afterCursor sortColumn sortDirection ⟨limit, some (row.cursor sortColumn), reverse⟩
        selected =
      selected.filter fun other =>
        if reverse then decide (comesBefore sortDirection (other.key sortColumn)
          (row.key sortColumn))
        else decide (comesBefore sortDirection (row.key sortColumn) (other.key sortColumn)) := by
  have hTaken : (if (row.cursor sortColumn).sortColumn = some sortColumn.column then
      (row.cursor sortColumn).sortValue else none).filter sortColumn.takes =
        some (row.sortAttr sortColumn) := by
    have hColumn : (row.cursor sortColumn).sortColumn = some sortColumn.column := rfl
    rw [if_pos hColumn]
    show (some (row.sortAttr sortColumn)).filter sortColumn.takes = _
    rw [Option.filter_some, if_pos (row.takes_sortAttr sortColumn)]
  cases reverse with
  | true =>
      simp only [Case.afterCursor, hTaken, besideCursor_back]
      rfl
  | false =>
      simp only [Case.afterCursor, hTaken, besideCursor_forth]
      rfl

theorem searchCases_forth {cursor : Option (CursorData Id (SortValue Time))}
    {rest : List (Case Id Time ρ)}
    (hRest : orderBy (sort.getD .desc) (Case.key (order.getD .createdAt))
      (Case.afterCursor (order.getD .createdAt) (sort.getD .desc) ⟨limit, cursor, false⟩
        (cases.filter filters)) = rest) :
    ShowsRest (Case.cursor (order.getD .createdAt)) limit rest
        (searchCases cases filters order sort ⟨limit, cursor, false⟩) ∧
      (searchCases cases filters order sort ⟨limit, cursor, false⟩).hasPrevious =
        cursor.isSome := by
  subst hRest
  simp only [searchCases, fetch_eq]
  refine ⟨⟨rfl, rfl, ?_⟩, trivial⟩
  simp only [decide_eq_true_eq]
  rfl

theorem keysetPages_cases :
    KeysetPages (casePages cases filters order sort) (sort.getD .desc)
      (Case.key (order.getD .createdAt)) (Case.cursor (order.getD .createdAt))
      (cases.filter filters) limit where
  first := ⟨_, rfl, searchCases_forth rfl⟩
  forth row := ⟨_, rfl, searchCases_forth (by rw [row.afterCursor_cursor _ _ false]; rfl)⟩
  prevCursor hPage := by
    rw [← Except.ok.inj hPage]
    simp only [searchCases, fetch_eq]
    rfl
  hasMore {row _} hPage := by
    rw [← Except.ok.inj hPage]
    simp only [searchCases, fetch_eq]
    show decide (limit < (orderBy _ (Case.key _) (Case.afterCursor _ _ _ _)).length) = _
    rw [row.afterCursor_cursor _ _ true, (perm_orderBy _ _ _).length_eq]
    rfl

theorem cases_partition_iff (hIds : (cases.map Case.id).Nodup) (hLimit : 1 ≤ limit) :
    Partition (casePages cases filters order sort) (orderedCases cases filters order sort) limit ↔
      (orderedCases cases filters order sort).length ≤ limit :=
  keysetPages_cases.partition_iff (Case.nodup_keys hIds filters _) hLimit

end Cases

/-! ## Rows of tables -/

section Tables

variable {Id V D φ : Type} [LinearOrder Id] [LinearOrder V] {values : CursorValues V D φ}
  {columns : List String} {rows : List (TableRow Id V)} {filters : TableRow Id V → Bool}
  {order : Option String} {sort : Option SortDirection} {limit : Nat}

def orderedRows (rows : List (TableRow Id V)) (filters : TableRow Id V → Bool)
    (order : Option String) (sort : Option SortDirection) : List (TableRow Id V) :=
  orderBy (sort.getD .desc) (TableRow.key (orderColumn order)) (rows.filter filters)

/-- The cursor of a row selects another row and not the row itself. -/
def Crosses (values : CursorValues V D φ) (sortColumn : String) (sortDirection : SortDirection)
    (reverse : Bool) (row other : TableRow Id V) : Prop :=
  ∃ value carried operand, row.cells sortColumn = some value ∧
    values.carried value = .ok carried ∧ values.operand carried = .ok operand ∧
      TableRow.compares sortColumn (besideCursor sortDirection reverse operand row.id) other = true ∧
      TableRow.compares sortColumn (besideCursor sortDirection reverse operand row.id) row = false

variable {sortColumn : String} {sortDirection : SortDirection}
  {selected : List (TableRow Id V)} {params : CursorPaginationParams (CursorData Id (SortField D))}
  {response : CursorPaginatedResponse (TableRow Id V) (CursorData Id (SortField D))}

theorem page_eq_ok :
    TableRow.page values sortColumn sortDirection params selected = .ok response ↔
      ∃ next, (if params.limit < selected.length then
          ((orderBy sortDirection (TableRow.key sortColumn) selected).take params.limit).getLast?
          else none).mapM (TableRow.cursor values sortColumn) = .ok next ∧
        ∃ prev, (if params.cursor.isSome then
            ((orderBy sortDirection (TableRow.key sortColumn) selected).take params.limit).head?
            else none).mapM (TableRow.cursor values sortColumn) = .ok prev ∧
          TableRow.respond params.reverse (decide (params.limit < selected.length))
            params.cursor.isSome
            ((orderBy sortDirection (TableRow.key sortColumn) selected).take params.limit)
            next prev = response := by
  unfold TableRow.page
  simp only [fetch_eq, (perm_orderBy _ _ _).length_eq, decide_eq_true_eq, Checks.bind_eq_ok]
  constructor
  · rintro ⟨next, hNext, prev, hPrev, hResponse⟩
    exact ⟨next, hNext, prev, hPrev, Except.ok.inj hResponse⟩
  · rintro ⟨next, hNext, prev, hPrev, rfl⟩
    exact ⟨next, hNext, prev, hPrev, rfl⟩

theorem afterCursor_of_row {row : TableRow Id V} {cursor : CursorData Id (SortField D)} {reverse : Bool}
    {base : List (TableRow Id V)} (hCursor : row.cursor values sortColumn = .ok cursor)
    (hSelected : TableRow.afterCursor values sortColumn sortDirection
      ⟨limit, some cursor, reverse⟩ base = .ok selected) :
    (row.cells sortColumn = none ∧ selected = base) ∨
      ∃ value carried operand, row.cells sortColumn = some value ∧
        values.carried value = .ok carried ∧ values.operand carried = .ok operand ∧
        selected = base.filter (TableRow.compares sortColumn
          (besideCursor sortDirection reverse operand row.id)) := by
  unfold TableRow.cursor at hCursor
  cases hCell : row.cells sortColumn with
  | none =>
      rw [hCell] at hCursor
      cases hCursor
      left
      refine ⟨rfl, ?_⟩
      simp only [TableRow.afterCursor, if_pos] at hSelected
      exact (Except.ok.inj hSelected).symm
  | some value =>
      rw [hCell] at hCursor
      right
      cases hCarried : values.carried value with
      | error error =>
          simp only [hCarried] at hCursor
          cases hCursor
      | ok carried =>
          simp only [hCarried] at hCursor
          cases hCursor
          simp only [TableRow.afterCursor, if_pos] at hSelected
          cases hOperand : values.operand carried with
          | error error =>
              simp only [hOperand] at hSelected
              cases hSelected
          | ok operand =>
              simp only [hOperand] at hSelected
              exact ⟨value, carried, operand, rfl, hCarried, hOperand,
                (Except.ok.inj hSelected).symm⟩

theorem afterCursor_of_crosses {row other : TableRow Id V} {reverse : Bool}
    {base : List (TableRow Id V)}
    (hCrosses : Crosses values sortColumn sortDirection reverse row other) :
    ∃ cursor keep, row.cursor values sortColumn = .ok cursor ∧ keep other = true ∧
      keep row = false ∧ TableRow.afterCursor values sortColumn sortDirection
        ⟨limit, some cursor, reverse⟩ base = .ok (base.filter keep) := by
  obtain ⟨value, carried, operand, hCell, hCarried, hOperand, hOther, hRow⟩ := hCrosses
  refine ⟨⟨row.id, some sortColumn, some carried⟩, _, ?_, hOther, hRow, ?_⟩
  · unfold TableRow.cursor
    rw [hCell]
    simp only [hCarried]
  · simp only [TableRow.afterCursor, if_pos, hOperand]

/-- A row that is kept going back is kept with every row before it that has a value. -/
theorem compares_back_of_before {first second : TableRow Id V} {operand : V} {id : Id}
    (hBefore : comesBefore sortDirection (first.key sortColumn) (second.key sortColumn))
    (hFirst : first.cells sortColumn ≠ none)
    (hSecond : TableRow.compares sortColumn (besideCursor sortDirection true operand id) second =
      true) :
    TableRow.compares sortColumn (besideCursor sortDirection true operand id) first = true := by
  unfold TableRow.compares at hSecond ⊢
  unfold TableRow.key at hBefore
  cases hOne : first.cells sortColumn with
  | none => exact absurd hOne hFirst
  | some one =>
      cases hTwo : second.cells sortColumn with
      | none =>
          rw [hTwo] at hSecond
          cases hSecond
      | some two =>
          rw [hTwo] at hSecond
          rw [hOne, hTwo] at hBefore
          have hKeep : besideCursor sortDirection true operand id two second.id = true := hSecond
          show besideCursor sortDirection true operand id one first.id = true
          rw [besideCursor_back, decide_eq_true_iff] at hKeep ⊢
          exact comesBefore_trans (comesBefore_coe.mp hBefore) hKeep

omit [LinearOrder Id] [LinearOrder V] in
theorem exists_of_mapM {cursor : CursorData Id (SortField D)} {found : Option (TableRow Id V)}
    (hFound : found.mapM (TableRow.cursor values sortColumn) = .ok (some cursor)) :
    ∃ row, found = some row ∧ row.cursor values sortColumn = .ok cursor := by
  cases found with
  | none => cases hFound
  | some row =>
      obtain ⟨other, hOther, hSome⟩ := Checks.bind_eq_ok.mp hFound
      cases hSome
      exact ⟨row, rfl, hOther⟩

/-- What the condition for the cursor of a row keeps. -/
def Keeps (values : CursorValues V D φ) (sortColumn : String) (sortDirection : SortDirection)
    (reverse : Bool) (row : TableRow Id V) (keep : TableRow Id V → Bool) : Prop :=
  (row.cells sortColumn = none ∧ keep = fun _ => true) ∨
    ∃ value carried operand, row.cells sortColumn = some value ∧
      values.carried value = .ok carried ∧ values.operand carried = .ok operand ∧
      keep = TableRow.compares sortColumn (besideCursor sortDirection reverse operand row.id)

/-- No row has `NULL` in the sort column, and the values come back from their cursors. -/
def Survive (values : CursorValues V D φ) (sortColumn : String) (rows : List (TableRow Id V)) :
    Prop :=
  ∀ row ∈ rows, ∃ value carried, row.cells sortColumn = some value ∧
    values.carried value = .ok carried ∧ values.operand carried = .ok value

/-- The cursor of a row that has one. -/
def TableRow.cursorOf (values : CursorValues V D φ) (sortColumn : String) (row : TableRow Id V) :
    CursorData Id (SortField D) :=
  match row.cursor values sortColumn with
  | .ok cursor => cursor
  | .error _ => ⟨row.id, none, none⟩

omit [LinearOrder Id] [LinearOrder V] in
theorem mapM_cursor {found : Option (TableRow Id V)}
    (hFound : ∀ row ∈ found, row.cursor values sortColumn = .ok (row.cursorOf values sortColumn)) :
    found.mapM (TableRow.cursor values sortColumn) =
      .ok (found.map (TableRow.cursorOf values sortColumn)) := by
  cases found with
  | none => rfl
  | some row => exact Checks.bind_eq_ok.mpr ⟨_, hFound row rfl, rfl⟩

omit [LinearOrder Id] [LinearOrder V] in
theorem Survive.cursor (hSurvive : Survive values sortColumn rows) {row : TableRow Id V}
    (hRow : row ∈ rows) :
    row.cursor values sortColumn = .ok (row.cursorOf values sortColumn) := by
  obtain ⟨value, carried, hCell, hCarried, -⟩ := hSurvive row hRow
  have hCursor : row.cursor values sortColumn = .ok ⟨row.id, some sortColumn, some carried⟩ := by
    unfold TableRow.cursor
    rw [hCell]
    simp only [hCarried]
  unfold TableRow.cursorOf
  rw [hCursor]

/-- The cursor of a row whose value survives selects the rows after it, if none is `NULL`. -/
theorem Survive.afterCursor (hSurvive : Survive values sortColumn rows) {row : TableRow Id V}
    (hRow : row ∈ rows) {base : List (TableRow Id V)} (hBase : ∀ other ∈ base, other ∈ rows) :
    TableRow.afterCursor values sortColumn sortDirection
        ⟨limit, some (row.cursorOf values sortColumn), false⟩ base =
      .ok (base.filter fun other =>
        decide (comesBefore sortDirection (row.key sortColumn) (other.key sortColumn))) := by
  obtain ⟨value, carried, hCell, hCarried, hOperand⟩ := hSurvive row hRow
  have hCursor : row.cursorOf values sortColumn = ⟨row.id, some sortColumn, some carried⟩ := by
    unfold TableRow.cursorOf TableRow.cursor
    rw [hCell]
    simp only [hCarried]
  rw [hCursor]
  simp only [TableRow.afterCursor, if_pos, hOperand]
  congr 1
  apply List.filter_congr
  intro other hOther
  obtain ⟨cell, -, hOtherCell, -⟩ := hSurvive other (hBase other hOther)
  unfold TableRow.compares TableRow.key
  rw [hOtherCell, hCell]
  show besideCursor sortDirection false value row.id cell other.id = _
  rw [besideCursor_forth, decide_eq_decide]
  exact comesBefore_coe.symm

omit [LinearOrder Id] [LinearOrder V] in
theorem kept_first {first second : TableRow Id V} {later : List (TableRow Id V)}
    {keep : TableRow Id V → Bool} (hDistinct : second ≠ first)
    (hKept : ((first :: later).filter keep).head? = some second) :
    keep first = false ∧ keep second = true := by
  constructor
  · by_contra hFirst
    rw [List.filter_cons, if_pos (by simpa using hFirst)] at hKept
    exact hDistinct (Option.some.inj hKept).symm
  · exact (List.mem_filter.mp (List.mem_of_mem_head? hKept)).2

theorem Keeps.crosses {reverse : Bool} {row other : TableRow Id V} {keep : TableRow Id V → Bool}
    (hKeeps : Keeps values sortColumn sortDirection reverse row keep) (hRow : keep row = false)
    (hOther : keep other = true) :
    Crosses values sortColumn sortDirection reverse row other := by
  rcases hKeeps with ⟨-, rfl⟩ | ⟨value, carried, operand, hCell, hCarried, hOperand, rfl⟩
  · cases hRow
  · exact ⟨value, carried, operand, hCell, hCarried, hOperand, hOther, hRow⟩

/-- Two rows on two pages, each found from the other. -/
def TwoPages (values : CursorValues V D φ) (sortColumn : String) (sortDirection : SortDirection)
    (ordered : List (TableRow Id V)) : Prop :=
  ∃ first second, ordered = [first, second] ∧
    Crosses values sortColumn sortDirection false first second ∧
    Crosses values sortColumn sortDirection true second first

end Tables

section RowQueries

variable {Id V D φ : Type} [LinearOrder Id] [LinearOrder V]

/-- A listing of rows with distinct ids, by a column that the table has; the page apart. -/
structure RowQuery (Id V D φ : Type) where
  values : CursorValues V D φ
  columns : List String
  rows : List (TableRow Id V)
  filters : TableRow Id V → Bool
  order : Option String
  sort : Option SortDirection
  nodup : (rows.map TableRow.id).Nodup
  known : orderColumn order ∈ columns ++ ["id", "created_at", "updated_at"]

namespace RowQuery

variable (query : RowQuery Id V D φ)

def column : String := orderColumn query.order

def direction : SortDirection := query.sort.getD .desc

def selected : List (TableRow Id V) := query.rows.filter query.filters

def ordered : List (TableRow Id V) :=
  orderedRows query.rows query.filters query.order query.sort

def pages : CursorPaginationParams (CursorData Id (SortField D)) →
    Except (PageError φ)
      (CursorPaginatedResponse (TableRow Id V) (CursorData Id (SortField D))) :=
  listRows query.values query.columns query.rows query.filters query.order query.sort

theorem pages_eq (params : CursorPaginationParams (CursorData Id (SortField D))) :
    query.pages params =
      (TableRow.afterCursor query.values query.column query.direction params
        query.selected).bind (TableRow.page query.values query.column query.direction params) := by
  unfold pages listRows
  rw [if_neg (not_not.mpr query.known)]
  rfl

omit [LinearOrder Id] [LinearOrder V] in
theorem nodup_keys : (query.selected.map (TableRow.key query.column)).Nodup := by
  have hSelected : (query.selected.map TableRow.id).Nodup :=
    query.nodup.sublist (List.filter_sublist.map _)
  apply List.Nodup.of_map fun key => (ofLex key).2
  rwa [List.map_map]

theorem perm_ordered : query.ordered.Perm query.selected := perm_orderBy _ _ _

theorem pairwise_ordered : query.ordered.Pairwise fun one other =>
    comesBefore query.direction (one.key query.column) (other.key query.column) :=
  pairwise_orderBy _ query.nodup_keys

theorem ordered_filter (keep : TableRow Id V → Bool) :
    orderBy query.direction (TableRow.key query.column) (query.selected.filter keep) =
      query.ordered.filter keep :=
  orderBy_filter _ query.nodup_keys keep

end RowQuery

variable {query : RowQuery Id V D φ} {limit : Nat} {selected : List (TableRow Id V)}
  {response : CursorPaginatedResponse (TableRow Id V) (CursorData Id (SortField D))}

theorem RowQuery.pages_of_row {row : TableRow Id V} {cursor : CursorData Id (SortField D)}
    {reverse : Bool}
    (hCursor : row.cursor query.values query.column = .ok cursor)
    (hPage : query.pages ⟨limit, some cursor, reverse⟩ = .ok response) :
    ∃ keep, Keeps query.values query.column query.direction reverse row keep ∧
      ∃ next prev, (((query.ordered.filter keep).take limit).head?).mapM
          (TableRow.cursor query.values query.column) = .ok prev ∧
        TableRow.respond reverse
            (decide (limit < (query.ordered.filter keep).length)) true
            ((query.ordered.filter keep).take limit) next prev =
          response := by
  rw [query.pages_eq] at hPage
  obtain ⟨selected, hSelected, hPage⟩ := Checks.bind_eq_ok.mp hPage
  have hKept : ∃ keep, Keeps query.values query.column query.direction reverse row keep ∧
      selected = query.selected.filter keep := by
    rcases afterCursor_of_row hCursor hSelected with ⟨hNull, hSame⟩ | hValue
    · refine ⟨fun _ => true, Or.inl ⟨hNull, rfl⟩, ?_⟩
      rw [List.filter_true, hSame]
    · obtain ⟨value, carried, operand, hCell, hCarried, hOperand, hSame⟩ := hValue
      exact ⟨_, Or.inr ⟨value, carried, operand, hCell, hCarried, hOperand, rfl⟩, hSame⟩
  obtain ⟨keep, hKeeps, rfl⟩ := hKept
  have hOrdered := query.ordered_filter keep
  have hLength := (query.perm_ordered.filter keep).length_eq
  obtain ⟨next, -, prev, hPrev, hResponse⟩ := page_eq_ok.mp hPage
  rw [hOrdered] at hPrev hResponse
  rw [← hLength] at hResponse
  exact ⟨keep, hKeeps, next, prev, hPrev, hResponse⟩

theorem RowQuery.pages_first (hPage : query.pages ⟨limit, none, false⟩ = .ok response) :
    (if limit < query.ordered.length then
        (query.ordered.take limit).getLast? else none).mapM
      (TableRow.cursor query.values query.column) = .ok response.nextCursor := by
  rw [query.pages_eq] at hPage
  obtain ⟨next, hNext, prev, hPrev, rfl⟩ := page_eq_ok.mp hPage
  rw [query.perm_ordered.length_eq]
  exact hNext

theorem RowQuery.pages_prevCursor {cursor : CursorData Id (SortField D)}
    (hPage : query.pages ⟨limit, some cursor, false⟩ = .ok response) :
    response.items.head?.mapM (TableRow.cursor query.values query.column) =
      .ok response.prevCursor := by
  rw [query.pages_eq] at hPage
  obtain ⟨selected, -, hPage⟩ := Checks.bind_eq_ok.mp hPage
  obtain ⟨next, -, prev, hPrev, rfl⟩ := page_eq_ok.mp hPage
  exact hPrev

theorem RowQuery.pages_forth {cursor : Option (CursorData Id (SortField D))}
    {rest : List (TableRow Id V)}
    (hSelected : TableRow.afterCursor query.values query.column query.direction
      ⟨limit, cursor, false⟩ query.selected = .ok selected)
    (hSurvive : Survive query.values query.column selected)
    (hRest : orderBy query.direction (TableRow.key query.column) selected = rest) :
    ∃ response, query.pages ⟨limit, cursor, false⟩ = .ok response ∧
      ShowsRest (TableRow.cursorOf query.values query.column) limit rest response ∧
      response.hasPrevious = cursor.isSome := by
  have hPerm := perm_orderBy query.direction (TableRow.key query.column) selected
  rw [hRest] at hPerm
  have hNext : (if limit < selected.length then (rest.take limit).getLast? else none).mapM
      (TableRow.cursor query.values query.column) =
        .ok ((if limit < selected.length then (rest.take limit).getLast? else none).map
          (TableRow.cursorOf query.values query.column)) := by
    refine mapM_cursor fun row hRow => hSurvive.cursor (hPerm.mem_iff.mp ?_)
    split at hRow
    · exact List.mem_of_mem_take (List.mem_of_getLast? hRow)
    · cases hRow
  have hPrev : (if cursor.isSome then (rest.take limit).head? else none).mapM
      (TableRow.cursor query.values query.column) =
        .ok ((if cursor.isSome then (rest.take limit).head? else none).map
          (TableRow.cursorOf query.values query.column)) := by
    refine mapM_cursor fun row hRow => hSurvive.cursor (hPerm.mem_iff.mp ?_)
    split at hRow
    · exact List.mem_of_mem_take (List.mem_of_mem_head? hRow)
    · cases hRow
  subst hRest
  have hPage := (@page_eq_ok _ _ _ _ _ _ query.values query.column query.direction selected
    ⟨limit, cursor, false⟩ _).mpr ⟨_, hNext, _, hPrev, rfl⟩
  rw [query.pages_eq, hSelected]
  refine ⟨_, hPage, ⟨rfl, ?_, ?_⟩, rfl⟩
  · show decide (limit < selected.length) = _
    rw [hPerm.length_eq]
  · show Option.map _ (if limit < selected.length then _ else _) = _
    rw [← hPerm.length_eq]
    split
    · rfl
    · rfl

/-- Going forward shows every row once, in order, where no value is `NULL` or changed by
the cursor. -/
theorem rows_forward (hLimit : 1 ≤ limit)
    (hSurvive : Survive query.values query.column query.selected) :
    Forward query.pages query.ordered limit := by
  refine @forward_of_rest _ _ _ _ _ _ (TableRow.cursorOf query.values query.column) hLimit
    ?_ ?_
  · exact RowQuery.pages_forth rfl hSurvive rfl
  · intro first row later hOrdered
    have hSorted := query.pairwise_ordered
    have hRow : row ∈ query.selected := by
      rw [← query.perm_ordered.mem_iff, hOrdered]
      exact List.mem_append_right _ List.mem_cons_self
    refine RowQuery.pages_forth (hSurvive.afterCursor hRow fun _ hOther => hOther) ?_ ?_
    · intro other hOther
      exact hSurvive other (List.mem_of_mem_filter hOther)
    · rw [hOrdered] at hSorted
      rw [query.ordered_filter, hOrdered]
      exact filter_after hSorted

/-- What going back from a page shows, by what the cursor of its first row keeps. -/
theorem rows_back (hPartition : Partition query.pages query.ordered limit)
    {offset : Nat} (hReached : Reached query.pages limit
      offset response) (hOffset : 0 < offset) {row : TableRow Id V}
    (hHead : response.items.head? = some row) :
    ∃ keep, Keeps query.values query.column query.direction true row keep ∧
      ((query.ordered.filter keep).take limit).reverse =
        (query.ordered.drop (offset - limit)).take limit ∧
      (limit < (query.ordered.filter keep).length ↔
        0 < offset - limit) := by
  obtain ⟨cursor, before, hPrev, hBack, hBefore, -⟩ := hPartition.back hReached hOffset
  cases hReached with
  | first _ => omega
  | next _ _ hPage =>
      have hCursor := RowQuery.pages_prevCursor hPage
      rw [hHead, hPrev] at hCursor
      obtain ⟨same, hSame, hCursor⟩ := exists_of_mapM hCursor
      cases Option.some.inj hSame
      obtain ⟨keep, hKeeps, next, prev, -, hResponse⟩ :=
        RowQuery.pages_of_row hCursor hBack
      have hItems := hBefore.items
      have hPrevious := hBefore.hasPrevious
      rw [← hResponse] at hItems hPrevious
      exact ⟨keep, hKeeps, hItems, decide_eq_decide.mp hPrevious⟩

/-- What the second page shows, by what the cursor of the first page keeps. -/
theorem rows_forth (hForward : Forward query.pages query.ordered limit)
    (hMore : limit < query.ordered.length) :
    ∃ row keep, (query.ordered.take limit).getLast? = some row ∧
      Keeps query.values query.column query.direction false row keep ∧
      (query.ordered.filter keep).take limit =
        (query.ordered.drop limit).take limit := by
  obtain ⟨response, hFirst⟩ := hForward.first
  obtain ⟨cursor, following, hNext, hPage, -, hShows⟩ :=
    hForward.next (.first hFirst) (by omega)
  have hCursor := RowQuery.pages_first hFirst
  rw [if_pos hMore, hNext] at hCursor
  obtain ⟨row, hLast, hCursor⟩ := exists_of_mapM hCursor
  obtain ⟨keep, hKeeps, next, prev, -, hResponse⟩ := RowQuery.pages_of_row hCursor hPage
  have hItems := hShows.items
  rw [← hResponse, Nat.zero_add] at hItems
  exact ⟨row, keep, hLast, hKeeps, hItems⟩

/-- Where there is a second page, going back to the first one works for pages of one row. -/
theorem limit_of_partition (hLimit : 1 ≤ limit)
    (hPartition : Partition query.pages query.ordered limit)
    (hMore : limit < query.ordered.length) : limit = 1 := by
  have hSorted := query.pairwise_ordered
  obtain ⟨response, hFirst⟩ := hPartition.first
  obtain ⟨cursor, following, -, -, hReached, hShows⟩ :=
    hPartition.toForward.next (.first hFirst) (by omega)
  obtain ⟨-, row, -, -, -, hHead⟩ := exists_head hLimit (Nat.zero_add limit ▸ hMore)
  rw [← hShows.items] at hHead
  obtain ⟨keep, -, hItems, -⟩ := rows_back hPartition hReached (by omega) hHead
  rw [Nat.zero_add, Nat.sub_self, List.drop_zero] at hItems
  -- The rows come in order, and the page is their reverse.
  have hPage : (query.ordered.take limit).Pairwise fun one other =>
      comesBefore query.direction (one.key query.column)
        (other.key query.column) :=
    List.Pairwise.sublist (List.take_sublist _ _) hSorted
  have hReverse : (query.ordered.take limit).reverse.Pairwise
      fun one other => comesBefore query.direction (one.key query.column)
        (other.key query.column) := by
    rw [← hItems, List.reverse_reverse]
    exact List.Pairwise.sublist ((List.take_sublist _ _).trans List.filter_sublist) hSorted
  have hLength : (query.ordered.take limit).length ≤ 1 := by
    generalize query.direction = direction at hPage hReverse
    cases direction with
    | asc => exact Keyset.length_le_one_of_reverse hPage hReverse
    | desc =>
        exact @Keyset.length_le_one_of_reverse _ (WithTop V ×ₗ Id)ᵒᵈ _
          (fun row => OrderDual.toDual (row.key query.column)) _ hPage hReverse
  rw [List.length_take] at hLength
  omega

/-- Where pages of one row are a partition and there are more of them, there are two. -/
theorem twoPages_of_partition (hPartition : Partition query.pages query.ordered 1)
    (hMore : 1 < query.ordered.length) :
    TwoPages query.values query.column query.direction
      query.ordered := by
  have hSorted := query.pairwise_ordered
  obtain ⟨response, hFirst⟩ := hPartition.first
  obtain ⟨-, page, -, -, hReached, hShows⟩ := hPartition.toForward.next (.first hFirst) (by omega)
  obtain ⟨last, forth, hLast, hForth, hForthItems⟩ :=
    rows_forth hPartition.toForward hMore
  obtain ⟨first, second, later, hOrdered⟩ : ∃ first second later,
      query.ordered = first :: second :: later := by
    cases hRows : query.ordered with
    | nil => simp only [hRows, List.length_nil] at hMore; omega
    | cons first others =>
        cases others with
        | nil => simp only [hRows, List.length_cons, List.length_nil] at hMore; omega
        | cons second later => exact ⟨first, second, later, rfl⟩
  rw [hOrdered] at hSorted hLast hForthItems
  have hBefore := (List.pairwise_cons.mp hSorted).1 second List.mem_cons_self
  have hDistinct : second ≠ first := by
    rintro rfl
    exact comesBefore_irrefl _ _ hBefore
  -- Going forward, the cursor of the first row keeps the second and not the first.
  have hLastFirst : first = last := Option.some.inj hLast
  subst hLastFirst
  have hForthHead : ((first :: second :: later).filter forth).head? = some second := by
    have hHead := congrArg List.head? hForthItems
    rwa [List.head?_take, if_neg Nat.one_ne_zero] at hHead
  obtain ⟨hForthFirst, hForthSecond⟩ := kept_first hDistinct hForthHead
  have hCross := hForth.crosses hForthFirst hForthSecond
  -- Going back from the second page, only the first row is kept.
  have hPageHead : page.items.head? = some second := by
    rw [hShows.items, hOrdered]
    rfl
  obtain ⟨back, hBack, hBackItems, hBackMore⟩ :=
    rows_back hPartition hReached (by omega) hPageHead
  rw [hOrdered] at hBackItems hBackMore
  have hBackOne : (first :: second :: later).filter back = [first] := by
    have hTake : ((first :: second :: later).filter back).take 1 = [first] := by
      have hReverse := congrArg List.reverse hBackItems
      rwa [List.reverse_reverse] at hReverse
    rw [List.take_of_length_le (by omega)] at hTake
    exact hTake
  have hBackFirst : back first = true := by
    have hMem : first ∈ (first :: second :: later).filter back := by
      rw [hBackOne]
      exact List.mem_singleton_self first
    exact (List.mem_filter.mp hMem).2
  have hBackSecond : back second = false := by
    by_contra hKept
    have hMem : second ∈ (first :: second :: later).filter back :=
      List.mem_filter.mpr ⟨List.mem_cons_of_mem _ List.mem_cons_self, by simpa using hKept⟩
    rw [hBackOne] at hMem
    exact hDistinct (List.mem_singleton.mp hMem)
  refine ⟨first, second, ?_, hCross, hBack.crosses hBackSecond hBackFirst⟩
  -- Going back from a third page would show the first row, which has a value, again.
  cases later with
  | nil => exact hOrdered
  | cons third later =>
      exfalso
      have hLong : 0 + 1 + 1 < query.ordered.length := by
        rw [hOrdered]
        simp only [List.length_cons]
        omega
      obtain ⟨-, next, -, -, hThird, hThirdShows⟩ := hPartition.toForward.next hReached hLong
      have hThirdHead : next.items.head? = some third := by
        rw [hThirdShows.items, hOrdered]
        rfl
      obtain ⟨again, hAgain, hAgainItems, -⟩ :=
        rows_back hPartition hThird (by omega) hThirdHead
      rw [hOrdered] at hAgainItems
      have hAgainHead : ((first :: second :: third :: later).filter again).head? =
          some second := by
        have hReverse := congrArg List.reverse hAgainItems
        rw [List.reverse_reverse] at hReverse
        have hHead := congrArg List.head? hReverse
        rwa [List.head?_take, if_neg Nat.one_ne_zero] at hHead
      obtain ⟨hAgainFirst, hAgainSecond⟩ := kept_first hDistinct hAgainHead
      rcases hAgain with ⟨-, rfl⟩ | ⟨-, -, operand, -, -, -, rfl⟩
      · cases hAgainFirst
      · obtain ⟨value, -, -, hCell, -⟩ := hCross
        have hFirstCell : first.cells query.column ≠ none := by
          rw [hCell]
          exact Option.some_ne_none value
        rw [compares_back_of_before hBefore hFirstCell hAgainSecond] at hAgainFirst
        cases hAgainFirst

theorem RowQuery.pages_of_kept {cursor other : CursorData Id (SortField D)} {reverse : Bool}
    {row : TableRow Id V}
    {keep : TableRow Id V → Bool}
    (hSelected : TableRow.afterCursor query.values query.column query.direction
      ⟨1, some cursor, reverse⟩ query.selected = .ok (query.selected.filter keep))
    (hKept : query.ordered.filter keep = [row])
    (hOther : row.cursor query.values query.column = .ok other) :
    query.pages ⟨1, some cursor, reverse⟩ =
      .ok (TableRow.respond reverse false true [row] none (some other)) := by
  have hOrdered := query.ordered_filter keep
  have hLength := (query.perm_ordered.filter keep).length_eq
  rw [hKept] at hOrdered hLength
  rw [query.pages_eq, hSelected]
  refine page_eq_ok.mpr ⟨none, ?_, some other, ?_, ?_⟩
  · rw [← hLength, if_neg (by simp only [List.length_singleton]; omega)]
    rfl
  · rw [hOrdered]
    show (some row).mapM _ = _
    exact Checks.bind_eq_ok.mpr ⟨other, hOther, rfl⟩
  · rw [hOrdered, ← hLength]
    rfl

theorem partition_of_twoPages (hTwo : TwoPages query.values query.column query.direction
      query.ordered) :
    Partition query.pages query.ordered 1 := by
  obtain ⟨first, second, hOrdered, hForth, hBack⟩ := hTwo
  obtain ⟨next, keepNext, hNext, hNextSecond, hNextFirst, hNextSelected⟩ :=
    @afterCursor_of_crosses _ _ _ _ _ _ query.values 1 _ _ first second false query.selected
      hForth
  obtain ⟨prev, keepPrev, hPrev, hPrevFirst, hPrevSecond, hPrevSelected⟩ :=
    @afterCursor_of_crosses _ _ _ _ _ _ query.values 1 _ _ second first true query.selected
      hBack
  have hFirst : query.pages ⟨1, none, false⟩ =
      .ok (TableRow.respond false true false [first] (some next) none) := by
    have hSelected : orderBy query.direction (TableRow.key query.column)
        query.selected = [first, second] := hOrdered
    have hLength := query.perm_ordered.length_eq
    rw [hOrdered] at hLength
    rw [query.pages_eq]
    show TableRow.page _ _ _ _ query.selected = _
    refine page_eq_ok.mpr ⟨some next, ?_, none, rfl, ?_⟩
    · rw [← hLength, if_pos (by simp only [List.length_cons]; omega), hSelected]
      exact Checks.bind_eq_ok.mpr ⟨next, hNext, rfl⟩
    · rw [← hLength, hSelected]
      rfl
  have hSecond : query.pages ⟨1, some next, false⟩ =
      .ok (TableRow.respond false false true [second] none (some prev)) := by
    refine RowQuery.pages_of_kept hNextSelected ?_ hPrev
    rw [hOrdered]
    simp only [List.filter_cons, hNextFirst, hNextSecond, List.filter_nil]
    rfl
  have hBefore : query.pages ⟨1, some prev, true⟩ =
      .ok (TableRow.respond true false true [first] none (some next)) := by
    refine RowQuery.pages_of_kept hPrevSelected ?_ hNext
    rw [hOrdered]
    simp only [List.filter_cons, hPrevFirst, hPrevSecond, List.filter_nil]
    rfl
  have hOnly : ∀ {offset response},
      Reached query.pages 1 offset response →
        (offset = 0 ∧ response = TableRow.respond false true false [first] (some next) none) ∨
        (offset = 1 ∧ response = TableRow.respond false false true [second] none (some prev)) := by
    intro offset response hReached
    induction hReached with
    | first hPage =>
        rw [hFirst] at hPage
        exact Or.inl ⟨rfl, (Except.ok.inj hPage).symm⟩
    | next _ hCursor hPage ih =>
        rcases ih with ⟨rfl, rfl⟩ | ⟨-, rfl⟩
        · cases hCursor
          rw [hSecond] at hPage
          exact Or.inr ⟨rfl, (Except.ok.inj hPage).symm⟩
        · cases hCursor
  refine ⟨⟨⟨_, hFirst⟩, ?_, ?_, ?_⟩, ?_⟩
  · intro offset response hReached
    rw [hOrdered]
    rcases hOnly hReached with ⟨rfl, rfl⟩ | ⟨rfl, rfl⟩
    · exact ⟨rfl, rfl, rfl⟩
    · exact ⟨rfl, rfl, rfl⟩
  · intro offset response hReached hMore
    rcases hOnly hReached with ⟨rfl, rfl⟩ | ⟨rfl, rfl⟩
    · exact ⟨next, _, rfl, hSecond⟩
    · rw [hOrdered] at hMore
      exact absurd hMore (lt_irrefl 2)
  · intro offset response hReached hLast
    rcases hOnly hReached with ⟨rfl, rfl⟩ | ⟨rfl, rfl⟩
    · rw [hOrdered] at hLast
      exact absurd hLast (not_le.mpr (Nat.lt_succ_self 1))
    · rfl
  · intro offset response hReached hOffset
    rcases hOnly hReached with ⟨rfl, rfl⟩ | ⟨rfl, rfl⟩
    · omega
    · refine ⟨prev, _, rfl, hBefore, ?_, next, _, rfl, hSecond, rfl⟩
      rw [hOrdered]
      exact ⟨rfl, rfl, rfl⟩

theorem rows_partition_iff (hLimit : 1 ≤ limit) :
    Partition query.pages query.ordered limit ↔
      query.ordered.length ≤ limit ∨
        limit = 1 ∧ TwoPages query.values query.column query.direction
          query.ordered := by
  constructor
  · intro hPartition
    rcases Nat.lt_or_ge limit query.ordered.length with hMore | hShort
    · have hOne := limit_of_partition hLimit hPartition hMore
      subst hOne
      exact Or.inr ⟨rfl, twoPages_of_partition hPartition hMore⟩
    · exact Or.inl hShort
  · rintro (hShort | ⟨rfl, hTwo⟩)
    · have hLength : ¬ limit < query.selected.length := by
        rw [← query.perm_ordered.length_eq]
        omega
      have hPage : query.pages ⟨limit, none, false⟩ =
          .ok (TableRow.respond false false false
            (query.ordered.take limit) none none) := by
        rw [query.pages_eq]
        refine page_eq_ok.mpr ⟨none, ?_, none, rfl, ?_⟩
        · rw [if_neg hLength]
          rfl
        · rw [decide_eq_false hLength]
          rfl
      refine @partition_of_single _ _ _ _ _ _ (fun row => ⟨row.id, none, none⟩) _ hPage
        ⟨⟨rfl, ?_, ?_⟩, rfl⟩ hShort
      · exact (decide_eq_false (not_lt.mpr hShort)).symm
      · rw [if_neg (not_lt.mpr hShort)]
        rfl
    · exact partition_of_twoPages hTwo

end RowQueries

/-! ## The three services -/

/-- The pages of workflows and cases are a partition where there is one page; those of a
table also where there are two of one row. -/
theorem cursor_pagination_iff {Id Time V D φ ρ σ : Type} [LinearOrder Id] [LinearOrder Time]
    [LinearOrder V] (workflows : List (Workflow Id Time ρ))
    (workflowFilters : Workflow Id Time ρ → Bool) (cases : List (Case Id Time σ))
    (caseFilters : Case Id Time σ → Bool) (caseOrder : Option CaseSort)
    (values : CursorValues V D φ) (columns : List String) (rows : List (TableRow Id V))
    (rowFilters : TableRow Id V → Bool) (rowOrder : Option String)
    (sort : Option SortDirection) (limit : Nat)
    (hWorkflows : (workflows.map Workflow.id).Nodup) (hCases : (cases.map Case.id).Nodup)
    (hRows : (rows.map TableRow.id).Nodup) (hLimit : 1 ≤ limit)
    (hColumn : orderColumn rowOrder ∈ columns ++ ["id", "created_at", "updated_at"]) :
    (Partition (workflowPages workflows workflowFilters)
        (orderedWorkflows workflows workflowFilters) limit ↔
      (orderedWorkflows workflows workflowFilters).length ≤ limit) ∧
    (Partition (casePages cases caseFilters caseOrder sort)
        (orderedCases cases caseFilters caseOrder sort) limit ↔
      (orderedCases cases caseFilters caseOrder sort).length ≤ limit) ∧
    (Partition (listRows values columns rows rowFilters rowOrder sort)
        (orderedRows rows rowFilters rowOrder sort) limit ↔
      (orderedRows rows rowFilters rowOrder sort).length ≤ limit ∨
        limit = 1 ∧ TwoPages values (orderColumn rowOrder) (sort.getD .desc)
          (orderedRows rows rowFilters rowOrder sort)) :=
  ⟨workflows_partition_iff hWorkflows hLimit, cases_partition_iff hCases hLimit,
    @rows_partition_iff _ _ _ _ _ _
      ⟨values, columns, rows, rowFilters, rowOrder, sort, hRows, hColumn⟩ _ hLimit⟩

/-- The next cursors lead through all workflows and all cases, each once and in order; through
all rows of a table where no sort value is `NULL` or changed by the cursor. -/
theorem forward_listings {Id Time V D φ ρ σ : Type} [LinearOrder Id] [LinearOrder Time]
    [LinearOrder V] (workflows : List (Workflow Id Time ρ))
    (workflowFilters : Workflow Id Time ρ → Bool) (cases : List (Case Id Time σ))
    (caseFilters : Case Id Time σ → Bool) (caseOrder : Option CaseSort)
    (values : CursorValues V D φ) (columns : List String) (rows : List (TableRow Id V))
    (rowFilters : TableRow Id V → Bool) (rowOrder : Option String)
    (sort : Option SortDirection) (limit : Nat)
    (hWorkflows : (workflows.map Workflow.id).Nodup) (hCases : (cases.map Case.id).Nodup)
    (hRows : (rows.map TableRow.id).Nodup) (hLimit : 1 ≤ limit)
    (hColumn : orderColumn rowOrder ∈ columns ++ ["id", "created_at", "updated_at"])
    (hSurvive : Survive values (orderColumn rowOrder) (rows.filter rowFilters)) :
    (∃ first rest, workflowPages workflows workflowFilters ⟨limit, none, false⟩ = .ok first ∧
      Walk (workflowPages workflows workflowFilters) limit first rest ∧
      (first :: rest).flatMap CursorPaginatedResponse.items =
        orderedWorkflows workflows workflowFilters) ∧
    (∃ first rest, casePages cases caseFilters caseOrder sort ⟨limit, none, false⟩ = .ok first ∧
      Walk (casePages cases caseFilters caseOrder sort) limit first rest ∧
      (first :: rest).flatMap CursorPaginatedResponse.items =
        orderedCases cases caseFilters caseOrder sort) ∧
    ∃ first rest,
      listRows values columns rows rowFilters rowOrder sort ⟨limit, none, false⟩ = .ok first ∧
      Walk (listRows values columns rows rowFilters rowOrder sort) limit first rest ∧
      (first :: rest).flatMap CursorPaginatedResponse.items =
        orderedRows rows rowFilters rowOrder sort :=
  ⟨(keysetPages_workflows.forward (Workflow.nodup_keys hWorkflows _) hLimit).walk_all hLimit,
    (keysetPages_cases.forward (Case.nodup_keys hCases _ _) hLimit).walk_all hLimit,
    (@rows_forward _ _ _ _ _ _
      ⟨values, columns, rows, rowFilters, rowOrder, sort, hRows, hColumn⟩ _ hLimit
      hSurvive).walk_all hLimit⟩

/-- A row of a table with the column `name`. -/
def namedRow (id name : Nat) : TableRow Nat Nat where
  id := id
  cells column := if column = "id" then some id else if column = "name" then some name else none

/-- Numbers, which a cursor carries as they are. -/
def numberValues : CursorValues Nat Empty Unit where
  fromisoformat _ := none
  dump := Empty.elim
  field value := .ok (.int value)
  operand
    | .int value => .ok value.toNat
    | _ => .error ()

theorem orderedRows_namedRow :
    orderedRows [namedRow 1 5, namedRow 2 5] (fun _ => true) (some "name") (some .asc) =
      [namedRow 1 5, namedRow 2 5] := by
  have hKeys : ([namedRow 1 5, namedRow 2 5].map (TableRow.key "name")).Nodup := by decide
  have hSorted : [namedRow 1 5, namedRow 2 5].Pairwise fun first second =>
      first.key "name" < second.key "name" := by decide
  exact Keyset.eq_of_perm (Keyset.pairwise_sortBy hKeys) hSorted (Keyset.perm_sortBy _ _)

/-- Workflows that were created at one time. -/
def twoWorkflows : List (Workflow Nat Nat Unit) :=
  [⟨1, 1, ()⟩, ⟨2, 1, ()⟩]

/-- Cases of different priorities. -/
def twoCases : List (Case Nat Nat Unit) :=
  [⟨1, 1, 1, "low", "low", "new", 0, ()⟩, ⟨2, 1, 1, "high", "low", "new", 0, ()⟩]

/-- Two rows of each service on two pages. -/
theorem namedRows_forward :
    (∃ first rest, workflowPages twoWorkflows (fun _ => true) ⟨1, none, false⟩ = .ok first ∧
      Walk (workflowPages twoWorkflows fun _ => true) 1 first rest ∧
      (first :: rest).flatMap CursorPaginatedResponse.items =
        orderedWorkflows twoWorkflows fun _ => true) ∧
    (∃ first rest, casePages twoCases (fun _ => true) (some .priority) (some .asc)
        ⟨1, none, false⟩ = .ok first ∧
      Walk (casePages twoCases (fun _ => true) (some .priority) (some .asc)) 1 first rest ∧
      (first :: rest).flatMap CursorPaginatedResponse.items =
        orderedCases twoCases (fun _ => true) (some .priority) (some .asc)) ∧
    ∃ first rest, listRows numberValues ["name"] [namedRow 1 5, namedRow 2 5] (fun _ => true)
        (some "name") (some .asc) ⟨1, none, false⟩ = .ok first ∧
      Walk (listRows numberValues ["name"] [namedRow 1 5, namedRow 2 5] (fun _ => true)
        (some "name") (some .asc)) 1 first rest ∧
      (first :: rest).flatMap CursorPaginatedResponse.items = [namedRow 1 5, namedRow 2 5] := by
  have hSurvive : Survive numberValues (orderColumn (some "name"))
      ([namedRow 1 5, namedRow 2 5].filter fun _ => true) := by
    intro row hRow
    have hName : row.cells "name" = some 5 := by
      rcases List.mem_pair.mp (List.mem_filter.mp hRow).1 with rfl | rfl <;> rfl
    exact ⟨5, .int 5, hName, rfl, rfl⟩
  have hPages := forward_listings twoWorkflows (fun _ => true) twoCases (fun _ => true)
    (some .priority) numberValues ["name"] [namedRow 1 5, namedRow 2 5] (fun _ => true)
    (some "name") (some .asc) 1 (by decide) (by decide) (by decide) (le_refl 1) (by decide)
    hSurvive
  rwa [orderedRows_namedRow] at hPages

/-- Two rows with one name on two pages, and a workflow and a case on one. -/
theorem namedRows_partition :
    Partition (workflowPages (twoWorkflows.take 1) fun _ => true)
        (orderedWorkflows (twoWorkflows.take 1) fun _ => true) 1 ∧
      Partition (casePages (twoCases.take 1) (fun _ => true) (some .priority) (some .asc))
        (orderedCases (twoCases.take 1) (fun _ => true) (some .priority) (some .asc)) 1 ∧
      Partition (listRows numberValues ["name"] [namedRow 1 5, namedRow 2 5] (fun _ => true)
        (some "name") (some .asc))
        (orderedRows [namedRow 1 5, namedRow 2 5] (fun _ => true) (some "name") (some .asc))
        1 := by
  obtain ⟨hWorkflows, hCases, hRows⟩ := cursor_pagination_iff (twoWorkflows.take 1)
    (fun _ => true) (twoCases.take 1) (fun _ => true) (some .priority) numberValues ["name"]
    [namedRow 1 5, namedRow 2 5] (fun _ => true) (some "name") (some .asc) 1 (by decide)
    (by decide) (by decide) (le_refl 1) (by decide)
  refine ⟨hWorkflows.mpr ?_, hCases.mpr ?_, hRows.mpr (.inr
    ⟨rfl, namedRow 1 5, namedRow 2 5, orderedRows_namedRow, ?_, ?_⟩)⟩
  · rw [orderedWorkflows, (perm_orderBy _ _ _).length_eq]
    decide
  · rw [orderedCases, (perm_orderBy _ _ _).length_eq]
    decide
  · exact ⟨5, .int 5, 5, rfl, rfl, rfl, by decide, by decide⟩
  · exact ⟨5, .int 5, 5, rfl, rfl, rfl, by decide, by decide⟩

def threeNames : RowQuery Nat Nat Empty Unit where
  values := numberValues
  columns := ["name"]
  rows := [namedRow 1 5, namedRow 2 5, namedRow 3 6]
  filters _ := true
  order := some "name"
  sort := none
  nodup := by decide
  known := by decide

/-- More rows than a page has, in each of the services. -/
theorem secondPage_not_partition :
    ¬ Partition (workflowPages twoWorkflows fun _ => true)
        (orderedWorkflows twoWorkflows fun _ => true) 1 ∧
      ¬ Partition (casePages twoCases (fun _ => true) (some .priority) none)
        (orderedCases twoCases (fun _ => true) (some .priority) none) 1 ∧
      ¬ Partition (listRows numberValues ["name"] [namedRow 1 5, namedRow 2 5, namedRow 3 6]
          (fun _ => true) (some "name") none)
        (orderedRows [namedRow 1 5, namedRow 2 5, namedRow 3 6] (fun _ => true) (some "name")
          none) 2 := by
  refine ⟨?_, ?_, ?_⟩
  · rw [workflows_partition_iff (by decide) (le_refl 1), orderedWorkflows,
      (perm_orderBy _ _ _).length_eq]
    decide
  · rw [cases_partition_iff (by decide) (le_refl 1), orderedCases, (perm_orderBy _ _ _).length_eq]
    decide
  · refine fun hPartition => (rows_partition_iff (by decide)).not.mpr ?_
      (show Partition threeNames.pages threeNames.ordered 2 from hPartition)
    rw [threeNames.perm_ordered.length_eq]
    rintro (hShort | ⟨hOne, -⟩)
    · exact absurd hShort (by decide)
    · exact absurd hOne (by decide)

end Pagination
end Tracecat
