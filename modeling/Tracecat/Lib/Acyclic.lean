import Mathlib.Data.List.Basic
import Mathlib.Logic.Relation
import Mathlib.Order.WellFoundedSet

/-!
# Relations without cycles

A relation that falls in a rank has no cycle, and a finite set that a relation
without cycles never leaves is empty.  Chains from a node are bounded exactly
when no cycle can be reached from it.

The depth of a node is compared by the chains that start at it: a node is at
most as deep as another when every chain from it is matched by one of the same
length from the other.  No function of depth is needed, and nothing has to be
finite.
-/

namespace Tracecat

variable {α : Type*} {edge : α → α → Prop}

/-! ## Depth by chains -/

section Depth

/-- A walk of so many edges starts at the node. -/
inductive Chain (edge : α → α → Prop) : Nat → α → Prop
  | nil (node : α) : Chain edge 0 node
  | cons {node next : α} {length : Nat} (hEdge : edge node next)
      (hChain : Chain edge length next) : Chain edge (length + 1) node

/-- The first node is at most as deep as the second. -/
def DepthLe (edge : α → α → Prop) (first second : α) : Prop :=
  ∀ length, Chain edge length first → Chain edge length second

/-- A deepest one among the nodes that follow `node`. -/
def Deepest (edge : α → α → Prop) (node next : α) : Prop :=
  edge node next ∧ ∀ other, edge node other → DepthLe edge other next

namespace Chain

theorem pred {node : α} {length : Nat} (hChain : Chain edge (length + 1) node) :
    Chain edge length node := by
  induction length generalizing node with
  | zero => exact .nil node
  | succ length ih =>
      cases hChain with
      | cons hEdge hRest => exact .cons hEdge (ih hRest)

theorem of_le {node : α} {short long : Nat} (hChain : Chain edge long node)
    (hLe : short ≤ long) : Chain edge short node := by
  induction hLe with
  | refl => exact hChain
  | step _ ih => exact ih hChain.pred

theorem le_rank {rank : α → Nat} (hRank : ∀ node next, edge node next → rank next < rank node)
    {node : α} {length : Nat} (hChain : Chain edge length node) : length ≤ rank node := by
  induction hChain with
  | nil => exact Nat.zero_le _
  | cons hEdge _ ih => exact Nat.lt_of_le_of_lt ih (hRank _ _ hEdge)

end Chain

namespace DepthLe

theorem refl (node : α) : DepthLe edge node node := fun _ hChain => hChain

theorem trans {first second third : α} (hFirst : DepthLe edge first second)
    (hSecond : DepthLe edge second third) : DepthLe edge first third :=
  fun length hChain => hSecond length (hFirst length hChain)

theorem total (first second : α) : DepthLe edge first second ∨ DepthLe edge second first := by
  by_cases hFirst : DepthLe edge first second
  · exact Or.inl hFirst
  · right
    unfold DepthLe at hFirst
    push Not at hFirst
    obtain ⟨long, hLong, hNone⟩ := hFirst
    intro length hChain
    -- a chain from the second is shorter than the one that it does not match
    have hShort : length ≤ long := by
      by_contra hLonger
      exact hNone (hChain.of_le (Nat.le_of_lt (Nat.not_le.mp hLonger)))
    exact hLong.of_le hShort

end DepthLe

namespace Deepest

variable {node next : α}

theorem chain_succ (hDeepest : Deepest edge node next) {length : Nat} :
    Chain edge (length + 1) node ↔ Chain edge length next := by
  constructor
  · intro hChain
    cases hChain with
    | cons hEdge hRest => exact hDeepest.2 _ hEdge _ hRest
  · exact fun hChain => .cons hDeepest.1 hChain

theorem depthLe (hDeepest : Deepest edge node next) : DepthLe edge next node := by
  intro length hChain
  exact (Chain.cons hDeepest.1 hChain).pred

theorem not_depthLe (hDeepest : Deepest edge node next) {rank : α → Nat}
    (hRank : ∀ node next, edge node next → rank next < rank node) :
    ¬ DepthLe edge node next := by
  intro hLe
  have hAll : ∀ length, Chain edge length next := by
    intro length
    induction length with
    | zero => exact .nil next
    | succ length ih => exact hLe _ (hDeepest.chain_succ.mpr ih)
  exact absurd ((hAll (rank next + 1)).le_rank hRank) (Nat.not_succ_le_self _)

/-- Nodes above equally deep ones are equally deep. -/
theorem depthLe_of_depthLe {other below : α} (hDeepest : Deepest edge node next)
    (hOther : Deepest edge other below) (hLe : DepthLe edge next below) :
    DepthLe edge node other := by
  intro length hChain
  cases length with
  | zero => exact .nil other
  | succ length => exact hOther.chain_succ.mpr (hLe _ (hDeepest.chain_succ.mp hChain))

end Deepest

theorem exists_deepest {node : α} {nexts : List α} (hNexts : ∀ next, edge node next ↔ next ∈ nexts)
    (hSome : nexts ≠ []) : ∃ next, Deepest edge node next := by
  have hMax : ∀ items : List α, items ≠ [] →
      ∃ top ∈ items, ∀ item ∈ items, DepthLe edge item top := by
    intro items
    induction items with
    | nil => exact fun hNone => absurd rfl hNone
    | cons head tail ih =>
        intro _
        by_cases hTail : tail = []
        · subst hTail
          exact ⟨head, List.mem_cons_self, fun item hItem => by
            rw [List.mem_singleton.mp hItem]
            exact .refl head⟩
        · obtain ⟨top, hTop, hAll⟩ := ih hTail
          rcases @DepthLe.total α edge head top with hLe | hLe
          · refine ⟨top, List.mem_cons_of_mem _ hTop, fun item hItem => ?_⟩
            rcases List.mem_cons.mp hItem with rfl | hLater
            · exact hLe
            · exact hAll item hLater
          · refine ⟨head, List.mem_cons_self, fun item hItem => ?_⟩
            rcases List.mem_cons.mp hItem with rfl | hLater
            · exact .refl item
            · exact (hAll item hLater).trans hLe
  obtain ⟨top, hTop, hAll⟩ := hMax nexts hSome
  exact ⟨top, (hNexts top).mpr hTop, fun other hOther => hAll other ((hNexts other).mp hOther)⟩

/-- Nodes that lead down, each to a deepest one that follows it, with one node
of each depth. -/
structure Descent (edge : α → α → Prop) (line : List α) : Prop where
  next : ∀ node ∈ line, (∀ other, ¬ edge node other) ∨ ∃ below ∈ line, Deepest edge node below
  level : ∀ node ∈ line, ∀ other ∈ line, DepthLe edge node other → DepthLe edge other node →
    node = other

/-- A descent starts at every node of a finitely branching relation without
cycles. -/
theorem exists_descent {rank : α → Nat}
    (hRank : ∀ node next, edge node next → rank next < rank node)
    (hFinite : ∀ node, ∃ nexts : List α, ∀ next, edge node next ↔ next ∈ nexts) (node : α) :
    ∃ line, node ∈ line ∧ Descent edge line ∧ ∀ other ∈ line, DepthLe edge other node := by
  induction hTop : rank node using Nat.strongRecOn generalizing node with
  | _ top ih =>
      subst hTop
      obtain ⟨nexts, hNexts⟩ := hFinite node
      by_cases hNone : nexts = []
      · refine ⟨[node], List.mem_cons_self, ⟨fun other hOther => Or.inl ?_, ?_⟩, ?_⟩
        · rw [List.mem_singleton.mp hOther]
          intro next hEdge
          rw [hNexts, hNone] at hEdge
          cases hEdge
        · intro first hFirst second hSecond _ _
          rw [List.mem_singleton.mp hFirst, List.mem_singleton.mp hSecond]
        · intro other hOther
          rw [List.mem_singleton.mp hOther]
          exact .refl node
      · obtain ⟨next, hDeepest⟩ := exists_deepest hNexts hNone
        obtain ⟨line, hMem, hLine, hBelow⟩ := ih (rank next) (hRank _ _ hDeepest.1) next rfl
        have hStrict := hDeepest.not_depthLe hRank
        refine ⟨node :: line, List.mem_cons_self, ⟨fun other hOther => ?_, ?_⟩, ?_⟩
        · rcases List.mem_cons.mp hOther with rfl | hLater
          · exact Or.inr ⟨next, List.mem_cons_of_mem _ hMem, hDeepest⟩
          · exact (hLine.next other hLater).imp_right fun ⟨below, hBelowMem, hDown⟩ =>
              ⟨below, List.mem_cons_of_mem _ hBelowMem, hDown⟩
        · intro first hFirst second hSecond hLe hGe
          rcases List.mem_cons.mp hFirst with hEqFirst | hInFirst <;>
            rcases List.mem_cons.mp hSecond with hEqSecond | hInSecond
          · rw [hEqFirst, hEqSecond]
          · rw [hEqFirst] at hLe
            exact absurd (hLe.trans (hBelow second hInSecond)) hStrict
          · rw [hEqSecond] at hGe
            exact absurd (hGe.trans (hBelow first hInFirst)) hStrict
          · exact hLine.level first hInFirst second hInSecond hLe hGe
        · intro other hOther
          rcases List.mem_cons.mp hOther with rfl | hLater
          · exact .refl other
          · exact (hBelow other hLater).trans hDeepest.depthLe

end Depth

/-! ## Cycles -/

/-- No walk along the relation comes back. -/
def Acyclic (edge : α → α → Prop) : Prop :=
  ∀ node, ¬ Relation.TransGen edge node node

namespace Acyclic

theorem of_rank (rank : α → Nat) (hRank : ∀ node next, edge node next → rank next < rank node) :
    Acyclic edge := by
  have hWalk : ∀ node next, Relation.TransGen edge node next → rank next < rank node := by
    intro node next hWalk
    induction hWalk with
    | single hEdge => exact hRank _ _ hEdge
    | tail _ hEdge ih => exact (hRank _ _ hEdge).trans ih
  exact fun node hCycle => lt_irrefl _ (hWalk node node hCycle)

theorem eq_empty (hAcyclic : Acyclic edge) {nodes : Set α} (hFinite : nodes.Finite)
    (hNext : ∀ node ∈ nodes, ∃ next ∈ nodes, edge node next) : nodes = ∅ := by
  let after (next node : α) : Prop := Relation.TransGen edge node next
  have hOrder : IsStrictOrder α after :=
    { irrefl := hAcyclic
      trans := fun _ _ _ hFirst hSecond => hSecond.trans hFirst }
  have hFounded : nodes.WellFoundedOn after := hFinite.wellFoundedOn
  refine Set.eq_empty_of_forall_notMem fun node hNode => ?_
  refine hFounded.induction (P := fun _ => False) hNode fun node hNode ih => ?_
  obtain ⟨next, hMem, hEdge⟩ := hNext node hNode
  exact ih next hMem (.single hEdge)

end Acyclic

namespace Chain

theorem of_reflTransGen {node other : α} {length : Nat}
    (hWalk : Relation.ReflTransGen edge node other) (hChain : Chain edge length other) :
    Chain edge length node := by
  induction hWalk using Relation.ReflTransGen.head_induction_on with
  | refl => exact hChain
  | head hEdge _ ih => exact (Chain.cons hEdge ih).pred

theorem of_transGen {node other : α} {length : Nat}
    (hWalk : Relation.TransGen edge node other) (hChain : Chain edge length other) :
    Chain edge (length + 1) node := by
  obtain ⟨next, hEdge, hRest⟩ := Relation.TransGen.head'_iff.mp hWalk
  exact .cons hEdge (hChain.of_reflTransGen hRest)

/-- Chains run around a cycle as long as one likes. -/
theorem of_cycle {node : α} (hCycle : Relation.TransGen edge node node) (length : Nat) :
    Chain edge length node := by
  induction length with
  | zero => exact .nil node
  | succ length ih => exact ih.of_transGen hCycle

/-- Among finitely many nodes that follow, one has chains of every length if the node has. -/
theorem exists_next {nodes : Set α} (hFinite : nodes.Finite)
    (hInto : ∀ node next, edge node next → next ∈ nodes) {node : α}
    (hAll : ∀ length, Chain edge length node) :
    ∃ next, edge node next ∧ ∀ length, Chain edge length next := by
  by_contra hNone
  push Not at hNone
  -- the longest chain of each next node bounds the chains of this one
  choose! bound hBound using hNone
  obtain ⟨most, hMost⟩ := (hFinite.image bound).bddAbove
  cases hAll (most + 1) with
  | cons hEdge hRest =>
      refine hBound _ hEdge (hRest.of_le ?_)
      exact hMost (Set.mem_image_of_mem bound (hInto _ _ hEdge))

/-- The chains from a node are bounded exactly when it reaches no cycle. -/
theorem bounded_iff {nodes : Set α} (hFinite : nodes.Finite)
    (hInto : ∀ node next, edge node next → next ∈ nodes) (node : α) :
    (∃ length, ¬ Chain edge length node) ↔
      ∀ other, Relation.ReflTransGen edge node other → ¬ Relation.TransGen edge other other := by
  constructor
  · rintro ⟨length, hBounded⟩ other hReached hCycle
    exact hBounded ((of_cycle hCycle length).of_reflTransGen hReached)
  · intro hAcyclic
    by_contra hAll
    push Not at hAll
    -- edges between nodes that can be reached have no cycle
    let reached (first second : α) : Prop := Relation.ReflTransGen edge node first ∧ edge first second
    have hReached : Acyclic reached := by
      intro other hCycle
      obtain ⟨next, hFirst, -⟩ := Relation.TransGen.head'_iff.mp hCycle
      have hEdges : reached ≤ edge := fun _ _ hEdge => hEdge.2
      exact hAcyclic other hFirst.1 (Relation.TransGen.mono hEdges other other hCycle)
    let deep : Set α := {other | other ∈ nodes ∧ Relation.ReflTransGen edge node other ∧
      ∀ length, Chain edge length other}
    have hEmpty : deep = ∅ := by
      refine hReached.eq_empty (hFinite.subset fun other hOther => hOther.1) ?_
      rintro other ⟨-, hWalk, hDeep⟩
      obtain ⟨next, hEdge, hNext⟩ := exists_next hFinite hInto hDeep
      exact ⟨next, ⟨hInto _ _ hEdge, hWalk.tail hEdge, hNext⟩, hWalk, hEdge⟩
    obtain ⟨next, hEdge, hNext⟩ := exists_next hFinite hInto hAll
    have hMem : next ∈ deep := ⟨hInto _ _ hEdge, .single hEdge, hNext⟩
    rw [hEmpty] at hMem
    exact hMem

end Chain

end Tracecat
