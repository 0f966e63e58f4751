import Mathlib.Data.List.Chain
import Mathlib.Data.List.Nodup
import Mathlib.Order.Nat
import Tracecat.Lib.Acyclic

/-!
# Finishing orders and closed walks

An order in which every node stands after its children shows that there is no cycle, and
a walk along edges that comes back to its first node shows that there is one.  A search
with fuel that does not use it up gives the same result with more fuel.
-/

namespace Tracecat

variable {α : Type*}

/-! ## Orders -/

/-- Every node stands once, and after all of its children. -/
structure ChildrenFirst (adj : α → List α) (order : List α) : Prop where
  nodup : order.Nodup
  before : ∀ earlier node later, order = earlier ++ node :: later →
    ∀ child ∈ adj node, child ∈ earlier

namespace ChildrenFirst

variable {adj : α → List α} {order : List α}

theorem nil : ChildrenFirst adj [] where
  nodup := List.nodup_nil
  before earlier node later hSplit := absurd hSplit.symm (by simp)

theorem concat (hOrder : ChildrenFirst adj order) {node : α} (hFresh : node ∉ order)
    (hChildren : ∀ child ∈ adj node, child ∈ order) : ChildrenFirst adj (order ++ [node]) where
  nodup := List.nodup_append.mpr ⟨hOrder.nodup, List.nodup_singleton _, by
    rintro other hOther _ hNode rfl
    exact hFresh (List.mem_singleton.mp hNode ▸ hOther)⟩
  before earlier other later hSplit child hChild := by
    rcases List.eq_nil_or_concat' later with rfl | ⟨later, last, rfl⟩
    · obtain ⟨rfl, hLast⟩ := List.append_inj' hSplit rfl
      rw [← (List.cons.inj hLast).1] at hChild
      exact hChildren child hChild
    · rw [← List.cons_append, ← List.append_assoc] at hSplit
      obtain ⟨rfl, -⟩ := List.append_inj' hSplit rfl
      exact hOrder.before earlier other later rfl child hChild

theorem idxOf_lt [DecidableEq α] (hOrder : ChildrenFirst adj order) {node child : α}
    (hNode : node ∈ order) (hChild : child ∈ adj node) : order.idxOf child < order.idxOf node := by
  obtain ⟨earlier, later, rfl⟩ := List.append_of_mem hNode
  have hEarlier : child ∈ earlier := hOrder.before earlier node later rfl child hChild
  have hFresh : node ∉ earlier := by
    intro hMem
    exact (List.nodup_append.mp hOrder.nodup).2.2 node hMem node List.mem_cons_self rfl
  rw [List.idxOf_append_of_mem hEarlier, List.idxOf_append_of_notMem hFresh, List.idxOf_cons_self]
  exact Nat.lt_add_right 0 (List.idxOf_lt_length_of_mem hEarlier)

/-- An order of all nodes with children leaves no room for a cycle. -/
theorem acyclic [DecidableEq α] (hOrder : ChildrenFirst adj order)
    (hAll : ∀ node, adj node ≠ [] → node ∈ order) : Acyclic fun node child => child ∈ adj node :=
  Acyclic.of_rank (fun node => order.idxOf node) fun node _ hChild =>
    hOrder.idxOf_lt (hAll node (List.ne_nil_of_mem hChild)) hChild

end ChildrenFirst

/-! ## Closed walks -/

/-- The nodes of a walk along edges that ends where it begins. -/
structure ClosedWalk (edge : α → α → Prop) (path : List α) : Prop where
  walk : path.IsChain edge
  closed : path.head? = path.getLast?
  long : 2 ≤ path.length

theorem transGen_of_isChain {edge : α → α → Prop} {first last : α} {between : List α}
    (hWalk : (first :: (between ++ [last])).IsChain edge) : Relation.TransGen edge first last := by
  induction between generalizing first with
  | nil => exact .single (List.isChain_cons_cons.mp hWalk).1
  | cons next between ih =>
      obtain ⟨hEdge, hRest⟩ := List.isChain_cons_cons.mp hWalk
      exact .head hEdge (ih hRest)

theorem ClosedWalk.not_acyclic {edge : α → α → Prop} {path : List α}
    (hPath : ClosedWalk edge path) : ¬ Acyclic edge := by
  match path, hPath with
  | first :: second :: rest, hPath =>
      obtain ⟨between, last, hSplit⟩ :=
        (List.eq_nil_or_concat' (second :: rest)).resolve_left (List.cons_ne_nil _ _)
      rw [hSplit] at hPath
      have hClosed := hPath.closed
      rw [← List.cons_append, List.getLast?_concat] at hClosed
      obtain rfl : first = last := Option.some.inj hClosed
      exact fun hAcyclic => hAcyclic first (transGen_of_isChain hPath.walk)
  | [_], hPath => exact absurd hPath.long (by simp)
  | [], hPath => exact absurd hPath.long (by simp)

/-! ## Edges between nodes that have children -/

/-- An edge to a node that has an edge. -/
def Inner (edge : α → α → Prop) (node child : α) : Prop :=
  edge node child ∧ ∃ next, edge child next

theorem Inner.transGen {edge : α → α → Prop} {node other : α}
    (hWalk : Relation.TransGen edge node other) (hNext : ∃ next, edge other next) :
    Relation.TransGen (Inner edge) node other := by
  induction hWalk with
  | single hEdge => exact .single ⟨hEdge, hNext⟩
  | tail _ hEdge ih => exact (ih ⟨_, hEdge⟩).tail ⟨hEdge, hNext⟩

/-- Cycles only go through nodes that have children. -/
theorem Inner.acyclic_iff {edge : α → α → Prop} : Acyclic (Inner edge) ↔ Acyclic edge := by
  constructor
  · intro hInner node hCycle
    obtain ⟨next, hEdge, -⟩ := Relation.TransGen.head'_iff.mp hCycle
    exact hInner node (Inner.transGen hCycle ⟨next, hEdge⟩)
  · intro hAcyclic node hCycle
    exact hAcyclic node (Relation.TransGen.mono (fun _ _ hEdge => hEdge.1) node node hCycle)

theorem Inner.isChain {edge : α → α → Prop} {path : List α} (hWalk : path.IsChain edge)
    (hLast : ∀ last ∈ path.getLast?, ∃ next, edge last next) : path.IsChain (Inner edge) := by
  induction path with
  | nil => exact .nil
  | cons first path ih =>
      cases path with
      | nil => exact .singleton _
      | cons second path =>
          obtain ⟨hEdge, hRest⟩ := List.isChain_cons_cons.mp hWalk
          rw [List.getLast?_cons_cons] at hLast
          refine List.isChain_cons_cons.mpr ⟨⟨hEdge, ?_⟩, ih hRest hLast⟩
          cases path with
          | nil => exact hLast second rfl
          | cons third path => exact ⟨third, (List.isChain_cons_cons.mp hRest).1⟩

theorem ClosedWalk.inner {edge : α → α → Prop} {path : List α} (hPath : ClosedWalk edge path) :
    ClosedWalk (Inner edge) path where
  walk := by
    refine Inner.isChain hPath.walk fun last hLast => ?_
    match path, hPath with
    | first :: second :: rest, hPath =>
        have hSame : some first = some last := hPath.closed.trans hLast
        rw [← Option.some.inj hSame]
        exact ⟨second, (List.isChain_cons_cons.mp hPath.walk).1⟩
    | [_], hPath => exact absurd hPath.long (by simp)
    | [], hPath => exact absurd hPath.long (by simp)
  closed := hPath.closed
  long := hPath.long

/-! ## Runs with fuel -/
namespace Fuel

variable {ε : Type*} {β : Type} {out : ε}

/-- The run with more fuel goes on where the other one stops for want of it. -/
def Le (out : ε) (less more : Except ε β) : Prop :=
  less = .error out ∨ more = less

theorem Le.refl (run : Except ε β) : Le out run run := Or.inr rfl

theorem Le.bind {γ : Type} {less more : Except ε β} {next further : β → Except ε γ}
    (hRun : Le out less more) (hNext : ∀ value, Le out (next value) (further value)) :
    Le out (less >>= next) (more >>= further) := by
  rcases hRun with rfl | rfl
  · exact Or.inl rfl
  · cases more with
    | error _ => exact Or.inr rfl
    | ok value => exact hNext value

theorem Le.foldlM {α : Type*} {less more : β → α → Except ε β} (items : List α)
    (hStep : ∀ state, ∀ item ∈ items, Le out (less state item) (more state item)) (state : β) :
    Le out (items.foldlM less state) (items.foldlM more state) := by
  induction items generalizing state with
  | nil => exact .refl _
  | cons item items ih =>
      rw [List.foldlM_cons, List.foldlM_cons]
      exact (hStep state item List.mem_cons_self).bind fun next =>
        ih (fun state item hItem => hStep state item (List.mem_cons_of_mem _ hItem)) next

theorem eq_of_le {run : Nat → Except ε β} (hRun : ∀ fuel, Le out (run fuel) (run (fuel + 1)))
    {fuel : Nat} (hEnds : run fuel ≠ .error out) {more : Nat} (hMore : fuel ≤ more) :
    run more = run fuel := by
  induction more, hMore using Nat.le_induction with
  | base => rfl
  | succ more _ ih =>
      rcases hRun more with hOut | hSame
      · exact absurd (ih.symm.trans hOut) hEnds
      · rw [hSame, ih]

end Fuel

end Tracecat
