import Mathlib.Data.Finset.Card
import Tracecat.Lib.FinishOrder
import Tracecat.Sync.PresetOrder

/-!
# Cycles and orders of agent presets

The iterative search reports a closed walk exactly when the subagent references have a
cycle, and the recursive one orders the presets of a batch exactly when they have none.
-/

namespace Tracecat
namespace Sync

open Relation (TransGen)

/-! ## One turn of the search -/

section NextChild

variable {visited : List String} {onStack : List (String × Nat)} {children rest : List String}
  {child : String} {depth : Nat}

theorem nextChild_cycle (hTurn : nextChild visited onStack children = .cycle child depth) :
    child ∈ children ∧ onStack.lookup child = some depth := by
  induction children with
  | nil => cases hTurn
  | cons other children ih =>
      rw [nextChild] at hTurn
      split at hTurn
      · next found hFound =>
          obtain ⟨rfl, rfl⟩ := Turn.cycle.inj hTurn
          exact ⟨List.mem_cons_self, hFound⟩
      · split at hTurn
        · exact (ih hTurn).imp_left (List.mem_cons_of_mem _)
        · cases hTurn

theorem nextChild_push (hTurn : nextChild visited onStack children = .push child rest) :
    ∃ skipped, children = skipped ++ child :: rest ∧ (∀ other ∈ skipped, other ∈ visited) ∧
      child ∉ visited ∧ onStack.lookup child = none := by
  induction children with
  | nil => cases hTurn
  | cons other children ih =>
      rw [nextChild] at hTurn
      split at hTurn
      · cases hTurn
      · next hFresh =>
          split at hTurn
          · next hVisited =>
              obtain ⟨skipped, rfl, hSkipped, hRest⟩ := ih hTurn
              exact ⟨other :: skipped, rfl, List.forall_mem_cons.mpr ⟨hVisited, hSkipped⟩, hRest⟩
          · next hVisited =>
              obtain ⟨rfl, rfl⟩ := Turn.push.inj hTurn
              exact ⟨[], rfl, by simp, hVisited, hFresh⟩

theorem nextChild_exhausted (hTurn : nextChild visited onStack children = .exhausted) :
    ∀ child ∈ children, child ∈ visited := by
  induction children with
  | nil => simp
  | cons other children ih =>
      rw [nextChild] at hTurn
      split at hTurn
      · cases hTurn
      · split at hTurn
        · next hVisited => exact List.forall_mem_cons.mpr ⟨hVisited, ih hTurn⟩
        · cases hTurn

end NextChild

/-! ## The invariant of the search -/

theorem getElem?_concat_iff {α : Type} {items : List α} {last item : α} {index : Nat} :
    (items ++ [last])[index]? = some item ↔
      items[index]? = some item ∨ (index = items.length ∧ item = last) := by
  rcases Nat.lt_trichotomy index items.length with hLess | rfl | hMore
  · rw [List.getElem?_append_left hLess]
    simp [hLess.ne]
  · simp [eq_comm]
  · rw [List.getElem?_eq_none (by simp; omega), List.getElem?_eq_none hMore.le]
    simp [hMore.ne']

def Edge (adjacency : Graph) (node child : String) : Prop := child ∈ childrenOf adjacency node

/-- Each child of a frame is visited, or its iterator has it, or it is the node above. -/
def Pending (adjacency : Graph) (visited : List String) : Option String → List Frame → Prop
  | _, [] => True
  | above, (node, rest) :: below =>
      (∀ child ∈ rest, Edge adjacency node child) ∧
        (∀ child, Edge adjacency node child → child ∈ visited ∨ child ∈ rest ∨ some child = above) ∧
        Pending adjacency visited (some node) below

def Search.path (search : Search) : List String := search.stack.map Prod.fst

structure Search.Inv (adjacency : Graph) (search : Search) : Prop where
  order : ChildrenFirst (childrenOf adjacency) search.visited
  nodup : search.path.Nodup
  fresh : ∀ node ∈ search.path, node ∉ search.visited
  walk : search.path.reverse.IsChain (Edge adjacency)
  depths : ∀ node depth, search.onStack.lookup node = some depth ↔
    search.path.reverse[depth]? = some node
  pending : Pending adjacency search.visited none search.stack

theorem Pending.mono {adjacency : Graph} {visited more : List String} {above : Option String}
    {stack : List Frame} (hMore : ∀ node ∈ visited, node ∈ more)
    (hPending : Pending adjacency visited above stack) : Pending adjacency more above stack := by
  induction stack generalizing above with
  | nil => trivial
  | cons frame stack ih =>
      obtain ⟨hEdges, hChildren, hBelow⟩ := hPending
      exact ⟨hEdges, fun child hChild => (hChildren child hChild).imp_left (hMore child),
        ih hBelow⟩

theorem Pending.finish {adjacency : Graph} {visited : List String} {node : String}
    {stack : List Frame} (hPending : Pending adjacency visited (some node) stack) :
    Pending adjacency (visited ++ [node]) none stack := by
  cases stack with
  | nil => trivial
  | cons frame stack =>
      obtain ⟨hEdges, hChildren, hBelow⟩ := hPending
      refine ⟨hEdges, fun child hChild => ?_, hBelow.mono fun _ => List.mem_append_left _⟩
      rcases hChildren child hChild with hVisited | hRest | hAbove
      · exact Or.inl (List.mem_append_left _ hVisited)
      · exact Or.inr (Or.inl hRest)
      · exact Or.inl (List.mem_append_right _ (List.mem_singleton.mpr (Option.some.inj hAbove)))

namespace Search.Inv

variable {adjacency : Graph} {visited : List String} {onStack : List (String × Nat)}
  {node child : String} {children rest : List String} {below : List Frame} {depth : Nat}

theorem start (hOrder : ChildrenFirst (childrenOf adjacency) visited) {root : String}
    (hRoot : root ∉ visited) :
    Search.Inv adjacency ⟨visited, [(root, 0)], [(root, childrenOf adjacency root)]⟩ where
  order := hOrder
  nodup := List.nodup_singleton _
  fresh := fun node hNode => List.mem_singleton.mp hNode ▸ hRoot
  walk := .singleton _
  depths := by
    intro node depth
    show List.lookup node [(root, 0)] = some depth ↔ [root][depth]? = some node
    rw [Assoc.lookup_cons_eq_ite, List.lookup_nil]
    cases depth with
    | zero => by_cases hNode : node = root <;> simp [hNode, Ne.symm]
    | succ depth => by_cases hNode : node = root <;> simp [hNode]
  pending := ⟨fun _ hChild => hChild, fun _ hChild => Or.inr (Or.inl hChild), trivial⟩

variable (hInv : Search.Inv adjacency ⟨visited, onStack, (node, children) :: below⟩)
include hInv

theorem closedWalk (hTurn : nextChild visited onStack children = .cycle child depth) :
    ClosedWalk (Edge adjacency)
      ((((node, children) :: below).reverse.drop depth).map Prod.fst ++ [child]) := by
  obtain ⟨hChild, hDepth⟩ := nextChild_cycle hTurn
  have hEdge : Edge adjacency node child := hInv.pending.1 child hChild
  have hNode := (hInv.depths child depth).mp hDepth
  have hWalk := hInv.walk
  have hPath : Search.path ⟨visited, onStack, (node, children) :: below⟩ =
      node :: below.map Prod.fst := rfl
  rw [hPath, List.reverse_cons] at hNode hWalk
  have hBound : depth ≤ (below.map Prod.fst).reverse.length := by
    have hLength := (List.getElem?_eq_some_iff.mp hNode).1
    rw [List.length_append, List.length_singleton] at hLength
    omega
  have hDrop : (((node, children) :: below).reverse.drop depth).map Prod.fst =
      (below.map Prod.fst).reverse.drop depth ++ [node] := by
    rw [List.map_drop, List.map_reverse, List.map_cons, List.reverse_cons,
      List.drop_append_of_le_length hBound]
  rw [hDrop]
  constructor
  · have hDropped := hWalk.drop depth
    rw [List.drop_append_of_le_length hBound] at hDropped
    refine hDropped.append (.singleton child) ?_
    intro last hLast first hFirst
    rw [List.getLast?_concat] at hLast
    rw [← Option.some.inj hLast, ← Option.some.inj hFirst]
    exact hEdge
  · have hHead : ((below.map Prod.fst).reverse.drop depth ++ [node]).head? = some child := by
      rw [← List.drop_append_of_le_length hBound, List.head?_drop]
      exact hNode
    rw [List.getLast?_concat, List.head?_append_of_ne_nil _ (by simp), hHead]
  · rw [List.length_append, List.length_append, List.length_singleton, List.length_singleton]
    omega

theorem push (hTurn : nextChild visited onStack children = .push child rest) :
    Search.Inv adjacency ⟨visited, Assoc.set child (below.length + 1) onStack,
      (child, childrenOf adjacency child) :: (node, rest) :: below⟩ := by
  obtain ⟨skipped, rfl, hSkipped, hVisited, hFresh⟩ := nextChild_push hTurn
  obtain ⟨hEdges, hChildren, hBelow⟩ := hInv.pending
  have hPath : child ∉ node :: below.map Prod.fst := by
    intro hMem
    obtain ⟨depth, hDepth⟩ := List.mem_iff_getElem?.mp (List.mem_reverse.mpr hMem)
    rw [(hInv.depths child depth).mpr hDepth] at hFresh
    cases hFresh
  constructor
  · exact hInv.order
  · exact List.nodup_cons.mpr ⟨hPath, hInv.nodup⟩
  · exact List.forall_mem_cons.mpr ⟨hVisited, hInv.fresh⟩
  · show (child :: node :: below.map Prod.fst).reverse.IsChain _
    rw [List.reverse_cons]
    refine hInv.walk.append (.singleton child) ?_
    intro last hLast first hFirst
    have hNode : (node :: below.map Prod.fst).reverse.getLast? = some last := hLast
    rw [List.reverse_cons, List.getLast?_concat] at hNode
    rw [← Option.some.inj hNode, ← Option.some.inj hFirst]
    exact hEdges child (List.mem_append_right _ List.mem_cons_self)
  · intro other depth
    have hOld : onStack.lookup other = some depth ↔
        (node :: below.map Prod.fst).reverse[depth]? = some other := hInv.depths other depth
    show (Assoc.set child (below.length + 1) onStack).lookup other = some depth ↔
      (child :: node :: below.map Prod.fst).reverse[depth]? = some other
    rw [Assoc.lookup_set, List.reverse_cons, getElem?_concat_iff, ← hOld]
    have hLength : (node :: below.map Prod.fst).reverse.length = below.length + 1 := by simp
    rw [hLength]
    by_cases hOther : other = child
    · rw [if_pos hOther, hOther, hFresh]
      simp [eq_comm]
    · rw [if_neg hOther]
      simp [hOther]
  · refine ⟨fun _ hChild => hChild, fun _ hChild => Or.inr (Or.inl hChild), ?_⟩
    refine ⟨fun other hOther => ?_, fun other hOther => ?_, hBelow⟩
    · exact hEdges other (List.mem_append_right _ (List.mem_cons_of_mem _ hOther))
    · rcases hChildren other hOther with hDone | hLeft | hAbove
      · exact Or.inl hDone
      · rcases List.mem_append.mp hLeft with hSkip | hRest
        · exact Or.inl (hSkipped other hSkip)
        · rcases List.mem_cons.mp hRest with rfl | hRest
          · exact Or.inr (Or.inr rfl)
          · exact Or.inr (Or.inl hRest)
      · cases hAbove

theorem pop (hTurn : nextChild visited onStack children = .exhausted) :
    Search.Inv adjacency ⟨visited ++ [node], onStack.filter fun entry => entry.1 ≠ node, below⟩ := by
  obtain ⟨-, hChildren, hBelow⟩ := hInv.pending
  have hDone := nextChild_exhausted hTurn
  obtain ⟨hNode, hNodup⟩ := List.nodup_cons.mp hInv.nodup
  constructor
  · refine hInv.order.concat (hInv.fresh node List.mem_cons_self) fun child hChild => ?_
    rcases hChildren child hChild with hVisited | hLeft | hAbove
    · exact hVisited
    · exact hDone child hLeft
    · cases hAbove
  · exact hNodup
  · intro other hOther hVisited
    rcases List.mem_append.mp hVisited with hOld | hNew
    · exact hInv.fresh other (List.mem_cons_of_mem _ hOther) hOld
    · exact hNode (List.mem_singleton.mp hNew ▸ hOther)
  · have hWalk : (node :: below.map Prod.fst).reverse.IsChain (Edge adjacency) := hInv.walk
    rw [List.reverse_cons] at hWalk
    exact hWalk.left_of_append
  · intro other depth
    have hOld := hInv.depths other depth
    have hPath : Search.path ⟨visited, onStack, (node, children) :: below⟩ =
      node :: below.map Prod.fst := rfl
    rw [hPath, List.reverse_cons, getElem?_concat_iff] at hOld
    show (onStack.filter fun entry => entry.1 ≠ node).lookup other = some depth ↔
      (below.map Prod.fst).reverse[depth]? = some other
    rw [Assoc.lookup_filter_key (fun key => decide (key ≠ node)) onStack other]
    by_cases hOther : other = node
    · have hGone : (below.map Prod.fst).reverse[depth]? ≠ some other := by
        intro hFound
        exact hNode (hOther ▸ List.mem_reverse.mp (List.mem_of_getElem? hFound))
      rw [if_neg (by simp [hOther])]
      exact ⟨fun hNone => absurd hNone (by simp), fun hFound => absurd hFound hGone⟩
    · simp only [hOther, ne_eq, not_false_eq_true, decide_true, if_true, hOld, and_false, or_false]
  · exact hBelow.finish

end Search.Inv

/-! ## Runs of the search -/

/-- What a search of a root ends with: more visited nodes, or a closed walk. -/
def SearchResult (adjacency : Graph) (seen : List String) : Except Stop (List String) → Prop
  | .ok visited => ChildrenFirst (childrenOf adjacency) visited ∧ ∀ node ∈ seen, node ∈ visited
  | .error (.cycle path) => ClosedWalk (Edge adjacency) path
  | .error .outOfFuel => False

theorem SearchResult.mono {adjacency : Graph} {seen fewer : List String}
    {result : Except Stop (List String)} (hFewer : ∀ node ∈ fewer, node ∈ seen)
    (hResult : SearchResult adjacency seen result) : SearchResult adjacency fewer result := by
  match result, hResult with
  | .ok _, ⟨hOrder, hSeen⟩ => exact ⟨hOrder, fun node hNode => hSeen node (hFewer node hNode)⟩
  | .error (.cycle _), hPath => exact hPath

/-- A set of nodes that edges do not leave. -/
def EdgeClosed (adjacency : Graph) (nodes : Finset String) : Prop :=
  ∀ node ∈ nodes, ∀ child, Edge adjacency node child → child ∈ nodes

/-- The path goes through nodes that are not visited, each once. -/
theorem Search.Inv.length_le {adjacency : Graph} {search : Search} {nodes : Finset String}
    (hInv : Search.Inv adjacency search) (hNodes : ∀ node ∈ search.path, node ∈ nodes) :
    search.stack.length ≤ (nodes \ search.visited.toFinset).card := by
  have hSubset : search.path.toFinset ⊆ nodes \ search.visited.toFinset := by
    intro node hNode
    rw [List.mem_toFinset] at hNode
    rw [Finset.mem_sdiff, List.mem_toFinset]
    exact ⟨hNodes node hNode, hInv.fresh node hNode⟩
  have hCard := Finset.card_le_card hSubset
  rw [List.toFinset_card_of_nodup hInv.nodup] at hCard
  exact (List.length_map Prod.fst).symm.trans_le hCard

theorem Search.Inv.left_pop {adjacency : Graph} {visited : List String}
    {onStack : List (String × Nat)} {frame : Frame} {below : List Frame} {nodes : Finset String}
    (hInv : Search.Inv adjacency ⟨visited, onStack, frame :: below⟩) (hNode : frame.1 ∈ nodes) :
    (nodes \ (visited ++ [frame.1]).toFinset).card + 1 = (nodes \ visited.toFinset).card := by
  have hLeft : nodes \ (visited ++ [frame.1]).toFinset =
      (nodes \ visited.toFinset).erase frame.1 := by
    ext other
    simp only [Finset.mem_sdiff, List.mem_toFinset, List.mem_append, List.mem_singleton,
      Finset.mem_erase, not_or]
    exact ⟨fun h => ⟨h.2.2, h.1, h.2.1⟩, fun h => ⟨h.2.1, h.2.2, h.1⟩⟩
  rw [hLeft]
  apply Finset.card_erase_add_one
  rw [Finset.mem_sdiff, List.mem_toFinset]
  exact ⟨hNode, hInv.fresh frame.1 List.mem_cons_self⟩

theorem whileStack_cons (adjacency : Graph) (fuel : Nat) (visited : List String)
    (onStack : List (String × Nat)) (node : String) (children : List String) (below : List Frame) :
    whileStack adjacency (fuel + 1) ⟨visited, onStack, (node, children) :: below⟩ =
      match nextChild visited onStack children with
      | .cycle child depth =>
          .error (.cycle ((((node, children) :: below).reverse.drop depth).map Prod.fst ++ [child]))
      | .push child rest =>
          whileStack adjacency fuel ⟨visited, Assoc.set child (below.length + 1) onStack,
            (child, childrenOf adjacency child) :: (node, rest) :: below⟩
      | .exhausted =>
          whileStack adjacency fuel
            ⟨visited ++ [node], onStack.filter fun entry => entry.1 ≠ node, below⟩ := rfl

/-- A pushed node is on the path once and is popped once, so twice as many turns as there
are nodes left suffice. -/
theorem whileStack_result {adjacency : Graph} {nodes : Finset String}
    (hClosed : EdgeClosed adjacency nodes) (fuel : Nat) {search : Search}
    (hInv : Search.Inv adjacency search) (hNodes : ∀ node ∈ search.path, node ∈ nodes)
    (hFuel : 2 * (nodes \ search.visited.toFinset).card < fuel + search.stack.length) :
    SearchResult adjacency (search.visited ++ search.path) (whileStack adjacency fuel search) := by
  induction fuel generalizing search with
  | zero =>
      have hLength := hInv.length_le hNodes
      omega
  | succ fuel ih =>
      obtain ⟨visited, onStack, stack⟩ := search
      cases stack with
      | nil => exact ⟨hInv.order, fun node hNode => by simpa [Search.path] using hNode⟩
      | cons frame below =>
          obtain ⟨node, children⟩ := frame
          have hTop : node ∈ nodes := hNodes node List.mem_cons_self
          rw [whileStack_cons]
          cases hTurn : nextChild visited onStack children with
          | cycle child depth => exact hInv.closedWalk hTurn
          | push child rest =>
              obtain ⟨skipped, hChildren, -⟩ := nextChild_push hTurn
              have hEdge : Edge adjacency node child :=
                hInv.pending.1 child (hChildren ▸ List.mem_append_right _ List.mem_cons_self)
              refine (ih (hInv.push hTurn) ?_ ?_).mono fun other hOther => ?_
              · exact List.forall_mem_cons.mpr ⟨hClosed node hTop child hEdge, hNodes⟩
              · simp only [List.length_cons] at hFuel ⊢
                omega
              · exact (List.mem_append.mp hOther).elim (List.mem_append_left _)
                  fun hPath => List.mem_append_right _ (List.mem_cons_of_mem _ hPath)
          | exhausted =>
              refine (ih (hInv.pop hTurn) ?_ ?_).mono fun other hOther => ?_
              · exact fun other hOther => hNodes other (List.mem_cons_of_mem _ hOther)
              · have hLeft := hInv.left_pop hTop
                dsimp only [List.length_cons] at hFuel hLeft ⊢
                omega
              · show other ∈ (visited ++ [node]) ++ below.map Prod.fst
                rw [List.append_assoc]
                exact hOther

theorem searchRoot_result {adjacency : Graph} {nodes : Finset String}
    (hClosed : EdgeClosed adjacency nodes) {fuel : Nat} (hFuel : 2 * nodes.card ≤ fuel)
    {visited : List String} (hOrder : ChildrenFirst (childrenOf adjacency) visited)
    {root : String} (hRoot : root ∈ nodes) :
    SearchResult adjacency (visited ++ [root]) (searchRoot adjacency fuel visited root) := by
  unfold searchRoot
  split
  · next hVisited =>
      refine ⟨hOrder, fun node hNode => ?_⟩
      rcases List.mem_append.mp hNode with hOld | hNew
      · exact hOld
      · exact List.mem_singleton.mp hNew ▸ hVisited
  · next hVisited =>
      refine whileStack_result hClosed fuel (.start hOrder hVisited) ?_ ?_
      · intro node hNode
        exact List.mem_singleton.mp hNode ▸ hRoot
      · have hCard : (nodes \ visited.toFinset).card ≤ nodes.card :=
          Finset.card_le_card Finset.sdiff_subset
        show 2 * (nodes \ visited.toFinset).card < fuel + 1
        omega

theorem searchRoots_result {adjacency : Graph} {nodes : Finset String}
    (hClosed : EdgeClosed adjacency nodes) {fuel : Nat} (hFuel : 2 * nodes.card ≤ fuel)
    (roots : List String) (hRoots : ∀ root ∈ roots, root ∈ nodes) {visited : List String}
    (hOrder : ChildrenFirst (childrenOf adjacency) visited) :
    SearchResult adjacency (visited ++ roots) (roots.foldlM (searchRoot adjacency fuel) visited) := by
  induction roots generalizing visited with
  | nil => exact ⟨hOrder, fun node hNode => by simpa using hNode⟩
  | cons root roots ih =>
      obtain ⟨hRoot, hRest⟩ := List.forall_mem_cons.mp hRoots
      have hFirst := searchRoot_result hClosed hFuel hOrder hRoot
      rw [List.foldlM_cons]
      match searchRoot adjacency fuel visited root, hFirst with
      | .error (.cycle path), hPath => exact hPath
      | .ok more, ⟨hMore, hSeen⟩ =>
          refine (ih hRest hMore).mono fun node hNode => ?_
          rw [List.append_cons, List.mem_append] at hNode
          exact List.mem_append.mpr (hNode.imp_left (hSeen node))

/-! ### More fuel -/

theorem whileStack_le (adjacency : Graph) (fuel : Nat) (search : Search) :
    Fuel.Le .outOfFuel (whileStack adjacency fuel search)
      (whileStack adjacency (fuel + 1) search) := by
  induction fuel generalizing search with
  | zero => exact Or.inl rfl
  | succ fuel ih =>
      rw [whileStack, whileStack.eq_def adjacency (fuel + 1 + 1)]
      dsimp only
      cases search.stack with
      | nil => exact .refl _
      | cons frame below =>
          dsimp only
          cases nextChild search.visited search.onStack frame.2 with
          | cycle child depth => exact .refl _
          | push child rest => exact ih _
          | exhausted => exact ih _

theorem searchRoots_le (adjacency : Graph) (roots : List String) (fuel : Nat) :
    Fuel.Le .outOfFuel (roots.foldlM (searchRoot adjacency fuel) [])
      (roots.foldlM (searchRoot adjacency (fuel + 1)) []) := by
  refine Fuel.Le.foldlM roots (fun visited root _ => ?_) []
  unfold searchRoot
  split
  · exact .refl _
  · exact whileStack_le adjacency fuel _

/-! ### The cycle of a graph -/

def Graph.nodes (graph : Graph) : Finset String :=
  (graph.map Prod.fst ++ graph.flatMap Prod.snd).toFinset

theorem edge_adjacencyOf {graph : Graph} {node child : String} :
    Edge (adjacencyOf graph) node child ↔ ∃ children, graph.lookup node = some children ∧
      child ∈ children := by
  have hLookup : (adjacencyOf graph).lookup node =
      (graph.lookup node).map fun children => children.insertionSort (· ≤ ·) := by
    unfold adjacencyOf
    induction graph with
    | nil => rfl
    | cons entry graph ih =>
        rw [List.map_cons, Assoc.lookup_cons_eq_ite, Assoc.lookup_cons_eq_ite, ih]
        split <;> rfl
  unfold Edge childrenOf
  rw [hLookup]
  cases graph.lookup node with
  | none => simp
  | some children => simp

theorem mem_keys_of_edge {graph : Graph} {node child : String}
    (hEdge : Edge (adjacencyOf graph) node child) : node ∈ graph.map Prod.fst := by
  obtain ⟨children, hLookup, -⟩ := edge_adjacencyOf.mp hEdge
  exact Assoc.lookup_isSome_iff.mp (Option.isSome_iff_exists.mpr ⟨_, hLookup⟩)

theorem Graph.edgeClosed (graph : Graph) : EdgeClosed (adjacencyOf graph) graph.nodes := by
  intro node _ child hEdge
  obtain ⟨children, hLookup, hChild⟩ := edge_adjacencyOf.mp hEdge
  rw [Graph.nodes, List.mem_toFinset]
  exact List.mem_append_right _
    (List.mem_flatMap.mpr ⟨(node, children), Assoc.mem_of_lookup hLookup, hChild⟩)

/-- `_find_cycle` returns: nothing where there is no cycle, and else a closed walk. -/
theorem findCycle_spec (graph : Graph) :
    ∃ path, (∀ fuel, 2 * graph.nodes.card ≤ fuel → findCycle fuel graph = some path) ∧
      (path = [] → Acyclic (Edge (adjacencyOf graph))) ∧
      (path ≠ [] → ClosedWalk (Edge (adjacencyOf graph)) path) := by
  let roots := (graph.map Prod.fst).insertionSort (· ≤ ·)
  let search (fuel : Nat) := roots.foldlM (searchRoot (adjacencyOf graph) fuel) []
  have hRoot : ∀ root, root ∈ roots ↔ root ∈ graph.map Prod.fst := fun root =>
    List.mem_insertionSort _
  have hRoots : ∀ root ∈ roots, root ∈ graph.nodes := by
    intro root hMem
    rw [Graph.nodes, List.mem_toFinset]
    exact List.mem_append_left _ ((hRoot root).mp hMem)
  have hResult : SearchResult (adjacencyOf graph) ([] ++ roots) (search (2 * graph.nodes.card)) :=
    searchRoots_result graph.edgeClosed (Nat.le_refl _) roots hRoots .nil
  have hSame : ∀ fuel, 2 * graph.nodes.card ≤ fuel → search fuel = search (2 * graph.nodes.card) := by
    refine fun fuel hFuel => Fuel.eq_of_le (searchRoots_le _ roots) (fun hOut => ?_) hFuel
    rw [show search (2 * graph.nodes.card) = .error .outOfFuel from hOut] at hResult
    exact hResult
  have hFind : ∀ fuel, findCycle fuel graph = match search fuel with
      | .ok _ => some []
      | .error (.cycle path) => some path
      | .error .outOfFuel => none := fun fuel => rfl
  obtain ⟨result, hSearch⟩ : ∃ result, search (2 * graph.nodes.card) = result := ⟨_, rfl⟩
  rw [hSearch] at hResult
  match result, hResult, hSearch with
  | .ok visited, ⟨hOrder, hSeen⟩, hSearch =>
      refine ⟨[], fun fuel hFuel => by rw [hFind, hSame fuel hFuel, hSearch], fun _ => ?_, ?_⟩
      · refine hOrder.acyclic fun node hChildren => hSeen node ?_
        obtain ⟨child, hChild⟩ := List.exists_mem_of_ne_nil _ hChildren
        exact (hRoot node).mpr (mem_keys_of_edge hChild)
      · exact fun hNonempty => absurd rfl hNonempty
  | .error (.cycle path), hPath, hSearch =>
      refine ⟨path, fun fuel hFuel => by rw [hFind, hSame fuel hFuel, hSearch], fun hNil => ?_,
        fun _ => hPath⟩
      exact absurd hPath.long (by rw [hNil]; simp)

/-! ## References of presets -/

variable {presets : Presets}

/-- Some version of the one preset names the other as a subagent; both are in the batch. -/
def Presets.References (presets : Presets) (slug target : String) : Prop :=
  ∃ entry ∈ presets.entries, ∃ other ∈ presets.entries, entry.2.slug = slug ∧
    other.2.slug = target ∧
    ∃ version ∈ entry.2.versions, ∃ subagent ∈ version.2.subagents, subagent.slug = target

/-- The same by source ids. -/
def Presets.DependsOn (presets : Presets) (sourceId child : String) : Prop :=
  ∃ spec childSpec, (sourceId, spec) ∈ presets.entries ∧ (child, childSpec) ∈ presets.entries ∧
    ∃ version ∈ spec.versions, ∃ subagent ∈ version.2.subagents, subagent.slug = childSpec.slug

/-- No two presets have one slug. -/
def Presets.UniqueSlugs (presets : Presets) : Prop :=
  (presets.entries.map fun entry => entry.2.slug).Nodup

theorem mem_sorted {entry : String × PresetSpec} :
    entry ∈ presets.sorted ↔ entry ∈ presets.entries := List.mem_insertionSort _

theorem Presets.UniqueSlugs.sorted (hUnique : presets.UniqueSlugs) :
    (presets.sorted.map fun entry => entry.2.slug).Nodup :=
  ((List.perm_insertionSort _ presets.entries).map _).nodup_iff.mpr hUnique

theorem mem_slugs {preset : PresetSpec} {slug : String} :
    slug ∈ preset.subagentRefs.map SubagentRef.slug ↔
      ∃ version ∈ preset.versions, ∃ subagent ∈ version.2.subagents, subagent.slug = slug := by
  simp only [PresetSpec.subagentRefs, List.mem_map, List.mem_flatMap]
  constructor
  · rintro ⟨subagent, ⟨version, hVersion, hSubagent⟩, hSlug⟩
    exact ⟨version, hVersion, subagent, hSubagent, hSlug⟩
  · rintro ⟨version, hVersion, subagent, hSubagent, hSlug⟩
    exact ⟨subagent, ⟨version, hVersion, hSubagent⟩, hSlug⟩

section

variable (hUnique : presets.UniqueSlugs)
include hUnique

theorem edge_presetGraph {slug target : String} :
    Edge (adjacencyOf presets.presetGraph) slug target ↔ ∃ entry ∈ presets.entries,
      entry.2.slug = slug ∧ target ∈ entry.2.subagentRefs.map SubagentRef.slug := by
  have hNodup : ((presets.sorted.map fun entry =>
      (entry.2.slug, entry.2.subagentRefs.map SubagentRef.slug)).map Prod.fst).Nodup := by
    rw [List.map_map]
    exact hUnique.sorted
  rw [edge_adjacencyOf, Presets.presetGraph, Assoc.ofPairs_eq_self hNodup]
  constructor
  · rintro ⟨targets, hLookup, hTarget⟩
    obtain ⟨entry, hEntry, hPair⟩ := List.mem_map.mp (Assoc.mem_of_lookup hLookup)
    obtain ⟨hSlug, hTargets⟩ := Prod.mk.inj hPair
    exact ⟨entry, mem_sorted.mp hEntry, hSlug, hTargets ▸ hTarget⟩
  · rintro ⟨entry, hEntry, rfl, hTarget⟩
    refine ⟨_, (Assoc.lookup_eq_some_iff hNodup).mpr ?_, hTarget⟩
    exact List.mem_map_of_mem (mem_sorted.mpr hEntry)

theorem references_of_inner {slug target : String}
    (hInner : Inner (Edge (adjacencyOf presets.presetGraph)) slug target) :
    presets.References slug target := by
  obtain ⟨hEdge, next, hNext⟩ := hInner
  obtain ⟨entry, hEntry, hSlug, hTarget⟩ := (edge_presetGraph hUnique).mp hEdge
  obtain ⟨other, hOther, hOtherSlug, -⟩ := (edge_presetGraph hUnique).mp hNext
  exact ⟨entry, hEntry, other, hOther, hSlug, hOtherSlug, mem_slugs.mp hTarget⟩

/-- Nodes outside of the batch have no edges, so they are on no cycle. -/
theorem acyclic_references :
    Acyclic presets.References ↔ Acyclic (Edge (adjacencyOf presets.presetGraph)) := by
  constructor
  · intro hAcyclic
    refine Inner.acyclic_iff.mp fun slug hCycle => hAcyclic slug ?_
    exact Relation.TransGen.mono (fun _ _ => references_of_inner hUnique) slug slug hCycle
  · intro hAcyclic slug hCycle
    refine hAcyclic slug (Relation.TransGen.mono ?_ slug slug hCycle)
    rintro node target ⟨entry, hEntry, other, hOther, hSlug, -, hTarget⟩
    exact (edge_presetGraph hUnique).mpr ⟨entry, hEntry, hSlug, mem_slugs.mpr hTarget⟩

/-! ### Slugs and source ids -/

theorem slugToSourceId_ok :
    slugToSourceId presets = .ok (presets.sorted.map fun entry => (entry.2.slug, entry.1)) := by
  have hFold (entries : List (String × PresetSpec)) (slugs : List (String × String))
      (hFresh : (slugs.map Prod.fst ++ entries.map fun entry => entry.2.slug).Nodup) :
      entries.foldlM (fun slugs entry =>
        if entry.2.slug ∈ slugs.map Prod.fst then .error (.uniqueSlugs entry.2.slug)
        else .ok (Assoc.set entry.2.slug entry.1 slugs)) slugs =
      (.ok (slugs ++ entries.map fun entry => (entry.2.slug, entry.1)) :
        Except OrderError (List (String × String))) := by
    induction entries generalizing slugs with
    | nil => rw [List.map_nil, List.append_nil]; rfl
    | cons entry entries ih =>
        have hNew : entry.2.slug ∉ slugs.map Prod.fst := by
          intro hMem
          exact (List.nodup_append.mp hFresh).2.2 _ hMem _ List.mem_cons_self rfl
        rw [List.foldlM_cons, if_neg hNew, Assoc.set_of_notMem hNew]
        have hRest := ih (slugs ++ [(entry.2.slug, entry.1)]) (by
          rw [List.map_append, List.append_assoc]
          exact hFresh)
        rw [List.append_assoc] at hRest
        exact hRest
  exact hFold presets.sorted [] hUnique.sorted

theorem lookup_slugs {slug sourceId : String} :
    (presets.sorted.map fun entry => (entry.2.slug, entry.1)).lookup slug = some sourceId ↔
      ∃ spec, (sourceId, spec) ∈ presets.entries ∧ spec.slug = slug := by
  have hNodup : ((presets.sorted.map fun entry => (entry.2.slug, entry.1)).map Prod.fst).Nodup := by
    rw [List.map_map]
    exact hUnique.sorted
  rw [Assoc.lookup_eq_some_iff hNodup, List.mem_map]
  constructor
  · rintro ⟨⟨_, spec⟩, hEntry, hPair⟩
    obtain ⟨hSlug, rfl⟩ := Prod.mk.inj hPair
    exact ⟨spec, mem_sorted.mp hEntry, hSlug⟩
  · rintro ⟨spec, hEntry, rfl⟩
    exact ⟨(sourceId, spec), mem_sorted.mpr hEntry, rfl⟩

/-- A cycle of slugs is a cycle of source ids. -/
theorem acyclic_dependsOn :
    Acyclic presets.DependsOn ↔ Acyclic presets.References := by
  let slugs := presets.sorted.map fun entry => (entry.2.slug, entry.1)
  constructor
  · intro hAcyclic slug hCycle
    have hLift := hCycle.lift (p := presets.DependsOn) (fun slug => (slugs.lookup slug).getD "") ?_
    · exact hAcyclic _ hLift
    · rintro node target ⟨entry, hEntry, other, hOther, hSlug, hTarget, hRef⟩
      have hNode : slugs.lookup node = some entry.1 :=
        (lookup_slugs hUnique).mpr ⟨entry.2, hEntry, hSlug⟩
      have hNext : slugs.lookup target = some other.1 :=
        (lookup_slugs hUnique).mpr ⟨other.2, hOther, hTarget⟩
      show presets.DependsOn ((slugs.lookup node).getD "") ((slugs.lookup target).getD "")
      rw [hNode, hNext]
      rw [← hTarget] at hRef
      exact ⟨entry.2, other.2, hEntry, hOther, hRef⟩
  · intro hAcyclic sourceId hCycle
    have hLift := hCycle.lift (p := presets.References) (fun sourceId =>
      ((presets.entries.lookup sourceId).map PresetSpec.slug).getD "") ?_
    · exact hAcyclic _ hLift
    · rintro node child ⟨spec, childSpec, hEntry, hChild, hRef⟩
      show presets.References (((presets.entries.lookup node).map PresetSpec.slug).getD "")
        (((presets.entries.lookup child).map PresetSpec.slug).getD "")
      rw [(Assoc.lookup_eq_some_iff presets.nodup).mpr hEntry,
        (Assoc.lookup_eq_some_iff presets.nodup).mpr hChild]
      exact ⟨_, hEntry, _, hChild, rfl, rfl, hRef⟩

end

/-! ## The recursive search -/

/-- The source ids that `visit` goes on with. -/
def childIds (presets : Presets) (slugs : List (String × String)) (sourceId : String) :
    List String :=
  match presets.entries.lookup sourceId with
  | none => []
  | some spec =>
      (spec.subagentRefs.insertionSort fun ref other => ref.slug ≤ other.slug).filterMap
        fun subagent => (slugs.lookup subagent.slug).filter (· ≠ "")

theorem mem_childIds (hUnique : presets.UniqueSlugs) {sourceId child : String} :
    child ∈ childIds presets (presets.sorted.map fun entry => (entry.2.slug, entry.1)) sourceId ↔
      presets.DependsOn sourceId child := by
  unfold childIds
  constructor
  · intro hChild
    split at hChild
    · cases hChild
    · next spec hSpec =>
        obtain ⟨subagent, hSubagent, hFilter⟩ := List.mem_filterMap.mp hChild
        obtain ⟨hLookup, -⟩ := Option.filter_eq_some_iff.mp hFilter
        obtain ⟨childSpec, hEntry, hSlug⟩ := (lookup_slugs hUnique).mp hLookup
        refine ⟨spec, childSpec, Assoc.mem_of_lookup hSpec, hEntry, ?_⟩
        rw [← mem_slugs, hSlug]
        exact List.mem_map_of_mem ((List.mem_insertionSort _).mp hSubagent)
  · rintro ⟨spec, childSpec, hSpec, hEntry, hRef⟩
    rw [(Assoc.lookup_eq_some_iff presets.nodup).mpr hSpec]
    obtain ⟨subagent, hSubagent, hSlug⟩ := List.mem_map.mp (mem_slugs.mpr hRef)
    refine List.mem_filterMap.mpr ⟨subagent, (List.mem_insertionSort _).mpr hSubagent, ?_⟩
    rw [(lookup_slugs hUnique).mpr ⟨childSpec, hEntry, hSlug.symm⟩]
    exact Option.filter_eq_some_iff.mpr ⟨rfl, decide_eq_true (presets.nonempty _ hEntry)⟩

/-- The state of the recursion between two calls. -/
structure VisitState.Inv (presets : Presets) (slugs : List (String × String))
    (state : VisitState) : Prop where
  order : ChildrenFirst (childIds presets slugs) state.ordered
  visited : state.visited = state.ordered
  known : ∀ sourceId ∈ state.ordered, sourceId ∈ presets.entries.map Prod.fst
  nodup : state.visiting.Nodup
  fresh : ∀ sourceId ∈ state.visiting, sourceId ∉ state.ordered
  path : ∀ sourceId ∈ state.visiting, sourceId ∈ presets.entries.map Prod.fst

/-- What visits end with: the ids are ordered, or there is a cycle. -/
def VisitResult (presets : Presets) (slugs : List (String × String)) (state : VisitState)
    (sourceIds : List String) : Except OrderError VisitState → Prop
  | .ok after => after.Inv presets slugs ∧ after.visiting = state.visiting ∧
      (∀ sourceId ∈ state.ordered, sourceId ∈ after.ordered) ∧
      ∀ sourceId ∈ sourceIds, sourceId ∈ after.ordered
  | .error .cyclic => ¬ Acyclic fun sourceId child => child ∈ childIds presets slugs sourceId
  | .error _ => False

/-- Each id of the path leads to this one. -/
def LeadsTo (presets : Presets) (slugs : List (String × String)) (state : VisitState)
    (sourceId : String) : Prop :=
  ∀ node ∈ state.visiting, TransGen (fun node child => child ∈ childIds presets slugs node) node sourceId

theorem visits_result {slugs : List (String × String)}
    {visitOne : VisitState → String → Except OrderError VisitState} {state : VisitState}
    {sourceIds : List String} (hInv : state.Inv presets slugs)
    (hVisit : ∀ next : VisitState, next.Inv presets slugs → next.visiting = state.visiting →
      ∀ sourceId ∈ sourceIds, VisitResult presets slugs next [sourceId] (visitOne next sourceId)) :
    VisitResult presets slugs state sourceIds (sourceIds.foldlM visitOne state) := by
  induction sourceIds generalizing state with
  | nil => exact ⟨hInv, rfl, fun _ hNode => hNode, by simp⟩
  | cons sourceId sourceIds ih =>
      have hFirst := hVisit state hInv rfl sourceId List.mem_cons_self
      rw [List.foldlM_cons]
      match visitOne state sourceId, hFirst with
      | .error .cyclic, hCycle => exact hCycle
      | .ok next, ⟨hNext, hVisiting, hMore, hHere⟩ =>
          have hRest := ih hNext fun later hLater hSame sourceId hMem =>
            hVisit later hLater (hSame.trans hVisiting) sourceId (List.mem_cons_of_mem _ hMem)
          show VisitResult presets slugs state (sourceId :: sourceIds) (sourceIds.foldlM visitOne next)
          match sourceIds.foldlM visitOne next, hRest with
          | .error .cyclic, hCycle => exact hCycle
          | .ok after, ⟨hAfter, hSame, hLater, hThere⟩ =>
              refine ⟨hAfter, hSame.trans hVisiting, fun node hNode => hLater node (hMore node hNode),
                List.forall_mem_cons.mpr ⟨hLater sourceId ?_, hThere⟩⟩
              exact hHere sourceId (List.mem_singleton_self _)

theorem foldlM_childIds {slugs : List (String × String)}
    (visitOne : VisitState → String → Except OrderError VisitState) (subagents : List SubagentRef)
    (state : VisitState) :
    subagents.foldlM (fun state subagent =>
        match slugs.lookup subagent.slug with
        | none => .ok state
        | some childSourceId =>
            if childSourceId = "" then .ok state else visitOne state childSourceId) state =
      (subagents.filterMap fun subagent =>
        (slugs.lookup subagent.slug).filter (· ≠ "")).foldlM visitOne state := by
  induction subagents generalizing state with
  | nil => rfl
  | cons subagent subagents ih =>
      rw [List.foldlM_cons, List.filterMap_cons]
      cases slugs.lookup subagent.slug with
      | none => exact ih state
      | some child =>
          by_cases hEmpty : child = ""
          · rw [hEmpty]
            exact ih state
          · have hKept : Option.filter (fun child => decide (child ≠ "")) (some child) = some child :=
              Option.filter_eq_some_iff.mpr ⟨rfl, decide_eq_true hEmpty⟩
            dsimp only
            rw [if_neg hEmpty, hKept]
            dsimp only
            rw [List.foldlM_cons]
            congr 1
            funext next
            exact ih next

theorem visit_succ (slugs : List (String × String)) (fuel : Nat) (state : VisitState)
    (sourceId : String) :
    visit presets slugs (fuel + 1) state sourceId =
      if sourceId ∈ state.visited then .ok state
      else if sourceId ∈ state.visiting then .error .cyclic
      else if (presets.entries.lookup sourceId).isNone then .error (.missing sourceId)
      else (childIds presets slugs sourceId).foldlM (visit presets slugs fuel)
          { state with visiting := sourceId :: state.visiting } >>= fun after =>
        .ok {
          visiting := after.visiting.erase sourceId
          visited := after.visited ++ [sourceId]
          ordered := after.ordered ++ [sourceId] } := by
  rw [visit]
  split
  · rfl
  · split
    · rfl
    · unfold childIds
      cases presets.entries.lookup sourceId with
      | none => rfl
      | some spec =>
          rw [Option.isNone_some, if_neg Bool.false_ne_true]
          dsimp only
          rw [← foldlM_childIds]
          rfl

theorem VisitState.Inv.enter {slugs : List (String × String)} {state : VisitState}
    (hInv : state.Inv presets slugs) {sourceId : String}
    (hKey : sourceId ∈ presets.entries.map Prod.fst)
    (hVisited : sourceId ∉ state.visited) (hVisiting : sourceId ∉ state.visiting) :
    VisitState.Inv presets slugs { state with visiting := sourceId :: state.visiting } where
  order := hInv.order
  visited := hInv.visited
  known := hInv.known
  nodup := List.nodup_cons.mpr ⟨hVisiting, hInv.nodup⟩
  fresh := List.forall_mem_cons.mpr ⟨hInv.visited ▸ hVisited, hInv.fresh⟩
  path := List.forall_mem_cons.mpr ⟨hKey, hInv.path⟩

theorem VisitState.Inv.leave {slugs : List (String × String)} {after : VisitState}
    (hInv : after.Inv presets slugs) {sourceId : String} {visiting : List String}
    (hVisiting : after.visiting = sourceId :: visiting)
    (hChildren : ∀ child ∈ childIds presets slugs sourceId, child ∈ after.ordered) :
    VisitState.Inv presets slugs
      { visiting := after.visiting.erase sourceId
        visited := after.visited ++ [sourceId]
        ordered := after.ordered ++ [sourceId] } := by
  have hErase : after.visiting.erase sourceId = visiting := by
    rw [hVisiting, List.erase_cons_head]
  obtain ⟨hOut, hNodup⟩ := List.nodup_cons.mp (hVisiting ▸ hInv.nodup)
  obtain ⟨hFresh, hOthers⟩ := List.forall_mem_cons.mp (hVisiting ▸ hInv.fresh)
  obtain ⟨hKey, hPath⟩ := List.forall_mem_cons.mp (hVisiting ▸ hInv.path)
  constructor
  · exact hInv.order.concat hFresh hChildren
  · exact congrArg (· ++ [sourceId]) hInv.visited
  · intro other hOther
    rcases List.mem_append.mp hOther with hOld | hNew
    · exact hInv.known other hOld
    · exact List.mem_singleton.mp hNew ▸ hKey
  · exact hErase ▸ hNodup
  · intro other hOther hOrdered
    rw [hErase] at hOther
    rcases List.mem_append.mp hOrdered with hOld | hNew
    · exact hOthers other hOther hOld
    · exact hOut (List.mem_singleton.mp hNew ▸ hOther)
  · exact hErase ▸ hPath

/-- The induction is on the depth that is left: the path goes through different presets, so
it is never longer than the batch. -/
theorem visit_result {slugs : List (String × String)}
    (hChild : ∀ sourceId child, child ∈ childIds presets slugs sourceId →
      child ∈ presets.entries.map Prod.fst)
    (fuel : Nat) {state : VisitState} {sourceId : String} (hInv : state.Inv presets slugs)
    (hLeads : LeadsTo presets slugs state sourceId)
    (hKey : sourceId ∈ presets.entries.map Prod.fst)
    (hFuel : presets.entries.length < fuel + state.visiting.length) :
    VisitResult presets slugs state [sourceId] (visit presets slugs fuel state sourceId) := by
  induction fuel generalizing state sourceId with
  | zero =>
      have hLength := (hInv.nodup.subperm hInv.path).length_le
      rw [List.length_map] at hLength
      omega
  | succ fuel ih =>
      rw [visit_succ]
      by_cases hVisited : sourceId ∈ state.visited
      · rw [if_pos hVisited]
        refine ⟨hInv, rfl, fun _ hNode => hNode, fun node hNode => ?_⟩
        rw [List.mem_singleton.mp hNode, ← hInv.visited]
        exact hVisited
      · rw [if_neg hVisited]
        by_cases hVisiting : sourceId ∈ state.visiting
        · rw [if_pos hVisiting]
          exact fun hAcyclic => hAcyclic sourceId (hLeads sourceId hVisiting)
        · obtain ⟨spec, hSpec⟩ := Option.isSome_iff_exists.mp (Assoc.lookup_isSome_iff.mpr hKey)
          rw [if_neg hVisiting, hSpec, Option.isNone_some, if_neg Bool.false_ne_true]
          have hEntered := hInv.enter hKey hVisited hVisiting
          have hVisits := @visits_result presets slugs (visit presets slugs fuel)
            { state with visiting := sourceId :: state.visiting }
            (childIds presets slugs sourceId) hEntered ?_
          · match List.foldlM (visit presets slugs fuel)
                { state with visiting := sourceId :: state.visiting }
                (childIds presets slugs sourceId), hVisits with
            | .error .cyclic, hCycle => exact hCycle
            | .ok after, ⟨hAfter, hSame, hMore, hChildren⟩ =>
                refine ⟨hAfter.leave hSame hChildren, ?_, fun node hNode => ?_, fun node hNode => ?_⟩
                · show after.visiting.erase sourceId = state.visiting
                  rw [hSame, List.erase_cons_head]
                · exact List.mem_append_left _ (hMore node hNode)
                · exact List.mem_append_right _ hNode
          · intro next hNext hSame child hChildOf
            refine ih hNext (fun node hNode => ?_) (hChild sourceId child hChildOf) ?_
            · rw [hSame] at hNode
              rcases List.mem_cons.mp hNode with rfl | hOuter
              · exact .single hChildOf
              · exact (hLeads node hOuter).tail hChildOf
            · rw [hSame, List.length_cons]
              omega

/-! ### More depth -/

theorem visit_le (slugs : List (String × String)) (fuel : Nat) (state : VisitState)
    (sourceId : String) :
    Fuel.Le .outOfFuel (visit presets slugs fuel state sourceId)
      (visit presets slugs (fuel + 1) state sourceId) := by
  induction fuel generalizing state sourceId with
  | zero => exact Or.inl rfl
  | succ fuel ih =>
      rw [visit_succ, visit_succ]
      split
      · exact .refl _
      · split
        · exact .refl _
        · split
          · exact .refl _
          · exact (Fuel.Le.foldlM _ (fun state child _ => ih state child) _).bind
              fun after => .refl _

theorem presetImportOrder_le (fuel : Nat) :
    Fuel.Le .outOfFuel (presetImportOrder fuel presets) (presetImportOrder (fuel + 1) presets) := by
  unfold presetImportOrder
  refine (Fuel.Le.refl _).bind fun slugs => ?_
  refine (Fuel.Le.foldlM _ (fun state sourceId _ => visit_le slugs fuel state sourceId) _).bind ?_
  exact fun last => .refl _

/-! ### The order of a batch -/

/-- `_preset_import_order` ends: with an order in which children come first, or with the
error about a cycle. -/
theorem presetImportOrder_spec (hUnique : presets.UniqueSlugs) :
    ∃ result, (∀ fuel, presets.entries.length < fuel → presetImportOrder fuel presets = result) ∧
      ((result = .error .cyclic ∧ ¬ Acyclic presets.DependsOn) ∨
        ∃ order, result = .ok order ∧ Acyclic presets.DependsOn ∧
          order.Perm (presets.entries.map Prod.fst) ∧
          ∀ sourceId child, presets.DependsOn sourceId child →
            order.idxOf child < order.idxOf sourceId) := by
  let slugs := presets.sorted.map fun entry => (entry.2.slug, entry.1)
  let keys := presets.entries.map Prod.fst
  have hDepends : (fun sourceId child => child ∈ childIds presets slugs sourceId) =
      presets.DependsOn := by
    ext sourceId child
    exact mem_childIds hUnique
  have hChild : ∀ sourceId child, child ∈ childIds presets slugs sourceId → child ∈ keys := by
    intro sourceId child hMem
    obtain ⟨spec, childSpec, -, hEntry, -⟩ := (mem_childIds hUnique).mp hMem
    exact List.mem_map_of_mem hEntry
  have hStart : VisitState.Inv presets slugs ⟨[], [], []⟩ :=
    ⟨.nil, rfl, by simp, List.nodup_nil, by simp, by simp⟩
  have hRoot : ∀ root, root ∈ keys.insertionSort (· ≤ ·) ↔ root ∈ keys := fun root =>
    List.mem_insertionSort _
  let visits (fuel : Nat) := (keys.insertionSort (· ≤ ·)).foldlM (visit presets slugs fuel) ⟨[], [], []⟩
  have hOrder (fuel : Nat) : presetImportOrder fuel presets =
      visits fuel >>= fun last => .ok last.ordered := by
    rw [presetImportOrder, slugToSourceId_ok hUnique]
    rfl
  have hVisits : VisitResult presets slugs ⟨[], [], []⟩ (keys.insertionSort (· ≤ ·))
      (visits (presets.entries.length + 1)) := by
    refine visits_result hStart fun next hNext hSame sourceId hMem => ?_
    refine visit_result hChild _ hNext (fun node hNode => ?_) ((hRoot sourceId).mp hMem) (by omega)
    rw [hSame] at hNode
    cases hNode
  refine ⟨presetImportOrder (presets.entries.length + 1) presets, fun fuel hFuel => ?_, ?_⟩
  · refine Fuel.eq_of_le (fun fuel => presetImportOrder_le fuel) (fun hOut => ?_) hFuel
    rw [hOrder] at hOut
    match visits (presets.entries.length + 1), hVisits, hOut with
    | .error .cyclic, _, hOut => cases hOut
    | .ok _, _, hOut => cases hOut
  · rw [hOrder]
    match visits (presets.entries.length + 1), hVisits with
    | .error .cyclic, hCycle => exact Or.inl ⟨rfl, hDepends ▸ hCycle⟩
    | .ok last, ⟨hFinal, _, _, hAll⟩ =>
        have hKeys : ∀ sourceId, sourceId ∈ last.ordered ↔ sourceId ∈ keys := fun sourceId =>
          ⟨hFinal.known sourceId, fun hKey => hAll sourceId ((hRoot sourceId).mpr hKey)⟩
        refine Or.inr ⟨last.ordered, rfl, ?_, ?_, ?_⟩
        · rw [← hDepends]
          refine hFinal.order.acyclic fun sourceId hChildren => (hKeys sourceId).mpr ?_
          obtain ⟨child, hMem⟩ := List.exists_mem_of_ne_nil _ hChildren
          obtain ⟨spec, -, hEntry, -⟩ := (mem_childIds hUnique).mp hMem
          exact List.mem_map_of_mem hEntry
        · exact (List.perm_ext_iff_of_nodup hFinal.order.nodup presets.nodup).mpr hKeys
        · intro sourceId child hRef
          have hNode : sourceId ∈ last.ordered := by
            obtain ⟨spec, -, hEntry, -⟩ := hRef
            exact (hKeys sourceId).mpr (List.mem_map_of_mem hEntry)
          exact hFinal.order.idxOf_lt hNode ((mem_childIds hUnique).mpr hRef)

/-- The two searches agree: `_find_cycle` ends with no cycle exactly where the references of
the batch have none, and else with a closed walk of references; `_preset_import_order`
raises in the second case, and orders the presets in the first one.  From each root the
first takes two turns for each slug at most, and the second goes no deeper than there are
presets. -/
theorem presetSearches_agree (presets : Presets) (hUnique : presets.UniqueSlugs) :
    ∃ path result,
      (∀ turns, 2 * presets.presetGraph.nodes.card ≤ turns →
        findCycle turns presets.presetGraph = some path) ∧
      (∀ depth, presets.entries.length + 1 ≤ depth → presetImportOrder depth presets = result) ∧
      (path = [] ↔ Acyclic presets.References) ∧
      (path ≠ [] → ClosedWalk presets.References path) ∧
      (result = .error .cyclic ↔ path ≠ []) ∧
      (path = [] → ∃ order, result = .ok order ∧ order.Perm (presets.entries.map Prod.fst) ∧
        ∀ sourceId child, presets.DependsOn sourceId child →
          order.idxOf child < order.idxOf sourceId) := by
  obtain ⟨path, hFind, hNone, hSome⟩ := findCycle_spec presets.presetGraph
  obtain ⟨result, hOrder, hResult⟩ := presetImportOrder_spec hUnique
  have hPath : path = [] ↔ Acyclic presets.References := by
    rw [acyclic_references hUnique]
    refine ⟨hNone, fun hAcyclic => ?_⟩
    by_contra hNonempty
    exact (hSome hNonempty).not_acyclic hAcyclic
  refine ⟨path, result, hFind, hOrder, hPath, ?_, ?_, ?_⟩
  · intro hNonempty
    have hInner := (hSome hNonempty).inner
    exact ⟨hInner.walk.imp fun _ _ => references_of_inner hUnique, hInner.closed, hInner.long⟩
  · rw [Ne, hPath, ← acyclic_dependsOn hUnique]
    rcases hResult with ⟨hError, hCycle⟩ | ⟨order, hOk, hAcyclic, -⟩
    · exact ⟨fun _ => hCycle, fun _ => hError⟩
    · exact ⟨fun hError => absurd (hOk.symm.trans hError) (by simp),
        fun hCycle => absurd hAcyclic hCycle⟩
  · intro hNil
    rcases hResult with ⟨-, hCycle⟩ | ⟨order, hOk, -, hPerm, hBefore⟩
    · exact absurd ((acyclic_dependsOn hUnique).mpr (hPath.mp hNil)) hCycle
    · exact ⟨order, hOk, hPerm, hBefore⟩

/-- A preset with a subagent in the batch and one outside of it. -/
def writerPresets : Presets where
  entries := [
    ("p1", ⟨"writer", [(1, ⟨[⟨"editor", none⟩]⟩), (2, ⟨[⟨"editor", some 1⟩, ⟨"archive", none⟩]⟩)]⟩),
    ("p2", ⟨"editor", [(1, ⟨[]⟩)]⟩)]
  nodup := by decide
  nonempty := by decide

theorem writerPresets_agree :
    ∃ path result,
      (∀ turns, 2 * writerPresets.presetGraph.nodes.card ≤ turns →
        findCycle turns writerPresets.presetGraph = some path) ∧
      (∀ depth, 3 ≤ depth → presetImportOrder depth writerPresets = result) ∧
      (path = [] ↔ Acyclic writerPresets.References) ∧
      (result = .error .cyclic ↔ path ≠ []) := by
  have hUnique : writerPresets.UniqueSlugs := by unfold Presets.UniqueSlugs; decide
  obtain ⟨path, result, hFind, hOrder, hPath, -, hRaises, -⟩ :=
    presetSearches_agree writerPresets hUnique
  exact ⟨path, result, hFind, hOrder, hPath, hRaises⟩

end Sync
end Tracecat
