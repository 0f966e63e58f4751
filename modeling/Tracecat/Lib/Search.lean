import Mathlib.Algebra.BigOperators.Group.List.Basic
import Mathlib.Data.List.Dedup
import Mathlib.Data.List.Perm.Subperm
import Mathlib.Logic.Relation
import Mathlib.Tactic.Linarith

/-!
# Graph searches with a worklist

Two searches from a list of roots along an adjacency function: `explore` marks a
node when it is popped from a stack, `flood` when it is put on a queue.  Each
turn of either takes fuel.  With fuel for every node or edge that the search can
meet, the marked nodes are the nodes that the roots reach.
-/

namespace Tracecat
namespace Search

variable {α : Type*} (adj : α → List α)

def Reaches (roots : List α) (node : α) : Prop :=
  ∃ root ∈ roots, Relation.ReflTransGen (fun source target => target ∈ adj source) root node

/-- The bookkeeping of a search in progress: what is marked or waits is reached,
the roots are marked or wait, and so are the successors of what is done. -/
structure Sound (roots waiting done : List α) : Prop where
  reached : ∀ node, node ∈ done ∨ node ∈ waiting → Reaches adj roots node
  roots_seen : ∀ root ∈ roots, root ∈ done ∨ root ∈ waiting
  next_seen : ∀ node ∈ done, ∀ target ∈ adj node, target ∈ done ∨ target ∈ waiting

variable {adj} {roots : List α}

theorem Reaches.root {node : α} (hRoot : node ∈ roots) : Reaches adj roots node :=
  ⟨node, hRoot, .refl⟩

theorem Reaches.next {node target : α} (hNode : Reaches adj roots node)
    (hTarget : target ∈ adj node) : Reaches adj roots target := by
  obtain ⟨root, hRoot, hWalk⟩ := hNode
  exact ⟨root, hRoot, hWalk.tail hTarget⟩

theorem Reaches.congr {other : α → List α}
    (hNext : ∀ node, ∀ target ∈ adj node, target ∈ other node) {node : α}
    (hNode : Reaches adj roots node) : Reaches other roots node := by
  obtain ⟨root, hRoot, hWalk⟩ := hNode
  exact ⟨root, hRoot, Relation.ReflTransGen.mono hNext _ _ hWalk⟩

theorem Sound.start : Sound adj roots roots [] where
  reached node hNode := by
    rcases hNode with hDone | hWaiting
    · cases hDone
    · exact .root hWaiting
  roots_seen root hRoot := Or.inr hRoot
  next_seen node hNode := by cases hNode

/-- A search with nothing left to do has marked what the roots reach. -/
theorem Sound.mem_iff {done : List α} (hSound : Sound adj roots [] done) {node : α} :
    node ∈ done ↔ Reaches adj roots node := by
  constructor
  · intro hNode
    exact hSound.reached node (Or.inl hNode)
  · rintro ⟨root, hRoot, hWalk⟩
    induction hWalk with
    | refl =>
        rcases hSound.roots_seen root hRoot with hDone | hWaiting
        · exact hDone
        · cases hWaiting
    | tail _ hTarget ih =>
        rcases hSound.next_seen _ ih _ hTarget with hDone | hWaiting
        · exact hDone
        · cases hWaiting

theorem Sound.congr {waiting done marked : List α} (hSound : Sound adj roots waiting done)
    (hSame : ∀ node, node ∈ marked ↔ node ∈ done) : Sound adj roots waiting marked where
  reached node hNode := hSound.reached node (hNode.imp_left (hSame node).mp)
  roots_seen root hRoot := (hSound.roots_seen root hRoot).imp_left (hSame root).mpr
  next_seen node hNode target hTarget :=
    (hSound.next_seen node ((hSame node).mp hNode) target hTarget).imp_left (hSame target).mpr

theorem Sound.skip {node : α} {waiting done : List α}
    (hSound : Sound adj roots (node :: waiting) done) (hDone : node ∈ done) :
    Sound adj roots waiting done where
  reached other hOther := by
    apply hSound.reached
    exact hOther.imp_right (List.mem_cons_of_mem node)
  roots_seen root hRoot := by
    rcases hSound.roots_seen root hRoot with hRoot | hRoot
    · exact Or.inl hRoot
    · rcases List.mem_cons.mp hRoot with rfl | hRoot
      · exact Or.inl hDone
      · exact Or.inr hRoot
  next_seen other hOther target hTarget := by
    rcases hSound.next_seen other hOther target hTarget with hTarget | hTarget
    · exact Or.inl hTarget
    · rcases List.mem_cons.mp hTarget with rfl | hTarget
      · exact Or.inl hDone
      · exact Or.inr hTarget

theorem Sound.pop {node : α} {waiting later done : List α}
    (hSound : Sound adj roots (node :: waiting) done)
    (hKept : ∀ other ∈ waiting, other ∈ later)
    (hLater : ∀ other ∈ later, other ∈ waiting ∨ other ∈ adj node)
    (hNext : ∀ target ∈ adj node, target ∈ node :: done ∨ target ∈ later) :
    Sound adj roots later (node :: done) where
  reached other hOther := by
    have hNode : Reaches adj roots node := hSound.reached node (Or.inr List.mem_cons_self)
    rcases hOther with hOther | hOther
    · rcases List.mem_cons.mp hOther with rfl | hOther
      · exact hNode
      · exact hSound.reached other (Or.inl hOther)
    · rcases hLater other hOther with hOther | hOther
      · exact hSound.reached other (Or.inr (List.mem_cons_of_mem _ hOther))
      · exact hNode.next hOther
  roots_seen root hRoot := by
    rcases hSound.roots_seen root hRoot with hRoot | hRoot
    · exact Or.inl (List.mem_cons_of_mem _ hRoot)
    · rcases List.mem_cons.mp hRoot with rfl | hRoot
      · exact Or.inl List.mem_cons_self
      · exact Or.inr (hKept root hRoot)
  next_seen other hOther target hTarget := by
    rcases List.mem_cons.mp hOther with rfl | hOther
    · exact hNext target hTarget
    · rcases hSound.next_seen other hOther target hTarget with hTarget | hTarget
      · exact Or.inl (List.mem_cons_of_mem _ hTarget)
      · rcases List.mem_cons.mp hTarget with rfl | hTarget
        · exact Or.inl List.mem_cons_self
        · exact Or.inr (hKept target hTarget)

/-! ## Marking on the way out of the stack -/

variable [DecidableEq α]

variable (adj) in
/-- `while stack: ...`: a node that is not marked yet is marked and its
successors go on the stack. -/
def explore : Nat → List α → List α → List α
  | 0, _, found => found
  | _ + 1, [], found => found
  | fuel + 1, current :: stack, found =>
      if current ∈ found then explore fuel stack found
      else explore fuel (adj current ++ stack) (current :: found)

/-- The edges that leave the nodes not marked yet. -/
def edgesLeft (adj : α → List α) (nodes found : List α) : Nat :=
  ((nodes.filter fun node => node ∉ found).map fun node => (adj node).length).sum

theorem edgesLeft_cons {nodes found : List α} {node : α} (hNodup : nodes.Nodup)
    (hFresh : node ∉ found) (hOutside : node ∉ nodes → adj node = []) :
    edgesLeft adj nodes (node :: found) + (adj node).length = edgesLeft adj nodes found := by
  induction nodes with
  | nil => simp [edgesLeft, hOutside]
  | cons first nodes ih =>
      have hTail := List.nodup_cons.mp hNodup
      unfold edgesLeft at ih ⊢
      by_cases hFirst : first = node
      · subst hFirst
        have hSame : (nodes.filter fun node => node ∉ first :: found) =
            nodes.filter fun node => node ∉ found := by
          refine List.filter_congr fun other hOther => ?_
          have hNe : other ≠ first := fun hEq => hTail.1 (hEq ▸ hOther)
          simp [hNe]
        rw [List.filter_cons_of_neg (by simp), List.filter_cons_of_pos (by simpa using hFresh),
          hSame, List.map_cons, List.sum_cons]
        omega
      · have hRest := ih hTail.2 fun hNode => hOutside (by simp [hNode, Ne.symm hFirst])
        by_cases hFound : first ∈ found
        · simpa [List.filter_cons, hFound] using hRest
        · simp only [List.filter_cons, List.mem_cons, hFirst, hFound, or_self, not_false_eq_true,
            decide_true, if_true, List.map_cons, List.sum_cons] at hRest ⊢
          omega

/-- With a turn for each element of the stack and each edge left, the search
marks what the roots reach. -/
theorem mem_explore {nodes : List α} (hNodup : nodes.Nodup)
    (hOutside : ∀ node, node ∉ nodes → adj node = []) {fuel : Nat} {stack found : List α}
    (hFuel : stack.length + edgesLeft adj nodes found ≤ fuel)
    (hSound : Sound adj roots stack found) {node : α} :
    node ∈ explore adj fuel stack found ↔ Reaches adj roots node := by
  induction fuel generalizing stack found with
  | zero =>
      have hEmpty : stack = [] := List.length_eq_zero_iff.mp (by omega)
      subst hEmpty
      exact hSound.mem_iff
  | succ fuel ih =>
      cases stack with
      | nil => exact hSound.mem_iff
      | cons current stack =>
          rw [List.length_cons] at hFuel
          unfold explore
          by_cases hFound : current ∈ found
          · rw [if_pos hFound]
            exact ih (by omega) (hSound.skip hFound)
          · rw [if_neg hFound]
            have hEdges := edgesLeft_cons hNodup hFound (hOutside current)
            apply ih
            · rw [List.length_append]
              omega
            · apply hSound.pop
              · exact fun other hOther => List.mem_append_right _ hOther
              · exact fun other hOther => (List.mem_append.mp hOther).symm
              · exact fun target hTarget => Or.inr (List.mem_append_left _ hTarget)

/-! ## Marking on the way into the queue -/

variable (adj) in
/-- `while queue: ...`: the successors that are not marked yet are marked and
queued. -/
def flood : Nat → List α → List α → List α
  | 0, _, seen => seen
  | _ + 1, [], seen => seen
  | fuel + 1, source :: queue, seen =>
      let fresh := (adj source).dedup.filter fun target => target ∉ seen
      flood fuel (queue ++ fresh) (seen ++ fresh)

/-- With a turn for each queued node and each node not marked yet, the search
marks what the roots reach.  `done` are the nodes that have left the queue. -/
theorem mem_flood_of_sound {nodes : List α} (hNext : ∀ node, ∀ target ∈ adj node, target ∈ nodes)
    {fuel : Nat} {queue seen : List α} (done : List α)
    (hSeen : ∀ node, node ∈ seen ↔ node ∈ done ∨ node ∈ queue) (hNodup : seen.Nodup)
    (hInside : ∀ node ∈ seen, node ∈ nodes)
    (hFuel : queue.length + nodes.length ≤ fuel + seen.length)
    (hSound : Sound adj roots queue done) {node : α} :
    node ∈ flood adj fuel queue seen ↔ Reaches adj roots node := by
  have hLength : seen.length ≤ nodes.length := (List.subperm_of_subset hNodup hInside).length_le
  have hFinished {done seen : List α} (hSeen : ∀ node, node ∈ seen ↔ node ∈ done ∨ node ∈ [])
      (hSound : Sound adj roots [] done) : node ∈ seen ↔ Reaches adj roots node := by
    rw [hSeen, ← hSound.mem_iff]
    simp
  induction fuel generalizing queue seen done with
  | zero =>
      have hEmpty : queue = [] := List.length_eq_zero_iff.mp (by omega)
      subst hEmpty
      exact hFinished hSeen hSound
  | succ fuel ih =>
      cases queue with
      | nil => exact hFinished hSeen hSound
      | cons source queue =>
          unfold flood
          have hFresh (target : α) :
              target ∈ ((adj source).dedup.filter fun target => target ∉ seen) ↔
                target ∈ adj source ∧ target ∉ seen := by
            simp [List.mem_filter]
          generalize hList : ((adj source).dedup.filter fun target => target ∉ seen) = fresh
            at hFresh ⊢
          have hFreshNodup : fresh.Nodup := hList ▸ (List.nodup_dedup _).filter _
          have hNextSeen : (seen ++ fresh).Nodup := by
            refine List.nodup_append'.mpr ⟨hNodup, hFreshNodup, ?_⟩
            intro target hOld hNew
            exact ((hFresh target).mp hNew).2 hOld
          have hNextInside : ∀ node ∈ seen ++ fresh, node ∈ nodes := by
            intro target hTarget
            rcases List.mem_append.mp hTarget with hTarget | hTarget
            · exact hInside target hTarget
            · exact hNext source target ((hFresh target).mp hTarget).1
          apply ih (source :: done) ?_ hNextSeen hNextInside ?_ ?_ ?_
          · intro target
            simp only [List.mem_append, hSeen, List.mem_cons]
            tauto
          · simp only [List.length_append, List.length_cons] at hFuel ⊢
            omega
          · apply hSound.pop
            · exact fun other hOther => List.mem_append_left _ hOther
            · intro other hOther
              exact (List.mem_append.mp hOther).imp_right fun hNew => ((hFresh other).mp hNew).1
            · intro target hTarget
              by_cases hOld : target ∈ seen
              · rcases (hSeen target).mp hOld with hDone | hQueued
                · exact Or.inl (List.mem_cons_of_mem _ hDone)
                · rcases List.mem_cons.mp hQueued with rfl | hQueued
                  · exact Or.inl List.mem_cons_self
                  · exact Or.inr (List.mem_append_left _ hQueued)
              · exact Or.inr (List.mem_append_right _ ((hFresh target).mpr ⟨hTarget, hOld⟩))
          · exact (List.subperm_of_subset hNextSeen hNextInside).length_le

theorem mem_flood {nodes : List α} (hNext : ∀ node, ∀ target ∈ adj node, target ∈ nodes)
    (hNodup : roots.Nodup) (hRoots : ∀ root ∈ roots, root ∈ nodes) {node : α} :
    node ∈ flood adj nodes.length roots roots ↔ Reaches adj roots node := by
  apply mem_flood_of_sound hNext []
  · simp
  · exact hNodup
  · exact hRoots
  · omega
  · exact .start

end Search
end Tracecat
