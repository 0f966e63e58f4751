import Mathlib.Data.Finset.Card
import Mathlib.Order.Basic

/-!
# Sorted sets

A set of members with a score each, and the operations that a store offers on
it: add or rescore a member, remove one, and remove all members up to a score.
-/

namespace Tracecat

structure SortedSet (Member Score : Type*) where
  members : Finset Member
  score : Member → Score

namespace SortedSet

variable {Member Score : Type*}

/-- `ZCARD`. -/
def zcard (set : SortedSet Member Score) : Nat := set.members.card

section Members

variable [DecidableEq Member] (set : SortedSet Member Score)

/-- `ZSCORE`. -/
def zscore (member : Member) : Option Score :=
  if member ∈ set.members then some (set.score member) else none

/-- `ZADD` of one member. -/
def zadd (score : Score) (member : Member) : SortedSet Member Score where
  members := insert member set.members
  score := Function.update set.score member score

/-- `ZREM`. -/
def zrem (member : Member) : SortedSet Member Score :=
  { set with members := set.members.erase member }

variable {set} {member other : Member} {score : Score}

theorem zscore_isSome : (set.zscore member).isSome ↔ member ∈ set.members := by
  unfold zscore
  split <;> simp_all

@[simp] theorem mem_zadd :
    other ∈ (set.zadd score member).members ↔ other = member ∨ other ∈ set.members :=
  Finset.mem_insert

@[simp] theorem score_zadd :
    (set.zadd score member).score other = if other = member then score else set.score other := by
  simp [zadd, Function.update_apply]

@[simp] theorem mem_zrem :
    other ∈ (set.zrem member).members ↔ other ≠ member ∧ other ∈ set.members :=
  Finset.mem_erase

@[simp] theorem score_zrem : (set.zrem member).score = set.score := rfl

theorem zscore_zrem_of_ne (hOther : other ≠ member) :
    (set.zrem member).zscore other = set.zscore other := by
  simp [zscore, hOther]

theorem members_zadd_of_mem (hMember : member ∈ set.members) :
    (set.zadd score member).members = set.members :=
  Finset.insert_eq_of_mem hMember

theorem zcard_zadd_of_notMem (hMember : member ∉ set.members) :
    (set.zadd score member).zcard = set.zcard + 1 :=
  Finset.card_insert_of_notMem hMember

theorem zcard_zrem_le : (set.zrem member).zcard ≤ set.zcard :=
  Finset.card_erase_le

end Members

section Scores

variable [LinearOrder Score] (set : SortedSet Member Score)

/-- `ZREMRANGEBYSCORE` from `-inf` to `bound`, inclusive. -/
def zremUpTo (bound : Score) : SortedSet Member Score :=
  { set with members := set.members.filter fun member => bound < set.score member }

variable {set} {other : Member} {bound : Score}

@[simp] theorem mem_zremUpTo :
    other ∈ (set.zremUpTo bound).members ↔ other ∈ set.members ∧ bound < set.score other :=
  Finset.mem_filter

@[simp] theorem score_zremUpTo : (set.zremUpTo bound).score = set.score := rfl

theorem zcard_zremUpTo_le : (set.zremUpTo bound).zcard ≤ set.zcard :=
  Finset.card_filter_le _ _

end Scores

end SortedSet

end Tracecat
