import Tracecat.Tiers.Semaphore

/-!
# At most `limit` permits

Along every run of the semaphore an unexpired lease has its member in the set,
and the set never has more than `limit` members, so no more than `limit`
holders have an unexpired lease at any time.
-/

namespace Tracecat

namespace PermitSet

variable {set : PermitSet} {wfId : PermitId} {limit : Nat} {now ttl : Int}

/-- What the acquire script does: it refreshes a holder, refuses at the limit,
or adds a member below it. -/
theorem acquireScript_cases (set : PermitSet) (wfId : PermitId) (limit : Nat) (now ttl : Int) :
    let kept := set.zremUpTo (now - ttl)
    (wfId ∈ kept.members ∧
      set.acquireScript wfId limit now ttl = (kept.zadd now wfId, ⟨true, kept.zcard⟩)) ∨
    (wfId ∉ kept.members ∧ limit ≤ kept.zcard ∧
      set.acquireScript wfId limit now ttl = (kept, ⟨false, kept.zcard⟩)) ∨
    (wfId ∉ kept.members ∧ kept.zcard < limit ∧
      set.acquireScript wfId limit now ttl = (kept.zadd now wfId, ⟨true, kept.zcard + 1⟩)) := by
  intro kept
  by_cases hHolder : wfId ∈ kept.members
  · left
    refine ⟨hHolder, ?_⟩
    have hCard : (kept.zadd now wfId).zcard = kept.zcard :=
      congrArg Finset.card (SortedSet.members_zadd_of_mem hHolder)
    unfold acquireScript
    simp only
    rw [if_pos (SortedSet.zscore_isSome.mpr hHolder), ← hCard]
  · right
    have hNone : ¬ (kept.zscore wfId).isSome := fun h => hHolder (SortedSet.zscore_isSome.mp h)
    unfold acquireScript
    simp only
    rw [if_neg hNone]
    by_cases hFull : limit ≤ kept.zcard
    · exact Or.inl ⟨hHolder, hFull, if_pos hFull⟩
    · exact Or.inr ⟨hHolder, not_le.mp hFull, if_neg hFull⟩

theorem heartbeatScript_cases (set : PermitSet) (permitId : PermitId) (now : Int) :
    (permitId ∈ set.members ∧ set.heartbeatScript permitId now =
      (set.zadd now permitId, true)) ∨
    (permitId ∉ set.members ∧ set.heartbeatScript permitId now = (set, false)) := by
  unfold heartbeatScript
  by_cases hMember : permitId ∈ set.members
  · left
    refine ⟨hMember, if_neg ?_⟩
    rw [Option.isNone_iff_eq_none]
    simp [SortedSet.zscore, hMember]
  · right
    refine ⟨hMember, if_pos ?_⟩
    simp [SortedSet.zscore, hMember]

/-- What an acquire of `wfId` promises about the set. -/
structure AcquireSafe (limit : Nat) (ttl now : Int) (set : PermitSet) (wfId : PermitId) :
    Prop where
  bounded : (set.acquireScript wfId limit now ttl).1.zcard ≤ max limit set.zcard
  /-- only `wfId` is new, and only below the limit -/
  adds : ∀ member ∈ (set.acquireScript wfId limit now ttl).1.members,
    member ∈ (set.zremUpTo (now - ttl)).members ∨
      member = wfId ∧ (set.getCount now ttl).2 < limit
  /-- a holder whose entry has not expired gets the permit, and the count stays -/
  holder : wfId ∈ (set.zremUpTo (now - ttl)).members →
    (set.acquireScript wfId limit now ttl).2 = ⟨true, (set.getCount now ttl).2⟩ ∧
      (set.acquireScript wfId limit now ttl).1.zcard = (set.getCount now ttl).2

theorem acquireSafe (limit : Nat) (ttl now : Int) (set : PermitSet) (wfId : PermitId) :
    set.AcquireSafe limit ttl now wfId := by
  have hCount : (set.getCount now ttl).2 = (set.zremUpTo (now - ttl)).zcard := rfl
  have hLe : (set.zremUpTo (now - ttl)).zcard ≤ set.zcard := SortedSet.zcard_zremUpTo_le
  rcases set.acquireScript_cases wfId limit now ttl with ⟨hHolder, hRun⟩ |
    ⟨hOutside, hFull, hRun⟩ | ⟨hOutside, hFree, hRun⟩
  · have hCard : ((set.zremUpTo (now - ttl)).zadd now wfId).zcard =
        (set.zremUpTo (now - ttl)).zcard :=
      congrArg Finset.card (SortedSet.members_zadd_of_mem hHolder)
    refine ⟨?_, fun member hMember => ?_, fun _ => ?_⟩
    · rw [hRun, hCard]
      exact hLe.trans (le_max_right _ _)
    · rw [hRun, SortedSet.mem_zadd] at hMember
      rcases hMember with rfl | hMember
      · exact Or.inl hHolder
      · exact Or.inl hMember
    · rw [hRun]
      exact ⟨rfl, hCard⟩
  · refine ⟨?_, fun member hMember => ?_, fun hHolder => absurd hHolder hOutside⟩
    · rw [hRun]
      exact hLe.trans (le_max_right _ _)
    · rw [hRun] at hMember
      exact Or.inl hMember
  · refine ⟨?_, fun member hMember => ?_, fun hHolder => absurd hHolder hOutside⟩
    · rw [hRun, SortedSet.zcard_zadd_of_notMem hOutside]
      exact le_max_of_le_left hFree
    · rw [hRun, SortedSet.mem_zadd] at hMember
      rcases hMember with rfl | hMember
      · exact Or.inr ⟨rfl, hFree⟩
      · exact Or.inl hMember

end PermitSet

/-! ## The invariant -/

/-- The set has room for the limit, and every lease has its member in the set
or has expired. -/
structure PermitState.Leased (limit : Nat) (ttl : Int) (events : List PermitEvent)
    (state : PermitState) : Prop where
  card : state.set.zcard ≤ limit
  leases : ∀ permitId time, leaseOf permitId events = some time →
    permitId ∈ state.set.members ∧ state.set.score permitId = time ∨
      time + ttl ≤ state.clock

section Steps

variable {limit : Nat} {ttl : Int} {events : List PermitEvent} {state next : PermitState}
  {event : PermitEvent}

theorem PermitState.Leased.kept (hLeased : state.Leased limit ttl events) {now : Int}
    (hTime : state.clock ≤ now) {permitId : PermitId} {time : Int}
    (hLease : leaseOf permitId events = some time) :
    permitId ∈ (state.set.zremUpTo (now - ttl)).members ∧ state.set.score permitId = time ∨
      time + ttl ≤ now := by
  rcases hLeased.leases permitId time hLease with ⟨hMember, hScore⟩ | hExpired
  · by_cases hLive : now - ttl < time
    · exact Or.inl ⟨SortedSet.mem_zremUpTo.mpr ⟨hMember, hScore ▸ hLive⟩, hScore⟩
    · exact Or.inr (by omega)
  · exact Or.inr (by omega)

/-- A member that gets the current time holds a lease of that time, and the
others keep theirs. -/
theorem PermitState.Leased.renew {now : Int} {set : PermitSet} {wfId : PermitId}
    {call : PermitCall}
    (hCall : call = .acquire wfId ∨ call = .heartbeat wfId)
    (hKept : ∀ permitId time, leaseOf permitId events = some time →
      permitId ∈ set.members ∧ set.score permitId = time ∨ time + ttl ≤ now)
    (hCard : (set.zadd now wfId).zcard ≤ limit) :
    (⟨set.zadd now wfId, now⟩ : PermitState).Leased limit ttl
      (⟨call, now, true⟩ :: events) := by
  refine ⟨hCard, fun permitId time hLease => ?_⟩
  have hUnfold : leaseOf permitId (⟨call, now, true⟩ :: events) =
      if wfId = permitId then some now else leaseOf permitId events := by
    rcases hCall with rfl | rfl <;> simp [leaseOf]
  rw [hUnfold] at hLease
  by_cases hSame : wfId = permitId
  · rw [if_pos hSame, Option.some.injEq] at hLease
    subst hSame hLease
    exact Or.inl ⟨SortedSet.mem_zadd.mpr (Or.inl rfl), by simp⟩
  · rw [if_neg hSame] at hLease
    rcases hKept permitId time hLease with ⟨hMember, hScore⟩ | hExpired
    · have hNe : permitId ≠ wfId := fun h => hSame h.symm
      exact Or.inl ⟨SortedSet.mem_zadd.mpr (Or.inr hMember), by simp [hNe, hScore]⟩
    · exact Or.inr hExpired

theorem PermitStep.leased (hStep : PermitStep limit ttl state event next)
    (hLeased : state.Leased limit ttl events) : next.Leased limit ttl (event :: events) := by
  obtain ⟨call, now, granted⟩ := event
  obtain ⟨nextSet, nextClock⟩ := next
  obtain ⟨hTime, hRun, hClock⟩ := hStep
  simp only at hTime hRun hClock
  subst hClock
  have hKept (permitId : PermitId) (time : Int)
      (hLease : leaseOf permitId events = some time) := hLeased.kept hTime hLease
  have hPruned : (state.set.zremUpTo (nextClock - ttl)).zcard ≤ limit :=
    SortedSet.zcard_zremUpTo_le.trans hLeased.card
  have hOld (permitId : PermitId) (time : Int)
      (hLease : leaseOf permitId events = some time) :
      permitId ∈ state.set.members ∧ state.set.score permitId = time ∨
        time + ttl ≤ nextClock :=
    (hLeased.leases permitId time hLease).imp_right fun hExpired => hExpired.trans hTime
  cases call with
  | acquire wfId =>
      rcases state.set.acquireScript_cases wfId limit nextClock ttl with ⟨hHolder, hScript⟩ |
        ⟨hOutside, hFull, hScript⟩ | ⟨hOutside, hFree, hScript⟩
      · simp only [PermitCall.run, hScript, Prod.mk.injEq] at hRun
        obtain ⟨rfl, rfl⟩ := hRun
        refine PermitState.Leased.renew (Or.inl rfl) hKept ?_
        exact (congrArg Finset.card (SortedSet.members_zadd_of_mem hHolder)).trans_le hPruned
      · simp only [PermitCall.run, hScript, Prod.mk.injEq] at hRun
        obtain ⟨rfl, rfl⟩ := hRun
        refine ⟨hPruned, fun permitId time hLease => hKept permitId time ?_⟩
        simpa [leaseOf] using hLease
      · simp only [PermitCall.run, hScript, Prod.mk.injEq] at hRun
        obtain ⟨rfl, rfl⟩ := hRun
        refine PermitState.Leased.renew (Or.inl rfl) hKept ?_
        rw [SortedSet.zcard_zadd_of_notMem hOutside]
        exact hFree
  | release wfId =>
      simp only [PermitCall.run, Prod.mk.injEq] at hRun
      obtain ⟨rfl, rfl⟩ := hRun
      refine ⟨SortedSet.zcard_zrem_le.trans hLeased.card, fun permitId time hLease => ?_⟩
      simp only [leaseOf] at hLease
      split at hLease
      · cases hLease
      · rename_i hOther
        have hNe : permitId ≠ wfId := fun h => hOther h.symm
        exact (hOld permitId time hLease).imp_left fun hMember =>
          ⟨SortedSet.mem_zrem.mpr ⟨hNe, hMember.1⟩, hMember.2⟩
  | heartbeat wfId =>
      rcases state.set.heartbeatScript_cases wfId nextClock with ⟨hMember, hScript⟩ |
        ⟨hMissing, hScript⟩
      · simp only [PermitCall.run, hScript, Prod.mk.injEq] at hRun
        obtain ⟨rfl, rfl⟩ := hRun
        refine PermitState.Leased.renew (Or.inr rfl) hOld ?_
        exact (congrArg Finset.card (SortedSet.members_zadd_of_mem hMember)).trans_le
          hLeased.card
      · simp only [PermitCall.run, hScript, Prod.mk.injEq] at hRun
        obtain ⟨rfl, rfl⟩ := hRun
        refine ⟨hLeased.card, fun permitId time hLease => hOld permitId time ?_⟩
        simpa [leaseOf] using hLease
  | getCount =>
      simp only [PermitCall.run, PermitSet.getCount, Prod.mk.injEq] at hRun
      obtain ⟨rfl, rfl⟩ := hRun
      exact ⟨hPruned, fun permitId time hLease => hKept permitId time hLease⟩

theorem PermitRun.leased {start : Int} (hRun : PermitRun limit ttl start events state) :
    state.Leased limit ttl events := by
  refine Run.invariant (fun events state => state.Leased limit ttl events) ?_ ?_ hRun
  · exact ⟨Nat.zero_le _, fun permitId time hLease => by cases hLease⟩
  · exact fun event hLeased hStep => hStep.leased hLeased

end Steps

/-- The safety of the semaphore: a lease that has not expired is a member, at
most `limit` holders have one, an acquire of a holder changes no count, and no
release or heartbeat touches another permit or brings one back. -/
theorem permit_safety {limit : Nat} {ttl start : Int} {events : List PermitEvent}
    {state : PermitState} (hRun : PermitRun limit ttl start events state) :
    (∀ now, state.clock ≤ now → ∀ permitId, Holds ttl events now permitId →
      permitId ∈ state.set.members) ∧
    (∀ now, state.clock ≤ now → ∀ holders : Finset PermitId,
      (∀ permitId ∈ holders, Holds ttl events now permitId) → holders.card ≤ limit) ∧
    (∀ now wfId, state.set.AcquireSafe limit ttl now wfId) ∧
    (∀ permitId other, other ≠ permitId → ∀ calls,
      ((PermitSet.release · permitId)^[calls] state.set).zscore other =
        state.set.zscore other) ∧
    ∀ permitId now, (state.set.heartbeatScript permitId now).1.members = state.set.members := by
  have hLeased := PermitRun.leased hRun
  have hMember : ∀ now, state.clock ≤ now → ∀ permitId, Holds ttl events now permitId →
      permitId ∈ state.set.members := by
    rintro now hTime permitId ⟨time, hLease, hLive⟩
    rcases hLeased.leases permitId time hLease with ⟨hMember, -⟩ | hExpired
    · exact hMember
    · omega
  refine ⟨hMember, fun now hTime holders hHolders => ?_,
    fun now wfId => PermitSet.acquireSafe limit ttl now state.set wfId,
    fun permitId other hOther calls => ?_, fun permitId now => ?_⟩
  · have hSubset : holders ⊆ state.set.members := fun permitId hHolder =>
      hMember now hTime permitId (hHolders permitId hHolder)
    exact (Finset.card_le_card hSubset).trans hLeased.card
  · induction calls with
    | zero => rfl
    | succ calls ih =>
        rw [Function.iterate_succ_apply', ← ih]
        exact SortedSet.zscore_zrem_of_ne hOther
  · rcases state.set.heartbeatScript_cases permitId now with ⟨hHolder, hScript⟩ | ⟨-, hScript⟩
    · rw [hScript]
      exact SortedSet.members_zadd_of_mem hHolder
    · rw [hScript]

/-- Two workflows and one permit. -/
theorem oneAcquire_permit_safety : ∃ state : PermitState,
    PermitRun 1 300 0 [⟨.acquire "wf-2", 12, false⟩, ⟨.acquire "wf-1", 10, true⟩] state ∧
      "wf-1" ∈ state.set.members := by
  let first := (PermitSet.acquireScript ⟨∅, fun _ => 0⟩ "wf-1" 1 10 300).1
  let second := (first.acquireScript "wf-2" 1 12 300).1
  have hRun : PermitRun 1 300 0
      [⟨.acquire "wf-2", 12, false⟩, ⟨.acquire "wf-1", 10, true⟩] ⟨second, 12⟩ :=
    .cons _ (.cons _ .nil ⟨by decide, rfl, rfl⟩ : PermitRun 1 300 0 _ ⟨first, 10⟩)
      ⟨by decide, rfl, rfl⟩
  have hHolds : Holds 300 [⟨.acquire "wf-2", 12, false⟩, ⟨.acquire "wf-1", 10, true⟩] 12
      "wf-1" := ⟨10, by decide, by decide⟩
  exact ⟨_, hRun, (permit_safety hRun).1 12 (by decide) "wf-1" hHolds⟩

/-! ## The permits are the leases -/

/-- Every member has a lease of its score. -/
def Owed (set : PermitSet) (events : List PermitEvent) : Prop :=
  ∀ permitId ∈ set.members, leaseOf permitId events = some (set.score permitId)

section Owed

variable {limit : Nat} {ttl : Int} {events : List PermitEvent} {set : PermitSet}

theorem Owed.renew (hOwed : Owed set events) {call : PermitCall} {wfId : PermitId}
    (hCall : call = .acquire wfId ∨ call = .heartbeat wfId) (now : Int) :
    Owed (set.zadd now wfId) (⟨call, now, true⟩ :: events) := by
  intro permitId hMember
  have hLease : leaseOf permitId (⟨call, now, true⟩ :: events) =
      if wfId = permitId then some now else leaseOf permitId events := by
    rcases hCall with rfl | rfl <;> simp [leaseOf]
  by_cases hSame : wfId = permitId
  · simp [hLease, hSame]
  · have hNe : permitId ≠ wfId := fun hEq => hSame hEq.symm
    simpa [hLease, hSame, hNe] using
      hOwed permitId ((SortedSet.mem_zadd.mp hMember).resolve_left hNe)

theorem PermitStep.owed {state next : PermitState} {event : PermitEvent}
    (hStep : PermitStep limit ttl state event next) (hOwed : Owed state.set events) :
    Owed next.set (event :: events) := by
  obtain ⟨call, now, granted⟩ := event
  obtain ⟨nextSet, nextClock⟩ := next
  obtain ⟨-, hRun, -⟩ := hStep
  simp only at hRun ⊢
  have hPruned : Owed (state.set.zremUpTo (now - ttl)) events := fun permitId hMember =>
    hOwed permitId (SortedSet.mem_zremUpTo.mp hMember).1
  cases call with
  | acquire wfId =>
      rcases state.set.acquireScript_cases wfId limit now ttl with ⟨-, hScript⟩ |
        ⟨-, -, hScript⟩ | ⟨-, -, hScript⟩ <;>
        simp only [PermitCall.run, hScript, Prod.mk.injEq] at hRun <;> obtain ⟨rfl, rfl⟩ := hRun
      · exact hPruned.renew (Or.inl rfl) now
      · exact fun permitId hMember => by simpa [leaseOf] using hPruned permitId hMember
      · exact hPruned.renew (Or.inl rfl) now
  | release wfId =>
      simp only [PermitCall.run, Prod.mk.injEq] at hRun
      obtain ⟨rfl, rfl⟩ := hRun
      intro permitId hMember
      obtain ⟨hNe, hOld⟩ := SortedSet.mem_zrem.mp hMember
      have hOther : wfId ≠ permitId := hNe.symm
      simpa [leaseOf, hOther, PermitSet.release] using hOwed permitId hOld
  | heartbeat wfId =>
      rcases state.set.heartbeatScript_cases wfId now with ⟨-, hScript⟩ | ⟨-, hScript⟩ <;>
        simp only [PermitCall.run, hScript, Prod.mk.injEq] at hRun <;> obtain ⟨rfl, rfl⟩ := hRun
      · exact hOwed.renew (Or.inr rfl) now
      · exact fun permitId hMember => by simpa [leaseOf] using hOwed permitId hMember
  | getCount =>
      simp only [PermitCall.run, PermitSet.getCount, Prod.mk.injEq] at hRun
      obtain ⟨rfl, rfl⟩ := hRun
      exact hPruned

end Owed

/-- The semaphore grants by the leases alone: what it counts are the holders whose lease has not
expired, and it refuses a permit only when `limit` others hold one. -/
theorem permits_are_leases {limit : Nat} {ttl start : Int} {events : List PermitEvent}
    {state : PermitState} (hRun : PermitRun limit ttl start events state) {now : Int}
    (hTime : state.clock ≤ now) :
    ∃ holders : Finset PermitId, (∀ permitId, permitId ∈ holders ↔ Holds ttl events now permitId) ∧
      (state.set.getCount now ttl).2 = holders.card ∧
      (∀ wfId, (state.set.acquireScript wfId limit now ttl).2 =
        if wfId ∈ holders then ⟨true, holders.card⟩
        else if holders.card < limit then ⟨true, holders.card + 1⟩
        else ⟨false, holders.card⟩) ∧
      ∀ permitId, (Holds ttl events now permitId →
          (state.set.heartbeatScript permitId now).2 = true) ∧
        ((state.set.heartbeatScript permitId now).2 = true →
          (leaseOf permitId events).isSome) := by
  have hLeased := PermitRun.leased hRun
  have hOwed : Owed state.set events :=
    Run.invariant (fun events state => Owed state.set events)
      (fun permitId hMember => absurd hMember (Finset.notMem_empty permitId))
      (fun _ hOwed hStep => hStep.owed hOwed) hRun
  have hHolders (permitId : PermitId) : permitId ∈ (state.set.zremUpTo (now - ttl)).members ↔
      Holds ttl events now permitId := by
    constructor
    · intro hMember
      obtain ⟨hOld, hLive⟩ := SortedSet.mem_zremUpTo.mp hMember
      exact ⟨_, hOwed permitId hOld, by omega⟩
    · rintro ⟨time, hLease, hLive⟩
      rcases hLeased.kept hTime hLease with ⟨hMember, -⟩ | hExpired
      · exact hMember
      · omega
  refine ⟨_, hHolders, rfl, fun wfId => ?_, fun permitId => ⟨fun hHolds => ?_, fun hBeats => ?_⟩⟩
  · rcases state.set.acquireScript_cases wfId limit now ttl with ⟨hHolder, hScript⟩ |
      ⟨hOutside, hFull, hScript⟩ | ⟨hOutside, hFree, hScript⟩
    · rw [if_pos hHolder, hScript]
      rfl
    · rw [if_neg hOutside, hScript]
      exact (if_neg (not_lt.mpr hFull)).symm
    · rw [if_neg hOutside, hScript]
      exact (if_pos hFree).symm
  · have hMember := (SortedSet.mem_zremUpTo.mp ((hHolders permitId).mpr hHolds)).1
    rcases state.set.heartbeatScript_cases permitId now with ⟨-, hScript⟩ | ⟨hNone, -⟩
    · rw [hScript]
    · exact absurd hMember hNone
  · rcases state.set.heartbeatScript_cases permitId now with ⟨hMember, -⟩ | ⟨-, hScript⟩
    · rw [hOwed permitId hMember]
      rfl
    · rw [hScript] at hBeats
      cases hBeats

/-- At the expiry of its only lease the permit goes to another workflow. -/
theorem oneAcquire_permits : (PermitSet.acquireScript
    (PermitSet.acquireScript ⟨∅, fun _ => 0⟩ "wf-1" 1 10 300).1 "wf-2" 1 310 300).2 =
      ⟨true, 1⟩ := by
  have hRun : PermitRun 1 300 0 [⟨.acquire "wf-1", 10, true⟩]
      ⟨(PermitSet.acquireScript ⟨∅, fun _ => 0⟩ "wf-1" 1 10 300).1, 10⟩ :=
    .cons _ .nil ⟨by decide, rfl, rfl⟩
  obtain ⟨holders, hHolders, -, hAcquire, -⟩ := permits_are_leases hRun (by decide : (10 : Int) ≤ 310)
  have hEmpty : holders = ∅ := by
    ext permitId
    rw [hHolders]
    refine ⟨fun hHolds => ?_, fun hMember => absurd hMember (Finset.notMem_empty _)⟩
    obtain ⟨time, hLease, hLive⟩ := hHolds
    simp only [leaseOf] at hLease
    split at hLease
    · cases hLease
      omega
    · cases hLease
  rw [hAcquire "wf-2", hEmpty]
  rfl

/-! ## The two commands of `get_count` -/

/-- The set has no member that a prune at `now` removes. -/
def PermitState.PrunedAt (ttl now : Int) (state : PermitState) : Prop :=
  now ≤ state.clock ∧ ∀ permitId ∈ state.set.members, now - ttl < state.set.score permitId

/-- Later calls add no member with an older score. -/
theorem PermitStep.prunedAt {limit : Nat} {ttl now : Int} {state next : PermitState}
    {event : PermitEvent} (hTtl : 0 < ttl) (hStep : PermitStep limit ttl state event next)
    (hPruned : state.PrunedAt ttl now) : next.PrunedAt ttl now := by
  obtain ⟨call, later, granted⟩ := event
  obtain ⟨nextSet, nextClock⟩ := next
  obtain ⟨hTime, hRun, hClock⟩ := hStep
  obtain ⟨hNow, hScores⟩ := hPruned
  simp only at hTime hRun hClock
  have hKept (bound : Int) : ∀ permitId ∈ (state.set.zremUpTo bound).members,
      now - ttl < state.set.score permitId := fun permitId hMember =>
    hScores permitId (SortedSet.mem_zremUpTo.mp hMember).1
  have hAdd {set : PermitSet} (hSet : ∀ permitId ∈ set.members, now - ttl < set.score permitId)
      (wfId : PermitId) : ∀ permitId ∈ (set.zadd later wfId).members,
      now - ttl < (set.zadd later wfId).score permitId := by
    intro permitId hMember
    rw [SortedSet.score_zadd]
    split
    · omega
    · exact hSet permitId ((SortedSet.mem_zadd.mp hMember).resolve_left ‹_›)
  refine ⟨by show now ≤ nextClock; omega, ?_⟩
  cases call with
  | acquire wfId =>
      rcases state.set.acquireScript_cases wfId limit later ttl with ⟨-, hScript⟩ |
        ⟨-, -, hScript⟩ | ⟨-, -, hScript⟩ <;>
        simp only [PermitCall.run, hScript, Prod.mk.injEq] at hRun <;> obtain ⟨rfl, rfl⟩ := hRun
      · exact hAdd (hKept _) wfId
      · exact hKept _
      · exact hAdd (hKept _) wfId
  | release wfId =>
      simp only [PermitCall.run, Prod.mk.injEq] at hRun
      obtain ⟨rfl, rfl⟩ := hRun
      exact fun permitId hMember => hScores permitId (SortedSet.mem_zrem.mp hMember).2
  | heartbeat wfId =>
      rcases state.set.heartbeatScript_cases wfId later with ⟨-, hScript⟩ | ⟨-, hScript⟩ <;>
        simp only [PermitCall.run, hScript, Prod.mk.injEq] at hRun <;> obtain ⟨rfl, rfl⟩ := hRun
      · exact hAdd hScores wfId
      · exact hScores
  | getCount =>
      simp only [PermitCall.run, PermitSet.getCount, Prod.mk.injEq] at hRun
      obtain ⟨rfl, rfl⟩ := hRun
      exact hKept _

/-- Whatever calls come between the commands of `get_count`, `ZCARD` counts what
one step at that point would. -/
theorem zcard_eq_getCount {limit : Nat} {ttl start now : Int} {events later : List PermitEvent}
    {state after : PermitState} (hTtl : 0 < ttl)
    (hRun : PermitRun limit ttl start (⟨.getCount, now, false⟩ :: events) state)
    (hLater : Run (PermitStep limit ttl) state later after) :
    after.set.zcard = (after.set.getCount now ttl).2 := by
  have hState : state.PrunedAt ttl now := by
    cases hRun with
    | cons event _ hStep =>
        obtain ⟨nextSet, nextClock⟩ := state
        obtain ⟨-, hPrune, hClock⟩ := hStep
        simp only [PermitCall.run, PermitSet.getCount, Prod.mk.injEq, and_true] at hPrune
        subst hPrune
        exact ⟨hClock.ge, fun permitId hMember => (SortedSet.mem_zremUpTo.mp hMember).2⟩
  have hAfter : after.PrunedAt ttl now :=
    Run.invariant (fun _ state => state.PrunedAt ttl now) hState
      (fun _ hPruned hStep => hStep.prunedAt hTtl hPruned) hLater
  exact congrArg Finset.card (Finset.filter_true_of_mem hAfter.2).symm

end Tracecat
