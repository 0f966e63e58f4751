import Mathlib.Data.Finset.Card
import Tracecat.Mcp.RefreshTokens

/-!
# Refresh-token families

A bulk `UPDATE` that revokes a family does not see the successor of a rotation
that commits while it runs.  When no rotation does, the store is safe: a token
is exchanged once, a family has one active token, and nothing of a family is
exchanged after the family has been revoked.
-/

namespace Tracecat

/-- The exchanges and the revocations of the log, newest first: no token is
exchanged again, and no token of a revoked family is exchanged. -/
def TokenEntry.Allowed (later earlier : TokenEntry) : Prop :=
  ∀ tokenHash context newToken, later = .exchanged tokenHash context newToken →
    (∀ context' newToken', earlier ≠ .exchanged tokenHash context' newToken') ∧
      ∀ cause, earlier ≠ .revoked context.familyId cause

/-- The family has at most one active row, and the log is in order. -/
structure TokenStore.Safe (store : TokenStore) : Prop where
  oneActive : ∀ familyId, (store.rows.filter fun row =>
    row.familyId = familyId ∧ row.status = .active).length ≤ 1
  ordered : store.log.Pairwise TokenEntry.Allowed

/-- No rotation commits while its family is being revoked, and no token is
issued into a family that is there already. -/
def TokenEvent.Separate (store : TokenStore) (event : TokenEvent) : Prop :=
  match event.statement with
  | .issue _ (some familyId) _ _ _ _ _ _ => ¬ store.Named familyId
  | .rotateCommit => ∀ row metadata newToken expiresAt,
      store.sessions event.tx = .rotating row metadata newToken expiresAt →
        ∀ tx, ¬ (store.sessions tx).Revokes row.familyId
  | _ => True

/-! ## The rows -/

section Rows

variable {rows : List MCPRefreshToken} {hashes : List TokenHash} {status : TokenStatus}
  {row : MCPRefreshToken}

theorem mem_setStatus : row ∈ setStatus hashes status rows ↔
    (row ∈ rows ∧ row.tokenHash ∉ hashes) ∨
      ∃ old ∈ rows, old.tokenHash ∈ hashes ∧ row = old.withStatus status := by
  unfold setStatus
  rw [List.mem_map]
  constructor
  · rintro ⟨old, hOld, rfl⟩
    by_cases hHash : old.tokenHash ∈ hashes
    · rw [if_pos hHash]
      exact Or.inr ⟨old, hOld, hHash, rfl⟩
    · rw [if_neg hHash]
      exact Or.inl ⟨hOld, hHash⟩
  · rintro (⟨hRow, hHash⟩ | ⟨old, hOld, hHash, rfl⟩)
    · exact ⟨row, hRow, if_neg hHash⟩
    · exact ⟨old, hOld, if_pos hHash⟩

theorem map_tokenHash_setStatus :
    (setStatus hashes status rows).map (·.tokenHash) = rows.map (·.tokenHash) := by
  unfold setStatus
  rw [List.map_map]
  refine List.map_congr_left fun row _ => ?_
  show (if row.tokenHash ∈ hashes then row.withStatus status else row).tokenHash =
    row.tokenHash
  split <;> rfl

theorem active_of_mem_setStatus (hStatus : status ≠ .active)
    (hRow : row ∈ setStatus hashes status rows) (hActive : row.status = .active) :
    row ∈ rows ∧ row.tokenHash ∉ hashes := by
  rcases mem_setStatus.mp hRow with hOld | ⟨old, -, -, rfl⟩
  · exact hOld
  · exact absurd hActive hStatus

variable (hashes status) in
theorem exists_mem_setStatus (hRow : row ∈ rows) :
    ∃ next ∈ setStatus hashes status rows, next.tokenHash = row.tokenHash ∧
      next.familyId = row.familyId ∧
      next.status = if row.tokenHash ∈ hashes then status else row.status := by
  by_cases hHash : row.tokenHash ∈ hashes
  · exact ⟨row.withStatus status, mem_setStatus.mpr (Or.inr ⟨row, hRow, hHash, rfl⟩), rfl, rfl,
      (if_pos hHash).symm⟩
  · exact ⟨row, mem_setStatus.mpr (Or.inl ⟨hRow, hHash⟩), rfl, rfl, (if_neg hHash).symm⟩

end Rows

/-! ## The sessions -/

/-- What a session relies on between two of its statements. -/
def Session.Sound (rows : List MCPRefreshToken) (locks : LockTable TokenHash TxId)
    (tx : TxId) : Session → Prop
  | .rotating row _ _ _ | .consumed row =>
      (∃ current ∈ rows, current.tokenHash = row.tokenHash ∧
        current.familyId = row.familyId ∧ current.status = .active) ∧
      locks row.tokenHash = some tx
  | .consuming row _ => ∃ current ∈ rows, current.tokenHash = row.tokenHash ∧
      current.familyId = row.familyId
  | .revoking familyId _ remaining locked =>
      (∀ row ∈ rows, row.familyId = familyId → row.status ≠ .revoked →
        row.tokenHash ∈ remaining ∨ row.tokenHash ∈ locked) ∧
      ∀ tokenHash ∈ locked, locks tokenHash = some tx
  | .idle | .revokeNext .. => True

namespace Session.Sound

variable {rows : List MCPRefreshToken} {locks next : LockTable TokenHash TxId}
  {tx other : TxId} {session : Session}

theorem keep (hSound : session.Sound rows locks other)
    (hKeep : ∀ tokenHash, locks tokenHash = some other → next tokenHash = some other) :
    session.Sound rows next other := by
  cases session with
  | rotating row metadata newToken expiresAt => exact ⟨hSound.1, hKeep _ hSound.2⟩
  | consumed row => exact ⟨hSound.1, hKeep _ hSound.2⟩
  | consuming row clientId => exact hSound
  | revoking familyId cause remaining locked =>
      exact ⟨hSound.1, fun tokenHash hLocked => hKeep _ (hSound.2 tokenHash hLocked)⟩
  | idle => trivial
  | revokeNext familyId cause => trivial

/-- A session stays sound when another one changes rows that it has locked,
unless a revoked row is changed back. -/
theorem setStatus {hashes : List TokenHash} {status : TokenStatus}
    (hSound : session.Sound rows locks other) (hOther : other ≠ tx)
    (hLocked : ∀ tokenHash ∈ hashes, locks tokenHash = some tx)
    (hRevoked : ∀ row ∈ rows, row.tokenHash ∈ hashes → row.status = .revoked →
      status = .revoked) :
    session.Sound (setStatus hashes status rows) locks other := by
  have hMine : ∀ tokenHash, locks tokenHash = some other → tokenHash ∉ hashes := by
    intro tokenHash hOwner hHash
    rw [hLocked tokenHash hHash] at hOwner
    exact hOther (Option.some.inj hOwner).symm
  have hActive (row : MCPRefreshToken) (hOwner : locks row.tokenHash = some other)
      (hCurrent : ∃ current ∈ rows, current.tokenHash = row.tokenHash ∧
        current.familyId = row.familyId ∧ current.status = .active) :
      ∃ current ∈ Tracecat.setStatus hashes status rows, current.tokenHash = row.tokenHash ∧
        current.familyId = row.familyId ∧ current.status = .active := by
    obtain ⟨current, hMem, hHash, hRest⟩ := hCurrent
    refine ⟨current, mem_setStatus.mpr (Or.inl ⟨hMem, ?_⟩), hHash, hRest⟩
    rw [hHash]
    exact hMine _ hOwner
  cases session with
  | rotating row metadata newToken expiresAt =>
      exact ⟨hActive row hSound.2 hSound.1, hSound.2⟩
  | consumed row => exact ⟨hActive row hSound.2 hSound.1, hSound.2⟩
  | consuming row clientId =>
      obtain ⟨current, hMem, hHash, hFamily⟩ := hSound
      obtain ⟨next, hNext, hNextHash, hNextFamily, -⟩ :=
        exists_mem_setStatus hashes status hMem
      exact ⟨next, hNext, hNextHash.trans hHash, hNextFamily.trans hFamily⟩
  | revoking familyId cause remaining locked =>
      refine ⟨fun row hRow hFamily hStatus => ?_, hSound.2⟩
      rcases mem_setStatus.mp hRow with ⟨hOld, -⟩ | ⟨old, hOld, hHash, rfl⟩
      · exact hSound.1 row hOld hFamily hStatus
      · refine hSound.1 old hOld hFamily fun h => hStatus ?_
        exact hRevoked old hOld hHash h
  | idle => trivial
  | revokeNext familyId cause => trivial

/-- A session that does not revoke the family does not see a new row of it. -/
theorem insert {row : MCPRefreshToken} (hSound : session.Sound rows locks other)
    (hFamily : ¬ session.Revokes row.familyId) : session.Sound (row :: rows) locks other := by
  cases session with
  | rotating row metadata newToken expiresAt =>
      obtain ⟨⟨current, hMem, hCurrent⟩, hLock⟩ := hSound
      exact ⟨⟨current, List.mem_cons_of_mem _ hMem, hCurrent⟩, hLock⟩
  | consumed row =>
      obtain ⟨⟨current, hMem, hCurrent⟩, hLock⟩ := hSound
      exact ⟨⟨current, List.mem_cons_of_mem _ hMem, hCurrent⟩, hLock⟩
  | consuming row clientId =>
      obtain ⟨current, hMem, hCurrent⟩ := hSound
      exact ⟨current, List.mem_cons_of_mem _ hMem, hCurrent⟩
  | revoking familyId cause remaining locked =>
      refine ⟨fun old hOld hSame => ?_, hSound.2⟩
      rcases List.mem_cons.mp hOld with rfl | hOld
      · exact absurd hSame.symm hFamily
      · exact hSound.1 old hOld hSame
  | idle => trivial
  | revokeNext familyId cause => trivial

end Session.Sound

/-! ## The invariant -/

/-- The invariant of the store.  `sessions` carries the others: a row that is
about to be used is active and locked, and a revocation has every row of its
family that is not revoked yet. -/
structure TokenStore.Guarded (store : TokenStore) : Prop where
  unique : (store.rows.map (·.tokenHash)).Nodup
  oneActive : ∀ row ∈ store.rows, ∀ other ∈ store.rows, row.status = .active →
    other.status = .active → row.familyId = other.familyId → row.tokenHash = other.tokenHash
  sessions : ∀ tx, (store.sessions tx).Sound store.rows store.locks tx
  exchanged : ∀ tokenHash context newToken, .exchanged tokenHash context newToken ∈ store.log →
    ∃ row ∈ store.rows, row.tokenHash = tokenHash ∧ row.status ≠ .active
  revoked : ∀ familyId cause, .revoked familyId cause ∈ store.log →
    ∀ row ∈ store.rows, row.familyId = familyId → row.status = .revoked
  ordered : store.log.Pairwise TokenEntry.Allowed

namespace TokenStore.Guarded

variable {store : TokenStore} {tx : TxId}

theorem eq_of_tokenHash (hGuarded : store.Guarded) {row other : MCPRefreshToken}
    (hRow : row ∈ store.rows) (hOther : other ∈ store.rows)
    (hHash : row.tokenHash = other.tokenHash) : row = other :=
  List.inj_on_of_nodup_map hGuarded.unique hRow hOther hHash

theorem safe (hGuarded : store.Guarded) : store.Safe := by
  refine ⟨fun familyId => ?_, hGuarded.ordered⟩
  have hNodup : store.rows.Nodup := List.Nodup.of_map _ hGuarded.unique
  rw [← List.toFinset_card_of_nodup (hNodup.filter _)]
  refine Finset.card_le_one.mpr fun row hRow other hOther => ?_
  simp only [List.mem_toFinset, List.mem_filter, decide_eq_true_eq] at hRow hOther
  refine hGuarded.eq_of_tokenHash hRow.1 hOther.1 ?_
  exact hGuarded.oneActive row hRow.1 other hOther.1 hRow.2.2 hOther.2.2
    (hRow.2.1.trans hOther.2.1.symm)

theorem enter (hGuarded : store.Guarded) {session : Session}
    (hSound : session.Sound store.rows store.locks tx) : (store.enter tx session).Guarded where
  unique := hGuarded.unique
  oneActive := hGuarded.oneActive
  sessions := by
    intro other
    show (Function.update store.sessions tx session other).Sound store.rows store.locks other
    by_cases hOther : other = tx
    · subst hOther
      rwa [Function.update_self]
    · rw [Function.update_of_ne hOther]
      exact hGuarded.sessions other
  exchanged := hGuarded.exchanged
  revoked := hGuarded.revoked
  ordered := hGuarded.ordered

theorem lock (hGuarded : store.Guarded) {tokenHash : TokenHash}
    (hFree : store.locks.FreeFor tx tokenHash) : (store.lock tx tokenHash).Guarded where
  unique := hGuarded.unique
  oneActive := hGuarded.oneActive
  sessions := fun other =>
    (hGuarded.sessions other).keep fun _ hOwner => hFree.owner_take hOwner
  exchanged := hGuarded.exchanged
  revoked := hGuarded.revoked
  ordered := hGuarded.ordered

theorem finish_sessions {rows : List MCPRefreshToken} {entries : List TokenEntry}
    (hOthers : ∀ other, other ≠ tx → (store.sessions other).Sound rows store.locks other)
    (other : TxId) :
    ((store.finish tx rows entries).sessions other).Sound (store.finish tx rows entries).rows
      (store.finish tx rows entries).locks other := by
  show (Function.update store.sessions tx .idle other).Sound rows (store.locks.release tx) other
  by_cases hOther : other = tx
  · subst hOther
    rw [Function.update_self]
    trivial
  · rw [Function.update_of_ne hOther]
    exact (hOthers other hOther).keep fun _ hOwner => LockTable.owner_release hOther hOwner

theorem finish_same (hGuarded : store.Guarded) {entries : List TokenEntry}
    (hEntries : ∀ entry ∈ entries, (∃ error, entry = .rejected error) ∨
      ∃ tokenHash, entry = .issued tokenHash) :
    (store.finish tx store.rows entries).Guarded where
  unique := hGuarded.unique
  oneActive := hGuarded.oneActive
  sessions := finish_sessions fun other _ => hGuarded.sessions other
  exchanged := by
    intro tokenHash context newToken hEntry
    rcases List.mem_append.mp hEntry with hNew | hOld
    · rcases hEntries _ hNew with ⟨error, hError⟩ | ⟨issued, hIssued⟩
      · cases hError
      · cases hIssued
    · exact hGuarded.exchanged tokenHash context newToken hOld
  revoked := by
    intro familyId cause hEntry
    rcases List.mem_append.mp hEntry with hNew | hOld
    · rcases hEntries _ hNew with ⟨error, hError⟩ | ⟨issued, hIssued⟩
      · cases hError
      · cases hIssued
    · exact hGuarded.revoked familyId cause hOld
  ordered := by
    have hAllowed : ∀ entry ∈ entries, ∀ earlier, entry.Allowed earlier := by
      intro entry hEntry earlier tokenHash context newToken hExchanged
      rcases hEntries entry hEntry with ⟨error, rfl⟩ | ⟨issued, rfl⟩
      · cases hExchanged
      · cases hExchanged
    refine List.pairwise_append.mpr ⟨?_, hGuarded.ordered, fun entry hEntry earlier _ =>
      hAllowed entry hEntry earlier⟩
    exact List.pairwise_of_forall_mem_list fun entry hEntry earlier _ =>
      hAllowed entry hEntry earlier

theorem reject (hGuarded : store.Guarded) (error : RefreshTokenError) :
    (store.reject tx error).Guarded :=
  hGuarded.finish_same fun _ hEntry => Or.inl ⟨error, List.mem_singleton.mp hEntry⟩

theorem finish_used (hGuarded : store.Guarded) {row current : MCPRefreshToken}
    {entries : List TokenEntry} (hCurrent : current ∈ store.rows)
    (hHash : current.tokenHash = row.tokenHash) (hFamily : current.familyId = row.familyId)
    (hActive : current.status = .active) (hLock : store.locks row.tokenHash = some tx)
    (hEntries : entries = [] ∨ ∃ metadata newToken,
      entries = [.exchanged row.tokenHash (row.context metadata) newToken]) :
    (store.finish tx (setStatus [row.tokenHash] .used store.rows) entries).Guarded where
  unique := by
    show ((setStatus [row.tokenHash] .used store.rows).map (·.tokenHash)).Nodup
    rw [map_tokenHash_setStatus]
    exact hGuarded.unique
  oneActive := by
    intro first hFirst second hSecond hFirstActive hSecondActive hSame
    have hFirst := active_of_mem_setStatus (by decide) hFirst hFirstActive
    have hSecond := active_of_mem_setStatus (by decide) hSecond hSecondActive
    exact hGuarded.oneActive first hFirst.1 second hSecond.1 hFirstActive hSecondActive hSame
  sessions := by
    refine finish_sessions fun other hOther => (hGuarded.sessions other).setStatus hOther ?_ ?_
    · intro tokenHash hMem
      rw [List.mem_singleton.mp hMem]
      exact hLock
    · intro old hOld hMem hRevoked
      have hSame : old = current := hGuarded.eq_of_tokenHash hOld hCurrent
        ((List.mem_singleton.mp hMem).trans hHash.symm)
      rw [hSame, hActive] at hRevoked
      cases hRevoked
  exchanged := by
    intro tokenHash context newToken hEntry
    rcases List.mem_append.mp hEntry with hNew | hOld
    · rcases hEntries with rfl | ⟨metadata, issued, rfl⟩
      · cases hNew
      · obtain ⟨rfl, -, -⟩ := TokenEntry.exchanged.inj (List.mem_singleton.mp hNew)
        obtain ⟨next, hNext, hNextHash, -, hStatus⟩ :=
          exists_mem_setStatus [row.tokenHash] .used hCurrent
        refine ⟨next, hNext, hNextHash.trans hHash, ?_⟩
        rw [hStatus, if_pos (List.mem_singleton.mpr hHash)]
        decide
    · obtain ⟨old, hMem, hOldHash, hStatus⟩ := hGuarded.exchanged tokenHash context newToken hOld
      obtain ⟨next, hNext, hNextHash, -, hNextStatus⟩ :=
        exists_mem_setStatus [row.tokenHash] .used hMem
      refine ⟨next, hNext, hNextHash.trans hOldHash, ?_⟩
      rw [hNextStatus]
      split
      · decide
      · exact hStatus
  revoked := by
    intro familyId cause hEntry next hNext hNextFamily
    have hOld : .revoked familyId cause ∈ store.log := by
      rcases List.mem_append.mp hEntry with hNew | hOld
      · rcases hEntries with rfl | ⟨metadata, issued, rfl⟩
        · cases hNew
        · cases List.mem_singleton.mp hNew
      · exact hOld
    rcases mem_setStatus.mp hNext with ⟨hMem, -⟩ | ⟨old, hMem, hOldHash, rfl⟩
    · exact hGuarded.revoked familyId cause hOld next hMem hNextFamily
    · have hRevoked := hGuarded.revoked familyId cause hOld old hMem hNextFamily
      have hSame : old = current := hGuarded.eq_of_tokenHash hMem hCurrent
        ((List.mem_singleton.mp hOldHash).trans hHash.symm)
      rw [hSame, hActive] at hRevoked
      cases hRevoked
  ordered := by
    refine List.pairwise_append.mpr ⟨?_, hGuarded.ordered, ?_⟩
    · rcases hEntries with rfl | ⟨metadata, issued, rfl⟩
      · exact List.Pairwise.nil
      · exact List.pairwise_singleton ..
    · intro entry hEntry earlier hEarlier tokenHash context newToken hExchanged
      rcases hEntries with rfl | ⟨metadata, issued, rfl⟩
      · cases hEntry
      · rw [List.mem_singleton.mp hEntry] at hExchanged
        obtain ⟨rfl, rfl, -⟩ := TokenEntry.exchanged.inj hExchanged
        constructor
        · rintro context newToken rfl
          obtain ⟨old, hMem, hOldHash, hStatus⟩ := hGuarded.exchanged _ _ _ hEarlier
          have hSame : old = current :=
            hGuarded.eq_of_tokenHash hMem hCurrent (hOldHash.trans hHash.symm)
          rw [hSame] at hStatus
          exact hStatus hActive
        · rintro cause rfl
          have hRevoked := hGuarded.revoked _ cause hEarlier current hCurrent hFamily
          rw [hActive] at hRevoked
          cases hRevoked

/-- An active row joins a family that has no active row and is not revoked or
being revoked. -/
theorem insert (hGuarded : store.Guarded) {row : MCPRefreshToken}
    (hFresh : store.scalarOneOrNone row.tokenHash = none)
    (hActive : ∀ old ∈ store.rows, old.familyId = row.familyId → old.status ≠ .active)
    (hRevoking : ∀ tx, ¬ (store.sessions tx).Revokes row.familyId)
    (hRevoked : ∀ cause, .revoked row.familyId cause ∉ store.log) :
    ({ store with rows := row :: store.rows } : TokenStore).Guarded where
  unique := by
    refine List.nodup_cons.mpr ⟨fun hMem => ?_, hGuarded.unique⟩
    obtain ⟨old, hOld, hHash⟩ := List.mem_map.mp hMem
    have hDiffers := List.find?_eq_none.mp hFresh old hOld
    exact hDiffers (decide_eq_true hHash)
  oneActive := by
    intro first hFirst second hSecond hFirstActive hSecondActive hSame
    rcases List.mem_cons.mp hFirst with rfl | hOldFirst <;>
      rcases List.mem_cons.mp hSecond with rfl | hOldSecond
    · rfl
    · exact absurd hSecondActive (hActive second hOldSecond hSame.symm)
    · exact absurd hFirstActive (hActive first hOldFirst hSame)
    · exact hGuarded.oneActive first hOldFirst second hOldSecond hFirstActive hSecondActive hSame
  sessions := fun tx => (hGuarded.sessions tx).insert (hRevoking tx)
  exchanged := by
    intro tokenHash context newToken hEntry
    obtain ⟨old, hOld, hRest⟩ := hGuarded.exchanged tokenHash context newToken hEntry
    exact ⟨old, List.mem_cons_of_mem _ hOld, hRest⟩
  revoked := by
    intro familyId cause hEntry old hOld hFamily
    rcases List.mem_cons.mp hOld with rfl | hOld
    · rw [← hFamily] at hEntry
      exact absurd hEntry (hRevoked cause)
    · exact hGuarded.revoked familyId cause hEntry old hOld hFamily
  ordered := hGuarded.ordered

theorem finish_revoked (hGuarded : store.Guarded) {familyId : FamilyId}
    {cause : Option RefreshTokenError} {locked : List TokenHash}
    (hSession : store.sessions tx = .revoking familyId cause [] locked) :
    (store.finish tx (setStatus locked .revoked store.rows)
      ((cause.map .rejected).toList ++ [.revoked familyId cause])).Guarded := by
  have hSound := hGuarded.sessions tx
  rw [hSession] at hSound
  obtain ⟨hCovers, hLocked⟩ := hSound
  have hKept (row : MCPRefreshToken) (hRow : row ∈ setStatus locked .revoked store.rows)
      (hStatus : row.status ≠ .revoked) : row ∈ store.rows := by
    rcases mem_setStatus.mp hRow with ⟨hOld, -⟩ | ⟨old, -, -, rfl⟩
    · exact hOld
    · exact absurd rfl hStatus
  refine ⟨?_, ?_, ?_, ?_, ?_, ?_⟩
  · show ((setStatus locked .revoked store.rows).map (·.tokenHash)).Nodup
    rw [map_tokenHash_setStatus]
    exact hGuarded.unique
  · intro first hFirst second hSecond hFirstActive hSecondActive hSame
    have hFirst := active_of_mem_setStatus (by decide) hFirst hFirstActive
    have hSecond := active_of_mem_setStatus (by decide) hSecond hSecondActive
    exact hGuarded.oneActive first hFirst.1 second hSecond.1 hFirstActive hSecondActive hSame
  · exact finish_sessions fun other hOther =>
      (hGuarded.sessions other).setStatus hOther hLocked fun _ _ _ _ => rfl
  · intro tokenHash context newToken hEntry
    have hOld : .exchanged tokenHash context newToken ∈ store.log := by
      rcases List.mem_append.mp hEntry with hNew | hOld
      · cases cause <;> simp at hNew
      · exact hOld
    obtain ⟨old, hMem, hOldHash, hStatus⟩ := hGuarded.exchanged tokenHash context newToken hOld
    obtain ⟨next, hNext, hNextHash, -, hNextStatus⟩ :=
      exists_mem_setStatus locked .revoked hMem
    refine ⟨next, hNext, hNextHash.trans hOldHash, ?_⟩
    rw [hNextStatus]
    split
    · decide
    · exact hStatus
  · intro revoked earlier hEntry row hRow hFamily
    by_contra hStatus
    have hOld := hKept row hRow hStatus
    rcases List.mem_append.mp hEntry with hNew | hEntry
    · have hSame : revoked = familyId := by
        cases cause <;> simp at hNew <;> exact hNew.1
      rcases hCovers row hOld (hFamily.trans hSame) hStatus with hRemaining | hLockedRow
      · cases hRemaining
      · rcases mem_setStatus.mp hRow with ⟨-, hUnlocked⟩ | ⟨old, -, -, rfl⟩
        · exact hUnlocked hLockedRow
        · exact hStatus rfl
    · exact hStatus (hGuarded.revoked revoked earlier hEntry row hOld hFamily)
  · have hAllowed : ∀ entry ∈ (cause.map TokenEntry.rejected).toList ++
        [TokenEntry.revoked familyId cause], ∀ earlier, entry.Allowed earlier := by
      rintro entry hEntry earlier tokenHash context newToken rfl
      cases cause <;> simp at hEntry
    refine List.pairwise_append.mpr ⟨?_, hGuarded.ordered, fun entry hEntry earlier _ =>
      hAllowed entry hEntry earlier⟩
    exact List.pairwise_of_forall_mem_list fun entry hEntry earlier _ =>
      hAllowed entry hEntry earlier

/-! ## The statements -/

section Statements

variable {config : TokenConfig} {next : TokenStore}

theorem scalarOneOrNone_eq_some {tokenHash : TokenHash} {row : MCPRefreshToken}
    (hRow : store.scalarOneOrNone tokenHash = some row) :
    row ∈ store.rows ∧ row.tokenHash = tokenHash := by
  refine ⟨List.mem_of_find?_eq_some hRow, of_decide_eq_true ?_⟩
  exact List.find?_some (p := fun row : MCPRefreshToken => row.tokenHash = tokenHash) hRow

theorem status_of_accepted {row : MCPRefreshToken} {clientId : String} {now : Int}
    (hAccepted : row.present clientId now = .accepted) : row.status = .active := by
  unfold MCPRefreshToken.present at hAccepted
  by_contra hStatus
  by_cases hUsed : row.status = .used
  · rw [if_pos hUsed] at hAccepted
    cases hAccepted
  · rw [if_neg hUsed, if_pos hStatus] at hAccepted
    cases hAccepted

variable (hGuarded : store.Guarded)
include hGuarded

theorem issueRefreshToken {token familyId userId organizationId clientId : String}
    {metadata : RefreshTokenMetadata} {now : Int} (hNew : ¬ store.Named familyId)
    (hNext : store.issueRefreshToken config tx token familyId userId organizationId clientId
      metadata now = some next) : next.Guarded := by
  unfold TokenStore.issueRefreshToken at hNext
  dsimp only at hNext
  split at hNext
  · rename_i hFresh
    cases hNext
    have hIssued :
        (store.finish tx store.rows [.issued (config.hashToken token)]).Guarded :=
      hGuarded.finish_same fun _ hEntry => Or.inr ⟨_, List.mem_singleton.mp hEntry⟩
    refine hIssued.insert hFresh (fun old hOld hFamily => ?_) (fun other hRevokes => ?_)
      (fun cause hEntry => ?_)
    · exact absurd (Or.inl ⟨old, hOld, hFamily⟩) hNew
    · by_cases hOther : other = tx
      · subst hOther
        simp [finish, Session.Revokes] at hRevokes
      · simp only [finish, Function.update_of_ne hOther] at hRevokes
        exact hNew (Or.inr (Or.inl ⟨other, hRevokes⟩))
    · rcases List.mem_append.mp hEntry with hIssued | hOld
      · cases List.mem_singleton.mp hIssued
      · exact hNew (Or.inr (Or.inr ⟨cause, hOld⟩))
  · cases hNext

theorem rotateRefreshToken {token clientId newToken : String} {now : Int}
    (hNext : store.rotateRefreshToken config tx token clientId newToken now = some next) :
    next.Guarded := by
  unfold TokenStore.rotateRefreshToken at hNext
  split at hNext
  · cases hNext
    exact hGuarded.reject _
  · rename_i row hRow
    obtain ⟨hMem, -⟩ := scalarOneOrNone_eq_some hRow
    split at hNext
    · rename_i hFree
      have hLocked := hGuarded.lock hFree
      dsimp only at hNext
      split at hNext
      · cases hNext
        exact hLocked.reject _
      · cases hNext
        exact hLocked.enter trivial
      · rename_i hAccepted
        split at hNext
        · cases hNext
          exact hLocked.reject _
        · cases hNext
          refine hLocked.enter ⟨⟨row, hMem, rfl, rfl, status_of_accepted hAccepted⟩, ?_⟩
          exact LockTable.take_self
    · cases hNext

/-- The commit of a rotation that no revocation of its family overlaps. -/
theorem rotateCommit
    (hSeparate : ∀ row metadata newToken expiresAt,
      store.sessions tx = .rotating row metadata newToken expiresAt →
      ∀ other, ¬ (store.sessions other).Revokes row.familyId)
    (hNext : store.rotateCommit config tx = some next) : next.Guarded := by
  unfold TokenStore.rotateCommit at hNext
  split at hNext
  · rename_i row metadata newToken expiresAt hSession
    have hSound := hGuarded.sessions tx
    rw [hSession] at hSound
    obtain ⟨⟨current, hMem, hHash, hFamily, hActive⟩, hLock⟩ := hSound
    dsimp only at hNext
    split at hNext
    · rename_i hFresh
      cases hNext
      have hUsed := hGuarded.finish_used hMem hHash hFamily hActive hLock
        (Or.inr ⟨metadata, some newToken, rfl⟩)
      refine hUsed.insert ?_ (fun old hOld hSame hOldActive => ?_)
        (fun other hRevokes => ?_) (fun cause hEntry => ?_)
      · refine List.find?_eq_none.mpr fun old hOld hSame => ?_
        have hHashes : old.tokenHash ∈ store.rows.map (·.tokenHash) :=
          map_tokenHash_setStatus ▸ List.mem_map_of_mem hOld
        obtain ⟨before, hBefore, hBeforeHash⟩ := List.mem_map.mp hHashes
        refine List.find?_eq_none.mp hFresh before hBefore (decide_eq_true ?_)
        exact hBeforeHash.trans (of_decide_eq_true hSame)
      · have hBefore := active_of_mem_setStatus (by decide) hOld hOldActive
        have hOldHash := hGuarded.oneActive old hBefore.1 current hMem hOldActive hActive
          (hSame.trans hFamily.symm)
        exact hBefore.2 (List.mem_singleton.mpr (hOldHash.trans hHash))
      · by_cases hOther : other = tx
        · subst hOther
          simp [finish, Session.Revokes] at hRevokes
        · simp only [finish, Function.update_of_ne hOther] at hRevokes
          exact hSeparate row metadata newToken expiresAt hSession other hRevokes
      · rcases List.mem_append.mp hEntry with hExchanged | hOld
        · cases List.mem_singleton.mp hExchanged
        · have hRevoked := hGuarded.revoked _ cause hOld current hMem hFamily
          rw [hActive] at hRevoked
          cases hRevoked
    · cases hNext
  · cases hNext

theorem consumeRefreshToken (token clientId : String) (now : Int) :
    (store.consumeRefreshToken config tx token clientId now).Guarded := by
  unfold TokenStore.consumeRefreshToken
  split
  · exact hGuarded.reject _
  · rename_i row hRow
    split
    · exact hGuarded.reject _
    · exact hGuarded.enter trivial
    · exact hGuarded.enter ⟨row, (scalarOneOrNone_eq_some hRow).1, rfl, rfl⟩

theorem consumeUpdate {now : Int} (hNext : store.consumeUpdate tx now = some next) :
    next.Guarded := by
  unfold TokenStore.consumeUpdate at hNext
  split at hNext
  · rename_i row clientId hSession
    have hSound := hGuarded.sessions tx
    rw [hSession] at hSound
    obtain ⟨seen, hSeen, hSeenHash, hSeenFamily⟩ := hSound
    split at hNext
    · cases hNext
      exact hGuarded.reject _
    · rename_i current hCurrent
      obtain ⟨hMem, hHash⟩ := scalarOneOrNone_eq_some hCurrent
      split at hNext
      · rename_i hMatches
        split at hNext
        · rename_i hFree
          cases hNext
          have hSame : seen = current :=
            hGuarded.eq_of_tokenHash hSeen hMem (hSeenHash.trans hHash.symm)
          refine (hGuarded.lock hFree).enter ⟨⟨current, hMem, hHash, ?_, hMatches.1⟩, ?_⟩
          · rw [← hSame]
            exact hSeenFamily
          · exact LockTable.take_self
        · cases hNext
      · cases hNext
        exact hGuarded.reject _
  · cases hNext

theorem consumeCommit (hNext : store.consumeCommit config tx = some next) : next.Guarded := by
  unfold TokenStore.consumeCommit at hNext
  split at hNext
  · rename_i row hSession
    have hSound := hGuarded.sessions tx
    rw [hSession] at hSound
    obtain ⟨⟨current, hMem, hHash, hFamily, hActive⟩, hLock⟩ := hSound
    dsimp only at hNext
    split at hNext
    · cases hNext
      exact hGuarded.finish_used hMem hHash hFamily hActive hLock (Or.inl rfl)
    · rename_i metadata hDecoded
      cases hNext
      exact hGuarded.finish_used hMem hHash hFamily hActive hLock
        (Or.inr ⟨metadata, none, rfl⟩)
  · cases hNext

/-- The rows that the `UPDATE` will lock are all those it has to revoke. -/
theorem revokeUpdate (hNext : store.revokeUpdate tx = some next) : next.Guarded := by
  unfold TokenStore.revokeUpdate at hNext
  split at hNext
  · rename_i familyId cause hSession
    cases hNext
    refine hGuarded.enter ⟨fun row hRow hFamily hStatus => Or.inl ?_, fun _ hLocked => ?_⟩
    · refine List.mem_map_of_mem (List.mem_filter.mpr ⟨hRow, ?_⟩)
      exact decide_eq_true ⟨hFamily, hStatus⟩
    · cases hLocked
  · cases hNext

theorem revokeRow {tokenHash : TokenHash} (hNext : store.revokeRow tx tokenHash = some next) :
    next.Guarded := by
  unfold TokenStore.revokeRow at hNext
  split at hNext
  · rename_i familyId cause remaining locked hSession
    have hSound := hGuarded.sessions tx
    rw [hSession] at hSound
    split at hNext
    · rename_i hFree
      cases hNext
      refine (hGuarded.lock hFree.2).enter ⟨fun row hRow hFamily hStatus => ?_, ?_⟩
      · by_cases hTaken : row.tokenHash = tokenHash
        · exact Or.inr (List.mem_cons.mpr (Or.inl hTaken))
        · rcases hSound.1 row hRow hFamily hStatus with hRemaining | hLocked
          · exact Or.inl ((List.mem_erase_of_ne hTaken).mpr hRemaining)
          · exact Or.inr (List.mem_cons_of_mem _ hLocked)
      · intro locked hLocked
        rcases List.mem_cons.mp hLocked with rfl | hLocked
        · exact LockTable.take_self
        · exact hFree.2.owner_take (hSound.2 locked hLocked)
    · cases hNext
  · cases hNext

theorem revokeCommit (hNext : store.revokeCommit tx = some next) : next.Guarded := by
  unfold TokenStore.revokeCommit at hNext
  split at hNext
  · rename_i familyId cause locked hSession
    cases hNext
    exact hGuarded.finish_revoked hSession
  · cases hNext

end Statements

end TokenStore.Guarded

/-! ## Runs -/

theorem TokenStep.guarded {config : TokenConfig} {store next : TokenStore} {event : TokenEvent}
    (hStep : TokenStep config store event next) (hSeparate : event.Separate store)
    (hGuarded : store.Guarded) : next.Guarded := by
  obtain ⟨hRun, hFresh⟩ := hStep
  obtain ⟨tx, statement⟩ := event
  have hBegins {start : Option TokenStore}
      (hStart : (if store.sessions tx = .idle then start else none) = some next) :
      start = some next := by
    split at hStart
    · exact hStart
    · cases hStart
  cases statement with
  | issue token familyId generated userId organizationId clientId metadata now =>
      cases familyId with
      | none =>
          exact hGuarded.issueRefreshToken
            (hFresh token generated userId organizationId clientId metadata now rfl)
            (hBegins hRun)
      | some familyId => exact hGuarded.issueRefreshToken hSeparate (hBegins hRun)
  | rotate token clientId newToken now => exact hGuarded.rotateRefreshToken (hBegins hRun)
  | rotateCommit => exact hGuarded.rotateCommit hSeparate hRun
  | consume token clientId now =>
      rw [← Option.some.inj (hBegins hRun)]
      exact hGuarded.consumeRefreshToken token clientId now
  | consumeUpdate now => exact hGuarded.consumeUpdate hRun
  | consumeCommit => exact hGuarded.consumeCommit hRun
  | revokeFamily familyId =>
      rw [← Option.some.inj (hBegins hRun)]
      exact hGuarded.enter trivial
  | revokeUpdate => exact hGuarded.revokeUpdate hRun
  | revokeRow tokenHash => exact hGuarded.revokeRow hRun
  | revokeCommit => exact hGuarded.revokeCommit hRun
  | rollback =>
      cases hRun
      exact hGuarded.finish_same fun _ hEntry => by cases hEntry

theorem TokenStore.guarded_empty : TokenStore.empty.Guarded where
  unique := List.nodup_nil
  oneActive := fun _ hRow => by cases hRow
  sessions := fun _ => trivial
  exchanged := fun _ _ _ hEntry => by cases hEntry
  revoked := fun _ _ hEntry => by cases hEntry
  ordered := List.Pairwise.nil

/-- The runs whose steps all meet the condition. -/
abbrev SeparateRun (config : TokenConfig) : List TokenEvent → TokenStore → Prop :=
  Run (fun store event next => TokenStep config store event next ∧ event.Separate store) .empty

/-- A run in which no rotation commits while its family is being revoked, and
no token is issued into an old family, is safe. -/
theorem token_family_safety {config : TokenConfig} {events : List TokenEvent}
    {store : TokenStore} (hRun : SeparateRun config events store) : store.Safe := by
  refine TokenStore.Guarded.safe (Run.invariant (fun _ store => store.Guarded)
    TokenStore.guarded_empty ?_ hRun)
  exact fun event hGuarded hStep => hStep.1.guarded hStep.2 hGuarded

def plainConfig : TokenConfig where
  hashToken := ("sha256:" ++ ·)
  encodeMetadata := fun _ => []
  decodeMetadata := fun _ => some ⟨"user@example.com", false, "openid", "mcp"⟩
  refreshTokenLifetime := 3600

def firstIssue : TokenEvent :=
  ⟨0, .issue "token-0" none "family" "user" "org" "client"
    ⟨"user@example.com", false, "openid", "mcp"⟩ 0⟩

theorem not_named_empty {familyId : FamilyId} : ¬ TokenStore.empty.Named familyId := by
  rintro (⟨row, hRow, -⟩ | ⟨tx, hRevokes⟩ | ⟨cause, hEntry⟩)
  · cases hRow
  · exact hRevokes
  · cases hEntry

theorem TokenRun.play {events : List TokenEvent} {next : TokenStore}
    (hPlay : (firstIssue :: events).foldlM (TokenStore.step plainConfig) .empty = some next)
    (hIssues : ∀ event ∈ events, ∀ token generated userId organizationId clientId metadata now,
      event.statement ≠ .issue token none generated userId organizationId clientId metadata
        now) :
    TokenRun plainConfig (firstIssue :: events).reverse next := by
  rw [List.foldlM_cons] at hPlay
  obtain ⟨middle, hFirst, hRest⟩ := Option.bind_eq_some_iff.mp hPlay
  rw [List.reverse_cons]
  have hStart : TokenRun plainConfig [firstIssue] middle := by
    refine .cons firstIssue .nil ⟨hFirst, ?_⟩
    intro token generated userId organizationId clientId metadata now _
    exact not_named_empty
  refine Run.append hStart (Run.of_foldlM (fun event hMem state after hAfter => ?_) hRest)
  refine ⟨hAfter, fun token generated userId organizationId clientId metadata now hIssue => ?_⟩
  exact absurd hIssue (hIssues event hMem token generated userId organizationId clientId
    metadata now)

/-- `token-0` is presented again after its rotation, while another call is about
to consume its successor: the family is revoked, and that call fails. -/
def replayedToken : List TokenEvent :=
  [⟨1, .consume "token-1" "client" 2⟩, ⟨2, .rotate "token-0" "client" "token-x" 2⟩,
    ⟨2, .revokeUpdate⟩, ⟨2, .revokeRow "sha256:token-0"⟩, ⟨2, .revokeRow "sha256:token-1"⟩,
    ⟨2, .revokeCommit⟩, ⟨1, .consumeUpdate 3⟩]

/-- A token is issued and exchanged, and then replayed. -/
theorem firstRotation_token_family_safety : ∃ store : TokenStore,
    SeparateRun plainConfig (replayedToken.reverse ++ [⟨0, .rotateCommit⟩,
      ⟨0, .rotate "token-0" "client" "token-1" 1⟩, firstIssue]) store ∧
    store.log.take 3 = [.rejected .concurrentlyConsumed, .rejected .replayDetected,
      .revoked "family" (some .replayDetected)] ∧
    store.Safe := by
  obtain ⟨first, hFirst⟩ : ∃ first, TokenStore.empty.step plainConfig firstIssue = some first :=
    ⟨_, rfl⟩
  obtain ⟨second, hSecond⟩ : ∃ second, first.step plainConfig
      ⟨0, .rotate "token-0" "client" "token-1" 1⟩ = some second := by
    cases hFirst
    exact ⟨_, rfl⟩
  have hIdle : ∀ familyId tx, ¬ (second.sessions tx).Revokes familyId := by
    cases hFirst
    cases hSecond
    intro familyId tx hRevokes
    by_cases hTx : tx = 0
    · subst hTx
      exact hRevokes
    · simp [TokenStore.enter, TokenStore.lock, TokenStore.finish, TokenStore.empty,
        Function.update_of_ne hTx, Session.Revokes] at hRevokes
  obtain ⟨third, hThird⟩ : ∃ third, second.step plainConfig ⟨0, .rotateCommit⟩ = some third := by
    cases hFirst
    cases hSecond
    exact ⟨_, rfl⟩
  have hRotated : SeparateRun plainConfig [⟨0, .rotateCommit⟩,
      ⟨0, .rotate "token-0" "client" "token-1" 1⟩, firstIssue] third := by
    refine .cons _ (.cons _ (.cons _ .nil ⟨⟨hFirst, ?_⟩, trivial⟩) ⟨⟨hSecond, ?_⟩, trivial⟩)
      ⟨⟨hThird, ?_⟩, fun row metadata newToken expiresAt _ tx => hIdle row.familyId tx⟩
    · exact fun _ _ _ _ _ _ _ _ => not_named_empty
    · exact fun _ _ _ _ _ _ _ hIssue => by cases hIssue
    · exact fun _ _ _ _ _ _ _ hIssue => by cases hIssue
  obtain ⟨store, hReplayed, hLog⟩ : ∃ store,
      replayedToken.foldlM (TokenStore.step plainConfig) third = some store ∧
      store.log.take 3 = [.rejected .concurrentlyConsumed, .rejected .replayDetected,
        .revoked "family" (some .replayDetected)] := by
    cases hFirst
    cases hSecond
    cases hThird
    exact ⟨_, rfl, rfl⟩
  -- the replay issues no token and commits no rotation
  have hRun := hRotated.append (Run.of_foldlM (fun event hEvent state next hNext => by
    simp only [replayedToken, List.mem_cons, List.not_mem_nil, or_false] at hEvent
    rcases hEvent with rfl | rfl | rfl | rfl | rfl | rfl | rfl <;>
      exact ⟨⟨hNext, fun _ _ _ _ _ _ _ hIssue => by cases hIssue⟩, trivial⟩) hReplayed)
  exact ⟨store, hRun, hLog, token_family_safety hRun⟩

/-- Session 1 rotates `token-1` while session 2 revokes the family for a replay
of `token-0`.  The successor is active after that, and session 3 exchanges it. -/
def overlookedSuccessor : List TokenEvent :=
  [⟨0, .rotate "token-0" "client" "token-1" 1⟩, ⟨0, .rotateCommit⟩,
    ⟨1, .rotate "token-1" "client" "token-2" 2⟩,
    ⟨2, .rotate "token-0" "client" "token-x" 2⟩, ⟨2, .revokeUpdate⟩,
    ⟨1, .rotateCommit⟩,
    ⟨2, .revokeRow "sha256:token-0"⟩, ⟨2, .revokeRow "sha256:token-1"⟩, ⟨2, .revokeCommit⟩,
    ⟨3, .rotate "token-2" "client" "token-3" 3⟩, ⟨3, .rotateCommit⟩]

theorem overlookedSuccessor_not_safe : ∃ store : TokenStore,
    TokenRun plainConfig (firstIssue :: overlookedSuccessor).reverse store ∧ ¬ store.Safe := by
  let context : RefreshTokenContext :=
    ⟨"family", "user", "org", "client", ⟨"user@example.com", false, "openid", "mcp"⟩⟩
  have hLog : ((firstIssue :: overlookedSuccessor).foldlM (TokenStore.step plainConfig)
      .empty).map (·.log) = some
      [.exchanged "sha256:token-2" context (some "token-3"),
        .rejected .replayDetected, .revoked "family" (some .replayDetected),
        .exchanged "sha256:token-1" context (some "token-2"),
        .exchanged "sha256:token-0" context (some "token-1"),
        .issued "sha256:token-0"] := by
    decide +kernel
  obtain ⟨store, hPlay, hStoreLog⟩ := Option.map_eq_some_iff.mp hLog
  refine ⟨store, TokenRun.play hPlay ?_, fun hSafe => ?_⟩
  · intro event hEvent token generated userId organizationId clientId metadata now hIssue
    simp only [overlookedSuccessor, List.mem_cons, List.not_mem_nil, or_false] at hEvent
    rcases hEvent with rfl | rfl | rfl | rfl | rfl | rfl | rfl | rfl | rfl | rfl | rfl <;>
      cases hIssue
  · have hOrdered := hSafe.ordered
    rw [hStoreLog] at hOrdered
    have hRevoked := (List.pairwise_cons.mp hOrdered).1 (.revoked "family" (some .replayDetected))
      (by simp)
    exact (hRevoked _ _ _ rfl).2 _ rfl

end Tracecat
