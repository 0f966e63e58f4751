import Mathlib.Data.List.Dedup
import Tracecat.Mcp.Issuer

/-!
# The provenance of tokens

Every access token of a run goes back to a user who has authorized it: through one code, which
is exchanged once at most, by who knows the verifier, and through the rotations of the refresh
token that the code was exchanged for.
-/

namespace Tracecat

theorem eq_of_update {α β : Type} [DecidableEq α] {table : α → β} {key other : α}
    {new value : β} (hValue : Function.update table key new other = value) (hNew : new ≠ value) :
    other ≠ key ∧ table other = value := by
  by_cases hKey : other = key
  · subst hKey
    rw [Function.update_self] at hValue
    exact absurd hValue hNew
  · rw [Function.update_of_ne hKey] at hValue
    exact ⟨hKey, hValue⟩

/-! ## What the rows of refresh tokens keep -/

/-- What a row keeps for as long as it is there. -/
structure TokenOrigin where
  tokenHash : TokenHash
  familyId : FamilyId
  userId : String
  organizationId : String
  encryptedMetadata : List UInt8

def MCPRefreshToken.origin (row : MCPRefreshToken) : TokenOrigin :=
  ⟨row.tokenHash, row.familyId, row.userId, row.organizationId, row.encryptedMetadata⟩

/-- A property of what rows keep holds for all rows, and for those that are being rotated. -/
structure TokenStore.Carries (config : TokenConfig) (Owned : TokenOrigin → Prop)
    (store : TokenStore) : Prop where
  rows : ∀ row ∈ store.rows, Owned row.origin
  rotating : ∀ {tx row metadata newToken expiresAt},
    store.sessions tx = .rotating row metadata newToken expiresAt →
      Owned row.origin ∧
        config.decodeMetadata row.encryptedMetadata = some metadata

/-- The statements of a rotation before its commit, those of a revocation, and the end of a
session. -/
def TokenStatement.keepsOrigins : TokenStatement → Bool
  | .rotate .. | .revokeUpdate | .revokeRow _ | .revokeCommit | .rollback => true
  | _ => false

namespace TokenStore.Carries

variable {config : TokenConfig} {Owned : TokenOrigin → Prop}
  {store next : TokenStore} {tx : TxId}

variable (hCarries : store.Carries config Owned)
include hCarries

theorem mono {Later : TokenOrigin → Prop} (hLater : ∀ origin, Owned origin → Later origin) :
    store.Carries config Later where
  rows row hRow := hLater _ (hCarries.rows row hRow)
  rotating hSession := ⟨hLater _ (hCarries.rotating hSession).1, (hCarries.rotating hSession).2⟩

theorem finish {rows : List MCPRefreshToken} {entries : List TokenEntry}
    (hRows : ∀ row ∈ rows, Owned row.origin) :
    (store.finish tx rows entries).Carries config Owned where
  rows := hRows
  rotating hSession := hCarries.rotating (eq_of_update hSession (by simp)).2

theorem reject (error : RefreshTokenError) :
    (store.reject tx error).Carries config Owned :=
  hCarries.finish hCarries.rows

theorem lock (tokenHash : TokenHash) :
    (store.lock tx tokenHash).Carries config Owned where
  rows := hCarries.rows
  rotating := hCarries.rotating

theorem enter {session : Session}
    (hSession : ∀ row metadata newToken expiresAt,
      session ≠ .rotating row metadata newToken expiresAt) :
    (store.enter tx session).Carries config Owned where
  rows := hCarries.rows
  rotating hNext := hCarries.rotating (eq_of_update hNext (hSession _ _ _ _)).2

theorem setStatus (hashes : List TokenHash) (status : TokenStatus) :
    ∀ row ∈ setStatus hashes status store.rows, Owned row.origin := by
  intro row hRow
  obtain ⟨old, hOld, rfl⟩ := List.mem_map.mp hRow
  have hOwned := hCarries.rows old hOld
  split <;> exact hOwned

theorem rotateRefreshToken {token clientId newToken : String} {now : Int}
    (hNext : store.rotateRefreshToken config tx token clientId newToken now = some next) :
    next.Carries config Owned := by
  unfold TokenStore.rotateRefreshToken at hNext
  split at hNext
  · cases hNext
    exact hCarries.reject _
  · next row hRow =>
      have hMem : row ∈ store.rows := List.mem_of_find?_eq_some hRow
      split at hNext
      · have hLocked := @lock _ _ _ tx hCarries row.tokenHash
        dsimp only at hNext
        split at hNext
        · cases hNext
          exact hLocked.reject _
        · cases hNext
          exact hLocked.enter (by simp)
        · split at hNext
          · cases hNext
            exact hLocked.reject _
          · next metadata hDecoded =>
              cases hNext
              refine ⟨hLocked.rows, fun {other old oldMetadata newer expiresAt} hSession => ?_⟩
              by_cases hOther : other = tx
              · subst hOther
                cases (Function.update_self ..).symm.trans hSession
                exact ⟨hCarries.rows row hMem, hDecoded⟩
              · exact hCarries.rotating ((Function.update_of_ne hOther ..).symm.trans hSession)
      · cases hNext

theorem rotateCommit
    (hSuccessor : ∀ row metadata newToken expiresAt,
      store.sessions tx = .rotating row metadata newToken expiresAt →
      Owned (row.successor (config.hashToken newToken) expiresAt).origin)
    (hNext : store.rotateCommit config tx = some next) : next.Carries config Owned := by
  unfold TokenStore.rotateCommit at hNext
  split at hNext
  · next row metadata newToken expiresAt hSession =>
      dsimp only at hNext
      split at hNext
      · cases hNext
        exact hCarries.finish (List.forall_mem_cons.mpr
          ⟨hSuccessor row metadata newToken expiresAt hSession, hCarries.setStatus _ _⟩)
      · cases hNext
  · cases hNext

theorem revokeUpdate (hNext : store.revokeUpdate tx = some next) : next.Carries config Owned := by
  unfold TokenStore.revokeUpdate at hNext
  split at hNext
  · cases hNext
    exact hCarries.enter (by simp)
  · cases hNext

theorem revokeRow {tokenHash : TokenHash} (hNext : store.revokeRow tx tokenHash = some next) :
    next.Carries config Owned := by
  unfold TokenStore.revokeRow at hNext
  split at hNext
  · split at hNext
    · cases hNext
      exact (hCarries.lock tokenHash).enter (by simp)
    · cases hNext
  · cases hNext

theorem revokeCommit (hNext : store.revokeCommit tx = some next) : next.Carries config Owned := by
  unfold TokenStore.revokeCommit at hNext
  split at hNext
  · cases hNext
    exact hCarries.finish (hCarries.setStatus _ _)
  · cases hNext

theorem issueRefreshToken {token familyId userId organizationId clientId : String}
    {metadata : RefreshTokenMetadata} {now : Int}
    (hOwned : Owned ⟨config.hashToken token, familyId, userId, organizationId,
      config.encodeMetadata metadata⟩)
    (hNext : store.issueRefreshToken config tx token familyId userId organizationId clientId
      metadata now = some next) : next.Carries config Owned := by
  unfold TokenStore.issueRefreshToken at hNext
  dsimp only at hNext
  split at hNext
  · cases hNext
    exact hCarries.finish (List.forall_mem_cons.mpr ⟨hOwned, hCarries.rows⟩)
  · cases hNext

end TokenStore.Carries

namespace Oidc

/-! ## Justified logs -/

/-- The access token speaks for the user who has authorized the code, in the organization of
the user, and asks for no more than was authorized. -/
structure AccessClaims.SpeaksFor (config : IssuerConfig) (claims : AccessClaims)
    (data : AuthCodeData) : Prop where
  sub : claims.sub = data.userId
  organizationId : claims.organizationId = data.organizationId
  email : claims.email = data.email
  ordinary : claims.isPlatformSuperuser = false
  scope : claims.scope = config.stripRefreshScope data.scope
  aud : claims.aud = data.resource
  iss : claims.iss = config.issuerUrl

/-- The visit is of a user in one organization, and these are the ones of the code. -/
def Visit.Authorizes (visit : Visit) (data : AuthCodeData) : Prop :=
  ∃ user, visit.user = some user ∧ data.userId = user.id ∧ data.email = user.email ∧
    ∀ organizationId, organizationId ∈ visit.organizationIds ↔
      organizationId = data.organizationId

def IssuerEntry.exchanges : IssuerEntry → Option String
  | .granted grant => some grant.data.code
  | _ => none

def IssuerEntry.resumes : IssuerEntry → Option String
  | .resumed txn _ _ => some txn.transactionId
  | _ => none

def Exchanged (log : List IssuerEntry) (code : String) : Prop :=
  ∃ entry ∈ log, entry.exchanges = some code

/-- The refresh token of a hash was issued in the family, for a code or by a rotation. -/
def IssuedIn (config : IssuerConfig) (log : List IssuerEntry) (familyId : FamilyId)
    (tokenHash : TokenHash) : Prop :=
  (∃ grant, .granted grant ∈ log ∧ grant.familyId = some familyId ∧
    grant.refreshToken.map config.tokens.hashToken = some tokenHash) ∨
  ∃ presented claims newToken, .refreshed presented familyId claims newToken ∈ log ∧
    config.tokens.hashToken newToken = tokenHash

def Resumed (log : List IssuerEntry) (txnId : String) : Prop :=
  ∃ entry ∈ log, entry.resumes = some txnId

/-- What was minted for a code. -/
structure Grant.Minted (config : IssuerConfig) (grant : Grant) : Prop where
  inTime : grant.presentedAt - grant.data.createdAt ≤ config.authCodeLifetime
  redirectUri : grant.redirectUri = grant.data.redirectUri
  verifier : config.challengeOf grant.codeVerifier = Bytes.ofText grant.data.codeChallenge
  claims : grant.claims.SpeaksFor config grant.data

/-- What has to be in the log before an entry. -/
def IssuerEntry.Justified (config : IssuerConfig) (earlier : List IssuerEntry) :
    IssuerEntry → Prop
  | .authorized visit data => visit.Authorizes data ∧ data.isPlatformSuperuser = false ∧
      data.clientId = internalClientId ∧ data.codeChallengeMethod = "S256" ∧
      config.normalizeDefaultPortUri data.redirectUri =
        config.normalizeDefaultPortUri config.allowedRedirectUri
  | .resumed txn ip now => .deferred txn ∈ earlier ∧ ¬ Resumed earlier txn.transactionId ∧
      config.hashIp ip = txn.boundIp ∧ now - txn.createdAt ≤ config.resumeTransactionLifetime
  | .granted grant => (∃ visit, .authorized visit grant.data ∈ earlier) ∧
      ¬ Exchanged earlier grant.data.code ∧ grant.Minted config ∧
      (grant.refreshToken ≠ none → offlineAccessScope ∈ words grant.claims.scope) ∧
      ∀ familyId, grant.familyId = some familyId → ∀ other, .granted other ∈ earlier →
        other.familyId ≠ some familyId
  | .refreshed tokenHash familyId claims _ => IssuedIn config earlier familyId tokenHash ∧
      ∃ grant, .granted grant ∈ earlier ∧ grant.familyId = some familyId ∧
        claims.SpeaksFor config grant.data
  | _ => True

/-- Every entry is justified by those before it. -/
def JustifiedLog (config : IssuerConfig) : List IssuerEntry → Prop
  | [] => True
  | entry :: earlier => entry.Justified config earlier ∧ JustifiedLog config earlier

variable {config : IssuerConfig} {issuer next : Issuer} {log : List IssuerEntry}

theorem JustifiedLog.justified (hLog : JustifiedLog config log) {entry : IssuerEntry}
    (hEntry : entry ∈ log) : ∃ earlier ⊆ log, entry.Justified config earlier := by
  induction log with
  | nil => cases hEntry
  | cons head log ih =>
      rcases List.mem_cons.mp hEntry with rfl | hOld
      · exact ⟨log, List.subset_cons_self _ _, hLog.1⟩
      · obtain ⟨earlier, hSubset, hJustified⟩ := ih hLog.2 hOld
        exact ⟨earlier, fun _ hMem => List.mem_cons_of_mem _ (hSubset hMem), hJustified⟩

/-! ## The invariant -/

/-- A code that was authorized and is not exchanged. -/
structure Unused (log : List IssuerEntry) (data : AuthCodeData) : Prop where
  authorized : ∃ visit, .authorized visit data ∈ log
  exchanged : ¬ Exchanged log data.code

theorem Unused.cons {data : AuthCodeData} (hUnused : Unused log data) {entry : IssuerEntry}
    (hEntry : entry.exchanges ≠ some data.code) : Unused (entry :: log) data := by
  obtain ⟨⟨visit, hVisit⟩, hExchanged⟩ := hUnused
  refine ⟨⟨visit, List.mem_cons_of_mem _ hVisit⟩, ?_⟩
  unfold Exchanged
  rw [List.exists_mem_cons_iff]
  exact not_or.mpr ⟨hEntry, hExchanged⟩

theorem IssuedIn.cons {familyId : FamilyId} {tokenHash : TokenHash}
    (hIssued : IssuedIn config log familyId tokenHash) (entry : IssuerEntry) :
    IssuedIn config (entry :: log) familyId tokenHash := by
  rcases hIssued with ⟨grant, hGrant, hRest⟩ | ⟨presented, claims, newToken, hEntry, hHash⟩
  · exact .inl ⟨grant, List.mem_cons_of_mem _ hGrant, hRest⟩
  · exact .inr ⟨presented, claims, newToken, List.mem_cons_of_mem _ hEntry, hHash⟩

/-- The owner and the metadata are those of the code that the family began with. -/
def OfGrant (config : IssuerConfig) (log : List IssuerEntry) (origin : TokenOrigin) : Prop :=
  ∃ grant, .granted grant ∈ log ∧ grant.familyId = some origin.familyId ∧
    origin.userId = grant.data.userId ∧ origin.organizationId = grant.data.organizationId ∧
    grant.data.isPlatformSuperuser = false ∧ origin.encryptedMetadata =
      config.tokens.encodeMetadata (Issuer.grantMetadata config grant.data)

theorem OfGrant.cons {origin : TokenOrigin} (hOwner : OfGrant config log origin)
    (entry : IssuerEntry) : OfGrant config (entry :: log) origin := by
  obtain ⟨grant, hGrant, hRest⟩ := hOwner
  exact ⟨grant, List.mem_cons_of_mem _ hGrant, hRest⟩

/-- A refresh token of a family, with the owner of the family. -/
structure Descends (config : IssuerConfig) (log : List IssuerEntry) (origin : TokenOrigin) :
    Prop where
  issued : IssuedIn config log origin.familyId origin.tokenHash
  owner : OfGrant config log origin

theorem Descends.cons {origin : TokenOrigin} (hDescends : Descends config log origin)
    (entry : IssuerEntry) : Descends config (entry :: log) origin :=
  ⟨hDescends.issued.cons entry, hDescends.owner.cons entry⟩

/-- What holds in every state of the issuer. -/
structure Issuer.Traced (config : IssuerConfig) (issuer : Issuer) : Prop where
  justified : JustifiedLog config issuer.log
  codes : ∀ {code data}, issuer.codes code = some data →
    data.code = code ∧ Unused issuer.log data
  resumes : ∀ {txnId txn}, issuer.resumes txnId = some txn → txn.transactionId = txnId ∧
    .deferred txn ∈ issuer.log ∧ ¬ Resumed issuer.log txnId
  issuing : ∀ {tx grant clientId}, issuer.phases tx = .issuing grant clientId →
    grant.Minted config ∧ Unused issuer.log grant.data ∧
      issuer.codes grant.data.code = none ∧ offlineAccessScope ∈ words grant.claims.scope
  alone : ∀ {tx grant clientId other otherGrant otherId},
    issuer.phases tx = .issuing grant clientId →
    issuer.phases other = .issuing otherGrant otherId →
    grant.data.code = otherGrant.data.code → tx = other
  tokens : issuer.tokens.Carries config.tokens (Descends config issuer.log)

/-! ## Steps -/

namespace Issuer.Traced

section

variable (hTraced : issuer.Traced config)
include hTraced

theorem ordinary {data : AuthCodeData} (hUnused : Unused issuer.log data) :
    data.isPlatformSuperuser = false := by
  obtain ⟨visit, hVisit⟩ := hUnused.authorized
  obtain ⟨_, -, hJustified⟩ := hTraced.justified.justified hVisit
  exact hJustified.2.1

/-- An entry of the log that exchanges no code which is there or is being exchanged, and
resumes no transaction which is there. -/
theorem record {entry : IssuerEntry} (hJustified : entry.Justified config issuer.log)
    (hCodes : ∀ code data, issuer.codes code = some data → entry.exchanges ≠ some code)
    (hIssuing : ∀ tx grant clientId, issuer.phases tx = .issuing grant clientId →
      entry.exchanges ≠ some grant.data.code)
    (hResumes : ∀ txnId txn, issuer.resumes txnId = some txn → entry.resumes ≠ some txnId) :
    (issuer.record entry).Traced config where
  justified := ⟨hJustified, hTraced.justified⟩
  codes {code data} hCode := by
    obtain ⟨rfl, hUnused⟩ := hTraced.codes hCode
    exact ⟨rfl, hUnused.cons (hCodes data.code data hCode)⟩
  resumes {txnId txn} hTxn := by
    obtain ⟨hSame, hDeferred, hUnused⟩ := hTraced.resumes hTxn
    refine ⟨hSame, List.mem_cons_of_mem _ hDeferred, ?_⟩
    unfold Resumed Issuer.record
    rw [List.exists_mem_cons_iff]
    exact not_or.mpr ⟨hResumes txnId txn hTxn, hUnused⟩
  issuing {tx grant clientId} hPhase := by
    obtain ⟨hMinted, hUnused, hRest⟩ := hTraced.issuing hPhase
    exact ⟨hMinted, hUnused.cons (hIssuing tx grant clientId hPhase), hRest⟩
  alone := hTraced.alone
  tokens := hTraced.tokens.mono fun _ hDescends => hDescends.cons entry

theorem note {entry : IssuerEntry} (hJustified : entry.Justified config issuer.log)
    (hExchanges : entry.exchanges = none) (hResumes : entry.resumes = none) :
    (issuer.record entry).Traced config :=
  hTraced.record hJustified (by simp [hExchanges]) (by simp [hExchanges]) (by simp [hResumes])

theorem refuse (error description : String) (statusCode : Nat) :
    (issuer.refuse error description statusCode).Traced config :=
  hTraced.note trivial rfl rfl

theorem enter (tx : TxId) {phase : RequestPhase}
    (hPhase : ∀ grant clientId, phase ≠ .issuing grant clientId) :
    (issuer.enter tx phase).Traced config :=
  { hTraced with
    issuing := fun hOther => hTraced.issuing (eq_of_update hOther (hPhase _ _)).2
    alone := fun hFirst hSecond => hTraced.alone (eq_of_update hFirst (hPhase _ _)).2
      (eq_of_update hSecond (hPhase _ _)).2 }

theorem leave (tx : TxId) :
    (issuer.enter tx .idle).Traced config :=
  hTraced.enter tx (by simp)

theorem clearCode (code : String) :
    ({ issuer with codes := Function.update issuer.codes code none } : Issuer).Traced config := by
  refine
    { hTraced with
      codes := fun hOther => hTraced.codes (eq_of_update hOther (by simp)).2
      issuing := fun {tx grant clientId} hPhase => ?_ }
  obtain ⟨hMinted, hUnused, hGone, hOffline⟩ := hTraced.issuing hPhase
  refine ⟨hMinted, hUnused, ?_, hOffline⟩
  show Function.update issuer.codes code none grant.data.code = none
  rw [Function.update_apply, hGone, ite_self]

theorem clearResume (txnId : String) :
    ({ issuer with resumes := Function.update issuer.resumes txnId none } : Issuer).Traced config :=
  { hTraced with resumes := fun hOther => hTraced.resumes (eq_of_update hOther (by simp)).2 }

theorem storeCode {visit : Visit} {data : AuthCodeData} {generated : String}
    (hGenerated : data.code = generated)
    (hJustified : (IssuerEntry.authorized visit data).Justified config issuer.log)
    (hFresh : ¬ issuer.Stored generated) :
    (({ issuer with codes := Function.update issuer.codes generated (some data) } : Issuer).record
      (.authorized visit data)).Traced config := by
  subst hGenerated
  have hNew (other : Visit) (old : AuthCodeData) (hOld : .authorized other old ∈ issuer.log) :
      old.code ≠ data.code := fun hSame => hFresh (.inl ⟨other, old, hOld, hSame⟩)
  have hRecorded := hTraced.note hJustified rfl rfl
  refine
    { hRecorded with
      codes := fun {code other} hCode => ?_
      issuing := fun {tx grant clientId} hPhase => ?_ }
  · by_cases hSame : code = data.code
    · subst hSame
      cases (Function.update_self ..).symm.trans hCode
      refine ⟨rfl, ⟨visit, List.mem_cons_self⟩, ?_⟩
      rintro ⟨entry, hEntry, hExchanges⟩
      -- whatever exchanged the code was justified by an earlier authorization
      rcases List.mem_cons.mp hEntry with rfl | hOld
      · cases hExchanges
      · obtain ⟨earlier, hSubset, hEarlier⟩ := hTraced.justified.justified hOld
        cases entry with
        | granted grant =>
            obtain ⟨other, hOther⟩ := hEarlier.1
            exact hNew other grant.data (hSubset hOther) (Option.some.inj hExchanges)
        | _ => cases hExchanges
    · exact hRecorded.codes ((Function.update_of_ne hSame ..).symm.trans hCode)
  · obtain ⟨hMinted, hUnused, hGone, hOffline⟩ := hRecorded.issuing hPhase
    refine ⟨hMinted, hUnused, ?_, hOffline⟩
    obtain ⟨-, ⟨⟨other, hOther⟩, -⟩, -⟩ := hTraced.issuing hPhase
    exact (Function.update_of_ne (hNew other grant.data hOther) ..).trans hGone

theorem storeResume {txn : ResumeTransaction} {generated : String}
    (hGenerated : txn.transactionId = generated) (hFresh : ¬ issuer.Stored generated) :
    (({ issuer with resumes := Function.update issuer.resumes generated (some txn) } : Issuer).record
      (.deferred txn)).Traced config := by
  subst hGenerated
  have hJustified : (IssuerEntry.deferred txn).Justified config issuer.log := trivial
  have hRecorded := hTraced.note hJustified rfl rfl
  refine { hRecorded with resumes := fun {txnId other} hTxn => ?_ }
  by_cases hSame : txnId = txn.transactionId
  · subst hSame
    cases (Function.update_self ..).symm.trans hTxn
    refine ⟨rfl, List.mem_cons_self, ?_⟩
    rintro ⟨entry, hEntry, hResumes⟩
    rcases List.mem_cons.mp hEntry with rfl | hOld
    · cases hResumes
    · obtain ⟨earlier, hSubset, hEarlier⟩ := hTraced.justified.justified hOld
      cases entry with
      | resumed old ip now =>
          exact hFresh (.inr ⟨old, hSubset hEarlier.1, Option.some.inj hResumes⟩)
      | _ => cases hResumes
  · exact hRecorded.resumes ((Function.update_of_ne hSame ..).symm.trans hTxn)

theorem handleAuthorize {visit : Visit} {params : AuthorizeParams} {generated : String} {now : Int}
    (hFresh : ¬ issuer.Stored generated) :
    (issuer.handleAuthorize config visit params generated now).Traced config := by
  unfold Issuer.handleAuthorize
  split
  · exact hTraced.refuse _ _ _
  split
  · exact hTraced.refuse _ _ _
  split
  · exact hTraced.refuse _ _ _
  split
  · exact hTraced.refuse _ _ _
  split
  · exact hTraced.refuse _ _ _
  · next _ hClient hUri hMethod _ =>
      dsimp only
      split
      · exact hTraced.note trivial rfl rfl
      · exact hTraced.storeResume rfl hFresh
      · next user organizationId hSession =>
          refine hTraced.storeCode rfl ⟨?_, rfl, not_not.mp hClient, not_not.mp hMethod,
            not_not.mp hUri⟩ hFresh
          unfold resolveAuthorizeSession at hSession
          split at hSession
          · cases hSession
          · next found hUser =>
              split at hSession
              · next only hOnly =>
                  cases hSession
                  refine ⟨_, hUser, rfl, rfl, fun other => ?_⟩
                  rw [← List.mem_dedup, hOnly, List.mem_singleton]
              · cases hSession

theorem authorizeResume {tx : TxId} {visit : Visit} {txnId : String} {now : Int} :
    (issuer.authorizeResume config tx visit txnId now).Traced config := by
  unfold Issuer.authorizeResume
  split
  · exact hTraced.refuse _ _ _
  · next txn hTxn =>
      obtain ⟨rfl, hDeferred, hUnused⟩ := hTraced.resumes hTxn
      have hCleared := hTraced.clearResume txn.transactionId
      dsimp only
      split
      · exact hCleared.refuse _ _ _
      split
      · exact hCleared.refuse _ _ _
      · next hInTime hIp =>
          have hJustified : (IssuerEntry.resumed txn visit.ip now).Justified config issuer.log :=
            ⟨hDeferred, hUnused, not_not.mp hIp, not_lt.mp hInTime⟩
          refine enter (hCleared.record hJustified (by simp [IssuerEntry.exchanges])
            (by simp [IssuerEntry.exchanges]) fun txnId other hOther hSame => ?_) tx (by simp)
          -- the transaction has been deleted
          obtain rfl : txn.transactionId = txnId := Option.some.inj hSame
          cases (Function.update_self ..).symm.trans hOther

theorem resumeAuthorize {tx : TxId} {generated : String} {now : Int}
    (hFresh : ¬ issuer.Stored generated)
    (hNext : issuer.resumeAuthorize config tx generated now = some next) :
    next.Traced config := by
  unfold Issuer.resumeAuthorize at hNext
  split at hNext
  · cases hNext
    exact (hTraced.leave tx).handleAuthorize hFresh
  · cases hNext

theorem token {tx : TxId} {request : TokenRequest} {redisNow : Int} :
    (issuer.token config tx request redisNow).Traced config := by
  have hCounted (counters : String → Option Window) :
      ({ issuer with counters := counters } : Issuer).Traced config :=
    { hTraced with }
  unfold Issuer.token
  split
  · exact hTraced.note trivial rfl rfl
  · dsimp only
    split
    · refine enter ((hCounted _).note ?_ rfl rfl) tx (by simp)
      trivial
    · exact (hCounted _).refuse _ _ _

/-- A grant that is over: no code is there, and no other request issues for it. -/
theorem grant {grant : Grant} (hMinted : grant.Minted config)
    (hUnused : Unused issuer.log grant.data) (hGone : issuer.codes grant.data.code = none)
    (hOthers : ∀ tx other clientId, issuer.phases tx = .issuing other clientId →
      other.data.code ≠ grant.data.code)
    (hOffline : grant.refreshToken ≠ none → offlineAccessScope ∈ words grant.claims.scope)
    (hFamily : ∀ familyId, grant.familyId = some familyId → ¬ issuer.Began familyId) :
    (issuer.record (.granted grant)).Traced config := by
  refine hTraced.record ⟨hUnused.authorized, hUnused.exchanged, hMinted, hOffline,
    fun familyId hOwn other hOther hSame => hFamily familyId hOwn ⟨other, hOther, hSame⟩⟩ ?_ ?_ ?_
  · intro code data hCode hSame
    rw [← Option.some.inj hSame, hGone] at hCode
    cases hCode
  · intro tx other clientId hPhase hSame
    exact hOthers tx other clientId hPhase (Option.some.inj hSame).symm
  · simp [IssuerEntry.resumes]

theorem stepTokens {tx : TxId} {statement : TokenStatement}
    (hStatement : statement.keepsOrigins = true)
    (hNext : issuer.stepTokens config tx statement = some next) : next.Traced config := by
  obtain ⟨tokens, hTokens, rfl⟩ := Option.map_eq_some_iff.mp hNext
  refine { hTraced with tokens := ?_ }
  have hCarries := hTraced.tokens
  unfold TokenStore.step at hTokens
  cases statement with
  | rotate token clientId newToken now =>
      dsimp only at hTokens
      split at hTokens
      · exact hCarries.rotateRefreshToken hTokens
      · cases hTokens
  | revokeUpdate => exact hCarries.revokeUpdate hTokens
  | revokeRow tokenHash => exact hCarries.revokeRow hTokens
  | revokeCommit => exact hCarries.revokeCommit hTokens
  | rollback =>
      cases hTokens
      exact hCarries.finish hCarries.rows
  | _ => cases hStatement

end

/-- A code that passes its checks is presented in time, with its redirect URI and the verifier
of its challenge. -/
theorem checkCode_eq_none {data : AuthCodeData} {redirectUri codeVerifier clientId : String}
    {now : Int} (hCheck : checkCode config data redirectUri codeVerifier clientId now = none) :
    now - data.createdAt ≤ config.authCodeLifetime ∧ redirectUri = data.redirectUri ∧
      config.challengeOf codeVerifier = Bytes.ofText data.codeChallenge := by
  unfold checkCode at hCheck
  split at hCheck
  · cases hCheck
  split at hCheck
  · cases hCheck
  split at hCheck
  · cases hCheck
  split at hCheck
  · cases hCheck
  · next hInTime hUri _ _ =>
      split at hCheck
      · next hPkce =>
          unfold IssuerConfig.validatePkceS256 at hPkce
          split at hPkce
          · cases hPkce
          split at hPkce
          · cases hPkce
          · exact ⟨not_lt.mp hInTime, not_not.mp hUri, of_decide_eq_true (Option.some.inj hPkce)⟩
      · cases hCheck
      · cases hCheck

section

variable (hTraced : issuer.Traced config)
include hTraced

/-- A request begins to issue for a code that is gone. -/
theorem issue {tx : TxId} {grant : Grant} {clientId : String} (hMinted : grant.Minted config)
    (hUnused : Unused issuer.log grant.data) (hGone : issuer.codes grant.data.code = none)
    (hOthers : ∀ tx other clientId, issuer.phases tx = .issuing other clientId →
      other.data.code ≠ grant.data.code) (hOffline : offlineAccessScope ∈ words grant.claims.scope)
    :
    (issuer.enter tx (.issuing grant clientId)).Traced config := by
  -- a request that issues is the new one, or issued before for another code
  have hCases {other : TxId} {otherGrant : Grant} {otherId : String}
      (hPhase : (issuer.enter tx (.issuing grant clientId)).phases other =
        .issuing otherGrant otherId) :
      other = tx ∧ otherGrant = grant ∨ issuer.phases other = .issuing otherGrant otherId := by
    by_cases hOther : other = tx
    · subst hOther
      cases (Function.update_self ..).symm.trans hPhase
      exact .inl ⟨rfl, rfl⟩
    · exact .inr ((Function.update_of_ne hOther ..).symm.trans hPhase)
  refine
    { hTraced with
      issuing := fun hPhase => ?_
      alone := fun hFirst hSecond hSame => ?_ }
  · rcases hCases hPhase with ⟨-, rfl⟩ | hOld
    · exact ⟨hMinted, hUnused, hGone, hOffline⟩
    · exact hTraced.issuing hOld
  · rcases hCases hFirst with ⟨rfl, rfl⟩ | hFirstOld <;>
      rcases hCases hSecond with ⟨hTx, hGrant⟩ | hSecondOld
    · exact hTx.symm
    · exact absurd hSame.symm (hOthers _ _ _ hSecondOld)
    · exact absurd (hGrant ▸ hSame) (hOthers _ _ _ hFirstOld)
    · exact hTraced.alone hFirstOld hSecondOld hSame

theorem handleAuthorizationCodeGrant {tx : TxId} {request : TokenRequest} {clientId jti : String}
    {now mintedAt : Int} :
    (issuer.handleAuthorizationCodeGrant config tx request clientId now mintedAt jti).Traced
      config := by
  unfold Issuer.handleAuthorizationCodeGrant
  split
  · next code redirectUri codeVerifier _ _ _ =>
      split
      · exact hTraced.refuse _ _ _
      split
      · exact hTraced.refuse _ _ _
      · next data hCode =>
          obtain ⟨rfl, hUnused⟩ := hTraced.codes hCode
          have hCleared := hTraced.clearCode data.code
          have hGone : Function.update issuer.codes data.code none data.code = none :=
            Function.update_self ..
          -- no request issues for a code that is still there
          have hOthers (other : TxId) (grant : Grant) (otherId : String)
              (hPhase : issuer.phases other = .issuing grant otherId) :
              grant.data.code ≠ data.code := by
            intro hSame
            obtain ⟨-, -, hNone, -⟩ := hTraced.issuing hPhase
            rw [hSame, hCode] at hNone
            cases hNone
          dsimp only
          split
          · exact hCleared.note trivial rfl rfl
          · next hCheck =>
              obtain ⟨hInTime, hUri, hVerifier⟩ := checkCode_eq_none hCheck
              have hClaims : (codeClaims config data jti mintedAt).SpeaksFor config data :=
                ⟨rfl, rfl, rfl, hTraced.ordinary hUnused, rfl, rfl, rfl⟩
              split
              · next hScope =>
                  exact hCleared.issue ⟨hInTime, hUri, hVerifier, hClaims⟩ hUnused hGone hOthers
                    hScope.1
              · exact hCleared.grant ⟨hInTime, hUri, hVerifier, hClaims⟩ hUnused hGone hOthers
                  (fun hSome => absurd rfl hSome) fun _ hFamily => nomatch hFamily
  · exact hTraced.refuse _ _ _

theorem issueRefresh {tx : TxId} {token familyId : String} {now : Int}
    (hFamily : ¬ issuer.Began familyId)
    (hNext : issuer.issueRefresh config tx token familyId now = some next) :
    next.Traced config := by
  unfold Issuer.issueRefresh at hNext
  split at hNext
  · next grant clientId hPhase =>
      obtain ⟨middle, hMiddle, rfl⟩ := Option.map_eq_some_iff.mp hNext
      obtain ⟨tokens, hTokens, rfl⟩ := Option.map_eq_some_iff.mp hMiddle
      obtain ⟨hMinted, hUnused, hGone, hScope⟩ := hTraced.issuing hPhase
      -- the request leaves its phase first, so that nobody issues for the code
      have hOthers (other : TxId) (otherGrant : Grant) (otherId : String)
          (hOther : (issuer.enter tx .idle).phases other = .issuing otherGrant otherId) :
          otherGrant.data.code ≠ grant.data.code := by
        obtain ⟨hTx, hOld⟩ := eq_of_update hOther (by simp)
        exact fun hSame => hTx (hTraced.alone hOld hPhase hSame)
      let final : Grant := { grant with refreshToken := some token, familyId := some familyId }
      have hFinal : final.Minted config :=
        ⟨hMinted.inTime, hMinted.redirectUri, hMinted.verifier, hMinted.claims⟩
      have hGranted := (hTraced.leave tx).grant hFinal hUnused hGone hOthers (fun _ => hScope)
        fun _ hSame => Option.some.inj hSame ▸ hFamily
      refine { hGranted with tokens := ?_ }
      have hOwned : Descends config (.granted final :: issuer.log) ⟨config.tokens.hashToken token,
          familyId, grant.data.userId, grant.data.organizationId,
            config.tokens.encodeMetadata (grantMetadata config grant.data)⟩ :=
        ⟨.inl ⟨final, List.mem_cons_self, rfl, rfl⟩,
          final, List.mem_cons_self, rfl, rfl, rfl, hTraced.ordinary hUnused, rfl⟩
      have hCarries : issuer.tokens.Carries config.tokens
          (Descends config (.granted final :: issuer.log)) := hGranted.tokens
      unfold TokenStore.step at hTokens
      dsimp only at hTokens
      split at hTokens
      · exact hCarries.issueRefreshToken hOwned hTokens
      · cases hTokens
  · cases hNext

/-- The new refresh token stays in the family, and the access token speaks for the user whose
code the family began with. -/
theorem refreshCommit
    (hSealed : ∀ metadata other, config.tokens.decodeMetadata
      (config.tokens.encodeMetadata metadata) = some other → other = metadata) {tx : TxId}
    {mintedAt : Int} {jti : String}
    (hNext : issuer.refreshCommit config tx mintedAt jti = some next) : next.Traced config := by
  unfold Issuer.refreshCommit at hNext
  split at hNext
  · next row metadata newToken expiresAt hPhase hSession =>
      obtain ⟨middle, hMiddle, rfl⟩ := Option.map_eq_some_iff.mp hNext
      obtain ⟨tokens, hTokens, rfl⟩ := Option.map_eq_some_iff.mp hMiddle
      obtain ⟨⟨hIssued, hOwner⟩, hDecoded⟩ := hTraced.tokens.rotating hSession
      obtain ⟨grant, hGrant, hFamily, hUser, hOrganization, hOrdinary, hMetadata⟩ := hOwner
      rw [show row.encryptedMetadata = _ from hMetadata] at hDecoded
      obtain rfl := hSealed _ _ hDecoded
      let claims := refreshClaims config (row.context (grantMetadata config grant.data)) jti
        mintedAt
      have hClaims : claims.SpeaksFor config grant.data :=
        ⟨hUser, hOrganization, rfl, hOrdinary, rfl, rfl, rfl⟩
      let entry : IssuerEntry := .refreshed row.tokenHash row.familyId claims newToken
      have hJustified : entry.Justified config issuer.log :=
        ⟨hIssued, grant, hGrant, hFamily, hClaims⟩
      have hNoted := (hTraced.leave tx).note hJustified rfl rfl
      have hCarries : issuer.tokens.Carries config.tokens
          (Descends config (entry :: issuer.log)) := hNoted.tokens
      refine { hNoted with tokens := hCarries.rotateCommit ?_ hTokens }
      intro other otherMetadata otherToken otherExpiry hOther
      cases hSession.symm.trans hOther
      have hOwner : OfGrant config issuer.log row.origin :=
        ⟨grant, hGrant, hFamily, hUser, hOrganization, hOrdinary, hMetadata⟩
      exact ⟨.inr ⟨row.tokenHash, claims, newToken, List.mem_cons_self, rfl⟩, hOwner.cons entry⟩
  · cases hNext

theorem dispatch {tx : TxId} {now mintedAt : Int} {jti newToken : String}
    (hNext : issuer.dispatch config tx now mintedAt jti newToken = some next) :
    next.Traced config := by
  unfold Issuer.dispatch at hNext
  split at hNext
  · next request clientId hPhase =>
      split at hNext
      · cases hNext
        exact (hTraced.leave tx).handleAuthorizationCodeGrant
      split at hNext
      · unfold Issuer.handleRefreshTokenGrant at hNext
        split at hNext
        · cases hNext
          exact (hTraced.refuse _ _ _).leave tx
        split at hNext
        · cases hNext
          exact (hTraced.refuse _ _ _).leave tx
        · obtain ⟨middle, hMiddle, rfl⟩ := Option.map_eq_some_iff.mp hNext
          exact (hTraced.stepTokens rfl hMiddle).enter tx (by simp)
      · cases hNext
        exact (hTraced.refuse _ _ _).leave tx
  · cases hNext

theorem step
    (hSealed : ∀ metadata other, config.tokens.decodeMetadata
      (config.tokens.encodeMetadata metadata) = some other → other = metadata) {event : IssuerEvent}
    (hStep : IssuerStep config issuer event next) : next.Traced config := by
  obtain ⟨hRun, hFresh, hFamily⟩ := hStep
  cases event with
  | authorize visit params generated now =>
      cases hRun
      exact hTraced.handleAuthorize (hFresh generated rfl)
  | resume tx visit txnId now =>
      unfold Issuer.step at hRun
      dsimp only at hRun
      split at hRun
      · cases hRun
        exact hTraced.authorizeResume
      · cases hRun
  | resumeAuthorize tx generated now => exact hTraced.resumeAuthorize (hFresh generated rfl) hRun
  | token tx request redisNow =>
      unfold Issuer.step at hRun
      dsimp only at hRun
      split at hRun
      · cases hRun
        exact hTraced.token
      · cases hRun
  | dispatch tx now mintedAt jti newToken => exact hTraced.dispatch hRun
  | issueRefresh tx token familyId now =>
      exact hTraced.issueRefresh (hFamily tx token familyId now rfl) hRun
  | revoke tx statement =>
      change issuer.revoke config tx statement = some next at hRun
      unfold Issuer.revoke at hRun
      split at hRun
      · exact hTraced.stepTokens rfl hRun
      · exact hTraced.stepTokens rfl hRun
      · exact hTraced.stepTokens rfl hRun
      · cases hRun
  | refreshCommit tx mintedAt jti => exact hTraced.refreshCommit hSealed hRun
  | drop tx =>
      change issuer.drop config tx = some next at hRun
      obtain ⟨middle, hMiddle, rfl⟩ := Option.map_eq_some_iff.mp hRun
      exact (hTraced.stepTokens rfl hMiddle).leave tx
  | evictCode code =>
      cases hRun
      exact hTraced.clearCode code
  | evictResume txnId =>
      cases hRun
      exact hTraced.clearResume txnId

end

theorem empty : Issuer.empty.Traced config where
  justified := trivial
  codes hCode := nomatch hCode
  resumes hTxn := nomatch hTxn
  issuing hPhase := nomatch hPhase
  alone hPhase := nomatch hPhase
  tokens := ⟨fun _ hRow => (nomatch hRow), fun hSession => nomatch hSession⟩

end Issuer.Traced

/-- In every run, every access token, code and resumed transaction is justified by what came
before: a code is exchanged at most once, in time and with the verifier of its challenge, and
a refreshed token speaks for the user of the one code that its family began with. -/
theorem tokens_justified {events : List IssuerEvent}
    (hSealed : ∀ metadata other, config.tokens.decodeMetadata
      (config.tokens.encodeMetadata metadata) = some other → other = metadata)
    (hRun : IssuerRun config events issuer) : JustifiedLog config issuer.log := by
  have hTraced : issuer.Traced config :=
    Run.invariant (fun _ issuer => issuer.Traced config) Issuer.Traced.empty
      (fun _ hBefore hStep => hBefore.step hSealed hStep) hRun
  exact hTraced.justified

def IssuerEntry.storedText : IssuerEntry → Option String
  | .authorized _ data => some data.code
  | .deferred txn => some txn.transactionId
  | _ => none

def IssuerEntry.begins : IssuerEntry → Option FamilyId
  | .granted grant => grant.familyId
  | _ => none

def IssuerEvent.begins : IssuerEvent → Option FamilyId
  | .issueRefresh _ _ familyId _ => some familyId
  | _ => none

/-- `IssuerStep`, as a function. -/
def Issuer.take (config : IssuerConfig) (issuer : Issuer) (event : IssuerEvent) : Option Issuer :=
  if (event.generated.all fun text => issuer.log.all (·.storedText ≠ some text)) ∧
      event.begins.all fun familyId => issuer.log.all (·.begins ≠ some familyId) then
    issuer.step config event
  else none

theorem issuerStep_of_take {event : IssuerEvent} (hTake : issuer.take config event = some next) :
    IssuerStep config issuer event next := by
  unfold Issuer.take at hTake
  split at hTake
  · next hFresh =>
      obtain ⟨hTexts, hFamilies⟩ := hFresh
      refine ⟨hTake, ?_, ?_⟩
      · rintro text hText hStored
        rw [hText, Option.all_some, List.all_eq_true] at hTexts
        rcases hStored with ⟨visit, data, hData, hCode⟩ | ⟨txn, hTxn, hId⟩
        · exact of_decide_eq_true (hTexts _ hData) (congrArg some hCode)
        · exact of_decide_eq_true (hTexts _ hTxn) (congrArg some hId)
      · rintro tx token familyId now rfl ⟨grant, hGrant, hFamily⟩
        exact of_decide_eq_true (List.all_eq_true.mp hFamilies _ hGrant) hFamily
  · cases hTake

theorem issuerRun_of_take {events : List IssuerEvent}
    (hFold : events.foldlM (Issuer.take config) Issuer.empty = some issuer) :
    IssuerRun config events.reverse issuer :=
  Run.of_foldlM (fun _ _ _ _ hTake => issuerStep_of_take hTake) hFold

/-- SHA-256 of `abc`. -/
def sampleDigest : Bytes :=
  [186, 120, 22, 191, 143, 1, 207, 234, 65, 65, 64, 222, 93, 174, 34, 35, 176, 3, 97, 163,
   150, 23, 122, 156, 180, 16, 255, 97, 242, 0, 21, 173]

/-- What the refresh tokens of a user of the sample carry. -/
def sampleMetadata (email : String) : RefreshTokenMetadata :=
  ⟨email, false, "openid offline_access", "https://app/mcp"⟩

/-- A deployment with two users, where tokens and addresses are their own digests. -/
def sampleConfig : IssuerConfig where
  tokens :=
    { hashToken := id
      encodeMetadata := fun metadata =>
        if metadata = sampleMetadata "ann@acme.io" then [0]
        else if metadata = sampleMetadata "bob@acme.io" then [1]
        else [2]
      decodeMetadata := fun data =>
        if data = [0] then some (sampleMetadata "ann@acme.io")
        else if data = [1] then some (sampleMetadata "bob@acme.io")
        else none
      refreshTokenLifetime := 2592000 }
  refreshTokensEnabled := true
  publicAppUrl := "https://app/"
  issuerUrl := "https://app/api/oauth/mcp"
  internalClientSecret := "secret"
  sha256 data := if data = Bytes.ofText "abc" then sampleDigest else data
  hashIp := id
  urlsplit _ := none
  urlunsplit _ _ _ := ""
  b64decode _ := none
  accessTokenLifetime := 3600
  authCodeLifetime := 300
  resumeTransactionLifetime := 900

def sampleRequest (grantType : String) (code refreshToken : Option String) : TokenRequest where
  ip := "10.0.0.7"
  contentType := "application/x-www-form-urlencoded"
  grantType := grantType
  code := code
  redirectUri := some "https://app/auth/callback"
  codeVerifier := some "abc"
  refreshToken := refreshToken
  clientId := internalClientId
  clientSecret := "secret"
  authorization := none

/-- Ann logs in on the way and Bob is logged in.  The proxy exchanges both codes, refreshes both
tokens, and then the second one of Ann. -/
def sampleEvents : List IssuerEvent :=
  let params : AuthorizeParams :=
    { responseType := "code"
      clientId := internalClientId
      redirectUri := "https://app/auth/callback"
      codeChallenge := "ungWv48Bz-pBQUDeXa4iI7ADYaOWF3qctBD_YfIAFa0"
      codeChallengeMethod := "S256"
      scope := "openid offline_access"
      state := "s"
      resource := none
      nonce := none }
  let ann : Visit := ⟨"1.2.3.4", some ⟨"ann", "ann@acme.io"⟩, ["acme"]⟩
  let bob : Visit := ⟨"1.2.3.5", some ⟨"bob", "bob@acme.io"⟩, ["acme"]⟩
  [.authorize ⟨"1.2.3.4", none, []⟩ params "txn" 0,
    .resume 0 ann "txn" 60,
    .authorize bob params "code-2" 60,
    .resumeAuthorize 0 "code-1" 61,
    .token 1 (sampleRequest "authorization_code" (some "code-1") none) 70,
    .token 2 (sampleRequest "authorization_code" (some "code-2") none) 70,
    .dispatch 2 70 70 "jti-2" "",
    .dispatch 1 70 70 "jti-1" "",
    .issueRefresh 1 "ann-1" "family-1" 70,
    .issueRefresh 2 "bob-1" "family-2" 70,
    .token 3 (sampleRequest "refresh_token" none (some "bob-1")) 900,
    .token 4 (sampleRequest "refresh_token" none (some "ann-1")) 900,
    .dispatch 3 900 900 "" "bob-2",
    .dispatch 4 900 900 "" "ann-2",
    .refreshCommit 4 900 "jti-3",
    .refreshCommit 3 900 "jti-4",
    .token 5 (sampleRequest "refresh_token" none (some "ann-2")) 1800,
    .dispatch 5 1800 1800 "" "ann-3",
    .refreshCommit 5 1800 "jti-5"]

/-- The family and the user of a refreshed access token. -/
def IssuerEntry.refreshedFor : IssuerEntry → Option (FamilyId × String)
  | .refreshed _ familyId claims _ => some (familyId, claims.sub)
  | _ => none

theorem sampleEvents_run : ∃ issuer, IssuerRun sampleConfig sampleEvents.reverse issuer ∧
    issuer.log.filterMap IssuerEntry.refreshedFor =
      [("family-1", "ann"), ("family-2", "bob"), ("family-1", "ann")] := by
  have hRun : ((sampleEvents.foldlM (Issuer.take sampleConfig) Issuer.empty).map
      fun issuer => issuer.log.filterMap IssuerEntry.refreshedFor) =
        some [("family-1", "ann"), ("family-2", "bob"), ("family-1", "ann")] := by
    decide +kernel
  obtain ⟨issuer, hFold, hRefreshed⟩ := Option.map_eq_some_iff.mp hRun
  exact ⟨issuer, issuerRun_of_take hFold, hRefreshed⟩

/-- The refreshed tokens of both families are justified. -/
theorem tokens_justified_sample : ∃ issuer : Issuer,
    issuer.log.filterMap IssuerEntry.refreshedFor =
      [("family-1", "ann"), ("family-2", "bob"), ("family-1", "ann")] ∧
    JustifiedLog sampleConfig issuer.log := by
  obtain ⟨issuer, hRun, hRefreshed⟩ := sampleEvents_run
  refine ⟨issuer, hRefreshed, tokens_justified (fun metadata other hDecoded => ?_) hRun⟩
  have hEncoded : sampleConfig.tokens.decodeMetadata
      (sampleConfig.tokens.encodeMetadata metadata) = some other := hDecoded
  unfold sampleConfig at hEncoded
  dsimp only at hEncoded
  by_cases hAnn : metadata = sampleMetadata "ann@acme.io"
  · rw [if_pos hAnn, if_pos rfl] at hEncoded
    rw [hAnn]
    exact (Option.some.inj hEncoded).symm
  rw [if_neg hAnn] at hEncoded
  by_cases hBob : metadata = sampleMetadata "bob@acme.io"
  · rw [if_pos hBob, if_neg (by decide), if_pos rfl] at hEncoded
    rw [hBob]
    exact (Option.some.inj hEncoded).symm
  · rw [if_neg hBob, if_neg (by decide), if_neg (by decide)] at hEncoded
    cases hEncoded

end Oidc
end Tracecat
