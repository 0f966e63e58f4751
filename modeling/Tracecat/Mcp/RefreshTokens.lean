import Tracecat.Lib.LockTable
import Tracecat.Lib.Runs

/-!
# Refresh tokens

The rows and the statements of `mcp/oidc/refresh_tokens.py` on Postgres at READ
COMMITTED.  A transaction is a session that has sent some of the statements of
its call.  What it has written is in the session until it commits, so the rows
are those every other transaction sees.
-/

namespace Tracecat

abbrev TokenHash : Type := String

abbrev FamilyId : Type := String

/-- A database session, one for each call in flight. -/
abbrev TxId : Type := Nat

/-- The values of the `status` column. -/
inductive TokenStatus
  | active
  | used
  | revoked
  deriving DecidableEq, Repr

structure RefreshTokenMetadata where
  email : String
  isPlatformSuperuser : Bool
  scope : String
  resource : String
  deriving DecidableEq, Repr

structure MCPRefreshToken where
  tokenHash : TokenHash
  familyId : FamilyId
  userId : String
  organizationId : String
  clientId : String
  encryptedMetadata : List UInt8
  status : TokenStatus
  expiresAt : Int
  deriving DecidableEq, Repr

structure RefreshTokenContext where
  familyId : FamilyId
  userId : String
  organizationId : String
  clientId : String
  metadata : RefreshTokenMetadata
  deriving DecidableEq, Repr

structure RefreshTokenError where
  oauthError : String
  description : String
  deriving DecidableEq, Repr

namespace RefreshTokenError

def invalidOrExpired : RefreshTokenError :=
  ⟨"invalid_grant", "Refresh token is invalid or expired"⟩

def replayDetected : RefreshTokenError :=
  ⟨"invalid_grant", "Refresh token replay detected; family revoked"⟩

def hasExpired : RefreshTokenError :=
  ⟨"invalid_grant", "Refresh token has expired"⟩

def clientIdMismatch : RefreshTokenError :=
  ⟨"invalid_grant", "client_id mismatch"⟩

def concurrentlyConsumed : RefreshTokenError :=
  ⟨"invalid_grant", "Refresh token was concurrently consumed"⟩

end RefreshTokenError

/-- SHA-256, the encryption of the metadata and the configured lifetime. -/
structure TokenConfig where
  hashToken : String → TokenHash
  encodeMetadata : RefreshTokenMetadata → List UInt8
  decodeMetadata : List UInt8 → Option RefreshTokenMetadata
  refreshTokenLifetime : Int

namespace MCPRefreshToken

variable (row : MCPRefreshToken)

/-- The outcome of the checks on the row of a presented token. -/
inductive Presented
  | accepted
  | rejected (error : RefreshTokenError)
  | hostile (error : RefreshTokenError)

/-- The checks that `rotate_refresh_token` and `consume_refresh_token` share. -/
def present (clientId : String) (now : Int) : Presented :=
  if row.status = .used then .hostile .replayDetected
  else if row.status ≠ .active then .rejected .invalidOrExpired
  else if row.expiresAt ≤ now then .rejected .hasExpired
  else if row.clientId ≠ clientId then .hostile .clientIdMismatch
  else .accepted

/-- The row that a rotation inserts. -/
def successor (tokenHash : TokenHash) (expiresAt : Int) : MCPRefreshToken :=
  { row with tokenHash := tokenHash, status := .active, expiresAt := expiresAt }

def context (metadata : RefreshTokenMetadata) : RefreshTokenContext where
  familyId := row.familyId
  userId := row.userId
  organizationId := row.organizationId
  clientId := row.clientId
  metadata := metadata

def withStatus (status : TokenStatus) : MCPRefreshToken :=
  { row with status := status }

end MCPRefreshToken

/-- Where a call stands between two of its statements. -/
inductive Session
  | idle
  /-- a revoking `UPDATE` is the next statement -/
  | revokeNext (familyId : FamilyId) (cause : Option RefreshTokenError)
  /-- the `UPDATE` runs: the rows it has still to lock, and those it has locked -/
  | revoking (familyId : FamilyId) (cause : Option RefreshTokenError)
      (remaining locked : List TokenHash)
  /-- `rotate_refresh_token` has returned and its caller has not committed -/
  | rotating (row : MCPRefreshToken) (metadata : RefreshTokenMetadata) (newToken : String)
      (expiresAt : Int)
  /-- `consume_refresh_token` has checked the row -/
  | consuming (row : MCPRefreshToken) (clientId : String)
  /-- its compare-and-swap has matched -/
  | consumed (row : MCPRefreshToken)
  deriving DecidableEq, Repr

/-- What the calls have committed or raised. -/
inductive TokenEntry
  | issued (tokenHash : TokenHash)
  | exchanged (tokenHash : TokenHash) (context : RefreshTokenContext)
      (newToken : Option String)
  | revoked (familyId : FamilyId) (cause : Option RefreshTokenError)
  | rejected (error : RefreshTokenError)
  deriving DecidableEq, Repr

/-- The committed rows, the row locks, the sessions and the log, newest first. -/
structure TokenStore where
  rows : List MCPRefreshToken
  locks : LockTable TokenHash TxId
  sessions : TxId → Session
  log : List TokenEntry

def setStatus (hashes : List TokenHash) (status : TokenStatus)
    (rows : List MCPRefreshToken) : List MCPRefreshToken :=
  rows.map fun row => if row.tokenHash ∈ hashes then row.withStatus status else row

namespace TokenStore

variable (store : TokenStore) (config : TokenConfig) (tx : TxId)

def empty : TokenStore :=
  ⟨[], LockTable.empty, fun _ => .idle, []⟩

def scalarOneOrNone (tokenHash : TokenHash) : Option MCPRefreshToken :=
  store.rows.find? (·.tokenHash = tokenHash)

def enter (session : Session) : TokenStore :=
  { store with sessions := Function.update store.sessions tx session }

def lock (tokenHash : TokenHash) : TokenStore :=
  { store with locks := store.locks.take tx tokenHash }

def finish (rows : List MCPRefreshToken) (entries : List TokenEntry) : TokenStore where
  rows := rows
  locks := store.locks.release tx
  sessions := Function.update store.sessions tx .idle
  log := entries ++ store.log

/-- The call raises and nothing of it is committed. -/
def reject (error : RefreshTokenError) : TokenStore :=
  store.finish tx store.rows [.rejected error]

/-- `issue_refresh_token`: one `INSERT` and its commit. -/
def issueRefreshToken (token : String) (familyId userId organizationId clientId : String)
    (metadata : RefreshTokenMetadata) (now : Int) : Option TokenStore :=
  let row : MCPRefreshToken :=
    { tokenHash := config.hashToken token
      familyId := familyId
      userId := userId
      organizationId := organizationId
      clientId := clientId
      encryptedMetadata := config.encodeMetadata metadata
      status := .active
      expiresAt := now + config.refreshTokenLifetime }
  -- the unique constraint on `token_hash`
  if store.scalarOneOrNone row.tokenHash = none then
    some (store.finish tx (row :: store.rows) [.issued row.tokenHash])
  else none

/-- `rotate_refresh_token`: the `SELECT ... FOR UPDATE` and the checks. -/
def rotateRefreshToken (token clientId newToken : String) (now : Int) : Option TokenStore :=
  match store.scalarOneOrNone (config.hashToken token) with
  | none => some (store.reject tx .invalidOrExpired)
  | some row =>
      if store.locks.FreeFor tx row.tokenHash then
        let store := store.lock tx row.tokenHash
        match row.present clientId now with
        | .rejected error => some (store.reject tx error)
        | .hostile error => some (store.enter tx (.revokeNext row.familyId (some error)))
        | .accepted =>
            match config.decodeMetadata row.encryptedMetadata with
            | none => some (store.reject tx .invalidOrExpired)
            | some metadata =>
                some (store.enter tx (.rotating row metadata newToken
                  (now + config.refreshTokenLifetime)))
      else none

/-- The caller of a rotation commits: the row is used and its successor is there. -/
def rotateCommit : Option TokenStore :=
  match store.sessions tx with
  | .rotating row metadata newToken expiresAt =>
      let successor := row.successor (config.hashToken newToken) expiresAt
      if store.scalarOneOrNone successor.tokenHash = none then
        some (store.finish tx (successor :: setStatus [row.tokenHash] .used store.rows)
          [.exchanged row.tokenHash (row.context metadata) (some newToken)])
      else none
  | _ => none

/-- `consume_refresh_token`: the `SELECT`, which takes no lock, and the checks. -/
def consumeRefreshToken (token clientId : String) (now : Int) : TokenStore :=
  match store.scalarOneOrNone (config.hashToken token) with
  | none => store.reject tx .invalidOrExpired
  | some row =>
      match row.present clientId now with
      | .rejected error => store.reject tx error
      | .hostile error => store.enter tx (.revokeNext row.familyId (some error))
      | .accepted => store.enter tx (.consuming row clientId)

/-- Its compare-and-swap.  A row that matches and that another transaction has
locked is waited for, and read again after that. -/
def consumeUpdate (now : Int) : Option TokenStore :=
  match store.sessions tx with
  | .consuming row clientId =>
      match store.scalarOneOrNone row.tokenHash with
      | none => some (store.reject tx .concurrentlyConsumed)
      | some current =>
          if current.status = .active ∧ current.clientId = clientId ∧
              now < current.expiresAt then
            if store.locks.FreeFor tx row.tokenHash then
              some ((store.lock tx row.tokenHash).enter tx (.consumed row))
            else none
          else some (store.reject tx .concurrentlyConsumed)
  | _ => none

/-- Its commit.  The metadata is decoded after it, so a row that cannot be
decoded is used without a context for the caller. -/
def consumeCommit : Option TokenStore :=
  match store.sessions tx with
  | .consumed row =>
      let rows := setStatus [row.tokenHash] .used store.rows
      match config.decodeMetadata row.encryptedMetadata with
      | none => some (store.finish tx rows [])
      | some metadata =>
          some (store.finish tx rows [.exchanged row.tokenHash (row.context metadata) none])
  | _ => none

/-- The `UPDATE` of `_revoke_family_rows` starts: it will lock the rows that
match now, and no row that is committed later. -/
def revokeUpdate : Option TokenStore :=
  match store.sessions tx with
  | .revokeNext familyId cause =>
      let matching := store.rows.filter fun row =>
        row.familyId = familyId ∧ row.status ≠ .revoked
      some (store.enter tx (.revoking familyId cause (matching.map (·.tokenHash)) []))
  | _ => none

/-- It locks a row.  A row that has been revoked meanwhile stays so. -/
def revokeRow (tokenHash : TokenHash) : Option TokenStore :=
  match store.sessions tx with
  | .revoking familyId cause remaining locked =>
      if tokenHash ∈ remaining ∧ store.locks.FreeFor tx tokenHash then
        some ((store.lock tx tokenHash).enter tx
          (.revoking familyId cause (remaining.erase tokenHash) (tokenHash :: locked)))
      else none
  | _ => none

/-- The commit of `revoke_family`, after which the cause is raised. -/
def revokeCommit : Option TokenStore :=
  match store.sessions tx with
  | .revoking familyId cause [] locked =>
      some (store.finish tx (setStatus locked .revoked store.rows)
        ((cause.map .rejected).toList ++ [.revoked familyId cause]))
  | _ => none

end TokenStore

/-! ## Runs -/

inductive TokenStatement
  | issue (token : String) (familyId : Option FamilyId) (generated : FamilyId)
      (userId organizationId clientId : String) (metadata : RefreshTokenMetadata) (now : Int)
  | rotate (token clientId newToken : String) (now : Int)
  | rotateCommit
  | consume (token clientId : String) (now : Int)
  | consumeUpdate (now : Int)
  | consumeCommit
  | revokeFamily (familyId : FamilyId)
  | revokeUpdate
  | revokeRow (tokenHash : TokenHash)
  | revokeCommit
  | rollback

structure TokenEvent where
  tx : TxId
  statement : TokenStatement

/-- The effect of a statement, `none` when it has to wait or does not come next. -/
def TokenStore.step (config : TokenConfig) (store : TokenStore) (event : TokenEvent) :
    Option TokenStore :=
  let tx := event.tx
  let begins (next : Option TokenStore) := if store.sessions tx = .idle then next else none
  match event.statement with
  | .issue token familyId generated userId organizationId clientId metadata now =>
      begins (store.issueRefreshToken config tx token (familyId.getD generated) userId
        organizationId clientId metadata now)
  | .rotate token clientId newToken now =>
      begins (store.rotateRefreshToken config tx token clientId newToken now)
  | .rotateCommit => store.rotateCommit config tx
  | .consume token clientId now =>
      begins (some (store.consumeRefreshToken config tx token clientId now))
  | .consumeUpdate now => store.consumeUpdate tx now
  | .consumeCommit => store.consumeCommit config tx
  | .revokeFamily familyId => begins (some (store.enter tx (.revokeNext familyId none)))
  | .revokeUpdate => store.revokeUpdate tx
  | .revokeRow tokenHash => store.revokeRow tx tokenHash
  | .revokeCommit => store.revokeCommit tx
  | .rollback => some (store.finish tx store.rows [])

/-- A session has started to revoke the family. -/
def Session.Revokes (familyId : FamilyId) : Session → Prop
  | revoking family .. => family = familyId
  | _ => False

/-- A row, a revocation under way or a revocation that is over names the family. -/
def TokenStore.Named (store : TokenStore) (familyId : FamilyId) : Prop :=
  (∃ row ∈ store.rows, row.familyId = familyId) ∨
  (∃ tx, (store.sessions tx).Revokes familyId) ∨
  ∃ cause, .revoked familyId cause ∈ store.log

/-- One statement.  A generated family id is new. -/
structure TokenStep (config : TokenConfig) (store : TokenStore) (event : TokenEvent)
    (next : TokenStore) : Prop where
  run : store.step config event = some next
  uuid4 : ∀ token generated userId organizationId clientId metadata now,
    event.statement = .issue token none generated userId organizationId clientId metadata now →
      ¬ store.Named generated

/-- The runs from an empty table. -/
abbrev TokenRun (config : TokenConfig) : List TokenEvent → TokenStore → Prop :=
  Run (TokenStep config) .empty

end Tracecat
