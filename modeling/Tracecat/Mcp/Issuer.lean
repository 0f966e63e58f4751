import Tracecat.Lib.Base64
import Tracecat.Mcp.RefreshTokens
import Tracecat.Workflow.Folders

/-!
# The token issuer

The authorization-code flow of `mcp/oidc/endpoints.py` with its Redis records
(`mcp/oidc/storage.py`), on top of the refresh tokens.  Each Redis command and each statement
of a session is a step of its own; a record that has expired is evicted at any time.  The
record of `store_jti` is left out, as nothing reads it.
-/

namespace Tracecat
namespace Oidc

/-! ## Configuration -/

/-- What `urlsplit` makes of a URI; a port that is no number is `none`. -/
structure SplitUri where
  scheme : String
  hostname : Option String
  port : Option (Option Nat)
  username : Option String
  password : Option String
  path : String
  query : String
  fragment : String
  deriving DecidableEq, Repr

/-- The settings of a deployment, and the functions of Python that are used. -/
structure IssuerConfig where
  tokens : TokenConfig
  /-- `refresh_tokens_enabled`. -/
  refreshTokensEnabled : Bool
  publicAppUrl : String
  issuerUrl : String
  internalClientSecret : String
  sha256 : Bytes → Bytes
  /-- The digest of a client IP in hexadecimal. -/
  hashIp : String → String
  urlsplit : String → Option SplitUri
  /-- `urlunsplit`, of the scheme, the authority and the rest. -/
  urlunsplit : String → String → SplitUri → String
  /-- `base64.b64decode(text).decode("utf-8")`. -/
  b64decode : String → Option String
  accessTokenLifetime : Int
  authCodeLifetime : Int
  resumeTransactionLifetime : Int

/-- `INTERNAL_CLIENT_ID`. -/
def internalClientId : String := "tracecat-mcp-oidc-internal"

/-- `OFFLINE_ACCESS_SCOPE`. -/
def offlineAccessScope : String := "offline_access"

/-- `TOKEN_RATE_LIMIT_PER_SOURCE_PER_MINUTE`. -/
def tokenRateLimitPerSourcePerMinute : Nat := 120

/-! ## Helpers -/

/-- `text.split()`. -/
def words (text : String) : List String :=
  ((text.toList.splitOnP Folders.isSpace).filter fun word => !word.isEmpty).map String.ofList

/-- `text.rstrip("/")`. -/
def rstripSlash (text : String) : String :=
  String.ofList (Folders.rstrip (· == '/') text.toList)

namespace IssuerConfig

variable (config : IssuerConfig)

/-- `strip_refresh_scope`. -/
def stripRefreshScope (scope : String) : String :=
  if config.refreshTokensEnabled then scope
  else " ".intercalate ((words scope).filter (· ≠ offlineAccessScope))

/-- `_allowed_redirect_uri`. -/
def allowedRedirectUri : String := rstripSlash config.publicAppUrl ++ "/auth/callback"

/-- `_default_resource`. -/
def defaultResource : String := rstripSlash config.publicAppUrl ++ "/mcp"

def defaultPort (scheme : String) : Option Nat :=
  if scheme = "http" then some 80 else if scheme = "https" then some 443 else none

/-- `_normalize_default_port_uri`. -/
def normalizeDefaultPortUri (uri : String) : String :=
  match config.urlsplit uri with
  | none => uri
  | some parts =>
      match parts.hostname, parts.port with
      | some hostname, some port =>
          if parts.scheme.isEmpty || hostname.isEmpty then uri
          else if defaultPort parts.scheme.toLower = none ∨
              port ≠ defaultPort parts.scheme.toLower then uri
          else
            let host :=
              if hostname.contains ':' && !hostname.startsWith "[" then "[" ++ hostname ++ "]"
              else hostname
            let userinfo := parts.username.map fun username =>
              match parts.password with
              | some password => username ++ ":" ++ password
              | none => username
            let netloc :=
              match userinfo with
              | some userinfo => userinfo ++ "@" ++ host
              | none => host
            config.urlunsplit parts.scheme netloc parts
      | _, _ => uri

def challengeOf (codeVerifier : String) : Bytes :=
  (Base64.encode (config.sha256 (Bytes.ofText codeVerifier))).reverse.dropWhile
    (· == Base64.pad) |>.reverse

/-- `_validate_pkce_s256`, which raises where the challenge is not in ASCII. -/
def validatePkceS256 (codeVerifier codeChallenge : String) : Option Bool :=
  if ¬ codeVerifier.toList.all fun char => char.toNat < 128 then some false
  else if ¬ codeChallenge.toList.all fun char => char.toNat < 128 then none
  else some (config.challengeOf codeVerifier = Bytes.ofText codeChallenge)

/-- `_parse_basic_auth`. -/
def parseBasicAuth (authorization : String) : Option (String × String) :=
  if ¬ authorization.startsWith "Basic " then none
  else
    match config.b64decode (String.ofList (authorization.toList.drop 6)) with
    | none => none
    | some decoded =>
        let clientId := String.ofList (decoded.toList.takeWhile (· ≠ ':'))
        let clientSecret := String.ofList ((decoded.toList.dropWhile (· ≠ ':')).drop 1)
        if clientId.isEmpty || clientSecret.isEmpty then none else some (clientId, clientSecret)

end IssuerConfig

/-! ## Requests and records -/

structure ErrorResponse where
  error : String
  errorDescription : String
  statusCode : Nat := 400
  deriving DecidableEq, Repr

structure User where
  id : String
  email : String
  deriving DecidableEq, Repr

/-- The query of `/authorize`. -/
structure AuthorizeParams where
  responseType : String
  clientId : String
  redirectUri : String
  codeChallenge : String
  codeChallengeMethod : String
  scope : String
  state : String
  resource : Option String
  nonce : Option String
  deriving DecidableEq, Repr

/-- A visit of the browser, with the organizations that the user is a member of. -/
structure Visit where
  ip : String
  user : Option User
  organizationIds : List String
  deriving DecidableEq, Repr

structure AuthCodeData where
  code : String
  userId : String
  email : String
  organizationId : String
  isPlatformSuperuser : Bool
  clientId : String
  redirectUri : String
  codeChallenge : String
  codeChallengeMethod : String
  scope : String
  resource : String
  nonce : Option String
  createdAt : Int
  boundIp : String
  deriving DecidableEq, Repr

structure ResumeTransaction where
  transactionId : String
  authorizeParams : AuthorizeParams
  createdAt : Int
  boundIp : String
  deriving DecidableEq, Repr

/-- The form of `/token`. -/
structure TokenRequest where
  ip : String
  contentType : String
  grantType : String
  code : Option String
  redirectUri : Option String
  codeVerifier : Option String
  refreshToken : Option String
  clientId : String
  clientSecret : String
  authorization : Option String
  deriving DecidableEq, Repr

structure AccessClaims where
  iss : String
  sub : String
  aud : String
  exp : Int
  iat : Int
  jti : String
  scope : String
  email : String
  organizationId : String
  isPlatformSuperuser : Bool
  deriving DecidableEq, Repr

structure IdClaims where
  iss : String
  sub : String
  aud : String
  exp : Int
  iat : Int
  email : String
  organizationId : String
  nonce : Option String
  deriving DecidableEq, Repr

/-- The answer to a code: what was presented, when, and what was minted. -/
structure Grant where
  data : AuthCodeData
  redirectUri : String
  codeVerifier : String
  presentedAt : Int
  claims : AccessClaims
  idClaims : IdClaims
  refreshToken : Option String
  /-- The family that the refresh token begins. -/
  familyId : Option FamilyId
  deriving DecidableEq, Repr

/-! ## State -/

/-- A counter that has been hit, and when it expires. -/
structure Window where
  count : Nat
  expiresAt : Int
  deriving DecidableEq, Repr

/-- `_EncryptedRedis.incr_with_ttl`: later hits do not renew the counter. -/
def Window.hit (length now : Int) : Option Window → Window
  | some window =>
      if now < window.expiresAt then { window with count := window.count + 1 }
      else ⟨1, now + length⟩
  | none => ⟨1, now + length⟩

/-- What the issuer has done. -/
inductive IssuerEntry
  | authorized (visit : Visit) (data : AuthCodeData)
  | deferred (txn : ResumeTransaction)
  | resumed (txn : ResumeTransaction) (ip : String) (now : Int)
  | admitted (ip : String) (now : Int)
  | granted (grant : Grant)
  | refreshed (tokenHash : TokenHash) (familyId : FamilyId) (claims : AccessClaims)
      (newToken : String)
  | refused (response : ErrorResponse)
  | redirected (error description : String)
  deriving DecidableEq, Repr

/-- Where a request stands between two of its steps. -/
inductive RequestPhase
  | idle
  /-- its transaction is deleted and passes -/
  | resuming (visit : Visit) (params : AuthorizeParams)
  /-- it is authenticated and within the rate limit -/
  | admitted (request : TokenRequest) (clientId : String)
  /-- its tokens are minted and a refresh token is to be issued -/
  | issuing (grant : Grant) (clientId : String)
  /-- it has a session of the refresh tokens -/
  | refreshing
  deriving DecidableEq, Repr

/-- The records in Redis, the requests, the refresh tokens and the log, newest first. -/
structure Issuer where
  codes : String → Option AuthCodeData
  resumes : String → Option ResumeTransaction
  counters : String → Option Window
  phases : TxId → RequestPhase
  tokens : TokenStore
  log : List IssuerEntry

namespace Issuer

variable (issuer : Issuer) (config : IssuerConfig)

def empty : Issuer :=
  ⟨fun _ => none, fun _ => none, fun _ => none, fun _ => .idle, .empty, []⟩

def record (entry : IssuerEntry) : Issuer :=
  { issuer with log := entry :: issuer.log }

def refuse (error description : String) (statusCode : Nat) : Issuer :=
  issuer.record (.refused ⟨error, description, statusCode⟩)

def enter (tx : TxId) (phase : RequestPhase) : Issuer :=
  { issuer with phases := Function.update issuer.phases tx phase }

/-! ## Authorization -/

/-- `resolve_authorize_session`: a user has to log in, or is in exactly one organization. -/
def resolveAuthorizeSession (visit : Visit) : Except Unit (Option (User × String)) :=
  match visit.user with
  | none => .ok none
  | some user =>
      match visit.organizationIds.dedup with
      | [organizationId] => .ok (some (user, organizationId))
      | _ => .error ()

/-- `_handle_authorize`; `generated` is the code or the id of the transaction. -/
def handleAuthorize (visit : Visit) (params : AuthorizeParams) (generated : String) (now : Int) :
    Issuer :=
  if params.responseType ≠ "code" then
    issuer.refuse "unsupported_response_type" "Only 'code' is supported" 400
  else if params.clientId ≠ internalClientId then
    issuer.refuse "invalid_client" "Unknown client_id" 400
  else if config.normalizeDefaultPortUri params.redirectUri ≠
      config.normalizeDefaultPortUri config.allowedRedirectUri then
    issuer.refuse "invalid_request" "redirect_uri does not match the registered callback" 400
  else if params.codeChallengeMethod ≠ "S256" then
    issuer.refuse "invalid_request" "Only code_challenge_method=S256 is supported" 400
  else if params.codeChallenge.isEmpty then
    issuer.refuse "invalid_request" "code_challenge is required" 400
  else
    let scope := config.stripRefreshScope params.scope
    let resource :=
      match params.resource with
      | none => config.defaultResource
      | some resource => if resource.isEmpty then config.defaultResource else resource
    match resolveAuthorizeSession visit with
    | .error _ =>
        issuer.record
          (.redirected "access_denied" "User cannot be resolved to a single organization")
    | .ok none =>
        let txn : ResumeTransaction :=
          { transactionId := generated
            authorizeParams := { params with
              scope := scope
              resource := some resource
              nonce := params.nonce.filter fun nonce => !nonce.isEmpty }
            createdAt := now
            boundIp := config.hashIp visit.ip }
        { issuer with resumes := Function.update issuer.resumes generated (some txn) }.record
          (.deferred txn)
    | .ok (some (user, organizationId)) =>
        let data : AuthCodeData :=
          { code := generated
            userId := user.id
            email := user.email
            organizationId := organizationId
            isPlatformSuperuser := false
            clientId := params.clientId
            redirectUri := params.redirectUri
            codeChallenge := params.codeChallenge
            codeChallengeMethod := params.codeChallengeMethod
            scope := scope
            resource := resource
            nonce := params.nonce
            createdAt := now
            boundIp := config.hashIp visit.ip }
        { issuer with codes := Function.update issuer.codes generated (some data) }.record
          (.authorized visit data)

/-- `authorize_resume`, up to `_handle_authorize`: the transaction is loaded and deleted at
once. -/
def authorizeResume (tx : TxId) (visit : Visit) (txnId : String) (now : Int) : Issuer :=
  match issuer.resumes txnId with
  | none => issuer.refuse "invalid_request" "Unknown or expired resume transaction" 400
  | some txn =>
      let issuer := { issuer with resumes := Function.update issuer.resumes txnId none }
      if config.resumeTransactionLifetime < now - txn.createdAt then
        issuer.refuse "invalid_request" "Resume transaction has expired" 400
      else if config.hashIp visit.ip ≠ txn.boundIp then
        issuer.refuse "invalid_request" "Resume transaction IP mismatch" 400
      else
        (issuer.record (.resumed txn visit.ip now)).enter tx
          (.resuming visit txn.authorizeParams)

/-- `_handle_authorize`, with the parameters of the transaction. -/
def resumeAuthorize (tx : TxId) (generated : String) (now : Int) : Option Issuer :=
  match issuer.phases tx with
  | .resuming visit params =>
      some ((issuer.enter tx .idle).handleAuthorize config visit params generated now)
  | _ => none

/-! ## Tokens -/

/-- The checks of `token` before the rate limit: the client id, or an error. -/
def authenticate (request : TokenRequest) : Except ErrorResponse String :=
  if ¬ "application/x-www-form-urlencoded".toList <:+: request.contentType.toList then
    .error ⟨"invalid_request", "Content-Type must be application/x-www-form-urlencoded", 415⟩
  else
    let parsed := (request.authorization.filter fun header => !header.isEmpty).bind
      config.parseBasicAuth
    let (clientId, clientSecret) := parsed.getD (request.clientId, request.clientSecret)
    if clientId ≠ internalClientId then .error ⟨"invalid_client", "Unknown client", 401⟩
    else if clientSecret ≠ config.internalClientSecret then
      .error ⟨"invalid_client", "Invalid client credentials", 401⟩
    else .ok clientId

/-- `token`, up to `check_token_rate_limit`; `INCR` and `EXPIRE ... NX` are one pipeline. -/
def token (tx : TxId) (request : TokenRequest) (redisNow : Int) : Issuer :=
  match authenticate config request with
  | .error response => issuer.record (.refused response)
  | .ok clientId =>
      let counter := Window.hit 60 redisNow (issuer.counters request.ip)
      let issuer :=
        { issuer with counters := Function.update issuer.counters request.ip (some counter) }
      if counter.count ≤ tokenRateLimitPerSourcePerMinute then
        (issuer.record (.admitted request.ip redisNow)).enter tx (.admitted request clientId)
      else issuer.refuse "invalid_request" "Rate limit exceeded" 429

/-- `_mint_access_token`. -/
def mintAccessToken (userId organizationId email : String) (isPlatformSuperuser : Bool)
    (scope resource jti : String) (now : Int) : AccessClaims where
  iss := config.issuerUrl
  sub := userId
  aud := resource
  exp := now + config.accessTokenLifetime
  iat := now
  jti := jti
  scope := scope
  email := email
  organizationId := organizationId
  isPlatformSuperuser := isPlatformSuperuser

def codeClaims (data : AuthCodeData) (jti : String) (now : Int) : AccessClaims :=
  mintAccessToken config data.userId data.organizationId data.email data.isPlatformSuperuser
    (config.stripRefreshScope data.scope) data.resource jti now

def refreshClaims (context : RefreshTokenContext) (jti : String) (now : Int) : AccessClaims :=
  mintAccessToken config context.userId context.organizationId context.metadata.email
    context.metadata.isPlatformSuperuser context.metadata.scope context.metadata.resource jti now

def idClaims (data : AuthCodeData) (clientId : String) (now : Int) : IdClaims where
  iss := config.issuerUrl
  sub := data.userId
  aud := clientId
  exp := now + config.accessTokenLifetime
  iat := now
  email := data.email
  organizationId := data.organizationId
  nonce := data.nonce.filter fun nonce => !nonce.isEmpty

def checkCode (data : AuthCodeData) (redirectUri codeVerifier clientId : String) (now : Int) :
    Option ErrorResponse :=
  if config.authCodeLifetime < now - data.createdAt then
    some ⟨"invalid_grant", "Authorization code has expired", 400⟩
  else if redirectUri ≠ data.redirectUri then
    some ⟨"invalid_grant", "redirect_uri mismatch", 400⟩
  else if clientId ≠ data.clientId then some ⟨"invalid_grant", "client_id mismatch", 400⟩
  else if data.codeChallengeMethod ≠ "S256" then
    some ⟨"invalid_grant", "Only S256 code_challenge_method is supported", 400⟩
  else
    match config.validatePkceS256 codeVerifier data.codeChallenge with
    | some true => none
    | some false => some ⟨"invalid_grant", "PKCE verification failed", 400⟩
    | none => some ⟨"server_error", "Internal Server Error", 500⟩

/-- `_handle_authorization_code_grant`, up to the refresh token: the code is loaded and deleted
at once, and the access token is minted. -/
def handleAuthorizationCodeGrant (tx : TxId) (request : TokenRequest) (clientId : String)
    (now mintedAt : Int) (jti : String) : Issuer :=
  match request.code, request.redirectUri, request.codeVerifier with
  | some code, some redirectUri, some codeVerifier =>
      if code.isEmpty || redirectUri.isEmpty || codeVerifier.isEmpty then
        issuer.refuse "invalid_request" "code, redirect_uri, and code_verifier are required" 400
      else
        match issuer.codes code with
        | none =>
            issuer.refuse "invalid_grant"
              "Authorization code is invalid, expired, or already used" 400
        | some data =>
            let issuer := { issuer with codes := Function.update issuer.codes code none }
            match checkCode config data redirectUri codeVerifier clientId now with
            | some response => issuer.record (.refused response)
            | none =>
                let grant : Grant :=
                  { data := data
                    redirectUri := redirectUri
                    codeVerifier := codeVerifier
                    presentedAt := now
                    claims := codeClaims config data jti mintedAt
                    idClaims := idClaims config data clientId mintedAt
                    refreshToken := none
                    familyId := none }
                if offlineAccessScope ∈ words (config.stripRefreshScope data.scope) ∧
                    config.refreshTokensEnabled then
                  issuer.enter tx (.issuing grant clientId)
                else issuer.record (.granted grant)
  | _, _, _ =>
      issuer.refuse "invalid_request" "code, redirect_uri, and code_verifier are required" 400

/-- The metadata that the refresh token of a code is issued with. -/
def grantMetadata (data : AuthCodeData) : RefreshTokenMetadata where
  email := data.email
  isPlatformSuperuser := data.isPlatformSuperuser
  scope := config.stripRefreshScope data.scope
  resource := data.resource

/-- A statement on the refresh tokens. -/
def stepTokens (tx : TxId) (statement : TokenStatement) : Option Issuer :=
  (issuer.tokens.step config.tokens ⟨tx, statement⟩).map fun tokens =>
    { issuer with tokens := tokens }

/-- `issue_refresh_token` for a grant, and the response. -/
def issueRefresh (tx : TxId) (token familyId : String) (now : Int) : Option Issuer :=
  match issuer.phases tx with
  | .issuing grant clientId =>
      (issuer.stepTokens config tx (.issue token none familyId grant.data.userId
        grant.data.organizationId clientId (grantMetadata config grant.data) now)).map
        fun issuer => (issuer.record (.granted { grant with
          refreshToken := some token
          familyId := some familyId })).enter tx .idle
  | _ => none

/-- `_handle_refresh_token_grant`, up to the first statement of its session. -/
def handleRefreshTokenGrant (tx : TxId) (request : TokenRequest) (clientId newToken : String)
    (now : Int) : Option Issuer :=
  match request.refreshToken.filter fun token => !token.isEmpty with
  | none =>
      some ((issuer.refuse "invalid_request"
        "refresh_token is required for refresh_token grant" 400).enter tx .idle)
  | some refreshToken =>
      if ¬ config.refreshTokensEnabled then
        some ((issuer.refuse "invalid_grant"
          "Refresh tokens are disabled on this deployment" 400).enter tx .idle)
      else
        (issuer.stepTokens config tx (.rotate refreshToken clientId newToken now)).map
          fun issuer => issuer.enter tx .refreshing

/-- The dispatch of an admitted request by its grant type. -/
def dispatch (tx : TxId) (now mintedAt : Int) (jti newToken : String) : Option Issuer :=
  match issuer.phases tx with
  | .admitted request clientId =>
      if request.grantType = "authorization_code" then
        some ((issuer.enter tx .idle).handleAuthorizationCodeGrant config tx request clientId now
          mintedAt jti)
      else if request.grantType = "refresh_token" then
        issuer.handleRefreshTokenGrant config tx request clientId newToken now
      else
        some ((issuer.refuse "unsupported_grant_type"
          "Only authorization_code and refresh_token are supported" 400).enter tx .idle)
  | _ => none

/-- A statement of `revoke_family` in the session of a request, or its commit. -/
def revoke (tx : TxId) (statement : TokenStatement) : Option Issuer :=
  match issuer.phases tx, statement with
  | .refreshing, .revokeUpdate | .refreshing, .revokeRow _ | .refreshing, .revokeCommit =>
      issuer.stepTokens config tx statement
  | _, _ => none

/-- The access token of a rotation, its commit and the response. -/
def refreshCommit (tx : TxId) (mintedAt : Int) (jti : String) : Option Issuer :=
  match issuer.phases tx, issuer.tokens.sessions tx with
  | .refreshing, .rotating row metadata newToken _ =>
      (issuer.stepTokens config tx .rotateCommit).map fun issuer =>
        (issuer.record (.refreshed row.tokenHash row.familyId
          (refreshClaims config (row.context metadata) jti mintedAt) newToken)).enter tx .idle
  | _, _ => none

/-- The request fails or is over: what its session has not committed is rolled back. -/
def drop (tx : TxId) : Option Issuer :=
  (issuer.stepTokens config tx .rollback).map fun issuer => issuer.enter tx .idle

end Issuer

/-! ## Runs -/

/-- A step of a request, or an eviction by Redis. -/
inductive IssuerEvent
  | authorize (visit : Visit) (params : AuthorizeParams) (generated : String) (now : Int)
  | resume (tx : TxId) (visit : Visit) (txnId : String) (now : Int)
  | resumeAuthorize (tx : TxId) (generated : String) (now : Int)
  | token (tx : TxId) (request : TokenRequest) (redisNow : Int)
  | dispatch (tx : TxId) (now mintedAt : Int) (jti newToken : String)
  | issueRefresh (tx : TxId) (token familyId : String) (now : Int)
  | revoke (tx : TxId) (statement : TokenStatement)
  | refreshCommit (tx : TxId) (mintedAt : Int) (jti : String)
  | drop (tx : TxId)
  | evictCode (code : String)
  | evictResume (txnId : String)

/-- The effect of an event, `none` when it has to wait or does not come next. -/
def Issuer.step (config : IssuerConfig) (issuer : Issuer) : IssuerEvent → Option Issuer
  | .authorize visit params generated now =>
      some (issuer.handleAuthorize config visit params generated now)
  | .resume tx visit txnId now =>
      if issuer.phases tx = .idle then some (issuer.authorizeResume config tx visit txnId now)
      else none
  | .resumeAuthorize tx generated now => issuer.resumeAuthorize config tx generated now
  | .token tx request redisNow =>
      if issuer.phases tx = .idle then some (issuer.token config tx request redisNow) else none
  | .dispatch tx now mintedAt jti newToken => issuer.dispatch config tx now mintedAt jti newToken
  | .issueRefresh tx token familyId now => issuer.issueRefresh config tx token familyId now
  | .revoke tx statement => issuer.revoke config tx statement
  | .refreshCommit tx mintedAt jti => issuer.refreshCommit config tx mintedAt jti
  | .drop tx => issuer.drop config tx
  | .evictCode code => some { issuer with codes := Function.update issuer.codes code none }
  | .evictResume txnId =>
      some { issuer with resumes := Function.update issuer.resumes txnId none }

/-- The random text that an event stores a record under. -/
def IssuerEvent.generated : IssuerEvent → Option String
  | .authorize _ _ generated _ | .resumeAuthorize _ generated _ => some generated
  | _ => none

/-- The text has been stored before. -/
def Issuer.Stored (issuer : Issuer) (text : String) : Prop :=
  (∃ visit data, .authorized visit data ∈ issuer.log ∧ data.code = text) ∨
    ∃ txn, .deferred txn ∈ issuer.log ∧ txn.transactionId = text

/-- A refresh token of the family has been issued for a code. -/
def Issuer.Began (issuer : Issuer) (familyId : FamilyId) : Prop :=
  ∃ grant, .granted grant ∈ issuer.log ∧ grant.familyId = some familyId

/-- One event.  What `token_urlsafe` and `uuid4` return is new. -/
structure IssuerStep (config : IssuerConfig) (issuer : Issuer) (event : IssuerEvent)
    (next : Issuer) : Prop where
  run : issuer.step config event = some next
  fresh : ∀ text, event.generated = some text → ¬ issuer.Stored text
  uuid4 : ∀ tx token familyId now, event = .issueRefresh tx token familyId now →
    ¬ issuer.Began familyId

/-- The runs from an empty issuer. -/
abbrev IssuerRun (config : IssuerConfig) : List IssuerEvent → Issuer → Prop :=
  Run (IssuerStep config) .empty

end Oidc
end Tracecat
