import SaccoPlatform.Iam.Keys
import SaccoPlatform.Iam.Lockout
import SaccoPlatform.Lib.Json
import SaccoPlatform.Lib.Uuid
import SaccoPlatform.Platform.Gate

/-!
# The audit rows of a login

`TenantAuthService.login` with `app/modules/iam/auth_audit.py`, served through `get_tenant_session`. An
audit row is added to the session of the request like any other row. A login that fails raises, so the
session is rolled back and the row goes with it; Redis keeps what it was told.
-/

namespace SaccoPlatform.Iam

open Lib Session

/-! ## Tables -/

/-- A row of `tenant_users`. -/
structure TenantUser where
  id : Uuid
  email : String
  isActive : Bool
  hashedPassword : Option String
deriving DecidableEq, Repr

/-- What the lockout sees of the user. -/
def TenantUser.account (user : TenantUser) : Account := .user user.isActive user.hashedPassword

/-- A row of `tenant_sessions`. -/
structure TenantSession where
  id : Uuid
  tenantUserId : Uuid
  jti : Uuid
  userAgent : Option String
  ipAddress : Option String
  createdAt : Timestamp
  expiresAt : Timestamp
deriving DecidableEq, Repr

/-- A row of `audit_log`. The columns that these events leave `NULL` are left out. -/
structure TenantAuditLog where
  tableName : String
  recordId : Uuid
  operation : String
  actorType : String
  actorId : Option Uuid
  actorLabel : Option String
  afterState : Option (List (String × Json))
  occurredAt : Timestamp

/-- What a login reads and writes of the schema of its tenant. -/
structure TenantTables where
  users : List TenantUser
  sessions : List TenantSession
  auditLog : List TenantAuditLog

/-- The user of an email, which is unique, if he is active. -/
def TenantTables.activeUser? (t : TenantTables) (email : String) : Option TenantUser :=
  (t.users.find? (·.email = email)).filter (·.isActive)

/-- What no rollback takes back: Redis, the caches of the processes, and the draws of `uuid4`. -/
structure Beyond where
  lockout : Lockout
  jtis : Expiring Uuid Unit
  keyring : Keyring
  nextId : Uuid

/-- What a login works on. -/
structure LoginScope where
  tables : TenantTables
  beyond : Beyond

/-! ## `auth_audit.py` -/

/-- `_NIL_UUID`. -/
def nilUuid : Uuid := 0

/-- `_SESSION_OPERATIONS`. -/
def sessionOperations : List String :=
  ["login_success", "login_failed", "login_locked", "refresh", "logout", "me"]

/-- `_tenant_table`, without an override. -/
def tenantTable (operation : String) : String :=
  if operation ∈ sessionOperations then "tenant_sessions" else "tenant_users"

/-- A text or `None`. -/
def jsonText (text : Option String) : Json := (text.map .str).getD .null

/-- `state["tenant"] = tenant_slug`. -/
def withTenant (tenantSlug : String) (state : List (String × Json)) : List (String × Json) :=
  if tenantSlug = "" then state
  else state.filter (·.1 ≠ "tenant") ++ [("tenant", .str tenantSlug)]

/-- The row of `write_tenant_auth_event`. -/
def tenantAuthEvent (now : Timestamp) (operation : String) (actorId : Option Uuid) (actorLabel : String)
    (tenantSlug : String) (afterState : List (String × Json)) : TenantAuditLog where
  tableName := tenantTable operation
  recordId := actorId.getD nilUuid
  operation := operation
  actorType := if actorId.isSome then "tenant_user" else "anonymous"
  actorId := actorId
  actorLabel := some actorLabel
  afterState := if (withTenant tenantSlug afterState).isEmpty then none
    else some (withTenant tenantSlug afterState)
  occurredAt := now

/-- What a failing login raises. -/
inductive LoginError where
  | httpException (statusCode : ℕ) (detail : String) (retryAfter : Option ℤ)
  | keyError (e : KeyError)
deriving DecidableEq, Repr

/-- The status of the response: an error that nobody handles is a 500. -/
def LoginError.statusCode : LoginError → ℕ
  | httpException statusCode _ _ => statusCode
  | keyError _ => 500

/-- `write_tenant_auth_event`: the row is added to the session. -/
def writeTenantAuthEvent (row : TenantAuditLog) : Session LoginScope LoginError Unit :=
  modify fun s => { s with tables := { s.tables with auditLog := s.tables.auditLog ++ [row] } }

/-! ## `TenantAuthService` -/

/-- A request for `POST /auth/token`, with the moment and the process that serves it, and what Redis and
the calendar tell `get_tenant_session`. -/
structure LoginCall where
  tenantHeader : Option String
  email : String
  password : String
  userAgent : Option String
  ipAddress : Option String
  time : Timestamp
  process : ℕ
  cachedSchema : Option String
  today : Date

def LoginCall.request (c : LoginCall) : Platform.Request := ⟨c.tenantHeader, "POST"⟩

/-- `self._slug`. -/
def LoginCall.slug (c : LoginCall) : String := c.tenantHeader.getD ""

structure TenantTokenResponse where
  accessToken : Issued
  refreshToken : Issued
  expiresIn : ℕ
deriving DecidableEq, Repr

namespace TenantAuthService

def onLockout (f : Lockout → Lockout) : Session LoginScope LoginError Unit :=
  modify fun s => { s with beyond := { s.beyond with lockout := f s.beyond.lockout } }

/-- `get_active_signing_key("tenant")`. -/
def signingKey (c : LoginCall) : Session LoginScope LoginError ℕ := fun s =>
  let found := s.beyond.keyring.getActiveSigningKey c.process c.time .tenant
  match found.1 with
  | .ok kid => .ok kid { s with beyond := { s.beyond with keyring := found.2 } }
  | .error e => .raised (.keyError e) { s with beyond := { s.beyond with keyring := found.2 } }

/-- `SessionService.create`: the row, and the `jti` in Redis. -/
def createSession (tokens : TokenSettings) (c : LoginCall) (user : TenantUser) :
    Session LoginScope LoginError TenantSession := fun s =>
  let row : TenantSession := ⟨s.beyond.nextId, user.id, s.beyond.nextId + 1, c.userAgent, c.ipAddress,
    c.time, c.time + seconds tokens.refreshTtlTenant⟩
  .ok row
    { tables := { s.tables with sessions := s.tables.sessions ++ [row] }
      beyond := { s.beyond with
        jtis := s.beyond.jtis.set row.jti () row.expiresAt
        nextId := s.beyond.nextId + 2 } }

/-- `encode_access_token` and `encode_refresh_token`. The access token has a `jti` of its own. -/
def issueTokens (tokens : TokenSettings) (c : LoginCall) (user : TenantUser) (row : TenantSession)
    (kid : ℕ) : Session LoginScope LoginError TenantTokenResponse := fun s =>
  .ok ⟨⟨.access, encodeAccessToken c.time user.id (Realm.tenant c.slug).audience row.id "tenant_user"
        s.beyond.nextId tokens.accessTtl, c.time, kid⟩,
      ⟨.refresh, encodeRefreshToken c.time user.id (Realm.tenant c.slug).audience row.id row.jti
        tokens.refreshTtlTenant, c.time, kid⟩, tokens.accessTtl⟩
    { s with beyond := { s.beyond with nextId := s.beyond.nextId + 1 } }

/-- `login` once the credentials are accepted. The rehash puts another hash of the same password in the
place of the old one. -/
def openSession (tokens : TokenSettings) (c : LoginCall) (user : TenantUser) :
    Session LoginScope LoginError TenantTokenResponse := do
  onLockout (·.reset c.email)
  let kid ← signingKey c
  let row ← createSession tokens c user
  let response ← issueTokens tokens c user row kid
  writeTenantAuthEvent (tenantAuthEvent c.time "login_success" user.id user.email c.slug
    [("session_id", .str (UUID.str ⟨row.id % 2 ^ 128, Nat.mod_lt _ (by decide)⟩)),
      ("user_agent", jsonText c.userAgent), ("ip_address", jsonText c.ipAddress)])
  pure response

/-- `login`. -/
def login (verify : VerifyPassword) (cfg : LockoutSettings) (tokens : TokenSettings) (c : LoginCall) :
    Session LoginScope LoginError TenantTokenResponse := do
  let s ← get
  match s.tables.activeUser? c.email with
  | none =>
    onLockout (·.recordAttempt cfg c.time c.email)
    writeTenantAuthEvent (tenantAuthEvent c.time "login_failed" none c.email c.slug
      [("email", .str c.email), ("reason", .str "user_not_found_or_inactive")])
    raise (.httpException 401 "Invalid credentials" none)
  | some user =>
    match s.beyond.lockout.isLocked c.time c.email with
    | some retryAfter =>
      writeTenantAuthEvent (tenantAuthEvent c.time "login_locked" user.id user.email c.slug
        [("email", .str c.email), ("retry_after", .int retryAfter)])
      raise (.httpException 423 "Account locked due to too many failed attempts" retryAfter)
    | none =>
      if user.account.verifies verify c.password then openSession tokens c user
      else do
        onLockout (·.recordAttempt cfg c.time c.email)
        writeTenantAuthEvent (tenantAuthEvent c.time "login_failed" user.id user.email c.slug
          [("reason", .str "bad_password")])
        raise (.httpException 401 "Invalid credentials" none)

end TenantAuthService

/-! ## Serving the request -/

/-- The tenants' schemas by name, and what lies outside them. -/
structure AuthServer where
  platform : Platform.Db
  schemas : String → TenantTables
  beyond : Beyond

/-- The schema that the request was served in, if `get_tenant_session` let it in, and the status of the
response. -/
structure LoginAnswer where
  schemaName : Option String
  statusCode : ℕ
deriving DecidableEq, Repr

/-- The schema that `get_tenant_session` opens a session on. -/
def AuthServer.admits (w : AuthServer) (c : LoginCall) : Except Platform.HttpError String :=
  Platform.getTenantSession w.platform c.cachedSchema c.today c.request

/-- The end of `get_tenant_session`: the session is committed when the login returned and rolled back
when it raised. -/
def AuthServer.finish (w : AuthServer) (schemaName : String) :
    Outcome LoginScope LoginError TenantTokenResponse → AuthServer × LoginAnswer
  | .ok _ s =>
    ({ w with schemas := Function.update w.schemas schemaName s.tables, beyond := s.beyond },
      ⟨schemaName, 200⟩)
  | .raised e s => ({ w with beyond := s.beyond }, ⟨schemaName, e.statusCode⟩)
  | .aborted e => (w, ⟨schemaName, e.statusCode⟩)

/-- `POST /auth/token`. -/
def AuthServer.serve (verify : VerifyPassword) (cfg : LockoutSettings) (tokens : TokenSettings)
    (w : AuthServer) (c : LoginCall) : AuthServer × LoginAnswer :=
  match w.admits c with
  | .error e => (w, ⟨none, e.statusCode⟩)
  | .ok schemaName =>
    w.finish schemaName (TenantAuthService.login verify cfg tokens c ⟨w.schemas schemaName, w.beyond⟩)

/-- A login, or what other requests commit in between: users, lockouts, keys and the tenant itself. The
rows that they write to `audit_log` are not about tenant logins. -/
inductive LoginOp where
  | login (c : LoginCall)
  | other (platform : Platform.Db) (users : String → List TenantUser) (beyond : Beyond)

def LoginOp.step (verify : VerifyPassword) (cfg : LockoutSettings) (tokens : TokenSettings)
    (w : AuthServer) : LoginOp → AuthServer × Option LoginAnswer
  | login c => ((w.serve verify cfg tokens c).1, some (w.serve verify cfg tokens c).2)
  | other platform users beyond =>
    ({ platform, schemas := fun name => { w.schemas name with users := users name }, beyond }, none)

/-- The rows of `audit_log` for an operation. -/
def TenantTables.audited (t : TenantTables) (operation : String) : ℕ :=
  t.auditLog.countP (·.operation = operation)

/-- For every tenant, as many rows `login_failed` were committed as requests were answered with 401, and
as many rows `login_locked` as with 423. -/
def FailuresTraced (w w' : AuthServer) (answers : List (Option LoginAnswer)) : Prop :=
  ∀ schemaName : String,
    (w'.schemas schemaName).audited "login_failed" = (w.schemas schemaName).audited "login_failed" +
      answers.count (some ⟨schemaName, 401⟩) ∧
    (w'.schemas schemaName).audited "login_locked" = (w.schemas schemaName).audited "login_locked" +
      answers.count (some ⟨schemaName, 423⟩)

/-- The login finds its user active and not locked, and the password is right. -/
def LoginScope.Accepts (verify : VerifyPassword) (s : LoginScope) (c : LoginCall) : Prop :=
  ∃ user ∈ s.tables.activeUser? c.email,
    s.beyond.lockout.isLocked c.time c.email = none ∧
      user.account.verifies verify c.password = true

/-- If the operation is a login that `get_tenant_session` lets in, the credentials are accepted. -/
def LoginOp.Accepted (verify : VerifyPassword) (w : AuthServer) : LoginOp → Prop
  | login c => ∀ schemaName, w.admits c = .ok schemaName →
      LoginScope.Accepts verify ⟨w.schemas schemaName, w.beyond⟩ c
  | other _ _ _ => True

/-! ## How a login ends -/

/-- The accounts of the tenant, as the lockout sees them. -/
def LoginScope.accounts (s : LoginScope) : Accounts := fun _ email =>
  (s.tables.users.find? (·.email = email)).map TenantUser.account

def LoginCall.attempt (c : LoginCall) : LoginRequest := ⟨c.time, .tenant c.slug, c.email, c.password⟩

def LoginOutcome.statusCode : LoginOutcome → ℕ
  | notFoundOrIneligible => 401
  | locked _ => 423
  | badPassword => 401
  | success => 200

section

variable {verify : VerifyPassword} {cfg : LockoutSettings} {tokens : TokenSettings} {c : LoginCall}
  {s : LoginScope} {w : AuthServer}

theorem accounts_eligible (s : LoginScope) (ρ : Realm) (email : String) :
    (s.accounts ρ email).filter (·.eligible) = (s.tables.activeUser? email).map
      TenantUser.account := by
  unfold LoginScope.accounts TenantTables.activeUser?
  cases s.tables.users.find? (·.email = email) with
  | none => rfl
  | some user =>
    by_cases hactive : user.isActive = true <;>
      simp [Option.filter, TenantUser.account, Account.eligible, hactive]

/-- What the lockout makes of an attempt. -/
theorem login_accounts : login verify cfg s.accounts s.beyond.lockout c.attempt =
    match s.tables.activeUser? c.email with
    | none => (.notFoundOrIneligible, s.beyond.lockout.recordAttempt cfg c.time c.email)
    | some user =>
      match s.beyond.lockout.isLocked c.time c.email with
      | some retryAfter => (.locked retryAfter, s.beyond.lockout)
      | none =>
        if user.account.verifies verify c.password then (.success, s.beyond.lockout.reset c.email)
        else (.badPassword, s.beyond.lockout.recordAttempt cfg c.time c.email) := by
  have heligible : (s.accounts c.attempt.realm c.attempt.email).filter (·.eligible) =
      (s.tables.activeUser? c.email).map TenantUser.account :=
    accounts_eligible s _ _
  rw [login, heligible]
  cases s.tables.activeUser? c.email <;> rfl

/-- A login that is not accepted raises, with the outcome of the lockout. -/
theorem login_refuses (h : ¬ s.Accepts verify c) : ∃ e s',
    TenantAuthService.login verify cfg tokens c s = .raised e s' ∧
    (e.statusCode = 401 ∨ e.statusCode = 423) ∧
    e.statusCode = (login verify cfg s.accounts s.beyond.lockout c.attempt).1.statusCode ∧
    s'.beyond.lockout = (login verify cfg s.accounts s.beyond.lockout c.attempt).2 := by
  rw [login_accounts]
  unfold TenantAuthService.login
  rw [bind_apply, get_apply]
  dsimp only
  cases huser : s.tables.activeUser? c.email with
  | none => exact ⟨_, _, rfl, .inl rfl, rfl, rfl⟩
  | some user =>
    dsimp only
    cases hlocked : s.beyond.lockout.isLocked c.time c.email with
    | some retryAfter => exact ⟨_, _, rfl, .inr rfl, rfl, rfl⟩
    | none =>
      have hpassword : ¬ user.account.verifies verify c.password = true :=
        fun heq => h ⟨user, huser, hlocked, heq⟩
      dsimp only
      rw [if_neg hpassword, if_neg hpassword]
      exact ⟨_, _, rfl, .inl rfl, rfl, rfl⟩

/-- An accepted login opens a session, unless there is no key to sign with. -/
theorem openSession_ends (user : TenantUser) :
    (∃ response s' row, TenantAuthService.openSession tokens c user s = .ok response s' ∧
      s'.tables.auditLog = s.tables.auditLog ++ [row] ∧ row.operation = "login_success" ∧
      s'.beyond.lockout = s.beyond.lockout.reset c.email) ∨
    ∃ e s', TenantAuthService.openSession tokens c user s = .raised (.keyError e) s' ∧
      s'.beyond.lockout = s.beyond.lockout.reset c.email := by
  have hreset : TenantAuthService.openSession tokens c user s = (TenantAuthService.signingKey c >>= _)
      { s with beyond := { s.beyond with lockout := s.beyond.lockout.reset c.email } } := rfl
  rw [hreset, bind_apply]
  unfold TenantAuthService.signingKey
  dsimp only
  cases (s.beyond.keyring.getActiveSigningKey c.process c.time .tenant).1 with
  | ok kid => exact .inl ⟨_, _, _, rfl, rfl, rfl, rfl⟩
  | error e => exact .inr ⟨e, _, rfl, rfl⟩

theorem login_accepts (h : s.Accepts verify c) :
    login verify cfg s.accounts s.beyond.lockout c.attempt = (.success, s.beyond.lockout.reset c.email) ∧
      ∃ user, TenantAuthService.login verify cfg tokens c s =
        TenantAuthService.openSession tokens c user s := by
  obtain ⟨user, huser, hlocked, hpassword⟩ := h
  rw [login_accounts, Option.mem_def.mp huser]
  dsimp only
  rw [hlocked]
  dsimp only
  rw [if_pos hpassword]
  refine ⟨rfl, user, ?_⟩
  unfold TenantAuthService.login
  rw [bind_apply, get_apply]
  dsimp only
  rw [Option.mem_def.mp huser]
  dsimp only
  rw [hlocked]
  dsimp only
  rw [if_pos hpassword]

/-! ## What a request leaves -/

/-- No request commits a row about a failure. -/
theorem serve_audited {operation : String} (hop : operation ≠ "login_success") (schemaName : String) :
    ((w.serve verify cfg tokens c).1.schemas schemaName).audited operation =
      (w.schemas schemaName).audited operation := by
  unfold AuthServer.serve
  cases hin : w.admits c with
  | error e => rfl
  | ok admitted =>
    dsimp only
    by_cases h : LoginScope.Accepts verify ⟨w.schemas admitted, w.beyond⟩ c
    · obtain ⟨-, user, hlogin⟩ := @login_accepts verify cfg tokens c _ h
      rw [hlogin]
      rcases @openSession_ends tokens c ⟨w.schemas admitted, w.beyond⟩ user with
        ⟨response, s', row, hopen, hlog, hrow, -⟩ | ⟨e, s', hopen, -⟩
      · rw [hopen]
        show (Function.update w.schemas admitted s'.tables schemaName).audited operation = _
        by_cases hsame : schemaName = admitted
        · rw [hsame, Function.update_self, TenantTables.audited, hlog, List.countP_append]
          have hother : row.operation ≠ operation := by
            rw [hrow]
            exact Ne.symm hop
          simp [hother, TenantTables.audited]
        · rw [Function.update_of_ne hsame]
      · rw [hopen]
        rfl
    · obtain ⟨e, s', hlogin, -⟩ := @login_refuses verify cfg tokens c _ h
      rw [hlogin]
      rfl

/-- A request is answered with 401 or 423 exactly when it gets in and is not accepted. -/
theorem serve_fails_iff : (∃ schemaName, (w.serve verify cfg tokens c).2 = ⟨some schemaName, 401⟩ ∨
    (w.serve verify cfg tokens c).2 = ⟨some schemaName, 423⟩) ↔ ¬ (LoginOp.login c).Accepted verify w := by
  show _ ↔ ¬ ∀ schemaName, w.admits c = .ok schemaName →
    LoginScope.Accepts verify ⟨w.schemas schemaName, w.beyond⟩ c
  unfold AuthServer.serve
  cases hin : w.admits c with
  | error e => simp
  | ok admitted =>
    dsimp only
    by_cases h : LoginScope.Accepts verify ⟨w.schemas admitted, w.beyond⟩ c
    · obtain ⟨-, user, hlogin⟩ := @login_accepts verify cfg tokens c _ h
      rw [hlogin]
      rcases @openSession_ends tokens c ⟨w.schemas admitted, w.beyond⟩ user with
        ⟨response, s', row, hopen, -⟩ | ⟨e, s', hopen, -⟩
      · simp [hopen, AuthServer.finish, h]
      · simp [hopen, AuthServer.finish, LoginError.statusCode, h]
    · obtain ⟨e, s', hlogin, hstatus, -⟩ := @login_refuses verify cfg tokens c _ h
      refine iff_of_true ⟨admitted, ?_⟩ fun hall => h (hall admitted rfl)
      rw [hlogin]
      rcases hstatus with hstatus | hstatus
      · exact .inl (congrArg (LoginAnswer.mk admitted) hstatus)
      · exact .inr (congrArg (LoginAnswer.mk admitted) hstatus)

end

/-- In every run of logins, among what other requests commit, the failures are traced exactly when there are
none: every login that gets in is accepted. -/
theorem failed_logins_traced_iff (verify : VerifyPassword) (cfg : LockoutSettings)
    (tokens : TokenSettings) (w : AuthServer) (ops : List LoginOp) :
    FailuresTraced w (run (fun w op => (LoginOp.step verify cfg tokens w op).1) w ops)
        (answers (LoginOp.step verify cfg tokens) w ops) ↔
      Along (fun w op => (LoginOp.step verify cfg tokens w op).1) (LoginOp.Accepted verify) w ops := by
  have haudited : ∀ operation ≠ "login_success", ∀ schemaName : String,
      ((run (fun w op => (LoginOp.step verify cfg tokens w op).1) w ops).schemas
        schemaName).audited operation = (w.schemas schemaName).audited operation := by
    intro operation hop schemaName
    refine @run_invariant_of_step AuthServer LoginOp _ (fun w' =>
      (w'.schemas schemaName).audited operation = (w.schemas schemaName).audited operation) ?_ w ops rfl
    intro w' op hw'
    cases op with
    | login c => exact (serve_audited hop schemaName).trans hw'
    | other platform users beyond => exact hw'
  have hnone : FailuresTraced w (run (fun w op => (LoginOp.step verify cfg tokens w op).1) w ops)
      (answers (LoginOp.step verify cfg tokens) w ops) ↔
        ∀ answer ∈ answers (LoginOp.step verify cfg tokens) w ops,
        ¬ ∃ schemaName : String, answer = some ⟨schemaName, 401⟩ ∨ answer = some ⟨schemaName, 423⟩ := by
    unfold FailuresTraced
    constructor
    · rintro h answer hanswer ⟨schemaName, rfl | rfl⟩
      · have hcount := (h schemaName).1
        rw [haudited _ (by decide)] at hcount
        exact absurd (List.count_pos_iff.mpr hanswer) (by omega)
      · have hcount := (h schemaName).2
        rw [haudited _ (by decide)] at hcount
        exact absurd (List.count_pos_iff.mpr hanswer) (by omega)
    · intro h schemaName
      rw [haudited _ (by decide), haudited _ (by decide), List.count_eq_zero.mpr, List.count_eq_zero.mpr]
      · exact ⟨rfl, rfl⟩
      · exact fun hmem => h _ hmem ⟨schemaName, .inr rfl⟩
      · exact fun hmem => h _ hmem ⟨schemaName, .inl rfl⟩
  rw [hnone, forall_answers]
  have hstep : ∀ (w : AuthServer) (op : LoginOp), (¬ ∃ schemaName : String,
      (LoginOp.step verify cfg tokens w op).2 = some ⟨schemaName, 401⟩ ∨
        (LoginOp.step verify cfg tokens w op).2 = some ⟨schemaName, 423⟩) ↔ op.Accepted verify w := by
    intro w op
    cases op with
    | login c =>
      simp only [LoginOp.step, Option.some.injEq]
      rw [serve_fails_iff, not_not]
    | other platform users beyond =>
      simp [LoginOp.step, LoginOp.Accepted]
  exact ⟨Along.mono fun w op => (hstep w op).mp, Along.mono fun w op => (hstep w op).mpr⟩

/-- A tenant with one user. -/
def oneUser : AuthServer where
  platform := Platform.freshDb
  schemas _ := ⟨[⟨1, "clerk@umoja.test", true, some "$argon2id$umoja"⟩], [], []⟩
  beyond := ⟨⟨Expiring.empty, Expiring.empty⟩, Expiring.empty, ⟨bootKeys, fun _ => ⟨.empty, .empty⟩⟩, 2⟩

/-- His login with a wrong password. -/
def wrongPassword : LoginCall where
  tenantHeader := some "umoja"
  email := "clerk@umoja.test"
  password := "battery staple"
  userAgent := none
  ipAddress := none
  time := 0
  process := 0
  cachedSchema := none
  today := Platform.dayOne

/-- The login is answered with 401, and no row is left of it. -/
theorem wrong_password_untraced :
    (oneUser.serve sampleVerify defaultLockout defaultTokens wrongPassword).2 = ⟨some "tenant_umoja", 401⟩ ∧
    ((oneUser.serve sampleVerify defaultLockout defaultTokens wrongPassword).1.schemas
      "tenant_umoja").audited "login_failed" = 0 ∧
    ¬ FailuresTraced oneUser
      (run (fun w op => (LoginOp.step sampleVerify defaultLockout defaultTokens w op).1) oneUser
        [.login wrongPassword])
      (answers (LoginOp.step sampleVerify defaultLockout defaultTokens) oneUser
        [.login wrongPassword]) := by
  refine ⟨by decide +kernel, by decide +kernel, ?_⟩
  intro h
  exact absurd (h "tenant_umoja").1 (by decide +kernel)

end SaccoPlatform.Iam
