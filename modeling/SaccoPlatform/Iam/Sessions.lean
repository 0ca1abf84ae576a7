import SaccoPlatform.Lib.Runs
import SaccoPlatform.Iam.Keys

/-!
# Sessions and bearer tokens

The services `PlatformAuthService`, `TenantAuthService` and `MemberAuthService` from the point where
the credentials are accepted, `SessionService`, and the three JWT dependencies of
`app/modules/iam/dependencies.py`. The three realms run the same code over tables of their own.

Every request is one step: its transaction commits or rolls back as a whole. Redis is available
throughout. Identifiers that `uuid4` draws come from one counter.
-/

namespace SaccoPlatform.Iam

open Lib

/-! ## Tables -/

/-- A row of `platform_sessions`, `tenant_sessions` or `member_sessions`. -/
structure AuthSession where
  userId : ℕ
  jti : ℕ
  createdAt : Timestamp
  expiresAt : Timestamp
  revokedAt : Option Timestamp
deriving DecidableEq, Repr

/-- What authentication reads of a `PlatformUser`, a `TenantUser` or a `Member`, for whom `active`
stands for `portal_enabled` with the status `active`. -/
structure AuthUser where
  id : ℕ
  active : Bool
  hasPassword : Bool
  impersonationId : Option ℕ
deriving DecidableEq, Repr

/-- The login or the mint that created a session. -/
structure Created where
  realm : Realm
  sessionId : ℕ
  userId : ℕ
  jti : ℕ
  time : Timestamp
  key : ℕ
deriving DecidableEq, Repr

structure AuthWorld where
  keyWorld : KeyWorld
  sessions : Realm → ℕ → Option AuthSession
  users : Realm → Keyed AuthUser.id
  /-- The keys `iam:jti:{jti}` of Redis. -/
  jtis : Expiring ℕ Unit
  nextId : ℕ
  created : List Created

structure HttpError where
  status : ℕ
  detail : String
deriving DecidableEq, Repr

def AuthWorld.clock (w : AuthWorld) : Timestamp := w.keyWorld.clock

def Realm.keyAudience : Realm → KeyAudience
  | platform => .platform
  | tenant _ => .tenant
  | member _ => .tenant

def Realm.refreshTtl (cfg : TokenSettings) : Realm → ℕ
  | platform => cfg.refreshTtlPlatform
  | tenant _ => cfg.refreshTtlTenant
  | member _ => cfg.refreshTtlMember

/-! ## `SessionService` -/

/-- `create`, with the two tokens that its callers issue for the session under the key `kid`. -/
def AuthWorld.openSession (cfg : TokenSettings) (w : AuthWorld) (ρ : Realm) (userId kid : ℕ) :
    AuthWorld :=
  { w with
    keyWorld := w.keyWorld.issue cfg kid
      [.access userId ρ.audience w.nextId ρ.actorType (w.nextId + 2),
        .refresh userId ρ.audience w.nextId (w.nextId + 1) (ρ.refreshTtl cfg)]
    sessions := Function.update w.sessions ρ (Function.update (w.sessions ρ) w.nextId
      (some ⟨userId, w.nextId + 1, w.clock, w.clock + seconds (ρ.refreshTtl cfg), none⟩))
    jtis := w.jtis.set (w.nextId + 1) () (w.clock + seconds (ρ.refreshTtl cfg))
    nextId := w.nextId + 3
    created := w.created ++ [⟨ρ, w.nextId, userId, w.nextId + 1, w.clock, kid⟩] }

/-- A row that is not revoked yet is revoked now. -/
def AuthSession.revoke (now : Timestamp) (s : AuthSession) : AuthSession :=
  if s.revokedAt = none then { s with revokedAt := some now } else s

/-- `revoke`. -/
def AuthWorld.revoke (w : AuthWorld) (ρ : Realm) (sessionId : ℕ) : AuthWorld :=
  match w.sessions ρ sessionId with
  | none => w
  | some s => { w with
      sessions := Function.update w.sessions ρ
        (Function.update (w.sessions ρ) sessionId (some (s.revoke w.clock)))
      jtis := w.jtis.erase s.jti }

/-- `revoke_all_for_user`, which leaves Redis alone. -/
def AuthWorld.revokeAllForUser (w : AuthWorld) (ρ : Realm) (userId : ℕ) : AuthWorld :=
  { w with
    sessions := Function.update w.sessions ρ fun id =>
      (w.sessions ρ id).map fun s => if s.userId = userId then s.revoke w.clock else s }

/-- `_CLEANUP_RETENTION_DAYS`. -/
def cleanupRetention : ℤ := minutes (7 * 24 * 60)

/-- `cleanup_expired`. -/
def AuthWorld.cleanupExpired (w : AuthWorld) (ρ : Realm) : AuthWorld :=
  { w with
    sessions := Function.update w.sessions ρ fun id =>
      (w.sessions ρ id).filter fun s => ¬ s.expiresAt < w.clock - cleanupRetention }

/-- `is_jti_valid`. -/
def AuthWorld.isJtiValid (w : AuthWorld) (jti : ℕ) : Bool := (w.jtis.get? w.clock jti).isSome

/-! ## The services -/

/-- `login` once the credentials are accepted. -/
def AuthWorld.login (cfg : TokenSettings) (w : AuthWorld) (process : ℕ) (ρ : Realm) (userId : ℕ) :
    AuthWorld :=
  match (w.users ρ).get? userId with
  | none => w
  | some u =>
    if u.active ∧ u.hasPassword then
      match (w.keyWorld.fetchKey process ρ.keyAudience).1 with
      | .error _ => w
      | .ok kid => { w with keyWorld := (w.keyWorld.fetchKey process ρ.keyAudience).2 }.openSession
          cfg ρ userId kid
    else w

/-- The checks of `refresh`: the subject and the session for which it issues an access token. -/
def AuthWorld.checkRefresh {τ : Type} (J : Pyjwt τ) (w : AuthWorld) (process : ℕ) (ρ : Realm)
    (bearer : τ) : Except HttpError (ℕ × ℕ) :=
  match w.keyWorld.decodeToken J process bearer ρ.audience with
  | none => .error ⟨401, "Invalid or expired refresh token"⟩
  | some claims =>
    match claims.sessionId, claims.jti with
    | some sessionId, some jti =>
      match w.sessions ρ sessionId with
      | none => .error ⟨401, "Session not found"⟩
      | some s =>
        if s.revokedAt ≠ none then .error ⟨401, "Session has been revoked"⟩
        else if s.expiresAt < w.clock then .error ⟨401, "Session has expired"⟩
        else if s.jti ≠ jti then .error ⟨401, "Token jti mismatch"⟩
        else if ¬ w.isJtiValid jti then .error ⟨401, "Session has been revoked"⟩
        else
          match claims.sub with
          | none => .error ⟨500, "Internal Server Error"⟩
          | some sub => .ok (sub, sessionId)
    | _, _ => .error ⟨401, "Malformed token claims"⟩

/-- `refresh`: an access token with the subject of the refresh token, which stays as it is. -/
def AuthWorld.refresh {τ : Type} (cfg : TokenSettings) (J : Pyjwt τ) (w : AuthWorld) (process : ℕ)
    (ρ : Realm) (bearer : τ) : Except HttpError Payload × AuthWorld :=
  match w.checkRefresh J process ρ bearer with
  | .error e => (.error e, { w with keyWorld := w.keyWorld.lookUp J process bearer })
  | .ok (sub, sessionId) =>
    match ((w.keyWorld.lookUp J process bearer).fetchKey process ρ.keyAudience).1 with
    | .error _ => (.error ⟨500, "Internal Server Error"⟩,
        { w with keyWorld := w.keyWorld.lookUp J process bearer })
    | .ok kid =>
      (.ok (.access sub ρ.audience sessionId ρ.actorType w.nextId),
        { w with
          keyWorld := ((w.keyWorld.lookUp J process bearer).fetchKey process ρ.keyAudience).2.issue
            cfg kid [.access sub ρ.audience sessionId ρ.actorType w.nextId]
          nextId := w.nextId + 1 })

/-- `logout`. -/
def AuthWorld.logout {τ : Type} (J : Pyjwt τ) (w : AuthWorld) (process : ℕ) (ρ : Realm)
    (bearer : τ) : AuthWorld :=
  match (w.keyWorld.decodeToken J process bearer ρ.audience).bind (·.sessionId) with
  | none => { w with keyWorld := w.keyWorld.lookUp J process bearer }
  | some sessionId =>
    { w with keyWorld := w.keyWorld.lookUp J process bearer }.revoke ρ sessionId

/-- `reset_confirm` of a user with a token that is still good. -/
def AuthWorld.resetConfirm (w : AuthWorld) (ρ : Realm) (userId : ℕ) : AuthWorld :=
  match (w.users ρ).get? userId with
  | none => w
  | some u =>
    { w with
      users := Function.update w.users ρ ((w.users ρ).put { u with hasPassword := true })
      }.revokeAllForUser ρ userId

/-- The shadow user of an impersonation, created or activated again. -/
def AuthWorld.withShadow (w : AuthWorld) (slug : String) (impersonationId : ℕ) : ℕ × AuthWorld :=
  match (w.users (.tenant slug)).rows.find? (·.impersonationId = some impersonationId) with
  | none =>
    ((w.users (.tenant slug)).fresh,
      { w with
        users := Function.update w.users (.tenant slug) ((w.users (.tenant slug)).insertNew
          (fun id => ⟨id, true, false, some impersonationId⟩) fun _ => rfl) })
  | some shadow =>
    (shadow.id,
      { w with
        users := Function.update w.users (.tenant slug)
          ((w.users (.tenant slug)).put { shadow with active := true }) })

/-- The transaction of `mint_tenant_token` on the tenant's schema. -/
def AuthWorld.mintShadow (cfg : TokenSettings) (w : AuthWorld) (slug : String)
    (impersonationId kid : ℕ) : AuthWorld :=
  (w.withShadow slug impersonationId).2.openSession cfg (.tenant slug)
    (w.withShadow slug impersonationId).1 kid

/-- `mint_tenant_token` for an impersonation that is in force. -/
def AuthWorld.mintTenantToken (cfg : TokenSettings) (w : AuthWorld) (process : ℕ) (slug : String)
    (impersonationId : ℕ) : AuthWorld :=
  match (w.keyWorld.fetchKey process .tenant).1 with
  | .error _ => w
  | .ok kid => { w with keyWorld := (w.keyWorld.fetchKey process .tenant).2 }.mintShadow cfg slug
      impersonationId kid

/-! ## The dependencies -/

def Realm.userMissing : Realm → HttpError
  | member _ => ⟨401, "Member not found"⟩
  | _ => ⟨401, "User not found or inactive"⟩

def Realm.userInactive : Realm → HttpError
  | member _ => ⟨403, "Member portal access is not active"⟩
  | _ => ⟨401, "User not found or inactive"⟩

/-- What the three dependencies have in common: the id of the user that they return. -/
def AuthWorld.authenticate {τ : Type} (J : Pyjwt τ) (w : AuthWorld) (process : ℕ) (ρ : Realm)
    (bearer : τ) : Except HttpError ℕ :=
  match w.keyWorld.decodeToken J process bearer ρ.audience with
  | none => .error ⟨401, "Invalid or expired token"⟩
  | some claims =>
    match claims.sessionId, claims.sub with
    | some sessionId, some userId =>
      match (w.sessions ρ sessionId).filter (·.revokedAt = none) with
      | none => .error ⟨401, "Session not found or revoked"⟩
      | some _ =>
        match (w.users ρ).get? userId with
        | none => .error ρ.userMissing
        | some u => if u.active then .ok u.id else .error ρ.userInactive
    | _, _ => .error ⟨401, "Malformed token claims"⟩

def AuthWorld.getCurrentPlatformUserJwt {τ : Type} (J : Pyjwt τ) (w : AuthWorld) (process : ℕ)
    (bearer : τ) : Except HttpError ℕ := w.authenticate J process .platform bearer

def AuthWorld.getCurrentTenantUserJwt {τ : Type} (J : Pyjwt τ) (w : AuthWorld) (process : ℕ)
    (slug : String) (bearer : τ) : Except HttpError ℕ := w.authenticate J process (.tenant slug) bearer

def AuthWorld.getCurrentMemberJwt {τ : Type} (J : Pyjwt τ) (w : AuthWorld) (process : ℕ)
    (slug : String) (bearer : τ) : Except HttpError ℕ := w.authenticate J process (.member slug) bearer

/-! ## Runs -/

inductive AuthAction (τ : Type) where
  | wait (duration : ℕ)
  | rotate (process : ℕ) (audience : KeyAudience)
  | advanceLifecycle (process : ℕ)
  | createUser (ρ : Realm) (hasPassword : Bool)
  | setActive (ρ : Realm) (userId : ℕ) (active : Bool)
  | login (process : ℕ) (ρ : Realm) (userId : ℕ)
  | refresh (process : ℕ) (ρ : Realm) (bearer : τ)
  | logout (process : ℕ) (ρ : Realm) (bearer : τ)
  | authenticate (process : ℕ) (ρ : Realm) (bearer : τ)
  | resetConfirm (ρ : Realm) (userId : ℕ)
  | mintTenantToken (process : ℕ) (slug : String) (impersonationId : ℕ)
  | cleanupExpired (ρ : Realm)

/-- The bearer token that a request carries. -/
def AuthAction.bearer? {τ : Type} : AuthAction τ → Option τ
  | refresh _ _ bearer => some bearer
  | logout _ _ bearer => some bearer
  | authenticate _ _ bearer => some bearer
  | _ => none

def AuthWorld.start (clock : Timestamp) : AuthWorld where
  keyWorld := .start clock
  sessions _ _ := none
  users _ := ⟨[], List.nodup_nil⟩
  jtis := .empty
  nextId := 0
  created := []

def AuthWorld.setActive (w : AuthWorld) (ρ : Realm) (userId : ℕ) (active : Bool) : AuthWorld :=
  match (w.users ρ).get? userId with
  | none => w
  | some u =>
    { w with users := Function.update w.users ρ ((w.users ρ).put { u with active := active }) }

def AuthWorld.createUser (w : AuthWorld) (ρ : Realm) (hasPassword : Bool) : AuthWorld :=
  { w with
    users := Function.update w.users ρ
      ((w.users ρ).insertNew (fun id => ⟨id, true, hasPassword, none⟩) fun _ => rfl) }

def AuthWorld.step {τ : Type} (cfg : TokenSettings) (J : Pyjwt τ) (w : AuthWorld) :
    AuthAction τ → AuthWorld
  | .wait duration => { w with keyWorld := w.keyWorld.step cfg J (.wait duration) }
  | .rotate process audience =>
    { w with keyWorld := w.keyWorld.step cfg J (.rotate process audience) }
  | .advanceLifecycle process =>
    { w with keyWorld := w.keyWorld.step cfg J (.advanceLifecycle process) }
  | .createUser ρ hasPassword => w.createUser ρ hasPassword
  | .setActive ρ userId active => w.setActive ρ userId active
  | .login process ρ userId => w.login cfg process ρ userId
  | .refresh process ρ bearer => (w.refresh cfg J process ρ bearer).2
  | .logout process ρ bearer => w.logout J process ρ bearer
  | .authenticate process _ bearer => { w with keyWorld := w.keyWorld.lookUp J process bearer }
  | .resetConfirm ρ userId => w.resetConfirm ρ userId
  | .mintTenantToken process slug impersonationId => w.mintTenantToken cfg process slug impersonationId
  | .cleanupExpired ρ => w.cleanupExpired ρ

/-- Nobody but the services signs tokens: a bearer that verifies under one of the keys was issued. -/
def Unforged {τ : Type} (J : Pyjwt τ) (w : AuthWorld) (bearer : τ) : Prop :=
  ∀ key audience now claims, J.decode bearer key audience now = some claims →
    ∃ i ∈ w.keyWorld.issued, bearer = i.token J

/-! ## What one step does -/

/-- Nothing is issued, and rows of sessions are at most revoked or deleted. Redis forgets the `jti` of
a session only when the session is revoked. -/
structure Quiet (w w' : AuthWorld) : Prop where
  clock : w.clock ≤ w'.clock
  issued : w'.keyWorld.issued = w.keyWorld.issued
  created : w'.created = w.created
  nextId : w'.nextId = w.nextId
  within : ∀ ρ id s', w'.sessions ρ id = some s' → ∃ s, w.sessions ρ id = some s ∧
    s'.userId = s.userId ∧ s'.jti = s.jti ∧ (s'.revokedAt = none → s' = s)
  jtis : ∀ jti, w'.jtis jti = w.jtis jti ∨ ∃ ρ id s s', w.sessions ρ id = some s ∧ s.jti = jti ∧
    w'.sessions ρ id = some s' ∧ s'.revokedAt ≠ none

/-- Two worlds that differ in the keys, the caches and the users at most. -/
structure Alike (w w' : AuthWorld) : Prop where
  clock : w'.clock = w.clock
  issued : w'.keyWorld.issued = w.keyWorld.issued
  created : w'.created = w.created
  nextId : w'.nextId = w.nextId
  sessions : w'.sessions = w.sessions
  jtis : w'.jtis = w.jtis

section

variable {τ : Type} {cfg : TokenSettings} {J : Pyjwt τ} {w : AuthWorld}

theorem Alike.quiet {w' : AuthWorld} (h : Alike w w') : Quiet w w' where
  clock := h.clock.ge
  issued := h.issued
  created := h.created
  nextId := h.nextId
  within _ _ s' hs' := ⟨s', h.sessions ▸ hs', rfl, rfl, fun _ => rfl⟩
  jtis jti := .inl (congrFun h.jtis jti)

theorem alike_lookUp (J : Pyjwt τ) (w : AuthWorld) (process : ℕ) (bearer : τ) :
    Alike w { w with keyWorld := w.keyWorld.lookUp J process bearer } := by
  unfold KeyWorld.lookUp
  split <;> exact ⟨rfl, rfl, rfl, rfl, rfl, rfl⟩

theorem alike_withShadow (w : AuthWorld) (slug : String) (impersonationId : ℕ) :
    Alike w (w.withShadow slug impersonationId).2 := by
  unfold AuthWorld.withShadow
  split <;> exact ⟨rfl, rfl, rfl, rfl, rfl, rfl⟩

theorem Alike.quiet_of_quiet {w' w'' : AuthWorld} (h : Alike w w') (h' : Quiet w' w'') :
    Quiet w w'' where
  clock := h.clock ▸ h'.clock
  issued := h'.issued.trans h.issued
  created := h'.created.trans h.created
  nextId := h'.nextId.trans h.nextId
  within := h.sessions ▸ h'.within
  jtis := h.sessions ▸ h.jtis ▸ h'.jtis

@[simp] theorem AuthSession.userId_revoke (now : Timestamp) (s : AuthSession) :
    (s.revoke now).userId = s.userId := by
  unfold revoke
  split <;> rfl

@[simp] theorem AuthSession.jti_revoke (now : Timestamp) (s : AuthSession) :
    (s.revoke now).jti = s.jti := by
  unfold revoke
  split <;> rfl

theorem AuthSession.revokedAt_revoke (now : Timestamp) (s : AuthSession) :
    (s.revoke now).revokedAt ≠ none := by
  unfold revoke
  split
  · nofun
  · assumption

theorem quiet_revoke (w : AuthWorld) (ρ : Realm) (sessionId : ℕ) : Quiet w (w.revoke ρ sessionId) := by
  unfold AuthWorld.revoke
  cases hs : w.sessions ρ sessionId with
  | none => exact Alike.quiet ⟨rfl, rfl, rfl, rfl, rfl, rfl⟩
  | some s =>
    refine ⟨le_rfl, rfl, rfl, rfl, ?_, ?_⟩
    · intro ρ' id s' hs'
      dsimp only at hs'
      by_cases hrow : ρ' = ρ ∧ id = sessionId
      · obtain ⟨rfl, rfl⟩ := hrow
        rw [Function.update_self, Function.update_self] at hs'
        cases hs'
        exact ⟨s, hs, s.userId_revoke _, s.jti_revoke _, fun h => absurd h (s.revokedAt_revoke _)⟩
      · have hold : w.sessions ρ' id = some s' := by
          by_cases hρ : ρ' = ρ
          · subst hρ
            have hid : id ≠ sessionId := fun hid => hrow ⟨rfl, hid⟩
            rwa [Function.update_self, Function.update_of_ne hid] at hs'
          · rwa [Function.update_of_ne hρ] at hs'
        exact ⟨s', hold, rfl, rfl, fun _ => rfl⟩
    · intro jti
      by_cases hjti : jti = s.jti
      · refine .inr ⟨ρ, sessionId, s, s.revoke w.clock, hs, hjti.symm, ?_, s.revokedAt_revoke _⟩
        simp only [Function.update_self]
      · exact .inl (Expiring.erase_of_ne _ hjti)

/-- A step that rewrites the table of one realm, row by row. -/
theorem quiet_update {ρ : Realm} {table : ℕ → Option AuthSession}
    (h : ∀ id s', table id = some s' → ∃ s, w.sessions ρ id = some s ∧
      s'.userId = s.userId ∧ s'.jti = s.jti ∧ (s'.revokedAt = none → s' = s)) :
    Quiet w { w with sessions := Function.update w.sessions ρ table } := by
  refine ⟨le_rfl, rfl, rfl, rfl, ?_, fun _ => .inl rfl⟩
  intro ρ' id s' hs'
  by_cases hρ : ρ' = ρ
  · subst hρ
    simp only [Function.update_self] at hs'
    exact h id s' hs'
  · simp only [Function.update_of_ne hρ] at hs'
    exact ⟨s', hs', rfl, rfl, fun _ => rfl⟩

theorem quiet_revokeAllForUser (w : AuthWorld) (ρ : Realm) (userId : ℕ) :
    Quiet w (w.revokeAllForUser ρ userId) := by
  refine quiet_update ?_
  intro id s' hs'
  obtain ⟨s, hs, rfl⟩ := Option.map_eq_some_iff.mp hs'
  refine ⟨s, hs, ?_⟩
  split_ifs
  · exact ⟨s.userId_revoke _, s.jti_revoke _, fun h => absurd h (s.revokedAt_revoke _)⟩
  · exact ⟨rfl, rfl, fun _ => rfl⟩

theorem quiet_cleanupExpired (w : AuthWorld) (ρ : Realm) : Quiet w (w.cleanupExpired ρ) := by
  refine quiet_update ?_
  intro id s' hs'
  obtain ⟨hs, -⟩ := Option.filter_eq_some_iff.mp hs'
  exact ⟨s', hs, rfl, rfl, fun _ => rfl⟩

/-- A refresh changes nothing but the caches, or it issues an access token. -/
theorem AuthWorld.refresh_cases (cfg : TokenSettings) (J : Pyjwt τ) (w : AuthWorld) (process : ℕ)
    (ρ : Realm) (bearer : τ) :
    Alike w (w.refresh cfg J process ρ bearer).2 ∨
    (∃ w₀ sub sessionId kid, Alike w w₀ ∧
      w.checkRefresh J process ρ bearer = .ok (sub, sessionId) ∧
      (w.refresh cfg J process ρ bearer).2 = { w₀ with
        keyWorld := w₀.keyWorld.issue cfg kid
          [.access sub ρ.audience sessionId ρ.actorType w₀.nextId]
        nextId := w₀.nextId + 1 }) := by
  have hlookUp := alike_lookUp J w process bearer
  unfold AuthWorld.refresh
  cases hcheck : w.checkRefresh J process ρ bearer with
  | error e => exact .inl hlookUp
  | ok found =>
    obtain ⟨sub, sessionId⟩ := found
    dsimp only
    cases ((w.keyWorld.lookUp J process bearer).fetchKey process ρ.keyAudience).1 with
    | error e => exact .inl hlookUp
    | ok kid =>
      exact .inr ⟨{ w with keyWorld :=
        ((w.keyWorld.lookUp J process bearer).fetchKey process ρ.keyAudience).2 }, sub, sessionId, kid,
        ⟨hlookUp.clock, hlookUp.issued, rfl, rfl, rfl, rfl⟩, rfl, rfl⟩

theorem AuthWorld.users_refresh (cfg : TokenSettings) (J : Pyjwt τ) (w : AuthWorld) (process : ℕ)
    (ρ : Realm) (bearer : τ) : (w.refresh cfg J process ρ bearer).2.users = w.users := by
  unfold AuthWorld.refresh
  split
  · rfl
  · split <;> rfl

/-- The row that is written, and the others. -/
theorem sessions_openSession (w : AuthWorld) (ρ ρ' : Realm) (userId kid id : ℕ) :
    (w.openSession cfg ρ userId kid).sessions ρ' id =
      if ρ' = ρ ∧ id = w.nextId then
        some ⟨userId, w.nextId + 1, w.clock, w.clock + seconds (ρ.refreshTtl cfg), none⟩
      else w.sessions ρ' id := by
  show Function.update w.sessions ρ _ ρ' id = _
  by_cases hρ : ρ' = ρ
  · subst hρ
    rw [Function.update_self]
    by_cases hid : id = w.nextId
    · rw [hid, Function.update_self, if_pos ⟨rfl, rfl⟩]
    · rw [Function.update_of_ne hid, if_neg fun h => hid h.2]
  · rw [Function.update_of_ne hρ, if_neg fun h => hρ h.1]

/-- Either nothing is issued, or a session is opened, or an access token is issued for a refresh
token. -/
theorem AuthWorld.step_cases (cfg : TokenSettings) (J : Pyjwt τ) (w : AuthWorld) (a : AuthAction τ) :
    Quiet w (w.step cfg J a) ∨
    (∃ w₀ ρ userId kid, Alike w w₀ ∧ w.step cfg J a = w₀.openSession cfg ρ userId kid) ∨
    (∃ w₀ process ρ bearer sub sessionId kid, Alike w w₀ ∧ a = .refresh process ρ bearer ∧
      w.checkRefresh J process ρ bearer = .ok (sub, sessionId) ∧
      w.step cfg J a = { w₀ with
        keyWorld := w₀.keyWorld.issue cfg kid
          [.access sub ρ.audience sessionId ρ.actorType w₀.nextId]
        nextId := w₀.nextId + 1 }) := by
  have hsame : Quiet w w := Alike.quiet ⟨rfl, rfl, rfl, rfl, rfl, rfl⟩
  cases a with
  | wait duration =>
    refine .inl ⟨?_, rfl, rfl, rfl, fun _ _ s' hs' => ⟨s', hs', rfl, rfl, fun _ => rfl⟩,
      fun _ => .inl rfl⟩
    show w.keyWorld.clock ≤ w.keyWorld.clock + duration
    exact Int.le_add_of_nonneg_right (Int.natCast_nonneg duration)
  | rotate process audience => exact .inl (Alike.quiet ⟨rfl, rfl, rfl, rfl, rfl, rfl⟩)
  | advanceLifecycle process => exact .inl (Alike.quiet ⟨rfl, rfl, rfl, rfl, rfl, rfl⟩)
  | createUser ρ hasPassword => exact .inl (Alike.quiet ⟨rfl, rfl, rfl, rfl, rfl, rfl⟩)
  | setActive ρ userId active =>
    refine .inl ?_
    show Quiet w (w.setActive ρ userId active)
    unfold AuthWorld.setActive
    split <;> exact Alike.quiet ⟨rfl, rfl, rfl, rfl, rfl, rfl⟩
  | login process ρ userId =>
    -- with the right password and a signing key, a session is opened
    show Quiet w (w.login cfg process ρ userId) ∨ (∃ w₀ ρ' userId' kid, _ ∧
      w.login cfg process ρ userId = _) ∨ _
    unfold AuthWorld.login
    cases (w.users ρ).get? userId with
    | none => exact .inl hsame
    | some u =>
      dsimp only
      split_ifs
      · cases (w.keyWorld.fetchKey process ρ.keyAudience).1 with
        | error e => exact .inl hsame
        | ok kid =>
          exact .inr (.inl ⟨{ w with keyWorld := (w.keyWorld.fetchKey process ρ.keyAudience).2 }, ρ,
            userId, kid, ⟨rfl, rfl, rfl, rfl, rfl, rfl⟩, rfl⟩)
      · exact .inl hsame
  | refresh process ρ bearer =>
    rcases w.refresh_cases cfg J process ρ bearer with halike | ⟨w₀, sub, id, kid, halike, hcheck, hr⟩
    · exact .inl halike.quiet
    · exact .inr (.inr ⟨w₀, process, ρ, bearer, sub, id, kid, halike, rfl, hcheck, hr⟩)
  | logout process ρ bearer =>
    refine .inl ?_
    show Quiet w (w.logout J process ρ bearer)
    -- whether or not the token is found, nothing is issued
    unfold AuthWorld.logout
    split
    · exact (alike_lookUp J w process bearer).quiet
    · exact (alike_lookUp J w process bearer).quiet_of_quiet (quiet_revoke _ ρ _)
  | authenticate process ρ bearer => exact .inl (alike_lookUp J w process bearer).quiet
  | resetConfirm ρ userId =>
    refine .inl ?_
    show Quiet w (w.resetConfirm ρ userId)
    unfold AuthWorld.resetConfirm
    split
    · exact hsame
    · refine Alike.quiet_of_quiet ?_ (quiet_revokeAllForUser _ ρ userId)
      exact ⟨rfl, rfl, rfl, rfl, rfl, rfl⟩
  | mintTenantToken process slug impersonationId =>
    show Quiet w (w.mintTenantToken cfg process slug impersonationId) ∨
      (∃ w₀ ρ userId kid, _ ∧ w.mintTenantToken cfg process slug impersonationId = _) ∨ _
    -- the shadow user is written first, then a session is opened for it
    unfold AuthWorld.mintTenantToken
    cases (w.keyWorld.fetchKey process .tenant).1 with
    | error e => exact .inl hsame
    | ok kid =>
      have halike := alike_withShadow
        { w with keyWorld := (w.keyWorld.fetchKey process .tenant).2 } slug impersonationId
      refine .inr (.inl ⟨_, .tenant slug, _, kid, ?_, rfl⟩)
      exact ⟨halike.clock, halike.issued, halike.created, halike.nextId, halike.sessions, halike.jtis⟩
  | cleanupExpired ρ => exact .inl (quiet_cleanupExpired w ρ)

end

/-! ## Numbers are drawn once -/

/-- Every session has a number of its own. -/
structure Numbered (w : AuthWorld) : Prop where
  below : ∀ c ∈ w.created, c.sessionId < w.nextId ∧ c.jti < w.nextId
  distinct : ∀ c ∈ w.created, ∀ c' ∈ w.created,
    c.sessionId = c'.sessionId ∨ c.jti = c'.jti → c = c'

section

variable {τ : Type} {cfg : TokenSettings} {J : Pyjwt τ} {w w' : AuthWorld}

theorem Numbered.of_le (h : Numbered w) (hcreated : w'.created = w.created)
    (hnext : w.nextId ≤ w'.nextId) : Numbered w' where
  below c hc := by
    obtain ⟨hid, hjti⟩ := h.below c (hcreated ▸ hc)
    exact ⟨by omega, by omega⟩
  distinct c hc c' hc' := h.distinct c (hcreated ▸ hc) c' (hcreated ▸ hc')

theorem Numbered.openSession (h : Numbered w) (ρ : Realm) (userId kid : ℕ) :
    Numbered (w.openSession cfg ρ userId kid) := by
  refine ⟨?_, ?_⟩
  · intro c hc
    show c.sessionId < w.nextId + 3 ∧ c.jti < w.nextId + 3
    rcases List.mem_append.mp hc with hc | hc
    · obtain ⟨hid, hjti⟩ := h.below c hc
      omega
    · rw [List.mem_singleton.mp hc]
      dsimp only
      omega
  · intro c hc c' hc' hid
    -- what was drawn before is below the counter
    rcases List.mem_append.mp hc with hc | hc <;> rcases List.mem_append.mp hc' with hc' | hc'
    · exact h.distinct c hc c' hc' hid
    · have hbelow := h.below c hc
      rw [List.mem_singleton.mp hc'] at hid
      dsimp only at hid
      omega
    · have hbelow := h.below c' hc'
      rw [List.mem_singleton.mp hc] at hid
      dsimp only at hid
      omega
    · rw [List.mem_singleton.mp hc, List.mem_singleton.mp hc']

theorem Numbered.step (h : Numbered w) (a : AuthAction τ) : Numbered (w.step cfg J a) := by
  rcases AuthWorld.step_cases cfg J w a with
    hquiet | ⟨w₀, ρ, userId, kid, halike, hstep⟩ | ⟨w₀, _, ρ, _, sub, id, kid, halike, -, -, hstep⟩
  · exact h.of_le hquiet.created hquiet.nextId.ge
  · rw [hstep]
    exact (h.of_le halike.created halike.nextId.ge).openSession ρ userId kid
  · rw [hstep]
    refine h.of_le halike.created ?_
    show w.nextId ≤ w₀.nextId + 1
    have := halike.nextId
    omega

theorem numbered_start (clock : Timestamp) : Numbered (.start clock) where
  below _ hc := nomatch hc
  distinct _ hc := nomatch hc

end

end SaccoPlatform.Iam
