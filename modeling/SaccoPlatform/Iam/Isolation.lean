import SaccoPlatform.Iam.Sessions
import Mathlib.Tactic.Linarith

/-!
# What a token opens

The key does not tell the realms apart, and no dependency compares the owner of a session with the
subject of the token. A token leads to one user only because every path that issues one takes the
subject, the audience and the session from the same place.
-/

namespace SaccoPlatform.Iam

open Lib

/-! ## What is accepted -/

section

variable {τ : Type} {cfg : TokenSettings} {J : Pyjwt τ} {w : AuthWorld} {process : ℕ} {ρ : Realm}

theorem authenticate_eq_ok {bearer : τ} {user : ℕ} :
    w.authenticate J process ρ bearer = .ok user ↔
      ∃ c id s u, w.keyWorld.decodeToken J process bearer ρ.audience = some c ∧
        c.sessionId = some id ∧ c.sub = some user ∧ w.sessions ρ id = some s ∧ s.revokedAt = none ∧
        (w.users ρ).get? user = some u ∧ u.active = true := by
  unfold AuthWorld.authenticate
  constructor
  · intro h
    split at h
    · cases h
    · rename_i c hc
      split at h
      · rename_i id userId hid huserId
        split at h
        · cases h
        · rename_i s hs
          obtain ⟨hrow, hrevoked⟩ := Option.filter_eq_some_iff.mp hs
          split at h
          · cases h
          · rename_i u hu
            split_ifs at h with hactive
            -- the subject of the token and the row that it names are the same user
            have huser : u.id = user := Except.ok.inj h
            have hkey : u.id = userId := Keyed.key_of_get? hu
            rw [← hkey, huser] at hu huserId
            exact ⟨c, id, s, u, hc, hid, huserId, hrow, by simpa using hrevoked, hu, hactive⟩
      · cases h
  · rintro ⟨c, id, s, u, hc, hid, hsub, hs, hrevoked, hu, hactive⟩
    have hfilter : (w.sessions ρ id).filter (·.revokedAt = none) = some s :=
      Option.filter_eq_some_iff.mpr ⟨hs, by simpa using hrevoked⟩
    rw [hc]
    dsimp only
    rw [hid, hsub]
    dsimp only
    rw [hfilter]
    dsimp only
    rw [hu]
    dsimp only
    rw [if_pos hactive, Keyed.key_of_get? hu]

/-! ## What is issued -/

/-- Every token is what one of the two functions made. -/
def Shaped (cfg : TokenSettings) (w : AuthWorld) : Prop :=
  ∀ i ∈ w.keyWorld.issued, ∃ x : Payload, i.kind = x.kind ∧ i.claims = x.claims cfg i.time

theorem Shaped.issue (h : Shaped cfg w) {kw : KeyWorld} (hissued : kw.issued = w.keyWorld.issued)
    (kid : ℕ) (payloads : List Payload) {i : Issued} (hi : i ∈ (kw.issue cfg kid payloads).issued) :
    ∃ x : Payload, i.kind = x.kind ∧ i.claims = x.claims cfg i.time := by
  rcases List.mem_append.mp hi with hi | hi
  · exact h i (hissued ▸ hi)
  · obtain ⟨x, -, rfl⟩ := List.mem_map.mp hi
    exact ⟨x, rfl, rfl⟩

theorem Shaped.step (h : Shaped cfg w) (a : AuthAction τ) : Shaped cfg (w.step cfg J a) := by
  rcases AuthWorld.step_cases cfg J w a with
    hquiet | ⟨w₀, ρ, userId, kid, halike, hstep⟩ | ⟨w₀, _, ρ, _, sub, id, kid, halike, -, -, hstep⟩
  · intro i hi
    exact h i (hquiet.issued ▸ hi)
  · intro i hi
    rw [hstep] at hi
    exact h.issue halike.issued _ _ hi
  · intro i hi
    rw [hstep] at hi
    exact h.issue halike.issued _ _ hi

theorem shaped_run (cfg : TokenSettings) (J : Pyjwt τ) (clock : Timestamp)
    (actions : List (AuthAction τ)) :
    Shaped cfg (run (AuthWorld.step cfg J) (.start clock) actions) := by
  have hstep : ∀ (w : AuthWorld) (a : AuthAction τ), Shaped cfg w → Shaped cfg (w.step cfg J a) :=
    fun _ a h => h.step a
  have hstart : Shaped cfg (.start clock) := fun _ hi => nomatch hi
  exact run_invariant_of_step hstep actions hstart

/-- An access token ends within its lifetime. -/
theorem exp_of_access {i : Issued} {x : Payload} (hkind : i.kind = x.kind)
    (hclaims : i.claims = x.claims cfg i.time) (haccess : i.kind = .access) :
    i.claims.exp * 1000000 ≤ i.time + seconds cfg.accessTtl := by
  rw [hclaims]
  cases x with
  | access sub audience sessionId actorType jti => exact Int.ediv_mul_le _ (by decide)
  | refresh => rw [hkind] at haccess; cases haccess

theorem actorType_eq_none {i : Issued} {x : Payload} (hkind : i.kind = x.kind)
    (hclaims : i.claims = x.claims cfg i.time) : i.claims.actorType = none ↔ i.kind = .refresh := by
  rw [hkind, hclaims]
  cases x with
  | access => exact ⟨nofun, nofun⟩
  | refresh => exact ⟨fun _ => rfl, fun _ => rfl⟩

end

/-! ## Refresh tokens -/

/-- A refresh token of a session of the realm that is neither revoked nor gone, of a user who is
active, before its end and under a key that the process can verify with. -/
def LiveRefresh (w : AuthWorld) (process : ℕ) (ρ : Realm) (i : Issued) : Prop :=
  i.kind = .refresh ∧ i.claims.ValidFor ρ.audience w.clock ∧
    w.keyWorld.ring.Readable process w.clock i.key ∧
    ∃ id user s u, i.claims.sessionId = some id ∧ i.claims.sub = some user ∧
      w.sessions ρ id = some s ∧ s.revokedAt = none ∧
      (w.users ρ).get? user = some u ∧ u.active = true

section

variable {τ : Type} {cfg : TokenSettings} {J : Pyjwt τ} {w : AuthWorld} {process : ℕ} {ρ : Realm}

/-- Which of the tokens a dependency accepts. -/
theorem authenticate_token {i : Issued} {user : ℕ} :
    w.authenticate J process ρ (i.token J) = .ok user ↔
      i.claims.ValidFor ρ.audience w.clock ∧ w.keyWorld.ring.Readable process w.clock i.key ∧
        ∃ id s u, i.claims.sessionId = some id ∧ i.claims.sub = some user ∧
          w.sessions ρ id = some s ∧ s.revokedAt = none ∧
          (w.users ρ).get? user = some u ∧ u.active = true := by
  rw [authenticate_eq_ok]
  constructor
  · rintro ⟨c, id, s, u, hc, hrest⟩
    obtain ⟨rfl, hvalid, hreadable⟩ := decodeToken_token.mp hc
    exact ⟨hvalid, hreadable, id, s, u, hrest⟩
  · rintro ⟨hvalid, hreadable, id, s, u, hrest⟩
    exact ⟨i.claims, id, s, u, decodeToken_token.mpr ⟨rfl, hvalid, hreadable⟩, hrest⟩

/-- Two tokens that are the same string and valid have the same claims. -/
theorem claims_eq_of_token_eq {i j : Issued} {audience : String} {now : Timestamp}
    (h : i.token J = j.token J) (hvalid : i.claims.ValidFor audience now) :
    j.claims = i.claims := by
  have hi : J.decode (i.token J) i.key audience now = some i.claims := by
    rw [decode_token, if_pos ⟨rfl, hvalid⟩]
  rw [h, decode_token] at hi
  split_ifs at hi
  exact Option.some.inj hi

end

/-- Whatever a dependency accepts is an access token that was issued for its audience within the
lifetime of access tokens, exactly as long as it is not shown a live refresh token. -/
theorem accepts_access_tokens_iff {τ : Type} (J : Pyjwt τ) (cfg : TokenSettings) (clock : Timestamp)
    (actions : List (AuthAction τ)) (process : ℕ) (ρ : Realm) {bearer : τ}
    (hbearer : Unforged J (run (AuthWorld.step cfg J) (.start clock) actions) bearer) :
    (∀ user, (run (AuthWorld.step cfg J) (.start clock) actions).authenticate J process ρ bearer
        = .ok user →
      ∃ i ∈ (run (AuthWorld.step cfg J) (.start clock) actions).keyWorld.issued,
        bearer = i.token J ∧ i.kind = .access ∧
        (run (AuthWorld.step cfg J) (.start clock) actions).clock
          ≤ i.time + seconds cfg.accessTtl ∧
        i.claims.aud = ρ.audience) ↔
    ¬ ∃ i ∈ (run (AuthWorld.step cfg J) (.start clock) actions).keyWorld.issued,
      bearer = i.token J ∧
        LiveRefresh (run (AuthWorld.step cfg J) (.start clock) actions) process ρ i := by
  have hshaped := shaped_run cfg J clock actions
  set w := run (AuthWorld.step cfg J) (.start clock) actions
  constructor
  · rintro hall ⟨i, hi, rfl, hrefresh, hvalid, hreadable, id, user, s, u, hid, hsub, hrest⟩
    have hok : w.authenticate J process ρ (i.token J) = .ok user :=
      authenticate_token.mpr ⟨hvalid, hreadable, id, s, u, hid, hsub, hrest⟩
    obtain ⟨j, hj, htoken, haccess, -, -⟩ := hall user hok
    -- the two are the same string, so they carry the same claims, and only one carries an actor type
    have hclaims := claims_eq_of_token_eq htoken hvalid
    obtain ⟨x, hkind, hx⟩ := hshaped i hi
    obtain ⟨y, hkind', hy⟩ := hshaped j hj
    have hnone := (actorType_eq_none hkind hx).mpr hrefresh
    rw [← hclaims] at hnone
    have hrefresh' := (actorType_eq_none hkind' hy).mp hnone
    rw [haccess] at hrefresh'
    cases hrefresh'
  · intro hnone user hok
    obtain ⟨c, id, s, u, hdecode, -⟩ := authenticate_eq_ok.mp hok
    obtain ⟨kid, hkid⟩ := decode_of_decodeToken hdecode
    obtain ⟨i, hi, rfl⟩ := hbearer kid _ _ _ hkid
    obtain ⟨hvalid, hreadable, id, s, u, hid, hsub, hrest⟩ := authenticate_token.mp hok
    have haccess : i.kind = .access := by
      cases hkind : i.kind with
      | access => rfl
      | refresh =>
        exact absurd ⟨i, hi, rfl, hkind, hvalid, hreadable, id, user, s, u, hid, hsub, hrest⟩ hnone
    obtain ⟨x, hkind, hx⟩ := hshaped i hi
    have hends := exp_of_access hkind hx haccess
    have hlive := hvalid.2.2
    exact ⟨i, hi, rfl, haccess, by linarith, hvalid.1⟩

/-- A user of the tenant `umoja` logs in and an hour passes. -/
def sampleHour : List (AuthAction SignedToken) :=
  [.createUser (.tenant "umoja") true, .login 0 (.tenant "umoja") 1, .wait 3600000000]

/-- The refresh token of that login. -/
def sampleRefresh : Issued :=
  ⟨.refresh, encodeRefreshToken 0 1 "tenant:umoja" 0 1 28800, 0, 2⟩

/-- The access token of that login. -/
def sampleAccess : Issued :=
  ⟨.access, encodeAccessToken 0 1 "tenant:umoja" 0 "tenant_user" 2 900, 0, 2⟩

theorem unforged_of_mem {τ : Type} {J : Pyjwt τ} {w : AuthWorld} {i : Issued}
    (hi : i ∈ w.keyWorld.issued) : Unforged J w (i.token J) := fun _ _ _ _ _ => ⟨i, hi, rfl⟩

theorem accepts_access_tokens_iff_login :
    (run (AuthWorld.step defaultTokens .symbolic) (.start 0) (sampleHour.take 2)).authenticate
      .symbolic 0 (.tenant "umoja") (sampleAccess.token .symbolic) = .ok 1 ∧
    ∃ i ∈ (run (AuthWorld.step defaultTokens .symbolic) (.start 0)
        (sampleHour.take 2)).keyWorld.issued,
      sampleAccess.token .symbolic = i.token .symbolic ∧ i.kind = .access ∧
      (run (AuthWorld.step defaultTokens .symbolic) (.start 0) (sampleHour.take 2)).clock
        ≤ i.time + seconds 900 ∧
      i.claims.aud = "tenant:umoja" := by
  have hok : (run (AuthWorld.step defaultTokens .symbolic) (.start 0)
      (sampleHour.take 2)).authenticate .symbolic 0 (.tenant "umoja") (sampleAccess.token .symbolic)
        = .ok 1 := rfl
  refine ⟨hok, (accepts_access_tokens_iff .symbolic defaultTokens 0 (sampleHour.take 2) 0
    (.tenant "umoja") (unforged_of_mem (i := sampleAccess) (by decide +kernel))).mpr ?_ 1 hok⟩
  rintro ⟨i, hi, htoken, hrefresh, -⟩
  have hkinds : ∀ i ∈ (run (AuthWorld.step defaultTokens .symbolic) (.start 0)
      (sampleHour.take 2)).keyWorld.issued,
      sampleAccess.token .symbolic = i.token .symbolic → i.kind = .access := by decide +kernel
  rw [hkinds i hi htoken] at hrefresh
  cases hrefresh

/-- An hour after the login the access token has ended, and the refresh token opens what it
opened. -/
theorem refresh_token_authorises :
    Unforged .symbolic (run (AuthWorld.step defaultTokens .symbolic) (.start 0) sampleHour)
      (sampleRefresh.token .symbolic) ∧
    (run (AuthWorld.step defaultTokens .symbolic) (.start 0) sampleHour).getCurrentTenantUserJwt
      .symbolic 0 "umoja" (sampleRefresh.token .symbolic) = .ok 1 ∧
    ¬ ∃ i ∈ (run (AuthWorld.step defaultTokens .symbolic) (.start 0) sampleHour).keyWorld.issued,
      sampleRefresh.token .symbolic = i.token .symbolic ∧ i.kind = .access ∧
      (run (AuthWorld.step defaultTokens .symbolic) (.start 0) sampleHour).clock
        ≤ i.time + seconds 900 ∧
      i.claims.aud = "tenant:umoja" :=
  ⟨unforged_of_mem (by decide +kernel), rfl, by decide +kernel⟩

/-! ## One principal -/

/-- Every token and every session goes back to the login or the mint that created it. -/
structure Traced (w : AuthWorld) : Prop where
  issued : ∀ i ∈ w.keyWorld.issued, ∃ c ∈ w.created, i.claims.sessionId = some c.sessionId ∧
    i.claims.sub = some c.userId ∧ i.claims.aud = c.realm.audience
  rows : ∀ ρ id s, w.sessions ρ id = some s → ∃ c ∈ w.created, c.realm = ρ ∧ c.sessionId = id ∧
    c.userId = s.userId

section

variable {τ : Type} {cfg : TokenSettings} {J : Pyjwt τ} {w w' : AuthWorld} {process : ℕ} {ρ : Realm}

theorem traced_start (clock : Timestamp) : Traced (.start clock) where
  issued _ hi := nomatch hi
  rows _ _ _ hs := nomatch hs

theorem Traced.quiet (h : Traced w) (hquiet : Quiet w w') : Traced w' where
  issued i hi := by
    rw [hquiet.created]
    exact h.issued i (hquiet.issued ▸ hi)
  rows ρ id s' hs' := by
    obtain ⟨s, hs, huser, -⟩ := hquiet.within ρ id s' hs'
    rw [hquiet.created, huser]
    exact h.rows ρ id s hs

theorem Traced.openSession (h : Traced w) (ρ : Realm) (userId kid : ℕ) :
    Traced (w.openSession cfg ρ userId kid) := by
  have hnew : (⟨ρ, w.nextId, userId, w.nextId + 1, w.clock, kid⟩ : Created)
      ∈ (w.openSession cfg ρ userId kid).created := List.mem_append_right _ (by simp)
  refine ⟨?_, ?_⟩
  · intro i hi
    rcases List.mem_append.mp hi with hi | hi
    · obtain ⟨c, hc, hclaims⟩ := h.issued i hi
      exact ⟨c, List.mem_append_left _ hc, hclaims⟩
    · refine ⟨_, hnew, ?_⟩
      simp only [List.map_cons, List.map_nil, List.mem_cons, List.not_mem_nil, or_false] at hi
      rcases hi with rfl | rfl <;> exact ⟨rfl, rfl, rfl⟩
  · intro ρ' id s hs
    rw [sessions_openSession] at hs
    split_ifs at hs with hrow
    · cases hs
      exact ⟨_, hnew, hrow.1.symm, hrow.2.symm, rfl⟩
    · obtain ⟨c, hc, hrest⟩ := h.rows ρ' id s hs
      exact ⟨c, List.mem_append_left _ hc, hrest⟩

/-- The token that a refresh is granted for, and the row of its session. -/
theorem decode_of_checkRefresh {bearer : τ} {sub sessionId : ℕ}
    (h : w.checkRefresh J process ρ bearer = .ok (sub, sessionId)) :
    ∃ c s, w.keyWorld.decodeToken J process bearer ρ.audience = some c ∧ c.sub = some sub ∧
      c.sessionId = some sessionId ∧ w.sessions ρ sessionId = some s ∧ s.revokedAt = none := by
  unfold AuthWorld.checkRefresh at h
  split at h
  · cases h
  · rename_i c hc
    split at h
    · rename_i id jti hid hjti
      split at h
      · cases h
      · rename_i s hs
        split_ifs at h with hrevoked
        split at h
        · cases h
        · rename_i sub' hsub
          cases h
          exact ⟨c, s, hc, hsub, hid, hs, not_ne_iff.mp hrevoked⟩
    · cases h

theorem Traced.step (h : Traced w) {a : AuthAction τ} (ha : ∀ b ∈ a.bearer?, Unforged J w b) :
    Traced (w.step cfg J a) := by
  rcases AuthWorld.step_cases cfg J w a with
    hquiet | ⟨w₀, ρ, userId, kid, halike, hstep⟩ |
      ⟨w₀, process, ρ, bearer, sub, id, kid, halike, rfl, hcheck, hstep⟩
  · exact h.quiet hquiet
  · rw [hstep]
    exact (h.quiet halike.quiet).openSession ρ userId kid
  · -- the new token takes its subject and its session from one that was issued for the same audience
    obtain ⟨c, -, hdecode, hsub, hid, -⟩ := decode_of_checkRefresh hcheck
    obtain ⟨key, hkey⟩ := decode_of_decodeToken hdecode
    obtain ⟨i, hi, rfl⟩ := ha bearer rfl key _ _ _ hkey
    obtain ⟨rfl, hvalid, -⟩ := decodeToken_token.mp hdecode
    obtain ⟨origin, horigin, hid', hsub', haud⟩ := h.issued i hi
    have h₀ := h.quiet halike.quiet
    rw [hstep]
    refine ⟨?_, h₀.rows⟩
    intro j hj
    rcases List.mem_append.mp hj with hj | hj
    · exact h₀.issued j hj
    · obtain ⟨x, hx, rfl⟩ := List.mem_map.mp hj
      rw [List.mem_singleton.mp hx]
      refine ⟨origin, halike.created ▸ horigin, ?_, ?_, ?_⟩
      · show some id = _
        rw [← hid, hid']
      · show some sub = _
        rw [← hsub, hsub']
      · show ρ.audience = _
        rw [← hvalid.1, haud]

end

/-- A token that a dependency accepts was issued for a session of that realm, the user is the one
that the session was created for, and the session is not revoked. -/
theorem tokens_isolated {τ : Type} (J : Pyjwt τ) (cfg : TokenSettings) (clock : Timestamp)
    {actions : List (AuthAction τ)}
    (hactions : Along (AuthWorld.step cfg J) (fun w a => ∀ b ∈ a.bearer?, Unforged J w b)
      (.start clock) actions) :
    ∀ i ∈ (run (AuthWorld.step cfg J) (.start clock) actions).keyWorld.issued,
      ∀ process ρ user,
        (run (AuthWorld.step cfg J) (.start clock) actions).authenticate J process ρ (i.token J)
          = .ok user →
        ∃ c ∈ (run (AuthWorld.step cfg J) (.start clock) actions).created,
          i.claims.sessionId = some c.sessionId ∧
          (∀ c' ∈ (run (AuthWorld.step cfg J) (.start clock) actions).created,
            c'.sessionId = c.sessionId → c' = c) ∧
          ρ = c.realm ∧ user = c.userId ∧
          ∃ s, (run (AuthWorld.step cfg J) (.start clock) actions).sessions ρ c.sessionId = some s ∧
            s.userId = c.userId ∧ s.revokedAt = none := by
  have htraced : Traced (run (AuthWorld.step cfg J) (.start clock) actions) :=
    run_invariant (fun _ _ h ha => h.step ha) (traced_start clock) hactions
  have hnumbered : Numbered (run (AuthWorld.step cfg J) (.start clock) actions) :=
    run_invariant (fun _ a h _ => h.step a) (numbered_start clock) hactions
  set w := run (AuthWorld.step cfg J) (.start clock) actions
  intro i hi process ρ user hok
  obtain ⟨hvalid, -, id, s, u, hid, hsub, hs, hrevoked, -, -⟩ := authenticate_token.mp hok
  obtain ⟨c, hc, hid', hsub', haud⟩ := htraced.issued i hi
  have hrealm : ρ = c.realm := Realm.audience_inj (hvalid.1.symm.trans haud)
  have hsession : id = c.sessionId := Option.some.inj (hid.symm.trans hid')
  have huser : user = c.userId := Option.some.inj (hsub.symm.trans hsub')
  subst hsession
  refine ⟨c, hc, hid', fun c' hc' hsame => hnumbered.distinct c' hc' c hc (.inl hsame), hrealm, huser,
    s, hs, ?_, hrevoked⟩
  -- the row was created together with the token
  obtain ⟨c', hc', -, hsame, huser'⟩ := htraced.rows ρ c.sessionId s hs
  rw [← huser', hnumbered.distinct c' hc' c hc (.inl hsame)]

/-- A login, a refresh with its token, and another tenant whose first session has a number of its
own. -/
def sampleTenants : List (AuthAction SignedToken) :=
  [.createUser (.tenant "umoja") true, .login 0 (.tenant "umoja") 1,
    .refresh 1 (.tenant "umoja") (sampleRefresh.token .symbolic),
    .createUser (.member "baraka") true, .login 0 (.member "baraka") 1]

/-- The access token that the refresh issued. -/
def sampleRefreshed : Issued :=
  ⟨.access, encodeAccessToken 0 1 "tenant:umoja" 0 "tenant_user" 3 900, 0, 2⟩

theorem tokens_isolated_refreshed :
    (run (AuthWorld.step defaultTokens .symbolic) (.start 0) sampleTenants).authenticate .symbolic 0
      (.tenant "umoja") (sampleRefreshed.token .symbolic) = .ok 1 ∧
    ∃ c ∈ (run (AuthWorld.step defaultTokens .symbolic) (.start 0) sampleTenants).created,
      some 0 = some c.sessionId ∧
      (∀ c' ∈ (run (AuthWorld.step defaultTokens .symbolic) (.start 0) sampleTenants).created,
        c'.sessionId = c.sessionId → c' = c) ∧
      .tenant "umoja" = c.realm ∧ 1 = c.userId ∧
      ∃ s, (run (AuthWorld.step defaultTokens .symbolic) (.start 0) sampleTenants).sessions
          (.tenant "umoja") c.sessionId = some s ∧
        s.userId = c.userId ∧ s.revokedAt = none := by
  have hok : (run (AuthWorld.step defaultTokens .symbolic) (.start 0) sampleTenants).authenticate
      .symbolic 0 (.tenant "umoja") (sampleRefreshed.token .symbolic) = .ok 1 := rfl
  have hactions : Along (AuthWorld.step defaultTokens .symbolic)
      (fun w a => ∀ b ∈ a.bearer?, Unforged .symbolic w b) (.start 0) sampleTenants := by
    refine ⟨nofun, nofun, ?_, nofun, nofun, trivial⟩
    intro b hb
    cases hb
    exact unforged_of_mem (by decide +kernel)
  exact ⟨hok, tokens_isolated .symbolic defaultTokens 0 hactions sampleRefreshed (by decide +kernel) 0
    (.tenant "umoja") 1 hok⟩

end SaccoPlatform.Iam
