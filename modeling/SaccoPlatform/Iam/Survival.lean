import SaccoPlatform.Iam.Isolation
import SaccoPlatform.Iam.Rotation

/-!
# Sessions and the keys under their refresh tokens

A session lives for hours and its refresh token is signed once, at the login. The key that signed it
can be retired 75 minutes after the next rotation, and from then on the session is there and cannot
be refreshed any more.
-/

namespace SaccoPlatform.Iam

open Lib

/-! ## The keys of the services -/

section

variable {τ : Type} {cfg : TokenSettings} {J : Pyjwt τ}

/-- A key that was read and then signed with is what `sign` does. -/
theorem KeyWorld.sign_of_ok {w : KeyWorld} {process : ℕ} {audience : KeyAudience} {kid : ℕ}
    (h : (w.fetchKey process audience).1 = .ok kid) (payloads : List Payload) :
    (w.fetchKey process audience).2.issue cfg kid payloads
      = w.sign cfg process audience payloads := by
  unfold KeyWorld.sign
  rw [h]

theorem keyWorld_mintShadow (w : AuthWorld) (cfg : TokenSettings) (slug : String)
    (impersonationId kid : ℕ) :
    ∃ payloads, (w.mintShadow cfg slug impersonationId kid).keyWorld
      = w.keyWorld.issue cfg kid payloads := by
  have hshadow : (w.withShadow slug impersonationId).2.keyWorld = w.keyWorld := by
    unfold AuthWorld.withShadow
    split <;> rfl
  unfold AuthWorld.mintShadow AuthWorld.openSession
  dsimp only
  rw [hshadow]
  exact ⟨_, rfl⟩

/-- What a request does to the keys is a run of key operations. -/
theorem AuthWorld.keyWorld_step (cfg : TokenSettings) (J : Pyjwt τ) (w : AuthWorld)
    (a : AuthAction τ) :
    ∃ as, (w.step cfg J a).keyWorld = run (KeyWorld.step cfg J) w.keyWorld as := by
  cases a with
  | wait duration => exact ⟨[.wait duration], rfl⟩
  | rotate process audience => exact ⟨[.rotate process audience], rfl⟩
  | advanceLifecycle process => exact ⟨[.advanceLifecycle process], rfl⟩
  | createUser ρ hasPassword => exact ⟨[], rfl⟩
  | setActive ρ userId active =>
    refine ⟨[], ?_⟩
    show (w.setActive ρ userId active).keyWorld = w.keyWorld
    unfold AuthWorld.setActive
    split <;> rfl
  | login process ρ userId =>
    show ∃ as, (w.login cfg process ρ userId).keyWorld = _
    -- a login signs once, if it gets that far
    unfold AuthWorld.login
    cases (w.users ρ).get? userId with
    | none => exact ⟨[], rfl⟩
    | some u =>
      dsimp only
      split_ifs
      · cases hkey : (w.keyWorld.fetchKey process ρ.keyAudience).1 with
        | error e => exact ⟨[], rfl⟩
        | ok kid => exact ⟨[.sign process ρ.keyAudience _], KeyWorld.sign_of_ok hkey _⟩
      · exact ⟨[], rfl⟩
  | refresh process ρ bearer =>
    show ∃ as, (w.refresh cfg J process ρ bearer).2.keyWorld = _
    -- the refresh token is looked up before anything is signed
    unfold AuthWorld.refresh
    cases w.checkRefresh J process ρ bearer with
    | error e => exact ⟨[.lookUp process bearer], rfl⟩
    | ok found =>
      dsimp only
      cases hkey : ((w.keyWorld.lookUp J process bearer).fetchKey process ρ.keyAudience).1 with
      | error e => exact ⟨[.lookUp process bearer], rfl⟩
      | ok kid =>
        exact ⟨[.lookUp process bearer, .sign process ρ.keyAudience _], KeyWorld.sign_of_ok hkey _⟩
  | logout process ρ bearer =>
    refine ⟨[.lookUp process bearer], ?_⟩
    show (w.logout J process ρ bearer).keyWorld = w.keyWorld.lookUp J process bearer
    unfold AuthWorld.logout
    split
    · rfl
    · unfold AuthWorld.revoke
      split <;> rfl
  | authenticate process ρ bearer => exact ⟨[.lookUp process bearer], rfl⟩
  | resetConfirm ρ userId =>
    refine ⟨[], ?_⟩
    show (w.resetConfirm ρ userId).keyWorld = w.keyWorld
    unfold AuthWorld.resetConfirm
    split <;> rfl
  | mintTenantToken process slug impersonationId =>
    show ∃ as, (w.mintTenantToken cfg process slug impersonationId).keyWorld = _
    unfold AuthWorld.mintTenantToken
    cases hkey : (w.keyWorld.fetchKey process .tenant).1 with
    | error e => exact ⟨[], rfl⟩
    | ok kid =>
      obtain ⟨payloads, hpayloads⟩ := keyWorld_mintShadow
        { w with keyWorld := (w.keyWorld.fetchKey process .tenant).2 } cfg slug impersonationId kid
      exact ⟨[.sign process .tenant payloads], hpayloads.trans (KeyWorld.sign_of_ok hkey payloads)⟩
  | cleanupExpired ρ => exact ⟨[], rfl⟩

/-- An invariant of the keys alone is one of the services. -/
theorem keyWorld_invariant {Inv : KeyWorld → Prop}
    (hstep : ∀ (w : KeyWorld) (a : KeyAction τ), Inv w → Inv (w.step cfg J a)) {clock : Timestamp}
    (hstart : Inv (.start clock)) (actions : List (AuthAction τ)) :
    Inv (run (AuthWorld.step cfg J) (.start clock) actions).keyWorld := by
  have hservices : ∀ (w : AuthWorld) (a : AuthAction τ),
      Inv w.keyWorld → Inv (w.step cfg J a).keyWorld := by
    intro w a h
    obtain ⟨as, has⟩ := w.keyWorld_step cfg J a
    rw [has]
    exact run_invariant_of_step hstep as h
  induction actions using List.reverseRecOn with
  | nil => exact hstart
  | append_singleton actions a ih =>
    rw [run_append]
    exact hservices _ a ih

/-! ## There is a key to sign with -/

def Keyring.HasActive (r : Keyring) : Prop :=
  ∀ audience, ∃ k ∈ r.keys.rows, k.audience = audience ∧ k.status = .active

theorem Keyring.HasActive.generateAndInsert {r : Keyring} (audience : KeyAudience)
    (h : ∀ audience', audience' ≠ audience →
      ∃ k ∈ r.keys.rows, k.audience = audience' ∧ k.status = .active) :
    (r.generateAndInsert audience).HasActive := by
  intro audience'
  by_cases haudience : audience' = audience
  · subst haudience
    exact ⟨_, List.mem_append_right _ (List.mem_singleton_self _), rfl, rfl⟩
  · obtain ⟨k, hk, hrest⟩ := h audience' haudience
    exact ⟨k, List.mem_append_left _ hk, hrest⟩

theorem Keyring.HasActive.rotate {r : Keyring} (h : r.HasActive) (process : ℕ) (now : Timestamp)
    (audience : KeyAudience) : (r.rotate process now audience).HasActive := by
  rcases r.rotate_cases process now audience with hr | ⟨-, hr⟩ | ⟨current, hone, hr⟩
  · rw [hr]
    exact h
  · rw [hr]
    exact .generateAndInsert audience fun audience' _ => h audience'
  · rw [hr]
    obtain ⟨-, haudience, -⟩ := mem_activeKeys.mp (hone ▸ List.mem_singleton_self current)
    refine .generateAndInsert audience fun audience' hne => ?_
    -- the keys of the other audience are not touched
    obtain ⟨k, hk, hk_audience, hactive⟩ := h audience'
    refine ⟨k, Keyed.mem_put.mpr (.inl ⟨hk, ?_⟩), hk_audience, hactive⟩
    intro hkid
    have hmem : current ∈ r.keys.rows :=
      (mem_activeKeys.mp (hone ▸ List.mem_singleton_self current)).1
    have heq : k = current := r.keys.eq_of_key hk hmem hkid
    rw [heq, haudience] at hk_audience
    exact hne hk_audience.symm

theorem Keyring.HasActive.mapRows {r : Keyring} (h : r.HasActive) {f : SigningKey → SigningKey}
    {hf : ∀ k, (f k).kid = k.kid} (hactive : ∀ k : SigningKey, k.status = .active → f k = k)
    (caches : ℕ → KeyCaches) : HasActive ⟨r.keys.mapRows f hf, caches⟩ := by
  intro audience
  obtain ⟨k, hk, haudience, hk_active⟩ := h audience
  exact ⟨k, List.mem_map.mpr ⟨k, hk, hactive k hk_active⟩, haudience, hk_active⟩

theorem SigningKey.retire_of_active {k : SigningKey} (now : Timestamp) (h : k.status = .active) :
    k.retire now = k := by
  unfold retire
  refine if_neg fun hdue => ?_
  rw [hdue.1] at h
  cases h

theorem SigningKey.softDelete_of_active {k : SigningKey} (now : Timestamp) (h : k.status = .active) :
    k.softDelete now = k := by
  unfold softDelete
  refine if_neg fun hdue => ?_
  rw [hdue.1] at h
  cases h

theorem Keyring.HasActive.advanceLifecycle {r : Keyring} (h : r.HasActive) (process : ℕ)
    (now : Timestamp) : (r.advanceLifecycle process now).HasActive :=
  mapRows (mapRows h (fun _ => SigningKey.retire_of_active now) _)
    (fun _ => SigningKey.softDelete_of_active now) _

/-- The rows are as they should be, and one of them is active for each audience. -/
def KeyWorld.Equipped (w : KeyWorld) : Prop := RowsSound w.ring.keys w.clock ∧ w.ring.HasActive

theorem KeyWorld.Equipped.of_keys_eq {w w' : KeyWorld} (h : w.Equipped)
    (hkeys : w'.ring.keys = w.ring.keys) (hclock : w.clock ≤ w'.clock) : w'.Equipped := by
  refine ⟨?_, ?_⟩
  · rw [hkeys]
    exact h.1.mono hclock
  · intro audience
    rw [hkeys]
    exact h.2 audience

theorem KeyWorld.Equipped.step {w : KeyWorld} (h : w.Equipped) (a : KeyAction τ) :
    (w.step cfg J a).Equipped := by
  cases a with
  | wait duration =>
    exact h.of_keys_eq rfl (Int.le_add_of_nonneg_right (Int.natCast_nonneg duration))
  | rotate process audience => exact ⟨h.1.rotate process audience, h.2.rotate process w.clock audience⟩
  | advanceLifecycle process =>
    exact ⟨h.1.advanceLifecycle process, h.2.advanceLifecycle process w.clock⟩
  | sign process audience payloads =>
    show (w.sign cfg process audience payloads).Equipped
    unfold KeyWorld.sign
    split <;> exact h.of_keys_eq (w.ring.keys_getActiveSigningKey process w.clock audience) le_rfl
  | lookUp process token =>
    show (w.lookUp J process token).Equipped
    unfold KeyWorld.lookUp
    split
    · exact h
    · exact h.of_keys_eq (w.ring.keys_getVerificationKey process w.clock _) le_rfl

theorem KeyWorld.equipped_start (clock : Timestamp) : (KeyWorld.start clock).Equipped := by
  refine ⟨rowsSound_bootKeys clock, ?_⟩
  intro audience
  show ∃ k ∈ bootKeys.rows, _
  cases audience <;> decide

/-- A process always finds a key to sign with. -/
theorem KeyWorld.Equipped.fetchKey {w : KeyWorld} (h : w.Equipped) (process : ℕ)
    (audience : KeyAudience) : ∃ kid, (w.fetchKey process audience).1 = .ok kid := by
  show ∃ kid, (w.ring.getActiveSigningKey process w.clock audience).1 = .ok kid
  obtain ⟨k, hk, haudience, hactive⟩ := h.2 audience
  have hundeleted : k.deletedAt = none := h.1.undeleted k hk (by rw [hactive]; decide)
  -- it is the only one
  have hone : (w.ring.activeKeys audience).filter (·.deletedAt = none) = [k] := by
    have hmem : k ∈ w.ring.activeKeys audience := Keyring.mem_activeKeys.mpr ⟨hk, haudience, hactive⟩
    have hall : ∀ k' ∈ (w.ring.activeKeys audience).filter (·.deletedAt = none), k' = k := by
      intro k' hk'
      obtain ⟨hrow, haudience', hactive'⟩ := Keyring.mem_activeKeys.mp (List.mem_of_mem_filter hk')
      exact h.1.unique k' hrow k hk hactive' hactive (haudience'.trans haudience.symm)
    have hnodup : ((w.ring.activeKeys audience).filter (·.deletedAt = none)).Nodup :=
      ((List.Nodup.of_map _ w.ring.keys.nodup).filter _).filter _
    have hmem' : k ∈ (w.ring.activeKeys audience).filter (·.deletedAt = none) :=
      List.mem_filter.mpr ⟨hmem, by simpa using hundeleted⟩
    exact List.perm_singleton.mp
      ((List.perm_ext_iff_of_nodup hnodup (List.nodup_singleton k)).mpr fun k' =>
        ⟨fun hk' => List.mem_singleton.mpr (hall k' hk'), fun hk' => List.mem_singleton.mp hk' ▸ hmem'⟩)
  rcases w.ring.getActiveSigningKey_cases process w.clock audience with
    ⟨kid, -, hr⟩ | ⟨e, hr⟩ | ⟨kid, -, hr⟩
  · exact ⟨kid, by rw [hr]⟩
  · exfalso
    unfold Keyring.getActiveSigningKey at hr
    have hselect : w.ring.selectActive audience = .ok k.kid := by
      unfold Keyring.selectActive
      rw [hone]
    rw [hselect] at hr
    split at hr <;> cases hr
  · exact ⟨kid, by rw [hr]⟩

end

/-! ## What a session keeps -/

/-- The refresh token that was issued with the session. -/
def Created.refreshToken (cfg : TokenSettings) (c : Created) : Issued :=
  ⟨.refresh, encodeRefreshToken c.time c.userId c.realm.audience c.sessionId c.jti
    (c.realm.refreshTtl cfg), c.time, c.key⟩

/-- The end of the session. -/
def Created.expiresAt (cfg : TokenSettings) (c : Created) : Timestamp :=
  c.time + seconds (c.realm.refreshTtl cfg)

/-- What the tables and Redis hold for a session. -/
structure Kept (cfg : TokenSettings) (w : AuthWorld) (c : Created) : Prop where
  past : c.time ≤ w.clock
  issued : c.refreshToken cfg ∈ w.keyWorld.issued
  row : ∀ s, w.sessions c.realm c.sessionId = some s → s.revokedAt = none →
    s.jti = c.jti ∧ s.expiresAt = c.expiresAt cfg ∧ w.jtis c.jti = some ((), c.expiresAt cfg)

/-- The rows belong to the sessions that were created. -/
structure Owned (cfg : TokenSettings) (w : AuthWorld) : Prop where
  numbered : Numbered w
  kept : ∀ c ∈ w.created, Kept cfg w c
  rows : ∀ ρ id s, w.sessions ρ id = some s → ∃ c ∈ w.created, c.realm = ρ ∧ c.sessionId = id ∧
    c.userId = s.userId ∧ c.jti = s.jti

section

variable {τ : Type} {cfg : TokenSettings} {J : Pyjwt τ} {w w' : AuthWorld}

theorem Owned.quiet (h : Owned cfg w) (hquiet : Quiet w w') : Owned cfg w' where
  numbered := h.numbered.of_le hquiet.created hquiet.nextId.ge
  kept c hc := by
    rw [hquiet.created] at hc
    obtain ⟨hpast, hissued, hrow⟩ := h.kept c hc
    refine ⟨hpast.trans hquiet.clock, hquiet.issued ▸ hissued, ?_⟩
    intro s' hs' hrevoked'
    obtain ⟨s, hs, -, -, hsame⟩ := hquiet.within _ _ s' hs'
    obtain rfl := hsame hrevoked'
    obtain ⟨hjti, hexpires, hredis⟩ := hrow s' hs hrevoked'
    refine ⟨hjti, hexpires, ?_⟩
    rcases hquiet.jtis c.jti with hredis' | ⟨ρ, id, s₀, s₁, hs₀, hjti₀, hs₁, hrevoked₁⟩
    · rw [hredis']
      exact hredis
    · -- the key of Redis would have gone with this session, which is not revoked
      obtain ⟨c₀, hc₀, rfl, rfl, -, hjti₀'⟩ := h.rows ρ id s₀ hs₀
      obtain rfl := h.numbered.distinct c₀ hc₀ c hc (.inr (hjti₀'.trans hjti₀))
      rw [hs'] at hs₁
      cases hs₁
      exact absurd hrevoked' hrevoked₁
  rows ρ id s' hs' := by
    obtain ⟨s, hs, huser, hjti, -⟩ := hquiet.within ρ id s' hs'
    obtain ⟨c, hc, hrealm, hid, huser', hjti'⟩ := h.rows ρ id s hs
    exact ⟨c, hquiet.created ▸ hc, hrealm, hid, huser'.trans huser.symm, hjti'.trans hjti.symm⟩

theorem Owned.openSession (h : Owned cfg w) (ρ : Realm) (userId kid : ℕ) :
    Owned cfg (w.openSession cfg ρ userId kid) where
  numbered := h.numbered.openSession ρ userId kid
  kept c hc := by
    rcases List.mem_append.mp hc with hc | hc
    · -- an earlier session: its numbers are below the counter
      obtain ⟨hpast, hissued, hrow⟩ := h.kept c hc
      obtain ⟨hid, hjti⟩ := h.numbered.below c hc
      refine ⟨hpast, List.mem_append_left _ hissued, ?_⟩
      intro s hs hrevoked
      rw [sessions_openSession, if_neg fun hnew => absurd hnew.2 hid.ne] at hs
      obtain ⟨hs_jti, hexpires, hredis⟩ := hrow s hs hrevoked
      refine ⟨hs_jti, hexpires, ?_⟩
      show w.jtis.set (w.nextId + 1) () _ c.jti = _
      rw [Expiring.set_of_ne _ (by omega), hredis]
    · rw [List.mem_singleton.mp hc]
      refine ⟨le_rfl, List.mem_append_right _ (List.mem_cons_of_mem _ List.mem_cons_self), ?_⟩
      intro s hs _
      rw [sessions_openSession, if_pos ⟨rfl, rfl⟩] at hs
      cases hs
      exact ⟨rfl, rfl, Expiring.set_self ..⟩
  rows ρ' id s hs := by
    rw [sessions_openSession] at hs
    split_ifs at hs with hnew
    · cases hs
      exact ⟨_, List.mem_append_right _ (List.mem_singleton_self _), hnew.1.symm, hnew.2.symm, rfl,
        rfl⟩
    · obtain ⟨c, hc, hrest⟩ := h.rows ρ' id s hs
      exact ⟨c, List.mem_append_left _ hc, hrest⟩

theorem Owned.step (h : Owned cfg w) (a : AuthAction τ) : Owned cfg (w.step cfg J a) := by
  rcases AuthWorld.step_cases cfg J w a with
    hquiet | ⟨w₀, ρ, userId, kid, halike, hstep⟩ | ⟨w₀, _, ρ, _, sub, id, kid, halike, -, -, hstep⟩
  · exact h.quiet hquiet
  · rw [hstep]
    exact (h.quiet halike.quiet).openSession ρ userId kid
  · rw [hstep]
    obtain ⟨hnumbered, hkept, hrows⟩ := h.quiet halike.quiet
    refine ⟨hnumbered.of_le rfl (Nat.le_succ _), fun c hc => ?_, hrows⟩
    obtain ⟨hpast, hissued, hrow⟩ := hkept c hc
    exact ⟨hpast, List.mem_append_left _ hissued, hrow⟩

theorem owned_start (clock : Timestamp) : Owned cfg (.start clock) where
  numbered := numbered_start clock
  kept _ hc := nomatch hc
  rows _ _ _ hs := nomatch hs

/-! ## Which refresh tokens are accepted -/

theorem checkRefresh_of_row {process : ℕ} {c : Created} {s : AuthSession}
    (hs : w.sessions c.realm c.sessionId = some s) (hrevoked : s.revokedAt = none)
    (hlive : w.clock < s.expiresAt) (hkept : Kept cfg w c)
    (hdecode : w.keyWorld.decodeToken J process ((c.refreshToken cfg).token J) c.realm.audience
      = some (c.refreshToken cfg).claims) :
    w.checkRefresh J process c.realm ((c.refreshToken cfg).token J) = .ok (c.userId, c.sessionId) := by
  obtain ⟨hjti, hexpires, hredis⟩ := hkept.row s hs hrevoked
  have hvalid : w.isJtiValid c.jti = true := by
    unfold AuthWorld.isJtiValid
    rw [Expiring.get?_eq_some.mpr ⟨_, hredis, by rw [← hexpires]; exact hlive.le⟩]
    rfl
  unfold AuthWorld.checkRefresh
  rw [hdecode]
  dsimp only [Created.refreshToken, encodeRefreshToken]
  rw [hs]
  dsimp only
  rw [if_neg (by simp [hrevoked]), if_neg (not_lt.mpr hlive.le), if_neg (by simp [hjti]),
    if_neg (by simp [hvalid])]

/-- The token is decoded until the last whole second before the session ends. -/
theorem decodeToken_refreshToken {process : ℕ} {c : Created} (hpast : c.time ≤ w.clock) :
    (∃ claims, w.keyWorld.decodeToken J process ((c.refreshToken cfg).token J) c.realm.audience
      = some claims) ↔
    w.clock < c.expiresAt cfg / 1000000 * 1000000 ∧
      w.keyWorld.ring.Readable process w.clock c.key := by
  have hbegun : (c.refreshToken cfg).claims.iat * 1000000 ≤ w.clock :=
    (Int.ediv_mul_le _ (by decide)).trans hpast
  constructor
  · rintro ⟨claims, hclaims⟩
    obtain ⟨-, hvalid, hreadable⟩ := decodeToken_token.mp hclaims
    exact ⟨hvalid.2.2, hreadable⟩
  · rintro ⟨hlive, hreadable⟩
    exact ⟨_, decodeToken_token.mpr ⟨rfl, ⟨rfl, hbegun, hlive⟩, hreadable⟩⟩

/-- `refresh` accepts only a session that is not revoked. -/
theorem refresh_eq_ok {process : ℕ} {ρ : Realm} {bearer : τ} {x : Payload}
    (h : (w.refresh cfg J process ρ bearer).1 = .ok x) :
    ∃ claims id s, w.keyWorld.decodeToken J process bearer ρ.audience = some claims ∧
      claims.sessionId = some id ∧ w.sessions ρ id = some s ∧ s.revokedAt = none := by
  unfold AuthWorld.refresh at h
  split at h
  · cases h
  · rename_i sub id hcheck
    obtain ⟨claims, s, hclaims, -, hid, hs, hrevoked⟩ := decode_of_checkRefresh hcheck
    exact ⟨claims, id, s, hclaims, hid, hs, hrevoked⟩

end

/-- The refresh token of a session that is neither revoked nor over is accepted exactly until the last
whole second before the session ends, and by the processes that can still verify with the key that
signed it. -/
theorem refresh_accepted_iff {τ : Type} (J : Pyjwt τ) (cfg : TokenSettings) (clock : Timestamp)
    (actions : List (AuthAction τ)) :
    ∀ c ∈ (run (AuthWorld.step cfg J) (.start clock) actions).created, ∀ s,
      (run (AuthWorld.step cfg J) (.start clock) actions).sessions c.realm c.sessionId = some s →
      s.revokedAt = none →
      (run (AuthWorld.step cfg J) (.start clock) actions).clock < s.expiresAt →
      c.refreshToken cfg ∈ (run (AuthWorld.step cfg J) (.start clock) actions).keyWorld.issued ∧
      ∀ process,
        (∃ x, ((run (AuthWorld.step cfg J) (.start clock) actions).refresh cfg J process c.realm
          ((c.refreshToken cfg).token J)).1 = .ok x) ↔
        (run (AuthWorld.step cfg J) (.start clock) actions).clock
            < s.expiresAt / 1000000 * 1000000 ∧
          (run (AuthWorld.step cfg J) (.start clock) actions).keyWorld.ring.Readable process
            (run (AuthWorld.step cfg J) (.start clock) actions).clock c.key := by
  have howned : Owned cfg (run (AuthWorld.step cfg J) (.start clock) actions) := by
    have hstep : ∀ (w : AuthWorld) (a : AuthAction τ), Owned cfg w → Owned cfg (w.step cfg J a) :=
      fun _ a h => h.step a
    exact run_invariant_of_step hstep actions (owned_start clock)
  have hequipped : (run (AuthWorld.step cfg J) (.start clock) actions).keyWorld.Equipped := by
    have hstep : ∀ (w : KeyWorld) (a : KeyAction τ), w.Equipped → (w.step cfg J a).Equipped :=
      fun _ a h => h.step a
    exact keyWorld_invariant hstep (KeyWorld.equipped_start clock) actions
  set w := run (AuthWorld.step cfg J) (.start clock) actions
  intro c hc s hs hrevoked hlive
  have hkept := howned.kept c hc
  obtain ⟨-, hexpires, -⟩ := hkept.row s hs hrevoked
  refine ⟨hkept.issued, fun process => ?_⟩
  rw [hexpires, ← decodeToken_refreshToken hkept.past]
  constructor
  · rintro ⟨x, hx⟩
    obtain ⟨claims, -, -, hclaims, -⟩ := refresh_eq_ok hx
    exact ⟨claims, hclaims⟩
  · rintro ⟨claims, hclaims⟩
    have hdecode := hclaims
    rw [(decodeToken_token.mp hclaims).1] at hdecode
    have hcheck := checkRefresh_of_row hs hrevoked hlive hkept hdecode
    -- there is a key for the new access token
    obtain ⟨kid, hkid⟩ := KeyWorld.Equipped.fetchKey
      (KeyWorld.Equipped.step hequipped (.lookUp process ((c.refreshToken cfg).token J)))
      process c.realm.keyAudience
    refine ⟨.access c.userId c.realm.audience c.sessionId c.realm.actorType w.nextId, ?_⟩
    unfold AuthWorld.refresh
    rw [hcheck]
    dsimp only
    rw [show (w.keyWorld.lookUp J process ((c.refreshToken cfg).token J)).fetchKey process
      c.realm.keyAudience = (w.keyWorld.step cfg J (.lookUp process
        ((c.refreshToken cfg).token J))).fetchKey process c.realm.keyAudience from rfl, hkid]

/-- The first session of the tenant `umoja`. -/
def sampleSession : Created := ⟨.tenant "umoja", 0, 1, 1, 0, 2⟩

/-- A login and a rotation, with the session still to run for almost seven hours. -/
def sampleRotated : List (AuthAction SignedToken) :=
  [.createUser (.tenant "umoja") true, .login 0 (.tenant "umoja") 1, .rotate 0 .tenant,
    .wait 4500000000]

theorem refresh_accepted_iff_retiring :
    ∃ x, ((run (AuthWorld.step defaultTokens .symbolic) (.start 0) sampleRotated).refresh defaultTokens
      .symbolic 3 (.tenant "umoja") ((sampleSession.refreshToken defaultTokens).token .symbolic)).1
        = .ok x := by
  refine ((refresh_accepted_iff .symbolic defaultTokens 0 sampleRotated sampleSession
    (by decide +kernel) ⟨1, 1, 0, 28800000000, none⟩ (by decide +kernel) rfl (by decide +kernel)).2
      3).mpr ⟨by decide +kernel, .inr ⟨⟨2, .tenant, .retiring, some 0, none⟩, ?_, nofun, rfl⟩⟩
  decide +kernel

/-- The hourly task retires the key, and the session cannot be refreshed any more. -/
theorem refresh_refused_after_rotation :
    sampleSession ∈ (run (AuthWorld.step defaultTokens .symbolic) (.start 0)
      (sampleRotated ++ [.advanceLifecycle 0])).created ∧
    (run (AuthWorld.step defaultTokens .symbolic) (.start 0)
      (sampleRotated ++ [.advanceLifecycle 0])).sessions (.tenant "umoja") 0
        = some ⟨1, 1, 0, 28800000000, none⟩ ∧
    (run (AuthWorld.step defaultTokens .symbolic) (.start 0)
      (sampleRotated ++ [.advanceLifecycle 0])).clock = 4500000000 ∧
    ((run (AuthWorld.step defaultTokens .symbolic) (.start 0)
      (sampleRotated ++ [.advanceLifecycle 0])).refresh defaultTokens .symbolic 0 (.tenant "umoja")
        ((sampleSession.refreshToken defaultTokens).token .symbolic)).1
      = .error ⟨401, "Invalid or expired refresh token"⟩ :=
  ⟨by decide +kernel, by decide +kernel, rfl, rfl⟩

end SaccoPlatform.Iam
