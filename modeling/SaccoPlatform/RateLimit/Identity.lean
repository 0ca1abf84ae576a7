import SaccoPlatform.Iam.Rotation
import SaccoPlatform.Lib.PyText
import SaccoPlatform.RateLimit.Overrides

/-!
# Whose requests are counted

`derive_identity` (`app/core/rate_limit/identity.py`) counts a request under the user whose token it
carries, or under the address that it comes from. Redis keeps a key for five minutes, in front of the
minute for which the process keeps it: a token of a retired key is recognised for six minutes more.
-/

namespace SaccoPlatform.RateLimit

open Lib Iam

/-! ## The identity of a request -/

/-- PyJWT. With `verify_aud` off it decodes what it decodes for the audience that the claims name. -/
structure AnyAudience (τ : Type) extends Pyjwt τ where
  decodeAny : τ → (key : ℕ) → (now : Timestamp) → Option Claims
  decodeAny_eq_some : ∀ token key now c,
    decodeAny token key now = some c ↔ decode token key c.aud now = some c

/-- What `derive_identity` reads of a request: the header `Authorization` up to its first blank and
from there on, the header `X-Forwarded-For`, and the address of the client. -/
structure LimitedRequest (τ : Type) where
  scheme : String
  token : Option τ
  forwardedFor : Option String
  clientHost : Option String

/-- The bearer token. -/
def LimitedRequest.bearer {τ : Type} (r : LimitedRequest τ) : Option τ :=
  if r.scheme.toLower = "bearer" then r.token else none

/-- `str.startswith`. -/
def startsWith (text front : String) : Bool := front.toList.isPrefixOf text.toList

/-- `_map_audience`. -/
def mapAudience (aud : String) : Audience :=
  if aud = "platform" then .platform
  else if startsWith aud "tenant:" then .tenant
  else if startsWith aud "member:" then .member
  else .anonymous

/-- `_tenant_slug_from_aud`. -/
def tenantSlugFromAud (aud : String) : Option String :=
  if startsWith aud "tenant:" || startsWith aud "member:" then
    let slug := String.ofList ((aud.toList.dropWhile (· ≠ ':')).drop 1)
    if slug = "" then none else some slug
  else none

/-- `_client_ip`. -/
def clientIp {τ : Type} (trustedProxy : Bool) (r : LimitedRequest τ) : String :=
  match r.forwardedFor.filter fun xff => trustedProxy && xff ≠ "" with
  | some xff => pyStrip (String.ofList (xff.toList.takeWhile (· ≠ ',')))
  | none => r.clientHost.getD "unknown"

/-- The values of `Audience`. -/
def Audience.text : Audience → String
  | anonymous => "anonymous"
  | tenant => "tenant"
  | member => "member"
  | platform => "platform"

def ipIdentity {τ : Type} (trustedProxy : Bool) (r : LimitedRequest τ) : RateLimitIdentity where
  key := "ip:" ++ clientIp trustedProxy r
  audience := .anonymous
  tenantSlug := none

def userIdentity (aud : String) (sub : ℕ) : RateLimitIdentity where
  key := "u:" ++ (mapAudience aud).text ++ ":" ++ toString sub
  audience := mapAudience aud
  tenantSlug := tenantSlugFromAud aud

/-- The signing keys, and the keys `rl:jwk:{kid}` of Redis with the public key that each holds. -/
structure Verifiers where
  keys : KeyWorld
  jwks : Expiring ℕ ℕ

/-- Which of the two calls to Redis raise. -/
structure RedisFaults where
  get : Bool
  setex : Bool
deriving DecidableEq, Repr

/-- `_JWK_CACHE_TTL_SECONDS`. -/
def jwkCacheTtl : ℤ := seconds 300

/-- The call of `KeyService`, with what the process has cached after it. -/
def Verifiers.afterRead (v : Verifiers) (process kid : ℕ) : Verifiers :=
  { v with
    keys := { v.keys with ring := (v.keys.ring.getVerificationKey process v.keys.clock kid).2 } }

/-- `_get_verification_key`, `none` where it raises. -/
def Verifiers.getVerificationKey (v : Verifiers) (process : ℕ) (faults : RedisFaults) (kid : ℕ) :
    Option ℕ × Verifiers :=
  if faults.get then (none, v)
  else
    match v.jwks.get? v.keys.clock kid with
    | some pem => (some pem, v)
    | none =>
      match (v.keys.ring.getVerificationKey process v.keys.clock kid).1 with
      | .error _ => (none, v.afterRead process kid)
      | .ok _ =>
        if faults.setex then (none, v.afterRead process kid)
        else (some kid, { v.afterRead process kid with
          jwks := v.jwks.set kid kid (v.keys.clock + jwkCacheTtl) })

section

variable {τ : Type} (J : AnyAudience τ) (trustedProxy : Bool)

/-- The user whose token it is, if it verifies under the key. -/
def verifiedIdentity (token : τ) (key : ℕ) (now : Timestamp) : Option RateLimitIdentity :=
  (J.decodeAny token key now).bind fun c => c.sub.map (userIdentity c.aud)

/-- `derive_identity`. -/
def Verifiers.deriveIdentity (v : Verifiers) (process : ℕ) (faults : RedisFaults)
    (r : LimitedRequest τ) : RateLimitIdentity × Verifiers :=
  match r.bearer with
  | none => (ipIdentity trustedProxy r, v)
  | some token =>
    match J.unverifiedKid token with
    | none => (ipIdentity trustedProxy r, v)
    | some kid =>
      (((v.getVerificationKey process faults kid).1.bind fun key =>
          verifiedIdentity J token key v.keys.clock).getD (ipIdentity trustedProxy r),
        (v.getVerificationKey process faults kid).2)

end

/-! ## Runs -/

/-- What the keys go through, a request, or a key that Redis evicts. -/
inductive LimiterAction (τ : Type) where
  | keys (action : KeyAction τ)
  | request (process : ℕ) (faults : RedisFaults) (r : LimitedRequest τ)
  | evict (kid : ℕ)

def Verifiers.start (clock : Timestamp) : Verifiers := ⟨.start clock, .empty⟩

def Verifiers.step {τ : Type} (cfg : TokenSettings) (J : AnyAudience τ) (trustedProxy : Bool)
    (v : Verifiers) : LimiterAction τ → Verifiers
  | .keys action => { v with keys := v.keys.step cfg J.toPyjwt action }
  | .request process faults r => (v.deriveIdentity J trustedProxy process faults r).2
  | .evict kid => { v with jwks := v.jwks.erase kid }

/-- Nobody else signs tokens: what verifies under one of the keys was issued. -/
def Genuine {τ : Type} (J : AnyAudience τ) (v : Verifiers) (token : τ) : Prop :=
  ∀ key audience now c, J.decode token key audience now = some c →
    ∃ i ∈ v.keys.issued, token = i.token J.toPyjwt

section

variable {τ : Type} {cfg : TokenSettings} {J : AnyAudience τ} {trustedProxy : Bool} {v : Verifiers}
  {process : ℕ} {faults : RedisFaults} {r : LimitedRequest τ}

/-! ### What one request does -/

/-- The key comes from Redis, or it is read and Redis takes it, or there is none. -/
theorem Verifiers.getVerificationKey_cases (v : Verifiers) (process : ℕ) (faults : RedisFaults)
    (kid : ℕ) :
    (∃ key, v.jwks.get? v.keys.clock kid = some key ∧
      v.getVerificationKey process faults kid = (some key, v)) ∨
    (v.keys.ring.Readable process v.keys.clock kid ∧
      v.getVerificationKey process faults kid = (some kid, { v.afterRead process kid with
        jwks := v.jwks.set kid kid (v.keys.clock + jwkCacheTtl) })) ∨
    (v.getVerificationKey process faults kid).1 = none ∧
      ((v.getVerificationKey process faults kid).2 = v ∨
        (v.getVerificationKey process faults kid).2 = v.afterRead process kid) := by
  unfold getVerificationKey
  by_cases hget : faults.get = true
  · rw [if_pos hget]
    exact .inr (.inr ⟨rfl, .inl rfl⟩)
  · rw [if_neg hget]
    cases hcached : v.jwks.get? v.keys.clock kid with
    | some key => exact .inl ⟨key, rfl, rfl⟩
    | none =>
      cases hread : (v.keys.ring.getVerificationKey process v.keys.clock kid).1 with
      | error e => exact .inr (.inr ⟨rfl, .inr rfl⟩)
      | ok audience =>
        dsimp only
        by_cases hsetex : faults.setex = true
        · rw [if_pos hsetex]
          exact .inr (.inr ⟨rfl, .inr rfl⟩)
        · rw [if_neg hsetex]
          exact .inr (.inl ⟨getVerificationKey_eq_ok.mp ⟨audience, hread⟩, rfl⟩)

/-- For the keys a request is the lookup of its token, or nothing. -/
theorem keys_deriveIdentity (cfg : TokenSettings) (J : AnyAudience τ) (trustedProxy : Bool)
    (v : Verifiers) (process : ℕ) (faults : RedisFaults) (r : LimitedRequest τ) :
    (v.deriveIdentity J trustedProxy process faults r).2.keys = v.keys ∨
      ∃ token, (v.deriveIdentity J trustedProxy process faults r).2.keys
        = v.keys.step cfg J.toPyjwt (.lookUp process token) := by
  unfold Verifiers.deriveIdentity
  cases r.bearer with
  | none => exact .inl rfl
  | some token =>
    dsimp only
    cases hkid : J.unverifiedKid token with
    | none => exact .inl rfl
    | some kid =>
      have hlookUp : v.keys.step cfg J.toPyjwt (.lookUp process token)
          = (v.afterRead process kid).keys := by
        show v.keys.lookUp J.toPyjwt process token = _
        unfold KeyWorld.lookUp
        rw [hkid]
        rfl
      dsimp only
      rcases v.getVerificationKey_cases process faults kid with ⟨key, -, h⟩ | ⟨-, h⟩ | ⟨-, h | h⟩
      · rw [h]
        exact .inl rfl
      · rw [h]
        exact .inr ⟨token, hlookUp.symm⟩
      · rw [h]
        exact .inl rfl
      · rw [h]
        exact .inr ⟨token, hlookUp.symm⟩

/-- What a request adds to Redis: a key that the process could read. -/
theorem jwks_deriveIdentity {kid key : ℕ} {e : ℤ}
    (h : (v.deriveIdentity J trustedProxy process faults r).2.jwks kid = some (key, e)) :
    v.jwks kid = some (key, e) ∨
      (key = kid ∧ e = v.keys.clock + jwkCacheTtl ∧
        v.keys.ring.Readable process v.keys.clock kid) := by
  unfold Verifiers.deriveIdentity at h
  cases hbearer : r.bearer with
  | none =>
    rw [hbearer] at h
    exact .inl h
  | some token =>
    rw [hbearer] at h
    dsimp only at h
    cases hnamed : J.unverifiedKid token with
    | none =>
      rw [hnamed] at h
      exact .inl h
    | some kid' =>
      rw [hnamed] at h
      dsimp only at h
      rcases v.getVerificationKey_cases process faults kid' with
        ⟨_, -, hr⟩ | ⟨hreadable, hr⟩ | ⟨-, hr | hr⟩
      · rw [hr] at h
        exact .inl h
      · rw [hr] at h
        rcases Expiring.set_eq_some h with ⟨rfl, rfl, rfl⟩ | hold
        · exact .inr ⟨rfl, rfl, hreadable⟩
        · exact .inl hold
      · rw [hr] at h
        exact .inl h
      · rw [hr] at h
        exact .inl h

/-- A request is counted under its address, or under the user of a token that verifies. -/
theorem identity_cases (J : AnyAudience τ) (trustedProxy : Bool) (v : Verifiers) (process : ℕ)
    (faults : RedisFaults) (r : LimitedRequest τ) :
    (v.deriveIdentity J trustedProxy process faults r).1 = ipIdentity trustedProxy r ∨
      ∃ token kid key c sub, r.bearer = some token ∧ J.unverifiedKid token = some kid ∧
        (v.getVerificationKey process faults kid).1 = some key ∧
        J.decode token key c.aud v.keys.clock = some c ∧ c.sub = some sub ∧
        (v.deriveIdentity J trustedProxy process faults r).1 = userIdentity c.aud sub := by
  unfold Verifiers.deriveIdentity
  cases r.bearer with
  | none => exact .inl rfl
  | some token =>
    dsimp only
    cases hkid : J.unverifiedKid token with
    | none => exact .inl rfl
    | some kid =>
      dsimp only
      cases hverified : (v.getVerificationKey process faults kid).1.bind fun key =>
          verifiedIdentity J token key v.keys.clock with
      | none => exact .inl rfl
      | some identity =>
        obtain ⟨key, hkey, hidentity⟩ := Option.bind_eq_some_iff.mp hverified
        obtain ⟨c, hc, huser⟩ := Option.bind_eq_some_iff.mp hidentity
        obtain ⟨sub, hsub, rfl⟩ := Option.map_eq_some_iff.mp huser
        exact .inr ⟨token, kid, key, c, sub, rfl, hkid, hkey, (J.decodeAny_eq_some ..).mp hc, hsub, rfl⟩

/-- A token that was issued is recognised as long as its key can be had. -/
theorem deriveIdentity_token {i : Issued} {sub : ℕ} (hbearer : r.bearer = some (i.token J.toPyjwt))
    (hsub : i.claims.sub = some sub) (hvalid : i.claims.ValidFor i.claims.aud v.keys.clock)
    (hkey : (v.getVerificationKey process faults i.key).1 = some i.key) :
    (v.deriveIdentity J trustedProxy process faults r).1 = userIdentity i.claims.aud sub := by
  have hdecode : J.decodeAny (i.token J.toPyjwt) i.key v.keys.clock = some i.claims := by
    rw [J.decodeAny_eq_some, decode_token, if_pos ⟨rfl, hvalid⟩]
  unfold Verifiers.deriveIdentity
  rw [hbearer]
  dsimp only
  rw [unverifiedKid_token]
  dsimp only
  rw [hkey, Option.bind_some]
  unfold verifiedIdentity
  rw [hdecode, Option.bind_some, hsub]
  rfl

/-! ### What every run keeps -/

theorem clock_le_step (w : KeyWorld) (J : Pyjwt τ) (a : KeyAction τ) :
    w.clock ≤ (w.step cfg J a).clock := by
  cases a with
  | wait duration =>
    show w.clock ≤ w.clock + duration
    exact le_add_of_nonneg_right (Int.natCast_nonneg duration)
  | rotate process audience => exact le_rfl
  | advanceLifecycle process => exact le_rfl
  | sign process audience payloads =>
    show w.clock ≤ (w.sign cfg process audience payloads).clock
    unfold KeyWorld.sign
    split <;> exact le_rfl
  | lookUp process token =>
    show w.clock ≤ (w.lookUp J process token).clock
    unfold KeyWorld.lookUp
    split <;> exact le_rfl

/-- Every token names its user. -/
def Named (issued : List Issued) : Prop := ∀ i ∈ issued, ∃ sub, i.claims.sub = some sub

theorem Payload.sub_claims (now : Timestamp) (x : Payload) : ∃ sub, (x.claims cfg now).sub = some sub := by
  cases x <;> exact ⟨_, rfl⟩

theorem Named.step {w : KeyWorld} {J : Pyjwt τ} (h : Named w.issued) (a : KeyAction τ) :
    Named (w.step cfg J a).issued := by
  cases a with
  | wait duration => exact h
  | rotate process audience => exact h
  | advanceLifecycle process => exact h
  | sign process audience payloads =>
    show Named (w.sign cfg process audience payloads).issued
    unfold KeyWorld.sign
    split
    · exact h
    · intro i hi
      rcases List.mem_append.mp hi with hold | hnew
      · exact h i hold
      · obtain ⟨x, -, rfl⟩ := List.mem_map.mp hnew
        exact Payload.sub_claims w.clock x
  | lookUp process token =>
    show Named (w.lookUp J process token).issued
    unfold KeyWorld.lookUp
    split <;> exact h

/-- Redis holds each key under its own number, for no more than five minutes to come. -/
structure Verifiers.Sound (v : Verifiers) : Prop where
  keys : v.keys.Sound
  named : Named v.keys.issued
  jwks : ∀ kid key e, v.jwks kid = some (key, e) → key = kid ∧ e ≤ v.keys.clock + jwkCacheTtl

theorem Verifiers.Sound.step (h : v.Sound) (hcfg : cfg.accessTtl = 900) (a : LimiterAction τ) :
    (v.step cfg J trustedProxy a).Sound := by
  cases a with
  | keys action =>
    refine ⟨h.keys.step hcfg action, h.named.step action, ?_⟩
    intro kid key e hentry
    obtain ⟨hkey, he⟩ := h.jwks kid key e hentry
    have hclock := @clock_le_step τ cfg v.keys J.toPyjwt action
    exact ⟨hkey, he.trans (Int.add_le_add_right hclock _)⟩
  | evict kid => exact ⟨h.keys, h.named, fun kid key e hentry => h.jwks kid key e (Expiring.erase_eq_some hentry)⟩
  | request process faults r =>
    show (v.deriveIdentity J trustedProxy process faults r).2.Sound
    have hjwks : ∀ kid key e,
        (v.deriveIdentity J trustedProxy process faults r).2.jwks kid = some (key, e) →
          key = kid ∧ e ≤ v.keys.clock + jwkCacheTtl := by
      intro kid key e hentry
      rcases jwks_deriveIdentity hentry with hold | ⟨hkey, he, -⟩
      · exact h.jwks kid key e hold
      · exact ⟨hkey, he.le⟩
    rcases keys_deriveIdentity cfg J trustedProxy v process faults r with hkeys | ⟨token, hkeys⟩
    · refine ⟨?_, ?_, ?_⟩
      · rw [hkeys]
        exact h.keys
      · rw [hkeys]
        exact h.named
      · rw [hkeys]
        exact hjwks
    · refine ⟨?_, ?_, ?_⟩
      · rw [hkeys]
        exact h.keys.step hcfg _
      · rw [hkeys]
        exact h.named.step _
      · rw [hkeys]
        intro kid key e hentry
        obtain ⟨hkey, he⟩ := hjwks kid key e hentry
        have hclock := @clock_le_step τ cfg v.keys J.toPyjwt (.lookUp process token)
        exact ⟨hkey, he.trans (Int.add_le_add_right hclock _)⟩

theorem Verifiers.sound_start (clock : Timestamp) : (Verifiers.start clock).Sound where
  keys := KeyWorld.sound_start clock
  named i hi := absurd hi List.not_mem_nil
  jwks kid key e hentry := by
    have hnone : (none : Option (ℕ × ℤ)) = some (key, e) := hentry
    cases hnone

/-- As long as Redis answers, a live access token has its key. -/
theorem Verifiers.Sound.getVerificationKey (h : v.Sound) {i : Issued} (hi : i ∈ v.keys.issued)
    (haccess : i.kind = .access) (hlive : v.keys.clock < i.claims.exp * 1000000) (J : Pyjwt τ)
    (process : ℕ) :
    i.claims.ValidFor i.claims.aud v.keys.clock ∧
      (v.getVerificationKey process ⟨false, false⟩ i.key).1 = some i.key := by
  have hdecode := @KeyWorld.Sound.decodeToken τ J v.keys h.keys i hi haccess hlive process
  obtain ⟨-, hvalid, hreadable⟩ := decodeToken_token.mp hdecode
  refine ⟨hvalid, ?_⟩
  unfold Verifiers.getVerificationKey
  rw [if_neg Bool.false_ne_true]
  cases hcached : v.jwks.get? v.keys.clock i.key with
  | some key =>
    obtain ⟨e, hentry, -⟩ := Expiring.get?_eq_some.mp hcached
    exact congrArg some (h.jwks i.key key e hentry).1
  | none =>
    obtain ⟨audience, hread⟩ := getVerificationKey_eq_ok.mpr hreadable
    dsimp only
    rw [hread]
    rfl

/-! ### A key that has been retired -/

/-- The key is retired, no process remembers it beyond the time `last`, and Redis keeps it for five
minutes more at most. -/
structure Evicted (kid : ℕ) (last : Timestamp) (v : Verifiers) : Prop where
  forgotten : Forgotten kid last v.keys
  jwks : ∀ key e, v.jwks kid = some (key, e) → e ≤ last + jwkCacheTtl

/-- Nobody reads a retired key but from a cache of its own. -/
theorem clock_le_of_readable {w : KeyWorld} {kid : ℕ} {last : Timestamp} (h : Forgotten kid last w)
    (hreadable : w.ring.Readable process w.clock kid) : w.clock ≤ last := by
  rcases hreadable with hcached | ⟨k, hk, hstatus, -⟩
  · obtain ⟨audience, haudience⟩ := Option.ne_none_iff_exists'.mp hcached
    obtain ⟨e, hentry, hnow⟩ := Expiring.get?_eq_some.mp haudience
    exact hnow.trans (h.cached process audience e hentry)
  · obtain ⟨k', hk', hretired⟩ := h.retired
    rw [hk] at hk'
    cases hk'
    exact absurd hretired hstatus

theorem Evicted.step {kid : ℕ} {last : Timestamp} (h : Evicted kid last v) (a : LimiterAction τ) :
    Evicted kid last (v.step cfg J trustedProxy a) := by
  cases a with
  | keys action => exact ⟨h.forgotten.step action, h.jwks⟩
  | evict kid' => exact ⟨h.forgotten, fun key e hentry => h.jwks key e (Expiring.erase_eq_some hentry)⟩
  | request process faults r =>
    show Evicted kid last (v.deriveIdentity J trustedProxy process faults r).2
    refine ⟨?_, ?_⟩
    · rcases keys_deriveIdentity cfg J trustedProxy v process faults r with hkeys | ⟨token, hkeys⟩
      · rw [hkeys]
        exact h.forgotten
      · rw [hkeys]
        exact h.forgotten.step _
    · intro key e hentry
      rcases jwks_deriveIdentity hentry with hold | ⟨-, rfl, hreadable⟩
      · exact h.jwks key e hold
      · exact Int.add_le_add_right (clock_le_of_readable h.forgotten hreadable) _

theorem Evicted.getVerificationKey {kid : ℕ} {last : Timestamp} (h : Evicted kid last v)
    (hpast : last + jwkCacheTtl < v.keys.clock) (process : ℕ) (faults : RedisFaults) :
    (v.getVerificationKey process faults kid).1 = none := by
  have httl : 0 ≤ jwkCacheTtl := by decide
  rcases v.getVerificationKey_cases process faults kid with ⟨key, hcached, -⟩ | ⟨hreadable, -⟩ | ⟨hnone, -⟩
  · obtain ⟨e, hentry, hnow⟩ := Expiring.get?_eq_some.mp hcached
    have he := h.jwks key e hentry
    linarith
  · have hle := clock_le_of_readable h.forgotten hreadable
    linarith
  · exact hnone

end

/-! ## Only the issued tokens count -/

/-- In every run: a request is counted under its address, or under the user of a token that was issued
and has not ended; a live access token is always recognised while Redis answers; and more than six
minutes after a key was retired no token that names it is. -/
theorem identity_genuine {τ : Type} (J : AnyAudience τ) {cfg : TokenSettings}
    (hcfg : cfg.accessTtl = 900) (trustedProxy : Bool) (clock : Timestamp)
    (actions : List (LimiterAction τ)) (process : ℕ) (r : LimitedRequest τ) :
    let v := run (Verifiers.step cfg J trustedProxy) (.start clock) actions
    (∀ faults, (∀ token ∈ r.bearer, Genuine J v token) →
      (v.deriveIdentity J trustedProxy process faults r).1 = ipIdentity trustedProxy r ∨
        ∃ i ∈ v.keys.issued, r.bearer = some (i.token J.toPyjwt) ∧
          i.claims.ValidFor i.claims.aud v.keys.clock ∧
          ∃ sub ∈ i.claims.sub,
            (v.deriveIdentity J trustedProxy process faults r).1 = userIdentity i.claims.aud sub) ∧
    (∀ i ∈ v.keys.issued, i.kind = .access → v.keys.clock < i.claims.exp * 1000000 →
      r.bearer = some (i.token J.toPyjwt) →
      ∃ sub ∈ i.claims.sub, (v.deriveIdentity J trustedProxy process ⟨false, false⟩ r).1
        = userIdentity i.claims.aud sub) ∧
    (∀ front later, actions = front ++ later → ∀ kid k,
      let retired := run (Verifiers.step cfg J trustedProxy) (.start clock) front
      retired.keys.ring.keys.get? kid = some k → k.status = .retired →
      retired.keys.clock + seconds 360 < v.keys.clock →
      (∀ token ∈ r.bearer, J.unverifiedKid token = some kid) →
      ∀ faults, (v.deriveIdentity J trustedProxy process faults r).1 = ipIdentity trustedProxy r) := by
  have hsound : ∀ actions, (run (Verifiers.step cfg J trustedProxy) (.start clock) actions).Sound := by
    intro actions
    exact run_invariant_of_step (fun v a h => h.step hcfg a) actions (Verifiers.sound_start clock)
  intro v
  refine ⟨?_, ?_, ?_⟩
  · intro faults hgenuine
    rcases identity_cases J trustedProxy v process faults r with
      haddress | ⟨token, kid, key, c, sub, hbearer, -, -, hdecode, hsub, hidentity⟩
    · exact .inl haddress
    · obtain ⟨i, hi, rfl⟩ := hgenuine token hbearer key c.aud v.keys.clock c hdecode
      rw [decode_token] at hdecode
      split_ifs at hdecode with hvalid
      cases hdecode
      exact .inr ⟨i, hi, hbearer, hvalid.2, sub, hsub, hidentity⟩
  · intro i hi haccess hlive hbearer
    obtain ⟨sub, hsub⟩ := (hsound actions).named i hi
    obtain ⟨hvalid, hkey⟩ := (hsound actions).getVerificationKey hi haccess hlive J.toPyjwt process
    exact ⟨sub, hsub, deriveIdentity_token hbearer hsub hvalid hkey⟩
  · intro front later hactions kid k retired hk hretired hlate hnames faults
    -- what the processes hold of the key runs out in a minute, and what Redis takes from them in five
    have hfront : Evicted kid (retired.keys.clock + seconds 60) retired := by
      refine ⟨⟨⟨k, hk, hretired⟩, ?_⟩, ?_⟩
      · intro process audience e hentry
        exact (hsound front).keys.caches.verification _ _ _ _ hentry
      · intro key e hentry
        have he := ((hsound front).jwks kid key e hentry).2
        have hminute : 0 ≤ seconds 60 := by decide
        linarith
    have hstep : ∀ last (v : Verifiers) (a : LimiterAction τ),
        Evicted kid last v → Evicted kid last (v.step cfg J trustedProxy a) := fun _ _ a h => h.step a
    have hend := run_invariant_of_step (hstep _) later hfront
    rw [← run_append, ← hactions] at hend
    have hsix : seconds 60 + jwkCacheTtl = seconds 360 := by decide
    have hnone := hend.getVerificationKey (by linarith) process faults
    rcases identity_cases J trustedProxy v process faults r with
      haddress | ⟨token, kid', key, c, sub, hbearer, hkid, hkey, -⟩
    · exact haddress
    · rw [hnames token hbearer] at hkid
      cases hkid
      rw [hnone] at hkey
      cases hkey

/-- PyJWT over symbols. -/
def AnyAudience.symbolic : AnyAudience SignedToken where
  toPyjwt := .symbolic
  decodeAny token key now := Pyjwt.symbolic.decode token key token.claims.aud now
  decodeAny_eq_some token key now c := by
    unfold Pyjwt.symbolic
    dsimp only
    constructor
    · intro h
      split_ifs at h with hkey
      cases h
      exact if_pos hkey
    · intro h
      split_ifs at h with hkey
      cases h
      exact if_pos hkey

/-- A request with the token, through a proxy. -/
def sampleRequest (token : SignedToken) : LimitedRequest SignedToken :=
  ⟨"Bearer", some token, some "41.90.64.7, 10.0.0.1", some "10.0.0.1"⟩

theorem bearer_sampleRequest (token : SignedToken) : (sampleRequest token).bearer = some token := by
  have hscheme : "Bearer".toLower = "bearer" := by decide +kernel
  exact if_pos hscheme

/-- The second token of the sample rotation, as it was issued. -/
def sampleIssued : Issued := ⟨.access, (samplePayload 2).claims defaultTokens 30000000, 30000000, 2⟩

/-- The rotation, and the retirement of the old key after it. -/
def sampleTraffic : List (LimiterAction SignedToken) :=
  (sampleRotation ++ sampleRetirement.take 3).map .keys

/-- A process that still has the retired key hands it to Redis. -/
def sampleLinger : List (LimiterAction SignedToken) :=
  [.keys (.wait 50000000), .request 1 ⟨false, false⟩ (sampleRequest (sampleIssued.token .symbolic)),
    .keys (.wait 310000001)]

theorem identity_genuine_sample :
    (∃ sub ∈ sampleIssued.claims.sub,
      ((run (Verifiers.step defaultTokens .symbolic true) (.start 0) (sampleTraffic.take 5)).deriveIdentity
        .symbolic true 4 ⟨false, false⟩ (sampleRequest (sampleIssued.token .symbolic))).1
          = userIdentity "tenant:umoja" sub) ∧
    ∀ c, ((run (Verifiers.step defaultTokens .symbolic true) (.start 0)
        (sampleTraffic ++ sampleLinger)).deriveIdentity .symbolic true 1 ⟨false, false⟩
          (sampleRequest ⟨c, 2, 2⟩)).1 = ipIdentity true (sampleRequest ⟨c, 2, 2⟩) := by
  constructor
  · exact (identity_genuine .symbolic rfl true 0 (sampleTraffic.take 5) 4
      (sampleRequest (sampleIssued.token .symbolic))).2.1 sampleIssued (by decide +kernel) rfl
        (by decide +kernel) (bearer_sampleRequest _)
  · intro c
    have hnames : ∀ token ∈ (sampleRequest ⟨c, 2, 2⟩).bearer,
        AnyAudience.symbolic.unverifiedKid token = some 2 := by
      intro token htoken
      rw [bearer_sampleRequest] at htoken
      cases htoken
      rfl
    exact (identity_genuine .symbolic rfl true 0 (sampleTraffic ++ sampleLinger) 1
      (sampleRequest ⟨c, 2, 2⟩)).2.2 sampleTraffic sampleLinger rfl 2
      ⟨2, .tenant, .retired, some 0, none⟩ (by decide +kernel) rfl (by decide +kernel)
      hnames ⟨false, false⟩

end SaccoPlatform.RateLimit
