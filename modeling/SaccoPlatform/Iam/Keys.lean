import SaccoPlatform.Lib.Expiring
import SaccoPlatform.Lib.Keyed
import SaccoPlatform.Iam.Tokens

/-!
# Signing keys

`KeyService` of `app/modules/iam/keys/service.py` over the committed rows of `jwt_signing_keys` and
the two caches that each process keeps. A key stays in a cache for a minute after it was read, so
that a process can go on signing with a key that another has already replaced.
-/

namespace SaccoPlatform.Iam

open Lib

/-! ## The service -/

/-- The `audience` column. Members and tenant users share a key. -/
inductive KeyAudience where
  | platform
  | tenant
deriving DecidableEq, Repr

inductive KeyStatus where
  | active
  | retiring
  | retired
deriving DecidableEq, Repr

/-- A row of `jwt_signing_keys`. -/
structure SigningKey where
  kid : ℕ
  audience : KeyAudience
  status : KeyStatus
  retiredAt : Option Timestamp
  deletedAt : Option Timestamp
deriving DecidableEq, Repr

/-- `_CACHE_TTL`. -/
def cacheTtl : ℤ := seconds 60

/-- `_RETIRE_AFTER_MINUTES`. -/
def retireAfter : ℤ := minutes 75

/-- `_DELETE_AFTER_DAYS`. -/
def deleteAfter : ℤ := minutes (7 * 24 * 60)

/-- `_active_key_cache` and `_verification_key_cache` of one process. -/
structure KeyCaches where
  active : Expiring KeyAudience ℕ
  verification : Expiring ℕ KeyAudience

/-- The rows, and the caches of every process. -/
structure Keyring where
  keys : Keyed SigningKey.kid
  caches : ℕ → KeyCaches

inductive KeyError where
  | noActiveKey (audience : KeyAudience)
  | multipleResultsFound
  | unknownKid (kid : ℕ)
  | retiredOrDeleted (kid : ℕ)
deriving DecidableEq, Repr

/-- The active keys of an audience. -/
def Keyring.activeKeys (r : Keyring) (audience : KeyAudience) : List SigningKey :=
  r.keys.rows.filter fun k => k.audience = audience ∧ k.status = .active

def Keyring.setCaches (r : Keyring) (process : ℕ) (caches : KeyCaches) : Keyring :=
  { r with caches := Function.update r.caches process caches }

/-- `get_active_signing_key` past the cache. -/
def Keyring.selectActive (r : Keyring) (audience : KeyAudience) : Except KeyError ℕ :=
  match (r.activeKeys audience).filter (·.deletedAt = none) with
  | [] => .error (.noActiveKey audience)
  | [k] => .ok k.kid
  | _ => .error .multipleResultsFound

/-- `get_active_signing_key`. -/
def Keyring.getActiveSigningKey (r : Keyring) (process : ℕ) (now : Timestamp)
    (audience : KeyAudience) : Except KeyError ℕ × Keyring :=
  match (r.caches process).active.get? now audience with
  | some kid => (.ok kid, r)
  | none =>
    match r.selectActive audience with
    | .error e => (.error e, r)
    | .ok kid => (.ok kid, r.setCaches process
        { r.caches process with
          active := (r.caches process).active.set audience kid (now + cacheTtl) })

/-- `get_verification_key` past the cache. -/
def Keyring.selectVerification (r : Keyring) (kid : ℕ) : Except KeyError KeyAudience :=
  match r.keys.get? kid with
  | none => .error (.unknownKid kid)
  | some k =>
    if k.status = .retired ∨ k.deletedAt ≠ none then .error (.retiredOrDeleted kid)
    else .ok k.audience

/-- `get_verification_key`. The public key is that of `kid`. -/
def Keyring.getVerificationKey (r : Keyring) (process : ℕ) (now : Timestamp) (kid : ℕ) :
    Except KeyError KeyAudience × Keyring :=
  match (r.caches process).verification.get? now kid with
  | some audience => (.ok audience, r)
  | none =>
    match r.selectVerification kid with
    | .error e => (.error e, r)
    | .ok audience => (.ok audience, r.setCaches process
        { r.caches process with
          verification := (r.caches process).verification.set kid audience (now + cacheTtl) })

/-- `generate_and_insert`. -/
def Keyring.generateAndInsert (r : Keyring) (audience : KeyAudience) : Keyring :=
  { r with
    keys := r.keys.insertNew
      (fun kid => ⟨kid, audience, .active, none, none⟩) fun _ => rfl }

/-- The current key starts to retire, and the process forgets what it has cached of it. -/
def Keyring.demote (r : Keyring) (process : ℕ) (now : Timestamp) (current : SigningKey) : Keyring :=
  { keys := r.keys.put { current with status := .retiring, retiredAt := some now }
    caches := Function.update r.caches process
      { active := (r.caches process).active.erase current.audience
        verification := (r.caches process).verification.erase current.kid } }

/-- `rotate`, with the commit that its caller makes. -/
def Keyring.rotate (r : Keyring) (process : ℕ) (now : Timestamp) (audience : KeyAudience) :
    Keyring :=
  match r.activeKeys audience with
  | [] => r.generateAndInsert audience
  | [current] => (r.demote process now current).generateAndInsert audience
  | _ => r

/-- The row has been retiring for long enough. -/
def SigningKey.RetireDue (k : SigningKey) (now : Timestamp) : Prop :=
  k.status = .retiring ∧ ∃ t ∈ k.retiredAt, t ≤ now - retireAfter

/-- The row has been retired for long enough. -/
def SigningKey.DeleteDue (k : SigningKey) (now : Timestamp) : Prop :=
  k.status = .retired ∧ k.deletedAt = none ∧ ∃ t ∈ k.retiredAt, t ≤ now - deleteAfter

instance (k : SigningKey) (now : Timestamp) : Decidable (k.RetireDue now) :=
  inferInstanceAs (Decidable (_ ∧ _))

instance (k : SigningKey) (now : Timestamp) : Decidable (k.DeleteDue now) :=
  inferInstanceAs (Decidable (_ ∧ _ ∧ _))

def SigningKey.retire (now : Timestamp) (k : SigningKey) : SigningKey :=
  if k.RetireDue now then { k with status := .retired } else k

def SigningKey.softDelete (now : Timestamp) (k : SigningKey) : SigningKey :=
  if k.DeleteDue now then { k with deletedAt := some now } else k

theorem SigningKey.kid_retire (now : Timestamp) (k : SigningKey) : (k.retire now).kid = k.kid := by
  unfold retire
  split <;> rfl

theorem SigningKey.kid_softDelete (now : Timestamp) (k : SigningKey) :
    (k.softDelete now).kid = k.kid := by
  unfold softDelete
  split <;> rfl

/-- One of the two loops of `advance_lifecycle`. -/
def Keyring.sweep (r : Keyring) (process : ℕ) (due : SigningKey → Bool)
    (f : SigningKey → SigningKey) (hf : ∀ k, (f k).kid = k.kid) : Keyring where
  keys := r.keys.mapRows f hf
  caches := Function.update r.caches process
    { r.caches process with
      verification := (r.caches process).verification.eraseAll
        ((r.keys.rows.filter due).map (·.kid)) }

/-- `advance_lifecycle`, with the commit that its caller makes. -/
def Keyring.advanceLifecycle (r : Keyring) (process : ℕ) (now : Timestamp) : Keyring :=
  (r.sweep process (·.RetireDue now) (·.retire now) (SigningKey.kid_retire now)).sweep
    process (·.DeleteDue now) (·.softDelete now) (SigningKey.kid_softDelete now)

/-! ## Runs -/

/-- The moment, the keys, and every token that was issued so far. -/
structure KeyWorld where
  clock : Timestamp
  ring : Keyring
  issued : List Issued

/-- The keys that the migration inserts. -/
def bootKeys : Keyed SigningKey.kid where
  rows := [⟨1, .platform, .active, none, none⟩, ⟨2, .tenant, .active, none, none⟩]
  nodup := by decide

def KeyWorld.start (clock : Timestamp) : KeyWorld :=
  ⟨clock, ⟨bootKeys, fun _ => ⟨.empty, .empty⟩⟩, []⟩

/-- `get_active_signing_key` at this moment. -/
def KeyWorld.fetchKey (w : KeyWorld) (process : ℕ) (audience : KeyAudience) :
    Except KeyError ℕ × KeyWorld :=
  ((w.ring.getActiveSigningKey process w.clock audience).1,
    { w with ring := (w.ring.getActiveSigningKey process w.clock audience).2 })

/-- Tokens are signed with the key. -/
def KeyWorld.issue (cfg : TokenSettings) (w : KeyWorld) (kid : ℕ) (payloads : List Payload) :
    KeyWorld :=
  { w with
    issued := w.issued ++ payloads.map fun x => ⟨x.kind, x.claims cfg w.clock, w.clock, kid⟩ }

/-- A process signs tokens with the key that it holds for active. -/
def KeyWorld.sign (cfg : TokenSettings) (w : KeyWorld) (process : ℕ) (audience : KeyAudience)
    (payloads : List Payload) : KeyWorld :=
  match (w.fetchKey process audience).1 with
  | .error _ => (w.fetchKey process audience).2
  | .ok kid => (w.fetchKey process audience).2.issue cfg kid payloads

/-- `get_unverified_kid`, `get_verification_key` and `decode_token`, one after the other. -/
def KeyWorld.decodeToken {τ : Type} (J : Pyjwt τ) (w : KeyWorld) (process : ℕ) (token : τ)
    (audience : String) : Option Claims :=
  (J.unverifiedKid token).bind fun kid =>
    match (w.ring.getVerificationKey process w.clock kid).1 with
    | .error _ => none
    | .ok _ => J.decode token kid audience w.clock

/-- The cache is filled on the way. -/
def KeyWorld.lookUp {τ : Type} (J : Pyjwt τ) (w : KeyWorld) (process : ℕ) (token : τ) : KeyWorld :=
  match J.unverifiedKid token with
  | none => w
  | some kid => { w with ring := (w.ring.getVerificationKey process w.clock kid).2 }

inductive KeyAction (τ : Type) where
  | wait (duration : ℕ)
  | rotate (process : ℕ) (audience : KeyAudience)
  | advanceLifecycle (process : ℕ)
  | sign (process : ℕ) (audience : KeyAudience) (payloads : List Payload)
  | lookUp (process : ℕ) (token : τ)

def KeyWorld.step {τ : Type} (cfg : TokenSettings) (J : Pyjwt τ) (w : KeyWorld) :
    KeyAction τ → KeyWorld
  | .wait duration => { w with clock := w.clock + duration }
  | .rotate process audience => { w with ring := w.ring.rotate process w.clock audience }
  | .advanceLifecycle process => { w with ring := w.ring.advanceLifecycle process w.clock }
  | .sign process audience payloads => w.sign cfg process audience payloads
  | .lookUp process token => w.lookUp J process token

/-! ## What becomes of a key -/

/-- The key is active, or the moment comes no later than `d` after it was replaced. -/
def SigningKey.UsableUntil (k : SigningKey) (moment d : ℤ) : Prop :=
  k.status = .active ∨ ∃ t, k.retiredAt = some t ∧ moment ≤ t + d

/-- The second row is what the first became at the time `now`: it is as active as before, it was
replaced just now, or it had been replaced earlier and the time of that stands. -/
def SigningKey.Becomes (now : Timestamp) (k k' : SigningKey) : Prop :=
  (k.status = .active ∧ k'.status = .active) ∨ (k.status = .active ∧ k'.retiredAt = some now) ∨
    (k.status ≠ .active ∧ k'.status ≠ .active ∧ k'.retiredAt = k.retiredAt ∧
      (k.status = .retired → k'.status = .retired))

theorem SigningKey.Becomes.refl (now : Timestamp) (k : SigningKey) : k.Becomes now k := by
  by_cases h : k.status = .active
  · exact .inl ⟨h, h⟩
  · exact .inr (.inr ⟨h, h, rfl, id⟩)

theorem SigningKey.Becomes.trans {now : Timestamp} {k k' k'' : SigningKey} (h : k.Becomes now k')
    (h' : k'.Becomes now k'') : k.Becomes now k'' := by
  rcases h with ⟨hk, hk'⟩ | ⟨hk, hnow⟩ | ⟨hk, hk', hsame, hgone⟩
  · rcases h' with ⟨-, hk''⟩ | ⟨-, hnow⟩ | ⟨hne, -⟩
    · exact .inl ⟨hk, hk''⟩
    · exact .inr (.inl ⟨hk, hnow⟩)
    · exact absurd hk' hne
  · rcases h' with ⟨-, hk''⟩ | ⟨-, hnow'⟩ | ⟨-, -, hsame, -⟩
    · exact .inl ⟨hk, hk''⟩
    · exact .inr (.inl ⟨hk, hnow'⟩)
    · exact .inr (.inl ⟨hk, hsame.trans hnow⟩)
  · rcases h' with ⟨heq, -⟩ | ⟨heq, -⟩ | ⟨-, hk'', hsame', hgone'⟩
    · exact absurd heq hk'
    · exact absurd heq hk'
    · exact .inr (.inr ⟨hk, hk'', hsame'.trans hsame, fun h => hgone' (hgone h)⟩)

theorem SigningKey.UsableUntil.becomes {now : Timestamp} {k k' : SigningKey} {moment d : ℤ}
    (h : k.UsableUntil moment d) (hk : k.Becomes now k') (hmoment : moment ≤ now + d) :
    k'.UsableUntil moment d := by
  rcases hk with ⟨-, hactive⟩ | ⟨-, hnow⟩ | ⟨hinactive, -, hsame, -⟩
  · exact .inl hactive
  · exact .inr ⟨now, hnow, hmoment⟩
  · obtain ⟨t, ht, hle⟩ := h.resolve_left hinactive
    exact .inr ⟨t, hsame.trans ht, hle⟩

theorem SigningKey.Becomes.retired {now : Timestamp} {k k' : SigningKey} (h : k.Becomes now k')
    (hretired : k.status = .retired) : k'.status = .retired := by
  rcases h with ⟨hactive, -⟩ | ⟨hactive, -⟩ | ⟨-, -, -, hgone⟩
  · rw [hretired] at hactive
    cases hactive
  · rw [hretired] at hactive
    cases hactive
  · exact hgone hretired

theorem SigningKey.becomes_retire (now : Timestamp) (k : SigningKey) :
    k.Becomes now (k.retire now) := by
  unfold retire
  by_cases h : k.RetireDue now
  · rw [if_pos h]
    have hinactive : k.status ≠ .active := by
      rw [h.1]
      decide
    exact .inr (.inr ⟨hinactive, nofun, rfl, fun _ => rfl⟩)
  · rw [if_neg h]
    exact .refl now k

theorem SigningKey.becomes_softDelete (now : Timestamp) (k : SigningKey) :
    k.Becomes now (k.softDelete now) := by
  unfold softDelete
  by_cases h : k.DeleteDue now
  · rw [if_pos h]
    have hinactive : k.status ≠ .active := by
      rw [h.1]
      decide
    exact .inr (.inr ⟨hinactive, hinactive, rfl, id⟩)
  · rw [if_neg h]
    exact .refl now k

/-- Every key is still there, and became what it could. -/
def Keyring.Keeps (now : Timestamp) (r r' : Keyring) : Prop :=
  ∀ kid k, r.keys.get? kid = some k → ∃ k', r'.keys.get? kid = some k' ∧ k.Becomes now k'

theorem Keyring.Keeps.trans {now : Timestamp} {r r' r'' : Keyring} (h : r.Keeps now r')
    (h' : r'.Keeps now r'') : r.Keeps now r'' := by
  intro kid k hk
  obtain ⟨k', hk', hbecomes⟩ := h kid k hk
  obtain ⟨k'', hk'', hbecomes'⟩ := h' kid k' hk'
  exact ⟨k'', hk'', hbecomes.trans hbecomes'⟩

theorem Keyring.keeps_of_keys_eq {now : Timestamp} {r r' : Keyring} (h : r'.keys = r.keys) :
    r.Keeps now r' := by
  intro kid k hk
  exact ⟨k, h ▸ hk, .refl now k⟩

theorem Keyring.keeps_generateAndInsert (now : Timestamp) (r : Keyring) (audience : KeyAudience) :
    r.Keeps now (r.generateAndInsert audience) := by
  intro kid k hk
  exact ⟨k, Keyed.get?_insertNew_of_some hk, .refl now k⟩

theorem Keyring.keeps_demote {now : Timestamp} {r : Keyring} (process : ℕ) {current : SigningKey}
    (hmem : current ∈ r.keys.rows) (hactive : current.status = .active) :
    r.Keeps now (r.demote process now current) := by
  intro kid k hk
  by_cases h : current.kid = kid
  · -- the row itself is the one that is replaced
    subst h
    have heq : k = current := Option.some.inj (hk.symm.trans (Keyed.get?_of_mem hmem))
    subst heq
    exact ⟨_, Keyed.get?_put_self hk rfl, .inr (.inl ⟨hactive, rfl⟩)⟩
  · refine ⟨k, ?_, .refl now k⟩
    show (r.keys.put _).get? kid = some k
    rw [Keyed.get?_put_of_ne _ (by exact h), hk]

theorem Keyring.keeps_sweep {now : Timestamp} (r : Keyring) (process : ℕ) (due : SigningKey → Bool)
    {f : SigningKey → SigningKey} (hf : ∀ k, (f k).kid = k.kid) (h : ∀ k : SigningKey, k.Becomes now (f k)) :
    r.Keeps now (r.sweep process due f hf) := by
  intro kid k hk
  refine ⟨f k, ?_, h k⟩
  show (r.keys.mapRows f hf).get? kid = _
  rw [Keyed.get?_mapRows, hk]
  rfl

theorem Keyring.keeps_advanceLifecycle (r : Keyring) (process : ℕ) (now : Timestamp) :
    r.Keeps now (r.advanceLifecycle process now) :=
  (r.keeps_sweep process _ _ (SigningKey.becomes_retire now)).trans
    (Keyring.keeps_sweep _ process _ _ (SigningKey.becomes_softDelete now))

theorem Keyring.mem_activeKeys {r : Keyring} {audience : KeyAudience} {k : SigningKey} :
    k ∈ r.activeKeys audience ↔ k ∈ r.keys.rows ∧ k.audience = audience ∧ k.status = .active := by
  simp [activeKeys]

/-- A rotation leaves everything as it is, or it inserts a key where no other is active, after it has
demoted the one that was. -/
theorem Keyring.rotate_cases (r : Keyring) (process : ℕ) (now : Timestamp) (audience : KeyAudience) :
    r.rotate process now audience = r ∨
    (r.activeKeys audience = [] ∧ r.rotate process now audience = r.generateAndInsert audience) ∨
    (∃ current, r.activeKeys audience = [current] ∧
      r.rotate process now audience =
        (r.demote process now current).generateAndInsert audience) := by
  unfold rotate
  split
  · rename_i h
    exact .inr (.inl ⟨h, rfl⟩)
  · rename_i current h
    exact .inr (.inr ⟨current, h, rfl⟩)
  · exact .inl rfl

theorem Keyring.keeps_rotate (r : Keyring) (process : ℕ) (now : Timestamp)
    (audience : KeyAudience) : r.Keeps now (r.rotate process now audience) := by
  rcases r.rotate_cases process now audience with h | ⟨-, h⟩ | ⟨current, hcurrent, h⟩
  · rw [h]
    exact keeps_of_keys_eq rfl
  · rw [h]
    exact r.keeps_generateAndInsert now audience
  · obtain ⟨hmem, -, hactive⟩ :=
      mem_activeKeys.mp (hcurrent ▸ List.mem_singleton_self current)
    rw [h]
    exact (keeps_demote process hmem hactive).trans (keeps_generateAndInsert now _ audience)

/-! ## What a process reads -/

theorem Keyring.selectActive_eq_ok {r : Keyring} {audience : KeyAudience} {kid : ℕ}
    (h : r.selectActive audience = .ok kid) :
    ∃ k, r.keys.get? kid = some k ∧ k.status = .active := by
  unfold selectActive at h
  split at h
  · cases h
  · rename_i k hone
    cases h
    have hmem : k ∈ (r.activeKeys audience).filter (·.deletedAt = none) :=
      hone ▸ List.mem_singleton_self k
    obtain ⟨hk, -, hactive⟩ := mem_activeKeys.mp (List.mem_of_mem_filter hmem)
    exact ⟨k, Keyed.get?_of_mem hk, hactive⟩
  · cases h

/-- The key comes from the cache, or it is read and the cache is filled, or there is none. -/
theorem Keyring.getActiveSigningKey_cases (r : Keyring) (process : ℕ) (now : Timestamp)
    (audience : KeyAudience) :
    (∃ kid, (r.caches process).active.get? now audience = some kid ∧
      r.getActiveSigningKey process now audience = (.ok kid, r)) ∨
    (∃ e, r.getActiveSigningKey process now audience = (.error e, r)) ∨
    (∃ kid, r.selectActive audience = .ok kid ∧
      r.getActiveSigningKey process now audience = (.ok kid, r.setCaches process
        { r.caches process with
          active := (r.caches process).active.set audience kid (now + cacheTtl) })) := by
  unfold getActiveSigningKey
  cases hcached : (r.caches process).active.get? now audience with
  | some kid => exact .inl ⟨kid, rfl, rfl⟩
  | none =>
    cases hselect : r.selectActive audience with
    | error e => exact .inr (.inl ⟨e, rfl⟩)
    | ok kid => exact .inr (.inr ⟨kid, rfl, rfl⟩)

theorem Keyring.getVerificationKey_cases (r : Keyring) (process : ℕ) (now : Timestamp) (kid : ℕ) :
    (∃ audience, (r.caches process).verification.get? now kid = some audience ∧
      r.getVerificationKey process now kid = (.ok audience, r)) ∨
    (∃ e, r.selectVerification kid = .error e ∧
      (r.caches process).verification.get? now kid = none ∧
      r.getVerificationKey process now kid = (.error e, r)) ∨
    (∃ audience, r.selectVerification kid = .ok audience ∧
      r.getVerificationKey process now kid = (.ok audience, r.setCaches process
        { r.caches process with
          verification := (r.caches process).verification.set kid audience (now + cacheTtl) })) := by
  unfold getVerificationKey
  cases hcached : (r.caches process).verification.get? now kid with
  | some audience => exact .inl ⟨audience, rfl, rfl⟩
  | none =>
    cases hselect : r.selectVerification kid with
    | error e => exact .inr (.inl ⟨e, rfl, rfl, rfl⟩)
    | ok audience => exact .inr (.inr ⟨audience, rfl, rfl⟩)

theorem Keyring.keys_getActiveSigningKey (r : Keyring) (process : ℕ) (now : Timestamp)
    (audience : KeyAudience) : (r.getActiveSigningKey process now audience).2.keys = r.keys := by
  rcases r.getActiveSigningKey_cases process now audience with ⟨_, -, h⟩ | ⟨_, h⟩ | ⟨_, -, h⟩
  · rw [h]
  · rw [h]
  · rw [h]
    rfl

theorem Keyring.keys_getVerificationKey (r : Keyring) (process : ℕ) (now : Timestamp) (kid : ℕ) :
    (r.getVerificationKey process now kid).2.keys = r.keys := by
  rcases r.getVerificationKey_cases process now kid with ⟨_, -, h⟩ | ⟨_, -, -, h⟩ | ⟨_, -, h⟩
  · rw [h]
  · rw [h]
  · rw [h]
    rfl

theorem Keyring.verification_getActiveSigningKey (r : Keyring) (process process' : ℕ)
    (now : Timestamp) (audience : KeyAudience) :
    ((r.getActiveSigningKey process now audience).2.caches process').verification
      = (r.caches process').verification := by
  rcases r.getActiveSigningKey_cases process now audience with ⟨_, -, hr⟩ | ⟨_, hr⟩ | ⟨_, -, hr⟩
  · rw [hr]
  · rw [hr]
  · rw [hr]
    by_cases hprocess : process' = process
    · subst hprocess
      simp only [setCaches, Function.update_self]
    · simp only [setCaches, Function.update_of_ne hprocess]

/-- What a verification adds to a cache. -/
theorem Keyring.verification_getVerificationKey {r : Keyring} {process process' : ℕ}
    {now : Timestamp} {kid kid' : ℕ} {audience : KeyAudience} {e : ℤ}
    (h : ((r.getVerificationKey process now kid).2.caches process').verification kid'
      = some (audience, e)) :
    (r.caches process').verification kid' = some (audience, e) ∨
      (kid' = kid ∧ e = now + cacheTtl ∧ r.selectVerification kid = .ok audience) := by
  rcases r.getVerificationKey_cases process now kid with
    ⟨_, -, hr⟩ | ⟨_, -, -, hr⟩ | ⟨audience', hselect, hr⟩
  · rw [hr] at h
    exact .inl h
  · rw [hr] at h
    exact .inl h
  · rw [hr] at h
    by_cases hprocess : process' = process
    · subst hprocess
      simp only [setCaches, Function.update_self] at h
      rcases Expiring.set_eq_some h with ⟨hkid, rfl, he⟩ | h
      · exact .inr ⟨hkid, he, hselect⟩
      · exact .inl h
    · simp only [setCaches, Function.update_of_ne hprocess] at h
      exact .inl h

theorem Keyring.active_getVerificationKey (r : Keyring) (process process' : ℕ) (now : Timestamp)
    (kid : ℕ) :
    ((r.getVerificationKey process now kid).2.caches process').active
      = (r.caches process').active := by
  rcases r.getVerificationKey_cases process now kid with
    ⟨_, -, hr⟩ | ⟨_, -, -, hr⟩ | ⟨_, -, hr⟩
  · rw [hr]
  · rw [hr]
  · rw [hr]
    by_cases hprocess : process' = process
    · subst hprocess
      simp only [setCaches, Function.update_self]
    · simp only [setCaches, Function.update_of_ne hprocess]

/-! ## What a process can verify -/

/-- The process can verify with the key: it has read it within the minute, or the row is still good. -/
def Keyring.Readable (r : Keyring) (process : ℕ) (now : Timestamp) (kid : ℕ) : Prop :=
  (r.caches process).verification.get? now kid ≠ none ∨
    ∃ k, r.keys.get? kid = some k ∧ k.status ≠ .retired ∧ k.deletedAt = none

theorem getVerificationKey_eq_ok {r : Keyring} {process : ℕ} {now : Timestamp} {kid : ℕ} :
    (∃ audience, (r.getVerificationKey process now kid).1 = .ok audience) ↔
      r.Readable process now kid := by
  constructor
  · rintro ⟨audience, haudience⟩
    rcases r.getVerificationKey_cases process now kid with
      ⟨_, hcached, -⟩ | ⟨_, -, -, hr⟩ | ⟨_, hselect, -⟩
    · refine .inl ?_
      rw [hcached]
      nofun
    · rw [hr] at haudience
      cases haudience
    · unfold Keyring.selectVerification at hselect
      split at hselect
      · cases hselect
      · rename_i k hk
        split_ifs at hselect with hgone
        exact .inr ⟨k, hk, by simpa using hgone⟩
  · intro h
    rcases r.getVerificationKey_cases process now kid with
      ⟨audience, -, hr⟩ | ⟨_, hselect, hnone, -⟩ | ⟨audience, -, hr⟩
    · exact ⟨audience, by rw [hr]⟩
    · rcases h with hcached | ⟨k, hk, hstatus, hdeleted⟩
      · exact absurd hnone hcached
      · unfold Keyring.selectVerification at hselect
        rw [hk] at hselect
        simp [hstatus, hdeleted] at hselect
    · exact ⟨audience, by rw [hr]⟩

section

variable {τ : Type} {J : Pyjwt τ} {process : ℕ}

/-- A token that was issued is decoded to its claims, or not at all. -/
theorem decodeToken_token {w : KeyWorld} {i : Issued} {audience : String} {c : Claims} :
    w.decodeToken J process (i.token J) audience = some c ↔
      c = i.claims ∧ i.claims.ValidFor audience w.clock ∧ w.ring.Readable process w.clock i.key := by
  unfold KeyWorld.decodeToken
  rw [unverifiedKid_token, Option.bind_some, ← getVerificationKey_eq_ok]
  split
  · rename_i e he
    simp [he]
  · rename_i audience' haudience'
    rw [decode_token]
    by_cases hvalid : i.claims.ValidFor audience w.clock
    · simp [hvalid, haudience', eq_comm]
    · simp [hvalid]

/-- What a bearer decodes to was signed with the key that it names. -/
theorem decode_of_decodeToken {w : KeyWorld} {bearer : τ} {audience : String} {c : Claims}
    (h : w.decodeToken J process bearer audience = some c) :
    ∃ kid, J.decode bearer kid audience w.clock = some c := by
  unfold KeyWorld.decodeToken at h
  obtain ⟨kid, -, hkid⟩ := Option.bind_eq_some_iff.mp h
  split at hkid
  · cases hkid
  · exact ⟨kid, hkid⟩

end

end SaccoPlatform.Iam
