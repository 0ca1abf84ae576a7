import SaccoPlatform.Lib.Runs
import SaccoPlatform.Iam.Keys
import Mathlib.Tactic.Linarith

/-!
# Key rotation

A process can sign with a key for a minute after another has replaced it, and the token then lives
for a quarter of an hour. The replaced key is retired no earlier than 75 minutes after, so that no
access token outlives its key; and once it is retired no process can read it again, so that a minute
later nobody accepts it.
-/

namespace SaccoPlatform.Iam

open Lib

/-! ## What every run keeps -/

/-- The committed rows at the time `now`. -/
structure RowsSound (keys : Keyed SigningKey.kid) (now : Timestamp) : Prop where
  unique : ∀ k ∈ keys.rows, ∀ k' ∈ keys.rows, k.status = .active → k'.status = .active →
    k.audience = k'.audience → k = k'
  undeleted : ∀ k ∈ keys.rows, k.status ≠ .retired → k.deletedAt = none
  retired : ∀ k ∈ keys.rows, k.status = .retired →
    ∃ t, k.retiredAt = some t ∧ t + retireAfter ≤ now

/-- The caches at the time `now`: no entry outlives the minute, and a key to sign with was active when
it was read. -/
structure CachesSound (r : Keyring) (now : Timestamp) : Prop where
  signing : ∀ process audience kid e,
    (r.caches process).active audience = some (kid, e) →
      e ≤ now + cacheTtl ∧ ∃ k, r.keys.get? kid = some k ∧ k.UsableUntil e cacheTtl
  verification : ∀ process kid audience e,
    (r.caches process).verification kid = some (audience, e) → e ≤ now + cacheTtl

/-- Nothing is in a cache that was not there before. -/
def Keyring.Forgets (r r' : Keyring) : Prop :=
  ∀ process,
    (∀ audience e, (r'.caches process).active audience = some e →
      (r.caches process).active audience = some e) ∧
    (∀ kid e, (r'.caches process).verification kid = some e →
      (r.caches process).verification kid = some e)

theorem CachesSound.of_forgets {r r' : Keyring} {now : Timestamp} (h : CachesSound r now)
    (hkeeps : r.Keeps now r') (hforgets : r.Forgets r') : CachesSound r' now where
  signing process audience kid e hentry := by
    obtain ⟨he, k, hk, husable⟩ := h.signing process audience kid e ((hforgets process).1 _ _ hentry)
    obtain ⟨k', hk', hbecomes⟩ := hkeeps kid k hk
    exact ⟨he, k', hk', husable.becomes hbecomes he⟩
  verification process kid audience e hentry :=
    h.verification process kid audience e ((hforgets process).2 _ _ hentry)

theorem CachesSound.mono {r : Keyring} {now now' : Timestamp} (h : CachesSound r now)
    (hle : now ≤ now') : CachesSound r now' where
  signing process audience kid e hentry := by
    obtain ⟨he, hk⟩ := h.signing process audience kid e hentry
    exact ⟨by linarith, hk⟩
  verification process kid audience e hentry := by
    have he := h.verification process kid audience e hentry
    linarith

/-- A process replaces its caches: the others are as they were. -/
theorem Keyring.forgets_update {r : Keyring} {process : ℕ} {caches : KeyCaches}
    {keys : Keyed SigningKey.kid}
    (hactive : ∀ audience e, caches.active audience = some e →
      (r.caches process).active audience = some e)
    (hverification : ∀ kid e, caches.verification kid = some e →
      (r.caches process).verification kid = some e) :
    r.Forgets ⟨keys, Function.update r.caches process caches⟩ := by
  intro process'
  by_cases h : process' = process
  · subst h
    dsimp only
    rw [Function.update_self]
    exact ⟨hactive, hverification⟩
  · dsimp only
    rw [Function.update_of_ne h]
    exact ⟨fun _ _ he => he, fun _ _ he => he⟩

theorem Keyring.forgets_demote (r : Keyring) (process : ℕ) (now : Timestamp)
    (current : SigningKey) : r.Forgets (r.demote process now current) :=
  forgets_update (fun _ _ h => Expiring.erase_eq_some h) fun _ _ h => Expiring.erase_eq_some h

theorem Keyring.forgets_sweep (r : Keyring) (process : ℕ) (due : SigningKey → Bool)
    {f : SigningKey → SigningKey} (hf : ∀ k, (f k).kid = k.kid) :
    r.Forgets (r.sweep process due f hf) :=
  forgets_update (fun _ _ h => h) fun _ _ h => Expiring.eraseAll_eq_some h

theorem Keyring.forgets_rotate (r : Keyring) (process : ℕ) (now : Timestamp)
    (audience : KeyAudience) : r.Forgets (r.rotate process now audience) := by
  rcases r.rotate_cases process now audience with h | ⟨-, h⟩ | ⟨current, -, h⟩
  · rw [h]
    exact fun _ => ⟨fun _ _ he => he, fun _ _ he => he⟩
  · rw [h]
    exact fun _ => ⟨fun _ _ he => he, fun _ _ he => he⟩
  · rw [h]
    exact r.forgets_demote process now current

theorem Keyring.forgets_advanceLifecycle (r : Keyring) (process : ℕ) (now : Timestamp) :
    r.Forgets (r.advanceLifecycle process now) := by
  intro process'
  have hretire := r.forgets_sweep process (·.RetireDue now) (SigningKey.kid_retire now) process'
  have hdelete := forgets_sweep (r.sweep process (·.RetireDue now) (·.retire now)
    (SigningKey.kid_retire now)) process (·.DeleteDue now) (SigningKey.kid_softDelete now) process'
  exact ⟨fun a e he => hretire.1 a e (hdelete.1 a e he),
    fun kid e he => hretire.2 kid e (hdelete.2 kid e he)⟩

/-! ### The rows -/

theorem RowsSound.mono {keys : Keyed SigningKey.kid} {now now' : Timestamp} (h : RowsSound keys now)
    (hle : now ≤ now') : RowsSound keys now' where
  unique := h.unique
  undeleted := h.undeleted
  retired k hk hretired := by
    obtain ⟨t, ht, hpast⟩ := h.retired k hk hretired
    exact ⟨t, ht, by linarith⟩

theorem RowsSound.generateAndInsert {r : Keyring} {now : Timestamp} {audience : KeyAudience}
    (h : RowsSound r.keys now) (hnone : r.activeKeys audience = []) :
    RowsSound (r.generateAndInsert audience).keys now := by
  have hold : ∀ k ∈ r.keys.rows, k.status = .active → k.audience ≠ audience := by
    intro k hk hactive haudience
    have hmem := Keyring.mem_activeKeys.mpr ⟨hk, haudience, hactive⟩
    rw [hnone] at hmem
    cases hmem
  have hrows : ∀ k ∈ (r.generateAndInsert audience).keys.rows,
      k ∈ r.keys.rows ∨ k = ⟨r.keys.fresh, audience, .active, none, none⟩ := by
    intro k hk
    rcases List.mem_append.mp hk with hk | hk
    · exact .inl hk
    · exact .inr (List.mem_singleton.mp hk)
  refine ⟨?_, ?_, ?_⟩
  · intro k hk k' hk' hactive hactive' haudience
    rcases hrows k hk with hk | rfl <;> rcases hrows k' hk' with hk' | rfl
    · exact h.unique k hk k' hk' hactive hactive' haudience
    · exact absurd haudience (hold k hk hactive)
    · exact absurd haudience.symm (hold k' hk' hactive')
    · rfl
  · intro k hk hne
    rcases hrows k hk with hk | rfl
    · exact h.undeleted k hk hne
    · rfl
  · intro k hk hretired
    rcases hrows k hk with hk | rfl
    · exact h.retired k hk hretired
    · cases hretired

theorem RowsSound.demote {r : Keyring} {now : Timestamp} (process : ℕ) {current : SigningKey}
    (h : RowsSound r.keys now) (hmem : current ∈ r.keys.rows) (hactive : current.status = .active) :
    RowsSound (r.demote process now current).keys now := by
  have hrows : ∀ k ∈ (r.demote process now current).keys.rows,
      k ∈ r.keys.rows ∨ k = { current with status := .retiring, retiredAt := some now } := by
    intro k hk
    rcases Keyed.mem_put.mp hk with ⟨hk, -⟩ | ⟨hk, -⟩
    · exact .inl hk
    · exact .inr hk
  refine ⟨?_, ?_, ?_⟩
  · intro k hk k' hk' hk_active hk_active' haudience
    rcases hrows k hk with hk | rfl
    · rcases hrows k' hk' with hk' | rfl
      · exact h.unique k hk k' hk' hk_active hk_active' haudience
      · cases hk_active'
    · cases hk_active
  · intro k hk hne
    rcases hrows k hk with hk | rfl
    · exact h.undeleted k hk hne
    · refine h.undeleted current hmem ?_
      rw [hactive]
      decide
  · intro k hk hretired
    rcases hrows k hk with hk | rfl
    · exact h.retired k hk hretired
    · cases hretired

/-- The demoted key was the only one. -/
theorem Keyring.activeKeys_demote {r : Keyring} (process : ℕ) (now : Timestamp)
    {audience : KeyAudience} {current : SigningKey} (h : r.activeKeys audience = [current]) :
    (r.demote process now current).activeKeys audience = [] := by
  rw [List.eq_nil_iff_forall_not_mem]
  intro k hk
  obtain ⟨hmem, haudience, hactive⟩ := mem_activeKeys.mp hk
  rcases Keyed.mem_put.mp hmem with ⟨hk, hne⟩ | ⟨rfl, -⟩
  · have heq : k ∈ [current] := h ▸ mem_activeKeys.mpr ⟨hk, haudience, hactive⟩
    rw [List.mem_singleton.mp heq] at hne
    exact hne rfl
  · cases hactive

theorem RowsSound.rotate {r : Keyring} {now : Timestamp} (process : ℕ) (audience : KeyAudience)
    (h : RowsSound r.keys now) : RowsSound (r.rotate process now audience).keys now := by
  rcases r.rotate_cases process now audience with hr | ⟨hnone, hr⟩ | ⟨current, hone, hr⟩
  · rw [hr]
    exact h
  · rw [hr]
    exact h.generateAndInsert hnone
  · obtain ⟨hmem, -, hactive⟩ :=
      Keyring.mem_activeKeys.mp (hone ▸ List.mem_singleton_self current)
    rw [hr]
    exact (h.demote process hmem hactive).generateAndInsert (Keyring.activeKeys_demote process now hone)

/-- A sweep that leaves active keys alone, deletes retired keys only and retires those whose time has
come. -/
theorem RowsSound.mapRows {keys : Keyed SigningKey.kid} {now : Timestamp}
    {f : SigningKey → SigningKey} (hf : ∀ k, (f k).kid = k.kid) (h : RowsSound keys now)
    (hactive : ∀ k, (f k).status = .active → f k = k)
    (hdeleted : ∀ k, (f k).status ≠ .retired → k.status ≠ .retired ∧ (f k).deletedAt = k.deletedAt)
    (hretired : ∀ k, (f k).status = .retired →
      (k.status = .retired ∧ (f k).retiredAt = k.retiredAt) ∨
        ∃ t, (f k).retiredAt = some t ∧ t + retireAfter ≤ now) :
    RowsSound (keys.mapRows f hf) now := by
  refine ⟨?_, ?_, ?_⟩
  · intro _ hmem _ hmem' hk_active hk_active' haudience
    obtain ⟨k, hk, rfl⟩ := List.mem_map.mp hmem
    obtain ⟨k', hk', rfl⟩ := List.mem_map.mp hmem'
    rw [hactive k hk_active, hactive k' hk_active'] at *
    exact h.unique k hk k' hk' hk_active hk_active' haudience
  · intro _ hmem hne
    obtain ⟨k, hk, rfl⟩ := List.mem_map.mp hmem
    obtain ⟨hne', hsame⟩ := hdeleted k hne
    rw [hsame]
    exact h.undeleted k hk hne'
  · intro _ hmem hstatus
    obtain ⟨k, hk, rfl⟩ := List.mem_map.mp hmem
    rcases hretired k hstatus with ⟨hstatus', hsame⟩ | hpast
    · rw [hsame]
      exact h.retired k hk hstatus'
    · exact hpast

theorem RowsSound.advanceLifecycle {r : Keyring} {now : Timestamp} (process : ℕ)
    (h : RowsSound r.keys now) : RowsSound (r.advanceLifecycle process now).keys now := by
  -- two sweeps over the rows: verify-only keys retire, retired ones are marked as deleted
  have hswept : RowsSound (r.keys.mapRows (·.retire now) (SigningKey.kid_retire now)) now := by
    refine h.mapRows (SigningKey.kid_retire now) ?_ ?_ ?_
    · intro k hk
      unfold SigningKey.retire at hk ⊢
      split_ifs at hk ⊢
      rfl
    · intro k hk
      unfold SigningKey.retire at hk ⊢
      split_ifs at hk ⊢
      · exact absurd rfl hk
      · exact ⟨hk, rfl⟩
    · intro k hk
      unfold SigningKey.retire at hk ⊢
      split_ifs at hk ⊢ with hdue
      · obtain ⟨-, t, ht, hle⟩ := hdue
        exact .inr ⟨t, ht, by linarith⟩
      · exact .inl ⟨hk, rfl⟩
  refine hswept.mapRows (SigningKey.kid_softDelete now) ?_ ?_ ?_
  · intro k hk
    unfold SigningKey.softDelete at hk ⊢
    split_ifs at hk ⊢ with hdue
    · rw [hdue.1] at hk
      cases hk
    · rfl
  · intro k hk
    unfold SigningKey.softDelete at hk ⊢
    split_ifs at hk ⊢ with hdue
    · exact absurd hdue.1 hk
    · exact ⟨hk, rfl⟩
  · intro k hk
    unfold SigningKey.softDelete at hk ⊢
    split_ifs at hk ⊢ with hdue
    · exact .inl ⟨hdue.1, rfl⟩
    · exact .inl ⟨hk, rfl⟩

theorem CachesSound.getActiveSigningKey {r : Keyring} {now : Timestamp} (h : CachesSound r now)
    (process : ℕ) (audience : KeyAudience) :
    CachesSound (r.getActiveSigningKey process now audience).2 now := by
  rcases r.getActiveSigningKey_cases process now audience with
    ⟨_, -, hr⟩ | ⟨_, hr⟩ | ⟨kid, hselect, hr⟩
  · rw [hr]
    exact h
  · rw [hr]
    exact h
  · rw [hr]
    obtain ⟨k, hk, hactive⟩ := Keyring.selectActive_eq_ok hselect
    refine ⟨?_, ?_⟩
    · intro process' audience' kid' e hentry
      by_cases hprocess : process' = process
      · subst hprocess
        simp only [Keyring.setCaches, Function.update_self] at hentry
        rcases Expiring.set_eq_some hentry with ⟨-, rfl, rfl⟩ | hentry
        · exact ⟨le_rfl, k, hk, .inl hactive⟩
        · exact h.signing process' audience' kid' e hentry
      · simp only [Keyring.setCaches, Function.update_of_ne hprocess] at hentry
        exact h.signing process' audience' kid' e hentry
    · intro process' kid' audience' e hentry
      by_cases hprocess : process' = process
      · subst hprocess
        simp only [Keyring.setCaches, Function.update_self] at hentry
        exact h.verification process' kid' audience' e hentry
      · simp only [Keyring.setCaches, Function.update_of_ne hprocess] at hentry
        exact h.verification process' kid' audience' e hentry

theorem CachesSound.getVerificationKey {r : Keyring} {now : Timestamp} (h : CachesSound r now)
    (process kid : ℕ) : CachesSound (r.getVerificationKey process now kid).2 now := by
  refine ⟨?_, ?_⟩
  · intro process' audience kid' e hentry
    rw [Keyring.active_getVerificationKey] at hentry
    rw [Keyring.keys_getVerificationKey]
    exact h.signing process' audience kid' e hentry
  · intro process' kid' audience e hentry
    rcases Keyring.verification_getVerificationKey hentry with hentry | ⟨-, rfl, -⟩
    · exact h.verification process' kid' audience e hentry
    · exact le_rfl

/-! ### The tokens -/

/-- The time for which a token can be in use after its key was replaced. -/
def tokenReach : ℤ := cacheTtl + seconds 900

/-- The token was issued in the past, and its key was in use until shortly before. -/
structure IssuedSound (w : KeyWorld) (i : Issued) : Prop where
  begun : i.claims.iat * 1000000 ≤ w.clock
  ends : i.claims.exp * 1000000 ≤ w.clock + seconds 900
  usable : ∃ k, w.ring.keys.get? i.key = some k ∧
    k.UsableUntil (i.claims.exp * 1000000) tokenReach

structure KeyWorld.Sound (w : KeyWorld) : Prop where
  rows : RowsSound w.ring.keys w.clock
  caches : CachesSound w.ring w.clock
  issued : ∀ i ∈ w.issued, i.kind = .access → IssuedSound w i

theorem IssuedSound.of_keeps {w w' : KeyWorld} {i : Issued} (h : IssuedSound w i)
    (hclock : w'.clock = w.clock) (hkeeps : w.ring.Keeps w.clock w'.ring) : IssuedSound w' i where
  begun := hclock ▸ h.begun
  ends := hclock ▸ h.ends
  usable := by
    obtain ⟨k, hk, husable⟩ := h.usable
    obtain ⟨k', hk', hbecomes⟩ := hkeeps i.key k hk
    refine ⟨k', hk', husable.becomes hbecomes ?_⟩
    have hends := h.ends
    unfold tokenReach cacheTtl seconds
    unfold seconds at hends
    omega

/-- The key that a process signs with was active a minute ago. -/
theorem CachesSound.usable {r : Keyring} {now : Timestamp} (h : CachesSound r now) {process : ℕ}
    {audience : KeyAudience} {kid : ℕ}
    (hkid : (r.getActiveSigningKey process now audience).1 = .ok kid) :
    ∃ k, r.keys.get? kid = some k ∧ k.UsableUntil now cacheTtl := by
  rcases r.getActiveSigningKey_cases process now audience with
    ⟨kid', hcached, hr⟩ | ⟨_, hr⟩ | ⟨kid', hselect, hr⟩
  · rw [hr] at hkid
    cases hkid
    obtain ⟨e, hentry, hnow⟩ := Expiring.get?_eq_some.mp hcached
    obtain ⟨-, k, hk, husable⟩ := h.signing process audience kid e hentry
    refine ⟨k, hk, ?_⟩
    rcases husable with hactive | ⟨t, ht, he⟩
    · exact .inl hactive
    · exact .inr ⟨t, ht, hnow.trans he⟩
  · rw [hr] at hkid
    cases hkid
  · rw [hr] at hkid
    cases hkid
    obtain ⟨k, hk, hactive⟩ := Keyring.selectActive_eq_ok hselect
    exact ⟨k, hk, .inl hactive⟩

theorem Payload.claims_of_access (cfg : TokenSettings) (now : Timestamp) {x : Payload}
    (h : x.kind = .access) :
    (x.claims cfg now).iat = now / 1000000 ∧
      (x.claims cfg now).exp = (now + seconds cfg.accessTtl) / 1000000 := by
  cases x with
  | access => exact ⟨rfl, rfl⟩
  | refresh => cases h

section

variable {τ : Type} {cfg : TokenSettings} {J : Pyjwt τ} {w : KeyWorld}

theorem KeyWorld.Sound.wait (h : w.Sound) (duration : ℕ) :
    KeyWorld.Sound { w with clock := w.clock + duration } where
  rows := h.rows.mono (by simp)
  caches := h.caches.mono (by simp)
  issued i hi haccess := by
    obtain ⟨hbegun, hends, husable⟩ := h.issued i hi haccess
    have hduration : (0 : ℤ) ≤ duration := Int.natCast_nonneg duration
    exact ⟨by dsimp only; linarith, by dsimp only; linarith, husable⟩

/-- A step that changes the rows and forgets entries of the caches. -/
theorem KeyWorld.Sound.of_keeps {ring : Keyring} (h : w.Sound) (hrows : RowsSound ring.keys w.clock)
    (hkeeps : w.ring.Keeps w.clock ring) (hforgets : w.ring.Forgets ring) :
    KeyWorld.Sound { w with ring := ring } where
  rows := hrows
  caches := h.caches.of_forgets hkeeps hforgets
  issued i hi haccess := (h.issued i hi haccess).of_keeps rfl hkeeps

theorem KeyWorld.Sound.lookUp (h : w.Sound) (process : ℕ) (token : τ) :
    (w.lookUp J process token).Sound := by
  unfold KeyWorld.lookUp
  split
  · exact h
  · rename_i kid _
    have hkeys := w.ring.keys_getVerificationKey process w.clock kid
    refine ⟨?_, h.caches.getVerificationKey process kid, ?_⟩
    · dsimp only
      rw [hkeys]
      exact h.rows
    · intro i hi haccess
      exact (h.issued i hi haccess).of_keeps rfl (Keyring.keeps_of_keys_eq hkeys)

theorem KeyWorld.Sound.fetchKey (h : w.Sound) (process : ℕ) (audience : KeyAudience) :
    (w.fetchKey process audience).2.Sound := by
  have hkeys := w.ring.keys_getActiveSigningKey process w.clock audience
  refine ⟨?_, h.caches.getActiveSigningKey process audience, ?_⟩
  · show RowsSound (w.ring.getActiveSigningKey process w.clock audience).2.keys w.clock
    rw [hkeys]
    exact h.rows
  · intro i hi haccess
    exact (h.issued i hi haccess).of_keeps rfl (Keyring.keeps_of_keys_eq hkeys)

/-- Tokens are signed with a key that was active a minute ago. -/
theorem KeyWorld.Sound.issue (h : w.Sound) (hcfg : cfg.accessTtl = 900) {kid : ℕ} {k : SigningKey}
    (hk : w.ring.keys.get? kid = some k) (husable : k.UsableUntil w.clock cacheTtl)
    (payloads : List Payload) : (w.issue cfg kid payloads).Sound := by
  refine ⟨h.rows, h.caches, ?_⟩
  intro i hi haccess
  rcases List.mem_append.mp hi with hi | hi
  · obtain ⟨hbegun, hends, hi_usable⟩ := h.issued i hi haccess
    exact ⟨hbegun, hends, hi_usable⟩
  · obtain ⟨x, -, rfl⟩ := List.mem_map.mp hi
    obtain ⟨hiat, hexp⟩ := Payload.claims_of_access cfg w.clock haccess
    rw [hcfg] at hexp
    -- cut to whole seconds, the token ends no later than 900 seconds from now
    have hends : (x.claims cfg w.clock).exp * 1000000 ≤ w.clock + seconds 900 := by
      rw [hexp]
      exact Int.ediv_mul_le _ (by decide)
    refine ⟨?_, hends, k, hk, ?_⟩
    · show (x.claims cfg w.clock).iat * 1000000 ≤ w.clock
      rw [hiat]
      exact Int.ediv_mul_le _ (by decide)
    · rcases husable with hactive | ⟨t, ht, hclock⟩
      · exact .inl hactive
      · refine .inr ⟨t, ht, ?_⟩
        show (x.claims cfg w.clock).exp * 1000000 ≤ t + (cacheTtl + seconds 900)
        linarith

theorem KeyWorld.Sound.sign (h : w.Sound) (hcfg : cfg.accessTtl = 900) (process : ℕ)
    (audience : KeyAudience) (payloads : List Payload) :
    (w.sign cfg process audience payloads).Sound := by
  unfold KeyWorld.sign
  split
  · exact h.fetchKey process audience
  · rename_i kid hkid
    obtain ⟨k, hk, husable⟩ := h.caches.usable hkid
    refine (h.fetchKey process audience).issue hcfg ?_ husable payloads
    show (w.ring.getActiveSigningKey process w.clock audience).2.keys.get? kid = some k
    rw [Keyring.keys_getActiveSigningKey]
    exact hk

theorem KeyWorld.Sound.step (h : w.Sound) (hcfg : cfg.accessTtl = 900) (a : KeyAction τ) :
    (w.step cfg J a).Sound := by
  cases a with
  | wait duration => exact h.wait duration
  | rotate process audience =>
    exact h.of_keeps (h.rows.rotate process audience) (w.ring.keeps_rotate process w.clock audience)
      (w.ring.forgets_rotate process w.clock audience)
  | advanceLifecycle process =>
    exact h.of_keeps (h.rows.advanceLifecycle process)
      (w.ring.keeps_advanceLifecycle process w.clock)
      (w.ring.forgets_advanceLifecycle process w.clock)
  | sign process audience payloads => exact h.sign hcfg process audience payloads
  | lookUp process token => exact h.lookUp process token

theorem rowsSound_bootKeys (now : Timestamp) : RowsSound bootKeys now where
  unique := by decide
  undeleted := by decide
  retired k hk hretired := by
    have hactive : ∀ k ∈ bootKeys.rows, k.status = .active := by decide
    rw [hactive k hk] at hretired
    cases hretired

theorem KeyWorld.sound_start (clock : Timestamp) : (KeyWorld.start clock).Sound where
  rows := rowsSound_bootKeys clock
  caches := ⟨nofun, nofun⟩
  issued := nofun

/-! ### A key that has been retired -/

/-- The key is retired, and no process remembers it beyond the time `last`. -/
structure Forgotten (kid : ℕ) (last : Timestamp) (w : KeyWorld) : Prop where
  retired : ∃ k, w.ring.keys.get? kid = some k ∧ k.status = .retired
  cached : ∀ process audience e,
    (w.ring.caches process).verification kid = some (audience, e) → e ≤ last

theorem Forgotten.of_keeps {kid : ℕ} {last : Timestamp} {ring : Keyring} (h : Forgotten kid last w)
    (hkeeps : w.ring.Keeps w.clock ring) (hforgets : w.ring.Forgets ring) :
    Forgotten kid last { w with ring := ring } where
  retired := by
    obtain ⟨k, hk, hretired⟩ := h.retired
    obtain ⟨k', hk', hbecomes⟩ := hkeeps kid k hk
    exact ⟨k', hk', hbecomes.retired hretired⟩
  cached process audience e hentry :=
    h.cached process audience e ((hforgets process).2 _ _ hentry)

theorem selectVerification_of_retired {r : Keyring} {kid : ℕ} {k : SigningKey}
    (hk : r.keys.get? kid = some k) (hretired : k.status = .retired) :
    r.selectVerification kid = .error (.retiredOrDeleted kid) := by
  unfold Keyring.selectVerification
  rw [hk]
  exact if_pos (.inl hretired)

theorem Forgotten.getVerificationKey {kid : ℕ} {last : Timestamp} (h : Forgotten kid last w)
    (process kid' : ℕ) :
    Forgotten kid last
      { w with ring := (w.ring.getVerificationKey process w.clock kid').2 } where
  retired := by
    dsimp only
    rw [Keyring.keys_getVerificationKey]
    exact h.retired
  cached process' audience e hentry := by
    rcases Keyring.verification_getVerificationKey hentry with hentry | ⟨rfl, -, hselect⟩
    · exact h.cached process' audience e hentry
    · -- a retired key is not read again
      obtain ⟨k, hk, hretired⟩ := h.retired
      rw [selectVerification_of_retired hk hretired] at hselect
      cases hselect

theorem Forgotten.sign {kid : ℕ} {last : Timestamp} (h : Forgotten kid last w) (process : ℕ)
    (audience : KeyAudience) (payloads : List Payload) :
    Forgotten kid last (w.sign cfg process audience payloads) := by
  have hring : (w.sign cfg process audience payloads).ring
      = (w.ring.getActiveSigningKey process w.clock audience).2 := by
    unfold KeyWorld.sign
    split <;> rfl
  refine ⟨?_, ?_⟩
  · rw [hring, Keyring.keys_getActiveSigningKey]
    exact h.retired
  · intro process' audience' e hentry
    rw [hring, Keyring.verification_getActiveSigningKey] at hentry
    exact h.cached process' audience' e hentry

theorem Forgotten.step {kid : ℕ} {last : Timestamp} (h : Forgotten kid last w) (a : KeyAction τ) :
    Forgotten kid last (w.step cfg J a) := by
  cases a with
  | wait duration => exact ⟨h.retired, h.cached⟩
  | rotate process audience =>
    exact h.of_keeps (w.ring.keeps_rotate process w.clock audience)
      (w.ring.forgets_rotate process w.clock audience)
  | advanceLifecycle process =>
    exact h.of_keeps (w.ring.keeps_advanceLifecycle process w.clock)
      (w.ring.forgets_advanceLifecycle process w.clock)
  | sign process audience payloads => exact h.sign process audience payloads
  | lookUp process token =>
    show Forgotten kid last (w.lookUp J process token)
    unfold KeyWorld.lookUp
    split
    · exact h
    · exact h.getVerificationKey process _

/-- Once the last of the caches has forgotten the key, nothing that it signed is accepted. -/
theorem Forgotten.decodeToken {kid : ℕ} {last : Timestamp} (h : Forgotten kid last w)
    (hpast : last < w.clock) (process : ℕ) (c : Claims) (header : ℕ) (audience : String) :
    w.decodeToken J process (J.encode c kid header) audience = none := by
  unfold KeyWorld.decodeToken
  rw [J.unverifiedKid_encode, Option.bind_some]
  split
  · rfl
  · rename_i found hfound
    by_cases hheader : header = kid
    · subst hheader
      -- neither the cache nor the table can have answered
      rcases w.ring.getVerificationKey_cases process w.clock header with
        ⟨_, hcached, -⟩ | ⟨_, -, -, hr⟩ | ⟨_, hselect, -⟩
      · obtain ⟨e, hentry, hnow⟩ := Expiring.get?_eq_some.mp hcached
        have he := h.cached process _ e hentry
        linarith
      · rw [hr] at hfound
        cases hfound
      · obtain ⟨k, hk, hretired⟩ := h.retired
        rw [selectVerification_of_retired hk hretired] at hselect
        cases hselect
    · rw [J.decode_encode, if_neg fun hkey => hheader hkey.1]

/-! ## Rotation is safe -/

theorem KeyWorld.Sound.decodeToken (h : w.Sound) {i : Issued} (hi : i ∈ w.issued)
    (haccess : i.kind = .access) (hlive : w.clock < i.claims.exp * 1000000) (process : ℕ) :
    w.decodeToken J process (i.token J) i.claims.aud = some i.claims := by
  obtain ⟨hbegun, hends, k, hk, husable⟩ := h.issued i hi haccess
  have hmem := Keyed.mem_of_get? hk
  -- a retired key was replaced 75 minutes ago, and the token would have ended long before
  have hstatus : k.status ≠ .retired := by
    intro hretired
    obtain ⟨t, ht, hpast⟩ := h.rows.retired k hmem hretired
    rcases husable with hactive | ⟨t', ht', hle⟩
    · rw [hretired] at hactive
      cases hactive
    · rw [ht] at ht'
      cases ht'
      have hgap : tokenReach ≤ retireAfter := by decide
      linarith
  have hdeleted : k.deletedAt = none := h.rows.undeleted k hmem hstatus
  exact decodeToken_token.mpr ⟨rfl, ⟨rfl, hbegun, hlive⟩, .inr ⟨k, hk, hstatus, hdeleted⟩⟩

theorem KeyWorld.Sound.activeKeys (h : w.Sound) (audience : KeyAudience) :
    (w.ring.activeKeys audience).length ≤ 1 := by
  have hnodup : (w.ring.activeKeys audience).Nodup :=
    (List.Nodup.of_map _ w.ring.keys.nodup).filter _
  by_contra hmany
  obtain ⟨k, k', rest, hrows⟩ : ∃ k k' rest, w.ring.activeKeys audience = k :: k' :: rest := by
    match hlist : w.ring.activeKeys audience with
    | [] => simp [hlist] at hmany
    | [k] => simp [hlist] at hmany
    | k :: k' :: rest => exact ⟨k, k', rest, rfl⟩
  have hk := Keyring.mem_activeKeys.mp (hrows ▸ List.mem_cons_self : k ∈ w.ring.activeKeys audience)
  have hk' := Keyring.mem_activeKeys.mp
    (hrows ▸ List.mem_cons_of_mem _ List.mem_cons_self : k' ∈ w.ring.activeKeys audience)
  have heq := h.rows.unique k hk.1 k' hk'.1 hk.2.2 hk'.2.2 (hk.2.1.trans hk'.2.1.symm)
  rw [hrows, heq] at hnodup
  simp at hnodup

end

/-- Every access token verifies in every process until its end, no audience has two active keys, and
more than a minute after a key was retired no process accepts what it signed. -/
theorem rotation_safe {τ : Type} (J : Pyjwt τ) {cfg : TokenSettings} (hcfg : cfg.accessTtl = 900)
    (clock : Timestamp) (actions : List (KeyAction τ)) :
    (∀ i ∈ (run (KeyWorld.step cfg J) (.start clock) actions).issued, i.kind = .access →
      (run (KeyWorld.step cfg J) (.start clock) actions).clock < i.claims.exp * 1000000 →
      ∀ process, (run (KeyWorld.step cfg J) (.start clock) actions).decodeToken J process
        (i.token J) i.claims.aud = some i.claims) ∧
    (∀ audience,
      ((run (KeyWorld.step cfg J) (.start clock) actions).ring.activeKeys audience).length ≤ 1) ∧
    (∀ front later, actions = front ++ later → ∀ kid k,
      (run (KeyWorld.step cfg J) (.start clock) front).ring.keys.get? kid = some k →
      k.status = .retired →
      (run (KeyWorld.step cfg J) (.start clock) front).clock + seconds 60
        < (run (KeyWorld.step cfg J) (.start clock) actions).clock →
      ∀ process c header audience, (run (KeyWorld.step cfg J) (.start clock) actions).decodeToken J
        process (J.encode c kid header) audience = none) := by
  have hsound : ∀ actions, (run (KeyWorld.step cfg J) (.start clock) actions).Sound := fun actions =>
    run_invariant_of_step (fun w a h => h.step hcfg a) actions (KeyWorld.sound_start clock)
  refine ⟨?_, ?_, ?_⟩
  · intro i hi haccess hlive process
    exact (hsound actions).decodeToken hi haccess hlive process
  · exact (hsound actions).activeKeys
  · intro front later hactions kid k hk hretired hlate process c header audience
    -- from the retirement on, what the caches hold of the key runs out within a minute
    have hfront : Forgotten kid
        ((run (KeyWorld.step cfg J) (.start clock) front).clock + seconds 60)
        (run (KeyWorld.step cfg J) (.start clock) front) :=
      ⟨⟨k, hk, hretired⟩, fun process audience e => (hsound front).caches.verification _ _ _ _⟩
    have hstep : ∀ last (w : KeyWorld) (a : KeyAction τ),
        Forgotten kid last w → Forgotten kid last (w.step cfg J a) := fun _ _ a h => h.step a
    have hend := run_invariant_of_step (hstep _) later hfront
    rw [← run_append, ← hactions] at hend
    exact hend.decodeToken hlate process c header audience

/-- An access token for the user 7 of the tenant `umoja`. -/
def samplePayload (jti : ℕ) : Payload := .access 7 "tenant:umoja" 3 "tenant_user" jti

/-- Half a minute after a rotation a process still signs with the old key, which is retired 75 minutes
after that. -/
def sampleRotation : List (KeyAction SignedToken) :=
  [.sign 1 .tenant [samplePayload 1], .rotate 0 .tenant, .wait 30000000,
    .sign 1 .tenant [samplePayload 2], .wait 869000000]

def sampleRetirement : List (KeyAction SignedToken) :=
  [.wait 3631000000, .lookUp 1 ⟨(samplePayload 2).claims defaultTokens 30000000, 2, 2⟩,
    .advanceLifecycle 0, .wait 60000001]

theorem rotation_safe_sample :
    (run (KeyWorld.step defaultTokens .symbolic) (.start 0) sampleRotation).decodeToken .symbolic 5
        ⟨(samplePayload 2).claims defaultTokens 30000000, 2, 2⟩ "tenant:umoja"
      = some ((samplePayload 2).claims defaultTokens 30000000) ∧
    ∀ c, (run (KeyWorld.step defaultTokens .symbolic) (.start 0)
      (sampleRotation ++ sampleRetirement)).decodeToken .symbolic 1 ⟨c, 2, 2⟩ "tenant:umoja"
        = none := by
  constructor
  · exact (rotation_safe .symbolic rfl 0 sampleRotation).1
      ⟨.access, (samplePayload 2).claims defaultTokens 30000000, 30000000, 2⟩ (by decide +kernel) rfl
      (by decide +kernel) 5
  · intro c
    exact (rotation_safe .symbolic rfl 0 (sampleRotation ++ sampleRetirement)).2.2
      (sampleRotation ++ sampleRetirement.take 3) (sampleRetirement.drop 3) rfl 2
      ⟨2, .tenant, .retired, some 0, none⟩ (by decide +kernel) rfl (by decide +kernel) 1 c 2
      "tenant:umoja"

end SaccoPlatform.Iam
