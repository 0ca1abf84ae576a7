import SaccoPlatform.Database
import SaccoPlatform.Lib.Expiring
import SaccoPlatform.Lib.Runs
import SaccoPlatform.Iam.Realms
import Mathlib.Tactic.Linarith

/-!
# Login and lockout

The `login` of `PlatformAuthService`, `TenantAuthService` and `MemberAuthService` up to the point
where the credentials are accepted, with `app/modules/iam/lockout.py`. The three services differ in
the accounts they look up and share the keys of Redis, which carry the email alone.

What `passlib` makes of a password and a stored hash is a parameter. The transparent rehash puts another
hash of the same password in the place of the old one, so the accounts stay as they are. Redis is
available throughout.
-/

namespace SaccoPlatform.Iam

open Lib

/-! ## Lockout -/

/-- `auth_lockout_threshold`, `auth_lockout_window_minutes` and `auth_lockout_duration_minutes`.
Redis takes no lifetime of zero. -/
structure LockoutSettings where
  threshold : ℕ
  windowMinutes : ℕ
  durationMinutes : ℕ
  threshold_pos : 0 < threshold
  window_pos : 0 < windowMinutes
  duration_pos : 0 < durationMinutes

def LockoutSettings.window (cfg : LockoutSettings) : ℤ := minutes cfg.windowMinutes

def LockoutSettings.duration (cfg : LockoutSettings) : ℤ := minutes cfg.durationMinutes

/-- The keys `iam:lockout:attempts:{email}` and `iam:lockout:locked:{email}`. -/
structure Lockout where
  attempts : Expiring String ℕ
  locked : Expiring String Unit

/-- `INCR`, with `EXPIRE` on the first attempt. -/
def Lockout.incr (s : Lockout) (cfg : LockoutSettings) (now : Timestamp) (email : String) :
    ℕ × Expiring String ℕ :=
  match s.attempts email with
  | some (count, expiresAt) =>
    if now ≤ expiresAt then (count + 1, s.attempts.set email (count + 1) expiresAt)
    else (1, s.attempts.set email 1 (now + cfg.window))
  | none => (1, s.attempts.set email 1 (now + cfg.window))

/-- `record_attempt`. -/
def Lockout.recordAttempt (s : Lockout) (cfg : LockoutSettings) (now : Timestamp)
    (email : String) : Lockout where
  attempts := (s.incr cfg now email).2
  locked :=
    if cfg.threshold ≤ (s.incr cfg now email).1 then s.locked.set email () (now + cfg.duration)
    else s.locked

/-- `is_locked`: the seconds until the lock expires, rounded as Redis rounds them. -/
def Lockout.isLocked (s : Lockout) (now : Timestamp) (email : String) : Option ℤ :=
  match s.locked email with
  | some ((), expiresAt) =>
    if now ≤ expiresAt then some (max ((expiresAt - now + 500000) / 1000000) 0) else none
  | none => none

/-- `reset`. -/
def Lockout.reset (s : Lockout) (email : String) : Lockout :=
  { attempts := s.attempts.erase email, locked := s.locked.erase email }

/-! ## Login -/

/-- `verify_password`: the password as it is typed, and the stored hash. -/
abbrev VerifyPassword := String → String → Bool

/-- What a login reads of a `PlatformUser` or `TenantUser`, or of a `Member`. -/
inductive Account where
  | user (isActive : Bool) (hashedPassword : Option String)
  | member (portalEnabled : Bool) (status : MemberStatus) (hashedPassword : Option String)
deriving DecidableEq, Repr

/-- The stored hash. An empty one counts as none. -/
def Account.hash? : Account → Option String
  | user _ hashedPassword => hashedPassword.filter (· ≠ "")
  | member _ _ hashedPassword => hashedPassword.filter (· ≠ "")

/-- There is a hash, and it verifies the password. -/
def Account.verifies (verify : VerifyPassword) (account : Account) (password : String) : Bool :=
  account.hash?.any (verify password)

/-- `is_active`, and `_is_eligible` for members. -/
def Account.eligible : Account → Bool
  | user isActive _ => isActive
  | member portalEnabled status hashedPassword =>
    portalEnabled && (hashedPassword.filter (· ≠ "")).isSome && decide (status = .active)

/-- The accounts by realm and email, which is unique in each of the tables. -/
abbrev Accounts := Realm → String → Option Account

structure LoginRequest where
  time : Timestamp
  realm : Realm
  email : String
  password : String
deriving DecidableEq, Repr

/-- How a login ends, as the audit events tell it. -/
inductive LoginOutcome where
  | notFoundOrIneligible
  | locked (retryAfter : ℤ)
  | badPassword
  | success
deriving DecidableEq, Repr

/-- What the caller gets. -/
inductive LoginResponse where
  | tokens
  | invalidCredentials
  | accountLocked (retryAfter : ℤ)
deriving DecidableEq, Repr

/-- 401 for an unknown account and for a wrong password, 423 for a locked one. -/
def LoginOutcome.response : LoginOutcome → LoginResponse
  | notFoundOrIneligible => .invalidCredentials
  | locked retryAfter => .accountLocked retryAfter
  | badPassword => .invalidCredentials
  | success => .tokens

/-- `login`: the account first, then the lock, then the password. -/
def login (verify : VerifyPassword) (cfg : LockoutSettings) (accounts : Accounts) (s : Lockout)
    (r : LoginRequest) : LoginOutcome × Lockout :=
  match (accounts r.realm r.email).filter (·.eligible) with
  | none => (.notFoundOrIneligible, s.recordAttempt cfg r.time r.email)
  | some account =>
    match s.isLocked r.time r.email with
    | some retryAfter => (.locked retryAfter, s)
    | none =>
      if account.verifies verify r.password then (.success, s.reset r.email)
      else (.badPassword, s.recordAttempt cfg r.time r.email)

structure LoginEvent where
  request : LoginRequest
  outcome : LoginOutcome
deriving DecidableEq, Repr

/-- Redis, and what happened so far. -/
structure LoginWorld where
  lockout : Lockout
  history : List LoginEvent

def LoginWorld.step (verify : VerifyPassword) (cfg : LockoutSettings) (accounts : Accounts)
    (w : LoginWorld) (r : LoginRequest) : LoginWorld where
  lockout := (login verify cfg accounts w.lockout r).2
  history := w.history ++ [⟨r, (login verify cfg accounts w.lockout r).1⟩]

/-! ## What one login does -/

/-- The attempt goes on record: there is nobody to log in, or the password is wrong. -/
def Records (verify : VerifyPassword) (accounts : Accounts) (s : Lockout)
    (r : LoginRequest) : Prop :=
  ∀ account ∈ (accounts r.realm r.email).filter (·.eligible),
    s.isLocked r.time r.email = none ∧ account.verifies verify r.password = false

instance (verify : VerifyPassword) (accounts : Accounts) (s : Lockout) (r : LoginRequest) :
    Decidable (Records verify accounts s r) :=
  inferInstanceAs (Decidable (∀ account ∈ _, _ ∧ _))

theorem login_cases (verify : VerifyPassword) (cfg : LockoutSettings) (accounts : Accounts) (s : Lockout)
    (r : LoginRequest) :
    (Records verify accounts s r ∧ (login verify cfg accounts s r).2 = s.recordAttempt cfg r.time r.email ∧
      ((login verify cfg accounts s r).1 = .notFoundOrIneligible ∨
        (login verify cfg accounts s r).1 = .badPassword ∧ s.isLocked r.time r.email = none)) ∨
    (∃ retryAfter, s.isLocked r.time r.email = some retryAfter ∧
      login verify cfg accounts s r = (.locked retryAfter, s)) ∨
    (s.isLocked r.time r.email = none ∧ login verify cfg accounts s r = (.success, s.reset r.email)) := by
  unfold login Records
  cases (accounts r.realm r.email).filter (·.eligible) with
  | none => exact .inl ⟨nofun, rfl, .inl rfl⟩
  | some account =>
    cases hlocked : s.isLocked r.time r.email with
    | some retryAfter => exact .inr (.inl ⟨retryAfter, rfl, rfl⟩)
    | none =>
      cases hpassword : account.verifies verify r.password with
      | true =>
        refine .inr (.inr ⟨rfl, ?_⟩)
        simp [hpassword]
      | false =>
        refine .inl ⟨?_, ?_, .inr ⟨?_, rfl⟩⟩
        · rintro _ ⟨⟩
          exact ⟨rfl, hpassword⟩
        · simp [hpassword]
        · simp [hpassword]

/-- The counter that can be read. -/
def Lockout.count (s : Lockout) (now : Timestamp) (email : String) : Option ℕ :=
  s.attempts.get? now email

theorem incr_of_some {s : Lockout} {cfg : LockoutSettings} {now : Timestamp} {email : String}
    {n : ℕ} {t : ℤ} (h : s.attempts email = some (n, t)) (ht : now ≤ t) :
    s.incr cfg now email = (n + 1, s.attempts.set email (n + 1) t) := by
  unfold Lockout.incr
  rw [h]
  exact if_pos ht

theorem incr_of_none {s : Lockout} {cfg : LockoutSettings} {now : Timestamp} {email : String}
    (h : s.count now email = none) :
    s.incr cfg now email = (1, s.attempts.set email 1 (now + cfg.window)) := by
  unfold Lockout.incr
  cases hraw : s.attempts email with
  | none => rfl
  | some e =>
    obtain ⟨n, t⟩ := e
    have hexpired : ¬ now ≤ t := by
      intro ht
      rw [Lockout.count, Expiring.get?_eq_some.mpr ⟨t, hraw, ht⟩] at h
      cases h
    exact if_neg hexpired

theorem recordAttempt_locked_of_le {s : Lockout} {cfg : LockoutSettings} {now : Timestamp}
    {email : String} (h : cfg.threshold ≤ (s.incr cfg now email).1) :
    (s.recordAttempt cfg now email).locked email = some ((), now + cfg.duration) := by
  unfold Lockout.recordAttempt
  rw [if_pos h]
  exact Expiring.set_self ..

/-- An attempt touches no other email. -/
theorem recordAttempt_of_ne (s : Lockout) (cfg : LockoutSettings) (now : Timestamp)
    {email email' : String} (h : email' ≠ email) :
    (s.recordAttempt cfg now email).attempts email' = s.attempts email' ∧
      (s.recordAttempt cfg now email).locked email' = s.locked email' := by
  unfold Lockout.recordAttempt
  constructor
  · show (s.incr cfg now email).2 email' = _
    unfold Lockout.incr
    split
    · split <;> exact Expiring.set_of_ne _ h _ _
    · exact Expiring.set_of_ne _ h _ _
  · dsimp only
    split
    · exact Expiring.set_of_ne _ h _ _
    · rfl

theorem reset_of_ne (s : Lockout) {email email' : String} (h : email' ≠ email) :
    (s.reset email).attempts email' = s.attempts email' ∧
      (s.reset email).locked email' = s.locked email' :=
  ⟨Expiring.erase_of_ne _ h, Expiring.erase_of_ne _ h⟩

/-- A login touches the keys of its own email only. -/
theorem login_of_ne (verify : VerifyPassword) (cfg : LockoutSettings) (accounts : Accounts) (s : Lockout)
    {r : LoginRequest} {email : String} (h : email ≠ r.email) :
    (login verify cfg accounts s r).2.attempts email = s.attempts email ∧
      (login verify cfg accounts s r).2.locked email = s.locked email := by
  rcases login_cases verify cfg accounts s r with ⟨-, hstore, -⟩ | ⟨_, -, hlogin⟩ | ⟨-, hlogin⟩
  · rw [hstore]
    exact recordAttempt_of_ne s cfg r.time h
  · rw [hlogin]
    exact ⟨rfl, rfl⟩
  · rw [hlogin]
    exact reset_of_ne s h

theorem isLocked_of_le {s : Lockout} {now : Timestamp} {email : String} {t : ℤ}
    (h : s.locked email = some ((), t)) (ht : now ≤ t) : s.isLocked now email ≠ none := by
  unfold Lockout.isLocked
  rw [h]
  simp [ht]

/-! ## How often a password can be tried -/

/-- The event is a login to the account. -/
def LoginEvent.On (realm : Realm) (email : String) (e : LoginEvent) : Prop :=
  e.request.realm = realm ∧ e.request.email = email

instance (realm : Realm) (email : String) (e : LoginEvent) : Decidable (e.On realm email) :=
  inferInstanceAs (Decidable (_ ∧ _))

/-- The failed verifications for the account since the last successful login to it. -/
def openFailures (realm : Realm) (email : String) (history : List LoginEvent) : List Timestamp :=
  history.foldl (fun times e =>
    if e.On realm email ∧ e.outcome = .success then []
    else if e.On realm email ∧ e.outcome = .badPassword then times ++ [e.request.time]
    else times) []

/-- The failed verifications for the account in the window that begins at `start`. -/
def failuresIn (cfg : LockoutSettings) (realm : Realm) (email : String) (start : Timestamp)
    (history : List LoginEvent) : List LoginEvent :=
  history.filter fun e => e.On realm email ∧ e.outcome = .badPassword ∧
    start ≤ e.request.time ∧ e.request.time ≤ start + cfg.window

/-- No login to the account succeeds in the window. -/
def QuietIn (cfg : LockoutSettings) (realm : Realm) (email : String) (start : Timestamp)
    (history : List LoginEvent) : Prop :=
  ∀ e ∈ history, e.On realm email → e.outcome = .success →
    ¬ (start ≤ e.request.time ∧ e.request.time ≤ start + cfg.window)

instance (cfg : LockoutSettings) (realm : Realm) (email : String) (start : Timestamp)
    (history : List LoginEvent) : Decidable (QuietIn cfg realm email start history) :=
  inferInstanceAs (Decidable (∀ e ∈ history, _ → _ → ¬ _))

/-- An attempt under the email of the account that starts a new counter comes more than a window
after every failed verification for the account that no success has followed. -/
def CountsOn (verify : VerifyPassword) (cfg : LockoutSettings) (accounts : Accounts) (realm : Realm)
    (email : String) (w : LoginWorld) (r : LoginRequest) : Prop :=
  r.email = email → Records verify accounts w.lockout r → w.lockout.count r.time email = none →
    ∀ t ∈ openFailures realm email w.history, t + cfg.window < r.time

instance (verify : VerifyPassword) (cfg : LockoutSettings) (accounts : Accounts) (realm : Realm)
    (email : String) (w : LoginWorld) (r : LoginRequest) :
    Decidable (CountsOn verify cfg accounts realm email w r) :=
  inferInstanceAs (Decidable (_ → _ → _ → ∀ t ∈ _, _))

/-- The bookkeeping up to the time `now`, for one account and one window. -/
structure Tallied (cfg : LockoutSettings) (realm : Realm) (email : String) (start : Timestamp)
    (now : Timestamp) (w : LoginWorld) : Prop where
  bounded : (failuresIn cfg realm email start w.history).length ≤ cfg.threshold
  past : ∀ e ∈ w.history, e.request.time ≤ now
  unforgiven : now ≤ start + cfg.window → ∀ e ∈ failuresIn cfg realm email start w.history,
    e.request.time ∈ openFailures realm email w.history
  counted : now ≤ start + cfg.window → ∀ n t, w.lockout.attempts email = some (n, t) →
    (failuresIn cfg realm email start w.history).length ≤ n
  locked : now ≤ start + cfg.window →
    (failuresIn cfg realm email start w.history).length = cfg.threshold →
      ∃ t, w.lockout.locked email = some ((), t) ∧ start + cfg.window ≤ t

section Tally

variable {verify : VerifyPassword} {cfg : LockoutSettings} {accounts : Accounts} {realm : Realm}
  {email : String} {start now : Timestamp} {w : LoginWorld} {r : LoginRequest}

theorem openFailures_append (realm : Realm) (email : String) (history : List LoginEvent)
    (e : LoginEvent) :
    openFailures realm email (history ++ [e]) =
      if e.On realm email ∧ e.outcome = .success then []
      else if e.On realm email ∧ e.outcome = .badPassword then
        openFailures realm email history ++ [e.request.time]
      else openFailures realm email history := by
  unfold openFailures
  rw [List.foldl_append]
  rfl

theorem failuresIn_append (cfg : LockoutSettings) (realm : Realm) (email : String)
    (start : Timestamp) (history : List LoginEvent) (e : LoginEvent) :
    failuresIn cfg realm email start (history ++ [e]) =
      if e.On realm email ∧ e.outcome = .badPassword ∧ start ≤ e.request.time ∧
          e.request.time ≤ start + cfg.window then
        failuresIn cfg realm email start history ++ [e]
      else failuresIn cfg realm email start history := by
  unfold failuresIn
  rw [List.filter_append]
  by_cases h : e.On realm email ∧ e.outcome = .badPassword ∧ start ≤ e.request.time ∧
      e.request.time ≤ start + cfg.window
  · rw [if_pos h]
    simp [h]
  · rw [if_neg h]
    simp only [List.filter_cons, List.filter_nil]
    rw [if_neg (by simpa using h), List.append_nil]

theorem mem_failuresIn {history : List LoginEvent} {e : LoginEvent} :
    e ∈ failuresIn cfg realm email start history ↔
      e ∈ history ∧ e.On realm email ∧ e.outcome = .badPassword ∧ start ≤ e.request.time ∧
        e.request.time ≤ start + cfg.window := by
  simp [failuresIn]

theorem Tallied.past_step (h : Tallied cfg realm email start now w) (hnow : now ≤ r.time) :
    ∀ e ∈ (w.step verify cfg accounts r).history, e.request.time ≤ r.time := by
  intro e he
  rcases List.mem_append.mp he with he | he
  · exact (h.past e he).trans hnow
  · rw [List.mem_singleton.mp he]

/-- Nothing counts any more once the window is over. -/
theorem Tallied.late (h : Tallied cfg realm email start now w) (hnow : now ≤ r.time)
    (hlate : start + cfg.window < r.time) :
    Tallied cfg realm email start r.time (w.step verify cfg accounts r) where
  bounded := by
    have hsame : failuresIn cfg realm email start (w.step verify cfg accounts r).history
        = failuresIn cfg realm email start w.history := by
      show failuresIn cfg realm email start (w.history ++ [_]) = _
      rw [failuresIn_append, if_neg]
      rintro ⟨-, -, -, hend⟩
      exact absurd hend (not_le.mpr hlate)
    rw [hsame]
    exact h.bounded
  past := h.past_step hnow
  unforgiven hend := absurd hend (not_le.mpr hlate)
  counted hend := absurd hend (not_le.mpr hlate)
  locked hend := absurd hend (not_le.mpr hlate)

/-- A failed verification that counts came before. -/
theorem Tallied.exists_failure (h : Tallied cfg realm email start now w)
    (hend : now ≤ start + cfg.window)
    (hpos : 0 < (failuresIn cfg realm email start w.history).length) :
    ∃ t ∈ openFailures realm email w.history, start ≤ t ∧ t ≤ now := by
  obtain ⟨e, he⟩ := List.exists_mem_of_length_pos hpos
  have hmem := mem_failuresIn.mp he
  exact ⟨e.request.time, h.unforgiven hend e he, hmem.2.2.2.1, h.past e hmem.1⟩

/-- As long as a counted failure is open, an attempt under the email finds the counter. -/
theorem Tallied.counter (h : Tallied cfg realm email start now w) (hnow : now ≤ r.time)
    (hend : r.time ≤ start + cfg.window) (hemail : r.email = email)
    (hrecords : Records verify accounts w.lockout r) (hok : CountsOn verify cfg accounts realm email w r)
    (hpos : 0 < (failuresIn cfg realm email start w.history).length) :
    ∃ n t, w.lockout.attempts email = some (n, t) ∧ r.time ≤ t := by
  obtain ⟨t₀, ht₀, hstart, -⟩ := h.exists_failure (hnow.trans hend) hpos
  cases hcount : w.lockout.count r.time email with
  | some n =>
    obtain ⟨t, hraw, ht⟩ := Expiring.get?_eq_some.mp hcount
    exact ⟨n, t, hraw, ht⟩
  | none =>
    have hlate := hok hemail hrecords hcount t₀ ht₀
    linarith

/-- What the counter shows after a recorded attempt under the email. -/
theorem Tallied.count_le (h : Tallied cfg realm email start now w) (hnow : now ≤ r.time)
    (hend : r.time ≤ start + cfg.window) (hemail : r.email = email)
    (hrecords : Records verify accounts w.lockout r) (hok : CountsOn verify cfg accounts realm email w r) :
    (failuresIn cfg realm email start w.history).length + 1
      ≤ (w.lockout.incr cfg r.time r.email).1 ∧
    ∃ t, (w.lockout.incr cfg r.time r.email).2 email
      = some ((w.lockout.incr cfg r.time r.email).1, t) := by
  subst hemail
  rcases Nat.eq_zero_or_pos (failuresIn cfg realm r.email start w.history).length with hzero | hpos
  · rw [hzero]
    cases hcount : w.lockout.count r.time r.email with
    | none =>
      rw [incr_of_none hcount]
      exact ⟨le_rfl, _, Expiring.set_self ..⟩
    | some n =>
      obtain ⟨t, hraw, ht⟩ := Expiring.get?_eq_some.mp hcount
      rw [incr_of_some hraw ht]
      exact ⟨by omega, _, Expiring.set_self ..⟩
  · obtain ⟨n, t, hraw, ht⟩ := h.counter hnow hend rfl hrecords hok hpos
    have hcounted := h.counted (hnow.trans hend) n t hraw
    rw [incr_of_some hraw ht]
    exact ⟨by omega, _, Expiring.set_self ..⟩

/-- While the account is not locked, the bound is not reached. -/
theorem Tallied.lt_threshold (h : Tallied cfg realm email start now w) (hnow : now ≤ r.time)
    (hend : r.time ≤ start + cfg.window) (hunlocked : w.lockout.isLocked r.time email = none) :
    (failuresIn cfg realm email start w.history).length < cfg.threshold := by
  refine lt_of_le_of_ne h.bounded ?_
  intro hfull
  obtain ⟨t, hlocked, ht⟩ := h.locked (hnow.trans hend) hfull
  exact isLocked_of_le hlocked (hend.trans ht) hunlocked

section Record

variable (h : Tallied cfg realm email start now w) (hnow : now ≤ r.time)
  (hend : r.time ≤ start + cfg.window) {n : ℕ} {t : ℤ}
  (hattempts : (w.step verify cfg accounts r).lockout.attempts email = some (n, t))
  (hcount : (failuresIn cfg realm email start w.history).length + 1 ≤ n)
  (hlock : start ≤ r.time → cfg.threshold ≤ n →
    ∃ t, (w.step verify cfg accounts r).lockout.locked email = some ((), t) ∧ start + cfg.window ≤ t)
include h hnow hend hattempts hcount hlock

/-- One more failure inside the window, and the counter is ahead of it. -/
theorem Tallied.record_failure (hunlocked : w.lockout.isLocked r.time email = none)
    (hrealm : r.realm = realm) (hemail : r.email = email)
    (hbad : (login verify cfg accounts w.lockout r).1 = .badPassword) (hstart : start ≤ r.time) :
    Tallied cfg realm email start r.time (w.step verify cfg accounts r) := by
  have hhistory : (w.step verify cfg accounts r).history
      = w.history ++ [⟨r, (login verify cfg accounts w.lockout r).1⟩] := rfl
  have hfailures : failuresIn cfg realm email start (w.step verify cfg accounts r).history
      = failuresIn cfg realm email start w.history
        ++ [⟨r, (login verify cfg accounts w.lockout r).1⟩] := by
    rw [hhistory, failuresIn_append, if_pos ⟨⟨hrealm, hemail⟩, hbad, hstart, hend⟩]
  have hopen : openFailures realm email (w.step verify cfg accounts r).history
      = openFailures realm email w.history ++ [r.time] := by
    rw [hhistory, openFailures_append, if_neg, if_pos ⟨⟨hrealm, hemail⟩, hbad⟩]
    rintro ⟨-, hsuccess⟩
    cases hbad.symm.trans hsuccess
  have hlt := h.lt_threshold hnow hend hunlocked
  refine ⟨?_, h.past_step hnow, ?_, ?_, ?_⟩
  · rw [hfailures, List.length_append]
    exact hlt
  · intro _ e he
    rw [hfailures] at he
    rw [hopen]
    rcases List.mem_append.mp he with he | he
    · exact List.mem_append_left _ (h.unforgiven (hnow.trans hend) e he)
    · rw [List.mem_singleton.mp he]
      exact List.mem_append_right _ List.mem_cons_self
  · intro _ n t' hn
    rw [hattempts] at hn
    cases hn
    rw [hfailures, List.length_append]
    exact hcount
  · intro _ hfull
    rw [hfailures, List.length_append] at hfull
    exact hlock hstart (hfull ▸ hcount)

/-- The attempt is counted by the store and is no failure inside the window. -/
theorem Tallied.record_other
    (hcounts : ¬ (r.realm = realm ∧ (login verify cfg accounts w.lockout r).1 = .badPassword ∧
      start ≤ r.time))
    (hsuccess : (login verify cfg accounts w.lockout r).1 ≠ .success) :
    Tallied cfg realm email start r.time (w.step verify cfg accounts r) := by
  have hhistory : (w.step verify cfg accounts r).history
      = w.history ++ [⟨r, (login verify cfg accounts w.lockout r).1⟩] := rfl
  have hfailures : failuresIn cfg realm email start (w.step verify cfg accounts r).history
      = failuresIn cfg realm email start w.history := by
    rw [hhistory, failuresIn_append, if_neg]
    rintro ⟨⟨hrealm, -⟩, hbad, hstart, -⟩
    exact hcounts ⟨hrealm, hbad, hstart⟩
  have hopen : ∀ t ∈ openFailures realm email w.history,
      t ∈ openFailures realm email (w.step verify cfg accounts r).history := by
    intro t ht
    rw [hhistory, openFailures_append, if_neg fun hreset => hsuccess hreset.2]
    split
    · exact List.mem_append_left _ ht
    · exact ht
  refine ⟨?_, h.past_step hnow, ?_, ?_, ?_⟩
  · rw [hfailures]
    exact h.bounded
  · intro _ e he
    rw [hfailures] at he
    exact hopen _ (h.unforgiven (hnow.trans hend) e he)
  · intro _ n t' hn
    rw [hattempts] at hn
    cases hn
    rw [hfailures]
    omega
  · -- the failures were at the bound before, so one of them is in the window
    intro _ hfull
    rw [hfailures] at hfull
    obtain ⟨t₀, -, hstart, hpast⟩ := h.exists_failure (hnow.trans hend)
      (hfull ▸ cfg.threshold_pos)
    exact hlock (hstart.trans (hpast.trans hnow)) (by omega)

end Record

/-- A recorded attempt under the email of the account. -/
theorem Tallied.record (h : Tallied cfg realm email start now w) (hnow : now ≤ r.time)
    (hend : r.time ≤ start + cfg.window) (hemail : r.email = email)
    (hduration : cfg.window ≤ cfg.duration) (hrecords : Records verify accounts w.lockout r)
    (hok : CountsOn verify cfg accounts realm email w r)
    (hstore : (login verify cfg accounts w.lockout r).2 = w.lockout.recordAttempt cfg r.time r.email)
    (houtcome : (login verify cfg accounts w.lockout r).1 = .notFoundOrIneligible ∨
      (login verify cfg accounts w.lockout r).1 = .badPassword ∧
        w.lockout.isLocked r.time r.email = none) :
    Tallied cfg realm email start r.time (w.step verify cfg accounts r) := by
  obtain ⟨hcount, t, hraw⟩ := h.count_le hnow hend hemail hrecords hok
  have hattempts : (w.step verify cfg accounts r).lockout.attempts email
      = some ((w.lockout.incr cfg r.time r.email).1, t) := by
    show (login verify cfg accounts w.lockout r).2.attempts email = _
    rw [hstore]
    exact hraw
  have hlock : start ≤ r.time → cfg.threshold ≤ (w.lockout.incr cfg r.time r.email).1 →
      ∃ t, (w.step verify cfg accounts r).lockout.locked email = some ((), t) ∧ start + cfg.window ≤ t := by
    intro hstart hfull
    refine ⟨r.time + cfg.duration, ?_, by linarith⟩
    show (login verify cfg accounts w.lockout r).2.locked email = _
    rw [hstore, ← hemail]
    exact recordAttempt_locked_of_le hfull
  by_cases hcounts : r.realm = realm ∧ (login verify cfg accounts w.lockout r).1 = .badPassword ∧
      start ≤ r.time
  · obtain ⟨hrealm, hbad, hstart⟩ := hcounts
    have hunlocked : w.lockout.isLocked r.time email = none := by
      rcases houtcome with hnone | ⟨-, hunlocked⟩
      · rw [hbad] at hnone
        cases hnone
      · rwa [hemail] at hunlocked
    exact h.record_failure hnow hend hattempts hcount hlock hunlocked hrealm hemail hbad hstart
  · have hsuccess : (login verify cfg accounts w.lockout r).1 ≠ .success := by
      intro hsuccess
      rcases houtcome with hnone | ⟨hbad, -⟩
      · cases hnone.symm.trans hsuccess
      · cases hbad.symm.trans hsuccess
    exact h.record_other hnow hend hattempts hcount hlock hcounts hsuccess

/-- A login that neither fails nor succeeds for the account and leaves the keys of its email. -/
theorem Tallied.beside (h : Tallied cfg realm email start now w) (hnow : now ≤ r.time)
    (hend : r.time ≤ start + cfg.window)
    (hattempts : (login verify cfg accounts w.lockout r).2.attempts email = w.lockout.attempts email)
    (hlocked : (login verify cfg accounts w.lockout r).2.locked email = w.lockout.locked email)
    (hother : r.realm = realm ∧ r.email = email →
      (login verify cfg accounts w.lockout r).1 ≠ .badPassword ∧
        (login verify cfg accounts w.lockout r).1 ≠ .success) :
    Tallied cfg realm email start r.time (w.step verify cfg accounts r) := by
  have hfailures : failuresIn cfg realm email start (w.step verify cfg accounts r).history
      = failuresIn cfg realm email start w.history := by
    show failuresIn cfg realm email start (w.history ++ [_]) = _
    rw [failuresIn_append, if_neg]
    rintro ⟨hon, hbad, -⟩
    exact (hother hon).1 hbad
  have hopen : openFailures realm email (w.step verify cfg accounts r).history
      = openFailures realm email w.history := by
    show openFailures realm email (w.history ++ [_]) = _
    rw [openFailures_append, if_neg, if_neg]
    · rintro ⟨hon, hbad⟩
      exact (hother hon).1 hbad
    · rintro ⟨hon, hsuccess⟩
      exact (hother hon).2 hsuccess
  refine ⟨?_, h.past_step hnow, ?_, ?_, ?_⟩
  · rw [hfailures]
    exact h.bounded
  · rw [hfailures, hopen]
    intro _
    exact h.unforgiven (hnow.trans hend)
  · rw [hfailures]
    intro _ n t hn
    exact h.counted (hnow.trans hend) n t (hattempts.symm.trans hn)
  · rw [hfailures]
    intro _ hfull
    obtain ⟨t, ht, hle⟩ := h.locked (hnow.trans hend) hfull
    exact ⟨t, hlocked.trans ht, hle⟩

/-- A successful login under the email, to the account before the window or to another account. -/
theorem Tallied.success (h : Tallied cfg realm email start now w) (hnow : now ≤ r.time)
    (hend : r.time ≤ start + cfg.window) (hemail : r.email = email)
    (hunlocked : w.lockout.isLocked r.time r.email = none)
    (hlogin : login verify cfg accounts w.lockout r = (.success, w.lockout.reset r.email))
    (hquiet : QuietIn cfg realm email start (w.step verify cfg accounts r).history) :
    Tallied cfg realm email start r.time (w.step verify cfg accounts r) := by
  have hhistory : (w.step verify cfg accounts r).history = w.history ++ [⟨r, .success⟩] := by
    show w.history ++ [⟨r, (login verify cfg accounts w.lockout r).1⟩] = _
    rw [hlogin]
  have hfailures : failuresIn cfg realm email start (w.step verify cfg accounts r).history
      = failuresIn cfg realm email start w.history := by
    rw [hhistory, failuresIn_append, if_neg]
    rintro ⟨-, hbad, -⟩
    cases hbad
  have hlt := h.lt_threshold hnow hend (hemail ▸ hunlocked)
  refine ⟨?_, h.past_step hnow, ?_, ?_, ?_⟩
  · rw [hfailures]
    exact h.bounded
  · intro _ e he
    rw [hfailures] at he
    by_cases hrealm : r.realm = realm
    · -- a success on the account itself lies before the window, where no failure counts yet
      have hbefore : ¬ (start ≤ r.time ∧ r.time ≤ start + cfg.window) :=
        hquiet ⟨r, .success⟩ (hhistory ▸ List.mem_append_right _ List.mem_cons_self)
          ⟨hrealm, hemail⟩ rfl
      have hmem := mem_failuresIn.mp he
      have hpast := h.past e hmem.1
      exact absurd ⟨hmem.2.2.2.1.trans (hpast.trans hnow), hend⟩ hbefore
    · rw [hhistory, openFailures_append, if_neg, if_neg]
      · exact h.unforgiven (hnow.trans hend) e he
      · rintro ⟨-, hbad⟩
        cases hbad
      · rintro ⟨⟨hon, -⟩, -⟩
        exact hrealm hon
  · intro _ n t hn
    have herased : (w.step verify cfg accounts r).lockout.attempts email = none := by
      show (login verify cfg accounts w.lockout r).2.attempts email = _
      rw [hlogin, ← hemail]
      exact Expiring.erase_self ..
    cases herased.symm.trans hn
  · intro _ hfull
    rw [hfailures] at hfull
    exact absurd hfull hlt.ne

theorem Tallied.step (h : Tallied cfg realm email start now w) (hnow : now ≤ r.time)
    (hduration : cfg.window ≤ cfg.duration) (hok : CountsOn verify cfg accounts realm email w r)
    (hquiet : QuietIn cfg realm email start (w.step verify cfg accounts r).history) :
    Tallied cfg realm email start r.time (w.step verify cfg accounts r) := by
  rcases le_or_gt r.time (start + cfg.window) with hend | hlate
  · by_cases hemail : r.email = email
    · rcases login_cases verify cfg accounts w.lockout r with
        ⟨hrecords, hstore, houtcome⟩ | ⟨retryAfter, -, hlogin⟩ | ⟨hunlocked, hlogin⟩
      · exact h.record hnow hend hemail hduration hrecords hok hstore houtcome
      · apply h.beside hnow hend
        · rw [hlogin]
        · rw [hlogin]
        · intro _
          rw [hlogin]
          exact ⟨nofun, nofun⟩
      · exact h.success hnow hend hemail hunlocked hlogin hquiet
    · obtain ⟨hattempts, hlocked⟩ := login_of_ne verify cfg accounts w.lockout (Ne.symm hemail)
      exact h.beside hnow hend hattempts hlocked fun hon => absurd hon.2 hemail
  · exact h.late hnow hlate

theorem mem_history_run {e : LoginEvent} {requests : List LoginRequest} (h : e ∈ w.history) :
    e ∈ (run (LoginWorld.step verify cfg accounts) w requests).history := by
  induction requests generalizing w with
  | nil => exact h
  | cons r requests ih => exact ih (List.mem_append_left _ h)

theorem Tallied.run (h : Tallied cfg realm email start now w)
    (hduration : cfg.window ≤ cfg.duration) {requests : List LoginRequest}
    (hsorted : (requests.map (·.time)).Pairwise (· ≤ ·)) (hnow : ∀ r ∈ requests, now ≤ r.time)
    (hok : Along (LoginWorld.step verify cfg accounts) (CountsOn verify cfg accounts realm email) w
      requests)
    (hquiet : QuietIn cfg realm email start
      (Lib.run (LoginWorld.step verify cfg accounts) w requests).history) :
    ∃ now', Tallied cfg realm email start now'
      (Lib.run (LoginWorld.step verify cfg accounts) w requests) := by
  induction requests generalizing w now with
  | nil => exact ⟨now, h⟩
  | cons r requests ih =>
    rw [List.map_cons, List.pairwise_cons] at hsorted
    have hnext := h.step (hnow r List.mem_cons_self) hduration hok.1 (by
      intro e he
      have hlater : e ∈ (Lib.run (LoginWorld.step verify cfg accounts) (w.step verify cfg accounts r)
        requests).history := mem_history_run he
      exact hquiet e hlater)
    refine ih hnext hsorted.2 ?_ hok.2 hquiet
    intro r' hr'
    exact hsorted.1 r'.time (List.mem_map_of_mem hr')

end Tally

/-- A lock that lasts at least as long as the window bounds the failed verifications of an account
in every window, as long as its count is never started anew too early. -/
theorem failures_bounded (verify : VerifyPassword) (cfg : LockoutSettings) (accounts : Accounts)
    (realm : Realm) (email : String) (s : Lockout) (requests : List LoginRequest)
    (hduration : cfg.windowMinutes ≤ cfg.durationMinutes)
    (hsorted : (requests.map (·.time)).Pairwise (· ≤ ·))
    (hok : Along (LoginWorld.step verify cfg accounts) (CountsOn verify cfg accounts realm email) ⟨s, []⟩
      requests)
    (start : Timestamp)
    (hquiet : QuietIn cfg realm email start
      (run (LoginWorld.step verify cfg accounts) ⟨s, []⟩ requests).history) :
    (failuresIn cfg realm email start
      (run (LoginWorld.step verify cfg accounts) ⟨s, []⟩ requests).history).length ≤ cfg.threshold := by
  have hwindow : cfg.window ≤ cfg.duration := by
    unfold LockoutSettings.window LockoutSettings.duration minutes seconds
    have hseconds : ((cfg.windowMinutes * 60 : ℕ) : ℤ) ≤ ((cfg.durationMinutes * 60 : ℕ) : ℤ) :=
      Int.ofNat_le.mpr (Nat.mul_le_mul_right 60 hduration)
    linarith
  -- at the start nothing has failed yet, so the keys of the store may be anything
  have hempty : ∀ now, Tallied cfg realm email start now ⟨s, []⟩ := by
    intro now
    refine ⟨Nat.zero_le _, nofun, fun _ => nofun, fun _ n t _ => Nat.zero_le n, ?_⟩
    intro _ hfull
    exact absurd hfull cfg.threshold_pos.ne
  cases requests with
  | nil => exact Nat.zero_le _
  | cons r requests =>
    have hfirst : ∀ r' ∈ r :: requests, r.time ≤ r'.time := by
      intro r' hr'
      rw [List.map_cons, List.pairwise_cons] at hsorted
      rcases List.mem_cons.mp hr' with rfl | hr'
      · exact le_rfl
      · exact hsorted.1 r'.time (List.mem_map_of_mem hr')
    obtain ⟨_, htallied⟩ := (hempty r.time).run hwindow hsorted hfirst hok hquiet
    exact htallied.bounded

/-- The defaults: five attempts in 15 minutes, and a lock of 30 minutes. -/
def defaultLockout : LockoutSettings := ⟨5, 15, 30, by decide, by decide, by decide⟩

/-- Which password each of the two stored hashes verifies. -/
def sampleVerify : VerifyPassword := fun plain hashed =>
  (plain = "correct horse" && hashed = "$argon2id$umoja") ||
    (plain = "battery staple" && hashed = "$argon2id$baraka")

/-- One user of the tenant `umoja`, who is also a user of the tenant `baraka`. -/
def sampleAccounts : Accounts := fun realm email =>
  if email = "ada@example.org" then
    match realm with
    | .tenant "umoja" => some (.user true (some "$argon2id$umoja"))
    | .tenant "baraka" => some (.user true (some "$argon2id$baraka"))
    | _ => none
  else none

def noAttempts : Lockout := ⟨.empty, .empty⟩

/-- An attempt on the user's account with `umoja`, some seconds after the start. -/
def guess (second : ℕ) (password : String) : LoginRequest :=
  ⟨seconds second, .tenant "umoja", "ada@example.org", password⟩

/-- Six wrong passwords within a minute: the sixth is refused. -/
theorem failures_bounded_burst :
    (failuresIn defaultLockout (.tenant "umoja") "ada@example.org" 0
      (run (LoginWorld.step sampleVerify defaultLockout sampleAccounts) ⟨noAttempts, []⟩
        ((List.range 6).map fun i => guess (10 * i) "123456")).history).length ≤ 5 :=
  failures_bounded sampleVerify defaultLockout sampleAccounts (.tenant "umoja") "ada@example.org"
    noAttempts _ (by decide) (by decide +kernel) (by decide +kernel) 0 (by decide +kernel)

/-- Wrong passwords at the start, shortly before the fifteenth minute is over, and shortly after. -/
def straddlingGuesses : List LoginRequest :=
  [0, 880, 881, 882, 901, 902, 903, 904, 905].map fun second => guess second "123456"

/-- The first failure starts a count that ends after 15 minutes, whatever comes later. The failures
before and after its end make eight verifications within half a minute. -/
theorem failures_straddle :
    (straddlingGuesses.map (·.time)).Pairwise (· ≤ ·) ∧
    QuietIn defaultLockout (.tenant "umoja") "ada@example.org" (seconds 880)
      (run (LoginWorld.step sampleVerify defaultLockout sampleAccounts) ⟨noAttempts, []⟩
        straddlingGuesses).history ∧
    (failuresIn defaultLockout (.tenant "umoja") "ada@example.org" (seconds 880)
      (run (LoginWorld.step sampleVerify defaultLockout sampleAccounts) ⟨noAttempts, []⟩
        straddlingGuesses).history).length = 8 ∧
    ¬ (failuresIn defaultLockout (.tenant "umoja") "ada@example.org" (seconds 880)
      (run (LoginWorld.step sampleVerify defaultLockout sampleAccounts) ⟨noAttempts, []⟩
        straddlingGuesses).history).length ≤ defaultLockout.threshold := by
  decide +kernel

end SaccoPlatform.Iam
