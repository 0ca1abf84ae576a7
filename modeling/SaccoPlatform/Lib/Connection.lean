import SaccoPlatform.Lib.Session

/-!
# Statements under a transaction-local setting

A request sets something for its transaction (a search path, a role) and relies on it in every
statement. The setting ends with the transaction, so a program that commits half way issues the
rest of its statements without it, and the database refuses them.

`Conn` is a program at this level: it sees the tables of the open transaction, knows what is
durable, and keeps the record of its statements. `issue` lifts a call of `Session`, which stands
for a stretch of statements without a commit. Until its first commit a program does what the
calls it issues do (`FollowsAt`); after it, the next statement raises and nothing becomes durable
any more (`Issues`).
-/

namespace SaccoPlatform.Lib

/-- A connection inside a transaction. `inForce` says whether the setting is in force, and `issued`
says it of each statement, in order. -/
structure Connection (σ : Type) where
  tables : σ
  durable : σ
  inForce : Bool
  failed : Bool
  issued : List Bool
deriving DecidableEq

/-- Why a program stops: its own exception, a statement without the setting, or a statement in a
transaction that has failed. -/
inductive Fault (ε : Type) where
  | of (e : ε)
  | outOfScope
  | inFailedTransaction
deriving DecidableEq, Repr

namespace Connection

variable {σ : Type}

/-- A transaction that has just been given its setting. -/
def start (s : σ) : Connection σ := ⟨s, s, true, false, []⟩

/-- Every statement so far ran under the setting. -/
def InScope (c : Connection σ) : Prop := ∀ b ∈ c.issued, b = true

instance (c : Connection σ) : Decidable c.InScope :=
  inferInstanceAs (Decidable (∀ b ∈ c.issued, b = true))

/-- Statements are accepted. -/
structure Accepts (c : Connection σ) : Prop where
  inForce : c.inForce = true
  failed : c.failed = false

/-- Statements are refused. -/
def Refuses (c : Connection σ) : Prop := c.failed = true ∨ c.inForce = false

/-- `n` statements later, with the tables as they left them. -/
def wrote (c : Connection σ) (s : σ) (n : ℕ) : Connection σ :=
  { c with tables := s, issued := c.issued ++ List.replicate n c.inForce }

/-- The transaction can only be rolled back. -/
def broken (c : Connection σ) : Connection σ := { c with failed := true }

def rollback (c : Connection σ) : Connection σ :=
  { c with tables := c.durable, inForce := false, failed := false }

/-- `COMMIT`, which rolls a failed transaction back. -/
def commit (c : Connection σ) : Connection σ :=
  if c.failed then c.rollback else { c with durable := c.tables, inForce := false }

theorem accepts_start (s : σ) : (start s).Accepts := ⟨rfl, rfl⟩

theorem Accepts.wrote {c : Connection σ} (h : c.Accepts) (s : σ) (n : ℕ) :
    (c.wrote s n).Accepts := ⟨h.inForce, h.failed⟩

theorem refuses_broken (c : Connection σ) : c.broken.Refuses := .inl rfl

theorem wrote_zero (c : Connection σ) : c.wrote c.tables 0 = c := by
  simp [Connection.wrote]

theorem wrote_wrote (c : Connection σ) (s s' : σ) (n m : ℕ) :
    (c.wrote s n).wrote s' m = c.wrote s' (n + m) := by
  simp [Connection.wrote, List.append_assoc, List.replicate_append_replicate]

theorem broken_wrote (c : Connection σ) (s : σ) (n m : ℕ) :
    ((c.wrote s n).broken.wrote (c.wrote s n).broken.tables m).broken
      = (c.wrote s (n + m)).broken := by
  simp [Connection.wrote, broken, List.append_assoc, List.replicate_append_replicate]

theorem not_inScope_wrote {c : Connection σ} {s : σ} {n : ℕ} (hforce : c.inForce = false)
    (hn : 0 < n) : ¬ (c.wrote s n).InScope := by
  intro h
  have hmem : false ∈ (c.wrote s n).issued := by
    refine List.mem_append_right _ (List.mem_replicate.mpr ⟨by omega, hforce.symm⟩)
  exact Bool.noConfusion (h false hmem)

end Connection

/-- A program that issues statements on a connection. -/
def Conn (σ ε α : Type) : Type := Connection σ → Except (Fault ε) α × Connection σ

namespace Conn

variable {σ ε α β : Type}

instance : Monad (Conn σ ε) where
  pure a := fun c => (.ok a, c)
  bind x f := fun c =>
    match x c with
    | (.ok a, c') => f a c'
    | (.error e, c') => (.error e, c')

/-- The statements of a call. The database refuses them when the transaction has failed, and
breaks it when they run without the setting or are themselves refused. -/
def issue (x : Session σ ε α) : Conn σ ε α := fun c =>
  if c.failed then (.error .inFailedTransaction, (c.wrote c.tables 1).broken)
  else if c.inForce then
    match x c.tables with
    | .ok a s => (.ok a, c.wrote s 1)
    | .raised e s => (.error (.of e), c.wrote s 1)
    | .aborted e => (.error (.of e), (c.wrote c.tables 1).broken)
  else (.error .outOfScope, (c.wrote c.tables 1).broken)

/-- `session.commit()`. -/
def commit : Conn σ ε Unit := fun c => (.ok (), c.commit)

def raise (e : ε) : Conn σ ε α := fun c => (.error (.of e), c)

/-- `if not p: raise e`. -/
def require (p : Prop) [Decidable p] (e : ε) : Conn σ ε Unit :=
  if p then pure () else raise e

/-- `if p: x`. -/
def when (p : Prop) [Decidable p] (x : Conn σ ε Unit) : Conn σ ε Unit := if p then x else pure ()

/-- A lookup whose caller raises when there is no row. -/
def orRaise (o : Option α) (e : ε) : Conn σ ε α :=
  match o with
  | some a => pure a
  | none => raise e

/-- `try: ... except Exception` on the same connection. -/
def attempt (x : Conn σ ε α) : Conn σ ε (Except (Fault ε) α) := fun c =>
  match x c with
  | (result, c') => (.ok result, c')

/-- A loop over rows. -/
def forEach (f : α → Conn σ ε Unit) : List α → Conn σ ε Unit
  | [] => pure ()
  | a :: rest => f a >>= fun _ => forEach f rest

/-- How the owner of the connection ends it: a commit when the program returned, a rollback when
it raised. -/
def finish : Except (Fault ε) α × Connection σ → Connection σ
  | (.ok _, c) => c.commit
  | (.error _, c) => c.rollback

/-- The connection after a request that runs the program. -/
def serve (x : Conn σ ε α) (s : σ) : Connection σ := finish (x (.start s))

/-! ## How the operations compute -/

theorem bind_ok {x : Conn σ ε α} {f : α → Conn σ ε β} {c c' : Connection σ} {a : α}
    (h : x c = (.ok a, c')) : (x >>= f) c = f a c' := by
  show (match x c with
    | (.ok a, c') => f a c'
    | (.error e, c') => (.error e, c')) = f a c'
  rw [h]

theorem bind_error {x : Conn σ ε α} {f : α → Conn σ ε β} {c c' : Connection σ} {e : Fault ε}
    (h : x c = (.error e, c')) : (x >>= f) c = (.error e, c') := by
  show (match x c with
    | (.ok a, c') => f a c'
    | (.error e, c') => (.error e, c')) = (.error e, c')
  rw [h]

theorem bind_assoc {γ : Type} (x : Conn σ ε α) (f : α → Conn σ ε β) (g : β → Conn σ ε γ) :
    x >>= f >>= g = x >>= fun a => f a >>= g := by
  funext c
  rcases hx : x c with ⟨_ | _, c'⟩
  · rw [bind_error (bind_error hx), bind_error hx]
  · rw [bind_ok hx]
    show (match (x >>= f) c with
      | (.ok b, c') => g b c'
      | (.error e, c') => (.error e, c')) = _
    rw [bind_ok hx]
    rfl

theorem attempt_apply {x : Conn σ ε α} {c c' : Connection σ} {result : Except (Fault ε) α}
    (h : x c = (result, c')) : attempt x c = (.ok result, c') := by
  show (Except.ok (x c).1, (x c).2) = _
  rw [h]

/-! ## Up to the first commit -/

/-- How a program shows on the connection that it ended as a call does, under the setting
throughout. -/
def Shows (c : Connection σ) (r : Except (Fault ε) α × Connection σ) : Outcome σ ε α → Prop
  | .ok a s => ∃ n, r = (.ok a, c.wrote s n)
  | .raised e s => ∃ n, r = (.error (.of e), c.wrote s n)
  | .aborted _ => ∃ e s n, r = (.error e, (c.wrote s n).broken)

/-- On this connection the program does what the call does. -/
def FollowsAt (x : Conn σ ε α) (y : Session σ ε α) (c : Connection σ) : Prop :=
  Shows c (x c) (y c.tables)

/-- Wherever statements are accepted, the program does what the call does. -/
def Follows (x : Conn σ ε α) (y : Session σ ε α) : Prop := ∀ c, c.Accepts → FollowsAt x y c

/-- Where statements are refused, the program issues one and raises. -/
def Issues (x : Conn σ ε α) : Prop :=
  ∀ c : Connection σ, c.Refuses → ∃ e n, x c = (.error e, (c.wrote c.tables (n + 1)).broken)

/-- The statements before it count as well. -/
theorem Shows.after {c : Connection σ} {s : σ} {n : ℕ} {r : Except (Fault ε) α × Connection σ}
    {o : Outcome σ ε α} (h : Shows (c.wrote s n) r o) : Shows c r o := by
  cases o with
  | ok a s' =>
    obtain ⟨m, hr⟩ := h
    exact ⟨n + m, by rw [hr, c.wrote_wrote]⟩
  | raised e s' =>
    obtain ⟨m, hr⟩ := h
    exact ⟨n + m, by rw [hr, c.wrote_wrote]⟩
  | aborted e =>
    obtain ⟨e', s', m, hr⟩ := h
    exact ⟨e', s', n + m, by rw [hr, c.wrote_wrote]⟩

theorem follows_pure (a : α) : Follows (pure a : Conn σ ε α) (pure a) := by
  intro c _
  refine ⟨0, ?_⟩
  rw [c.wrote_zero]
  rfl

theorem follows_raise (e : ε) : Follows (raise e : Conn σ ε α) (Session.raise e) := by
  intro c _
  refine ⟨0, ?_⟩
  rw [c.wrote_zero]
  rfl

theorem follows_require (p : Prop) [Decidable p] (e : ε) :
    Follows (require p e : Conn σ ε Unit) (Session.require p e) := by
  unfold require Session.require
  split
  · exact follows_pure ()
  · exact follows_raise e

theorem follows_orRaise (o : Option α) (e : ε) :
    Follows (orRaise o e : Conn σ ε α) (Session.orRaise o e) := by
  cases o with
  | none => exact follows_raise e
  | some a => exact follows_pure a

theorem follows_issue (y : Session σ ε α) : Follows (issue y) y := by
  intro c hc
  unfold FollowsAt issue
  rw [hc.inForce, hc.failed]
  cases y c.tables with
  | ok a s => exact ⟨1, rfl⟩
  | raised e s => exact ⟨1, rfl⟩
  | aborted e => exact ⟨.of e, c.tables, 1, rfl⟩

theorem follows_when {p : Prop} [Decidable p] {x : Conn σ ε Unit} {y : Session σ ε Unit}
    (h : Follows x y) : Follows (when p x) (Session.when p y) := by
  unfold when Session.when
  split
  · exact h
  · exact follows_pure ()

/-- A sequence follows a sequence of calls. -/
theorem FollowsAt.bind {x : Conn σ ε α} {y : Session σ ε α} {f : α → Conn σ ε β}
    {g : α → Session σ ε β} {c : Connection σ} (hc : c.Accepts) (h : FollowsAt x y c)
    (hf : ∀ a, Follows (f a) (g a)) : FollowsAt (x >>= f) (y >>= g) c := by
  unfold FollowsAt at h ⊢
  rw [Session.bind_apply]
  cases hy : y c.tables with
  | ok a s =>
    rw [hy] at h
    obtain ⟨n, hx⟩ := h
    rw [bind_ok hx]
    -- the rest starts from the tables that the first half left
    exact Shows.after (hf a (c.wrote s n) (hc.wrote s n))
  | raised e s =>
    rw [hy] at h
    obtain ⟨n, hx⟩ := h
    exact ⟨n, bind_error hx⟩
  | aborted e =>
    rw [hy] at h
    obtain ⟨e', s, n, hx⟩ := h
    exact ⟨e', s, n, bind_error hx⟩

/-- A handler follows the handler of a call when it does so after a return and after an exception,
and when it raises after a statement that was refused. -/
theorem FollowsAt.attempt_bind {x : Conn σ ε α} {y : Session σ ε α}
    {f : Except (Fault ε) α → Conn σ ε β} {g : Except ε α → Session σ ε β} {c : Connection σ}
    (hc : c.Accepts) (h : FollowsAt x y c) (hok : ∀ a, Follows (f (.ok a)) (g (.ok a)))
    (herror : ∀ e, Follows (f (.error (.of e))) (g (.error e)))
    (hrefused : ∀ e, Issues (f (.error e))) :
    FollowsAt (attempt x >>= f) (Session.attempt y >>= g) c := by
  unfold FollowsAt at h ⊢
  rw [Session.bind_apply]
  unfold Session.attempt
  cases hy : y c.tables with
  | ok a s =>
    rw [hy] at h
    obtain ⟨n, hx⟩ := h
    rw [bind_ok (attempt_apply hx)]
    exact Shows.after (hok a (c.wrote s n) (hc.wrote s n))
  | raised e s =>
    rw [hy] at h
    obtain ⟨n, hx⟩ := h
    rw [bind_ok (attempt_apply hx)]
    exact Shows.after (herror e (c.wrote s n) (hc.wrote s n))
  | aborted e =>
    rw [hy] at h
    obtain ⟨e', s, n, hx⟩ := h
    rw [bind_ok (attempt_apply hx)]
    -- the handler's first statement meets the failed transaction
    obtain ⟨e'', m, hf⟩ := hrefused e' _ (c.wrote s n).refuses_broken
    exact ⟨e'', s, n + (m + 1), by rw [hf, c.broken_wrote]⟩

/-! ## After the first commit -/

theorem issues_issue (y : Session σ ε α) : Issues (issue y) := by
  intro c hc
  unfold issue
  rcases hc with hfailed | hforce
  · rw [if_pos hfailed]
    exact ⟨_, 0, rfl⟩
  · split
    · exact ⟨_, 0, rfl⟩
    · rw [hforce]
      exact ⟨_, 0, rfl⟩

theorem Issues.bind {x : Conn σ ε α} (h : Issues x) (f : α → Conn σ ε β) :
    Issues (x >>= f) := by
  intro c hc
  obtain ⟨e, n, hx⟩ := h c hc
  exact ⟨e, n, bind_error hx⟩

/-- A handler that issues a statement of its own only puts the exception off. -/
theorem Issues.attempt_bind {x : Conn σ ε α} {f : Except (Fault ε) α → Conn σ ε β}
    (h : Issues x) (hf : ∀ e, Issues (f (.error e))) : Issues (attempt x >>= f) := by
  intro c hc
  obtain ⟨e, n, hx⟩ := h c hc
  obtain ⟨e', m, hrest⟩ := hf e _ (c.wrote c.tables (n + 1)).refuses_broken
  refine ⟨e', n + 1 + m, ?_⟩
  rw [bind_ok (attempt_apply hx), hrest, c.broken_wrote]
  rfl

/-- A loop whose rounds issue statements, and a statement after it. -/
theorem issues_forEach_bind {f : α → Conn σ ε Unit} {g : Unit → Conn σ ε β}
    (hf : ∀ a, Issues (f a)) (hg : Issues (g ())) (rows : List α) :
    Issues (forEach f rows >>= g) := by
  cases rows with
  | nil => exact hg
  | cons a rest =>
    have hround : Issues (f a >>= fun _ => forEach f rest) := (hf a).bind _
    exact hround.bind g

/-! ## Through the first commit -/

/-- Without the setting, the program changes nothing durable. -/
def Idle (x : Conn σ ε α) : Prop :=
  ∀ c : Connection σ, c.inForce = false →
    (x c).2.durable = c.durable ∧ (x c).2.inForce = false

theorem idle_pure (a : α) : Idle (pure a : Conn σ ε α) := fun _ hforce => ⟨rfl, hforce⟩

theorem Issues.idle {x : Conn σ ε α} (h : Issues x) : Idle x := by
  intro c hforce
  obtain ⟨e, n, hx⟩ := h c (.inr hforce)
  rw [hx]
  exact ⟨rfl, hforce⟩

/-- How a program shows that it ended as a call does that stops at the first commit. `returned` says
what the program returned when it made no commit; after a commit only the connection counts. -/
def ShowsFirst (returned : β → Option α) (c : Connection σ)
    (r : Except (Fault ε) α × Connection σ) : Outcome σ ε β → Prop
  | .ok b s =>
    (∀ a, returned b = some a → ∃ n, r = (.ok a, c.wrote s n)) ∧
      (returned b = none → r.2.durable = s ∧ r.2.inForce = false)
  | .raised e s => ∃ n, r = (.error (.of e), c.wrote s n)
  | .aborted _ => ∃ e s n, r = (.error e, (c.wrote s n).broken)

/-- Wherever statements are accepted, the program does what the call does up to its first commit,
and nothing durable after it. -/
def Commits (returned : β → Option α) (x : Conn σ ε α) (y : Session σ ε β) : Prop :=
  ∀ c : Connection σ, c.Accepts → ShowsFirst returned c (x c) (y c.tables)

section Commits

variable {γ : Type} {returned : β → Option α}

theorem ShowsFirst.after {c : Connection σ} {s : σ} {n : ℕ}
    {r : Except (Fault ε) α × Connection σ} {o : Outcome σ ε β}
    (h : ShowsFirst returned (c.wrote s n) r o) : ShowsFirst returned c r o := by
  cases o with
  | ok b s' =>
    obtain ⟨hreturned, hcommitted⟩ := h
    refine ⟨?_, hcommitted⟩
    intro a hb
    obtain ⟨m, hr⟩ := hreturned a hb
    exact ⟨n + m, by rw [hr, c.wrote_wrote]⟩
  | raised e s' =>
    obtain ⟨m, hr⟩ := h
    exact ⟨n + m, by rw [hr, c.wrote_wrote]⟩
  | aborted e =>
    obtain ⟨e', s', m, hr⟩ := h
    exact ⟨e', s', n + m, by rw [hr, c.wrote_wrote]⟩

/-- The program returned before any commit. -/
theorem commits_pure {a : α} {b : β} (hb : returned b = some a) :
    Commits returned (pure a : Conn σ ε α) (pure b) := by
  intro c _
  refine ⟨?_, fun hnone => absurd (hb.symm.trans hnone) (Option.some_ne_none a)⟩
  intro a' hb'
  obtain rfl : a = a' := Option.some.inj (hb.symm.trans hb')
  exact ⟨0, by rw [c.wrote_zero]; rfl⟩

/-- The first commit, with what follows it. -/
theorem commits_commit {x : Unit → Conn σ ε α} {b : β} (hb : returned b = none)
    (hx : Idle (x ())) : Commits returned (commit >>= x) (pure b) := by
  intro c hc
  have hcommit : c.commit = { c with durable := c.tables, inForce := false } := by
    unfold Connection.commit
    rw [if_neg (by rw [hc.failed]; decide)]
  refine ⟨fun a hsome => absurd (hb.symm.trans hsome) (Option.some_ne_none a).symm, fun _ => ?_⟩
  show (x () c.commit).2.durable = c.tables ∧ (x () c.commit).2.inForce = false
  rw [hcommit]
  exact hx { c with durable := c.tables, inForce := false } rfl

theorem commits_last {b : β} {returned : β → Option Unit} (hb : returned b = none) :
    Commits returned (commit : Conn σ ε Unit) (pure b) := by
  have hlast : (commit : Conn σ ε Unit) = commit >>= pure := rfl
  rw [hlast]
  exact commits_commit hb (idle_pure ())

/-- A stretch without a commit before it. -/
theorem Follows.bind_commits {x : Conn σ ε γ} {y : Session σ ε γ} {f : γ → Conn σ ε α}
    {g : γ → Session σ ε β} (h : Follows x y) (hf : ∀ a, Commits returned (f a) (g a)) :
    Commits returned (x >>= f) (y >>= g) := by
  intro c hc
  have hfirst : Shows c (x c) (y c.tables) := h c hc
  rw [Session.bind_apply]
  cases hy : y c.tables with
  | ok a s =>
    rw [hy] at hfirst
    obtain ⟨n, hx⟩ := hfirst
    rw [bind_ok hx]
    exact ShowsFirst.after (hf a (c.wrote s n) (hc.wrote s n))
  | raised e s =>
    rw [hy] at hfirst
    obtain ⟨n, hx⟩ := hfirst
    exact ⟨n, bind_error hx⟩
  | aborted e =>
    rw [hy] at hfirst
    obtain ⟨e', s, n, hx⟩ := hfirst
    exact ⟨e', s, n, bind_error hx⟩

end Commits

/-! ## What a request leaves -/

/-- A request whose program follows a call makes durable what the call commits. -/
theorem FollowsAt.durable_finish {x : Conn σ ε α} {y : Session σ ε α} {c : Connection σ}
    (hc : c.Accepts) (h : FollowsAt x y c) :
    (finish (x c)).durable =
      match y c.tables with
      | .ok _ s => s
      | .raised _ _ => c.durable
      | .aborted _ => c.durable := by
  unfold FollowsAt at h
  cases hy : y c.tables with
  | ok a s =>
    rw [hy] at h
    obtain ⟨n, hx⟩ := h
    rw [hx]
    show ((c.wrote s n).commit).durable = s
    unfold Connection.commit
    rw [if_neg (by rw [(hc.wrote s n).failed]; decide)]
    rfl
  | raised e s =>
    rw [hy] at h
    obtain ⟨n, hx⟩ := h
    rw [hx]
    rfl
  | aborted e =>
    rw [hy] at h
    obtain ⟨e', s, n, hx⟩ := h
    rw [hx]
    rfl

/-- Once the setting is gone, a program that still issues a statement changes nothing durable, and
the statement is on record. -/
theorem Issues.finish {x : Conn σ ε α} (h : Issues x) {c : Connection σ}
    (hforce : c.inForce = false) :
    (finish (x c)).durable = c.durable ∧ ¬ (finish (x c)).InScope := by
  obtain ⟨e, n, hx⟩ := h c (.inr hforce)
  rw [hx]
  have hrecord : ¬ (c.wrote c.tables (n + 1)).InScope :=
    Connection.not_inScope_wrote hforce (Nat.succ_pos n)
  exact ⟨rfl, hrecord⟩

end Conn

end SaccoPlatform.Lib
