import SaccoPlatform.Lib.Runs
import Mathlib.Data.List.Nodup

/-!
# Workers on one queue

Any number of workers take jobs from one queue. A worker reads a batch, and for each job, behind a
savepoint, looks whether it is done, updates a row of a shared table and records the job under its
primary key; at the end it commits the whole batch. A row that was updated and a key that was
inserted stay locked until the end of the transaction: another worker that needs one of them waits,
and an insert that finds its key committed fails and undoes its savepoint. Statements may fail at
any point, and a transaction may be lost at any point.

What is committed is then what the recorded jobs do one after another, in the order in which they
were committed: every job is performed once, or not at all.
-/

namespace SaccoPlatform.Lib.Workers

variable {ρ κ ι : Type}

/-- What the handler of a job asks of the table: it fails before it does anything, it updates no
row, or it updates the row of a key. An update that fails is `none`. -/
inductive Plan (ρ κ : Type) where
  | fails
  | nothing
  | update (target : κ) (f : ρ → Option ρ)

def Plan.target? : Plan ρ κ → Option κ
  | update target _ => some target
  | _ => none

/-- The handler gets to its statements. -/
def Plan.runs : Plan ρ κ → Bool
  | fails => false
  | _ => true

/-- A job of the queue; an update leaves the key of its row alone. -/
structure Job (key : ρ → κ) (ι : Type) where
  id : ι
  plan : Plan ρ κ
  keeps : ∀ target f r r', plan = .update target f → f r = some r' → key r' = key r

/-- The committed rows: the table that the jobs update, and the jobs that are recorded. -/
structure Shared (ρ ι : Type) where
  table : List ρ
  done : List ι

/-! ## Rows -/

section

variable {key : ρ → κ} [DecidableEq κ]

/-- What the job makes of one row. -/
def Job.onRow (j : Job key ι) (r : ρ) : Option ρ :=
  match j.plan with
  | .update target f => if key r = target then f r else some r
  | _ => some r

/-- What the job makes of the table; `none` when the handler or its statement fails. -/
def Job.apply (j : Job key ι) (rows : List ρ) : Option (List ρ) :=
  if j.plan.runs = true ∧ ∀ r ∈ rows, (j.onRow r).isSome = true then
    some (rows.map fun r => (j.onRow r).getD r)
  else none

/-- The row as the transaction sees it. -/
def overlay (key : ρ → κ) (rows : List ρ) (r : ρ) : ρ := (rows.find? (key · = key r)).getD r

theorem key_overlay (key : ρ → κ) (rows : List ρ) (r : ρ) : key (overlay key rows r) = key r := by
  unfold overlay
  cases hfind : rows.find? (key · = key r) with
  | none => rfl
  | some row =>
    have hkey : key row = key r := by simpa using List.find?_some hfind
    exact hkey

/-- A row that the transaction has not written. -/
theorem overlay_of_not_mem {rows : List ρ} {r : ρ} (h : key r ∉ rows.map key) :
    overlay key rows r = r := by
  have hnone : rows.find? (key · = key r) = none := by
    rw [List.find?_eq_none]
    intro row hrow heq
    exact h (List.mem_map.mpr ⟨row, hrow, by simpa using heq⟩)
  unfold overlay
  rw [hnone]
  rfl

/-- The rows written last are seen first. -/
theorem overlay_append (rows rows' : List ρ) (r : ρ) :
    overlay key (rows ++ rows') r = (rows.find? (key · = key r)).getD (overlay key rows' r) := by
  unfold overlay
  rw [List.find?_append]
  cases rows.find? (key · = key r) <;> rfl

theorem map_key_overlay (key : ρ → κ) (rows table : List ρ) :
    (table.map (overlay key rows)).map key = table.map key := by
  rw [List.map_map]
  apply List.map_congr_left
  intro r _
  exact key_overlay key rows r

theorem Job.key_onRow (j : Job key ι) {r r' : ρ} (h : j.onRow r = some r') : key r' = key r := by
  unfold Job.onRow at h
  split at h
  · rename_i target f hplan
    split at h
    · exact j.keeps target f r r' hplan h
    · cases h
      rfl
  · cases h
    rfl

theorem Job.onRow_of_update (j : Job key ι) {target : κ} {f : ρ → Option ρ}
    (h : j.plan = .update target f) (r : ρ) :
    j.onRow r = if key r = target then f r else some r := by
  unfold Job.onRow
  rw [h]

/-- A job leaves the rows alone that it does not update. -/
theorem Job.onRow_of_ne (j : Job key ι) {r : ρ} (h : j.plan.target? ≠ some (key r)) :
    j.onRow r = some r := by
  unfold Job.onRow
  split
  · rename_i target f hplan
    rw [hplan] at h
    exact if_neg fun heq => h (congrArg some heq.symm)
  · rfl

/-- A job that leaves every row alone. -/
theorem Job.apply_of_same {j : Job key ι} (hruns : j.plan.runs = true) {rows : List ρ}
    (h : ∀ r ∈ rows, j.onRow r = some r) : j.apply rows = some rows := by
  have hsome : ∀ r ∈ rows, (j.onRow r).isSome = true := by
    intro r hr
    rw [h r hr]
    rfl
  unfold Job.apply
  rw [if_pos ⟨hruns, hsome⟩]
  congr 1
  conv_rhs => rw [← List.map_id rows]
  apply List.map_congr_left
  intro r hr
  rw [h r hr]
  rfl

theorem Job.apply_eq_some {j : Job key ι} {rows rows' : List ρ} (h : j.apply rows = some rows') :
    j.plan.runs = true ∧ rows' = rows.map (fun r => (j.onRow r).getD r) ∧
      ∀ r ∈ rows, j.onRow r = some ((j.onRow r).getD r) := by
  unfold Job.apply at h
  split at h
  · rename_i hruns
    refine ⟨hruns.1, (Option.some.inj h).symm, ?_⟩
    intro r hr
    obtain ⟨r', hr'⟩ := Option.isSome_iff_exists.mp (hruns.2 r hr)
    rw [hr', Option.getD_some]
  · cases h

/-- What the jobs make of one row. -/
def onRowAll (jobs : List (Job key ι)) (r : ρ) : Option ρ :=
  jobs.foldlM (fun r j => j.onRow r) r

theorem onRowAll_cons (j : Job key ι) (jobs : List (Job key ι)) (r : ρ) :
    onRowAll (j :: jobs) r = (j.onRow r).bind (onRowAll jobs) := rfl

theorem onRowAll_append (jobs : List (Job key ι)) (j : Job key ι) (r : ρ) :
    onRowAll (jobs ++ [j]) r = (onRowAll jobs r).bind j.onRow := by
  unfold onRowAll
  rw [List.foldlM_append]
  cases jobs.foldlM (fun r j => j.onRow r) r with
  | none => rfl
  | some r' =>
    show (j.onRow r' >>= fun r => pure r) = j.onRow r'
    exact bind_pure _

theorem onRowAll_of_untouched {jobs : List (Job key ι)} {r : ρ}
    (h : ∀ j ∈ jobs, j.plan.target? ≠ some (key r)) : onRowAll jobs r = some r := by
  induction jobs with
  | nil => rfl
  | cons j jobs ih =>
    rw [onRowAll_cons, j.onRow_of_ne (h j List.mem_cons_self)]
    exact ih fun j' hj' => h j' (List.mem_cons_of_mem _ hj')

end

section

variable {key : ρ → κ} [DecidableEq κ] [DecidableEq ι]

/-- The job on its own: nothing when it is recorded already or fails, else its update and its
record. -/
def perform (db : Shared ρ ι) (j : Job key ι) : Shared ρ ι :=
  if j.id ∈ db.done then db
  else
    match j.apply db.table with
    | some table => ⟨table, db.done ++ [j.id]⟩
    | none => db

theorem map_key_perform (db : Shared ρ ι) (j : Job key ι) :
    (perform db j).table.map key = db.table.map key := by
  unfold perform
  split
  · rfl
  · split
    · rename_i table happly
      obtain ⟨-, rfl, hrow⟩ := Job.apply_eq_some happly
      rw [List.map_map]
      apply List.map_congr_left
      intro r hr
      exact j.key_onRow (hrow r hr)
    · rfl

theorem perform_done (db : Shared ρ ι) (j : Job key ι) :
    (perform db j).done = db.done ∨
      j.id ∉ db.done ∧ (perform db j).done = db.done ++ [j.id] := by
  unfold perform
  split
  · exact .inl rfl
  · rename_i hnew
    split
    · exact .inr ⟨hnew, rfl⟩
    · exact .inl rfl

theorem length_done_run_perform (db : Shared ρ ι) (jobs : List (Job key ι)) :
    (run perform db jobs).done.length ≤ db.done.length + jobs.length := by
  induction jobs generalizing db with
  | nil => exact Nat.le_refl _
  | cons j jobs ih =>
    have hrest := ih (perform db j)
    have hstep : (perform db j).done.length ≤ db.done.length + 1 := by
      rcases perform_done db j with hsame | ⟨-, hdone⟩
      · rw [hsame]
        omega
      · have hlength := congrArg List.length hdone
        rw [List.length_append, List.length_singleton] at hlength
        omega
    rw [run_cons, List.length_cons]
    omega

/-- Where a run records all of its jobs, each of them is recorded at its own step. -/
theorem recorded_of_run_perform {db : Shared ρ ι} {before after : List (Job key ι)} {j : Job key ι}
    (h : (run perform db (before ++ j :: after)).done
      = db.done ++ (before ++ j :: after).map (·.id)) :
    j.id ∉ (run perform db before).done ∧
      j.id ∈ (perform (run perform db before) j).done := by
  have hlength := congrArg List.length h
  rw [run_append, run_cons, List.length_append, List.length_map, List.length_append,
    List.length_cons] at hlength
  have hbefore := length_done_run_perform db before
  have hafter := length_done_run_perform (perform (run perform db before) j) after
  rcases perform_done (run perform db before) j with hsame | ⟨hnew, hdone⟩
  · -- a step that records nothing leaves the run short of one job
    rw [hsame] at hafter
    omega
  · refine ⟨hnew, ?_⟩
    rw [hdone]
    exact List.mem_append_right _ (List.mem_singleton_self _)

/-! ## Workers -/

/-- Where a worker stands with the first job of its batch; `recording` keeps the rows that the
savepoint goes back to. -/
inductive Phase (ρ : Type) where
  | checking
  | handling
  | recording (before : List ρ)

/-- A running transaction: the rest of its batch, the rows it has written and the jobs it has
recorded. -/
structure Worker (key : ρ → κ) (ι : Type) where
  todo : List (Job key ι)
  phase : Phase ρ
  rows : List ρ
  jobs : List (Job key ι)

/-- The committed rows and the workers, `none` for one that has no transaction. -/
structure World (key : ρ → κ) (ι : Type) where
  db : Shared ρ ι
  workers : List (Option (Worker key ι))

/-- The worker goes on to its next job. -/
def Worker.skip (a : Worker key ι) (rows : List ρ) : Worker key ι :=
  { a with todo := a.todo.tail, phase := .checking, rows := rows }

def Worker.commit (a : Worker key ι) (db : Shared ρ ι) : Shared ρ ι :=
  ⟨db.table.map (overlay key a.rows), db.done ++ a.jobs.map (·.id)⟩

def World.put (w : World key ι) (i : ℕ) (a : Option (Worker key ι)) : World key ι :=
  { w with workers := w.workers.set i a }

/-- The transactions of the other workers. -/
def World.others (w : World key ι) (i : ℕ) : List (Worker key ι) :=
  (w.workers.eraseIdx i).filterMap id

/-- The next statement of worker `i` for the job `j`. -/
def World.work (w : World key ι) (i : ℕ) (a : Worker key ι) (j : Job key ι) : World key ι :=
  match a.phase with
  | .checking =>
    if j.id ∈ w.db.done ∨ j.id ∈ a.jobs.map (·.id) then w.put i (some (a.skip a.rows))
    else w.put i (some { a with phase := .handling })
  | .handling =>
    -- a row that another transaction has written is locked
    if ∃ b ∈ w.others i, ∃ r ∈ b.rows, some (key r) = j.plan.target? then w
    else
      match j.apply (w.db.table.map (overlay key a.rows)) with
      | none => w.put i (some (a.skip a.rows))
      | some table => w.put i (some { a with
          rows := table.filter (fun r => some (key r) = j.plan.target?) ++ a.rows
          phase := .recording a.rows })
  | .recording before =>
    -- a key that another transaction has inserted is locked
    if ∃ b ∈ w.others i, j.id ∈ b.jobs.map (·.id) then w
    else if j.id ∈ w.db.done ∨ j.id ∈ a.jobs.map (·.id) then w.put i (some (a.skip before))
    else w.put i (some { a.skip a.rows with jobs := a.jobs ++ [j] })

/-- A statement of worker `i` fails: its savepoint is undone, or its transaction. -/
def World.fail (w : World key ι) (i : ℕ) (a : Worker key ι) : World key ι :=
  match a.todo, a.phase with
  | [], _ => w.put i none
  | _ :: _, .recording before => w.put i (some (a.skip before))
  | _ :: _, _ => w.put i (some (a.skip a.rows))

/-- What can happen: the next statement of a worker, which succeeds or fails, and the loss of its
transaction. -/
inductive Action where
  | next (i : ℕ)
  | fail (i : ℕ)
  | lose (i : ℕ)

/-- One step; `fetch` is the batch that a worker reads when it starts. -/
def World.step (fetch : Shared ρ ι → List (Job key ι)) (w : World key ι) : Action → World key ι
  | .next i =>
    match w.workers[i]? with
    | none => w
    | some none => w.put i (some ⟨fetch w.db, .checking, [], []⟩)
    | some (some a) =>
      match a.todo with
      | [] => ⟨a.commit w.db, w.workers.set i none⟩
      | j :: _ => w.work i a j
  | .fail i =>
    match w.workers[i]? with
    | some (some a) => w.fail i a
    | _ => w
  | .lose i => w.put i none

/-- No worker has a transaction. -/
def World.start (key : ρ → κ) (db : Shared ρ ι) (n : ℕ) : World key ι :=
  ⟨db, List.replicate n none⟩

/-! ## Jobs one after another -/

/-- Jobs that succeed on every row and are not recorded are performed one after another. -/
theorem run_perform {jobs : List (Job key ι)} {db : Shared ρ ι} {g : ρ → ρ}
    (hruns : ∀ j ∈ jobs, j.plan.runs = true) (hfresh : (db.done ++ jobs.map (·.id)).Nodup)
    (heffect : ∀ r ∈ db.table, onRowAll jobs r = some (g r)) :
    run perform db jobs = ⟨db.table.map g, db.done ++ jobs.map (·.id)⟩ := by
  induction jobs generalizing db g with
  | nil =>
    have hmap : db.table.map g = db.table := by
      conv_rhs => rw [← List.map_id db.table]
      apply List.map_congr_left
      intro r hr
      exact (Option.some.inj (heffect r hr)).symm
    rw [run_nil, hmap, List.map_nil, List.append_nil]
  | cons j jobs ih =>
    -- the first job succeeds on every row, since all of them together do
    have hrow : ∀ r ∈ db.table, j.onRow r = some ((j.onRow r).getD r) := by
      intro r hr
      have hr' := heffect r hr
      rw [onRowAll_cons] at hr'
      obtain ⟨r', hj, -⟩ := Option.bind_eq_some_iff.mp hr'
      rw [hj, Option.getD_some]
    have hnew : j.id ∉ db.done := by
      intro hmem
      rw [List.map_cons] at hfresh
      exact (List.nodup_append.mp hfresh).2.2 _ hmem _ List.mem_cons_self rfl
    have happly : j.apply db.table = some (db.table.map fun r => (j.onRow r).getD r) := by
      refine if_pos ⟨hruns j List.mem_cons_self, ?_⟩
      intro r hr
      rw [hrow r hr]
      rfl
    have hperform : perform db j
        = ⟨db.table.map fun r => (j.onRow r).getD r, db.done ++ [j.id]⟩ := by
      rw [perform, if_neg hnew, happly]
    -- the others run on the rows that it leaves
    have hrest : ∀ r ∈ db.table, onRowAll jobs ((j.onRow r).getD r) = some (g r) := by
      intro r hr
      have hr' := heffect r hr
      rw [onRowAll_cons, hrow r hr] at hr'
      exact hr'
    rw [run_cons, hperform, ih (g := fun r => (onRowAll jobs r).getD r)]
    · congr 1
      · rw [List.map_map]
        apply List.map_congr_left
        intro r hr
        rw [Function.comp_apply, hrest r hr, Option.getD_some]
      · rw [List.append_assoc]
        rfl
    · exact fun j' hj' => hruns j' (List.mem_cons_of_mem _ hj')
    · rw [List.append_assoc]
      exact hfresh
    · intro r' hr'
      obtain ⟨r, hr, rfl⟩ := List.mem_map.mp hr'
      rw [hrest r hr, Option.getD_some]

end

/-! ## The invariant of a worker -/

section

variable {key : ρ → κ} [DecidableEq κ]

/-- The rows are what the jobs make of the committed table; every row that one of them updates is
written, and none of them is recorded in the committed rows. -/
structure Settled (db : Shared ρ ι) (rows : List ρ) (jobs : List (Job key ι)) : Prop where
  effect : ∀ r ∈ db.table, onRowAll jobs r = some (overlay key rows r)
  runs : ∀ j ∈ jobs, j.plan.runs = true
  locked : ∀ j ∈ jobs, ∀ r ∈ db.table, j.plan.target? = some (key r) → key r ∈ rows.map key
  fresh : (db.done ++ jobs.map (·.id)).Nodup

/-- The job took the transaction from the rows `before` to `rows`. -/
structure Handled (db : Shared ρ ι) (j : Job key ι) (before rows : List ρ) : Prop where
  effect : ∀ r ∈ db.table, j.onRow (overlay key before r) = some (overlay key rows r)
  runs : j.plan.runs = true
  locked : ∀ r ∈ db.table, j.plan.target? = some (key r) → key r ∈ rows.map key
  grows : before.map key ⊆ rows.map key

/-- Between two jobs the rows are settled; behind a savepoint they are one job ahead. -/
def Worker.Sound (db : Shared ρ ι) (a : Worker key ι) : Prop :=
  match a.phase with
  | .recording before => ∃ j rest, a.todo = j :: rest ∧ Settled db before a.jobs ∧
      Handled db j before a.rows
  | _ => Settled db a.rows a.jobs

/-- No row and no job is locked by both. -/
structure Apart (a b : Worker key ι) : Prop where
  rows : ∀ k ∈ a.rows.map key, k ∉ b.rows.map key
  jobs : ∀ x ∈ a.jobs.map (·.id), x ∉ b.jobs.map (·.id)

omit [DecidableEq κ] in
theorem Apart.symm {a b : Worker key ι} (h : Apart a b) : Apart b a :=
  ⟨fun k hb ha => h.rows k ha hb, fun x hb ha => h.jobs x ha hb⟩

theorem settled_nil {db : Shared ρ ι} (h : db.done.Nodup) :
    Settled db [] ([] : List (Job key ι)) := by
  refine ⟨fun r _ => rfl, fun j => nofun, fun j => nofun, ?_⟩
  rw [List.map_nil, List.append_nil]
  exact h

/-- What the table looks like to a transaction whose rows another one has not written. -/
theorem overlay_commit {a : Worker key ι} {rows : List ρ}
    (happart : ∀ k ∈ a.rows.map key, k ∉ rows.map key) (r : ρ) :
    (overlay key a.rows r = r) ∨
      (key r ∉ rows.map key ∧ overlay key rows (overlay key a.rows r) = overlay key a.rows r) := by
  by_cases hmem : key r ∈ a.rows.map key
  · refine .inr ⟨happart _ hmem, overlay_of_not_mem ?_⟩
    rw [key_overlay key]
    exact happart _ hmem
  · exact .inl (overlay_of_not_mem hmem)

theorem Settled.commit {db : Shared ρ ι} {rows : List ρ} {jobs : List (Job key ι)}
    {a : Worker key ι} (h : Settled db rows jobs) (ha : Settled db a.rows a.jobs)
    (hrows : ∀ k ∈ a.rows.map key, k ∉ rows.map key)
    (hjobs : ∀ x ∈ a.jobs.map (·.id), x ∉ jobs.map (·.id)) : Settled (a.commit db) rows jobs := by
  refine ⟨?_, h.runs, ?_, ?_⟩
  · intro r' hr'
    obtain ⟨r, hr, rfl⟩ := List.mem_map.mp hr'
    rcases overlay_commit hrows r with hsame | ⟨hfree, hoverlay⟩
    · rw [hsame]
      exact h.effect r hr
    · rw [hoverlay]
      apply onRowAll_of_untouched
      intro j hj htarget
      rw [key_overlay key] at htarget
      exact hfree (h.locked j hj r hr htarget)
  · intro j hj r' hr' htarget
    obtain ⟨r, hr, rfl⟩ := List.mem_map.mp hr'
    rw [key_overlay key] at htarget ⊢
    exact h.locked j hj r hr htarget
  · have hown := List.nodup_append.mp h.fresh
    show (db.done ++ a.jobs.map (·.id) ++ jobs.map (·.id)).Nodup
    rw [List.nodup_append]
    refine ⟨ha.fresh, hown.2.1, ?_⟩
    intro x hx y hy heq
    rcases List.mem_append.mp hx with hdone | hjob
    · exact hown.2.2 x hdone y hy heq
    · exact hjobs x hjob (heq ▸ hy)

theorem Handled.commit {db : Shared ρ ι} {j : Job key ι} {before rows : List ρ}
    {a : Worker key ι} (h : Handled db j before rows)
    (hrows : ∀ k ∈ a.rows.map key, k ∉ rows.map key) : Handled (a.commit db) j before rows := by
  refine ⟨?_, h.runs, ?_, h.grows⟩
  · intro r' hr'
    obtain ⟨r, hr, rfl⟩ := List.mem_map.mp hr'
    rcases overlay_commit hrows r with hsame | ⟨hfree, hoverlay⟩
    · rw [hsame]
      exact h.effect r hr
    · have hbefore : overlay key before (overlay key a.rows r) = overlay key a.rows r := by
        apply overlay_of_not_mem
        rw [key_overlay key]
        exact fun hmem => hfree (h.grows hmem)
      rw [hbefore, hoverlay]
      apply j.onRow_of_ne
      intro htarget
      rw [key_overlay key] at htarget
      exact hfree (h.locked r hr htarget)
  · intro r' hr' htarget
    obtain ⟨r, hr, rfl⟩ := List.mem_map.mp hr'
    rw [key_overlay key] at htarget ⊢
    exact h.locked r hr htarget

/-- A worker does not notice that another one commits. -/
theorem Worker.Sound.commit {db : Shared ρ ι} {a b : Worker key ι} (hb : b.Sound db)
    (ha : Settled db a.rows a.jobs) (happart : Apart a b) : b.Sound (a.commit db) := by
  unfold Worker.Sound at hb ⊢
  split
  · rename_i before hphase
    simp only [hphase] at hb
    obtain ⟨j, rest, htodo, hsettled, hhandled⟩ := hb
    refine ⟨j, rest, htodo, hsettled.commit ha ?_ happart.jobs, hhandled.commit happart.rows⟩
    exact fun k hk hmem => happart.rows k hk (hhandled.grows hmem)
  · rename_i hphase
    have hsettled : Settled db b.rows b.jobs := by
      split at hb
      · rename_i before heq
        exact absurd heq (hphase before)
      · exact hb
    exact hsettled.commit ha happart.rows happart.jobs

/-- Behind the update of a job the rows are one job ahead. -/
theorem handled_of_apply {db : Shared ρ ι} {j : Job key ι} {rows table : List ρ}
    (hkeys : (db.table.map key).Nodup)
    (h : j.apply (db.table.map (overlay key rows)) = some table) :
    Handled db j rows (table.filter (fun r => some (key r) = j.plan.target?) ++ rows) := by
  obtain ⟨hruns, rfl, hrow⟩ := Job.apply_eq_some h
  -- a job keeps the keys, so the new rows have distinct keys too
  have hnodup : (((db.table.map (overlay key rows)).map
      fun r => (j.onRow r).getD r).map key).Nodup := by
    have hsame : ((db.table.map (overlay key rows)).map fun r => (j.onRow r).getD r).map key
        = db.table.map key := by
      rw [List.map_map, ← map_key_overlay key rows db.table]
      apply List.map_congr_left
      intro r hr
      exact j.key_onRow (hrow r hr)
    rw [hsame]
    exact hkeys
  have hnew : ∀ r ∈ db.table, (j.onRow (overlay key rows r)).getD (overlay key rows r)
      ∈ (db.table.map (overlay key rows)).map fun r => (j.onRow r).getD r :=
    fun r hr => List.mem_map_of_mem (List.mem_map_of_mem hr)
  have hkey : ∀ r ∈ db.table,
      key ((j.onRow (overlay key rows r)).getD (overlay key rows r)) = key r := by
    intro r hr
    rw [j.key_onRow (hrow _ (List.mem_map_of_mem hr)), key_overlay key]
  refine ⟨?_, hruns, ?_, ?_⟩
  · intro r hr
    have hjob := hrow _ (List.mem_map_of_mem hr)
    rw [hjob]
    congr 1
    by_cases htarget : j.plan.target? = some (key r)
    · -- the updated row is found first
      rw [overlay_append]
      cases hfind : (((db.table.map (overlay key rows)).map fun r => (j.onRow r).getD r).filter
          fun r => some (key r) = j.plan.target?).find? (key · = key r) with
      | none =>
        rw [List.find?_eq_none] at hfind
        refine absurd ?_ (hfind _ (List.mem_filter.mpr ⟨hnew r hr, ?_⟩))
        · simpa using hkey r hr
        · simpa [htarget] using hkey r hr
      | some found =>
        have hmem := (List.mem_filter.mp (List.mem_of_find?_eq_some hfind)).1
        have hfound : key found = key r := by simpa using List.find?_some hfind
        rw [Option.getD_some]
        exact List.inj_on_of_nodup_map hnodup (hnew r hr) hmem ((hkey r hr).trans hfound.symm)
    · have hsame : j.onRow (overlay key rows r) = some (overlay key rows r) := by
        apply j.onRow_of_ne
        rw [key_overlay key]
        exact htarget
      have hnone : (((db.table.map (overlay key rows)).map fun r => (j.onRow r).getD r).filter
          fun r => some (key r) = j.plan.target?).find? (key · = key r) = none := by
        rw [List.find?_eq_none]
        intro x hx heq
        have hx' : some (key x) = j.plan.target? := by simpa using (List.mem_filter.mp hx).2
        have heq' : key x = key r := by simpa using heq
        exact htarget (by rw [← hx', heq'])
      rw [hsame, Option.getD_some, overlay_append, hnone, Option.getD_none]
  · intro r hr htarget
    rw [List.map_append, List.mem_append]
    refine .inl (List.mem_map.mpr ⟨_, List.mem_filter.mpr ⟨hnew r hr, ?_⟩, hkey r hr⟩)
    simpa [htarget] using hkey r hr
  · rw [List.map_append]
    exact List.subset_append_right _ _

/-- Recording the job settles the rows again. -/
theorem Handled.settled {db : Shared ρ ι} {j : Job key ι} {before rows : List ρ}
    {jobs : List (Job key ι)} (h : Handled db j before rows) (hsettled : Settled db before jobs)
    (hdone : j.id ∉ db.done) (hjobs : j.id ∉ jobs.map (·.id)) : Settled db rows (jobs ++ [j]) := by
  refine ⟨?_, ?_, ?_, ?_⟩
  · intro r hr
    rw [onRowAll_append, hsettled.effect r hr]
    exact h.effect r hr
  · intro j' hj'
    rcases List.mem_append.mp hj' with hold | hnew
    · exact hsettled.runs j' hold
    · rw [List.mem_singleton.mp hnew]
      exact h.runs
  · intro j' hj' r hr htarget
    rcases List.mem_append.mp hj' with hold | hnew
    · exact h.grows (hsettled.locked j' hold r hr htarget)
    · rw [List.mem_singleton.mp hnew] at htarget
      exact h.locked r hr htarget
  · rw [List.map_append, ← List.append_assoc, List.nodup_append]
    refine ⟨hsettled.fresh, List.nodup_singleton _, ?_⟩
    intro x hx y hy heq
    rw [heq, List.mem_singleton.mp hy, List.mem_append] at hx
    exact hx.elim hdone hjobs

end

/-! ## Every interleaving -/

section

variable {key : ρ → κ} [DecidableEq κ] [DecidableEq ι] {P : Job key ι → Prop} {db₀ : Shared ρ ι}
  {w : World key ι}

/-- What is committed is what the recorded jobs do one after another, and every worker is ready to
continue this order. -/
structure World.Serial (P : Job key ι → Prop) (db₀ : Shared ρ ι) (w : World key ι) : Prop where
  order : ∃ order : List (Job key ι), (∀ j ∈ order, P j) ∧ w.db = run perform db₀ order ∧
    w.db.done = db₀.done ++ order.map (·.id)
  keys : (w.db.table.map key).Nodup
  done : w.db.done.Nodup
  sound : ∀ (i : ℕ) (a : Worker key ι), w.workers[i]? = some (some a) →
    a.Sound w.db ∧ (∀ j ∈ a.todo, P j) ∧ ∀ j ∈ a.jobs, P j
  apart : ∀ (i j : ℕ) (a b : Worker key ι), i ≠ j → w.workers[i]? = some (some a) → w.workers[j]? = some (some b) →
    Apart a b

omit [DecidableEq κ] [DecidableEq ι] in
theorem World.mem_others {i : ℕ} {b : Worker key ι} :
    b ∈ w.others i ↔ ∃ j, j ≠ i ∧ w.workers[j]? = some (some b) := by
  unfold World.others
  rw [List.mem_filterMap]
  constructor
  · rintro ⟨b', hb', rfl⟩
    exact List.mem_eraseIdx_iff_getElem?.mp hb'
  · intro h
    exact ⟨some b, List.mem_eraseIdx_iff_getElem?.mpr h, rfl⟩

theorem World.Serial.apart_others (h : w.Serial P db₀) {i : ℕ} {a b : Worker key ι}
    (ha : w.workers[i]? = some (some a)) (hb : b ∈ w.others i) : Apart a b := by
  obtain ⟨j, hne, hb⟩ := World.mem_others.mp hb
  exact h.apart i j a b (Ne.symm hne) ha hb

/-- Another transaction in the place of worker `i`. -/
theorem World.Serial.put (h : w.Serial P db₀) {i : ℕ} {a : Worker key ι} (hsound : a.Sound w.db)
    (htodo : ∀ j ∈ a.todo, P j) (hjobs : ∀ j ∈ a.jobs, P j)
    (happart : ∀ b ∈ w.others i, Apart a b) : (w.put i (some a)).Serial P db₀ where
  order := h.order
  keys := h.keys
  done := h.done
  sound := by
    intro i' b hb
    simp only [World.put, List.getElem?_set] at hb
    split at hb
    · split at hb
      · cases hb
        exact ⟨hsound, htodo, hjobs⟩
      · cases hb
    · exact h.sound i' b hb
  apart := by
    intro i' j b c hne hb hc
    simp only [World.put, List.getElem?_set] at hb hc
    split at hb
    · rename_i hi
      split at hb
      · cases hb
        rw [if_neg (hi ▸ hne)] at hc
        exact happart c (World.mem_others.mpr ⟨j, hi ▸ Ne.symm hne, hc⟩)
      · cases hb
    · split at hc
      · rename_i hj
        split at hc
        · cases hc
          exact (happart b (World.mem_others.mpr ⟨i', hj ▸ hne, hb⟩)).symm
        · cases hc
      · exact h.apart i' j b c hne hb hc

/-- The transaction of worker `i` is given up. -/
theorem World.Serial.put_none (h : w.Serial P db₀) (i : ℕ) : (w.put i none).Serial P db₀ where
  order := h.order
  keys := h.keys
  done := h.done
  sound := by
    intro i' b hb
    simp only [World.put, List.getElem?_set] at hb
    split at hb
    · split at hb <;> cases hb
    · exact h.sound i' b hb
  apart := by
    intro i' j b c hne hb hc
    simp only [World.put, List.getElem?_set] at hb hc
    split at hb
    · split at hb <;> cases hb
    · split at hc
      · split at hc <;> cases hc
      · exact h.apart i' j b c hne hb hc

/-- The worker goes on with rows that it has written already. -/
theorem World.Serial.skip (h : w.Serial P db₀) {i : ℕ} {a : Worker key ι}
    (ha : w.workers[i]? = some (some a)) {rows : List ρ} (hsettled : Settled w.db rows a.jobs)
    (hrows : rows.map key ⊆ a.rows.map key) : (w.put i (some (a.skip rows))).Serial P db₀ := by
  obtain ⟨-, htodo, hjobs⟩ := h.sound i a ha
  refine h.put hsettled (fun j hj => htodo j (List.mem_of_mem_tail hj)) hjobs ?_
  intro b hb
  have happart := h.apart_others ha hb
  exact ⟨fun k hk => happart.rows k (hrows hk), happart.jobs⟩

theorem World.Serial.work (h : w.Serial P db₀) {i : ℕ} {a : Worker key ι} {j : Job key ι}
    {rest : List (Job key ι)} (ha : w.workers[i]? = some (some a)) (htodo : a.todo = j :: rest) :
    (w.work i a j).Serial P db₀ := by
  obtain ⟨hsound, hP, hjobs⟩ := h.sound i a ha
  unfold Worker.Sound at hsound
  unfold World.work
  cases hphase : a.phase with
  | checking =>
    simp only [hphase] at hsound ⊢
    split
    · -- an id that is recorded already: the job is passed by
      exact h.skip ha hsound (List.Subset.refl _)
    · exact h.put hsound hP hjobs fun b hb => ⟨(h.apart_others ha hb).rows, (h.apart_others ha hb).jobs⟩
  | handling =>
    simp only [hphase] at hsound ⊢
    split
    · exact h
    · rename_i hfree
      split
      · exact h.skip ha hsound (List.Subset.refl _)
      · rename_i table happly
        have hhandled := handled_of_apply h.keys happly
        refine h.put ⟨j, rest, htodo, hsound, hhandled⟩ hP hjobs ?_
        intro b hb
        have happart := h.apart_others ha hb
        refine ⟨?_, happart.jobs⟩
        intro k hk hmem
        rw [List.map_append, List.mem_append] at hk
        rcases hk with hnew | hold
        · -- the row of the job is not locked
          obtain ⟨r, hr, rfl⟩ := List.mem_map.mp hnew
          obtain ⟨r', hr', hkey⟩ := List.mem_map.mp hmem
          have htarget : some (key r) = j.plan.target? := by simpa using (List.mem_filter.mp hr).2
          exact hfree ⟨b, hb, r', hr', by rw [hkey, htarget]⟩
        · exact happart.rows k hold hmem
  | recording before =>
    simp only [hphase] at hsound ⊢
    obtain ⟨j', rest', htodo', hsettled, hhandled⟩ := hsound
    obtain ⟨rfl, rfl⟩ : j = j' ∧ rest = rest' := List.cons.inj (htodo.symm.trans htodo')
    split
    · exact h
    · rename_i hfree
      split
      · -- another worker recorded the id first: the rows go back to what they were
        exact h.skip ha hsettled hhandled.grows
      · rename_i hnew
        rw [not_or] at hnew
        refine h.put (hhandled.settled hsettled hnew.1 hnew.2) ?_ ?_ ?_
        · exact fun j' hj' => hP j' (List.mem_of_mem_tail hj')
        · intro j' hj'
          rcases List.mem_append.mp hj' with hold | hone
          · exact hjobs j' hold
          · rw [List.mem_singleton.mp hone]
            exact hP j (htodo ▸ List.mem_cons_self)
        · intro b hb
          have happart := h.apart_others ha hb
          refine ⟨happart.rows, ?_⟩
          intro x hx hmem
          rw [List.map_append, List.mem_append] at hx
          rcases hx with hold | hone
          · exact happart.jobs x hold hmem
          · rw [List.map_singleton, List.mem_singleton] at hone
            exact hfree ⟨b, hb, hone ▸ hmem⟩

theorem World.Serial.fail (h : w.Serial P db₀) {i : ℕ} {a : Worker key ι}
    (ha : w.workers[i]? = some (some a)) : (w.fail i a).Serial P db₀ := by
  obtain ⟨hsound, -, -⟩ := h.sound i a ha
  unfold Worker.Sound at hsound
  unfold World.fail
  cases htodo : a.todo with
  | nil => exact h.put_none i
  | cons j rest =>
    cases hphase : a.phase with
    | recording before =>
      simp only [hphase] at hsound ⊢
      obtain ⟨j', rest', -, hsettled, hhandled⟩ := hsound
      exact h.skip ha hsettled hhandled.grows
    | checking =>
      simp only [hphase] at hsound ⊢
      exact h.skip ha hsound (List.Subset.refl _)
    | handling =>
      simp only [hphase] at hsound ⊢
      exact h.skip ha hsound (List.Subset.refl _)

theorem World.Serial.commit (h : w.Serial P db₀) {i : ℕ} {a : Worker key ι}
    (ha : w.workers[i]? = some (some a)) (htodo : a.todo = []) :
    (⟨a.commit w.db, w.workers.set i none⟩ : World key ι).Serial P db₀ := by
  obtain ⟨hsound, -, hjobs⟩ := h.sound i a ha
  have hsettled : Settled w.db a.rows a.jobs := by
    unfold Worker.Sound at hsound
    split at hsound
    · obtain ⟨j, rest, hcons, -⟩ := hsound
      rw [htodo] at hcons
      cases hcons
    · exact hsound
  obtain ⟨order, horder, hdb, hdone⟩ := h.order
  have hcommit : a.commit w.db = run perform w.db a.jobs :=
    (run_perform hsettled.runs hsettled.fresh hsettled.effect).symm
  refine ⟨⟨order ++ a.jobs, ?_, ?_, ?_⟩, ?_, hsettled.fresh, ?_, ?_⟩
  · intro j hj
    exact (List.mem_append.mp hj).elim (horder j) (hjobs j)
  · show a.commit w.db = _
    rw [hcommit, run_append, ← hdb]
  · show w.db.done ++ a.jobs.map (·.id) = _
    rw [hdone, List.map_append, List.append_assoc]
  · show ((w.db.table.map (overlay key a.rows)).map key).Nodup
    rw [map_key_overlay]
    exact h.keys
  · intro i' b hb
    simp only [List.getElem?_set] at hb
    split at hb
    · split at hb <;> cases hb
    · rename_i hne
      obtain ⟨hb', htodo', hjobs'⟩ := h.sound i' b hb
      exact ⟨hb'.commit hsettled (h.apart i i' a b hne ha hb), htodo', hjobs'⟩
  · intro i' j b c hne hb hc
    exact (h.put_none i).apart i' j b c hne hb hc

theorem World.Serial.step {fetch : Shared ρ ι → List (Job key ι)}
    (hfetch : ∀ db, ∀ j ∈ fetch db, P j) (h : w.Serial P db₀) (action : Action) :
    (w.step fetch action).Serial P db₀ := by
  cases action with
  | next i =>
    unfold World.step
    dsimp only
    split
    · exact h
    · refine h.put (settled_nil h.done) (hfetch w.db) (fun j => nofun) ?_
      exact fun b _ => ⟨fun k => nofun, fun x => nofun⟩
    · rename_i a ha
      split
      · rename_i htodo
        exact h.commit ha htodo
      · rename_i j rest htodo
        exact h.work ha htodo
  | fail i =>
    unfold World.step
    dsimp only
    split
    · rename_i a ha
      exact h.fail ha
    · exact h
  | lose i => exact h.put_none i

theorem serial_start {n : ℕ} (hkeys : (db₀.table.map key).Nodup) (hdone : db₀.done.Nodup) :
    (World.start key db₀ n).Serial P db₀ := by
  have hidle : ∀ (i : ℕ) (a : Worker key ι), (List.replicate n none)[i]? ≠ some (some a) := by
    intro i a ha
    rw [List.getElem?_replicate] at ha
    split at ha <;> cases ha
  refine ⟨⟨[], fun j => nofun, rfl, ?_⟩, hkeys, hdone, ?_, ?_⟩
  · exact (List.append_nil _).symm
  · exact fun i a ha => absurd ha (hidle i a)
  · exact fun i j a b _ ha => absurd ha (hidle i a)

/-- After any interleaving, the committed rows are those that the recorded jobs leave one after
another, and each of them is recorded once. -/
theorem run_serial {fetch : Shared ρ ι → List (Job key ι)} (hfetch : ∀ db, ∀ j ∈ fetch db, P j)
    (hkeys : (db₀.table.map key).Nodup) (hdone : db₀.done.Nodup) (n : ℕ) (actions : List Action) :
    (run (World.step fetch) (World.start key db₀ n) actions).Serial P db₀ := by
  have hstep : ∀ (w : World key ι) (action : Action), w.Serial P db₀ →
      (w.step fetch action).Serial P db₀ := fun _ action h => h.step hfetch action
  exact run_invariant_of_step hstep actions (serial_start hkeys hdone)

end

end SaccoPlatform.Lib.Workers
