import Mathlib.Data.List.Basic
import Mathlib.Data.Nat.Basic

/-!
# Polled queues

A consumer polls the first `n` items of a queue: those that it handles leave the queue, the others
stay in place. Items that always fail are passed as long as fewer than `n` of them have gathered;
behind `n` of them nothing is handled any more.
-/

namespace SaccoPlatform.Lib.Polling

variable {ι : Type} {n : ℕ} {handled good bad : ι → Bool}

/-- What a poll of `n` items leaves, if those of `handled` are handled. -/
def poll (n : ℕ) (handled : ι → Bool) (queue : List ι) : List ι :=
  (queue.take n).filter (fun x => !handled x) ++ queue.drop n

theorem poll_sublist (n : ℕ) (handled : ι → Bool) (queue : List ι) :
    (poll n handled queue).Sublist queue := by
  have h : (poll n handled queue).Sublist (queue.take n ++ queue.drop n) :=
    List.filter_sublist.append_right _
  rwa [List.take_append_drop] at h

/-! ## Progress -/

/-- A queue with fewer than `n` other items shows a good one to the poll. -/
theorem exists_good_take {queue : List ι} (hfew : (queue.filter (fun x => !good x)).length < n)
    {x : ι} (hx : x ∈ queue) (hgood : good x = true) : ∃ y ∈ queue.take n, good y = true := by
  by_contra hnone
  have hall : ∀ y ∈ queue.take n, (!good y) = true := by
    intro y hy
    cases hgy : good y with
    | false => rfl
    | true => exact absurd ⟨y, hy, hgy⟩ hnone
  have hle : (queue.take n).length ≤ (queue.filter (fun x => !good x)).length := by
    calc (queue.take n).length = ((queue.take n).filter (fun x => !good x)).length := by
          rw [List.filter_eq_self.mpr hall]
      _ ≤ (queue.filter (fun x => !good x)).length :=
          ((List.take_sublist n queue).filter _).length_le
  rw [List.length_take] at hle
  -- the poll sees the whole queue, the good item included
  have hshort : queue.length ≤ n := by omega
  rw [List.take_of_length_le hshort] at hall
  have := hall x hx
  rw [hgood] at this
  cases this

/-- A poll that handles the good items it sees leaves fewer of them. -/
theorem length_good_poll {queue : List ι} (hhandles : ∀ x ∈ queue.take n, good x = true → handled x = true)
    (hseen : ∃ x ∈ queue.take n, good x = true) :
    ((poll n handled queue).filter good).length + 1 ≤ (queue.filter good).length := by
  obtain ⟨x, hx, hgood⟩ := hseen
  have hgone : ((queue.take n).filter (fun x => !handled x)).filter good = [] := by
    rw [List.filter_eq_nil_iff]
    intro y hy hgy
    have hmem := List.mem_filter.mp hy
    have := hhandles y hmem.1 hgy
    rw [this] at hmem
    cases hmem.2
  have hsplit : (queue.filter good).length =
      ((queue.take n).filter good).length + ((queue.drop n).filter good).length := by
    rw [← List.length_append, ← List.filter_append, List.take_append_drop]
  have hpos : 0 < ((queue.take n).filter good).length :=
    List.length_pos_of_mem (List.mem_filter.mpr ⟨hx, hgood⟩)
  rw [poll, List.filter_append, hgone, List.nil_append]
  omega

/-- After as many polls as there were good items, each of which handled those it saw, none is left,
if fewer than `n` others were in the queue. -/
theorem good_handled {queues : ℕ → List ι} {handled : ℕ → ι → Bool}
    (hpoll : ∀ k, queues (k + 1) = poll n (handled k) (queues k))
    (hfew : ((queues 0).filter (fun x => !good x)).length < n)
    (hhandles : ∀ k, ∀ x ∈ (queues k).take n, good x = true → handled k x = true) {k : ℕ}
    (hk : ((queues 0).filter good).length ≤ k) : ∀ x ∈ queues k, good x = false := by
  have hsub : ∀ k, (queues k).Sublist (queues 0) := by
    intro k
    induction k with
    | zero => exact List.Sublist.refl _
    | succ k ih =>
      rw [hpoll]
      exact (poll_sublist n _ _).trans ih
  have hcount : ∀ k, ((queues k).filter good).length ≤ ((queues 0).filter good).length - k := by
    intro k
    induction k with
    | zero => exact le_rfl
    | succ k ih =>
      rw [hpoll]
      by_cases hnone : ∃ x ∈ queues k, good x = true
      · obtain ⟨x, hx, hgood⟩ := hnone
        have hfewer : ((queues k).filter (fun x => !good x)).length < n :=
          lt_of_le_of_lt ((hsub k).filter _).length_le hfew
        have hseen := exists_good_take hfewer hx hgood
        have hless := length_good_poll (hhandles k) hseen
        omega
      · have hempty : (poll n (handled k) (queues k)).filter good = [] := by
          rw [List.filter_eq_nil_iff]
          intro x hx hgood
          exact hnone ⟨x, (poll_sublist n _ _).subset hx, hgood⟩
        rw [hempty]
        exact Nat.zero_le _
  intro x hx
  cases hgood : good x with
  | false => rfl
  | true =>
    have hpos : 0 < ((queues k).filter good).length :=
      List.length_pos_of_mem (List.mem_filter.mpr ⟨hx, hgood⟩)
    have hleft := hcount k
    omega

/-! ## Blocking -/

/-- Behind `n` items a poll changes nothing. -/
theorem poll_append_cons {front : List ι} (hn : n ≤ front.length) (x : ι) (back : List ι) :
    poll n handled (front ++ x :: back) = poll n handled front ++ x :: back := by
  rw [poll, poll, List.take_append_of_le_length hn, List.drop_append_of_le_length hn,
    List.append_assoc]

/-- Items that the poll does not handle stay. -/
theorem filter_bad_poll {queue : List ι} (hfails : ∀ x ∈ queue.take n, bad x = true → handled x = false) :
    (poll n handled queue).filter bad = queue.filter bad := by
  have hkept : ((queue.take n).filter (fun x => !handled x)).filter bad = (queue.take n).filter bad := by
    rw [List.filter_filter]
    apply List.filter_congr
    intro x hx
    cases hbad : bad x with
    | false => rfl
    | true =>
      rw [hfails x hx hbad]
      rfl
  rw [poll, List.filter_append, hkept, ← List.filter_append, List.take_append_drop]

/-- Behind `n` items that keep failing an item stays in the queue. -/
theorem blocked_stays {queues : ℕ → List ι} {handled : ℕ → ι → Bool}
    (hpoll : ∀ k, queues (k + 1) = poll n (handled k) (queues k))
    (hfails : ∀ k, ∀ x ∈ (queues k).take n, bad x = true → handled k x = false)
    {front back : List ι} {x : ι} (hqueue : queues 0 = front ++ x :: back)
    (hblocked : n ≤ (front.filter bad).length) (k : ℕ) :
    ∃ front', queues k = front' ++ x :: back ∧ n ≤ (front'.filter bad).length := by
  induction k with
  | zero => exact ⟨front, hqueue, hblocked⟩
  | succ k ih =>
    obtain ⟨front', hqueue', hblocked'⟩ := ih
    have hlength : n ≤ front'.length := Nat.le_trans hblocked' (List.length_filter_le _ _)
    refine ⟨poll n (handled k) front', ?_, ?_⟩
    · rw [hpoll, hqueue', poll_append_cons hlength]
    · rw [filter_bad_poll]
      · exact hblocked'
      · intro y hy
        apply hfails k y
        rw [hqueue', List.take_append_of_le_length hlength]
        exact hy

end SaccoPlatform.Lib.Polling
