import SaccoPlatform.Lib.Retries
import SaccoPlatform.Notifications.Dispatch

/-!
# Delivery discipline

The deliveries of an event are attempts on its channels, and a dispatch run is a round of them: what
holds of such rounds holds of the event, whatever the providers do, the preferences are and the order
of the jobs is. The retry job queues an event only while every failing channel has attempts left.
-/

namespace SaccoPlatform.Notifications

open Lib Attempts

/-! ## Deliveries as attempts -/

/-- The deliveries on a channel, as attempts. -/
def attemptsOn (deliveries : List NotificationDelivery) (channel : Channel) : Attempts :=
  (deliveries.filter (·.channel = channel)).map fun d => (d.attempt, decide (d.status = .sent))

theorem length_attemptsOn (deliveries : List NotificationDelivery) (channel : Channel) :
    (attemptsOn deliveries channel).length = (deliveries.filter (·.channel = channel)).length :=
  List.length_map _

theorem attemptsOn_append (ds ds' : List NotificationDelivery) (channel : Channel) :
    attemptsOn (ds ++ ds') channel = attemptsOn ds channel ++ attemptsOn ds' channel := by
  rw [attemptsOn, List.filter_append, List.map_append]
  rfl

/-- A channel has succeeded when it has a sent delivery. -/
theorem succeeded_iff {deliveries : List NotificationDelivery} {channel : Channel} :
    Succeeded (attemptsOn deliveries channel) ↔
      ∃ d ∈ deliveries, d.channel = channel ∧ d.status = .sent := by
  constructor
  · rintro ⟨x, hx, hsent⟩
    obtain ⟨d, hd, rfl⟩ := List.mem_map.mp hx
    have ⟨hin, hchannel⟩ := List.mem_filter.mp hd
    exact ⟨d, hin, of_decide_eq_true hchannel, of_decide_eq_true hsent⟩
  · rintro ⟨d, hin, hchannel, hsent⟩
    exact ⟨_, List.mem_map_of_mem (List.mem_filter.mpr ⟨hin, decide_eq_true hchannel⟩),
      decide_eq_true hsent⟩

theorem mem_sentChannels {deliveries : List NotificationDelivery} {channel : Channel} :
    channel ∈ (deliveries.filter (·.status = .sent)).map (·.channel) ↔
      Succeeded (attemptsOn deliveries channel) := by
  rw [succeeded_iff, List.mem_map]
  constructor
  · rintro ⟨d, hd, hchannel⟩
    have ⟨hin, hsent⟩ := List.mem_filter.mp hd
    exact ⟨d, hin, hchannel, of_decide_eq_true hsent⟩
  · rintro ⟨d, hin, hchannel, hsent⟩
    exact ⟨d, List.mem_filter.mpr ⟨hin, decide_eq_true hsent⟩, hchannel⟩

/-! ## A dispatch as a round -/

section

variable (env : ℕ → SendEnv) (now : ℕ) (event : NotificationEvent) (prior : List NotificationDelivery)

/-- The delivery that the loop adds for a channel, if it attempts it. -/
def deliveryFor (channel : Channel) (i : ℕ) : Option NotificationDelivery :=
  if channel = .inApp ∨ channel ∈ (prior.filter (·.status = .sent)).map (·.channel) then none
  else
    let outcome := sendChannel (env i) event channel
    some { notificationEventId := event.id
           channel
           provider := outcome.provider
           attempt := (prior.filter (·.channel = channel)).length + 1
           status := outcome.status
           externalId := outcome.externalId
           errorMessage := outcome.errorMessage
           sentAt := now }

/-- The deliveries that the loop adds. -/
def deliveriesFor (resolved : List (Channel × ℕ)) : List NotificationDelivery :=
  resolved.filterMap fun (channel, i) => deliveryFor env now event prior channel i

variable {env now event prior}

theorem dispatchChannel_eq (tally : Tally) (channel : Channel) (i : ℕ) :
    (dispatchChannel (env i) now event prior tally channel).added =
        tally.added ++ (deliveryFor env now event prior channel i).toList ∧
      (dispatchChannel (env i) now event prior tally channel).failed = tally.failed +
        ((deliveryFor env now event prior channel i).toList.filter (·.status ≠ .sent)).length := by
  unfold dispatchChannel deliveryFor
  by_cases hskip : channel = .inApp ∨ channel ∈ (prior.filter (·.status = .sent)).map (·.channel)
  · simp only [if_pos hskip]
    simp
  · simp only [if_neg hskip]
    by_cases hsent : (sendChannel (env i) event channel).status = .sent
    · simp [hsent]
    · simp [hsent]

theorem deliveriesFor_cons (channel : Channel) (i : ℕ) (resolved : List (Channel × ℕ)) :
    deliveriesFor env now event prior ((channel, i) :: resolved) =
      (deliveryFor env now event prior channel i).toList ++
        deliveriesFor env now event prior resolved := by
  unfold deliveriesFor
  cases hd : deliveryFor env now event prior channel i with
  | none => simp [hd]
  | some d => simp [hd]

theorem foldl_dispatchChannel (resolved : List (Channel × ℕ)) (tally : Tally) :
    let result := resolved.foldl (fun tally (channel, i) =>
      dispatchChannel (env i) now event prior tally channel) tally
    result.added = tally.added ++ deliveriesFor env now event prior resolved ∧
      result.failed = tally.failed +
        ((deliveriesFor env now event prior resolved).filter (·.status ≠ .sent)).length := by
  induction resolved generalizing tally with
  | nil => simp [deliveriesFor]
  | cons x resolved ih =>
    obtain ⟨channel, i⟩ := x
    have ⟨hadded, hfailed⟩ := @dispatchChannel_eq env now event prior tally channel i
    have ⟨hrest, hcount⟩ := ih (dispatchChannel (env i) now event prior tally channel)
    rw [List.foldl_cons, deliveriesFor_cons]
    constructor
    · rw [hrest, hadded, List.append_assoc]
    · rw [hcount, hfailed, List.filter_append, List.length_append, Nat.add_assoc]

theorem channel_of_deliveryFor {channel : Channel} {i : ℕ} {d : NotificationDelivery}
    (hd : deliveryFor env now event prior channel i = some d) : d.channel = channel := by
  unfold deliveryFor at hd
  by_cases hskip : channel = .inApp ∨ channel ∈ (prior.filter (·.status = .sent)).map (·.channel)
  · rw [if_pos hskip] at hd
    cases hd
  · rw [if_neg hskip] at hd
    cases hd
    rfl

/-- A channel that is not resolved gets no delivery. -/
theorem filter_deliveriesFor_of_notMem {resolved : List (Channel × ℕ)} {channel : Channel}
    (h : channel ∉ resolved.map Prod.fst) :
    (deliveriesFor env now event prior resolved).filter (·.channel = channel) = [] := by
  rw [List.filter_eq_nil_iff]
  intro d hd hchannel
  obtain ⟨⟨channel', i⟩, hin, hd'⟩ := List.mem_filterMap.mp hd
  have hsame : channel' = channel := (channel_of_deliveryFor hd').symm.trans (of_decide_eq_true hchannel)
  subst hsame
  exact h (List.mem_map_of_mem hin)

/-- A channel that is resolved once gets its delivery, if it is attempted. -/
theorem filter_deliveriesFor {resolved : List (Channel × ℕ)} (hnodup : (resolved.map Prod.fst).Nodup)
    {channel : Channel} {i : ℕ} (hin : (channel, i) ∈ resolved) :
    (deliveriesFor env now event prior resolved).filter (·.channel = channel) =
      (deliveryFor env now event prior channel i).toList := by
  induction resolved with
  | nil => cases hin
  | cons x resolved ih =>
    obtain ⟨channel', i'⟩ := x
    rw [List.map_cons, List.nodup_cons] at hnodup
    rw [deliveriesFor_cons, List.filter_append]
    rcases List.mem_cons.mp hin with heq | hrest
    · obtain ⟨rfl, rfl⟩ := Prod.mk.inj heq
      rw [filter_deliveriesFor_of_notMem hnodup.1, List.append_nil, List.filter_eq_self]
      intro d hd
      exact decide_eq_true (channel_of_deliveryFor (Option.mem_toList.mp hd))
    · have hne : channel' ≠ channel := by
        rintro rfl
        exact hnodup.1 (List.mem_map.mpr ⟨_, hrest, rfl⟩)
      have hnone : (deliveryFor env now event prior channel' i').toList.filter (·.channel = channel)
          = [] := by
        rw [List.filter_eq_nil_iff]
        intro d hd hchannel
        exact hne ((channel_of_deliveryFor (Option.mem_toList.mp hd)).symm.trans
          (of_decide_eq_true hchannel))
      rw [hnone, List.nil_append, ih hnodup.2 hrest]

end

section

variable {env : ℕ → SendEnv} {now : ℕ} {t : NotificationTables} {event : NotificationEvent}

/-- The channels that a dispatch of the event attempts, unless they have succeeded. -/
def enabledChannels (t : NotificationTables) (event : NotificationEvent) : Set Channel :=
  {channel | channel ∈ event.channels ∧ channel ≠ .inApp ∧
    channel ∉ disabledChannels t.preferences event}

theorem dispatchTally_eq :
    let added := deliveriesFor env now event (t.deliveriesOf event.id)
      (event.channels.filter (· ∉ disabledChannels t.preferences event)).zipIdx
    (dispatchTally env now t event).added = added ∧
      (dispatchTally env now t event).failed = (added.filter (·.status ≠ .sent)).length := by
  have h := @foldl_dispatchChannel env now event (t.deliveriesOf event.id)
    (event.channels.filter (· ∉ disabledChannels t.preferences event)).zipIdx ⟨0, 0, []⟩
  simp only [List.nil_append, Nat.zero_add] at h
  exact h

/-- What a dispatch adds to a channel. -/
theorem attemptsOn_dispatchTally (hnodup : event.channels.Nodup) (channel : Channel) :
    (channel ∉ event.channels.filter (· ∉ disabledChannels t.preferences event) ∧
        (dispatchTally env now t event).added.filter (·.channel = channel) = []) ∨
      ∃ i, channel ∈ event.channels.filter (· ∉ disabledChannels t.preferences event) ∧
        (dispatchTally env now t event).added.filter (·.channel = channel) =
          (deliveryFor env now event (t.deliveriesOf event.id) channel i).toList := by
  rw [dispatchTally_eq.1]
  have hmap : ∀ cs : List Channel, cs.zipIdx.map Prod.fst = cs := fun cs => List.zipIdx_map_fst 0 cs
  by_cases hin : channel ∈ event.channels.filter (· ∉ disabledChannels t.preferences event)
  · obtain ⟨i, hi⟩ := List.getElem?_of_mem hin
    refine .inr ⟨i, hin, filter_deliveriesFor ?_ ?_⟩
    · rw [hmap]
      exact hnodup.filter _
    · exact List.mem_zipIdx_iff_getElem?.mpr hi
  · refine .inl ⟨hin, filter_deliveriesFor_of_notMem ?_⟩
    rw [hmap]
    exact hin

/-- What a dispatch does to the attempts on a channel. -/
theorem attemptsOn_dispatched (hnodup : event.channels.Nodup) (channel : Channel) :
    let before := attemptsOn (t.deliveriesOf event.id) channel
    let after := attemptsOn (t.deliveriesOf event.id ++ (dispatchTally env now t event).added) channel
    (after = before ∧ (channel ∈ enabledChannels t event → Succeeded before)) ∨
      (¬ Succeeded before ∧ ∃ d ∈ (dispatchTally env now t event).added, d.channel = channel ∧
        after = before ++ [(before.length + 1, decide (d.status = .sent))]) := by
  intro before after
  have hafter : after = before ++ ((dispatchTally env now t event).added.filter
      (·.channel = channel)).map fun d => (d.attempt, decide (d.status = .sent)) :=
    attemptsOn_append _ _ channel
  rcases @attemptsOn_dispatchTally env now t event hnodup channel with
    ⟨hnotin, hnone⟩ | ⟨i, hin, hadded⟩
  · left
    rw [hafter, hnone, List.map_nil, List.append_nil]
    refine ⟨rfl, fun henabled => absurd ?_ hnotin⟩
    exact List.mem_filter.mpr ⟨henabled.1, decide_eq_true henabled.2.2⟩
  · by_cases hskip : channel = .inApp ∨
        channel ∈ ((t.deliveriesOf event.id).filter (·.status = .sent)).map (·.channel)
    · left
      have hnone : deliveryFor env now event (t.deliveriesOf event.id) channel i = none := if_pos hskip
      rw [hafter, hadded, hnone, Option.toList_none, List.map_nil, List.append_nil]
      refine ⟨rfl, fun henabled => ?_⟩
      rcases hskip with hinApp | hsent
      · exact absurd hinApp henabled.2.1
      · exact mem_sentChannels.mp hsent
    · right
      have hsome : ∃ d, deliveryFor env now event (t.deliveriesOf event.id) channel i = some d ∧
          d.attempt = before.length + 1 := by
        refine ⟨_, if_neg hskip, ?_⟩
        rw [length_attemptsOn]
      obtain ⟨d, hd, hattempt⟩ := hsome
      rw [hd, Option.toList_some] at hadded
      have hmem : d ∈ (dispatchTally env now t event).added.filter (·.channel = channel) := by
        rw [hadded]
        exact List.mem_singleton_self d
      have ⟨hmemAdded, hchannel⟩ := List.mem_filter.mp hmem
      refine ⟨fun hsucceeded => hskip (.inr (mem_sentChannels.mpr hsucceeded)), d, hmemAdded,
        of_decide_eq_true hchannel, ?_⟩
      rw [hafter, hadded, List.map_singleton, hattempt]

/-- A dispatch is a round on the channels of the event. -/
theorem round_dispatched (hnodup : event.channels.Nodup) :
    Round (enabledChannels t event) (attemptsOn (t.deliveriesOf event.id))
      (attemptsOn (t.deliveriesOf event.id ++ (dispatchTally env now t event).added)) := by
  intro channel
  rcases @attemptsOn_dispatched env now t event hnodup channel with hsame | hmore
  · exact .inl hsame
  · obtain ⟨hunsent, d, -, -, heq⟩ := hmore
    exact .inr ⟨hunsent, _, heq⟩

/-- After a dispatch an enabled channel has been attempted, and if it has not succeeded the event is
not `sent`. -/
theorem enabled_dispatched (hnodup : event.channels.Nodup) {channel : Channel}
    (henabled : channel ∈ enabledChannels t event) :
    let after := attemptsOn (t.deliveriesOf event.id ++ (dispatchTally env now t event).added) channel
    after ≠ [] ∧ ((dispatchTally env now t event).status = .sent → Succeeded after) := by
  intro after
  rcases @attemptsOn_dispatched env now t event hnodup channel with
    ⟨hsame, hdone⟩ | ⟨-, d, hd, -, hmore⟩
  · have hsucceeded : Succeeded after := by
      show Succeeded (attemptsOn _ channel)
      rw [hsame]
      exact hdone henabled
    refine ⟨?_, fun _ => hsucceeded⟩
    obtain ⟨x, hx, -⟩ := hsucceeded
    exact List.ne_nil_of_mem hx
  · have hafter : after = _ := hmore
    rw [hafter]
    refine ⟨by simp, fun hstatus => ?_⟩
    have hfailed : (dispatchTally env now t event).failed = 0 := by
      by_contra hne
      rw [Tally.status, if_neg hne] at hstatus
      split at hstatus <;> cases hstatus
    rw [dispatchTally_eq.2, List.length_eq_zero_iff, List.filter_eq_nil_iff, ← dispatchTally_eq.1] at hfailed
    have hsent : d.status = .sent := by simpa using hfailed d hd
    exact ⟨_, List.mem_append_right _ (List.mem_singleton_self _), by simpa using hsent⟩

theorem status_ne_queued (tally : Tally) : tally.status ≠ .queued := by
  unfold Tally.status
  split
  · nofun
  · split <;> nofun

/-! ## What a run does to an event -/

theorem eventId_of_added {d : NotificationDelivery} (hd : d ∈ (dispatchTally env now t event).added) :
    d.notificationEventId = event.id := by
  rw [dispatchTally_eq.1] at hd
  obtain ⟨⟨channel, i⟩, -, hdelivery⟩ := List.mem_filterMap.mp hd
  have hfor : deliveryFor env now event (t.deliveriesOf event.id) channel i = some d := hdelivery
  unfold deliveryFor at hfor
  split at hfor
  · cases hfor
  · cases hfor
    rfl

/-- The tally depends on the preferences and the deliveries of the event. -/
theorem dispatchTally_congr {t' : NotificationTables} (hpreferences : t'.preferences = t.preferences)
    (hdeliveries : t'.deliveriesOf event.id = t.deliveriesOf event.id) :
    dispatchTally env now t' event = dispatchTally env now t event := by
  rw [dispatchTally, dispatchTally, hpreferences, hdeliveries]

theorem dispatchEvent_self (hevent : t.events.get? event.id = some event) :
    (dispatchEvent env now t event).events.get? event.id =
        some { event with status := (dispatchTally env now t event).status } ∧
      (dispatchEvent env now t event).deliveriesOf event.id =
        t.deliveriesOf event.id ++ (dispatchTally env now t event).added := by
  constructor
  · exact Keyed.get?_put_self hevent rfl
  · show (t.deliveries ++ (dispatchTally env now t event).added).filter _ = _
    rw [List.filter_append]
    congr 1
    rw [List.filter_eq_self]
    exact fun d hd => decide_eq_true (eventId_of_added hd)

theorem dispatchEvent_other {id : ℕ} (hid : id ≠ event.id) :
    (dispatchEvent env now t event).events.get? id = t.events.get? id ∧
      (dispatchEvent env now t event).deliveriesOf id = t.deliveriesOf id := by
  constructor
  · exact Keyed.get?_put_of_ne t.events hid.symm
  · show (t.deliveries ++ (dispatchTally env now t event).added).filter _ = _
    have hnone : (dispatchTally env now t event).added.filter (·.notificationEventId = id) = [] := by
      rw [List.filter_eq_nil_iff]
      intro d hd hsame
      exact hid ((of_decide_eq_true hsame).symm.trans (eventId_of_added hd))
    rw [List.filter_append, hnone, List.append_nil]
    rfl

theorem retryEvent_deliveries (id : ℕ) : (retryEvent now t event).deliveriesOf id = t.deliveriesOf id := by
  unfold retryEvent
  dsimp only
  split
  · rfl
  · split
    · rfl
    · split <;> rfl

theorem retryEvent_other {id : ℕ} (hid : id ≠ event.id) :
    (retryEvent now t event).events.get? id = t.events.get? id := by
  unfold retryEvent
  dsimp only
  split
  · rfl
  · split
    · rfl
    · split
      · rfl
      · exact Keyed.get?_put_of_ne t.events hid.symm

end

section

variable {t : NotificationTables}

theorem mem_dueEvents {now : ℕ} {locked : List ℕ} {event : NotificationEvent}
    (h : event ∈ dueEvents now locked t) : event ∈ t.events.rows ∧ event.status = .queued := by
  have hin := List.mem_of_mem_take h
  rw [List.mem_insertionSort, List.mem_filter, decide_eq_true_eq] at hin
  exact ⟨hin.1, hin.2.1⟩

theorem nodup_dueEvents (now : ℕ) (locked : List ℕ) (t : NotificationTables) :
    ((dueEvents now locked t).map (·.id)).Nodup := by
  have hfilter : ((t.events.rows.filter fun event =>
      event.status = .queued ∧ event.scheduledAt ≤ now ∧ event.id ∉ locked).map (·.id)).Nodup :=
    t.events.nodup.sublist (List.filter_sublist.map _)
  have hsort : (((t.events.rows.filter fun event =>
      event.status = .queued ∧ event.scheduledAt ≤ now ∧ event.id ∉ locked).insertionSort
        fun event event' => event.scheduledAt ≤ event'.scheduledAt).map (·.id)).Nodup :=
    ((List.perm_insertionSort _ _).map _).nodup_iff.mpr hfilter
  exact hsort.sublist ((List.take_sublist _ _).map _)

theorem nodup_retryableEvents (locked : List ℕ) (t : NotificationTables) :
    ((retryableEvents locked t).map (·.id)).Nodup :=
  t.events.nodup.sublist (List.filter_sublist.map _)

/-- The row of an event and its deliveries. -/
def NotificationTables.view (t : NotificationTables) (id : ℕ) :
    Option NotificationEvent × List NotificationDelivery := (t.events.get? id, t.deliveriesOf id)

/-- A dispatch run dispatches an event once, or leaves it alone. -/
theorem view_dispatchForSchema (env : ℕ → ℕ → SendEnv) (now : ℕ) (locked : List ℕ)
    (t : NotificationTables) (id : ℕ) :
    ((∀ event ∈ dueEvents now locked t, event.id ≠ id) ∧
        (dispatchForSchema env now locked t).view id = t.view id) ∨
      ∃ event ∈ dueEvents now locked t, event.id = id ∧
        (dispatchForSchema env now locked t).view id =
          (some { event with status := (dispatchTally (env id) now t event).status },
            t.deliveriesOf id ++ (dispatchTally (env id) now t event).added) := by
  have hother : ∀ (t : NotificationTables) (event : NotificationEvent) (id : ℕ), id ≠ event.id →
      (dispatchEvent (env event.id) now t event).view id = t.view id := fun t event id hid =>
    Prod.ext (dispatchEvent_other hid).1 (dispatchEvent_other hid).2
  rcases run_at hother (nodup_dueEvents now locked t) t id with hnone | ⟨event, hdue, rfl, front, hfront, hend⟩
  · exact .inl hnone
  · right
    refine ⟨event, hdue, rfl, hend.trans ?_⟩
    generalize hs : run (fun t event => dispatchEvent (env event.id) now t event) t front = s at hfront ⊢
    have hpreferences : s.preferences = t.preferences := by
      rw [← hs]
      have hkeep : ∀ (s : NotificationTables) (event : NotificationEvent),
          s.preferences = t.preferences →
          (dispatchEvent (env event.id) now s event).preferences = t.preferences := fun _ _ h => h
      exact run_invariant_of_step hkeep front rfl
    have hdeliveries : s.deliveriesOf event.id = t.deliveriesOf event.id := congrArg Prod.snd hfront
    have hevent : s.events.get? event.id = some event :=
      (congrArg Prod.fst hfront).trans (Keyed.get?_of_mem (mem_dueEvents hdue).1)
    have hself := @dispatchEvent_self (env event.id) now s event hevent
    rw [dispatchTally_congr hpreferences hdeliveries, hdeliveries] at hself
    exact Prod.ext hself.1 hself.2

/-- The retry job queues the event. -/
theorem retryEvent_self {now : ℕ} {event : NotificationEvent}
    (hevent : t.events.get? event.id = some event) :
    (retryEvent now t event).view event.id = t.view event.id ∨
      (failedChannels (t.deliveriesOf event.id) ≠ [] ∧
        (∀ channel ∈ failedChannels (t.deliveriesOf event.id),
          maxAttempt (t.deliveriesOf event.id) channel < maxAttempts) ∧
        (retryEvent now t event).view event.id =
          (some { event with status := .queued, scheduledAt := now }, t.deliveriesOf event.id)) := by
  unfold retryEvent
  dsimp only
  by_cases hfailed : failedChannels (t.deliveriesOf event.id) = []
  · rw [if_pos hfailed]
    exact .inl rfl
  · rw [if_neg hfailed]
    by_cases hexhausted : ∃ channel ∈ failedChannels (t.deliveriesOf event.id),
        maxAttempts ≤ maxAttempt (t.deliveriesOf event.id) channel
    · rw [if_pos hexhausted]
      exact .inl rfl
    · rw [if_neg hexhausted]
      by_cases hsoon : now - retryBackoff ≤ ((t.deliveriesOf event.id).map (·.sentAt)).foldr max 0
      · rw [if_pos hsoon]
        exact .inl rfl
      · rw [if_neg hsoon]
        refine .inr ⟨hfailed, ?_, Prod.ext (Keyed.get?_put_self hevent rfl) rfl⟩
        intro channel hchannel
        by_contra hle
        exact hexhausted ⟨channel, hchannel, not_lt.mp hle⟩

theorem view_retryForSchema (now : ℕ) (locked : List ℕ) (t : NotificationTables) (id : ℕ) :
    (retryForSchema now locked t).view id = t.view id ∨
      ∃ event ∈ retryableEvents locked t, event.id = id ∧
        failedChannels (t.deliveriesOf id) ≠ [] ∧
        (∀ channel ∈ failedChannels (t.deliveriesOf id),
          maxAttempt (t.deliveriesOf id) channel < maxAttempts) ∧
        (retryForSchema now locked t).view id =
          (some { event with status := .queued, scheduledAt := now }, t.deliveriesOf id) := by
  have hother : ∀ (t : NotificationTables) (event : NotificationEvent) (id : ℕ), id ≠ event.id →
      (retryEvent now t event).view id = t.view id := fun t event id hid =>
    Prod.ext (retryEvent_other hid) (retryEvent_deliveries id)
  rcases run_at hother (nodup_retryableEvents locked t) t id with ⟨-, hnone⟩ | ⟨event, hin, rfl, front, hfront, hend⟩
  · exact .inl hnone
  · have hdeliveries : (run (retryEvent now) t front).deliveriesOf event.id = t.deliveriesOf event.id :=
      congrArg Prod.snd hfront
    have hevent : (run (retryEvent now) t front).events.get? event.id = some event :=
      (congrArg Prod.fst hfront).trans (Keyed.get?_of_mem (List.mem_of_mem_filter hin))
    rcases @retryEvent_self _ now event hevent with hsame | ⟨hfailed, hroom, hqueued⟩
    · exact .inl (hend.trans (hsame.trans hfront))
    · rw [hdeliveries] at hfailed hroom hqueued
      exact .inr ⟨event, hin, rfl, hfailed, hroom, hend.trans hqueued⟩

/-- A published event is queued; nothing else changes. -/
theorem publish_eq_ok {templates : List NotificationTemplate} {now : ℕ} {req : PublishRequest}
    {event : NotificationEvent} {t' : NotificationTables}
    (h : publish templates now req t = .ok (event, t')) :
    t' = t ∨ ∃ build hbuild, (∀ id, (build id).status = .queued) ∧
      t' = { t with events := t.events.insertNew build hbuild } := by
  unfold publish at h
  split at h
  · next spec hspec =>
    split at h
    · next kind hkind =>
      dsimp only [bind, Except.bind] at h
      split at h
      · cases h
      · split at h
        · cases h
        · split at h
          · cases h
            exact .inl rfl
          · cases h
            exact .inr ⟨_, _, fun _ => rfl, rfl⟩
    · cases h
  · cases h

theorem putPreferences_eq_ok {kind : RecipientKind} {userId : ℕ} {body : List NotificationPreferenceIn}
    {t' : NotificationTables} (h : putPreferences kind userId body t = .ok t') :
    ∃ preferences, t' = { t with preferences } := by
  dsimp only [putPreferences, bind, Except.bind] at h
  split at h
  · cases h
  · cases h
    exact ⟨_, rfl⟩

/-- What an operation does to an event, and to its deliveries. -/
inductive EventEffect (t : NotificationTables) (event : NotificationEvent) :
    NotificationOp → NotificationEvent → List NotificationDelivery → Prop where
  | idle (op : NotificationOp)
      (hidle : ∀ env now locked, op = .dispatch env now locked → event ∉ dueEvents now locked t) :
      EventEffect t event op event (t.deliveriesOf event.id)
  | dispatched (env : ℕ → ℕ → SendEnv) (now : ℕ) (locked : List ℕ) (hdue : event ∈ dueEvents now locked t) :
      EventEffect t event (.dispatch env now locked)
        { event with status := (dispatchTally (env event.id) now t event).status }
        (t.deliveriesOf event.id ++ (dispatchTally (env event.id) now t event).added)
  | requeued (now : ℕ) (locked : List ℕ) (hin : event ∈ retryableEvents locked t)
      (hfailed : failedChannels (t.deliveriesOf event.id) ≠ [])
      (hroom : ∀ channel ∈ failedChannels (t.deliveriesOf event.id),
        maxAttempt (t.deliveriesOf event.id) channel < maxAttempts) :
      EventEffect t event (.retry now locked) { event with status := .queued, scheduledAt := now }
        (t.deliveriesOf event.id)

theorem effect_step {event : NotificationEvent} (hevent : t.events.get? event.id = some event)
    (op : NotificationOp) : ∃ event' deliveries, EventEffect t event op event' deliveries ∧
      (t.step op).events.get? event.id = some event' ∧ (t.step op).deliveriesOf event.id = deliveries := by
  have hof : ∀ event' deliveries, EventEffect t event op event' deliveries →
      (t.step op).view event.id = (some event', deliveries) →
      ∃ event' deliveries, EventEffect t event op event' deliveries ∧
        (t.step op).events.get? event.id = some event' ∧
        (t.step op).deliveriesOf event.id = deliveries := fun event' deliveries heffect hview =>
    ⟨event', deliveries, heffect, congrArg Prod.fst hview, congrArg Prod.snd hview⟩
  have hview : t.view event.id = (some event, t.deliveriesOf event.id) := Prod.ext hevent rfl
  cases op with
  | publish templates now req =>
    apply hof _ _ (.idle _ nofun)
    rw [NotificationTables.step]
    split
    · next published t' hpublish =>
      rcases publish_eq_ok hpublish with rfl | ⟨build, hbuild, -, rfl⟩
      · exact hview
      · exact Prod.ext (@Keyed.get?_insertNew_of_some _ _ build hbuild _ _ _ hevent) rfl
    · exact hview
  | putPreferences kind userId body =>
    apply hof _ _ (.idle _ nofun)
    rw [NotificationTables.step]
    split
    · next t' hput =>
      obtain ⟨preferences, rfl⟩ := putPreferences_eq_ok hput
      exact hview
    · exact hview
  | dispatch env now locked =>
    rcases view_dispatchForSchema env now locked t event.id with ⟨hnone, hsame⟩ | ⟨event', hdue, hid, hnew⟩
    · refine hof _ _ (.idle _ ?_) (hsame.trans hview)
      rintro env' now' locked' heq hdue
      cases heq
      exact hnone event hdue rfl
    · obtain rfl : event' = event :=
        t.events.eq_of_key (mem_dueEvents hdue).1 (Keyed.mem_of_get? hevent) hid
      exact hof _ _ (.dispatched env now locked hdue) hnew
  | retry now locked =>
    rcases view_retryForSchema now locked t event.id with hsame | ⟨event', hin, hid, hfailed, hroom, hnew⟩
    · exact hof _ _ (.idle _ nofun) (hsame.trans hview)
    · obtain rfl : event' = event :=
        t.events.eq_of_key (List.mem_of_mem_filter hin) (Keyed.mem_of_get? hevent) hid
      exact hof _ _ (.requeued now locked hin hfailed hroom) hnew

/-- A new event is queued, and where there is no event there is no delivery. -/
theorem step_of_none {id : ℕ} (hnone : t.events.get? id = none) (op : NotificationOp) :
    (t.step op).deliveriesOf id = t.deliveriesOf id ∧
      ∀ event, (t.step op).events.get? id = some event → event.status = .queued := by
  have hsame : ∀ t' : NotificationTables, t'.view id = t.view id →
      t'.deliveriesOf id = t.deliveriesOf id ∧
        ∀ event, t'.events.get? id = some event → event.status = .queued := by
    intro t' hview
    refine ⟨congrArg Prod.snd hview, fun event hevent => ?_⟩
    have hnone' : t'.events.get? id = none := (congrArg Prod.fst hview).trans hnone
    rw [hnone'] at hevent
    cases hevent
  have habsent : ∀ event ∈ t.events.rows, event.id ≠ id := by
    rintro event hin rfl
    rw [Keyed.get?_of_mem hin] at hnone
    cases hnone
  cases op with
  | publish templates now req =>
    rw [NotificationTables.step]
    split
    · next published t' hpublish =>
      rcases publish_eq_ok hpublish with rfl | ⟨build, hbuild, hqueued, rfl⟩
      · exact hsame _ rfl
      · refine ⟨rfl, fun event hevent => ?_⟩
        have hin := Keyed.mem_of_get? hevent
        rw [Keyed.rows_insertNew, List.mem_append, List.mem_singleton] at hin
        rcases hin with hold | rfl
        · exact absurd (Keyed.key_of_get? hevent) (habsent event hold)
        · exact hqueued _
    · exact hsame _ rfl
  | putPreferences kind userId body =>
    rw [NotificationTables.step]
    split
    · next t' hput =>
      obtain ⟨preferences, rfl⟩ := putPreferences_eq_ok hput
      exact hsame _ rfl
    · exact hsame _ rfl
  | dispatch env now locked =>
    rcases view_dispatchForSchema env now locked t id with ⟨-, hview⟩ | ⟨event, hdue, hid, -⟩
    · exact hsame _ hview
    · exact absurd hid (habsent event (mem_dueEvents hdue).1)
  | retry now locked =>
    rcases view_retryForSchema now locked t id with hview | ⟨event, hin, hid, -⟩
    · exact hsame _ hview
    · exact absurd hid (habsent event (List.mem_of_mem_filter hin))

end

/-! ## The invariant -/

/-- The deliveries of an event whose channels are all different: each channel is disciplined, and a
queued event has attempts left on every channel that has not succeeded. -/
structure Sound (event : NotificationEvent) (deliveries : List NotificationDelivery) : Prop where
  disciplined : ∀ channel, Disciplined maxAttempts (attemptsOn deliveries channel)
  room : event.status = .queued → ∀ channel, ¬ Succeeded (attemptsOn deliveries channel) →
    (attemptsOn deliveries channel).length < maxAttempts

/-- A channel that was enabled whenever the event was dispatched. -/
structure Follows (channel : Channel) (event : NotificationEvent)
    (deliveries : List NotificationDelivery) : Prop where
  leads : Leads (attemptsOn deliveries) channel
  attempted : event.status ≠ .queued → attemptsOn deliveries channel ≠ []
  sent : event.status = .sent → Succeeded (attemptsOn deliveries channel)

theorem sound_new (event : NotificationEvent) : Sound event [] :=
  ⟨fun _ => disciplined_nil, fun _ _ _ => Nat.zero_lt_succ 2⟩

theorem follows_new {channel : Channel} {event : NotificationEvent} (hqueued : event.status = .queued) :
    Follows channel event [] := by
  refine ⟨.inr fun _ => le_rfl, fun hne => absurd hqueued hne, fun hsent => ?_⟩
  rw [hqueued] at hsent
  cases hsent

/-- The highest attempt number is the number of attempts. -/
theorem maxAttempt_eq {deliveries : List NotificationDelivery} {channel : Channel}
    (h : Disciplined maxAttempts (attemptsOn deliveries channel)) :
    maxAttempt deliveries channel = (attemptsOn deliveries channel).length := by
  have hmap : (attemptsOn deliveries channel).map Prod.fst =
      (deliveries.filter (·.channel = channel)).map (·.attempt) := List.map_map
  rw [← h.foldr_max, hmap, maxAttempt]

/-- A failing channel is one with an attempt and no success. -/
theorem mem_failedChannels {deliveries : List NotificationDelivery} {channel : Channel} :
    channel ∈ failedChannels deliveries ↔
      attemptsOn deliveries channel ≠ [] ∧ ¬ Succeeded (attemptsOn deliveries channel) := by
  rw [failedChannels, List.mem_filter, decide_eq_true_eq, mem_sentChannels]
  refine and_congr_left fun hunsent => ?_
  rw [List.mem_map]
  constructor
  · rintro ⟨d, hd, hchannel⟩
    have hin : d ∈ deliveries.filter (·.channel = channel) :=
      List.mem_filter.mpr ⟨List.mem_of_mem_filter hd, decide_eq_true hchannel⟩
    exact List.ne_nil_of_mem (List.mem_map_of_mem hin)
  · intro hne
    obtain ⟨x, hx⟩ := List.exists_mem_of_ne_nil _ hne
    obtain ⟨d, hd, -⟩ := List.mem_map.mp hx
    have ⟨hin, hchannel⟩ := List.mem_filter.mp hd
    have hfailed : d.status = .failed := by
      cases hstatus : d.status with
      | failed => rfl
      | sent => exact absurd (succeeded_iff.mpr ⟨d, hin, of_decide_eq_true hchannel, hstatus⟩) hunsent
    exact ⟨d, List.mem_filter.mpr ⟨hin, decide_eq_true hfailed⟩, of_decide_eq_true hchannel⟩

variable {t : NotificationTables} {event event' : NotificationEvent}
  {deliveries : List NotificationDelivery} {op : NotificationOp}

theorem EventEffect.channels (h : EventEffect t event op event' deliveries) :
    event'.channels = event.channels := by
  cases h <;> rfl

theorem Sound.effect (h : Sound event (t.deliveriesOf event.id)) (hnodup : event.channels.Nodup)
    (heffect : EventEffect t event op event' deliveries) : Sound event' deliveries := by
  cases heffect with
  | idle _ hidle => exact h
  | dispatched env now locked hdue =>
    have hroom := h.room (mem_dueEvents hdue).2
    refine ⟨(round_dispatched hnodup).disciplined h.disciplined hroom, fun hqueued => ?_⟩
    exact absurd hqueued (status_ne_queued _)
  | requeued now locked hin hfailed hroom =>
    refine ⟨h.disciplined, fun _ channel hunsent => ?_⟩
    by_cases hattempted : attemptsOn (t.deliveriesOf event.id) channel = []
    · rw [hattempted]
      exact Nat.zero_lt_succ 2
    · rw [← maxAttempt_eq (h.disciplined channel)]
      exact hroom channel (mem_failedChannels.mpr ⟨hattempted, hunsent⟩)

theorem Follows.effect {channel : Channel} (h : Follows channel event (t.deliveriesOf event.id))
    (hnodup : event.channels.Nodup) (hchannel : channel ∈ event.channels) (hinApp : channel ≠ .inApp)
    (henabled : ∀ env now locked, op = .dispatch env now locked → event ∈ dueEvents now locked t →
      channel ∉ disabledChannels t.preferences event)
    (heffect : EventEffect t event op event' deliveries) : Follows channel event' deliveries := by
  cases heffect with
  | idle _ hidle => exact h
  | dispatched env now locked hdue =>
    have hmem : channel ∈ enabledChannels t event := ⟨hchannel, hinApp, henabled env now locked rfl hdue⟩
    have ⟨hattempted, hsent⟩ := @enabled_dispatched (env event.id) now t event hnodup channel hmem
    exact ⟨(round_dispatched hnodup).leads hmem h.leads, fun _ => hattempted, hsent⟩
  | requeued now locked hin hfailed hroom => exact ⟨h.leads, fun hne => absurd rfl hne, nofun⟩

/-- Every event is sound, and there is no delivery of anything else. -/
structure Inv (t : NotificationTables) : Prop where
  sound : ∀ event, t.events.get? event.id = some event → event.channels.Nodup →
    Sound event (t.deliveriesOf event.id)
  noStray : ∀ id, t.events.get? id = none → t.deliveriesOf id = []

theorem inv_empty : Inv .empty := by
  constructor
  · intro event hevent
    cases hevent
  · intro id _
    rfl

theorem get?_id {id : ℕ} (hevent : t.events.get? id = some event) : event.id = id :=
  Keyed.key_of_get? hevent

theorem Inv.step (h : Inv t) (op : NotificationOp) : Inv (t.step op) := by
  constructor
  · intro event' hevent' hnodup
    cases hbefore : t.events.get? event'.id with
    | none =>
      rw [(step_of_none hbefore op).1, h.noStray _ hbefore]
      exact sound_new event'
    | some event =>
      have hid : event.id = event'.id := get?_id hbefore
      rw [← hid] at hbefore hevent' ⊢
      obtain ⟨event₁, deliveries, heffect, hevent₁, hdeliveries⟩ := effect_step hbefore op
      obtain rfl : event₁ = event' := Option.some.inj (hevent₁.symm.trans hevent')
      rw [hdeliveries]
      rw [heffect.channels] at hnodup
      exact (h.sound event hbefore hnodup).effect hnodup heffect
  · intro id hnone
    cases hbefore : t.events.get? id with
    | none => rw [(step_of_none hbefore op).1, h.noStray id hbefore]
    | some event =>
      obtain rfl := get?_id hbefore
      obtain ⟨event₁, deliveries, -, hevent₁, -⟩ := effect_step hbefore op
      rw [hnone] at hevent₁
      cases hevent₁

/-- The recipient has not disabled the channel when the operation dispatches the event. -/
def EnabledWhenDispatched (id : ℕ) (channel : Channel) (t : NotificationTables) : NotificationOp → Prop
  | .dispatch _ now locked => ∀ event ∈ dueEvents now locked t, event.id = id →
      channel ∉ disabledChannels t.preferences event
  | _ => True

/-- The channel follows, if it belongs to the event. -/
def FollowsIn (id : ℕ) (channel : Channel) (t : NotificationTables) : Prop :=
  ∀ event, t.events.get? id = some event → event.channels.Nodup → channel ∈ event.channels →
    channel ≠ .inApp → Follows channel event (t.deliveriesOf id)

theorem FollowsIn.step {id : ℕ} {channel : Channel} (hinv : Inv t) (h : FollowsIn id channel t)
    (hop : EnabledWhenDispatched id channel t op) : FollowsIn id channel (t.step op) := by
  intro event' hevent' hnodup hchannel hinApp
  cases hbefore : t.events.get? id with
  | none =>
    have ⟨hdeliveries, hqueued⟩ := step_of_none hbefore op
    rw [hdeliveries, hinv.noStray id hbefore]
    exact follows_new (hqueued event' hevent')
  | some event =>
    obtain rfl := get?_id hbefore
    obtain ⟨event₁, deliveries, heffect, hevent₁, hdeliveries⟩ := effect_step hbefore op
    obtain rfl : event₁ = event' := Option.some.inj (hevent₁.symm.trans hevent')
    rw [heffect.channels] at hnodup hchannel
    rw [hdeliveries]
    apply (h event hbefore hnodup hchannel hinApp).effect hnodup hchannel hinApp _ heffect
    rintro env now locked rfl hdue
    exact hop event hdue rfl

/-! ## Settled events -/

/-- No dispatch run and no retry run changes the event or its deliveries any more. -/
def Settled (id : ℕ) (t : NotificationTables) : Prop :=
  (∀ env now locked, (t.step (.dispatch env now locked)).view id = t.view id) ∧
    ∀ now locked, (t.step (.retry now locked)).view id = t.view id

/-- The ids of the other events, for a run that finds these locked. -/
def otherIds (t : NotificationTables) (id : ℕ) : List ℕ := (t.events.rows.map (·.id)).filter (· ≠ id)

theorem notMem_otherIds {id : ℕ} {event : NotificationEvent} (hin : event ∈ t.events.rows) :
    event.id ∉ otherIds t id ↔ event.id = id := by
  rw [otherIds, List.mem_filter, not_and]
  constructor
  · intro h
    by_contra hne
    exact h (List.mem_map_of_mem hin) (decide_eq_true hne)
  · rintro heq -
    simp [heq]

/-- A settled event is not queued. -/
theorem Settled.not_queued (h : Settled event.id t) (env : ℕ → ℕ → SendEnv)
    (hevent : t.events.get? event.id = some event) : event.status ≠ .queued := by
  intro hqueued
  have hdue : event ∈ dueEvents event.scheduledAt (otherIds t event.id) t := by
    have hfilter : (t.events.rows.filter fun row => row.status = .queued ∧
        row.scheduledAt ≤ event.scheduledAt ∧ row.id ∉ otherIds t event.id) = [event] := by
      have hkey : (t.events.rows.filter fun row => row.id = event.id) = [event] := by
        rw [Keyed.filter_key, hevent]
        rfl
      rw [← hkey]
      apply List.filter_congr
      intro row hrow
      rw [decide_eq_decide, notMem_otherIds hrow]
      constructor
      · exact fun hall => hall.2.2
      · intro hid
        obtain rfl := t.events.eq_of_key hrow (Keyed.mem_of_get? hevent) hid
        exact ⟨hqueued, le_rfl, rfl⟩
    rw [dueEvents, hfilter]
    exact List.mem_singleton_self event
  rcases view_dispatchForSchema env event.scheduledAt (otherIds t event.id) t event.id with
    ⟨hnone, -⟩ | ⟨event', hdue', hid, hview⟩
  · exact hnone event hdue rfl
  · have hsame := hview.symm.trans (h.1 env event.scheduledAt (otherIds t event.id))
    have hget : some _ = t.events.get? event.id := congrArg Prod.fst hsame
    rw [hevent] at hget
    have hstatus := congrArg NotificationEvent.status (Option.some.inj hget)
    exact status_ne_queued _ (hstatus.trans hqueued)

/-- An event with a failing channel is settled only when one of them is exhausted. -/
theorem Settled.exhausted (h : Settled event.id t) (hevent : t.events.get? event.id = some event)
    (hstatus : event.status = .partlySent ∨ event.status = .failed)
    (hfailed : failedChannels (t.deliveriesOf event.id) ≠ []) :
    ∃ channel, maxAttempts ≤ maxAttempt (t.deliveriesOf event.id) channel := by
  by_contra hnone
  have hroom : ¬ ∃ channel ∈ failedChannels (t.deliveriesOf event.id),
      maxAttempts ≤ maxAttempt (t.deliveriesOf event.id) channel := by
    rintro ⟨channel, -, hle⟩
    exact hnone ⟨channel, hle⟩
  -- the run that finds the other events locked, after the backoff
  have hretryable : retryableEvents (otherIds t event.id) t = [event] := by
    have hkey : (t.events.rows.filter fun row => row.id = event.id) = [event] := by
      rw [Keyed.filter_key, hevent]
      rfl
    rw [retryableEvents, ← hkey]
    apply List.filter_congr
    intro row hrow
    rw [decide_eq_decide, notMem_otherIds hrow]
    constructor
    · exact fun hall => hall.2
    · intro hid
      obtain rfl := t.events.eq_of_key hrow (Keyed.mem_of_get? hevent) hid
      exact ⟨hstatus, rfl⟩
  generalize hnewest : ((t.deliveriesOf event.id).map (·.sentAt)).foldr max 0 = newest
  have hlate : ¬ newest + retryBackoff + 1 - retryBackoff ≤ newest := by omega
  have hview := h.2 (newest + retryBackoff + 1) (otherIds t event.id)
  have hget : (retryForSchema (newest + retryBackoff + 1) (otherIds t event.id) t).events.get? event.id
      = t.events.get? event.id := congrArg Prod.fst hview
  rw [retryForSchema, hretryable, List.foldl_cons, List.foldl_nil, retryEvent, if_neg hfailed,
    if_neg hroom, hnewest, if_neg hlate] at hget
  have hput : (t.events.put { event with status := .queued, scheduledAt := newest + retryBackoff + 1 }).get?
      event.id = some { event with status := .queued, scheduledAt := newest + retryBackoff + 1 } :=
    Keyed.get?_put_self hevent rfl
  have hsame := Option.some.inj (hput.symm.trans (hget.trans hevent))
  have hqueued : EventStatus.queued = event.status := congrArg NotificationEvent.status hsame
  rw [← hqueued] at hstatus
  rcases hstatus with hs | hs <;> cases hs

/-- In a settled event a channel that was enabled whenever the event was dispatched has succeeded or
is exhausted. -/
theorem Follows.of_settled {channel : Channel} (hfollows : Follows channel event (t.deliveriesOf event.id))
    (hsound : Sound event (t.deliveriesOf event.id)) (h : Settled event.id t) (env : ℕ → ℕ → SendEnv)
    (hevent : t.events.get? event.id = some event) :
    Succeeded (attemptsOn (t.deliveriesOf event.id) channel) ∨
      (attemptsOn (t.deliveriesOf event.id) channel).length = maxAttempts := by
  by_cases hsucceeded : Succeeded (attemptsOn (t.deliveriesOf event.id) channel)
  · exact .inl hsucceeded
  right
  have hqueued := h.not_queued env hevent
  have hstatus : event.status = .partlySent ∨ event.status = .failed := by
    cases hs : event.status with
    | queued => exact absurd hs hqueued
    | sent => exact absurd (hfollows.sent hs) hsucceeded
    | partlySent => exact .inl rfl
    | failed => exact .inr rfl
  have hfailing : channel ∈ failedChannels (t.deliveriesOf event.id) :=
    mem_failedChannels.mpr ⟨hfollows.attempted hqueued, hsucceeded⟩
  obtain ⟨channel', hexhausted⟩ := h.exhausted hevent hstatus (List.ne_nil_of_mem hfailing)
  rw [maxAttempt_eq (hsound.disciplined channel')] at hexhausted
  have hlongest : ∀ c, (attemptsOn (t.deliveriesOf event.id) c).length ≤
      (attemptsOn (t.deliveriesOf event.id) channel).length := hfollows.leads.resolve_left hsucceeded
  have hle := hlongest channel'
  have hcap := (hsound.disciplined channel).length_le
  omega

/-! ## Runs -/

/-- The deliveries of an event on a channel, in order. -/
def NotificationTables.deliveriesOn (t : NotificationTables) (id : ℕ) (channel : Channel) :
    List NotificationDelivery := (t.deliveriesOf id).filter (·.channel = channel)

/-- `NullEmailProvider` and `NullSMSProvider`, with templates that need no rendering. -/
def nullEnv (templates : List NotificationTemplate) : SendEnv where
  templates := templates
  emailProvider := ⟨"null", fun _ _ _ _ => .ok none⟩
  smsProvider := ⟨"null", fun _ _ => .ok none⟩
  render text _ _ := .ok text

theorem inv_run (ops : List NotificationOp) : Inv (run NotificationTables.step .empty ops) :=
  run_invariant_of_step (fun _ op h => h.step op) ops inv_empty

theorem followsIn_run {id : ℕ} {channel : Channel} {ops : List NotificationOp}
    (hops : Along NotificationTables.step (EnabledWhenDispatched id channel) .empty ops) :
    FollowsIn id channel (run NotificationTables.step .empty ops) := by
  have hstep : ∀ (t : NotificationTables) (op : NotificationOp), Inv t ∧ FollowsIn id channel t →
      EnabledWhenDispatched id channel t op → Inv (t.step op) ∧ FollowsIn id channel (t.step op) :=
    fun t op h hop => ⟨h.1.step op, h.2.step h.1 hop⟩
  have hstart : FollowsIn id channel .empty := by
    intro event hevent
    cases hevent
  exact (run_invariant hstep ⟨inv_empty, hstart⟩ hops).2

/-- Whatever is published, the recipients prefer and the providers do, in any order of the jobs: on
each channel of an event with different channels, at most one delivery is sent, the attempts are
numbered from one to at most three, and none follows a sent one. Once no job changes the event any
more, a channel that was enabled whenever the event was dispatched has been sent or attempted three
times. -/
theorem delivery_discipline {ops : List NotificationOp} {id : ℕ} {event : NotificationEvent}
    (hevent : (run NotificationTables.step .empty ops).events.get? id = some event)
    (hnodup : event.channels.Nodup) (channel : Channel) :
    let t := run NotificationTables.step .empty ops
    let attempts := t.deliveriesOn id channel
    (attempts.filter (·.status = .sent)).length ≤ 1 ∧
      attempts.map (·.attempt) = List.range' 1 attempts.length ∧ attempts.length ≤ 3 ∧
      (∀ d ∈ attempts.dropLast, d.status = .failed) ∧
      (Settled id t → channel ∈ event.channels → channel ≠ .inApp →
        Along NotificationTables.step (EnabledWhenDispatched id channel) .empty ops →
        (∃ d ∈ attempts, d.status = .sent) ∨ attempts.length = 3) := by
  intro t attempts
  obtain rfl := get?_id hevent
  have hsound : Sound event (t.deliveriesOf event.id) := (inv_run ops).sound event hevent hnodup
  have hdisciplined := hsound.disciplined channel
  have hlength : (attemptsOn (t.deliveriesOf event.id) channel).length = attempts.length :=
    length_attemptsOn _ channel
  refine ⟨?_, ?_, ?_, ?_, ?_⟩
  · have hone := hdisciplined.count_le_one
    rw [attemptsOn, List.filter_map, List.length_map] at hone
    exact hone
  · have hnumbered := hdisciplined.numbered
    rw [hlength, attemptsOn, List.map_map] at hnumbered
    exact hnumbered
  · have hle := hdisciplined.length_le
    rw [hlength] at hle
    exact hle
  · intro d hd
    have hfailed := hdisciplined.failed (d.attempt, decide (d.status = .sent))
    rw [attemptsOn, ← List.map_dropLast] at hfailed
    have hne := hfailed (List.mem_map_of_mem hd)
    cases hstatus : d.status with
    | failed => rfl
    | sent => simp [hstatus] at hne
  · intro hsettled hchannel hinApp hops
    have hfollows := followsIn_run hops event hevent hnodup hchannel hinApp
    rcases hfollows.of_settled hsound hsettled (fun _ _ => nullEnv []) hevent with hsent | hexhausted
    · obtain ⟨d, hd, hon, hstatus⟩ := succeeded_iff.mp hsent
      exact .inl ⟨d, List.mem_filter.mpr ⟨hd, decide_eq_true hon⟩, hstatus⟩
    · rw [hlength] at hexhausted
      exact .inr hexhausted

/-- A sent event is settled. -/
theorem settled_of_sent {event : NotificationEvent} {t : NotificationTables}
    (hevent : t.events.get? event.id = some event) (hsent : event.status = .sent) :
    Settled event.id t := by
  constructor
  · intro env now locked
    rcases view_dispatchForSchema env now locked t event.id with ⟨-, hsame⟩ | ⟨event', hdue, hid, -⟩
    · exact hsame
    · obtain rfl := t.events.eq_of_key (mem_dueEvents hdue).1 (Keyed.mem_of_get? hevent) hid
      have hqueued := (mem_dueEvents hdue).2
      rw [hsent] at hqueued
      cases hqueued
  · intro now locked
    rcases view_retryForSchema now locked t event.id with hsame | ⟨event', hin, hid, -⟩
    · exact hsame
    · obtain rfl := t.events.eq_of_key (List.mem_of_mem_filter hin) (Keyed.mem_of_get? hevent) hid
      have hstatus := of_decide_eq_true (List.mem_filter.mp hin).2
      rw [hsent] at hstatus
      rcases hstatus.1 with hs | hs <;> cases hs

/-! ## Channels given twice, and preferences that change -/

def announcementTemplate (channel : Channel) : NotificationTemplate where
  code := "system_announcement"
  channel := channel
  locale := "en"
  subjectTemplate := some "Notice"
  bodyHtml := none
  bodyText := some "Hello"
  smsBody := none
  variableNames := []
  isActive := true

def announcement (channels : List String) : NotificationOp :=
  .publish [] 0
    { eventCode := "system_announcement"
      recipientKind := "member"
      recipientUserId := 7
      recipientEmail := some "m@x.test"
      recipientPhone := some "0700"
      context := []
      channels := some channels
      scheduledAt := none
      dedupeKey := none }

def dispatchAll (now : ℕ) : NotificationOp :=
  .dispatch (fun _ _ => nullEnv [announcementTemplate .email, announcementTemplate .sms]) now []

def smsPreference (enabled : Bool) : NotificationOp :=
  .putPreferences .member 7 [⟨"system_announcement", "sms", enabled⟩]

/-- The event that `announcement` publishes first. -/
def announced (channels : List Channel) (status : EventStatus) : NotificationEvent where
  id := 1
  eventCode := "system_announcement"
  recipientKind := .member
  recipientUserId := 7
  recipientEmail := some "m@x.test"
  recipientPhone := some "0700"
  channels := channels
  context := []
  dedupeKey := none
  scheduledAt := 0
  status := status

theorem delivery_discipline_announcement :
    let t := run NotificationTables.step .empty [announcement ["email", "sms"], dispatchAll 1]
    t.events.get? 1 = some (announced [.email, .sms] .sent) ∧
      (∃ d ∈ t.deliveriesOn 1 .sms, d.status = .sent) ∧
      ((t.deliveriesOn 1 .sms).filter (·.status = .sent)).length ≤ 1 ∧
      (t.deliveriesOn 1 .sms).length ≤ 3 := by
  intro t
  have hevent : t.events.get? 1 = some (announced [.email, .sms] .sent) := by decide
  have h := delivery_discipline hevent (by decide) .sms
  exact ⟨hevent, by decide, h.1, h.2.2.1⟩

/-- A channel given twice is sent twice by one job. A channel that is disabled while the event is
dispatched and enabled again is never attempted: the event is sent, by its other channels. -/
theorem repeated_and_reenabled_channels :
    (¬ ∀ (ops : List NotificationOp) (id : ℕ) (event : NotificationEvent) (channel : Channel),
      (run NotificationTables.step .empty ops).events.get? id = some event →
        (((run NotificationTables.step .empty ops).deliveriesOn id channel).filter
          (·.status = .sent)).length ≤ 1) ∧
    ¬ ∀ (ops : List NotificationOp) (id : ℕ) (event : NotificationEvent) (channel : Channel),
      (run NotificationTables.step .empty ops).events.get? id = some event → event.channels.Nodup →
        Settled id (run NotificationTables.step .empty ops) → channel ∈ event.channels →
        channel ≠ .inApp →
        channel ∉ disabledChannels (run NotificationTables.step .empty ops).preferences event →
        (∃ d ∈ (run NotificationTables.step .empty ops).deliveriesOn id channel, d.status = .sent) ∨
          ((run NotificationTables.step .empty ops).deliveriesOn id channel).length = 3 := by
  constructor
  · intro h
    have htwice := h [announcement ["email", "email"], dispatchAll 1] 1
      (announced [.email, .email] .sent) .email (by decide)
    revert htwice
    decide
  · intro h
    have hevent : (run NotificationTables.step .empty
        [announcement ["email", "sms"], smsPreference false, dispatchAll 1,
          smsPreference true]).events.get? 1 = some (announced [.email, .sms] .sent) := by decide
    have hsettled := @settled_of_sent (announced [.email, .sms] .sent) _ hevent rfl
    have hnever := h _ 1 _ .sms hevent (by decide) hsettled (by decide) (by decide) (by decide)
    revert hnever
    decide

end SaccoPlatform.Notifications
