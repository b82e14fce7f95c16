import Mathlib.Data.Nat.Find
import ReplicaControl.Proofs.SweepFlow

/-!
# What sweeps of schedules report

* `Schedule.HasSwept`, `sweep_snd` — a sweep comes back at the first time at which all its retries
  are over and no task is ready.
* `Schedule.Alert`, `Alert.flow` — an attempt is ready whenever it can take a step.
* `Schedule.SweepProceeds`, `exists_hasSwept` — if time goes on and nobody disturbs the retries,
  they are over at some time.
* `Schedule.Sweeps`, `sweeps_of_proceeds` — then the sweep comes back and accounts for every failed
  entry.
-/

namespace ReplicaControl

namespace Attempt

/-! ## Alarms of attempts -/

variable {s : Settings} {a : Attempt} {w : World}

/-- A suspended wait has an alarm for the end of its time. -/
def HasAlarm (a : Attempt) : Prop :=
  ∀ wait wake, a.phase = .waiting wait wake → wait.ticket.isSome = true

theorem HasAlarm.of_phase (h : ∀ wait wake, a.phase ≠ .waiting wait wake) : a.HasAlarm :=
  fun wait wake hp => absurd hp (h wait wake)

theorem step_hasAlarm (s : Settings) (w : World) (h : a.HasAlarm) : (a.step s w).1.HasAlarm := by
  have hc := a.step_case s w
  generalize a.step s w = r at hc
  cases hc with
  | idle => exact h
  | slept _ _ _ _ _ _ ht =>
    intro wait wake hp
    cases hp
    exact ht
  | decided _ _ hn => cases hn <;> exact .of_phase fun _ _ hp => nomatch hp
  | polled => exact .of_phase fun _ _ hp => by dsimp only at hp; split at hp <;> cases hp
  | content => exact .of_phase fun _ _ hp => nomatch hp
  | begun => exact .of_phase fun _ _ hp => nomatch hp
  | unreachable => exact .of_phase fun _ _ hp => nomatch hp
  | arrived => exact .of_phase fun _ _ hp => nomatch hp
  | stored => exact .of_phase fun _ _ hp => nomatch hp
  | retried => exact .of_phase fun _ _ hp => nomatch hp
  | exhausted => exact .of_phase fun _ _ hp => nomatch hp
  | gone => exact .of_phase fun _ _ hp => nomatch hp
  | denied => exact .of_phase fun _ _ hp => nomatch hp
  | failed => exact .of_phase fun _ _ hp => nomatch hp

/-- What keeps an attempt from a step now and no longer then is an alarm that rang meanwhile. -/
theorem HasAlarm.exists_due (h : a.HasAlarm) {now later : Nat} (hidle : a.canStep now = false)
    (hstep : a.canStep later = true) : ∃ alarm ∈ a.alarms, alarm.due ≤ later := by
  unfold canStep isOver isSuspended at hidle hstep
  unfold alarms
  cases hp : a.phase with
  | waiting wait wake =>
    obtain ⟨ticket, hticket⟩ := Option.isSome_iff_exists.1 (h wait wake hp)
    rw [hp] at hstep
    simp only [Bool.not_false, Bool.true_and, Bool.not_eq_true', Bool.and_eq_false_iff,
      decide_eq_false_iff_not, Nat.not_lt] at hstep
    rcases hstep with hdue | hdue
    · exact ⟨wake, List.mem_cons_self, hdue⟩
    · exact ⟨⟨wait.deadline, ticket⟩, by simp [hticket], hdue⟩
  | backingOff n k wake =>
    rw [hp] at hstep
    exact ⟨wake, List.mem_singleton_self wake, by simpa using hstep⟩
  | starting | deciding | polling | writing | ended | aborted => simp [hp] at hidle hstep

end Attempt

namespace Schedule

variable {s s' : Schedule} {id : TaskId} {a : Attempt}

/-! ## Attempts that are awake -/

/-- An attempt is ready whenever it can take a step. -/
def Alert (s : Schedule) (id : TaskId) : Prop :=
  ∃ a, s.attempt? id = some a ∧ a.HasAlarm ∧ (a.canStep s.world.now = true → id ∈ s.ready)

/-- A task whose alarm rings gets ready. -/
theorem mem_ready_tick {callers : List Alarm} (h : s.tick callers = some s')
    (ha : s.attempt? id = some a) {alarm : Alarm} (hmem : alarm ∈ a.alarms)
    (hdue : alarm.due ≤ s'.world.now) : id ∈ s'.ready := by
  unfold tick at h
  split at h
  · cases h
  · rename_i due _
    cases h
    have hentry := (Table.mem_entries_iff _).2 (attempt?_eq_some.1 ha)
    have hrings : alarm ∈ a.alarms.filter fun x => x.due ≤ max s.world.now due :=
      List.mem_filter.2 ⟨hmem, decide_eq_true hdue⟩
    obtain ⟨ticket, hticket⟩ := Option.isSome_iff_exists.1
      (List.isSome_min?_of_mem (List.mem_map_of_mem (f := Alarm.ticket) hrings))
    refine List.mem_append_right _ (List.mem_map.2 ⟨(ticket, id), List.mem_mergeSort.2 ?_, rfl⟩)
    refine List.mem_filterMap.2 ⟨_, hentry, ?_⟩
    show Option.map _ (List.min? _) = _
    rw [show Task.alarms (.attempt a) = a.alarms from rfl, hticket]
    rfl

theorem Alert.tick {callers : List Alarm} (h : s.Alert id) (hready : s.ready = [])
    (htick : s.tick callers = some s') : s'.Alert id := by
  obtain ⟨a, ha, halarm, hawake⟩ := h
  have hidle : a.canStep s.world.now = false := by
    refine Bool.eq_false_iff.2 fun hstep => ?_
    have hmem := hawake hstep
    rw [hready] at hmem
    cases hmem
  refine ⟨a, ?_, halarm, fun hstep => ?_⟩
  · rw [attempt?, tick_tasks htick]
    exact ha
  · obtain ⟨alarm, hmem, hdue⟩ := halarm.exists_due hidle hstep
    exact mem_ready_tick htick ha hmem hdue

/-- **An attempt that is ready whenever it can take a step stays so.** -/
theorem Alert.flow (horderly : s.Orderly) (h : s.Alert id) : s.flow.Alert id := by
  obtain ⟨a, ha, halarm, hawake⟩ := h
  have hc := s.flow_case
  generalize s.flow = t at hc
  cases hc with
  | tick hready htick => exact Alert.tick ⟨a, ha, halarm, hawake⟩ hready htick
  | stuck => exact ⟨a, ha, halarm, hawake⟩
  | move _ hmove =>
    cases hmove with
    | @drop other rest hready hidle =>
      refine ⟨a, ha, halarm, fun hstep => ?_⟩
      have hmem := hawake hstep
      rw [hready] at hmem
      refine (List.mem_cons.1 hmem).resolve_left ?_
      rintro rfl
      exact absurd ((hidle _ (attempt?_eq_some.1 ha)).symm.trans hstep) (by decide)
    | @attempt other b hhead hb hstep =>
      have hready := (ready_stepAttempt s other b).subset
      have hworld := congrArg World.now (world_stepAttempt s other b)
      rw [Attempt.step_now] at hworld
      by_cases hid : id = other
      · subst hid
        refine ⟨_, (attempt?_stepAttempt ..).trans (if_pos rfl), ?_, ?_⟩
        · obtain rfl := Option.some.inj ((attempt?_eq_some.2 hb).symm.trans ha)
          exact b.step_hasAlarm _ _ halarm
        · exact fun _ => hready (List.mem_of_head? hhead)
      · refine ⟨a, (attempt?_stepAttempt ..).trans ((if_neg hid).trans ha), halarm, ?_⟩
        rw [hworld]
        exact fun hstep => hready (hawake hstep)
    | @loop other l hhead hl =>
      obtain ⟨hkept, hready, hnow⟩ :=
        stepLoop_spec horderly.numbered (horderly.rested_of_loop hhead hl) hl
      refine ⟨a, hkept id a ha, halarm, ?_⟩
      rw [hnow]
      exact fun hstep => hready.subset (hawake hstep)

/-! ## The wait of a sweep -/

/-- Some steps after a sweep began all its retries are over, and the caller has its turn. -/
def HasSwept (s : Schedule) (n : Nat) : Prop :=
  s.retryIds.all (s.sweeping n).isOver = true ∧ (n = 0 ∨ (s.sweeping n).ready = [])

/-- Time goes on after a sweep began: at some time past every instant no task is ready, unless the
sweep came back before. -/
def SweepProceeds (s : Schedule) : Prop :=
  ∀ t, ∃ n, s.HasSwept n ∨ (s.sweeping n).ready = [] ∧ t ≤ (s.sweeping n).world.now

/-- A sweep of a schedule comes back some steps after it began: its wait is over for the first time,
and what it reports accounts for every failed entry. -/
structure Sweeps (s : Schedule) (hn : s.Numbered) (hr : s.Rested) (n : Nat) : Prop where
  back : s.sweep.2 = s.sweeping n
  swept : s.HasSwept n
  first : ∀ m < n, ¬ s.HasSwept m
  ends : (course hn hr).Ends n s.sweep.1

/-- **A sweep comes back at the first time at which all its retries are over.** -/
theorem sweep_snd {n : Nat} (h : s.HasSwept n) (hfirst : ∀ m < n, ¬ s.HasSwept m) :
    s.sweep.2 = s.sweeping n := by
  show s.beginSweep.2.join s.retryIds = s.sweeping n
  rcases Nat.eq_zero_or_pos n with rfl | hpos
  · exact join_of_over h.1
  · refine join_flow (h.2.resolve_left (Nat.ne_of_gt hpos)) h.1 (fun m hm hready => ?_)
      fun hover => absurd ⟨hover, .inl rfl⟩ (hfirst 0 hpos)
    exact Bool.eq_false_iff.2 fun hover => hfirst m hm ⟨hover, .inr hready⟩

theorem ending?_eq (s : Schedule) (id : TaskId) :
    s.ending? id = (s.attempt? id).bind Attempt.ending? := by
  unfold ending? attempt?
  cases s.tasks.get? id with
  | none => rfl
  | some t => cases t <;> rfl

theorem isOver_of_attempt? (ha : s.attempt? id = some a) : s.isOver id = a.isOver := by
  rw [isOver, attempt?_eq_some.1 ha]
  rfl

section

variable (hn : s.Numbered) (hr : s.Rested)
include hn hr

theorem isSwept_iff {n : Nat} :
    (course hn hr).IsSwept n ↔ s.retryIds.all (s.sweeping n).isOver = true := by
  rw [List.all_eq_true]
  constructor
  · intro h id hid
    obtain ⟨a, ha⟩ := exists_attempt hn hr hid n
    rw [isOver_of_attempt? ha]
    exact h a (List.mem_filterMap.2 ⟨id, hid, ha⟩)
  · intro h a hmem
    obtain ⟨id, hid, ha⟩ := List.mem_filterMap.1 hmem
    rw [← isOver_of_attempt? ha]
    exact h id hid

/-- What a sweep reports about its retries. -/
theorem sweep_fst_of_snd {n : Nat} (h : s.sweep.2 = s.sweeping n) :
    s.sweep.1 = (course hn hr).report n := by
  have hendings : s.retryIds.map (s.sweeping n).ending? =
      (s.retriesAt n).map Attempt.ending? := by
    have hbind : (s.sweeping n).ending? =
        (·.bind Attempt.ending?) ∘ (s.sweeping n).attempt? := funext (ending?_eq _)
    rw [hbind, ← List.map_map, map_retriesAt hn hr, List.map_map]
    rfl
  rw [sweep_fst, h]
  exact congrArg (List.foldl Sweep.Report.record _) hendings

/-- The retries are ready whenever they can take a step. -/
theorem sweeping_alert {id : TaskId} (hid : id ∈ s.retryIds) (n : Nat) :
    (s.sweeping n).Alert id := by
  induction n with
  | zero =>
    have hmem := List.mem_map_of_mem (f := (s.sweeping 0).attempt?) hid
    rw [map_attempt?_retryIds hn] at hmem
    obtain ⟨l, -, hl⟩ := List.mem_map.1 hmem
    have halarm : (Attempt.launch l.1 l.2).HasAlarm := .of_phase fun _ _ hp => nomatch hp
    refine ⟨_, hl.symm, halarm, fun _ => ?_⟩
    have hready := ready_launchAll { s with world := (Sweep.survey s.settings s.world).2 }
      (Sweep.survey s.settings s.world).1.2
    exact hready ▸ List.mem_append_right _ hid
  | succ n ih =>
    rw [sweeping_succ]
    exact ih.flow (sweeping_leads hn hr n).orderly

theorem now_le_sweeping {m n : Nat} (h : m ≤ n) :
    (s.sweeping m).world.now ≤ (s.sweeping n).world.now := by
  induction h with
  | refl => exact Nat.le_refl _
  | @step n _ ih =>
    rw [sweeping_succ]
    exact Nat.le_trans ih (now_le_flow (sweeping_leads hn hr n).orderly)

/-- The retries of a sweep get their turns when time goes on. -/
theorem course_fair (hproceeds : s.SweepProceeds) (hnone : ∀ n, ¬ s.HasSwept n) :
    (course hn hr).Fair := by
  intro j _ t m
  obtain ⟨n, hswept | ⟨hready, htime⟩⟩ := hproceeds (max t ((s.sweeping m).world.now + 1))
  · exact absurd hswept (hnone n)
  refine ⟨n, Nat.le_of_not_lt fun hlt => ?_, Nat.le_trans (Nat.le_max_left _ _) htime,
    .inr fun a ha => ?_⟩
  · have hnow := now_le_sweeping hn hr (Nat.le_of_lt hlt)
    have htime := Nat.le_trans (Nat.le_max_right _ _) htime
    omega
  · obtain ⟨id, hid, hget⟩ := List.mem_filterMap.1 (List.mem_of_getElem? ha)
    obtain ⟨b, hb, -, hawake⟩ := sweeping_alert hn hr hid n
    obtain rfl := Option.some.inj (hb.symm.trans hget)
    refine Bool.eq_false_iff.2 fun hstep => ?_
    have hmem := hawake hstep
    rw [hready] at hmem
    cases hmem

variable (hfiled : s.world.registry.Filed)
include hfiled

/-- **A sweep that nobody disturbs comes back**, if time goes on. -/
theorem exists_hasSwept (hproceeds : s.SweepProceeds)
    (hcalm : ∀ n, (∀ m ≤ n, ¬ s.HasSwept m) → ∀ e ∈ s.world.registry.failures,
      e.scaling = false → (course hn hr).Undisturbed n e.key) :
    ∃ n, s.HasSwept n := by
  by_contra hnone
  have hnone : ∀ n, ¬ s.HasSwept n := fun n h => hnone ⟨n, h⟩
  obtain ⟨m, hm⟩ := (course hn hr).exists_swept hfiled (course_fair hn hr hproceeds hnone)
    fun n => hcalm n fun k _ => hnone k
  -- at the next time at which no task is ready the retries are still over
  obtain ⟨n, hswept | ⟨hready, htime⟩⟩ := hproceeds ((s.sweeping m).world.now + 1)
  · exact hnone n hswept
  have hmn : m ≤ n := by
    refine Nat.le_of_not_lt fun hlt => ?_
    have hnow := now_le_sweeping hn hr (Nat.le_of_lt hlt)
    omega
  refine hnone n ⟨(isSwept_iff hn hr).1 fun a ha => ?_, .inr hready⟩
  obtain ⟨j, hj⟩ := List.getElem?_of_mem ha
  obtain ⟨b, hb⟩ := (course hn hr).exists_retry (Sweep.Course.launch_of_getElem? hj) m
  have hover := hm b (List.mem_of_getElem? hb)
  obtain rfl := Option.some.inj ((Sweep.Course.getElem?_of_isOver hover hmn hb).symm.trans hj)
  exact hover

/-- **A sweep of a schedule accounts for every failed entry.** -/
theorem sweeps_of_proceeds (hproceeds : s.SweepProceeds)
    (hcalm : ∀ n, (∀ m ≤ n, ¬ s.HasSwept m) → ∀ e ∈ s.world.registry.failures,
      e.scaling = false → (course hn hr).Undisturbed n e.key)
    (hsound : ∀ a ∈ s.sweep.2.attemptsOf s.retryIds, a.phase ≠ .aborted) :
    ∃ n, s.Sweeps hn hr n := by
  classical
  have hex := exists_hasSwept hn hr hfiled hproceeds hcalm
  have hfirst : ∀ m < Nat.find hex, ¬ s.HasSwept m := fun m hm => Nat.find_min hex hm
  have hswept := Nat.find_spec hex
  have hback := sweep_snd hswept hfirst
  have hcalm : ∀ m < Nat.find hex, ∀ e ∈ s.world.registry.failures, e.scaling = false →
      (course hn hr).Undisturbed m e.key := fun m hm =>
    hcalm m fun k hk => hfirst k (Nat.lt_of_le_of_lt hk hm)
  refine ⟨Nat.find hex, hback, hswept, hfirst, ?_⟩
  rw [hback] at hsound
  rw [sweep_fst_of_snd hn hr hback]
  exact (course hn hr).ends hfiled hcalm ((isSwept_iff hn hr).2 hswept.1) hsound

end

end Schedule

end ReplicaControl
