import Mathlib.Algebra.GroupWithZero.Nat
import ReplicaControl.Proofs.CycleSchedules
import ReplicaControl.Proofs.SweepReports

/-!
# Sweeps of idle schedules

A schedule in which no task is left to do anything lets a sweep run, and nobody reacts to the writes
of its retries.

* `Attempt.load`, `step_load` — what an attempt has left to do at an instant.
* `Schedule.Alone` — only the retries of the sweep have something left to do.  `Alone.flow`: it is
  so while the sweep goes on.  `Idle.undisturbed`: so nobody disturbs them.
* `Schedule.work`, `work_succ_lt` — what the retries have left to do gets less with every step of a
  task.  `exists_ready`: at some time no task is ready.  `Alone.now_lt_flow`: then time goes on.
* `Idle.sweepProceeds` — a sweep of an idle schedule goes on as long as there are retries.
* `sweep_accounts` — sweeps account for every failed entry.
-/

namespace ReplicaControl

/-- It takes time to sleep between two polls. -/
def Settings.PollsSlowly (s : Settings) : Prop := ∀ t, t < s.clock.wake t s.timings.pollInterval

theorem Clock.IsPunctual.pollsSlowly {s : Settings} (h : s.clock.IsPunctual)
    (hpos : 0 < s.timings.pollInterval.millis) : s.PollsSlowly := fun t => by
  rw [h]
  exact Nat.lt_add_of_pos_right hpos

namespace Attempt

/-! ## What an attempt has left to do -/

variable {s : Settings} {a : Attempt} {w : World}

/-- What an attempt has left to do at an instant, given how often a write is tried: it is less far
from its end after a step, or has to wait. -/
def load (a : Attempt) (tries now : Nat) : Nat :=
  if a.isOver then 0
  else 2 * a.rank tries a.target.replicas + (if a.canStep now then 1 else 0) + 1

/-- **With every step an attempt has less to do**, if it takes time to sleep between two polls. -/
theorem step_load (hslow : s.PollsSlowly) (h : a.Chases a.target.replicas w)
    (hstep : a.canStep w.now = true) :
    (a.step s w).1.load s.config.writeTries w.now < a.load s.config.writeTries w.now := by
  have hrunning : a.isOver = false := by
    unfold canStep at hstep
    simpa using (Bool.and_eq_true_iff.1 hstep).1
  have hload : a.load s.config.writeTries w.now =
      2 * a.rank s.config.writeTries a.target.replicas + 2 := by
    rw [load, hrunning, hstep]
    rfl
  rw [hload]
  unfold load
  rw [a.step_target]
  split
  · exact Nat.succ_pos _
  · rename_i hover
    rcases step_rank (s := s) h hrunning with hover' | hlt | ⟨hsame, -, -, hidle⟩
    · exact absurd hover' hover
    · split <;> omega
    · rw [hsame, hidle (hslow w.now)]
      simp

/-- The alarms of an attempt that cannot take a step ring later. -/
theorem lt_due_of_not_canStep {now : Nat} (h : a.canStep now = false) {alarm : Alarm}
    (hmem : alarm ∈ a.alarms) : now < alarm.due := by
  unfold canStep isOver isSuspended at h
  unfold alarms at hmem
  cases hp : a.phase with
  | waiting wait wake =>
    rw [hp] at h hmem
    simp only [Bool.not_false, Bool.true_and, Bool.not_eq_false', Bool.and_eq_true,
      decide_eq_true_eq] at h
    rcases List.mem_cons.1 hmem with rfl | hmem
    · exact h.1
    · obtain ⟨ticket, -, rfl⟩ := Option.map_eq_some_iff.1 (Option.mem_toList.1 hmem)
      exact h.2
  | backingOff n k wake =>
    rw [hp] at h hmem
    obtain rfl := List.mem_singleton.1 hmem
    simpa using h
  | starting | deciding | polling | writing | ended | aborted => simp [hp] at hmem

/-- An attempt that is not over and cannot take a step waits for an alarm. -/
theorem exists_alarm {now : Nat} (hrunning : a.isOver = false) (h : a.canStep now = false) :
    ∃ alarm, alarm ∈ a.alarms := by
  unfold canStep isSuspended at h
  unfold alarms
  cases hp : a.phase with
  | waiting wait wake => exact ⟨wake, List.mem_cons_self⟩
  | backingOff n k wake => exact ⟨wake, List.mem_cons_self⟩
  | starting | deciding | polling | writing | ended | aborted => simp [hp, hrunning] at h

end Attempt

namespace Schedule

variable {s : Schedule} {ids : List TaskId}

/-! ## Nobody else -/

/-- Only attempts with some numbers have something left to do, and nobody reacts to writes. -/
structure Alone (s : Schedule) (ids : List TaskId) : Prop where
  tasks : ∀ id t, s.tasks.get? id = some t → ∃ a, t = .attempt a ∧ (id ∈ ids ∨ a.isOver = true)
  rules : s.world.rules = []

theorem Alone.loopless (h : s.Alone ids) (id : TaskId) (l : Loop) :
    s.tasks.get? id ≠ some (.loop l) := fun hl => by
  obtain ⟨a, ha, -⟩ := h.tasks id _ hl
  cases ha

/-- An attempt that can take a step is one of these. -/
theorem Alone.mem (h : s.Alone ids) {id : TaskId} {a : Attempt} (ha : s.attempt? id = some a)
    (hstep : a.canStep s.world.now = true) : id ∈ ids := by
  obtain ⟨b, hb, hmem⟩ := h.tasks id _ (attempt?_eq_some.1 ha)
  cases hb
  refine hmem.resolve_right fun hover => ?_
  simp [Attempt.canStep, hover] at hstep

/-- Nobody else gets something to do. -/
theorem Alone.flow (h : s.Alone ids) : s.flow.Alone ids := by
  have hc := s.flow_case
  generalize s.flow = t at hc
  cases hc with
  | tick _ htick =>
    refine ⟨fun id t ht => h.tasks id t (tick_tasks htick ▸ ht), ?_⟩
    obtain ⟨now, -, hworld⟩ := tick_world htick
    rw [hworld]
    exact h.rules
  | stuck => exact h
  | move _ hmove =>
    cases hmove with
    | drop => exact ⟨h.tasks, h.rules⟩
    | @attempt id a hhead ha hstep =>
      rw [stepAttempt_eq h.loopless]
      refine ⟨fun other t ht => ?_, (a.step_rules _ _).trans h.rules⟩
      have ht : (s.tasks.insert id _).get? other = some t := ht
      rw [Table.get?_insert] at ht
      split at ht
      · rename_i hid
        exact ⟨_, (Option.some.inj ht).symm, .inl (hid ▸ h.mem (attempt?_eq_some.2 ha) hstep)⟩
      · exact h.tasks other t ht
    | loop _ hl => exact absurd hl (h.loopless _ _)

/-- **Time passes when no task is ready**, as long as one of these attempts is not over. -/
theorem Alone.now_lt_flow (h : s.Alone ids) (halert : ∀ id ∈ ids, s.Alert id)
    (hready : s.ready = []) (hrunning : ∃ id ∈ ids, s.isOver id = false) :
    s.world.now < s.flow.world.now := by
  have hidle : ∀ id a, s.attempt? id = some a → a.canStep s.world.now = false := by
    intro id a ha
    refine Bool.eq_false_iff.2 fun hstep => ?_
    obtain ⟨b, hb, -, hawake⟩ := halert id (h.mem ha hstep)
    obtain rfl := Option.some.inj (hb.symm.trans ha)
    have hmem := hawake hstep
    rw [hready] at hmem
    cases hmem
  have hlater : ∀ alarm ∈ s.alarms, s.world.now < alarm.due := by
    intro alarm hmem
    obtain ⟨t, ht, halarm⟩ := List.mem_flatMap.1 hmem
    obtain ⟨⟨id, t⟩, hentry, rfl⟩ := List.mem_map.1 ht
    have hget := (Table.mem_entries_iff _).1 hentry
    obtain ⟨a, rfl, -⟩ := h.tasks id _ hget
    exact Attempt.lt_due_of_not_canStep (hidle id a (attempt?_eq_some.2 hget)) halarm
  obtain ⟨id, hid, hnot⟩ := hrunning
  obtain ⟨a, ha, -⟩ := halert id hid
  rw [isOver_of_attempt? ha] at hnot
  obtain ⟨alarm, halarm⟩ := Attempt.exists_alarm hnot (hidle id a ha)
  have hsome : alarm ∈ s.alarms := List.mem_flatMap.2
    ⟨_, List.mem_map_of_mem ((Table.mem_entries_iff _).2 (attempt?_eq_some.1 ha)), halarm⟩
  rw [Schedule.flow, if_pos hready]
  unfold tick
  rw [List.nil_append]
  split
  · rename_i hnone
    rw [List.min?_eq_none_iff, List.map_eq_nil_iff] at hnone
    rw [hnone] at hsome
    cases hsome
  · rename_i due hmin
    obtain ⟨first, hfirst, rfl⟩ := List.mem_map.1 (List.min?_mem hmin)
    exact Nat.lt_of_lt_of_le (hlater first hfirst) (Nat.le_max_right _ _)

/-- Only attempts get launched. -/
theorem Alone.launchAll (h : s.Alone ids) (launches : List Launch) :
    (s.launchAll launches).2.Alone (ids ++ (s.launchAll launches).1) := by
  induction launches generalizing s ids with
  | nil =>
    rw [show (s.launchAll []).1 = [] from rfl, List.append_nil]
    exact h
  | cons l launches ih =>
    have hspawn : (s.spawn (.attempt (.launch l.1 l.2))).2.Alone (ids ++ [s.nextId]) := by
      refine ⟨fun id t ht => ?_, h.rules⟩
      have ht : (s.tasks.insert s.nextId _).get? id = some t := ht
      rw [Table.get?_insert] at ht
      split at ht
      · rename_i hid
        exact ⟨_, (Option.some.inj ht).symm, .inl (List.mem_append_right _ (by simp [hid]))⟩
      · obtain ⟨a, ha, hmem⟩ := h.tasks id t ht
        exact ⟨a, ha, hmem.imp_left (List.mem_append_left _)⟩
    have hrest := ih hspawn
    rw [List.append_assoc] at hrest
    exact hrest

section

variable (h : s.Idle) (hrules : s.world.rules = [])
include h hrules

theorem Idle.sweeping_alone (n : Nat) : (s.sweeping n).Alone s.retryIds := by
  induction n with
  | zero =>
    have hbegin : Alone { s with world := (Sweep.survey s.settings s.world).2 } [] := by
      refine ⟨fun id t ht => ?_, ?_⟩
      · obtain ⟨a, ha, hover⟩ := h.ended id t ht
        exact ⟨a, ha, .inr hover⟩
      · exact (Trigger.fire_booked s.settings s.world .sweep).rules.trans hrules
    exact hbegin.launchAll _
  | succ n ih =>
    rw [sweeping_succ]
    exact ih.flow

/-- **Nobody disturbs a sweep of an idle schedule**, if nobody reacts to writes. -/
theorem Idle.undisturbed (n : Nat) (key : Key) :
    (course h.numbered h.rested).Undisturbed n key := by
  have halone := h.sweeping_alone hrules n
  cases hturn : (course h.numbered h.rested).turn n with
  | some j => exact Sweep.Course.undisturbed_of_turn hturn halone.rules key
  | none =>
    rw [Sweep.Course.Undisturbed, Sweep.Course.quietly_of_others hturn]
    show (s.sweeping n).world.Spares (s.sweeping (n + 1)).world key
    rw [sweeping_succ]
    have hc := (s.sweeping n).flow_case
    generalize (s.sweeping n).flow = t at hc
    cases hc with
    | tick _ htick =>
      obtain ⟨now, -, hworld⟩ := tick_world htick
      rw [hworld]
      exact ⟨rfl, fun _ x _ hx => ⟨x, hx, rfl⟩⟩
    | stuck => exact .refl _ key
    | move _ hmove =>
      cases hmove with
      | drop => exact .refl _ key
      | @attempt id a hhead ha hstep =>
        have ha := attempt?_eq_some.2 ha
        have hmem := halone.mem ha hstep
        have hstepping := stepping?_eq_some.2 ⟨hhead, a, ha, hstep⟩
        exact absurd hstepping (of_decide_eq_false (List.findIdx?_eq_none_iff.1 hturn id hmem))
      | loop _ hl => exact absurd hl (halone.loopless _ _)

/-! ## The way to the end -/

variable (hslow : s.settings.PollsSlowly) (hfiled : s.world.registry.Filed)

/-- What the retries have left to do, and the tasks that are ready. -/
def work (s : Schedule) (n : Nat) : Nat :=
  ((s.retriesAt n).map fun a =>
    a.load s.settings.config.writeTries (s.sweeping n).world.now).sum + (s.sweeping n).ready.length

include hslow hfiled

/-- **With every step of a task there is less to do.** -/
theorem Idle.work_succ_lt {n : Nat} (hready : (s.sweeping n).ready ≠ []) :
    s.work (n + 1) < s.work n := by
  have halone := h.sweeping_alone hrules n
  have hc := move_case hready
  have hmove : s.sweeping (n + 1) = (s.sweeping n).move := by
    rw [sweeping_succ, flow, if_neg hready]
  rw [← hmove] at hc
  generalize hnext : s.sweeping (n + 1) = t at hc
  cases hc with
  | loop _ hl => exact absurd hl (halone.loopless _ _)
  | @drop id rest hsplit =>
    simp only [work, retriesAt, hnext, hsplit]
    exact Nat.add_lt_add_left (Nat.lt_succ_self _) _
  | @attempt id a hhead ha hstep =>
    have ha := attempt?_eq_some.2 ha
    obtain ⟨j, hj⟩ := List.getElem?_of_mem (halone.mem ha hstep)
    obtain ⟨b, hb, hworld, hset⟩ := retriesAt_of_turn h.numbered h.rested hj
      (stepping?_eq_some.2 ⟨hhead, a, ha, hstep⟩)
    obtain rfl : a = b := by
      rw [getElem?_retriesAt h.numbered h.rested, hj] at hb
      exact Option.some.inj (ha.symm.trans hb)
    have hchases : a.Chases a.target.replicas (s.sweeping n).world :=
      (((course h.numbered h.rested).retries_of_undisturbed hfiled
        (fun m _ e _ _ => h.undisturbed hrules m e.key) hb).running
          (by simpa [Attempt.canStep] using (Bool.and_eq_true_iff.1 hstep).1)).chases
    have hless := Attempt.step_load hslow hchases hstep
    have hnow : (s.sweeping (n + 1)).world.now = (s.sweeping n).world.now := by
      rw [hworld, Attempt.step_now]
    have hlen : (s.sweeping (n + 1)).ready = (s.sweeping n).ready := by
      rw [hnext, stepAttempt_eq halone.loopless]
      rfl
    obtain ⟨before, after, hsplit, -, hput⟩ := Scene.exists_around hb
    rw [work, work, hset, hnow, hlen, hput, hsplit]
    simp only [List.map_append, List.map_cons, List.sum_append, List.sum_cons]
    omega

/-- At some time no task is ready. -/
theorem Idle.exists_ready (n : Nat) : ∃ m, n ≤ m ∧ (s.sweeping m).ready = [] := by
  induction hk : s.work n using Nat.strongRecOn generalizing n with
  | ind k ih =>
    by_cases hready : (s.sweeping n).ready = []
    · exact ⟨n, Nat.le_refl n, hready⟩
    · obtain ⟨m, hm, hlast⟩ :=
        ih _ (hk ▸ h.work_succ_lt hrules hslow hfiled hready) (n + 1) rfl
      exact ⟨m, Nat.le_of_succ_le hm, hlast⟩

/-- **A sweep of an idle schedule goes on** as long as there are retries. -/
theorem Idle.sweepProceeds : s.SweepProceeds := by
  intro t
  induction t with
  | zero =>
    obtain ⟨n, -, hready⟩ := h.exists_ready hrules hslow hfiled 0
    exact ⟨n, .inr ⟨hready, Nat.zero_le _⟩⟩
  | succ t ih =>
    obtain ⟨n, hswept | ⟨hready, htime⟩⟩ := ih
    · exact ⟨n, .inl hswept⟩
    · by_cases hover : s.retryIds.all (s.sweeping n).isOver = true
      · exact ⟨n, .inl ⟨hover, .inr hready⟩⟩
      · have hlt := (h.sweeping_alone hrules n).now_lt_flow
          (fun id hid => sweeping_alert h.numbered h.rested hid n) hready (by simpa using hover)
        rw [← sweeping_succ] at hlt
        obtain ⟨m, hm, hlast⟩ := h.exists_ready hrules hslow hfiled (n + 1)
        have hnow := now_le_sweeping h.numbered h.rested hm
        exact ⟨m, .inr ⟨hlast, by omega⟩⟩

end

/-! ## Sweeps account for every failed entry -/

/-- **A sweep accounts for every failed entry**, for all faults and whatever the workloads are: if
nobody else touches the keys of the entries that are failed and have no running attempt, and no
retry breaks off, then it comes back, its report adds up, every entry has one fate and one verdict
and is left as it says, and the other entries are left alone.

It is so for schedules with other tasks, as long as time goes on; in an idle schedule it does, and
without reactions to writes nobody disturbs the retries.  It is also so in every order of turns of a
scene in which the retries get theirs, and the turns that a schedule takes are such turns. -/
theorem sweep_accounts :
    (∀ (s : Schedule) (hn : s.Numbered) (hr : s.Rested), s.world.registry.Filed →
      s.SweepProceeds →
      (∀ n, (∀ m ≤ n, ¬ s.HasSwept m) → ∀ e ∈ s.world.registry.failures, e.scaling = false →
        (course hn hr).Undisturbed n e.key) →
      (∀ a ∈ s.sweep.2.attemptsOf s.retryIds, a.phase ≠ .aborted) →
      ∃ n, s.Sweeps hn hr n) ∧
    (∀ (s : Schedule) (h : s.Idle), s.world.registry.Filed → s.world.rules = [] →
      s.settings.PollsSlowly →
      s.SweepProceeds ∧ (∀ n key, (course h.numbered h.rested).Undisturbed n key) ∧
        ((∀ a ∈ s.sweep.2.attemptsOf s.retryIds, a.phase ≠ .aborted) →
          ∃ n, s.Sweeps h.numbered h.rested n)) ∧
    (∀ (s : Settings) (sc : Scene) (hrest : sc.isAtRest = true) (turns : Nat → Move),
      sc.world.registry.Filed → (Scene.course s hrest turns).Fair →
      (∀ n, ¬ (Scene.course s hrest turns).IsSwept n → ∀ e ∈ sc.world.registry.failures,
        e.scaling = false → (Scene.course s hrest turns).Undisturbed n e.key) →
      (∀ n, ∀ a ∈ (Scene.course s hrest turns).retries n, a.phase ≠ .aborted) →
      ∃ n, (∀ m < n, ¬ (Scene.course s hrest turns).IsSwept m) ∧
        (Scene.course s hrest turns).Ends n (sc.report s (sc.sweeping s turns n))) ∧
    ∀ s : Schedule, s.Numbered → s.Rested → ∃ moves,
      s.sweep.2.scene = (s.scene.next s.settings (.trigger .sweep)).run s.settings moves ∧
        s.sweep.1 = s.scene.report s.settings s.sweep.2.scene := by
  refine ⟨fun s hn hr hfiled hproceeds hcalm hsound => ?_,
    fun s h hfiled hrules hslow => ?_, fun s sc hrest turns hfiled hfair hcalm hsound => ?_,
    fun s hn hr => sweep_report hn hr⟩
  · exact sweeps_of_proceeds hn hr hfiled hproceeds hcalm hsound
  · have hproceeds := h.sweepProceeds hrules hslow hfiled
    have hcalm := h.undisturbed hrules
    exact ⟨hproceeds, hcalm, sweeps_of_proceeds h.numbered h.rested hfiled hproceeds
      fun n _ e _ _ => hcalm n e.key⟩
  · exact Scene.ends_of_fair hrest turns hfiled hfair hcalm hsound

/-- A schedule with the failed entries of `Scene.parked`. -/
def parked : Schedule := { settings := .standard .rapid, world := Scene.parked.world }

theorem parked_idle : parked.Idle := idle_of_no_tasks _ _

theorem parked_pollsSlowly : parked.settings.PollsSlowly :=
  Clock.isPunctual_punctual.pollsSlowly (by decide)

/-- The retry is over after four steps, and then the caller has its turn. -/
theorem parked_sweep : parked.sweep.2 = parked.sweeping 5 := by
  have hswept : parked.retryIds.all (parked.sweeping 5).isOver = true ∧
      (parked.sweeping 5).ready = [] := by decide +kernel
  refine sweep_snd ⟨hswept.1, .inr hswept.2⟩ fun m hm h => ?_
  have hbusy : ∀ m < 5, ¬ (parked.retryIds.all (parked.sweeping m).isOver = true ∧
      (m = 0 ∨ (parked.sweeping m).ready = [])) := by decide +kernel
  exact hbusy m hm h

theorem parked_sound : ∀ a ∈ parked.sweep.2.attemptsOf parked.retryIds, a.phase ≠ .aborted := by
  rw [parked_sweep]
  decide +kernel

/-- One entry is retried, and the other one is dropped. -/
theorem parked_report : parked.sweep.1 = { retried := 1, succeeded := 1, removed := 1 } := by
  rw [sweep_fst_of_snd parked_idle.numbered parked_idle.rested parked_sweep]
  decide +kernel

/-- A sweep of an idle schedule and one of a scene with fair turns. -/
theorem sweep_accounts_parked :
    parked.Idle ∧ parked.world.registry.Filed ∧ parked.settings.PollsSlowly ∧
      parked.SweepProceeds ∧
      (∃ n, parked.Sweeps parked_idle.numbered parked_idle.rested n) ∧
      parked.sweep.1 = { retried := 1, succeeded := 1, removed := 1 } ∧
      (Scene.course (.standard .rapid) Scene.parked_isAtRest Scene.alternately).Fair ∧
      (∃ n, (Scene.course (.standard .rapid) Scene.parked_isAtRest Scene.alternately).Ends n
        (Scene.parked.report (.standard .rapid)
          (Scene.parked.sweeping (.standard .rapid) Scene.alternately n))) ∧
      ∃ moves, parked.sweep.2.scene =
        (parked.scene.next parked.settings (.trigger .sweep)).run parked.settings moves := by
  obtain ⟨hschedules, hidle, hscenes, hturns⟩ := sweep_accounts
  obtain ⟨hproceeds, hcalm, -⟩ :=
    hidle parked parked_idle Scene.parked_filed rfl parked_pollsSlowly
  have hsweeps := hschedules parked parked_idle.numbered parked_idle.rested Scene.parked_filed
    hproceeds (fun n _ e _ _ => hcalm n e.key) parked_sound
  obtain ⟨n, -, hends⟩ := hscenes (.standard .rapid) Scene.parked Scene.parked_isAtRest
    Scene.alternately Scene.parked_filed Scene.parked_fair
    (fun n hn e _ _ => Scene.parked_undisturbed hn e.key) Scene.parked_sound
  obtain ⟨moves, hmoves, -⟩ := hturns parked parked_idle.numbered parked_idle.rested
  exact ⟨parked_idle, Scene.parked_filed, parked_pollsSlowly, hproceeds, hsweeps, parked_report,
    Scene.parked_fair, ⟨n, hends⟩, moves, hmoves⟩

end Schedule

end ReplicaControl
