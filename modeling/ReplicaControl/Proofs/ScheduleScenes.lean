import ReplicaControl.Proofs.Plan
import ReplicaControl.Schedule

/-!
# Schedules run scenes

A schedule decides whose turn it is.  Whatever it decides, its attempts and triggers take turns as
those of a scene may, so what holds after every list of turns holds while a schedule runs.

* `Schedule.scene` — the world of a schedule and the attempts among its tasks; `numbered`,
  `attemptIds` — these attempts with the numbers of their tasks.
* `Schedule.Orderly` — numbers of tasks are given out once, and only the first ready task can be in
  the middle of its turn.
* `Schedule.Leads` — an orderly schedule gets to another one, and its scene there by some turns.
* `reconcile_triggered`, `reconcileItem_triggered`, `beginSweep_triggered` — a trigger is one turn.
* `MoveCase`, `move_case` — everything that a step of the first ready task can be.
* `move_leads`, `tick_leads`, `run_leads` — the steps of tasks, the passing of time and the waits of
  a caller are turns.
* `Schedule.Call`, `perform_leads` — so is everything that a caller does.
-/

namespace ReplicaControl

/-- The attempt that a task is, if it is one. -/
def Task.attempt? : Task → Option Attempt
  | .attempt a => some a
  | .loop _ => none

/-- An attempt that cannot take a step leaves the turn to others. -/
theorem Attempt.isAtRest_of_not_canStep {a : Attempt} {now : Nat} (h : a.canStep now = false) :
    a.isAtRest = true := by
  unfold canStep isOver isSuspended at h
  unfold isAtRest
  cases hp : a.phase <;> simp [hp] at h ⊢

namespace Schedule

/-- The world of a schedule with the attempts among its tasks, in the order of their numbers. -/
def scene (s : Schedule) : Scene :=
  { world := s.world, attempts := s.tasks.entries.filterMap fun e => e.2.attempt? }

/-- Every attempt leaves the turn to others. -/
def Rested (s : Schedule) : Prop :=
  ∀ id a, s.tasks.get? id = some (.attempt a) → a.isAtRest = true

/-- The numbers of tasks that were not given out yet are free. -/
def Numbered (s : Schedule) : Prop := ∀ id t, s.tasks.get? id = some t → id < s.nextId

/-- Numbers of tasks are given out once, and every attempt leaves the turn to others but the one
that is the first ready task. -/
structure Orderly (s : Schedule) : Prop where
  numbered : s.Numbered
  rested : ∀ id a, s.tasks.get? id = some (.attempt a) → s.ready.head? ≠ some id →
    a.isAtRest = true

/-- An orderly schedule gets to another one, and its scene there by some turns. -/
structure Leads (s s' : Schedule) : Prop where
  settings : s'.settings = s.settings
  orderly : s'.Orderly
  turns : ∃ moves, s'.scene = s.scene.run s.settings moves

variable {s s' s'' : Schedule}

/-- A schedule without tasks is orderly, and its scene is the one in which nothing was launched. -/
theorem orderly_of_no_tasks (settings : Settings) (world : World) :
    Orderly { settings, world } ∧ ({ settings, world } : Schedule).scene = .staged world [] :=
  ⟨⟨fun _ _ h => (nomatch h), fun _ _ h => (nomatch h)⟩, rfl⟩

theorem Leads.refl (h : s.Orderly) : s.Leads s := ⟨rfl, h, [], rfl⟩

theorem Leads.trans (h : s.Leads s') (h' : s'.Leads s'') : s.Leads s'' := by
  obtain ⟨moves, hm⟩ := h.turns
  obtain ⟨more, hmore⟩ := h'.turns
  refine ⟨h'.settings.trans h.settings, h'.orderly, moves ++ more, ?_⟩
  rw [hmore, hm, h.settings, Scene.run_append]

/-- One turn is enough. -/
theorem Leads.of_next (hs : s'.settings = s.settings) (h : s'.Orderly) {m : Move}
    (hm : s'.scene = s.scene.next s.settings m) : s.Leads s' :=
  ⟨hs, h, [m], hm⟩

/-- No turn is needed. -/
theorem Leads.of_scene_eq (hs : s'.settings = s.settings) (h : s'.Orderly)
    (hm : s'.scene = s.scene) : s.Leads s' :=
  ⟨hs, h, [], hm⟩

/-! ## Numbers of attempts -/

/-- The attempts with their numbers, in order. -/
def numbered (s : Schedule) : List (TaskId × Attempt) :=
  s.tasks.entries.filterMap fun e => e.2.attempt?.map fun a => (e.1, a)

/-- The numbers of the attempts, in order. -/
def attemptIds (s : Schedule) : List TaskId := s.numbered.map Prod.fst

theorem map_numbered (s : Schedule) : s.numbered.map Prod.snd = s.scene.attempts := by
  simp only [numbered, scene, List.map_filterMap, Option.map_map]
  exact congrArg (List.filterMap · _) (funext fun e => by cases e.2.attempt? <;> rfl)

theorem mem_numbered {id : TaskId} {a : Attempt} :
    (id, a) ∈ s.numbered ↔ s.tasks.get? id = some (.attempt a) := by
  rw [← Table.mem_entries_iff, numbered, List.mem_filterMap]
  constructor
  · rintro ⟨⟨id', t⟩, he, ht⟩
    cases t with
    | attempt b =>
      cases ht
      exact he
    | loop l => cases ht
  · exact fun he => ⟨(id, .attempt a), he, rfl⟩

/-- Attempts come in the order of their numbers. -/
theorem attemptIds_increasing (s : Schedule) : s.attemptIds.Pairwise (· < ·) := by
  unfold attemptIds numbered
  rw [List.pairwise_map, List.pairwise_filterMap]
  refine s.tasks.increasing.imp fun {e e'} hlt p hp p' hp' => ?_
  obtain ⟨a, -, rfl⟩ := Option.map_eq_some_iff.1 hp
  obtain ⟨a', -, rfl⟩ := Option.map_eq_some_iff.1 hp'
  exact Nat.compare_eq_lt.1 hlt

/-- An attempt with a lower number has a lower place. -/
theorem lt_of_getElem?_numbered {i j : Nat} {p q : TaskId × Attempt} (hp : s.numbered[i]? = some p)
    (hq : s.numbered[j]? = some q) (hij : i < j) : p.1 < q.1 := by
  have hp' : s.attemptIds[i]? = some p.1 := by rw [attemptIds, List.getElem?_map, hp]; rfl
  have hq' : s.attemptIds[j]? = some q.1 := by rw [attemptIds, List.getElem?_map, hq]; rfl
  obtain ⟨hi, hpi⟩ := List.getElem?_eq_some_iff.1 hp'
  obtain ⟨hj, hqj⟩ := List.getElem?_eq_some_iff.1 hq'
  rw [← hpi, ← hqj]
  exact List.pairwise_iff_getElem.1 s.attemptIds_increasing i j hi hj hij

/-- Attempts at different places have different numbers. -/
theorem ne_of_getElem?_numbered {i j : Nat} {p q : TaskId × Attempt}
    (hp : s.numbered[i]? = some p) (hq : s.numbered[j]? = some q) (hij : i ≠ j) : p.1 ≠ q.1 := by
  rcases Nat.lt_or_gt_of_ne hij with hlt | hlt
  · exact Nat.ne_of_lt (lt_of_getElem?_numbered hp hq hlt)
  · exact Nat.ne_of_gt (lt_of_getElem?_numbered hq hp hlt)

/-- An attempt in place of another one. -/
theorem numbered_setTask {id : TaskId} {a : Attempt} (hget : s.tasks.get? id = some (.attempt a)) :
    ∃ i, s.numbered[i]? = some (id, a) ∧
      ∀ a', (s.setTask id (.attempt a')).numbered = s.numbered.set i (id, a') := by
  obtain ⟨before, after, hsplit, hinsert⟩ := Table.entries_insert hget
  have hnumbered : s.numbered = (before.filterMap fun e => e.2.attempt?.map fun a => (e.1, a)) ++
      (id, a) :: after.filterMap fun e => e.2.attempt?.map fun a => (e.1, a) := by
    simp only [numbered, hsplit, List.filterMap_append, List.filterMap_cons, Task.attempt?,
      Option.map_some]
  refine ⟨(before.filterMap fun e => e.2.attempt?.map fun a => (e.1, a)).length, ?_, fun a' => ?_⟩
  · rw [hnumbered, List.getElem?_append_right (Nat.le_refl _), Nat.sub_self]
    rfl
  · rw [hnumbered, List.set_append_right _ _ (Nat.le_refl _), Nat.sub_self, List.set_cons_zero]
    simp only [numbered, setTask, hinsert, List.filterMap_append, List.filterMap_cons,
      Task.attempt?, Option.map_some]

theorem getElem?_attempts {i : Nat} {a : Attempt} :
    s.scene.attempts[i]? = some a ↔ ∃ id, s.numbered[i]? = some (id, a) := by
  rw [← map_numbered, List.getElem?_map, Option.map_eq_some_iff]
  constructor
  · rintro ⟨⟨id, b⟩, hb, rfl⟩
    exact ⟨id, hb⟩
  · rintro ⟨id, h⟩
    exact ⟨_, h, rfl⟩

/-- An attempt in place of another one has its place in the scene. -/
theorem attempts_of_numbered_set {i : Nat} {p : TaskId × Attempt}
    (h : s'.numbered = s.numbered.set i p) : s'.scene.attempts = s.scene.attempts.set i p.2 := by
  rw [← map_numbered, ← map_numbered, h]
  exact List.map_set

theorem mem_attempts {a : Attempt} :
    a ∈ s.scene.attempts ↔ ∃ id, s.tasks.get? id = some (.attempt a) := by
  rw [← map_numbered, List.mem_map]
  constructor
  · rintro ⟨⟨id, b⟩, h, rfl⟩
    exact ⟨id, mem_numbered.1 h⟩
  · rintro ⟨id, h⟩
    exact ⟨_, mem_numbered.2 h, rfl⟩

/-! ## Attempts at rest -/

theorem Rested.isAtRest (h : s.Rested) : s.scene.isAtRest := by
  refine List.all_eq_true.2 fun a ha => ?_
  obtain ⟨id, hid⟩ := mem_attempts.1 ha
  exact h id a hid

theorem Orderly.of_rested (hn : s.Numbered) (h : s.Rested) : s.Orderly :=
  ⟨hn, fun id a ha _ => h id a ha⟩

/-- Unless the first ready task is an attempt, every attempt leaves the turn to others. -/
theorem Orderly.all_rested (h : s.Orderly)
    (hhead : ∀ id a, s.ready.head? = some id → s.tasks.get? id ≠ some (.attempt a)) : s.Rested :=
  fun id a ha => h.rested id a ha fun hid => hhead id a hid ha

/-! ## Tasks that are put in place of others -/

theorem Numbered.setTask (h : s.Numbered) {id : TaskId} {old : Task}
    (hget : s.tasks.get? id = some old) (t : Task) : (s.setTask id t).Numbered := by
  intro id' t' hget'
  by_cases hid : id' = id
  · rw [hid]
    exact h id old hget
  · refine h id' t' ?_
    rw [← s.tasks.get?_insert_of_ne hid t]
    exact hget'

theorem Rested.setTask_loop (h : s.Rested) (id : TaskId) (l : Loop) :
    (s.setTask id (.loop l)).Rested := by
  intro id' a hget
  have hget : (s.tasks.insert id (.loop l)).get? id' = some (.attempt a) := hget
  rw [Table.get?_insert] at hget
  split at hget
  · cases hget
  · exact h id' a hget

/-- A loop is no part of the scene. -/
theorem scene_setTask_loop {id : TaskId} {l : Loop} (hget : s.tasks.get? id = some (.loop l))
    (l' : Loop) : (s.setTask id (.loop l')).scene = s.scene := by
  obtain ⟨before, after, hsplit, hinsert⟩ := Table.entries_insert hget
  simp only [scene, setTask, hsplit, hinsert, List.filterMap_append, List.filterMap_cons,
    Task.attempt?]

/-- An attempt in place of another one, and the attempts of the other tasks. -/
theorem scene_setTask_attempt {id : TaskId} {a : Attempt}
    (hget : s.tasks.get? id = some (.attempt a)) :
    ∃ i, s.scene.attempts[i]? = some a ∧
      (∀ a', (s.setTask id (.attempt a')).scene.attempts = s.scene.attempts.set i a') ∧
      ∀ b ∈ s.scene.attempts.eraseIdx i, ∃ other, other ≠ id ∧
        s.tasks.get? other = some (.attempt b) := by
  obtain ⟨i, hi, hset⟩ := numbered_setTask hget
  refine ⟨i, getElem?_attempts.2 ⟨id, hi⟩, fun a' => attempts_of_numbered_set (hset a'),
    fun b hb => ?_⟩
  obtain ⟨j, hj, hb⟩ := List.mem_eraseIdx_iff_getElem?.1 hb
  obtain ⟨other, hother⟩ := getElem?_attempts.1 hb
  exact ⟨other, ne_of_getElem?_numbered hother hi hj, mem_numbered.1 (List.mem_of_getElem? hother)⟩

/-! ## Launches -/

/-- The schedule got new tasks for launches, behind its other tasks, and nothing else. -/
structure Launched (s : Schedule) (launches : List Launch) (s' : Schedule) : Prop where
  settings : s'.settings = s.settings
  world : s'.world = s.world
  attempts : s'.scene.attempts = s.scene.attempts ++ launches.map fun l => .launch l.1 l.2
  numbered : s'.Numbered
  rested : s.Rested → s'.Rested
  kept : ∀ id t, s.tasks.get? id = some t → s'.tasks.get? id = some t
  ready : s.ready <+: s'.ready

theorem Numbered.spawn (h : s.Numbered) (t : Task) : (s.spawn t).2.Numbered := by
  intro id t' hget
  have hget : (s.tasks.insert s.nextId t).get? id = some t' := hget
  show id < s.nextId + 1
  rw [Table.get?_insert] at hget
  split at hget
  · rename_i hid
    rw [hid]
    exact Nat.lt_succ_self s.nextId
  · exact Nat.lt_succ_of_lt (h id t' hget)

theorem Rested.spawn (h : s.Rested) {t : Task} (ht : ∀ a, t = .attempt a → a.isAtRest = true) :
    (s.spawn t).2.Rested := by
  intro id a hget
  have hget : (s.tasks.insert s.nextId t).get? id = some (.attempt a) := hget
  rw [Table.get?_insert] at hget
  split at hget
  · exact ht a (Option.some.inj hget)
  · exact h id a hget

/-- A new attempt comes last. -/
theorem attempts_spawn (h : s.Numbered) (t : Task) :
    (s.spawn t).2.scene.attempts = s.scene.attempts ++ t.attempt?.toList := by
  have hlast : ∀ e ∈ s.tasks.entries, compare e.1 s.nextId = .lt := fun e he =>
    Nat.compare_eq_lt.2 (h e.1 e.2 ((Table.mem_entries_iff _).1 he))
  simp only [scene, spawn, Table.entries_insert_last hlast, List.filterMap_append]
  cases t <;> rfl

theorem spawn_launched (h : s.Numbered) (l : Launch) :
    s.Launched [l] (s.spawn (.attempt (.launch l.1 l.2))).2 where
  settings := rfl
  world := rfl
  attempts := attempts_spawn h _
  numbered := h.spawn _
  rested := fun hr => hr.spawn fun a ha => by cases ha; rfl
  kept := by
    intro id t hget
    show (s.tasks.insert s.nextId _).get? id = some t
    rw [Table.get?_insert_of_ne _ (Nat.ne_of_lt (h id t hget))]
    exact hget
  ready := List.prefix_append _ _

theorem launchAll_launched (h : s.Numbered) (launches : List Launch) :
    s.Launched launches (s.launchAll launches).2 := by
  induction launches generalizing s with
  | nil =>
    exact ⟨rfl, rfl, by rw [List.map_nil, List.append_nil]; rfl, h, id, fun _ _ ht => ht,
      List.prefix_refl _⟩
  | cons l launches ih =>
    have hfirst := spawn_launched h l
    have hrest := ih hfirst.numbered
    refine ⟨hrest.settings.trans hfirst.settings, hrest.world.trans hfirst.world, ?_,
      hrest.numbered, fun hr => hrest.rested (hfirst.rested hr),
      fun id t ht => hrest.kept id t (hfirst.kept id t ht), hfirst.ready.trans hrest.ready⟩
    have hattempts := hrest.attempts
    rw [hfirst.attempts, List.append_assoc] at hattempts
    exact hattempts

/-- **A trigger whose attempts are launched is a turn of the scene.** -/
theorem Launched.scene_eq {t : Trigger} {w : World} {launches : List Launch} (hr : s.Rested)
    (hfire : t.fire s.settings s.world = (launches, w))
    (h : Launched { s with world := w } launches s') :
    s'.scene = s.scene.next s.settings (.trigger t) := by
  have hfire : t.fire s.settings s.scene.world = (launches, w) := hfire
  rw [Scene.next_trigger hr.isAtRest, hfire]
  show Scene.mk s'.world s'.scene.attempts = _
  rw [h.attempts, h.world]
  rfl

theorem launchCycle_launched (h : s.Numbered) (result : Except CycleError Cycle × World) :
    Launched { s with world := result.2 } (Cycle.launchesOf result.1) (s.launchCycle result).2 := by
  obtain ⟨_ | cycle, w⟩ := result
  · exact ⟨rfl, rfl, (List.append_nil _).symm, h, id, fun _ _ ht => ht, List.prefix_refl _⟩
  · exact launchAll_launched (s := { s with world := w }) h cycle.launches

/-- A trigger keeps the schedule orderly, leaves every attempt at rest, keeps the tasks and those
that are ready, and takes no time. -/
structure Triggered (s s' : Schedule) : Prop where
  leads : s.Leads s'
  rested : s'.Rested
  kept : ∀ id t, s.tasks.get? id = some t → s'.tasks.get? id = some t
  ready : s.ready <+: s'.ready
  now : s'.world.now = s.world.now

theorem Triggered.refl (hn : s.Numbered) (hr : s.Rested) : s.Triggered s :=
  ⟨.refl (.of_rested hn hr), hr, fun _ _ ht => ht, List.prefix_refl _, rfl⟩

theorem Triggered.trans (h : s.Triggered s') (h' : s'.Triggered s'') : s.Triggered s'' :=
  ⟨h.leads.trans h'.leads, h'.rested, fun id t ht => h'.kept id t (h.kept id t ht),
    h.ready.trans h'.ready, h'.now.trans h.now⟩

theorem Launched.triggered {t : Trigger} {w : World} {launches : List Launch} (hr : s.Rested)
    (hfire : t.fire s.settings s.world = (launches, w))
    (h : Launched { s with world := w } launches s') : s.Triggered s' where
  leads := .of_next h.settings (.of_rested h.numbered (h.rested hr)) (h.scene_eq hr hfire)
  rested := h.rested hr
  kept := h.kept
  ready := h.ready
  now := by
    have hnow := (t.fire_booked s.settings s.world).now
    rw [hfire] at hnow
    exact (congrArg World.now h.world).trans hnow

theorem reconcile_triggered (hn : s.Numbered) (hr : s.Rested) (ns : String) :
    s.Triggered (s.reconcile ns).2 :=
  (launchCycle_launched hn (Cycle.ofNamespace s.settings s.world ns)).triggered
    (t := .cycle ns) hr rfl

theorem reconcileItem_triggered (hn : s.Numbered) (hr : s.Rested) (id : WorkloadId) :
    s.Triggered (s.reconcileItem id).2 :=
  (launchCycle_launched hn (Cycle.ofItem s.settings s.world id)).triggered (t := .item id) hr rfl

theorem beginSweep_triggered (hn : s.Numbered) (hr : s.Rested) : s.Triggered s.beginSweep.2 :=
  (launchAll_launched (s := { s with world := (Sweep.survey s.settings s.world).2 }) hn
    (Sweep.survey s.settings s.world).1.2).triggered (t := .sweep) hr rfl

theorem pass_triggered (hn : s.Numbered) (hr : s.Rested) (job : LoopJob) :
    s.Triggered (s.pass job).2 := by
  cases job with
  | sweeps => exact beginSweep_triggered hn hr
  | cycles namespaces =>
    show s.Triggered (namespaces.foldl (fun s ns => (s.reconcile ns).2) s)
    induction namespaces generalizing s with
    | nil => exact .refl hn hr
    | cons ns namespaces ih =>
      have hfirst := reconcile_triggered hn hr ns
      exact hfirst.trans (ih hfirst.leads.orderly.numbered hfirst.rested)

/-! ## Steps of tasks -/

/-- Tasks that get ready behind the others leave the first one there. -/
theorem Orderly.append_ready (h : s.Orderly) (ids : List TaskId) :
    Orderly { s with ready := s.ready ++ ids } where
  numbered := h.numbered
  rested := by
    intro id' a hget hne
    refine h.rested id' a hget fun hid => hne ?_
    rw [List.head?_append, hid]
    rfl

theorem setTask_loop_leads (hn : s.Numbered) (hr : s.Rested) {id : TaskId} {l : Loop}
    (hget : s.tasks.get? id = some (.loop l)) (l' : Loop) : s.Leads (s.setTask id (.loop l')) :=
  .of_scene_eq rfl (.of_rested (hn.setTask hget _) (hr.setTask_loop id l'))
    (scene_setTask_loop hget l')

/-- What is no change of the controller's own is a turn of others. -/
theorem others_leads (hn : s.Numbered) (hr : s.Rested) {w : World}
    (hw : s.world.changedTo w = w) : s.Leads { s with world := w } := by
  refine .of_next (m := .others w) rfl (.of_rested hn hr) ?_
  rw [Scene.next_others hr.isAtRest]
  show Scene.mk w s.scene.attempts = { s.scene with world := s.world.changedTo w }
  rw [hw]

/-- An alarm that is set. -/
theorem alarm_leads (hn : s.Numbered) (hr : s.Rested) (c : Clock) (d : Duration) :
    s.Leads { s with world := (s.world.alarmAfter c d).2 } := by
  refine others_leads hn hr ?_
  simp [World.alarmAfter, World.setAlarm, World.changedTo]

theorem stepAttempt_leads (h : s.Orderly) {id : TaskId} (hhead : s.ready.head? = some id)
    {a : Attempt} (hget : s.tasks.get? id = some (.attempt a)) :
    s.Leads (s.stepAttempt id a) := by
  obtain ⟨i, ha, hset, hothers⟩ := scene_setTask_attempt hget
  have hfree : s.scene.isFreeFor i := by
    refine List.all_eq_true.2 fun b hb => ?_
    obtain ⟨other, hne, hother⟩ := hothers b hb
    refine h.rested other b hother fun hid => hne ?_
    rw [hhead] at hid
    exact (Option.some.inj hid).symm
  have hstepped : s.Leads ({ s with world := (a.step s.settings s.world).2 }.setTask id
      (.attempt (a.step s.settings s.world).1)) := by
    refine .of_next (m := .attempt i) rfl ⟨h.numbered.setTask hget _, ?_⟩ ?_
    · intro other b hb hne
      have hid : other ≠ id := fun hid => hne (hid ▸ hhead)
      refine h.rested other b ?_ hne
      rw [← s.tasks.get?_insert_of_ne hid]
      exact hb
    · rw [Scene.next_attempt ha hfree, ← hset]
      rfl
  unfold stepAttempt
  dsimp only
  split
  · exact hstepped.trans (.of_scene_eq rfl (hstepped.orderly.append_ready _) rfl)
  · exact hstepped

theorem stepLoop_leads (hn : s.Numbered) (hr : s.Rested) {id : TaskId} {l : Loop}
    (hget : s.tasks.get? id = some (.loop l)) : s.Leads (s.stepLoop id l) := by
  unfold stepLoop
  split
  · split
    · exact setTask_loop_leads hn hr hget _
    · have halarm := alarm_leads hn hr s.settings.clock (s.interval l.job)
      exact halarm.trans (setTask_loop_leads halarm.orderly.numbered hr hget _)
  · split
    · have hpass := pass_triggered hn hr l.job
      exact hpass.leads.trans (setTask_loop_leads hpass.leads.orderly.numbered hpass.rested
        (hpass.kept id _ hget) _)
    · exact setTask_loop_leads hn hr hget _
  · exact setTask_loop_leads hn hr hget _
  · exact .refl (.of_rested hn hr)

/-- A loop has its turn while every attempt leaves the turn to others. -/
theorem Orderly.rested_of_loop (h : s.Orderly) {id : TaskId} (hhead : s.ready.head? = some id)
    {l : Loop} (hl : s.tasks.get? id = some (.loop l)) : s.Rested :=
  h.all_rested fun other a hother ha => by
    obtain rfl := Option.some.inj (hhead.symm.trans hother)
    cases hl.symm.trans ha

/-- Everything that a step of the first ready task can be. -/
inductive MoveCase (s : Schedule) : Schedule → Prop
  /-- The task has to wait, or is there no more. -/
  | drop {id : TaskId} {rest : List TaskId} (hready : s.ready = id :: rest)
      (hidle : ∀ t, s.tasks.get? id = some t → s.canStep t = false) :
      MoveCase s { s with ready := rest }
  | attempt {id : TaskId} {a : Attempt} (hhead : s.ready.head? = some id)
      (ha : s.tasks.get? id = some (.attempt a)) (hstep : a.canStep s.world.now = true) :
      MoveCase s (s.stepAttempt id a)
  | loop {id : TaskId} {l : Loop} (hhead : s.ready.head? = some id)
      (hl : s.tasks.get? id = some (.loop l)) : MoveCase s (s.stepLoop id l)

theorem move_of_ready (h : s.ready = []) : s.move = s := by rw [move, h]

theorem move_case (h : s.ready ≠ []) : s.MoveCase s.move := by
  unfold move
  split
  · exact absurd ‹_› h
  · rename_i id rest hready
    have hhead : s.ready.head? = some id := by rw [hready]; rfl
    split
    · rename_i hget
      exact .drop hready fun t ht => by cases hget.symm.trans ht
    · rename_i t hget
      split
      · cases t with
        | attempt a => exact .attempt hhead hget ‹_›
        | loop l => exact .loop hhead hget
      · rename_i hstep
        refine .drop hready fun u hu => ?_
        cases hget.symm.trans hu
        exact Bool.eq_false_iff.2 hstep

/-- **One step of the first ready task is a list of turns of the scene.** -/
theorem move_leads (h : s.Orderly) : s.Leads s.move := by
  by_cases hready : s.ready = []
  · rw [move_of_ready hready]
    exact .refl h
  have hc := move_case hready
  generalize s.move = t at hc
  cases hc with
  | @drop id rest hready hidle =>
    refine .of_scene_eq rfl (.of_rested h.numbered fun other a ha => ?_) rfl
    by_cases hid : other = id
    · subst hid
      exact Attempt.isAtRest_of_not_canStep (hidle _ ha)
    · refine h.rested other a ha fun hother => hid ?_
      rw [hready] at hother
      exact (Option.some.inj hother).symm
  | attempt hhead ha => exact stepAttempt_leads h hhead ha
  | loop hhead hl => exact stepLoop_leads h.numbered (h.rested_of_loop hhead hl) hl

/-! ## The caller -/

/-- What a step of a task keeps holds when no task is ready any more. -/
theorem drain_induction {P : Schedule → Prop} (hmove : ∀ t : Schedule, P t → P t.move) (h : P s)
    (hs : s.drain = some s') : P s' := by
  refine drain.partial_correctness (fun s s' => P s → P s') ?_ s s' hs h
  intro drain ih s r hr h
  split at hr
  · cases hr
    exact h
  · exact ih _ _ hr (hmove s h)

/-- **What the steps of tasks and the passing of time keep holds after a wait.** -/
theorem run_induction {P : Schedule → Prop} {c : Caller} (hc : ∀ a, c ≠ .scaling a)
    (hmove : ∀ t : Schedule, P t → P t.move)
    (htick : ∀ t t' : Schedule, P t → t.ready = [] → t.tick c.alarms = some t' → P t') (h : P s) :
    P (s.run c).2 := by
  unfold run
  cases hrun : await c s with
  | none => exact h
  | some r =>
    refine await.partial_correctness (fun c' s r => c' = c → P s → P r.2) ?_ c s r hrun rfl h
    rintro await ih c s r hr rfl h
    have hnone : c.step? s = none := by
      cases c with
      | scaling a => exact absurd rfl (hc a)
      | sleeping | joining => rfl
    rw [hnone] at hr
    dsimp only at hr
    split at hr
    · cases hr
      exact h
    · split at hr
      · split at hr
        · exact ih _ _ _ hr rfl (htick _ _ h ‹_› ‹_›)
        · cases hr
          exact h
      · split at hr
        · exact ih _ _ _ hr rfl (drain_induction hmove h ‹_›)
        · cases hr

theorem Orderly.rested_of_ready (h : s.Orderly) (hready : s.ready = []) : s.Rested :=
  h.all_rested fun id a hid => by simp [hready] at hid

/-- Time passes. -/
theorem tick_leads (hn : s.Numbered) (hr : s.Rested) {callers : List Alarm}
    (h : s.tick callers = some s') : s.Leads s' := by
  unfold tick at h
  split at h
  · cases h
  · rename_i due _
    cases h
    have hnow : s.Leads { s with world := { s.world with now := max s.world.now due } } := by
      refine others_leads hn hr ?_
      simp only [World.changedTo, Nat.max_self]
      rw [Nat.max_eq_right (Nat.le_max_left _ _)]
    exact hnow.trans (.of_scene_eq rfl (.of_rested hn hr) rfl)

/-- **While a caller waits for tasks or for time to pass, the scene takes turns.** -/
theorem run_leads (h : s.Orderly) {c : Caller} (hc : ∀ a, c ≠ .scaling a) :
    s.Leads (s.run c).2 := by
  refine run_induction hc (fun t ht => ?_) (fun t t' ht hready htick => ?_) (Leads.refl h)
  · exact ht.trans (move_leads ht.orderly)
  · exact ht.trans
      (tick_leads ht.orderly.numbered (ht.orderly.rested_of_ready hready) htick)

theorem join_leads (h : s.Orderly) (ids : List TaskId) : s.Leads (s.join ids) := by
  have hc : ∀ a, Caller.joining ids ≠ .scaling a := fun a ha => by cases ha
  exact run_leads h hc

theorem sleep_leads (hn : s.Numbered) (hr : s.Rested) (d : Duration) : s.Leads (s.sleep d) := by
  unfold sleep
  split
  · exact .refl (.of_rested hn hr)
  · have hc : ∀ wake a, Caller.sleeping wake ≠ .scaling a := fun _ _ ha => by cases ha
    have halarm := alarm_leads hn hr s.settings.clock d
    exact halarm.trans (run_leads halarm.orderly (hc _))

theorem sweep_leads (hn : s.Numbered) (hr : s.Rested) : s.Leads s.sweep.2 := by
  have hleads := (beginSweep_triggered hn hr).leads
  exact hleads.trans (join_leads hleads.orderly _)

/-- A loop that is started is no part of the scene. -/
theorem start_leads (hn : s.Numbered) (hr : s.Rested) (job : LoopJob) :
    s.Leads (s.start job).2 := by
  refine .of_scene_eq rfl (.of_rested (hn.spawn _) (hr.spawn fun _ ha => by cases ha)) ?_
  show Scene.mk s.world (s.start job).2.scene.attempts = s.scene
  rw [start, attempts_spawn hn, Task.attempt?, Option.toList_none, List.append_nil]
  rfl

/-- Telling a loop to stop is no turn. -/
theorem tellToStop_leads (hn : s.Numbered) (hr : s.Rested) (id : TaskId) :
    s.Leads (s.tellToStop id) := by
  unfold tellToStop
  split
  · rename_i l hget
    have hset := setTask_loop_leads hn hr hget { l with stopping := true }
    have hready : ∀ ids, s.Leads { s.setTask id (.loop { l with stopping := true }) with
        ready := ids } := fun ids =>
      hset.trans (.of_scene_eq rfl (.of_rested hset.orderly.numbered (hr.setTask_loop id _)) rfl)
    dsimp only
    split
    · split
      · exact hset
      · exact hready _
    · exact hset
  · exact .refl (.of_rested hn hr)

theorem stop_leads (hn : s.Numbered) (hr : s.Rested) (id : TaskId) : s.Leads (s.stop id) := by
  have hleads := tellToStop_leads hn hr id
  exact hleads.trans (join_leads hleads.orderly [id])

/-! ## Calls -/

/-- What a caller does. -/
inductive Call where
  | reconcile (ns : String)
  | reconcileItem (id : WorkloadId)
  | sweep
  | start (job : LoopJob)
  | stop (id : TaskId)
  | sleep (d : Duration)
  | join (ids : List TaskId)
  /-- Others make this of the world meanwhile, as far as they can. -/
  | others (w : World)

/-- The schedule after a call.  The caller has its turn only while every attempt leaves the turn to
others. -/
def perform (s : Schedule) (c : Call) : Schedule :=
  if s.scene.isAtRest then
    match c with
    | .reconcile ns => (s.reconcile ns).2
    | .reconcileItem id => (s.reconcileItem id).2
    | .sweep => s.sweep.2
    | .start job => (s.start job).2
    | .stop id => s.stop id
    | .sleep d => s.sleep d
    | .join ids => s.join ids
    | .others w => { s with world := s.world.changedTo w }
  else s

theorem Rested.of_isAtRest (h : s.scene.isAtRest) : s.Rested := fun id a ha =>
  List.all_eq_true.1 h a (mem_attempts.2 ⟨id, ha⟩)

/-- **Every call is a list of turns of the scene.** -/
theorem perform_leads (h : s.Orderly) (c : Call) : s.Leads (s.perform c) := by
  unfold perform
  split
  · rename_i hrest
    have hn := h.numbered
    have hr := Rested.of_isAtRest hrest
    cases c with
    | reconcile ns => exact (reconcile_triggered hn hr ns).leads
    | reconcileItem id => exact (reconcileItem_triggered hn hr id).leads
    | sweep => exact sweep_leads hn hr
    | start job => exact start_leads hn hr job
    | stop id => exact stop_leads hn hr id
    | sleep d => exact sleep_leads hn hr d
    | join ids => exact join_leads h ids
    | others w =>
      refine .of_next (m := .others w) rfl (.of_rested hn hr) ?_
      rw [Scene.next_others hrest]
      rfl
  · exact .refl h

theorem foldl_perform_leads (h : s.Orderly) (calls : List Call) :
    s.Leads (calls.foldl perform s) := by
  induction calls generalizing s with
  | nil => exact .refl h
  | cons c calls ih => exact (perform_leads h c).trans (ih (perform_leads h c).orderly)

end Schedule

end ReplicaControl
