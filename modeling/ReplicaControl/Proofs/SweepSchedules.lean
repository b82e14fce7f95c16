import ReplicaControl.Proofs.ScheduleScenes
import ReplicaControl.Proofs.SweepAccount

/-!
# Sweeps of schedules

* `Schedule.Keeps` — new numbers of attempts come behind the others, and none is taken away.
  `move_keeps`, `run_keeps`: it is so when tasks take turns.
* `sweep_report` — a sweep of a schedule reports what the scene says about the attempts that the
  sweep launched.
-/

namespace ReplicaControl.Schedule

variable {s s' s'' : Schedule}

/-- How the attempts end, read by their numbers. -/
theorem ending?_of_mem_numbered {p : TaskId × Attempt} (h : p ∈ s.numbered) :
    s.ending? p.1 = p.2.ending? := by
  rw [ending?, mem_numbered.1 h]

/-! ## Numbers that are added -/

/-- A task in place of one that is an attempt if and only if it is one adds no number. -/
theorem attemptIds_setTask {id : TaskId} {old t : Task} (hget : s.tasks.get? id = some old)
    (h : t.attempt?.isSome = old.attempt?.isSome) :
    (s.setTask id t).attemptIds = s.attemptIds := by
  obtain ⟨before, after, hsplit, hinsert⟩ := Table.entries_insert hget
  have hsame : (t.attempt?.map fun a => (id, a)).toList.map Prod.fst =
      (old.attempt?.map fun a => (id, a)).toList.map Prod.fst := by
    cases ht : t.attempt? <;> cases ho : old.attempt? <;> simp [ht, ho] at h ⊢
  have hcons : ∀ (u : Task) (rest : List (TaskId × Task)),
      (((id, u) :: rest).filterMap fun e => e.2.attempt?.map fun a => (e.1, a)) =
        (u.attempt?.map fun a => (id, a)).toList ++
          rest.filterMap fun e => e.2.attempt?.map fun a => (e.1, a) := by
    intro u rest
    rw [List.filterMap_cons]
    cases u.attempt? <;> rfl
  simp only [attemptIds, numbered, setTask, hsplit, hinsert, List.filterMap_append, hcons,
    List.map_append, hsame]

theorem attemptIds_spawn (h : s.Numbered) (t : Task) :
    (s.spawn t).2.attemptIds = s.attemptIds ++ (t.attempt?.map fun _ => s.nextId).toList := by
  have hlast : ∀ e ∈ s.tasks.entries, compare e.1 s.nextId = .lt := fun e he =>
    Nat.compare_eq_lt.2 (h e.1 e.2 ((Table.mem_entries_iff _).1 he))
  simp only [attemptIds, numbered, spawn, Table.entries_insert_last hlast, List.filterMap_append,
    List.map_append]
  cases t <;> rfl

/-- Launches add the numbers that they return. -/
theorem attemptIds_launchAll (h : s.Numbered) (launches : List Launch) :
    (s.launchAll launches).2.attemptIds = s.attemptIds ++ (s.launchAll launches).1 ∧
      (s.launchAll launches).1.length = launches.length := by
  induction launches generalizing s with
  | nil => exact ⟨(List.append_nil _).symm, rfl⟩
  | cons l launches ih =>
    have hfirst := attemptIds_spawn h (.attempt (.launch l.1 l.2))
    obtain ⟨hids, hlen⟩ := ih (h.spawn (.attempt (.launch l.1 l.2)))
    refine ⟨?_, congrArg Nat.succ hlen⟩
    rw [hfirst, List.append_assoc] at hids
    exact hids

/-- The numbers of attempts are kept, and others come behind them. -/
def Keeps (s s' : Schedule) : Prop := s.attemptIds <+: s'.attemptIds

theorem Keeps.refl (s : Schedule) : s.Keeps s := List.prefix_refl _

theorem Keeps.trans (h : s.Keeps s') (h' : s'.Keeps s'') : s.Keeps s'' := List.IsPrefix.trans h h'

theorem Keeps.of_eq (h : s'.attemptIds = s.attemptIds) : s.Keeps s' := ⟨[], by simp [h]⟩

theorem launchAll_keeps (h : s.Numbered) (launches : List Launch) :
    s.Keeps (s.launchAll launches).2 :=
  ⟨_, (attemptIds_launchAll h launches).1.symm⟩

theorem reconcile_keeps (h : s.Numbered) (ns : String) : s.Keeps (s.reconcile ns).2 := by
  unfold reconcile launchCycle
  split
  · exact .refl _
  · rename_i cycle world _
    exact launchAll_keeps (s := { s with world }) h cycle.launches

theorem pass_keeps (hn : s.Numbered) (hr : s.Rested) (job : LoopJob) : s.Keeps (s.pass job).2 := by
  cases job with
  | sweeps =>
    exact launchAll_keeps (s := { s with world := (Sweep.survey s.settings s.world).2 }) hn _
  | cycles namespaces =>
    show s.Keeps (namespaces.foldl (fun s ns => (s.reconcile ns).2) s)
    induction namespaces generalizing s with
    | nil => exact .refl _
    | cons ns namespaces ih =>
      have hfirst := reconcile_triggered hn hr ns
      exact (reconcile_keeps hn ns).trans (ih hfirst.leads.orderly.numbered hfirst.rested)

theorem setTask_loop_keeps {id : TaskId} {l : Loop} (hget : s.tasks.get? id = some (.loop l))
    (l' : Loop) : s.Keeps (s.setTask id (.loop l')) :=
  .of_eq (attemptIds_setTask hget rfl)

theorem stepLoop_keeps (hn : s.Numbered) (hr : s.Rested) {id : TaskId} {l : Loop}
    (hget : s.tasks.get? id = some (.loop l)) : s.Keeps (s.stepLoop id l) := by
  unfold stepLoop
  split
  · split
    · exact setTask_loop_keeps hget _
    · exact setTask_loop_keeps (s := { s with world := _ }) hget _
  · split
    · have hkept := (pass_triggered hn hr l.job).kept id _ hget
      exact (pass_keeps hn hr l.job).trans (setTask_loop_keeps hkept _)
    · exact setTask_loop_keeps hget _
  · exact setTask_loop_keeps hget _
  · exact .refl _

theorem stepAttempt_keeps {id : TaskId} {a : Attempt} (hget : s.tasks.get? id = some (.attempt a)) :
    s.Keeps (s.stepAttempt id a) := by
  have hset : s.Keeps ({ s with world := (a.step s.settings s.world).2 }.setTask id
      (.attempt (a.step s.settings s.world).1)) :=
    .of_eq (attemptIds_setTask (s := { s with world := _ }) hget rfl)
  unfold stepAttempt
  dsimp only
  split <;> exact hset

/-- **A step of a task takes no number of an attempt away.** -/
theorem move_keeps (h : s.Orderly) : s.Keeps s.move := by
  by_cases hready : s.ready = []
  · rw [move_of_ready hready]
    exact .refl _
  have hc := move_case hready
  generalize s.move = t at hc
  cases hc with
  | drop => exact .refl _
  | attempt _ ha => exact stepAttempt_keeps ha
  | loop hhead hl => exact stepLoop_keeps h.numbered (h.rested_of_loop hhead hl) hl

theorem tick_keeps {callers : List Alarm} (h : s.tick callers = some s') : s.Keeps s' := by
  unfold tick at h
  split at h
  · cases h
  · cases h
    exact .refl _

/-- **While a caller waits for tasks or for time to pass, no number of an attempt is taken
away.** -/
theorem run_keeps (h : s.Orderly) {c : Caller} (hc : ∀ a, c ≠ .scaling a) :
    s.Keeps (s.run c).2 := by
  have hrun : s.Leads (s.run c).2 ∧ s.Keeps (s.run c).2 := by
    refine run_induction (P := fun t => s.Leads t ∧ s.Keeps t) hc ?_ ?_ ⟨.refl h, .refl s⟩
    · rintro t ⟨hleads, hkeeps⟩
      exact ⟨hleads.trans (move_leads hleads.orderly), hkeeps.trans (move_keeps hleads.orderly)⟩
    · rintro t t' ⟨hleads, hkeeps⟩ hready htick
      have hrested := hleads.orderly.rested_of_ready hready
      exact ⟨hleads.trans (tick_leads hleads.orderly.numbered hrested htick),
        hkeeps.trans (tick_keeps htick)⟩
  exact hrun.2

/-! ## Sweeps -/

/-- The attempts of numbers that come behind others. -/
theorem map_ending?_of_prefix {ids : List TaskId} {before : Nat}
    (hids : ids = (s.attemptIds.drop before).take ids.length) :
    ids.map s.ending? =
      ((s.scene.attempts.drop before).take ids.length).map Attempt.ending? := by
  rw [← map_numbered, ← List.map_drop, ← List.map_take, List.map_map]
  conv_lhs => rw [hids, attemptIds, ← List.map_drop, ← List.map_take, List.map_map]
  refine List.map_congr_left fun p hp => ?_
  exact ending?_of_mem_numbered (List.mem_of_mem_drop (List.mem_of_mem_take hp))

/-- A sweep records how its attempts end. -/
theorem sweep_fst (s : Schedule) :
    s.sweep.1 = (s.beginSweep.1.2.map s.sweep.2.ending?).foldl .record s.beginSweep.1.1 := by
  rw [List.foldl_map]
  rfl

/-- **A sweep of a schedule is a sweep of its scene**: it begins with a turn, goes on with others,
and reports about the attempts that it launched as they stand then. -/
theorem sweep_report (hn : s.Numbered) (hr : s.Rested) :
    ∃ moves, s.sweep.2.scene =
        (s.scene.next s.settings (.trigger .sweep)).run s.settings moves ∧
      s.sweep.1 = s.scene.report s.settings s.sweep.2.scene := by
  have hlaunched := launchAll_launched
    (s := { s with world := (Sweep.survey s.settings s.world).2 }) hn
    (Sweep.survey s.settings s.world).1.2
  have hbegin : s.beginSweep.2.scene = s.scene.next s.settings (.trigger .sweep) :=
    hlaunched.scene_eq (t := .sweep) hr rfl
  have hleads := (beginSweep_triggered hn hr).leads
  obtain ⟨moves, hmoves⟩ := (join_leads hleads.orderly s.beginSweep.1.2).turns
  refine ⟨moves, ?_, ?_⟩
  · rw [← hbegin, ← hleads.settings]
    exact hmoves
  · have hkeeps : s.beginSweep.2.Keeps s.sweep.2 :=
      run_keeps hleads.orderly fun a ha => by cases ha
    obtain ⟨hids, hlen⟩ := attemptIds_launchAll
      (s := { s with world := (Sweep.survey s.settings s.world).2 }) hn
      (Sweep.survey s.settings s.world).1.2
    have hbegun : s.beginSweep.2.attemptIds = s.attemptIds ++ s.beginSweep.1.2 := hids
    have hfirst : s.attemptIds.length = s.scene.attempts.length := by
      rw [attemptIds, ← map_numbered, List.length_map, List.length_map]
    -- the numbers that the sweep returned stand behind those of before
    have hmine : s.beginSweep.1.2 =
        (s.sweep.2.attemptIds.drop s.scene.attempts.length).take s.beginSweep.1.2.length := by
      obtain ⟨more, hmore⟩ := hkeeps
      rw [← hmore, hbegun, ← hfirst, List.append_assoc, List.drop_left, List.take_left]
    have hendings := map_ending?_of_prefix hmine
    rw [show s.beginSweep.1.2.length = (s.scene.launches s.settings).length from hlen] at hendings
    rw [sweep_fst, hendings]
    rfl

end ReplicaControl.Schedule
