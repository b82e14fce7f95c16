import ReplicaControl.Proofs.Noninterference
import ReplicaControl.Proofs.SweepFlow
import ReplicaControl.Simulation

/-!
# Schedules serve cycles

A schedule without loops lets a cycle run and waits for its attempts.  What it does meanwhile are
turns of the cycle as `Scene.Reconciling` has them.

* `Schedule.Lined` — the attempts that have not started yet are ready in the order of their numbers,
  so that they start in this order.
* `Schedule.Serves` — the scene is one of a cycle, behind attempts that were over before.
  `reconcile_serves`, `Serves.move`, `Serves.tick`, `Serves.run`: it is so from the begin of the
  cycle to the end of the wait.
* `runCycles_matches`, `runCycles_comm` — what a round does for a namespace depends on the namespace
  only, and the order of two namespaces in a round does not matter.
-/

namespace ReplicaControl

/-- An attempt that takes a step has started. -/
theorem Attempt.step_ne_starting (s : Settings) {a : Attempt} {w : World}
    (h : a.canStep w.now = true) : (a.step s w).1.phase ≠ .starting := by
  have hc := a.step_case s w
  generalize a.step s w = r at hc
  cases hc with
  | idle hidle =>
    rw [h] at hidle
    cases hidle
  | content => exact fun hp => nomatch hp
  | begun => exact fun hp => nomatch hp
  | unreachable => exact fun hp => nomatch hp
  | decided _ _ hn => cases hn <;> exact fun hp => nomatch hp
  | arrived => exact fun hp => nomatch hp
  | polled => dsimp only; split <;> exact fun hp => nomatch hp
  | slept => exact fun hp => nomatch hp
  | stored => exact fun hp => nomatch hp
  | retried => exact fun hp => nomatch hp
  | exhausted => exact fun hp => nomatch hp
  | gone => exact fun hp => nomatch hp
  | denied => exact fun hp => nomatch hp
  | failed => exact fun hp => nomatch hp

namespace Schedule

variable {s s' : Schedule} {old : List Attempt} {w : World} {ns : String} {sc : Scene}

/-! ## Serving a cycle -/

/-- The task is an attempt that has not started yet. -/
def isStarting (s : Schedule) (id : TaskId) : Bool :=
  match s.tasks.get? id with
  | some (.attempt a) => a.phase = .starting
  | _ => false

/-- There are no loops, and the attempts that have not started yet are ready in the order of their
numbers. -/
structure Lined (s : Schedule) : Prop where
  orderly : s.Orderly
  loopless : ∀ id l, s.tasks.get? id ≠ some (.loop l)
  known : ∀ id ∈ s.ready, id < s.nextId
  queued : ∀ id, s.isStarting id = true → id ∈ s.ready
  inOrder : (s.ready.filter s.isStarting).Pairwise (· < ·)

/-- A schedule serves a cycle for a namespace in a world: its scene is one of the cycle, but for
attempts that were over before. -/
structure Serves (s : Schedule) (old : List Attempt) (w : World) (ns : String) (sc : Scene) :
    Prop where
  lined : s.Lined
  ended : ∀ a ∈ old, a.isOver = true
  scene : s.scene = { sc with attempts := old ++ sc.attempts }
  reconciling : sc.Reconciling s.settings id w ns

theorem isStarting_of_get? {id : TaskId} {a : Attempt}
    (hget : s.tasks.get? id = some (.attempt a)) : s.isStarting id = (a.phase = .starting) := by
  simp only [isStarting, hget, decide_eq_true_eq]

/-- Of the attempts that have not started yet the first ready one has the lowest number. -/
theorem Lined.le_of_isStarting (h : s.Lined) {id other : TaskId} (hhead : s.ready.head? = some id)
    (hid : s.isStarting id = true) (hother : s.isStarting other = true) : id ≤ other := by
  obtain ⟨rest, hready⟩ := List.head?_eq_some_iff.1 hhead
  have hmem : other ∈ s.ready.filter s.isStarting :=
    List.mem_filter.2 ⟨h.queued other hother, hother⟩
  have hinOrder := h.inOrder
  rw [hready, List.filter_cons_of_pos hid] at hinOrder hmem
  rcases List.mem_cons.1 hmem with rfl | hmem
  · exact Nat.le_refl _
  · exact Nat.le_of_lt ((List.pairwise_cons.1 hinOrder).1 other hmem)

/-- Nobody waits for an attempt. -/
theorem wakeJoiners_of_loopless (h : ∀ id l, s.tasks.get? id ≠ some (.loop l)) (id : TaskId) :
    s.wakeJoiners id = s := by
  have hnone : (s.tasks.filter fun other t => t.isJoining id && !s.ready.contains other).keys =
      [] := by
    rw [Table.keys, List.map_eq_nil_iff]
    refine List.filter_eq_nil_iff.2 ?_
    rintro ⟨other, t⟩ ht
    cases t with
    | attempt a => exact Bool.false_ne_true
    | loop l => exact absurd ((Table.mem_entries_iff _).1 ht) (h other l)
  unfold wakeJoiners
  dsimp only
  rw [hnone, List.append_nil]

/-- Without loops a step of an attempt gets no other task ready. -/
theorem stepAttempt_eq (h : ∀ id l, s.tasks.get? id ≠ some (.loop l)) (id : TaskId) (a : Attempt) :
    s.stepAttempt id a = { s with world := (a.step s.settings s.world).2 }.setTask id
      (.attempt (a.step s.settings s.world).1) := by
  unfold stepAttempt
  dsimp only
  split
  · refine wakeJoiners_of_loopless (fun other l => ?_) id
    show (s.tasks.insert id _).get? other ≠ _
    rw [Table.get?_insert]
    split
    · exact fun hl => Task.noConfusion (Option.some.inj hl)
    · exact h other l
  · rfl

/-- The first ready task is dropped, which is no attempt that has yet to start. -/
theorem Lined.drop (h : s.Lined) {id : TaskId} {rest : List TaskId} (hready : s.ready = id :: rest)
    (hid : s.isStarting id = false) (horderly : Orderly { s with ready := rest }) :
    Lined { s with ready := rest } where
  orderly := horderly
  loopless := h.loopless
  known := fun other hmem => h.known other (hready ▸ List.mem_cons_of_mem _ hmem)
  queued := by
    intro other hother
    have hmem := h.queued other hother
    rw [hready] at hmem
    refine (List.mem_cons.1 hmem).resolve_left fun heq => ?_
    rw [heq] at hother
    exact Bool.false_ne_true (hid.symm.trans hother)
  inOrder := by
    have hinOrder := h.inOrder
    rw [hready, List.filter_cons_of_neg (Bool.eq_false_iff.1 hid)] at hinOrder
    exact hinOrder

/-- A task takes a step. -/
theorem Lined.stepAttempt (h : s.Lined) {id : TaskId} {a : Attempt}
    (hget : s.tasks.get? id = some (.attempt a)) (hstep : a.canStep s.world.now = true)
    (horderly : (s.stepAttempt id a).Orderly) : (s.stepAttempt id a).Lined := by
  rw [stepAttempt_eq h.loopless] at horderly ⊢
  -- the attempts that have yet to start are the same, but for this one
  have hstarting : ∀ other, ({ s with world := (a.step s.settings s.world).2 }.setTask id
      (.attempt (a.step s.settings s.world).1)).isStarting other =
      (s.isStarting other && other != id) := by
    intro other
    by_cases hid : other = id
    · subst hid
      have hne := a.step_ne_starting s.settings hstep
      simp [isStarting, setTask, hne]
    · simp [isStarting, setTask, Table.get?_insert_of_ne _ hid, hid]
  refine ⟨horderly, fun other l => ?_, h.known, fun other hother => ?_, ?_⟩
  · show (s.tasks.insert id _).get? other ≠ _
    rw [Table.get?_insert]
    split
    · exact fun hl => Task.noConfusion (Option.some.inj hl)
    · exact h.loopless other l
  · rw [hstarting, Bool.and_eq_true] at hother
    exact h.queued other hother.1
  · refine h.inOrder.sublist (List.monotone_filter_right _ fun other hother => ?_)
    rw [hstarting, Bool.and_eq_true] at hother
    exact hother.1

/-! ## Turns of a schedule -/

theorem Serves.world_eq (h : s.Serves old w ns sc) : s.world = sc.world :=
  congrArg Scene.world h.scene

theorem Serves.attempts_eq (h : s.Serves old w ns sc) : s.scene.attempts = old ++ sc.attempts :=
  congrArg Scene.attempts h.scene

/-- The attempts of the cycle stand behind the others. -/
theorem Serves.getElem?_attempts (h : s.Serves old w ns sc) (j : Nat) :
    s.scene.attempts[old.length + j]? = sc.attempts[j]? := by
  rw [h.attempts_eq, List.getElem?_append_right (Nat.le_add_right _ _), Nat.add_sub_cancel_left]

theorem Serves.exists_number (h : s.Serves old w ns sc) {j : Nat} {a : Attempt}
    (ha : sc.attempts[j]? = some a) : ∃ id, s.numbered[old.length + j]? = some (id, a) :=
  Schedule.getElem?_attempts.1 ((h.getElem?_attempts j).trans ha)

section

variable {task : TaskId} {a : Attempt} {j : Nat} (h : s.Serves old w ns sc)
  (hhead : s.ready.head? = some task) (hj : s.numbered[old.length + j]? = some (task, a))
include h hhead hj

/-- The first ready task has its turn. -/
theorem Serves.isFreeFor : sc.isFreeFor j := by
  refine List.all_eq_true.2 fun b hb => ?_
  obtain ⟨k, hk, hb⟩ := List.mem_eraseIdx_iff_getElem?.1 hb
  obtain ⟨other, hother⟩ := h.exists_number hb
  refine h.lined.orderly.rested other b (mem_numbered.1 (List.mem_of_getElem? hother)) ?_
  rw [hhead]
  have hne := ne_of_getElem?_numbered hj hother fun heq => hk (Nat.add_left_cancel heq).symm
  exact fun heq => hne (Option.some.inj heq)

/-- Of the attempts that have not started yet the first one starts. -/
theorem Serves.inTurn : sc.InTurn id (.attempt j) := by
  intro a' ha' hstart k b hb hstart'
  obtain rfl : a = a' := Option.some.inj
    ((Schedule.getElem?_attempts.2 ⟨task, hj⟩).symm.trans ((h.getElem?_attempts j).trans ha'))
  obtain ⟨other, hother⟩ := h.exists_number hb
  have hget := mem_numbered.1 (List.mem_of_getElem? hj)
  have hget' := mem_numbered.1 (List.mem_of_getElem? hother)
  have hle := h.lined.le_of_isStarting hhead ((isStarting_of_get? hget).mpr hstart)
    ((isStarting_of_get? hget').mpr hstart')
  refine Nat.le_of_not_lt fun hlt => ?_
  exact absurd (lt_of_getElem?_numbered hother hj (Nat.add_lt_add_left hlt _))
    (Nat.not_lt_of_le hle)

end

/-- **A step of an attempt is a turn of the cycle.** -/
theorem Serves.stepAttempt (h : s.Serves old w ns sc) {task : TaskId}
    (hhead : s.ready.head? = some task) {a : Attempt} (hget : s.tasks.get? task = some (.attempt a))
    (hstep : a.canStep s.world.now = true) (horderly : (s.stepAttempt task a).Orderly) :
    ∃ sc', (s.stepAttempt task a).Serves old w ns sc' := by
  have hlined := h.lined.stepAttempt hget hstep horderly
  obtain ⟨i, hi, hset⟩ := numbered_setTask hget
  have ha := Schedule.getElem?_attempts.2 ⟨task, hi⟩
  -- the attempts of before are over
  have hold : old.length ≤ i := by
    refine Nat.le_of_not_lt fun hlt => ?_
    rw [h.attempts_eq, List.getElem?_append_left hlt] at ha
    simp [Attempt.canStep, h.ended a (List.mem_of_getElem? ha)] at hstep
  obtain ⟨j, rfl⟩ := Nat.exists_eq_add_of_le hold
  rw [h.getElem?_attempts] at ha
  refine ⟨sc.next s.settings (.attempt j), hlined, h.ended, ?_, ?_⟩
  · have hscene := attempts_of_numbered_set (hset (a.step s.settings s.world).1)
    rw [h.attempts_eq, List.set_append_right _ _ (Nat.le_add_right _ _),
      Nat.add_sub_cancel_left] at hscene
    rw [stepAttempt_eq h.lined.loopless, Scene.next_attempt ha (h.isFreeFor hhead hi), ← h.world_eq]
    exact congrArg (Scene.mk _) hscene
  · rw [stepAttempt_eq h.lined.loopless]
    exact h.reconciling.next (h.inTurn hhead hi)

theorem Serves.move (h : s.Serves old w ns sc) : ∃ sc', s.move.Serves old w ns sc' := by
  by_cases hready : s.ready = []
  · rw [move_of_ready hready]
    exact ⟨sc, h⟩
  have horderly := (move_leads h.lined.orderly).orderly
  have hc := move_case hready
  generalize s.move = t at hc horderly
  cases hc with
  | @drop id rest hready hidle =>
    have hid : s.isStarting id = false := by
      unfold isStarting
      split
      · rename_i a hget
        have hstep : a.canStep s.world.now = false := hidle _ hget
        refine decide_eq_false fun hphase => ?_
        simp [Attempt.canStep, Attempt.isOver, Attempt.isSuspended, hphase] at hstep
      · rfl
    exact ⟨sc, h.lined.drop hready hid horderly, h.ended, h.scene, h.reconciling⟩
  | attempt hhead ha hstep => exact h.stepAttempt hhead ha hstep horderly
  | loop _ hl => exact absurd hl (h.lined.loopless _ _)

/-- Time passes when no task is ready. -/
theorem Serves.tick (h : s.Serves old w ns sc) (hready : s.ready = []) {callers : List Alarm}
    (htick : s.tick callers = some s') : ∃ sc', s'.Serves old w ns sc' := by
  have hrested := h.lined.orderly.rested_of_ready hready
  have horderly := (tick_leads h.lined.orderly.numbered hrested htick).orderly
  have hnone : ∀ id, s.isStarting id = false := fun id => Bool.eq_false_iff.2 fun hid => by
    have hmem := h.lined.queued id hid
    rw [hready] at hmem
    cases hmem
  have hrest : sc.isAtRest = true := List.all_eq_true.2 fun a ha =>
    List.all_eq_true.1 hrested.isAtRest a (h.attempts_eq ▸ List.mem_append_right _ ha)
  unfold Schedule.tick at htick
  split at htick
  · cases htick
  · rename_i due _
    cases htick
    have hknown : ∀ id ∈ ((s.ringing (max s.world.now due)).mergeSort fun a b => a.1 ≤ b.1).map
        (·.2), id < s.nextId := by
      intro id hid
      obtain ⟨⟨ticket, id'⟩, hmem, rfl⟩ := List.mem_map.1 hid
      obtain ⟨⟨other, t⟩, ht, htickets⟩ := List.mem_filterMap.1 (List.mem_mergeSort.1 hmem)
      obtain ⟨n, -, hn⟩ := Option.map_eq_some_iff.1 htickets
      cases hn
      exact h.lined.orderly.numbered other t ((Table.mem_entries_iff _).1 ht)
    refine ⟨sc.next s.settings (.others { sc.world with now := max s.world.now due }), ?_, h.ended,
      ?_, h.reconciling.next ⟨_, rfl⟩⟩
    · refine ⟨horderly, h.lined.loopless, fun id hid => ?_, fun id hid => ?_, ?_⟩
      · exact (List.mem_append.1 hid).elim (h.lined.known id) (hknown id)
      · exact absurd hid (Bool.eq_false_iff.1 (hnone id))
      · have hfilter : ∀ ids : List TaskId, ids.filter s.isStarting = [] := fun ids =>
          List.filter_eq_nil_iff.2 fun id _ => Bool.eq_false_iff.1 (hnone id)
        show List.Pairwise _ (List.filter s.isStarting _)
        rw [hfilter]
        exact .nil
    · rw [Scene.next_others hrest, ← h.world_eq]
      simp only [World.changedTo, Nat.max_self]
      rw [Nat.max_eq_right (Nat.le_max_left _ _), ← h.attempts_eq]
      rfl

/-- **While a caller waits, the schedule serves the cycle.** -/
theorem Serves.run (h : s.Serves old w ns sc) {c : Caller} (hc : ∀ a, c ≠ .scaling a) :
    ∃ sc', (s.run c).2.Serves old w ns sc' := by
  refine run_induction (P := fun t => ∃ sc', t.Serves old w ns sc') hc ?_ ?_ ⟨sc, h⟩
  · rintro t ⟨sc', h'⟩
    exact h'.move
  · rintro t t' ⟨sc', h'⟩ hready htick
    exact h'.tick hready htick

/-! ## The begin of a cycle -/

/-- All tasks are attempts that are over. -/
structure Idle (s : Schedule) : Prop where
  numbered : s.Numbered
  ended : ∀ id t, s.tasks.get? id = some t → ∃ a, t = .attempt a ∧ a.isOver = true
  known : ∀ id ∈ s.ready, id < s.nextId

/-- A schedule without tasks is idle. -/
theorem idle_of_no_tasks (settings : Settings) (world : World) : Idle { settings, world } :=
  ⟨fun _ _ h => (nomatch h), fun _ _ h => (nomatch h), fun _ h => (nomatch h)⟩

theorem Idle.isOver (h : s.Idle) {a : Attempt} (ha : a ∈ s.scene.attempts) : a.isOver = true := by
  obtain ⟨id, hget⟩ := mem_attempts.1 ha
  obtain ⟨b, hb, hover⟩ := h.ended id _ hget
  cases hb
  exact hover

theorem Idle.isStarting (h : s.Idle) (id : TaskId) : s.isStarting id = false := by
  refine Bool.eq_false_iff.2 fun hid => ?_
  unfold Schedule.isStarting at hid
  split at hid
  · rename_i a hget
    obtain ⟨b, hb, hover⟩ := h.ended id _ hget
    cases hb
    simp [Attempt.isOver, of_decide_eq_true hid] at hover
  · cases hid

theorem Idle.rested (h : s.Idle) : s.Rested := by
  intro id a hget
  have hover := h.isOver (mem_attempts.2 ⟨id, hget⟩)
  unfold Attempt.isOver at hover
  unfold Attempt.isAtRest
  split at hover <;> simp_all

theorem Idle.lined (h : s.Idle) (world : World) : Lined { s with world } where
  orderly := .of_rested h.numbered h.rested
  loopless := by
    intro id l hget
    obtain ⟨a, ha, -⟩ := h.ended id _ hget
    cases ha
  known := h.known
  queued := fun id hid => absurd hid (Bool.eq_false_iff.1 (h.isStarting id))
  inOrder := by
    have hnone : s.ready.filter s.isStarting = [] :=
      List.filter_eq_nil_iff.2 fun id _ => Bool.eq_false_iff.1 (h.isStarting id)
    show List.Pairwise _ (s.ready.filter s.isStarting)
    rw [hnone]
    exact .nil

/-- An attempt that is launched lines up behind the others. -/
theorem Lined.spawn (h : s.Lined) (l : Launch) :
    (s.spawn (.attempt (.launch l.1 l.2))).2.Lined := by
  have hget : ∀ id, (s.spawn (.attempt (.launch l.1 l.2))).2.tasks.get? id =
      if id = s.nextId then some (.attempt (.launch l.1 l.2)) else s.tasks.get? id := fun id =>
    Table.get?_insert _ _ _ _
  have hstarting : ∀ id, (s.spawn (.attempt (.launch l.1 l.2))).2.isStarting id =
      (decide (id = s.nextId) || s.isStarting id) := by
    intro id
    unfold isStarting
    rw [hget]
    by_cases hid : id = s.nextId
    · simp [Attempt.launch, hid]
    · simp [hid]
  refine ⟨⟨h.orderly.numbered.spawn _, fun id a ha hne => ?_⟩, fun id loop hloop => ?_,
    fun id hid => ?_, fun id hid => ?_, ?_⟩
  · rw [hget] at ha
    split at ha
    · cases ha
      rfl
    · refine h.orderly.rested id a ha fun hid => hne ?_
      show (s.ready ++ [s.nextId]).head? = some id
      rw [List.head?_append, hid]
      rfl
  · rw [hget] at hloop
    split at hloop
    · cases hloop
    · exact h.loopless id loop hloop
  · rcases List.mem_append.1 hid with hid | hid
    · exact Nat.lt_succ_of_lt (h.known id hid)
    · exact List.mem_singleton.1 hid ▸ Nat.lt_succ_self _
  · rw [hstarting, Bool.or_eq_true, decide_eq_true_eq] at hid
    refine List.mem_append.2 (hid.symm.imp (h.queued id) fun heq => ?_)
    exact List.mem_singleton.2 heq
  · have hfirst : s.ready.filter (s.spawn (.attempt (.launch l.1 l.2))).2.isStarting =
        s.ready.filter s.isStarting := by
      refine List.filter_congr fun id hid => ?_
      rw [hstarting, decide_eq_false (Nat.ne_of_lt (h.known id hid)), Bool.false_or]
    show List.Pairwise _ (List.filter _ (s.ready ++ [s.nextId]))
    rw [List.filter_append, hfirst]
    refine List.pairwise_append.2 ⟨h.inOrder, (List.pairwise_singleton _ _).sublist
      List.filter_sublist, fun id hid next hnext => ?_⟩
    rw [List.mem_singleton.1 (List.mem_filter.1 hnext).1]
    exact h.known id (List.mem_filter.1 hid).1

theorem Lined.launchAll (h : s.Lined) (launches : List Launch) :
    (s.launchAll launches).2.Lined := by
  induction launches generalizing s with
  | nil => exact h
  | cons l launches ih => exact ih (h.spawn l)

theorem launchCycle_snd (s : Schedule) (result : Except CycleError Cycle × World) :
    (s.launchCycle result).2 =
      (launchAll { s with world := result.2 } (Cycle.launchesOf result.1)).2 := by
  obtain ⟨_ | cycle, w⟩ := result <;> rfl

/-- **An idle schedule serves the cycle that it lets run.** -/
theorem reconcile_serves (h : s.Idle) (ns : String) :
    (s.reconcile ns).2.Serves s.scene.attempts s.world ns
      (Scene.afterCycle s.settings s.world ns) := by
  have hlaunched := launchCycle_launched h.numbered (Cycle.ofNamespace s.settings s.world ns)
  refine ⟨?_, fun a ha => h.isOver ha, ?_, ?_⟩
  · rw [reconcile, launchCycle_snd]
    exact (h.lined _).launchAll _
  · show Scene.mk (s.reconcile ns).2.world (s.reconcile ns).2.scene.attempts = _
    rw [reconcile, hlaunched.attempts, hlaunched.world]
    rfl
  · rw [reconcile, hlaunched.settings]
    exact .launched

/-! ## Cycles and waits -/

/-- A schedule is idle again when all attempts are over. -/
theorem Serves.idle (h : s.Serves old w ns sc) (hover : s.scene.IsOver) : s.Idle where
  numbered := h.lined.orderly.numbered
  ended := by
    intro id t hget
    cases t with
    | loop l => exact absurd hget (h.lined.loopless id l)
    | attempt a => exact ⟨a, rfl, hover a (mem_attempts.2 ⟨id, hget⟩)⟩
  known := h.lined.known

theorem Serves.isOver (h : s.Serves old w ns sc) (hover : s.scene.IsOver) : sc.IsOver := by
  intro a ha
  refine hover a ?_
  rw [h.scene]
  exact List.mem_append_right _ ha

/-- The numbers of the attempts that a cycle launched. -/
def launchedIds : Except CycleError (Cycle × List (Key × TaskId)) → List TaskId
  | .error _ => []
  | .ok (_, launched) => launched.map (·.2)

/-- A round for one namespace is a cycle and the wait for its attempts. -/
theorem runCycles_snd (s : Schedule) (ns : String) :
    (Simulation.runCycles s [ns]).2 =
      (s.reconcile ns).2.join (launchedIds (s.reconcile ns).1) := by
  unfold Simulation.runCycles
  rcases s.reconcile ns with ⟨_ | ⟨cycle, launched⟩, s'⟩
  · exact (s'.join_of_over (show [].all s'.isOver = true from rfl)).symm
  · rfl

/-- A cycle for a namespace, and the wait for its attempts. -/
theorem runCycles_serves (h : s.Idle) (ns : String) :
    ∃ sc, (Simulation.runCycles s [ns]).2.Serves s.scene.attempts s.world ns sc ∧
      (Simulation.runCycles s [ns]).2.settings = s.settings := by
  have hserves := reconcile_serves h ns
  have hsettings : (s.reconcile ns).2.settings = s.settings :=
    (reconcile_triggered h.numbered h.rested ns).leads.settings
  rw [runCycles_snd]
  obtain ⟨sc, hsc⟩ := hserves.run (c := .joining (launchedIds (s.reconcile ns).1))
    fun a ha => nomatch ha
  exact ⟨sc, hsc, (join_leads hserves.lined.orderly _).settings.trans hsettings⟩

/-- The cycles of a round run one after the other. -/
theorem runCycles_append (s : Schedule) (before after : List String) :
    Simulation.runCycles s (before ++ after) =
      ((Simulation.runCycles s before).1 ++
          (Simulation.runCycles (Simulation.runCycles s before).2 after).1,
        (Simulation.runCycles (Simulation.runCycles s before).2 after).2) := by
  induction before generalizing s with
  | nil => rfl
  | cons ns before ih =>
    simp only [List.cons_append, Simulation.runCycles]
    rcases s.reconcile ns with ⟨_ | ⟨cycle, launched⟩, s'⟩
    · exact ih s'
    · simp only [ih, List.cons_append]

theorem runCycles_cons (s : Schedule) (ns : String) (rest : List String) :
    (Simulation.runCycles s (ns :: rest)).2 =
      (Simulation.runCycles (Simulation.runCycles s [ns]).2 rest).2 := by
  rw [← List.singleton_append, runCycles_append]

/-- What a round reports about a cycle. -/
theorem runCycles_report (s : Schedule) (ns : String) :
    (Simulation.runCycles s [ns]).1 =
      (Cycle.ofNamespace s.settings s.world ns).1.toOption.toList := by
  unfold Simulation.runCycles reconcile launchCycle
  rcases Cycle.ofNamespace s.settings s.world ns with ⟨_ | cycle, w⟩ <;> rfl

/-- **What a round does for a namespace depends on the namespace only**: in worlds that have the
same for it the cycle reports the same, and the attempts leave the same behind when all of them are
over. -/
theorem runCycles_matches (h : s.Idle) (h' : s'.Idle) (hsettings : s'.settings = s.settings)
    (hw : s.world.IsCalm) (hw' : s'.world.IsCalm) (hagree : s.world.AgreesOn ns s'.world)
    (hover : (Simulation.runCycles s [ns]).2.scene.IsOver)
    (hover' : (Simulation.runCycles s' [ns]).2.scene.IsOver) :
    (Simulation.runCycles s' [ns]).1 = (Simulation.runCycles s [ns]).1 ∧
      ∃ sc sc', (Simulation.runCycles s [ns]).2.scene =
          { sc with attempts := s.scene.attempts ++ sc.attempts } ∧
        (Simulation.runCycles s' [ns]).2.scene =
          { sc' with attempts := s'.scene.attempts ++ sc'.attempts } ∧
        Scene.Matches ns s.world s'.world sc sc' := by
  obtain ⟨sc, hsc, hset⟩ := runCycles_serves h ns
  obtain ⟨sc', hsc', hset'⟩ := runCycles_serves h' ns
  have hrun := hsc.reconciling
  have hrun' := hsc'.reconciling
  rw [hset] at hrun
  rw [hset', hsettings] at hrun'
  refine ⟨?_, sc, sc', hsc.scene, hsc'.scene, ?_⟩
  · rw [runCycles_report, runCycles_report, hsettings,
      (Scene.view_afterCycle hw hw' hagree).1]
  · exact hrun.matches Function.injective_id hw hw' hagree hrun' (hsc.isOver hover)
      (hsc'.isOver hover')

/-- **The order of the namespaces in a round does not matter**, as long as no wait is cut short. -/
theorem runCycles_comm (h : s.Idle) (hw : s.world.IsCalm) {other : String} (hne : other ≠ ns)
    (hfirst : (Simulation.runCycles s [ns]).2.scene.IsOver)
    (hsecond : (Simulation.runCycles s [ns, other]).2.scene.IsOver)
    (hfirst' : (Simulation.runCycles s [other]).2.scene.IsOver)
    (hsecond' : (Simulation.runCycles s [other, ns]).2.scene.IsOver) :
    (Simulation.runCycles s [other, ns]).2.world.cluster.inventory =
        (Simulation.runCycles s [ns, other]).2.world.cluster.inventory ∧
      (Simulation.runCycles s [other, ns]).2.world.registry =
        (Simulation.runCycles s [ns, other]).2.world.registry := by
  rw [runCycles_cons] at hsecond hsecond'
  rw [runCycles_cons s other [ns], runCycles_cons s ns [other]]
  obtain ⟨sc₁, h₁, hset₁⟩ := runCycles_serves h ns
  obtain ⟨sc₂, h₂, hset₂⟩ := runCycles_serves (h₁.idle hfirst) other
  obtain ⟨sc₁', h₁', hset₁'⟩ := runCycles_serves h other
  obtain ⟨sc₂', h₂', hset₂'⟩ := runCycles_serves (h₁'.idle hfirst') ns
  have hrun₁ := h₁.reconciling
  have hrun₂ := h₂.reconciling
  have hrun₁' := h₁'.reconciling
  have hrun₂' := h₂'.reconciling
  rw [hset₁] at hrun₁
  rw [hset₂, hset₁, h₁.world_eq] at hrun₂
  rw [hset₁'] at hrun₁'
  rw [hset₂', hset₁', h₁'.world_eq] at hrun₂'
  rw [h₂.world_eq, h₂'.world_eq]
  exact Scene.eq_of_agreesOn fun third => Scene.agreesOn_of_order hne Function.injective_id
    Function.injective_id hw hrun₁ (h₁.isOver hfirst) hrun₂ (h₂.isOver hsecond) hrun₁'
    (h₁'.isOver hfirst') hrun₂' (h₂'.isOver hsecond') third

end Schedule

end ReplicaControl
