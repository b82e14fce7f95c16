import Mathlib.Logic.Function.Iterate
import ReplicaControl.Proofs.SweepSchedules

/-!
# Sweeps that wait for their retries

A sweep of a schedule launches its retries and waits for them, while the other tasks go on.

* `Schedule.flow` — what happens next while a caller waits.  `FlowCase`, `flow_case`: all that it can
  be.
* `drain_flow`, `await_flow` — a wait for tasks gets as far as to the first time at which no task is
  ready and these are over.
* `Schedule.sweeping` — the schedule some steps after a sweep began.  `Schedule.course`: the course of
  the sweep.
-/

namespace ReplicaControl

namespace Schedule

variable {s s' : Schedule} {id : TaskId} {a : Attempt}

/-! ## What happens next -/

/-- The attempt with a number. -/
def attempt? (s : Schedule) (id : TaskId) : Option Attempt :=
  (s.tasks.get? id).bind Task.attempt?

theorem attempt?_eq_some : s.attempt? id = some a ↔ s.tasks.get? id = some (.attempt a) := by
  rw [attempt?, Option.bind_eq_some_iff]
  constructor
  · rintro ⟨t, ht, ha⟩
    cases t with
    | attempt b =>
      cases ha
      exact ht
    | loop l => cases ha
  · exact fun h => ⟨_, h, rfl⟩

/-- What happens next while a caller waits for tasks: the first ready task takes a step, or time
passes if no task is ready. -/
def flow (s : Schedule) : Schedule := if s.ready = [] then (s.tick []).getD s else s.move

/-- Everything that this can be. -/
inductive FlowCase (s : Schedule) : Schedule → Prop
  /-- Time passes up to the next alarm. -/
  | tick {s' : Schedule} (hready : s.ready = []) (htick : s.tick [] = some s') : FlowCase s s'
  /-- There is no alarm, and nothing happens any more. -/
  | stuck (hready : s.ready = []) (htick : s.tick [] = none) : FlowCase s s
  | move {s' : Schedule} (hready : s.ready ≠ []) (hmove : s.MoveCase s') : FlowCase s s'

theorem flow_case (s : Schedule) : s.FlowCase s.flow := by
  unfold flow
  split
  · rename_i hready
    cases htick : s.tick [] with
    | none => exact .stuck hready htick
    | some s' => exact .tick hready htick
  · rename_i hready
    exact .move hready (move_case hready)

/-- The first ready task, if it is an attempt that can take a step. -/
def stepping? (s : Schedule) : Option TaskId :=
  s.ready.head?.filter fun id => (s.attempt? id).any (·.canStep s.world.now)

theorem stepping?_eq_some :
    s.stepping? = some id ↔ s.ready.head? = some id ∧
      ∃ a, s.attempt? id = some a ∧ a.canStep s.world.now = true := by
  rw [stepping?, Option.filter_eq_some_iff, Option.any_eq_true]

theorem world_stepAttempt (s : Schedule) (id : TaskId) (a : Attempt) :
    (s.stepAttempt id a).world = (a.step s.settings s.world).2 := by
  unfold stepAttempt
  dsimp only
  split <;> rfl

theorem attempt?_stepAttempt (s : Schedule) (id : TaskId) (a : Attempt) (other : TaskId) :
    (s.stepAttempt id a).attempt? other =
      if other = id then some (a.step s.settings s.world).1 else s.attempt? other := by
  have hset : (s.stepAttempt id a).tasks.get? other =
      (s.tasks.insert id (.attempt (a.step s.settings s.world).1)).get? other := by
    unfold stepAttempt
    dsimp only
    split <;> rfl
  rw [attempt?, hset, Table.get?_insert]
  split <;> rfl

/-- The ready tasks stay ready while an attempt takes a step. -/
theorem ready_stepAttempt (s : Schedule) (id : TaskId) (a : Attempt) :
    s.ready <+: (s.stepAttempt id a).ready := by
  unfold stepAttempt
  dsimp only
  split
  · exact List.prefix_append _ _
  · exact List.prefix_refl _

section

variable (hn : s.Numbered) (hr : s.Rested) {l : Loop} (hl : s.tasks.get? id = some (.loop l))
include hn hr hl

/-- A step of a loop leaves the attempts and the tasks that are ready as they are, and takes no
time. -/
theorem stepLoop_spec :
    (∀ other a, s.attempt? other = some a → (s.stepLoop id l).attempt? other = some a) ∧
      s.ready <+: (s.stepLoop id l).ready ∧ (s.stepLoop id l).world.now = s.world.now := by
  have hset : ∀ {t : Schedule} (l' : Loop),
      (∀ other u, s.tasks.get? other = some u → t.tasks.get? other = some u) →
      ∀ other a, s.attempt? other = some a →
        (t.setTask id (.loop l')).attempt? other = some a := by
    intro t l' hkept other a ha
    have hget := attempt?_eq_some.1 ha
    refine attempt?_eq_some.2 ?_
    have hne : other ≠ id := by
      rintro rfl
      cases hl.symm.trans hget
    exact (Table.get?_insert_of_ne _ hne _).trans (hkept other _ hget)
  unfold stepLoop
  split
  · split
    · exact ⟨hset _ fun _ _ h => h, List.prefix_refl _, rfl⟩
    · exact ⟨hset (t := { s with world := _ }) _ fun _ _ h => h, List.prefix_refl _, rfl⟩
  · split
    · have hpass := pass_triggered hn hr l.job
      exact ⟨hset _ hpass.kept, hpass.ready, hpass.now⟩
    · exact ⟨hset _ fun _ _ h => h, List.prefix_refl _, rfl⟩
  · exact ⟨hset _ fun _ _ h => h, List.prefix_refl _, rfl⟩
  · exact ⟨fun _ _ h => h, List.prefix_refl _, rfl⟩

end

/-! ## While a caller waits for tasks -/

theorem tick_tasks {callers : List Alarm} (h : s.tick callers = some s') : s'.tasks = s.tasks := by
  unfold tick at h
  split at h
  · cases h
  · cases h
    rfl

theorem tick_world {callers : List Alarm} (h : s.tick callers = some s') :
    ∃ now, s.world.now ≤ now ∧ s'.world = { s.world with now } := by
  unfold tick at h
  split at h
  · cases h
  · cases h
    exact ⟨_, Nat.le_max_left _ _, rfl⟩

theorem flow_leads (h : s.Orderly) : s.Leads s.flow := by
  unfold flow
  split
  · rename_i hready
    cases htick : s.tick [] with
    | none => exact .refl h
    | some s' => exact tick_leads h.numbered (h.rested_of_ready hready) htick
  · exact move_leads h

theorem iterate_flow_leads (h : s.Orderly) (n : Nat) : s.Leads (flow^[n] s) := by
  induction n with
  | zero => exact .refl h
  | succ n ih =>
    rw [Function.iterate_succ_apply']
    exact ih.trans (flow_leads ih.orderly)

/-- An attempt stays as it is, or takes a step in its turn. -/
theorem attempt?_flow (h : s.Orderly) (ha : s.attempt? id = some a) :
    s.stepping? = some id ∧ s.flow.world = (a.step s.settings s.world).2 ∧
        s.flow.attempt? id = some (a.step s.settings s.world).1 ∨
      s.stepping? ≠ some id ∧ s.flow.attempt? id = some a := by
  have hc := s.flow_case
  generalize s.flow = t at hc
  cases hc with
  | tick hready htick =>
    refine .inr ⟨by simp [stepping?, hready], ?_⟩
    rw [attempt?, tick_tasks htick]
    exact ha
  | stuck hready => exact .inr ⟨by simp [stepping?, hready], ha⟩
  | move _ hmove =>
    cases hmove with
    | @drop id' rest hready hidle =>
      refine .inr ⟨fun hturn => ?_, ha⟩
      obtain ⟨hhead, b, hb, hstep⟩ := stepping?_eq_some.1 hturn
      rw [hready] at hhead
      obtain rfl := Option.some.inj hhead
      exact absurd ((hidle _ (attempt?_eq_some.1 hb)).symm.trans hstep) (by decide)
    | @attempt id' b hhead hb hstep =>
      rw [world_stepAttempt, attempt?_stepAttempt]
      have hb := attempt?_eq_some.2 hb
      by_cases hid : id = id'
      · subst hid
        obtain rfl := Option.some.inj (hb.symm.trans ha)
        exact .inl ⟨stepping?_eq_some.2 ⟨hhead, b, hb, hstep⟩, rfl, if_pos rfl⟩
      · refine .inr ⟨fun hturn => hid ?_, by rw [if_neg hid]; exact ha⟩
        exact Option.some.inj ((stepping?_eq_some.1 hturn).1.symm.trans hhead)
    | @loop id' l hhead hl =>
      refine .inr ⟨fun hturn => ?_, ?_⟩
      · obtain ⟨hhead', b, hb, -⟩ := stepping?_eq_some.1 hturn
        obtain rfl := Option.some.inj (hhead'.symm.trans hhead)
        cases hl.symm.trans (attempt?_eq_some.1 hb)
      · exact (stepLoop_spec h.numbered (h.rested_of_loop hhead hl) hl).1 id a ha

theorem now_le_flow (h : s.Orderly) : s.world.now ≤ s.flow.world.now := by
  have hc := s.flow_case
  generalize s.flow = t at hc
  cases hc with
  | tick _ htick =>
    obtain ⟨now, hle, hworld⟩ := tick_world htick
    rw [hworld]
    exact hle
  | stuck => exact Nat.le_refl _
  | move _ hmove =>
    cases hmove with
    | drop => exact Nat.le_refl _
    | attempt =>
      rw [world_stepAttempt]
      exact Nat.le_of_eq (Attempt.step_now ..).symm
    | loop hhead hl =>
      exact Nat.le_of_eq (stepLoop_spec h.numbered (h.rested_of_loop hhead hl) hl).2.2.symm

theorem drain_of_ready (h : s.ready = []) : s.drain = some s := by rw [drain, if_pos h]

theorem await_of_isDone {c : Caller} (h : c.isDone s = true) : await c s = some (c, s) := by
  rw [await, if_pos h]

/-- Moves get to the first time at which no task is ready. -/
theorem drain_flow {n : Nat} (h : (flow^[n] s).ready = []) :
    ∃ m ≤ n, s.drain = some (flow^[m] s) ∧ (flow^[m] s).ready = [] ∧
      (s.ready ≠ [] → 0 < m) := by
  induction n generalizing s with
  | zero => exact ⟨0, Nat.le_refl _, drain_of_ready h, h, absurd h⟩
  | succ n ih =>
    by_cases hready : s.ready = []
    · exact ⟨0, Nat.zero_le _, drain_of_ready hready, hready, absurd hready⟩
    · obtain ⟨m, hm, hdrain, hlast, -⟩ := ih (s := s.flow) h
      refine ⟨m + 1, Nat.succ_le_succ hm, ?_, hlast, fun _ => Nat.succ_pos m⟩
      have hmove : s.move = s.flow := by rw [flow, if_neg hready]
      rw [drain, if_neg hready, hmove]
      exact hdrain

/-- **A wait for tasks gets as far as to the first time at which no task is ready and these are
over.** -/
theorem await_flow {ids : List TaskId} {n : Nat} (hready : (flow^[n] s).ready = [])
    (hover : ids.all (flow^[n] s).isOver = true)
    (hfirst : ∀ m < n, (flow^[m] s).ready = [] → ids.all (flow^[m] s).isOver = false)
    (h : ids.all s.isOver = true → s.ready = []) :
    await (.joining ids) s = some (.joining ids, flow^[n] s) := by
  induction n using Nat.strongRecOn generalizing s with
  | ind n ih =>
    by_cases hdone : Caller.isDone s (.joining ids) = true
    · have hzero : n = 0 := by
        refine Nat.eq_zero_of_not_pos fun hpos => ?_
        exact absurd ((hfirst 0 hpos (h hdone)).symm.trans hdone) (by decide)
      rw [hzero]
      exact await_of_isDone hdone
    · have hpos : 0 < n := by
        refine Nat.pos_of_ne_zero fun hzero => hdone ?_
        rw [hzero] at hover
        exact hover
      rw [await, if_neg hdone]
      dsimp only [Caller.step?]
      by_cases hnone : s.ready = []
      · rw [if_pos hnone, show Caller.alarms (.joining ids) = [] from rfl]
        cases htick : s.tick [] with
        | none =>
          have hsame : s.flow = s := by rw [flow, if_pos hnone, htick]; rfl
          rw [Function.iterate_fixed hsame] at hover
          exact absurd hover hdone
        | some s' =>
          have hflow : s.flow = s' := by rw [flow, if_pos hnone, htick]; rfl
          obtain ⟨k, rfl⟩ := Nat.exists_eq_add_of_le' hpos
          rw [Function.iterate_succ_apply, hflow] at hready hover ⊢
          refine ih k (Nat.lt_succ_self k) hready hover (fun m hm => ?_) fun hall => ?_
          · have hfirst := hfirst (m + 1) (Nat.succ_lt_succ hm)
            rwa [Function.iterate_succ_apply, hflow] at hfirst
          · refine absurd (List.all_eq_true.2 fun id hid => ?_) hdone
            have hid := List.all_eq_true.1 hall id hid
            rw [isOver, tick_tasks htick] at hid
            exact hid
      · rw [if_neg hnone]
        obtain ⟨m, hm, hdrain, hlast, hmpos⟩ := drain_flow hready
        have hmpos := hmpos hnone
        obtain ⟨k, rfl⟩ := Nat.exists_eq_add_of_le' hm
        rw [hdrain]
        rw [Function.iterate_add_apply] at hready hover ⊢
        refine ih k (by omega) hready hover (fun j hj => ?_) fun _ => hlast
        rw [← Function.iterate_add_apply]
        exact hfirst (j + m) (by omega)

theorem join_of_over {ids : List TaskId} (h : ids.all s.isOver = true) : s.join ids = s := by
  rw [join, run, await_of_isDone (c := .joining ids) h]
  rfl

/-- A caller that waits for tasks goes on at the first time at which no task is ready and these are
over. -/
theorem join_flow {ids : List TaskId} {n : Nat} (hready : (flow^[n] s).ready = [])
    (hover : ids.all (flow^[n] s).isOver = true)
    (hfirst : ∀ m < n, (flow^[m] s).ready = [] → ids.all (flow^[m] s).isOver = false)
    (h : ids.all s.isOver = true → s.ready = []) : s.join ids = flow^[n] s := by
  rw [join, run, await_flow hready hover hfirst h]
  rfl

/-! ## The course of a sweep -/

/-- The attempts with some numbers. -/
def attemptsOf (s : Schedule) (ids : List TaskId) : List Attempt := ids.filterMap s.attempt?

theorem attemptsOf_eq {ids : List TaskId} {as : List Attempt} :
    ids.map s.attempt? = as.map some → s.attemptsOf ids = as := by
  intro h
  have hmap : (ids.map s.attempt?).filterMap id = (as.map some).filterMap id := by rw [h]
  rw [List.filterMap_map, List.filterMap_map] at hmap
  exact hmap.trans List.filterMap_some

/-- The attempts of launched tasks. -/
theorem map_attempt?_launchAll (h : s.Numbered) (launches : List Launch) :
    (s.launchAll launches).1.map (s.launchAll launches).2.attempt? =
      launches.map fun l => some (.launch l.1 l.2) := by
  induction launches generalizing s with
  | nil => rfl
  | cons l launches ih =>
    have hspawn := h.spawn (.attempt (.launch l.1 l.2))
    have hkept := (launchAll_launched hspawn launches).kept s.nextId _
      (Table.get?_insert_self _ _ _)
    exact congrArg₂ List.cons (attempt?_eq_some.2 hkept) (ih hspawn)

/-- Launched tasks are ready. -/
theorem ready_launchAll (s : Schedule) (launches : List Launch) :
    (s.launchAll launches).2.ready = s.ready ++ (s.launchAll launches).1 := by
  induction launches generalizing s with
  | nil => exact (List.append_nil _).symm
  | cons l launches ih =>
    have hrest := ih (s.spawn (.attempt (.launch l.1 l.2))).2
    rw [show (s.spawn (.attempt (.launch l.1 l.2))).2.ready = s.ready ++ [s.nextId] from rfl,
      List.append_assoc] at hrest
    exact hrest

/-- The schedule some steps after a sweep began. -/
def sweeping (s : Schedule) (n : Nat) : Schedule := flow^[n] s.beginSweep.2

/-- The numbers of the retries of a sweep. -/
def retryIds (s : Schedule) : List TaskId := s.beginSweep.1.2

/-- The retries of a sweep as they stand some steps later. -/
def retriesAt (s : Schedule) (n : Nat) : List Attempt := (s.sweeping n).attemptsOf s.retryIds

theorem sweeping_succ (s : Schedule) (n : Nat) : s.sweeping (n + 1) = (s.sweeping n).flow :=
  Function.iterate_succ_apply' ..

section

variable (hn : s.Numbered) (hr : s.Rested)
include hn

theorem map_attempt?_retryIds :
    s.retryIds.map (s.sweeping 0).attempt? =
      (Sweep.survey s.settings s.world).1.2.map fun l => some (.launch l.1 l.2) :=
  map_attempt?_launchAll (s := { s with world := (Sweep.survey s.settings s.world).2 }) hn _

theorem nodup_retryIds : s.retryIds.Nodup := by
  have hids := (attemptIds_launchAll
    (s := { s with world := (Sweep.survey s.settings s.world).2 }) hn
    (Sweep.survey s.settings s.world).1.2).1
  have hnodup : (s.sweeping 0).attemptIds.Nodup :=
    (attemptIds_increasing _).imp Nat.ne_of_lt
  exact (hids ▸ hnodup).sublist (List.sublist_append_right _ _)

include hr

theorem sweeping_leads (n : Nat) : s.Leads (s.sweeping n) := by
  have hbegin := (beginSweep_triggered hn hr).leads
  exact hbegin.trans (iterate_flow_leads hbegin.orderly n)

/-- The retries are there all the time. -/
theorem exists_attempt {id : TaskId} (hid : id ∈ s.retryIds) (n : Nat) :
    ∃ a, (s.sweeping n).attempt? id = some a := by
  induction n with
  | zero =>
    have hmem := List.mem_map_of_mem (f := (s.sweeping 0).attempt?) hid
    rw [map_attempt?_retryIds hn] at hmem
    obtain ⟨l, -, hl⟩ := List.mem_map.1 hmem
    exact ⟨_, hl.symm⟩
  | succ n ih =>
    obtain ⟨a, ha⟩ := ih
    rw [sweeping_succ]
    rcases attempt?_flow (sweeping_leads hn hr n).orderly ha with ⟨-, -, h⟩ | ⟨-, h⟩
    · exact ⟨_, h⟩
    · exact ⟨a, h⟩

theorem map_retriesAt (n : Nat) :
    s.retryIds.map (s.sweeping n).attempt? = (s.retriesAt n).map some := by
  have hall : ∀ ids : List TaskId, (∀ id ∈ ids, ∃ a, (s.sweeping n).attempt? id = some a) →
      ids.map (s.sweeping n).attempt? = ((s.sweeping n).attemptsOf ids).map some := by
    intro ids h
    induction ids with
    | nil => rfl
    | cons id ids ih =>
      obtain ⟨a, ha⟩ := h id List.mem_cons_self
      rw [attemptsOf, List.filterMap_cons_some ha, List.map_cons, List.map_cons, ha]
      exact congrArg _ (ih fun id hid => h id (List.mem_cons_of_mem _ hid))
  exact hall _ fun id hid => exists_attempt hn hr hid n

theorem getElem?_retriesAt (n j : Nat) :
    (s.retriesAt n)[j]? = s.retryIds[j]?.bind (s.sweeping n).attempt? := by
  have hmap : s.retryIds[j]?.map (s.sweeping n).attempt? = (s.retriesAt n)[j]?.map some := by
    rw [← List.getElem?_map, map_retriesAt hn hr, List.getElem?_map]
  cases hid : s.retryIds[j]? with
  | none =>
    rw [hid] at hmap
    exact Option.map_eq_none_iff.1 hmap.symm
  | some id =>
    rw [hid] at hmap
    obtain ⟨a, ha, hsome⟩ := Option.map_eq_some_iff.1 hmap.symm
    rw [ha]
    exact hsome

/-- In the turn of a retry nothing happens to the others. -/
theorem retriesAt_of_turn {n j : Nat} {id : TaskId} (hid : s.retryIds[j]? = some id)
    (hturn : (s.sweeping n).stepping? = some id) :
    ∃ a, (s.retriesAt n)[j]? = some a ∧
      (s.sweeping (n + 1)).world = (a.step s.settings (s.sweeping n).world).2 ∧
      s.retriesAt (n + 1) =
        (s.retriesAt n).set j (a.step s.settings (s.sweeping n).world).1 := by
  have hleads := sweeping_leads hn hr n
  obtain ⟨a, ha⟩ := exists_attempt hn hr (List.mem_of_getElem? hid) n
  have hj : (s.retriesAt n)[j]? = some a := by
    rw [getElem?_retriesAt hn hr, hid]
    exact ha
  refine ⟨a, hj, ?_, ?_⟩
  · rcases attempt?_flow hleads.orderly ha with ⟨-, hworld, -⟩ | ⟨hne, -⟩
    · rw [sweeping_succ, hworld, hleads.settings]
    · exact absurd hturn hne
  · refine List.ext_getElem? fun k => ?_
    rw [getElem?_retriesAt hn hr, sweeping_succ]
    by_cases hk : j = k
    · subst hk
      rw [List.getElem?_set_self (List.getElem?_eq_some_iff.1 hj).1, hid]
      rcases attempt?_flow hleads.orderly ha with ⟨-, -, h⟩ | ⟨hne, -⟩
      · rw [← hleads.settings]
        exact h
      · exact absurd hturn hne
    · rw [List.getElem?_set_ne hk, getElem?_retriesAt hn hr]
      cases hother : s.retryIds[k]? with
      | none => rfl
      | some other =>
        obtain ⟨b, hb⟩ := exists_attempt hn hr (List.mem_of_getElem? hother) n
        rcases attempt?_flow hleads.orderly hb with ⟨hturn', -, -⟩ | ⟨-, h⟩
        · obtain rfl := Option.some.inj (hturn.symm.trans hturn')
          have hlt := (List.getElem?_eq_some_iff.1 hid).1
          exact absurd ((List.getElem?_inj hlt (nodup_retryIds hn)).1 (hid.trans hother.symm)) hk
        · exact h.trans hb.symm

/-- In the turn of others nothing happens to the retries. -/
theorem retriesAt_of_others {n : Nat}
    (hturn : ∀ id ∈ s.retryIds, (s.sweeping n).stepping? ≠ some id) :
    s.retriesAt (n + 1) = s.retriesAt n := by
  refine List.ext_getElem? fun j => ?_
  rw [getElem?_retriesAt hn hr, getElem?_retriesAt hn hr, sweeping_succ]
  cases hid : s.retryIds[j]? with
  | none => rfl
  | some id =>
    have hmem := List.mem_of_getElem? hid
    obtain ⟨a, ha⟩ := exists_attempt hn hr hmem n
    rcases attempt?_flow (sweeping_leads hn hr n).orderly ha with ⟨h, -, -⟩ | ⟨-, h⟩
    · exact absurd h (hturn id hmem)
    · exact h.trans ha.symm

end

/-- The course of a sweep of a schedule. -/
def course (hn : s.Numbered) (hr : s.Rested) : Sweep.Course s.settings s.world where
  world n := (s.sweeping n).world
  retries := s.retriesAt
  turn n := s.retryIds.findIdx? fun id => (s.sweeping n).stepping? = some id
  world_zero := (launchAll_launched
    (s := { s with world := (Sweep.survey s.settings s.world).2 }) hn _).world
  retries_zero := attemptsOf_eq (by rw [map_attempt?_retryIds hn, List.map_map]; rfl)
  step := by
    intro n j hturn
    obtain ⟨hlt, hid, -⟩ := List.findIdx?_eq_some_iff_getElem.1 hturn
    exact retriesAt_of_turn hn hr (List.getElem?_eq_getElem hlt) (of_decide_eq_true hid)
  others := by
    intro n hturn
    refine retriesAt_of_others hn hr fun id hid => ?_
    exact of_decide_eq_false (List.findIdx?_eq_none_iff.1 hturn id hid)

end Schedule

end ReplicaControl
