import ReplicaControl.Proofs.UpdateCalls
import ReplicaControl.Schedule

/-!
# Polls for readiness

In step mode an attempt waits for its workload before it writes the next count: it polls the
workload until an answer decides the wait, or the wait is over.

* `Attempt.verdict?` — what a wait returns on an answer; `Attempt.afterWait` — what then becomes of
  the attempt.  `poll_of_verdict`, `poll_of_undecided`: what a poll comes to.
* `Attempt.isAwaiting` — the attempt is in the middle of a wait.  `step_cluster_of_isAwaiting`,
  `updates_of_isAwaiting`: it writes nothing there.
* `Pursuit.polls` — the polls of a run with their answers.
* `Pursuit.Awaits` — turns in the middle of a wait, in which time does not pass the next alarm;
  `Schedule.tick_now_le`: a schedule keeps to that.
-/

namespace ReplicaControl

/-! ## Answers -/

/-- A poll for readiness. -/
structure Poll where
  instant : Nat
  answer : Except AdapterError Workload

namespace Attempt

/-- What a wait returns on the answer to a poll: the workload if it is ready, nothing if it is gone,
or an error.  On any other answer the wait goes on. -/
def verdict? (a : Attempt) (wait : Wait) :
    Except AdapterError Workload → Option (Except ScaleError (Option Workload))
  | .error (.notFound _) => some (.ok none)
  | .error e => some (.error (.adapter e))
  | .ok live =>
    if live.ready = wait.step ∨ live.spec = live.ready then some (.ok (some live))
    else if live.exceededDeadline then some (.error (.deadlineExceeded a.key))
    else none

/-- What a wait returns that took too long. -/
def expired (a : Attempt) (wait : Wait) : Except ScaleError (Option Workload) :=
  .error (.stepTimeout a.key wait.step wait.limit)

/-- The attempt after its wait returned. -/
def afterWait (a : Attempt) (wait : Wait) : Except ScaleError (Option Workload) → Attempt
  | .ok (some live) => { a with
      current := live
      phase :=
        if live.spec = wait.desired then .deciding
        else .writing (oneToward live.spec wait.desired) 0 }
  | .ok none => { a with phase := .ended (.done .removed) }
  | .error e => { a with phase := .ended (.failed e) }

/-- The attempt is in the middle of a wait. -/
def isAwaiting (a : Attempt) : Bool :=
  match a.phase with
  | .polling _ => true
  | .waiting .. => true
  | _ => false

/-- A poll of the attempt's workload. -/
def pollIn (a : Attempt) (w : World) : Poll := ⟨w.now, (w.fetch a.item.id).1⟩

/-- The poll that the attempt makes with its next step. -/
def polled? (a : Attempt) (w : World) : Option Poll :=
  match a.phase with
  | .polling _ => some (a.pollIn w)
  | .waiting _ wake => if wake.due ≤ w.now then some (a.pollIn w) else none
  | _ => none

variable {s : Settings} {a : Attempt} {w : World} {wait : Wait}

section

variable {live : Workload}

theorem isReady_iff :
    isReady wait live = true ↔ live.ready = wait.step ∨ live.spec = live.ready := by
  simp [isReady]

/-- A workload that is ready decides the wait, even if it exceeded its deadline. -/
theorem verdict?_of_ready (hready : isReady wait live = true) :
    a.verdict? wait (.ok live) = some (.ok (some live)) :=
  if_pos (isReady_iff.1 hready)

theorem verdict?_of_unready (hready : isReady wait live = false) :
    a.verdict? wait (.ok live) =
      if live.exceededDeadline then some (.error (.deadlineExceeded a.key)) else none := by
  refine if_neg ?_
  rw [← isReady_iff, hready]
  exact nofun

end

/-- The wait is over when it returns. -/
theorem isAwaiting_afterWait (a : Attempt) (wait : Wait)
    (r : Except ScaleError (Option Workload)) : (a.afterWait wait r).isAwaiting = false := by
  rcases r with e | (_ | live)
  · rfl
  · rfl
  · by_cases hreached : live.spec = wait.desired <;> simp [afterWait, isAwaiting, hreached]

theorem isAwaiting_iff : a.isAwaiting = true ↔
    ∃ wait, a.phase = .polling wait ∨ ∃ wake, a.phase = .waiting wait wake := by
  unfold isAwaiting
  cases a.phase <;> simp

theorem polled?_of_polls (h : a.Polls w wait) : a.polled? w = some (a.pollIn w) := by
  rcases h with h | ⟨wake, h, hdue⟩
  · simp only [polled?, h]
  · simp only [polled?, h, if_pos hdue]

/-! ## What a poll comes to -/

/-- A poll whose answer decides the wait ends it. -/
theorem poll_of_verdict {r : Except ScaleError (Option Workload)}
    (h : a.verdict? wait (a.pollIn w).answer = some r) :
    (a.poll s w wait).1 = a.afterWait wait r := by
  unfold pollIn at h
  unfold poll
  rcases hf : w.fetch a.item.id with ⟨_ | live, v⟩ <;> rw [hf] at h
  · rename_i e
    cases e <;> · cases h; rfl
  · cases hready : isReady wait live with
    | true =>
      rw [verdict?_of_ready hready] at h
      cases h
      simp only [hready, if_true]
      rfl
    | false =>
      rw [verdict?_of_unready hready] at h
      cases hexceeded : live.exceededDeadline with
      | true =>
        rw [if_pos hexceeded] at h
        cases h
        simp only [hready, hexceeded, if_true]
        rfl
      | false => simp [hexceeded] at h

/-- After any other answer the attempt sleeps, unless the wait is over. -/
theorem poll_of_undecided (h : a.verdict? wait (a.pollIn w).answer = none) :
    a.poll s w wait =
      if wait.deadline ≤ w.now then a.timeOut (w.fetch a.item.id).2 wait
      else a.sleepToPoll s (w.fetch a.item.id).2 wait := by
  have hnow := (w.fetch_asked a.item.id).quiet.now
  unfold pollIn at h
  unfold poll
  rcases hf : w.fetch a.item.id with ⟨_ | live, v⟩ <;> rw [hf] at h hnow
  · rename_i e
    cases e <;> cases h
  · cases hready : isReady wait live with
    | true =>
      rw [verdict?_of_ready hready] at h
      cases h
    | false =>
      rw [verdict?_of_unready hready] at h
      cases hexceeded : live.exceededDeadline with
      | true =>
        rw [if_pos hexceeded] at h
        cases h
      | false =>
        dsimp only at hnow
        simp [hready, hexceeded, hnow]

/-- Between two polls the attempt sleeps for the interval. -/
theorem sleepToPoll_waiting (s : Settings) (a : Attempt) (w : World) (wait : Wait) :
    ∃ ticket wake, wake.due = s.clock.wake w.now s.timings.pollInterval ∧
      (a.sleepToPoll s w wait).1 =
        { a with phase := .waiting { wait with ticket := some ticket } wake } := by
  unfold sleepToPoll
  rcases wait with ⟨desired, step, limit, deadline, _ | ticket⟩
  · exact ⟨_, _, rfl, rfl⟩
  · exact ⟨_, _, rfl, rfl⟩

/-! ## Steps in the middle of a wait -/

theorem sleepToPoll_cluster (s : Settings) (a : Attempt) (w : World) (wait : Wait) :
    (a.sleepToPoll s w wait).2.cluster = w.cluster := by
  unfold sleepToPoll
  dsimp only
  split <;> rfl

theorem poll_cluster (s : Settings) (a : Attempt) (w : World) (wait : Wait) :
    (a.poll s w wait).2.cluster = w.cluster := by
  have hfetch := (w.fetch_asked a.item.id).cluster
  unfold poll
  rcases hf : w.fetch a.item.id with ⟨_ | live, v⟩ <;> rw [hf] at hfetch
  · rename_i e
    cases e <;> exact (conclude_cluster ..).trans hfetch
  · dsimp only at hfetch ⊢
    split
    · exact hfetch
    · split
      · exact (conclude_cluster ..).trans hfetch
      · split
        · exact (conclude_cluster ..).trans hfetch
        · exact (sleepToPoll_cluster ..).trans hfetch

/-- **A step in the middle of a wait leaves the cluster as it is.** -/
theorem step_cluster_of_isAwaiting (h : a.isAwaiting = true) :
    (a.step s w).2.cluster = w.cluster := by
  obtain ⟨wait, hp | ⟨wake, hp⟩⟩ := isAwaiting_iff.1 h
  · simp only [step, hp]
    exact poll_cluster ..
  · simp only [step, hp]
    split
    · exact poll_cluster ..
    · split
      · exact conclude_cluster ..
      · rfl

/-- It makes no update request either. -/
theorem updates_of_isAwaiting (h : a.isAwaiting = true) : a.updates w = false := by
  obtain ⟨wait, hp | ⟨wake, hp⟩⟩ := isAwaiting_iff.1 h <;> simp [updates, pending?, hp]

end Attempt

/-! ## Runs -/

namespace Pursuit

/-- The polls of a turn. -/
def polled (p : Pursuit) : Turn → List Poll
  | .step => (p.attempt.polled? p.world).toList
  | .others _ => []

/-- The polls of a run, in order. -/
def polls (s : Settings) (p : Pursuit) : List Turn → List Poll
  | [] => []
  | t :: turns => p.polled t ++ polls s (p.next s t) turns

/-- A turn in the middle of a wait.  Others may do anything, but time goes on to the next alarm of
the attempt at most. -/
def Awaits (p : Pursuit) (t : Turn) : Prop :=
  p.attempt.isAwaiting = true ∧
    match t with
    | .step => True
    | .others w => p.world.now ≤ w.now ∧ ∀ alarm ∈ p.attempt.alarms, w.now ≤ alarm.due

instance (p : Pursuit) (t : Turn) : Decidable (p.Awaits t) :=
  match t with
  | .step => inferInstanceAs (Decidable (_ ∧ True))
  | .others w => inferInstanceAs
      (Decidable (_ ∧ p.world.now ≤ w.now ∧ ∀ alarm ∈ p.attempt.alarms, w.now ≤ alarm.due))

end Pursuit

/-- **The clock of a schedule does not pass the alarms of its tasks.** -/
theorem Schedule.tick_now_le {s s' : Schedule} {callers : List Alarm}
    (h : s.tick callers = some s') {t : Task} (ht : t ∈ s.tasks.values) {alarm : Alarm}
    (halarm : alarm ∈ t.alarms) (hahead : s.world.now ≤ alarm.due) :
    s.world.now ≤ s'.world.now ∧ s'.world.now ≤ alarm.due := by
  have hmem : alarm.due ∈ (callers ++ s.alarms).map (·.due) :=
    List.mem_map_of_mem (List.mem_append_right _ (List.mem_flatMap.2 ⟨t, ht, halarm⟩))
  unfold tick at h
  split at h
  · cases h
  · rename_i due hdue
    cases h
    have hle : due ≤ alarm.due := (List.min?_eq_some_iff.1 hdue).2 _ hmem
    exact ⟨Nat.le_max_left _ _, Nat.max_le.2 ⟨hahead, hle⟩⟩

end ReplicaControl
