import ReplicaControl.Proofs.Course
import ReplicaControl.Proofs.Endings
import ReplicaControl.Proofs.UpdateCalls

/-!
# Conflicts in the middle of a write

An attempt that tries to write a count, meets a number of conflicts and nothing else, and tries
again until the write is taken or the tries are used up.  Meanwhile others may do anything that does
not concern the workload.

* `World.Admits` — a write of a count is let through, but for a number of conflicts to come.
  `Attempt.step_conflict`, `step_taken`: what a try comes to there.
* `Clock.wakeAfter` — the end of a number of sleeps.  `Clock.IsPunctual.wakeAfter_eq`: their lengths
  add up.
* `Attempt.step_starts_writing` — every write starts without conflicts.
* `Pursuit.LeftAlone` — others leave the workload, its record, its target and the conflicts alone,
  and time goes on while the attempt sleeps only.
* `Pursuit.Keeps` — the pursuit went on without a write and with the same target in force.
* `Pursuit.Stored`, `GaveUp` — what a write leaves behind that is taken, and one that is given up.
* `Pursuit.Retrying` — the invariant in the middle of a write; `Retrying.next_step`, `others`: one
  turn.  `WriteCourse.run`: a write from its start, by the update requests made so far.
-/

namespace ReplicaControl

/-! ## Conflicts and nothing else -/

namespace World

/-- The world with a number of conflicts to come. -/
def withConflicts (w : World) (c : Nat) : World :=
  { w with cluster := { w.cluster with pendingConflicts := c } }

/-- A write of a count to a workload is let through, but for a number of conflicts to come. -/
structure Admits (w : World) (x : Workload) (n : Int) (conflicts : Nat) : Prop where
  faults : w.faults = []
  rules : w.rules = []
  conflicts : w.cluster.pendingConflicts = conflicts
  stored : w.cluster.inventory.get? x.id = some x
  optedIn : x.isOptedIn = true
  allowed : w.cluster.verdict x.key.ns (Quota.itemNeed x n) = .allowed

namespace Admits

variable {w : World} {x : Workload} {n : Int} {c : Nat}

theorem iff : w.Admits x n c ↔ w.faults = [] ∧ w.rules = [] ∧ w.cluster.pendingConflicts = c ∧
    w.cluster.inventory.get? x.id = some x ∧ x.isOptedIn = true ∧
    w.cluster.verdict x.key.ns (Quota.itemNeed x n) = .allowed :=
  ⟨fun h => ⟨h.faults, h.rules, h.conflicts, h.stored, h.optedIn, h.allowed⟩,
    fun ⟨hf, hr, hc, hs, ho, ha⟩ => ⟨hf, hr, hc, hs, ho, ha⟩⟩

instance : Decidable (w.Admits x n c) := decidable_of_iff _ iff.symm

/-- The registry and the clock do not matter. -/
theorem of_cluster (h : w.Admits x n c) {v : World} (hf : v.faults = w.faults)
    (hr : v.rules = w.rules) (hc : v.cluster = w.cluster) : v.Admits x n c :=
  ⟨hf.trans h.faults, hr.trans h.rules, hc ▸ h.conflicts, hc ▸ h.stored, h.optedIn, hc ▸ h.allowed⟩

theorem withConflicts (h : w.Admits x n c) (c' : Nat) : (w.withConflicts c').Admits x n c' :=
  ⟨h.faults, h.rules, rfl, h.stored, h.optedIn, h.allowed⟩

theorem admission (h : w.Admits x n c) :
    w.admission x.key.ns (Quota.itemNeed x n) = (.ok .allowed, w) := by
  rw [admission_of_faults h.faults, h.allowed]

theorem store_conflict (h : w.Admits x n (c + 1)) :
    w.store { x with spec := n } = (.refused (.conflict x.key.text), w.withConflicts c) := by
  have hwrite : w.cluster.write { x with spec := n } = (.refused (.conflict x.key.text),
      { w.cluster with pendingConflicts := c }) := by
    rw [Cluster.write, h.conflicts, if_pos (Nat.succ_pos c)]
    rfl
  rw [store_of_intercept (intercept_of_faults h.faults .update), hwrite]
  rfl

theorem store_taken (h : w.Admits x n 0) (hv : x.version + 1 < versionBound) :
    w.store { x with spec := n } =
      (.stored (w.cluster.updated x n), { w with cluster := w.cluster.update x n }) :=
  IsCalm.store ⟨h.faults, h.rules, h.conflicts⟩ h.stored hv n

end Admits

end World

namespace Clock

variable {c : Clock}

/-- The instant at which a number of sleeps is over, one after the other.  A sleep that is over
before it starts takes no time. -/
def wakeAfter (c : Clock) (start : Nat) (d : Duration) : Nat → Nat
  | 0 => start
  | k + 1 => max (c.wakeAfter start d k) (c.wake (c.wakeAfter start d k) d)

/-- **Sleeps add up** on a clock on which each of them lasts as long as it is asked to. -/
theorem IsPunctual.wakeAfter_eq (h : c.IsPunctual) (start : Nat) (d : Duration) (k : Nat) :
    c.wakeAfter start d k = start + k * d.millis := by
  induction k with
  | zero => simp [wakeAfter]
  | succ k ih =>
    rw [wakeAfter, ih, h, Nat.succ_mul]
    omega

end Clock

namespace Attempt

variable {s : Settings} {a : Attempt} {w : World} {x : Workload} {n : Int} {c k : Nat}

theorem updates_of_admits (h : w.Admits x n c) (hid : a.item.id = x.id) (ht : a.Tries w n k) :
    a.updates w = true := by
  rw [updates_of_tries ht, submits, hid, World.fetch_of_faults h.faults h.stored]
  simp [h.optedIn, h.admission]

/-- A try to write comes to the write itself. -/
theorem step_of_admits (s : Settings) (h : w.Admits x n c) (hid : a.item.id = x.id)
    (ht : a.Tries w n k) : a.step s w = a.store s w x n k := by
  rw [step_of_tries ht, write, hid, World.fetch_of_faults h.faults h.stored]
  simp [h.optedIn, h.admission]

/-- A try that meets a conflict. -/
theorem step_conflict (s : Settings) (h : w.Admits x n (c + 1)) (hid : a.item.id = x.id)
    (ht : a.Tries w n k) :
    a.step s w = a.retry s (w.withConflicts c) n (k + 1) := by
  rw [step_of_admits s h hid ht, store, h.store_conflict]

/-- A try that is taken. -/
theorem step_taken (s : Settings) (h : w.Admits x n 0) (hv : x.version + 1 < versionBound)
    (hid : a.item.id = x.id) (ht : a.Tries w n k) :
    a.step s w =
      ({ a with current := w.cluster.updated x n, written := true, phase := .deciding },
        { w with cluster := w.cluster.update x n }) := by
  rw [step_of_admits s h hid ht, store, h.store_taken hv]

/-- The attempt is in the middle of a write. -/
def isWriting (a : Attempt) : Bool :=
  match a.phase with
  | .writing .. => true
  | .backingOff .. => true
  | _ => false

/-- The instant that the attempt sleeps to before its next try to write. -/
def due? (a : Attempt) : Option Nat :=
  match a.phase with
  | .backingOff _ _ wake => some wake.due
  | _ => none

/-- **Every write starts afresh.**  A step that leads into the middle of a write starts it without
conflicts; in step mode the count is one more or one less than the stored one. -/
theorem step_starts_writing (hbefore : a.isWriting = false)
    (hafter : (a.step s w).1.isWriting = true) :
    ∃ m, (a.step s w).1.phase = .writing m 0 ∧ (s.config.mode = .step →
      ∃ live, w.cluster.inventory.get? a.item.id = some live ∧
        (m = live.spec + 1 ∨ m = live.spec - 1)) := by
  have hnot : ∀ {m j}, ¬ a.Tries w m j := by
    rintro m j (h | ⟨wake, h, -⟩) <;> simp [isWriting, h] at hbefore
  have hc := a.step_case s w
  generalize a.step s w = r at hc hafter ⊢
  cases hc with
  | idle => rw [hbefore] at hafter; cases hafter
  | content | begun | unreachable | arrived | gone | failed => cases hafter
  | decided _ _ hn =>
    cases hn with
    | write hmode => exact ⟨_, rfl, fun h => by rw [hmode] at h; cases h⟩
    | wait | abort => cases hafter
  | @polled wait live _ _ hget =>
    dsimp only at hafter ⊢
    split at hafter
    · cases hafter
    · rename_i hne
      rw [if_neg hne]
      refine ⟨_, rfl, fun _ => ⟨live, hget, ?_⟩⟩
      unfold oneToward
      split
      · exact .inl rfl
      · exact .inr rfl
  | slept => cases hafter
  | stored ht => exact absurd ht hnot
  | retried ht => exact absurd ht hnot
  | exhausted ht => exact absurd ht hnot
  | denied ht => exact absurd ht hnot

end Attempt

namespace Pursuit

/-! ## Turns of others -/

/-- Others leave the workload alone: it is stored as it was, nobody wrote it, the target of its key
and the conflicts to come are the same, and its quotas have room for the count.  Time goes on while
the attempt sleeps only, and not past the end of its sleep. -/
structure LeftAlone (x : Workload) (n : Int) (p : Pursuit) (w : World) : Prop where
  admits : w.Admits x n p.world.cluster.pendingConflicts
  target : w.registry.target? p.attempt.key = p.world.registry.target? p.attempt.key
  records : Attempt.recordsOf x.id w.cluster.history =
    Attempt.recordsOf x.id p.world.cluster.history
  time : w.now = p.world.now ∨ ∃ due ∈ p.attempt.due?, p.world.now ≤ w.now ∧ w.now ≤ due

/-- In a turn others leave the workload alone. -/
def IsPeaceful (x : Workload) (n : Int) (p : Pursuit) : Turn → Prop
  | .step => True
  | .others w => p.LeftAlone x n w

instance (x : Workload) (n : Int) (p : Pursuit) (w : World) : Decidable (p.LeftAlone x n w) :=
  decidable_of_iff
    (w.Admits x n p.world.cluster.pendingConflicts ∧
      w.registry.target? p.attempt.key = p.world.registry.target? p.attempt.key ∧
      Attempt.recordsOf x.id w.cluster.history =
        Attempt.recordsOf x.id p.world.cluster.history ∧
      (w.now = p.world.now ∨ ∃ due ∈ p.attempt.due?, p.world.now ≤ w.now ∧ w.now ≤ due))
    ⟨fun ⟨ha, ht, hr, hn⟩ => ⟨ha, ht, hr, hn⟩, fun h => ⟨h.admits, h.target, h.records, h.time⟩⟩

instance (x : Workload) (n : Int) (p : Pursuit) : ∀ t, Decidable (p.IsPeaceful x n t)
  | .step => inferInstanceAs (Decidable True)
  | .others w => inferInstanceAs (Decidable (p.LeftAlone x n w))

/-- Nobody disturbs the attempt, which is in the middle of a write. -/
def WritesUndisturbed (x : Workload) (n : Int) (p : Pursuit) (t : Turn) : Prop :=
  p.attempt.isWriting = true ∧ p.IsPeaceful x n t

instance (x : Workload) (n : Int) (p : Pursuit) (t : Turn) :
    Decidable (p.WritesUndisturbed x n t) :=
  inferInstanceAs (Decidable (_ ∧ _))

variable {s : Settings} {x : Workload} {n : Int} {c k : Nat} {p q : Pursuit} {w : World}

/-- A pursuit went on without a write of the workload and with the same target in force. -/
structure Keeps (id : WorkloadId) (p q : Pursuit) : Prop where
  item : q.attempt.item = p.attempt.item
  target : q.attempt.target = p.attempt.target
  wrote : q.wrote = p.wrote
  records : Attempt.recordsOf id q.world.cluster.history =
    Attempt.recordsOf id p.world.cluster.history
  desired : q.attempt.desired q.world.registry = p.attempt.desired p.world.registry

namespace Keeps

variable {id : WorkloadId}

theorem key (h : p.Keeps id q) : q.attempt.key = p.attempt.key := congrArg Workload.key h.item

theorem step (h : p.Keeps id q) {a : Attempt} {v : World}
    (hstep : q.attempt.step s q.world = (a, v))
    (hhistory : v.cluster.history = q.world.cluster.history)
    (hdesired : q.attempt.desired v.registry = q.attempt.desired q.world.registry) :
    q.next s .step = { q with attempt := a, world := v } ∧
      p.Keeps id { q with attempt := a, world := v } := by
  have hitem : a.item = q.attempt.item := by
    have := q.attempt.step_item s q.world
    rwa [hstep] at this
  have hsame : a.target = q.attempt.target := by
    have := q.attempt.step_target s q.world
    rwa [hstep] at this
  refine ⟨?_, hitem.trans h.item, hsame.trans h.target, h.wrote, ?_, ?_⟩
  · rw [next_of_history (by rw [hstep]; exact hhistory), hstep]
  · rw [← h.records]
    exact congrArg _ hhistory
  · rw [← h.desired, ← hdesired, Attempt.desired_eq, Attempt.desired_eq]
    show (v.registry.target? a.item.key).getD a.target.replicas = _
    rw [hitem, hsame]
    rfl

theorem others (h : p.Keeps x.id q) (hw : q.LeftAlone x n w) :
    p.Keeps x.id (q.next s (.others w)) := by
  by_cases hrest : q.attempt.isAtRest = true
  · rw [next_others hrest]
    exact ⟨h.item, h.target, h.wrote, hw.records.trans h.records,
      (Attempt.desired_eq_of_target? hw.target).trans h.desired⟩
  · rw [next, if_neg hrest]
    exact h

end Keeps

/-! ## In the middle of a write -/

/-- What a write leaves behind that is taken after a number of conflicts. -/
structure Stored (s : Settings) (x : Workload) (n : Int) (c : Nat) (p q : Pursuit) : Prop where
  now : q.world.now = s.clock.wakeAfter p.world.now s.timings.conflictBackoff c
  workload : ∃ y, q.world.cluster.inventory.get? x.id = some y ∧ y.spec = n ∧
    y.version = x.version + 1
  conflicts : q.world.cluster.pendingConflicts = 0
  records : Attempt.recordsOf x.id q.world.cluster.history =
    Attempt.recordsOf x.id p.world.cluster.history ++ [n]
  wrote : q.wrote = p.wrote ++ [n]

/-- What a write leaves behind that is given up because of its conflicts. -/
structure GaveUp (s : Settings) (x : Workload) (c : Nat) (p q : Pursuit) : Prop where
  ending : q.attempt.ending? =
    some (.failed (.retriesExhausted p.attempt.key s.config.writeTries))
  now : q.world.now =
    s.clock.wakeAfter p.world.now s.timings.conflictBackoff (s.config.writeTries - 1)
  workload : q.world.cluster.inventory.get? x.id = some x
  conflicts : q.world.cluster.pendingConflicts = c - s.config.writeTries
  records : Attempt.recordsOf x.id q.world.cluster.history =
    Attempt.recordsOf x.id p.world.cluster.history
  wrote : q.wrote = p.wrote
  entry : ∃ e, q.world.registry.get? p.attempt.key = some e ∧ e.failure = true ∧
    e.scaling = false ∧
    e.failureMessage =
      (ScaleError.retriesExhausted p.attempt.key s.config.writeTries).message ∧
    e.desired = p.attempt.desired p.world.registry

/-- The attempt goes on with its target in force after a write that was taken. -/
structure Landed (s : Settings) (x : Workload) (n : Int) (c : Nat) (p q : Pursuit) : Prop
    extends Stored s x n c p q where
  phase : q.attempt.phase = .deciding
  current : q.attempt.current.spec = n
  written : q.attempt.written = true
  desired : q.attempt.desired q.world.registry = p.attempt.desired p.world.registry

/-- A write met a number of conflicts so far, and the attempt sleeps or is about to try again. -/
structure Retrying (s : Settings) (x : Workload) (n : Int) (c : Nat) (p : Pursuit) (k : Nat)
    (q : Pursuit) : Prop where
  keeps : p.Keeps x.id q
  some_left : k < s.config.writeTries
  met : k ≤ c
  admits : q.world.Admits x n (c - k)
  phase : q.attempt.phase = .writing n k ∧
      q.world.now = s.clock.wakeAfter p.world.now s.timings.conflictBackoff k ∨
    ∃ wake, q.attempt.phase = .backingOff n k wake ∧
      q.world.now ≤ s.clock.wakeAfter p.world.now s.timings.conflictBackoff k ∧
      wake.due ≤ s.clock.wakeAfter p.world.now s.timings.conflictBackoff k ∧
      s.clock.wakeAfter p.world.now s.timings.conflictBackoff k ≤ max q.world.now wake.due

/-- The course of a write, by the update requests made so far. -/
inductive WriteCourse (s : Settings) (x : Workload) (n : Int) (c : Nat) (p : Pursuit) :
    Nat → Pursuit → Prop
  | retrying {k : Nat} {q : Pursuit} (h : p.Retrying s x n c k q) : WriteCourse s x n c p k q
  | landed {q : Pursuit} (hc : c < s.config.writeTries) (h : p.Landed s x n c q) :
      WriteCourse s x n c p (c + 1) q
  | gaveUp {q : Pursuit} (hc : s.config.writeTries ≤ c) (h : p.GaveUp s x c q) :
      WriteCourse s x n c p s.config.writeTries q

namespace Retrying

theorem isWriting (h : p.Retrying s x n c k q) : q.attempt.isWriting = true := by
  rcases h.phase with ⟨hp, -⟩ | ⟨wake, hp, -⟩ <;> simp [Attempt.isWriting, hp]

theorem not_isOver (h : p.Retrying s x n c k q) : q.attempt.isOver = false := by
  rcases h.phase with ⟨hp, -⟩ | ⟨wake, hp, -⟩ <;> simp [Attempt.isOver, hp]

/-- The attempt tries to write with its next step, and its sleep is over; or it still sleeps. -/
theorem tries_or_sleeps (h : p.Retrying s x n c k q) :
    (q.attempt.Tries q.world n k ∧
      q.world.now = s.clock.wakeAfter p.world.now s.timings.conflictBackoff k) ∨
    ∃ wake, q.attempt.phase = .backingOff n k wake ∧ q.world.now < wake.due := by
  rcases h.phase with ⟨hp, hnow⟩ | ⟨wake, hp, hnow, hdue, hlate⟩
  · exact .inl ⟨.inl hp, hnow⟩
  · by_cases hawake : wake.due ≤ q.world.now
    · exact .inl ⟨.inr ⟨wake, hp, hawake⟩, by omega⟩
    · exact .inr ⟨wake, hp, by omega⟩

theorem canStep_of_tries (ht : q.attempt.Tries q.world n k) :
    q.attempt.canStep q.world.now = true := by
  rcases ht with hp | ⟨wake, hp, hdue⟩
  · simp [Attempt.canStep, Attempt.isOver, Attempt.isSuspended, hp]
  · simp [Attempt.canStep, Attempt.isOver, Attempt.isSuspended, hp, hdue]

theorem others (h : p.Retrying s x n c k q) (hw : q.LeftAlone x n w) :
    p.Retrying s x n c k (q.next s (.others w)) := by
  have hkeeps := h.keeps.others (s := s) hw
  have hadmits : w.Admits x n (c - k) := h.admits.conflicts ▸ hw.admits
  rcases h.phase with ⟨hp, hnow⟩ | ⟨wake, hp, hnow, hdue, hlate⟩
  · rw [next, if_neg (by simp [Attempt.isAtRest, hp])]
    exact h
  · have hrest : q.attempt.isAtRest = true := by simp [Attempt.isAtRest, hp]
    rw [next_others hrest] at hkeeps ⊢
    refine ⟨hkeeps, h.some_left, h.met, hadmits, .inr ⟨wake, hp, ?_⟩⟩
    -- time goes on, but not past the end of the sleep
    rcases hw.time with hsame | ⟨due, hsleep, hlater, hsoon⟩
    · show w.now ≤ _ ∧ _ ∧ _ ≤ max w.now wake.due
      rw [hsame]
      exact ⟨hnow, hdue, hlate⟩
    · rw [Attempt.due?, hp] at hsleep
      obtain rfl := Option.some.inj hsleep
      show w.now ≤ _ ∧ _ ∧ _ ≤ max w.now wake.due
      omega

/-- The try meets a conflict. -/
theorem step_conflict (h : p.Retrying s x n c k q) (hid : q.attempt.item.id = x.id)
    (ht : q.attempt.Tries q.world n k) (hk : k < c) :
    q.attempt.step s q.world =
      q.attempt.retry s (q.world.withConflicts (c - (k + 1))) n (k + 1) := by
  have hconflicts : c - k = (c - (k + 1)) + 1 := by omega
  exact Attempt.step_conflict s (hconflicts ▸ h.admits) hid ht

/-- The try meets a conflict, and there are tries left. -/
theorem conflict (h : p.Retrying s x n c k q) (hid : q.attempt.item.id = x.id)
    (ht : q.attempt.Tries q.world n k)
    (hnow : q.world.now = s.clock.wakeAfter p.world.now s.timings.conflictBackoff k)
    (hk : k < c) (hleft : k + 1 < s.config.writeTries) :
    p.Retrying s x n c (k + 1) (q.next s .step) := by
  have hstep := h.step_conflict hid ht hk
  have hmet := h.admits.withConflicts (c - (k + 1))
  rw [Attempt.retry, if_pos hleft] at hstep
  obtain ⟨hnext, hkeeps⟩ := h.keeps.step hstep rfl rfl
  rw [hnext]
  refine ⟨hkeeps, hleft, hk, hmet.of_cluster rfl rfl rfl, .inr ⟨_, rfl, ?_⟩⟩
  rw [Clock.wakeAfter, ← hnow]
  exact ⟨Nat.le_max_left _ _, Nat.le_max_right _ _, Nat.le_refl _⟩

/-- The try meets a conflict, and it was the last one. -/
theorem gaveUp (h : p.Retrying s x n c k q) (hid : q.attempt.item.id = x.id)
    (ht : q.attempt.Tries q.world n k)
    (hnow : q.world.now = s.clock.wakeAfter p.world.now s.timings.conflictBackoff k)
    (hk : k < c) (hlast : s.config.writeTries = k + 1) :
    p.GaveUp s x c (q.next s .step) := by
  have hstep := h.step_conflict hid ht hk
  rw [Attempt.retry, if_neg (by omega), Attempt.fail] at hstep
  have hhistory : (q.attempt.step s q.world).2.cluster.history = q.world.cluster.history := by
    rw [hstep, Attempt.conclude_cluster]
    rfl
  have hkey := h.keeps.key
  rw [next_of_history hhistory, hstep]
  refine ⟨?_, ?_, ?_, ?_, ?_, h.keeps.wrote, ?_⟩
  · rw [← hkey]
    rfl
  · rw [hlast, Nat.add_sub_cancel, ← hnow]
    rfl
  · exact h.admits.stored
  · rw [hlast]
    rfl
  · exact h.keeps.records
  · obtain ⟨e, hget, hfailure, hscaling, hmessage, hdesired⟩ :=
      q.attempt.recorded_failed q.world.registry
        (.retriesExhausted q.attempt.key s.config.writeTries)
    rw [← hkey]
    refine ⟨e, hget, hfailure, hscaling, hmessage, ?_⟩
    rw [hdesired, ← Attempt.desired_eq, h.keeps.desired]

/-- The try is taken. -/
theorem landed (h : p.Retrying s x n c k q) (hid : q.attempt.item.id = x.id)
    (ht : q.attempt.Tries q.world n k)
    (hnow : q.world.now = s.clock.wakeAfter p.world.now s.timings.conflictBackoff k)
    (hk : k = c) (hv : x.version + 1 < versionBound) :
    p.Landed s x n c (q.next s .step) := by
  subst hk
  have hadmits : q.world.Admits x n 0 := Nat.sub_self k ▸ h.admits
  have hstep := Attempt.step_taken s hadmits hv hid ht
  have hnew : q.attempt.newCounts s q.world = [n] := by
    rw [Attempt.newCounts, hstep]
    simp [Cluster.update]
  have hnext : ∃ crossed, q.next s .step =
      { attempt :=
          { q.attempt with
            current := q.world.cluster.updated x n, written := true, phase := .deciding }
        world := { q.world with cluster := q.world.cluster.update x n }
        wrote := q.wrote ++ [n], crossed } := by
    simp only [next, hstep, hnew]
    exact ⟨_, rfl⟩
  obtain ⟨crossed, hnext⟩ := hnext
  rw [hnext]
  refine ⟨⟨hnow, ⟨q.world.cluster.updated x n, ?_, rfl, rfl⟩, hadmits.conflicts, ?_, ?_⟩,
    rfl, rfl, rfl, h.keeps.desired⟩
  · exact (q.world.cluster.get?_update x n x.id).trans (if_pos rfl)
  · rw [← h.keeps.records]
    simp [Attempt.recordsOf, Cluster.update]
  · rw [h.keeps.wrote]

/-- **A step in the middle of a write** makes an update request, unless the attempt still sleeps. -/
theorem next_step (h : p.Retrying s x n c k q) (hid : p.attempt.item.id = x.id)
    (hv : c < s.config.writeTries → x.version + 1 < versionBound) :
    q.advances .step = q.requests .step ∧
      p.WriteCourse s x n c (k + q.requests .step) (q.next s .step) := by
  have hid : q.attempt.item.id = x.id := h.keeps.item ▸ hid
  rcases h.tries_or_sleeps with ⟨ht, hnow⟩ | ⟨wake, hp, hasleep⟩
  · have hadvances : q.advances .step = 1 := by simp [advances, canStep_of_tries ht]
    have hrequests : q.requests .step = 1 := by
      simp [requests, Attempt.updates_of_admits h.admits hid ht]
    rw [hadvances, hrequests]
    refine ⟨rfl, ?_⟩
    have hsome := h.some_left
    rcases Nat.lt_or_eq_of_le h.met with hk | hk
    · by_cases hleft : k + 1 < s.config.writeTries
      · exact .retrying (h.conflict hid ht hnow hk hleft)
      · have hlast : s.config.writeTries = k + 1 := by omega
        have hover := WriteCourse.gaveUp (n := n) (by omega) (h.gaveUp hid ht hnow hk hlast)
        rwa [hlast] at hover
    · have hc : c < s.config.writeTries := hk ▸ hsome
      exact hk.symm ▸ .landed hc (h.landed hid ht hnow hk (hv hc))
  · have hstep : q.attempt.step s q.world = (q.attempt, q.world) := by
      simp only [Attempt.step, hp, if_neg (Nat.not_le.2 hasleep)]
    have hadvances : q.advances .step = 0 := by
      simp [advances, Attempt.canStep, Attempt.isSuspended, hp, hasleep]
    have hrequests : q.requests .step = 0 := by
      simp [requests, Attempt.updates, Attempt.pending?, hp, Nat.not_le.2 hasleep]
    rw [hadvances, hrequests, next_of_history (by rw [hstep]), hstep]
    exact ⟨rfl, .retrying h⟩

end Retrying

namespace WriteCourse

theorem next {i : Nat} (h : p.WriteCourse s x n c i q) (hid : p.attempt.item.id = x.id)
    (hv : c < s.config.writeTries → x.version + 1 < versionBound)
    (hwriting : q.attempt.isWriting = true) {t : Turn} (ht : q.IsPeaceful x n t) :
    q.advances t = q.requests t ∧ p.WriteCourse s x n c (i + q.requests t) (q.next s t) := by
  cases h with
  | retrying h =>
    cases t with
    | step => exact h.next_step hid hv
    | others w => exact ⟨rfl, .retrying (h.others ht)⟩
  | landed _ h => simp [Attempt.isWriting, h.phase] at hwriting
  | gaveUp _ h =>
    simp [Attempt.isWriting, Attempt.ending?_eq_some_iff.1 h.ending] at hwriting

/-- **A write from its start.** -/
theorem run (hid : p.attempt.item.id = x.id) (hphase : p.attempt.phase = .writing n 0)
    (hadmits : p.world.Admits x n c)
    (hv : c < s.config.writeTries → x.version + 1 < versionBound) {turns : List Turn}
    (hturns : AtEach (Pursuit.next s) (WritesUndisturbed x n) p turns) :
    p.total s advances turns = p.total s requests turns ∧
      p.WriteCourse s x n c (p.total s requests turns) (p.run s turns) := by
  have hstart : p.Retrying s x n c 0 p :=
    ⟨⟨rfl, rfl, rfl, rfl, rfl⟩, Nat.lt_of_lt_of_le Nat.one_pos (Nat.le_max_right _ _),
      Nat.zero_le c, hadmits, .inl ⟨hphase, rfl⟩⟩
  have hrun := run_total (s := s) (I := fun q i j => j = i ∧ p.WriteCourse s x n c i q)
    (fun q i j t h ht => by
      obtain ⟨hsame, hcourse⟩ := h.2.next hid hv ht.1 ht.2
      exact ⟨by rw [h.1, hsame], hcourse⟩)
    (p := p) (i := 0) (j := 0) ⟨rfl, .retrying hstart⟩ hturns
  rwa [Nat.zero_add, Nat.zero_add] at hrun

/-- The write is over once its update requests are all made. -/
theorem isWriting_eq_false_iff {i : Nat} (h : p.WriteCourse s x n c i q) :
    q.attempt.isWriting = false ↔ i = min (c + 1) s.config.writeTries := by
  cases h with
  | retrying h =>
    have hsome := h.some_left
    have hmet := h.met
    exact iff_of_false (by simp [h.isWriting]) (by omega)
  | landed hc h => exact iff_of_true (by simp [Attempt.isWriting, h.phase]) (by omega)
  | gaveUp hc h =>
    exact iff_of_true
      (by simp [Attempt.isWriting, Attempt.ending?_eq_some_iff.1 h.ending]) (by omega)

theorem landed_of_lt {i : Nat} (h : p.WriteCourse s x n c i q)
    (hover : q.attempt.isWriting = false) (hc : c < s.config.writeTries) :
    p.Landed s x n c q := by
  cases h with
  | retrying h => rw [h.isWriting] at hover; cases hover
  | landed _ h => exact h
  | gaveUp hle _ => omega

theorem gaveUp_of_le {i : Nat} (h : p.WriteCourse s x n c i q)
    (hover : q.attempt.isWriting = false) (hc : s.config.writeTries ≤ c) :
    p.GaveUp s x c q := by
  cases h with
  | retrying h => rw [h.isWriting] at hover; cases hover
  | landed hlt _ => omega
  | gaveUp _ h => exact h

end WriteCourse

end Pursuit

end ReplicaControl
