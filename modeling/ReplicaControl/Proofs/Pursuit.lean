import ReplicaControl.Proofs.RegistryTargets
import ReplicaControl.Proofs.Runs

/-!
# Pursuits

One attempt among others.  It takes its steps, and wherever it leaves the turn to others they may
make any other world of its world: triggers, other attempts, other writers and time.

* `World.count?` — the stored count of a workload.
* `Attempt.newCounts` — the counts that a step writes, as the record of writes shows them.
* `Attempt.Moves` — what becomes of an attempt in a step that writes nothing.  `step_moves`: every
  step writes one count, or is one of these.
* `Pursuit` — an attempt and its world, with the counts that it wrote, and whether others gave the
  workload another count since then.  `Pursuit.next`, `run` — a turn, and a list of turns.
* `Scene.pursuit_run` — a run of a scene is a pursuit for each of its attempts.
-/

namespace ReplicaControl

/-- The stored count of a workload. -/
def World.count? (w : World) (id : WorkloadId) : Option Int :=
  (w.cluster.inventory.get? id).map (·.spec)

theorem World.count?_of_inventory {w w' : World}
    (h : w'.cluster.inventory = w.cluster.inventory) (id : WorkloadId) :
    w'.count? id = w.count? id := by
  unfold World.count?
  rw [h]

theorem World.count?_of_get? {w : World} {id : WorkloadId} {x : Workload}
    (h : w.cluster.inventory.get? id = some x) : w.count? id = some x.spec := by
  unfold World.count?
  rw [h]
  rfl

namespace Attempt

variable {s : Settings} {a : Attempt} {w : World}

theorem IsUnderway.ne_aborted (h : a.IsUnderway) : a.phase ≠ .aborted := by
  rcases h with ⟨wait, h | ⟨wake, h⟩⟩ | ⟨n, k, h | ⟨wake, h⟩⟩ <;> rw [h] <;> exact nofun

/-- The counts that the next step of an attempt writes. -/
def newCounts (s : Settings) (a : Attempt) (w : World) : List Int :=
  ((a.step s w).2.cluster.history.drop w.cluster.history.length).map (·.2)

theorem newCounts_of_history (h : (a.step s w).2.cluster.history = w.cluster.history) :
    a.newCounts s w = [] := by
  rw [newCounts, h, List.drop_length]
  rfl

/-- What becomes of an attempt in a step that writes nothing. -/
inductive Moves (s : Settings) (a : Attempt) (w : World) : Attempt → Prop
  /-- The attempt is over or suspended. -/
  | idle : Moves s a w a
  | content (hp : a.phase = .starting) (hspec : a.item.spec = a.target.replicas) :
      Moves s a w { a with phase := .ended (.done .unchanged) }
  | begun (hp : a.phase = .starting) : Moves s a w { a with phase := .deciding }
  | unreachable {e : ScaleError} (hp : a.phase = .starting)
      (hkind : s.adapters.contains a.item.kind = false) :
      Moves s a w { a with phase := .ended (.failed e) }
  | decided {phase : Phase} (hp : a.phase = .deciding)
      (hne : a.current.spec ≠ a.desired w.registry) (hn : a.DecidesOn s w phase) :
      Moves s a w { a with phase }
  | arrived (hp : a.phase = .deciding) (heq : a.current.spec = a.desired w.registry) :
      Moves s a w { a with
        phase := .ended (.done (if a.written then .scaled a.current.spec else .unchanged)) }
  | polled {wait : Wait} {live : Workload} (hp : a.Polls w wait)
      (hget : w.cluster.inventory.get? a.item.id = some live) :
      Moves s a w { a with
        current := live
        phase := if live.spec = wait.desired then .deciding
          else .writing (oneToward live.spec wait.desired) 0 }
  | slept {wait wait' : Wait} {wake : Alarm} (hp : a.Polls w wait)
      (hd : wait'.desired = wait.desired) (hs : wait'.step = wait.step) :
      Moves s a w { a with phase := .waiting wait' wake }
  | retried {n : Int} {k : Nat} {wake : Alarm} (hp : a.Tries w n k) :
      Moves s a w { a with phase := .backingOff n (k + 1) wake }
  /-- The attempt gives up in the middle of a wait or of a write. -/
  | gaveUp {e : Ending} (hp : a.IsUnderway) (hs : ∀ n, e ≠ .done (.scaled n))
      (hu : e ≠ .done .unchanged) : Moves s a w { a with phase := .ended e }

/-- A wait that goes on is one for the same count. -/
theorem wait_step_of_polls {wait wait' : Wait} {wake : Alarm} (hp : a.Polls w wait)
    (h : (a.step s w).1.phase = .waiting wait' wake) : wait'.step = wait.step := by
  rw [step_of_polls hp] at h
  rcases a.poll_phase s w wait with ⟨e, hpoll⟩ | ⟨live, -, hpoll⟩ | ⟨ticket, wake', hpoll⟩
  · rw [hpoll] at h
    cases h
  · rw [hpoll] at h
    split at h <;> cases h
  · rw [hpoll] at h
    cases h
    rfl

theorem begin_moves (hp : a.phase = .starting) :
    a.Moves s w (a.begin s w).1 ∧ (a.begin s w).2.cluster = w.cluster := by
  unfold begin
  split
  · exact ⟨.content hp (And.left ‹_›), rfl⟩
  · dsimp only
    split
    · exact ⟨.begun hp, rfl⟩
    · rename_i hkind
      exact ⟨.unreachable hp (Bool.eq_false_iff.2 hkind), rfl⟩

/-- The step writes a count; then rules react to the write, and the attempt decides on the next
count. -/
structure Lands (s : Settings) (a : Attempt) (w : World) (n : Int) (new : Workload) (v : World) :
    Prop where
  tries : ∃ k, a.Tries w n k
  spec : new.spec = n
  id : new.id = a.item.id
  before : ∃ live, w.cluster.inventory.get? a.item.id = some live
  stored : v.count? a.item.id = some n
  rules : v.rules = w.rules
  registry : v.registry = w.registry
  newCounts : a.newCounts s w = [n]
  step : a.step s w =
    ({ a with current := new, written := true, phase := .deciding }, v.afterWrite new)

/-- **A step writes one count; or it leaves the workloads and the record as they are; or the attempt
breaks off while it writes.** -/
theorem step_moves (s : Settings) (a : Attempt) (w : World) :
    (∃ n new v, a.Lands s w n new v) ∨
    ((a.step s w).2.cluster.history = w.cluster.history ∧
      (a.step s w).2.cluster.inventory = w.cluster.inventory ∧ a.Moves s w (a.step s w).1) ∨
    ((a.step s w).2.cluster.history = w.cluster.history ∧ (∃ n k, a.Tries w n k) ∧
      (a.step s w).1 = { a with phase := .aborted }) := by
  by_cases hp : a.phase = .starting
  · obtain ⟨hmoves, hcluster⟩ := begin_moves (s := s) (w := w) hp
    rw [show a.step s w = a.begin s w by simp only [step, hp], hcluster]
    exact .inr (.inl ⟨rfl, rfl, hmoves⟩)
  have hc := a.step_case s w
  have landed : ∀ {n k live new c w₁}, a.Tries w n k →
      w.cluster.inventory.get? a.item.id = some live →
      w.cluster.write { live with spec := n } = (.stored new, c) → w.Asked w₁ →
      a.step s w = ({ a with current := new, written := true, phase := .deciding },
        World.afterWrite { w₁ with cluster := c } new) →
      a.Lands s w n new { w₁ with cluster := c } := by
    intro n k live new c w₁ ht hget hw ha hstep
    obtain ⟨hnew, hid, hc⟩ := Cluster.write_stored_of_get? hget hw
    obtain ⟨faults, rfl⟩ := ha
    refine ⟨⟨k, ht⟩, ?_, hid, ⟨live, hget⟩, ?_, rfl, rfl, ?_, hstep⟩
    · rw [hnew]
      rfl
    · have hget' : c.inventory.get? a.item.id = some new := by
        rw [hc, ← hid]
        exact Inventory.get?_put_self _ new
      exact (World.count?_of_get? hget').trans (congrArg (some ·.spec) hnew)
    · rw [newCounts, hstep, World.afterWrite_history, hc]
      simp
  -- The cases of a step do not say for which count a wait goes on.
  have hwait : ∀ {wait wait' wake}, a.Polls w wait →
      (a.step s w).1.phase = .waiting wait' wake → wait'.step = wait.step :=
    wait_step_of_polls
  generalize a.step s w = r at hc landed hwait ⊢
  cases hc with
  | idle => exact .inr (.inl ⟨rfl, rfl, .idle⟩)
  | content hs => exact absurd hs hp
  | begun hs => exact absurd hs hp
  | unreachable hs => exact absurd hs hp
  | decided hd hne hn => exact .inr (.inl ⟨rfl, rfl, .decided hd hne hn⟩)
  | arrived hd heq =>
    rw [conclude_cluster]
    exact .inr (.inl ⟨rfl, rfl, .arrived hd heq⟩)
  | polled hpolls hget _ ha =>
    exact .inr (.inl ⟨ha.quiet.history, ha.quiet.inventory, .polled hpolls hget⟩)
  | slept hpolls hd hq =>
    exact .inr (.inl ⟨hq.history, hq.inventory, .slept hpolls hd (hwait hpolls rfl)⟩)
  | stored ht hget _ _ hw ha => exact .inl ⟨_, _, _, landed ht hget hw ha rfl⟩
  | retried ht hq => exact .inr (.inl ⟨hq.history, hq.inventory, .retried ht⟩)
  | exhausted ht hget hw ha => exact .inr (.inr ⟨Cluster.write_exhausted hw, ⟨_, _, ht⟩, rfl⟩)
  | gone hu hq =>
    rw [conclude_cluster]
    exact .inr (.inl ⟨hq.history, hq.inventory, .gaveUp hu (by simp) (by simp)⟩)
  | denied ht hq =>
    rw [conclude_cluster]
    exact .inr (.inl ⟨hq.history, hq.inventory, .gaveUp ht.isUnderway (by simp) (by simp)⟩)
  | failed hu hq =>
    rw [fail, conclude_cluster]
    exact .inr (.inl ⟨hq.history, hq.inventory, .gaveUp hu (by simp) (by simp)⟩)

end Attempt

/-- An attempt among others. -/
structure Pursuit where
  attempt : Attempt
  world : World
  /-- The counts that the attempt wrote, in order. -/
  wrote : List Int := []
  /-- Others gave the workload another count since the attempt wrote the last one. -/
  crossed : Bool := false

namespace Pursuit

/-- A turn of the attempt, or of others. -/
inductive Turn where
  | step
  /-- Others make this of the world. -/
  | others (w : World)

/-- The pursuit after a turn.  Others have no turn where the attempt does not leave it to them. -/
def next (s : Settings) (p : Pursuit) : Turn → Pursuit
  | .step =>
    let (attempt, world) := p.attempt.step s p.world
    let new := p.attempt.newCounts s p.world
    { attempt, world
      wrote := p.wrote ++ new
      crossed :=
        match new.getLast? with
        | some n => world.count? p.attempt.item.id != some n
        | none => p.crossed }
  | .others w =>
    if p.attempt.isAtRest then
      { p with
        world := w
        crossed := p.crossed || w.count? p.attempt.item.id != p.world.count? p.attempt.item.id }
    else p

/-- The pursuit after a list of turns. -/
def run (s : Settings) (p : Pursuit) (turns : List Turn) : Pursuit := turns.foldl (next s) p

@[simp] theorem run_nil (s : Settings) (p : Pursuit) : p.run s [] = p := rfl

@[simp] theorem run_cons (s : Settings) (p : Pursuit) (t : Turn) (turns : List Turn) :
    p.run s (t :: turns) = (p.next s t).run s turns := rfl

theorem run_append (s : Settings) (p : Pursuit) (turns more : List Turn) :
    p.run s (turns ++ more) = (p.run s turns).run s more :=
  List.foldl_append

/-- An attempt is about to start in a world. -/
def launch (item : Workload) (target : Target) (w : World) : Pursuit :=
  { attempt := .launch item target, world := w }

/-- An attempt returns with its turn. -/
def Returns (s : Settings) (p : Pursuit) (o : Outcome) : Prop :=
  p.attempt.ending? = none ∧ (p.next s .step).attempt.ending? = some (.done o)

variable {s : Settings} {p : Pursuit}

theorem next_others (h : p.attempt.isAtRest = true) (w : World) :
    p.next s (.others w) = { p with
      world := w
      crossed := p.crossed || w.count? p.attempt.item.id != p.world.count? p.attempt.item.id } :=
  if_pos h

/-- The pursuit after a write. -/
theorem next_of_lands {n : Int} {new : Workload} {v : World}
    (h : p.attempt.Lands s p.world n new v) :
    p.next s .step =
      { attempt := { p.attempt with current := new, written := true, phase := .deciding }
        world := v.afterWrite new
        wrote := p.wrote ++ [n]
        crossed := (v.afterWrite new).count? p.attempt.item.id != some n } := by
  simp only [next, h.step, h.newCounts]
  rfl

/-- The pursuit after a step that writes nothing. -/
theorem next_of_history
    (h : (p.attempt.step s p.world).2.cluster.history = p.world.cluster.history) :
    p.next s .step =
      { p with
        attempt := (p.attempt.step s p.world).1, world := (p.attempt.step s p.world).2 } := by
  simp only [next, Attempt.newCounts_of_history h, List.append_nil]
  rfl

theorem next_item (s : Settings) (p : Pursuit) (t : Turn) :
    (p.next s t).attempt.item = p.attempt.item := by
  cases t with
  | step => exact p.attempt.step_item s p.world
  | others w =>
    unfold next
    dsimp only
    split <;> rfl

theorem next_target (s : Settings) (p : Pursuit) (t : Turn) :
    (p.next s t).attempt.target = p.attempt.target := by
  cases t with
  | step => exact p.attempt.step_target s p.world
  | others w =>
    unfold next
    dsimp only
    split <;> rfl

theorem run_item (s : Settings) (p : Pursuit) (turns : List Turn) :
    (p.run s turns).attempt.item = p.attempt.item := by
  induction turns generalizing p with
  | nil => rfl
  | cons t turns ih => exact (ih _).trans (p.next_item s t)

theorem run_target (s : Settings) (p : Pursuit) (turns : List Turn) :
    (p.run s turns).attempt.target = p.attempt.target := by
  induction turns generalizing p with
  | nil => rfl
  | cons t turns ih => exact (ih _).trans (p.next_target s t)

end Pursuit

namespace Scene

variable {s : Settings} {sc : Scene} {i : Nat} {p : Pursuit}

/-- A turn of a scene is a turn of each of its attempts, or one of others, or nothing. -/
theorem pursuit_next (ha : sc.attempts[i]? = some p.attempt) (hw : sc.world = p.world) (m : Move) :
    ∃ turns, (sc.next s m).attempts[i]? = some (p.run s turns).attempt ∧
      (sc.next s m).world = (p.run s turns).world := by
  have hlen := (List.getElem?_eq_some_iff.1 ha).1
  have others : p.attempt.isAtRest = true → ∀ {sc' : Scene}, sc'.attempts[i]? = some p.attempt →
      ∃ turns, sc'.attempts[i]? = some (p.run s turns).attempt ∧
        sc'.world = (p.run s turns).world := by
    intro hr sc' ha'
    refine ⟨[.others sc'.world], ?_⟩
    rw [Pursuit.run_cons, Pursuit.next_others hr]
    exact ⟨ha', rfl⟩
  cases m with
  | trigger t =>
    by_cases hr : sc.isAtRest
    · refine others (List.all_eq_true.1 hr _ (List.mem_of_getElem? ha)) ?_
      rw [next_trigger hr]
      exact (List.getElem?_append_left hlen).trans ha
    · rw [show sc.next s (.trigger t) = sc by simp [next, hr]]
      exact ⟨[], ha, hw⟩
  | others w =>
    by_cases hr : sc.isAtRest
    · refine others (List.all_eq_true.1 hr _ (List.mem_of_getElem? ha)) ?_
      rw [next_others hr]
      exact ha
    · rw [show sc.next s (.others w) = sc by simp [next, hr]]
      exact ⟨[], ha, hw⟩
  | attempt j =>
    rcases sc.next_attempt_cases s j with ⟨b, hb, hfree, hn⟩ | hn
    · -- A step of another attempt is a turn of others for this one.
      by_cases hj : j = i
      · subst hj
        obtain rfl := Option.some.inj (ha.symm.trans hb)
        obtain ⟨hself, -, hworld⟩ := next_attempt_self (s := s) hb hfree
        rw [hw] at hself hworld
        exact ⟨[.step], hself, hworld⟩
      · refine others (List.all_eq_true.1 hfree _ ?_) ?_
        · exact List.mem_eraseIdx_iff_getElem?.2 ⟨i, Ne.symm hj, ha⟩
        · rw [hn]
          exact (List.getElem?_set_ne hj).trans ha
    · rw [hn]
      exact ⟨[], ha, hw⟩

/-- **A run of a scene is a pursuit for each of its attempts.** -/
theorem pursuit_run (ha : sc.attempts[i]? = some p.attempt) (hw : sc.world = p.world)
    (moves : List Move) :
    ∃ turns, (sc.run s moves).attempts[i]? = some (p.run s turns).attempt ∧
      (sc.run s moves).world = (p.run s turns).world := by
  induction moves generalizing sc p with
  | nil => exact ⟨[], ha, hw⟩
  | cons m moves ih =>
    obtain ⟨turns, ha', hw'⟩ := pursuit_next (s := s) ha hw m
    obtain ⟨more, h⟩ := ih ha' hw'
    refine ⟨turns ++ more, ?_⟩
    rw [run_cons, Pursuit.run_append]
    exact h

end Scene

end ReplicaControl
