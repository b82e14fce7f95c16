import ReplicaControl.Proofs.RegistryMarks
import ReplicaControl.Proofs.Request
import ReplicaControl.Proofs.Scene

/-!
# Steps of attempts

* `Attempt.StepCase` — everything that a step of an attempt can come to, with the conditions under
  which it does.  `step_case`: every step is one of these.
* `poll_phase` — where an attempt stands after a poll.
* `step_item`, `step_target` — an attempt keeps its workload and the target it was launched for.
* `step_get?_of_ne` — a step leaves the registry's entries of other keys alone.
* `step_isInFlight` — an attempt that is marked as running stays marked until it is over.
* `step_writes` — a step that adds to the record of writes is a try to write a count, of a workload
  that is under control and passed its quotas, and that the cluster took.
-/

namespace ReplicaControl

namespace Attempt

/-- The registry after the first step of an attempt marked it as running. -/
def marked (a : Attempt) (r : Registry) : Registry :=
  if r.contains a.key then r.update a.key ({ · with scaling := true })
  else
    r.upsert { a.item with scaling := true } a.item.failure a.item.failureMessage a.target.replicas

/-- The attempt polls its workload with its next step. -/
def Polls (a : Attempt) (w : World) (wait : Wait) : Prop :=
  a.phase = .polling wait ∨ ∃ wake, a.phase = .waiting wait wake ∧ wake.due ≤ w.now

/-- The attempt tries to write a count with its next step. -/
def Tries (a : Attempt) (w : World) (n : Int) (conflicts : Nat) : Prop :=
  a.phase = .writing n conflicts ∨ ∃ wake, a.phase = .backingOff n conflicts wake ∧ wake.due ≤ w.now

/-- The attempt is in the middle of a wait or of a write. -/
def IsUnderway (a : Attempt) : Prop :=
  (∃ wait, a.phase = .polling wait ∨ ∃ wake, a.phase = .waiting wait wake) ∨
    ∃ n k, a.phase = .writing n k ∨ ∃ wake, a.phase = .backingOff n k wake

theorem Polls.isUnderway {a : Attempt} {w : World} {wait : Wait} (h : a.Polls w wait) :
    a.IsUnderway := by
  rcases h with h | ⟨wake, h, -⟩
  · exact .inl ⟨wait, .inl h⟩
  · exact .inl ⟨wait, .inr ⟨wake, h⟩⟩

theorem Tries.isUnderway {a : Attempt} {w : World} {n : Int} {k : Nat} (h : a.Tries w n k) :
    a.IsUnderway := by
  rcases h with h | ⟨wake, h, -⟩
  · exact .inr ⟨n, k, .inl h⟩
  · exact .inr ⟨n, k, .inr ⟨wake, h⟩⟩

/-- Where a decision leads that does not end the attempt. -/
inductive DecidesOn (s : Settings) (a : Attempt) (w : World) : Phase → Prop
  /-- The target is to be written. -/
  | write (h : s.config.mode = .rapid) : DecidesOn s a w (.writing (a.desired w.registry) 0)
  /-- The workload is to become ready for one replica more or less. -/
  | wait (h : s.config.mode = .step) (deadline : Nat) :
      DecidesOn s a w (.polling
        { desired := a.desired w.registry
          step := oneToward a.current.spec (a.desired w.registry), limit := a.limit s, deadline })
  /-- The wait could not be bounded. -/
  | abort (h : s.config.mode = .step) : DecidesOn s a w .aborted

/-- What a step of an attempt comes to. -/
inductive StepCase (s : Settings) (a : Attempt) (w : World) : Attempt × World → Prop
  /-- The attempt is over or suspended. -/
  | idle (h : a.canStep w.now = false) : StepCase s a w (a, w)
  /-- The attempt finds nothing to do. -/
  | content (hp : a.phase = .starting) (hspec : a.item.spec = a.target.replicas)
      (hr : w.registry.get? a.key = none) :
      StepCase s a w ({ a with phase := .ended (.done .unchanged) }, w)
  /-- The attempt starts. -/
  | begun (hp : a.phase = .starting) :
      StepCase s a w ({ a with phase := .deciding }, { w with registry := a.marked w.registry })
  /-- Workloads of the kind cannot be reached. -/
  | unreachable (hp : a.phase = .starting) :
      StepCase s a w
        (a.fail { w with registry := a.marked w.registry } (.noAdapter a.item.kind))
  /-- The attempt decides on the next count. -/
  | decided {phase : Phase} (hp : a.phase = .deciding)
      (hne : a.current.spec ≠ a.desired w.registry) (hn : a.DecidesOn s w phase) :
      StepCase s a w ({ a with phase },
        { w with registry := w.registry.update a.key ({ · with scaling := true }) })
  /-- The workload is at the target in force. -/
  | arrived (hp : a.phase = .deciding) (heq : a.current.spec = a.desired w.registry) :
      StepCase s a w
        (a.conclude { w with registry := w.registry.update a.key ({ · with scaling := true }) }
          (.done (if a.written then .scaled a.current.spec else .unchanged)))
  /-- The workload is ready. -/
  | polled {wait : Wait} {live : Workload} {w₁ : World} (hp : a.Polls w wait)
      (hget : w.cluster.inventory.get? a.item.id = some live) (hr : isReady wait live = true)
      (ha : w.Asked w₁) :
      StepCase s a w ({ a with
        current := live
        phase := if live.spec = wait.desired then .deciding
          else .writing (oneToward live.spec wait.desired) 0 }, w₁)
  /-- The workload is not ready yet. -/
  | slept {wait wait' : Wait} {wake : Alarm} {w₁ : World} (hp : a.Polls w wait)
      (hd : wait'.desired = wait.desired) (hq : w.Quiet w₁)
      (hl : wait'.deadline = wait.deadline) (hnow : w.now < wait.deadline)
      (hdue : wake.due = s.clock.wake w.now s.timings.pollInterval)
      (ht : wait'.ticket.isSome = true) :
      StepCase s a w ({ a with phase := .waiting wait' wake }, w₁)
  /-- A count is written. -/
  | stored {n : Int} {k : Nat} {live new : Workload} {c : Cluster} {w₁ : World} (hp : a.Tries w n k)
      (hget : w.cluster.inventory.get? a.item.id = some live) (ho : live.isOptedIn = true)
      (had : ((w.fetch a.item.id).2.admission live.key.ns (Quota.itemNeed live n)).1 = .ok .allowed)
      (hw : w.cluster.write { live with spec := n } = (.stored new, c)) (ha : w.Asked w₁) :
      StepCase s a w ({ a with current := new, written := true, phase := .deciding },
        { w₁ with cluster := c }.afterWrite new)
  /-- A write met a conflict and is to be tried again. -/
  | retried {n : Int} {k : Nat} {wake : Alarm} {w₁ : World} (hp : a.Tries w n k) (hq : w.Quiet w₁)
      (hk : k + 1 < s.config.writeTries) :
      StepCase s a w ({ a with phase := .backingOff n (k + 1) wake }, w₁)
  /-- The stored version could not be raised. -/
  | exhausted {n : Int} {k : Nat} {live : Workload} {c : Cluster} {w₁ : World} (hp : a.Tries w n k)
      (hget : w.cluster.inventory.get? a.item.id = some live)
      (hw : w.cluster.write { live with spec := n } = (.exhausted, c)) (ha : w.Asked w₁) :
      StepCase s a w ({ a with phase := .aborted }, { w₁ with cluster := c })
  | gone {w₁ : World} (hp : a.IsUnderway) (hq : w.Quiet w₁) :
      StepCase s a w (a.conclude w₁ (.done .removed))
  /-- A quota refused a count. -/
  | denied {n : Int} {k : Nat} {quota : String} {shortfall : ResourceList} {w₁ : World}
      (hp : a.Tries w n k) (hq : w.Quiet w₁) :
      StepCase s a w
        (a.conclude (a.tell w₁ (.quotaExceeded n quota shortfall)) (.done .quotaDenied))
  /-- Something went wrong in the middle of a wait or of a write. -/
  | failed {e : ScaleError} {w₁ : World} (hp : a.IsUnderway) (hq : w.Quiet w₁) :
      StepCase s a w (a.fail w₁ e)

theorem begin_case (s : Settings) {a : Attempt} (w : World) (hp : a.phase = .starting) :
    StepCase s a w (a.begin s w) := by
  unfold begin
  split
  · rename_i h
    obtain ⟨hspec, -, hr⟩ := h
    exact .content hp hspec (by simpa using hr)
  · show StepCase s a w
      (if s.adapters.contains a.item.kind then
        ({ a with phase := .deciding }, { w with registry := a.marked w.registry })
      else a.fail { w with registry := a.marked w.registry } (.noAdapter a.item.kind))
    split
    · exact .begun hp
    · exact .unreachable hp

theorem decide_case (s : Settings) {a : Attempt} (w : World) (hp : a.phase = .deciding) :
    StepCase s a w (a.decide s w) := by
  unfold decide
  dsimp only
  split
  · exact .arrived hp ‹_›
  · rename_i hne
    split
    · exact .decided hp hne (.write ‹_›)
    · split
      · exact .decided hp hne (.wait ‹_› _)
      · exact .decided hp hne (.abort ‹_›)

theorem sleepToPoll_case (s : Settings) {a : Attempt} {w w₁ : World} {wait : Wait}
    (hp : a.Polls w wait) (hq : w.Quiet w₁) (hnow : w.now < wait.deadline) :
    StepCase s a w (a.sleepToPoll s w₁ wait) := by
  have hq' := hq.trans (w₁.alarmAfter_quiet s.clock s.timings.pollInterval)
  have hdue : (w₁.alarmAfter s.clock s.timings.pollInterval).1.due =
      s.clock.wake w.now s.timings.pollInterval := by
    rw [← hq.now]
    rfl
  unfold sleepToPoll
  cases hticket : wait.ticket with
  | some ticket => exact .slept hp rfl hq' rfl hnow hdue (by rw [hticket]; rfl)
  | none =>
    exact .slept hp rfl (hq'.trans (World.setAlarm_quiet _ wait.deadline)) rfl hnow hdue rfl

theorem poll_case (s : Settings) {a : Attempt} {w : World} {wait : Wait} (hp : a.Polls w wait) :
    StepCase s a w (a.poll s w wait) := by
  have ha := w.fetch_asked a.item.id
  unfold poll
  split
  · rename_i hf
    rw [hf] at ha
    exact .gone hp.isUnderway ha.quiet
  · rename_i hf
    rw [hf] at ha
    exact .failed hp.isUnderway ha.quiet
  · rename_i live w₁ hf
    have hget := World.fetch_ok (congrArg Prod.fst hf)
    rw [hf] at ha
    split
    · exact .polled hp hget ‹_› ha
    · split
      · exact .failed hp.isUnderway ha.quiet
      · split
        · exact .failed hp.isUnderway ha.quiet
        · rename_i hlate
          exact sleepToPoll_case s hp ha.quiet (ha.quiet.now ▸ Nat.lt_of_not_le hlate)

theorem retry_case (s : Settings) {a : Attempt} {w w₁ : World} {n : Int} {k : Nat}
    (hp : a.Tries w n k) (hq : w.Quiet w₁) : StepCase s a w (a.retry s w₁ n (k + 1)) := by
  unfold retry
  split
  · exact .retried hp (hq.trans (w₁.alarmAfter_quiet s.clock s.timings.conflictBackoff)) ‹_›
  · exact .failed hp.isUnderway hq

theorem store_case (s : Settings) {a : Attempt} {w w₁ : World} {live : Workload} {n : Int} {k : Nat}
    (hp : a.Tries w n k) (hget : w.cluster.inventory.get? a.item.id = some live)
    (ho : live.isOptedIn = true)
    (had : ((w.fetch a.item.id).2.admission live.key.ns (Quota.itemNeed live n)).1 = .ok .allowed)
    (ha : w.Asked w₁) : StepCase s a w (a.store s w₁ live n k) := by
  unfold store
  rcases w₁.store_cases { live with spec := n } with
    ⟨w₂, new, c, ha₂, hw, hs⟩ | ⟨e, w₂, hq₂, hs⟩ | ⟨w₂, c, ha₂, hw, hs⟩
  · rw [hs]
    rw [ha.cluster] at hw
    exact .stored hp hget ho had hw (ha.trans ha₂)
  · rw [hs]
    have hq := ha.quiet.trans hq₂
    cases e with
    | notFound => exact .gone hp.isUnderway hq
    | conflict => exact retry_case s hp hq
    | other => exact .failed hp.isUnderway hq
  · rw [hs]
    rw [ha.cluster] at hw
    exact .exhausted hp hget hw (ha.trans ha₂)

theorem write_case (s : Settings) {a : Attempt} {w : World} {n : Int} {k : Nat}
    (hp : a.Tries w n k) : StepCase s a w (a.write s w n k) := by
  have ha := w.fetch_asked a.item.id
  unfold write
  split
  · rename_i hf
    rw [hf] at ha
    exact .gone hp.isUnderway ha.quiet
  · rename_i hf
    rw [hf] at ha
    exact .failed hp.isUnderway ha.quiet
  · rename_i live w₁ hf
    have hget := World.fetch_ok (congrArg Prod.fst hf)
    rw [hf] at ha
    split
    · rename_i ho
      have ha₂ := ha.trans (w₁.admission_asked live.key.ns (Quota.itemNeed live n))
      split
      · rename_i had
        rw [had] at ha₂
        exact .failed hp.isUnderway ha₂.quiet
      · rename_i had
        rw [had] at ha₂
        exact .denied hp ha₂.quiet
      · rename_i w₂ had
        rw [had] at ha₂
        exact store_case s hp hget ho (by rw [hf, had]) ha₂
    · exact .failed hp.isUnderway ha.quiet

/-- **Every step of an attempt comes to one of the cases.** -/
theorem step_case (s : Settings) (a : Attempt) (w : World) : StepCase s a w (a.step s w) := by
  unfold step
  split
  · exact begin_case s w ‹_›
  · exact decide_case s w ‹_›
  · exact poll_case s (.inl ‹_›)
  · rename_i wait wake hp
    split
    · exact poll_case s (.inr ⟨wake, hp, ‹_›⟩)
    · split
      · exact .failed (.inl ⟨wait, .inr ⟨wake, hp⟩⟩) (.refl w)
      · exact .idle (by simp [canStep, isSuspended, isOver, hp]; omega)
  · exact write_case s (.inl ‹_›)
  · rename_i n k wake hp
    split
    · exact write_case s (.inr ⟨wake, hp, ‹_›⟩)
    · exact .idle (by simp [canStep, isSuspended, isOver, hp]; omega)
  · rename_i hp
    exact .idle (by simp [canStep, isOver, hp])
  · rename_i hp
    exact .idle (by simp [canStep, isOver, hp])

/-- The first step of an attempt that has something to do, at a workload that can be reached. -/
theorem step_of_unsettled {s : Settings} {a : Attempt} {w : World} (hp : a.phase = .starting)
    (hgo : ¬ (a.item.spec = a.target.replicas ∧ ¬ a.item.failure ∧ ¬ w.registry.contains a.key))
    (hk : s.adapters.contains a.item.kind = true) :
    a.step s w = ({ a with phase := .deciding }, { w with registry := a.marked w.registry }) := by
  simp only [step, hp, begin]
  rw [if_neg hgo, if_pos hk]
  rfl

/-- The first step, where the registry knows the key and the workload can be reached. -/
theorem step_begin {s : Settings} {a : Attempt} {w : World} (hp : a.phase = .starting)
    (hr : w.registry.contains a.key = true) (hk : s.adapters.contains a.item.kind = true) :
    a.step s w = ({ a with phase := .deciding }, { w with registry := a.marked w.registry }) :=
  step_of_unsettled hp (fun h => h.2.2 hr) hk

/-- The step of an attempt that tries to write a count. -/
theorem step_of_tries {s : Settings} {a : Attempt} {w : World} {n : Int} {k : Nat}
    (h : a.Tries w n k) : a.step s w = a.write s w n k := by
  rcases h with h | ⟨wake, h, hdue⟩
  · simp only [step, h]
  · simp only [step, h, if_pos hdue]

/-- The step of an attempt that polls its workload. -/
theorem step_of_polls {s : Settings} {a : Attempt} {w : World} {wait : Wait} (hp : a.Polls w wait) :
    a.step s w = a.poll s w wait := by
  rcases hp with hp | ⟨wake, hp, hdue⟩
  · simp only [step, hp]
  · simp only [step, hp, if_pos hdue]

/-- Where a poll leads: the attempt is over, its workload is ready, or it goes on with its wait. -/
theorem poll_phase (s : Settings) (a : Attempt) (w : World) (wait : Wait) :
    (∃ e, (a.poll s w wait).1.phase = .ended e) ∨
    (∃ live, w.cluster.inventory.get? a.item.id = some live ∧
      (a.poll s w wait).1.phase = if live.spec = wait.desired then .deciding
        else .writing (oneToward live.spec wait.desired) 0) ∨
    ∃ ticket wake, (a.poll s w wait).1.phase = .waiting { wait with ticket } wake := by
  unfold poll
  split
  · exact .inl ⟨_, rfl⟩
  · exact .inl ⟨_, rfl⟩
  · rename_i live w₁ hf
    split
    · exact .inr (.inl ⟨live, World.fetch_ok (congrArg Prod.fst hf), rfl⟩)
    · split
      · exact .inl ⟨_, rfl⟩
      · split
        · exact .inl ⟨_, rfl⟩
        · unfold sleepToPoll
          dsimp only
          split
          · exact .inr (.inr ⟨wait.ticket, _, rfl⟩)
          · exact .inr (.inr ⟨some _, _, rfl⟩)

/-- A decision on another count, in rapid mode. -/
theorem step_decide {s : Settings} {a : Attempt} {w : World} (hmode : s.config.mode = .rapid)
    (hp : a.phase = .deciding) (hne : a.current.spec ≠ a.desired w.registry) :
    a.step s w = ({ a with phase := .writing (a.desired w.registry) 0 },
      { w with registry := w.registry.update a.key ({ · with scaling := true }) }) := by
  simp only [step, hp, decide, if_neg hne, hmode]

/-! ## The end of an attempt -/

theorem conclude_fst (a : Attempt) (w : World) (e : Ending) :
    (a.conclude w e).1 = { a with phase := .ended e } := rfl

theorem conclude_registry (a : Attempt) (w : World) (e : Ending) :
    (a.conclude w e).2.registry = a.recorded w.registry e := by
  cases e with
  | done o => cases o <;> rfl
  | failed e => rfl

theorem conclude_cluster (a : Attempt) (w : World) (e : Ending) :
    (a.conclude w e).2.cluster = w.cluster := by
  cases e with
  | done o => cases o <;> rfl
  | failed e => rfl

theorem conclude_rules (a : Attempt) (w : World) (e : Ending) :
    (a.conclude w e).2.rules = w.rules := by
  cases e with
  | done o => cases o <;> rfl
  | failed e => rfl

theorem conclude_now (a : Attempt) (w : World) (e : Ending) : (a.conclude w e).2.now = w.now := by
  cases e with
  | done o => cases o <;> rfl
  | failed e => rfl

/-- The end of an attempt concerns the entry of its own key only. -/
theorem recorded_get?_of_ne (a : Attempt) (r : Registry) (e : Ending) {key : Key}
    (h : key ≠ a.key) : (a.recorded r e).get? key = r.get? key := by
  cases e with
  | done o =>
    cases o with
    | unchanged => exact r.get?_settle_of_ne a.item.spec h
    | scaled n => exact r.get?_settle_of_ne n h
    | quotaDenied => exact r.get?_release_of_ne h
    | removed => exact r.get?_erase_of_ne h
  | failed e =>
    simp only [recorded]
    split
    · rw [Registry.get?_update, if_neg h]
    · rw [Registry.get?_upsert, if_neg (show key ≠ a.item.key from h)]

theorem recorded_filed {a : Attempt} {r : Registry} (h : r.Filed) (e : Ending) :
    (a.recorded r e).Filed := by
  cases e with
  | done o =>
    cases o with
    | unchanged => exact h.settle a.key a.item.spec
    | scaled n => exact h.settle a.key n
    | quotaDenied => exact h.release a.key
    | removed => exact h.erase a.key
  | failed e =>
    simp only [recorded]
    split
    · exact h.update a.key fun _ => rfl
    · exact h.upsert _ _ _ _

/-! ## The marks that an attempt sets -/

theorem marked_get?_of_ne (a : Attempt) (r : Registry) {key : Key} (h : key ≠ a.key) :
    (a.marked r).get? key = r.get? key := by
  unfold marked
  split
  · rw [Registry.get?_update, if_neg h]
  · rw [Registry.get?_upsert, if_neg (show key ≠ a.item.key from h)]

theorem marked_isInFlight (a : Attempt) (r : Registry) : (a.marked r).isInFlight a.key = true := by
  unfold marked
  split
  · rename_i hc
    obtain ⟨e, he⟩ := Option.isSome_iff_exists.1 hc
    rw [Registry.isInFlight_update, if_pos rfl, he]
    rfl
  · rw [Registry.isInFlight_upsert, if_pos (show a.key = a.item.key from rfl)]

theorem marked_filed {a : Attempt} {r : Registry} (h : r.Filed) : (a.marked r).Filed := by
  unfold marked
  split
  · exact h.update a.key fun _ => rfl
  · exact h.upsert _ _ _ _

/-! ## What every step keeps -/

theorem step_item (s : Settings) (a : Attempt) (w : World) : (a.step s w).1.item = a.item := by
  have hc := a.step_case s w
  generalize a.step s w = r at hc ⊢
  cases hc <;> rfl

theorem step_target (s : Settings) (a : Attempt) (w : World) :
    (a.step s w).1.target = a.target := by
  have hc := a.step_case s w
  generalize a.step s w = r at hc ⊢
  cases hc <;> rfl

theorem step_key (s : Settings) (a : Attempt) (w : World) : (a.step s w).1.key = a.key :=
  congrArg Workload.key (a.step_item s w)

theorem step_rules (s : Settings) (a : Attempt) (w : World) :
    (a.step s w).2.rules = w.rules := by
  have hc := a.step_case s w
  generalize a.step s w = r at hc ⊢
  cases hc with
  | idle => rfl
  | content => rfl
  | begun => rfl
  | unreachable => rw [fail, conclude_rules]
  | decided => rfl
  | arrived => rw [conclude_rules]
  | polled _ _ _ ha => exact ha.quiet.rules
  | slept _ _ hq => exact hq.rules
  | stored _ _ _ _ _ ha =>
    rw [World.afterWrite_rules]
    exact ha.quiet.rules
  | retried _ hq => exact hq.rules
  | exhausted _ _ _ ha => exact ha.quiet.rules
  | gone _ hq => rw [conclude_rules, hq.rules]
  | denied _ hq => rw [conclude_rules]; exact hq.rules
  | failed _ hq => rw [fail, conclude_rules, hq.rules]

/-- No time passes during a step. -/
theorem step_now (s : Settings) (a : Attempt) (w : World) : (a.step s w).2.now = w.now := by
  have hc := a.step_case s w
  generalize a.step s w = r at hc ⊢
  cases hc with
  | idle => rfl
  | content => rfl
  | begun => rfl
  | unreachable => rw [fail, conclude_now]
  | decided => rfl
  | arrived => rw [conclude_now]
  | polled _ _ _ ha => exact ha.quiet.now
  | slept _ _ hq => exact hq.now
  | stored _ _ _ _ _ ha =>
    rw [World.afterWrite_now]
    exact ha.quiet.now
  | retried _ hq => exact hq.now
  | exhausted _ _ _ ha => exact ha.quiet.now
  | gone _ hq => rw [conclude_now, hq.now]
  | denied _ hq => rw [conclude_now]; exact hq.now
  | failed _ hq => rw [fail, conclude_now, hq.now]

/-- A step concerns the registry's entry of its own key only. -/
theorem step_get?_of_ne (s : Settings) (a : Attempt) (w : World) {key : Key} (h : key ≠ a.key) :
    (a.step s w).2.registry.get? key = w.registry.get? key := by
  have hc := a.step_case s w
  generalize a.step s w = r at hc ⊢
  cases hc with
  | idle => rfl
  | content => rfl
  | begun => exact a.marked_get?_of_ne _ h
  | unreachable =>
    rw [fail, conclude_registry, a.recorded_get?_of_ne _ _ h]
    exact a.marked_get?_of_ne _ h
  | decided => exact (Registry.get?_update _ _ _ _).trans (if_neg h)
  | arrived =>
    rw [conclude_registry, a.recorded_get?_of_ne _ _ h]
    exact (Registry.get?_update _ _ _ _).trans (if_neg h)
  | polled _ _ _ ha => rw [ha.registry]
  | slept _ _ hq => rw [hq.registry]
  | stored _ hget _ _ hw ha =>
    obtain ⟨-, hid, -⟩ := Cluster.write_stored_of_get? hget hw
    have hkey : key ≠ Workload.key _ := fun hk => h (hk.trans (congrArg WorkloadId.key hid))
    rw [World.afterWrite_get?_of_ne _ _ hkey]
    exact congrArg (·.get? key) ha.registry
  | retried _ hq => rw [hq.registry]
  | exhausted _ _ _ ha => exact congrArg (·.get? key) ha.registry
  | gone _ hq => rw [conclude_registry, a.recorded_get?_of_ne _ _ h, hq.registry]
  | denied _ hq =>
    rw [conclude_registry, a.recorded_get?_of_ne _ _ h]
    exact congrArg (·.get? key) hq.registry
  | failed _ hq => rw [fail, conclude_registry, a.recorded_get?_of_ne _ _ h, hq.registry]

/-- An attempt that is marked as running stays marked until it is over. -/
theorem step_isInFlight (s : Settings) {a : Attempt} {w : World}
    (h : w.registry.isInFlight a.key = true) (ho : (a.step s w).1.isOver = false) :
    (a.step s w).2.registry.isInFlight a.key = true := by
  have hc := a.step_case s w
  generalize a.step s w = r at hc ho ⊢
  have remark : (w.registry.update a.key ({ · with scaling := true })).isInFlight a.key = true := by
    obtain ⟨e, he, -⟩ := Registry.isInFlight_eq_true.1 h
    rw [Registry.isInFlight_update, if_pos rfl, he]
    rfl
  cases hc with
  | idle => exact h
  | content => cases ho
  | begun => exact a.marked_isInFlight w.registry
  | unreachable => cases ho
  | decided => exact remark
  | arrived => cases ho
  | polled _ _ _ ha => rw [ha.registry]; exact h
  | slept _ _ hq => rw [hq.registry]; exact h
  | stored _ _ _ _ _ ha =>
    apply World.afterWrite_isInFlight
    exact (congrArg (Registry.isInFlight · a.key) ha.registry).trans h
  | retried _ hq => rw [hq.registry]; exact h
  | exhausted => cases ho
  | gone => cases ho
  | denied => cases ho
  | failed => cases ho

theorem step_filed (s : Settings) (a : Attempt) {w : World} (h : w.registry.Filed) :
    (a.step s w).2.registry.Filed := by
  have hc := a.step_case s w
  generalize a.step s w = r at hc ⊢
  have remark : (w.registry.update a.key ({ · with scaling := true })).Filed :=
    h.update a.key fun _ => rfl
  cases hc with
  | idle => exact h
  | content => exact h
  | begun => exact marked_filed h
  | unreachable => rw [fail, conclude_registry]; exact recorded_filed (marked_filed h) _
  | decided => exact remark
  | arrived => rw [conclude_registry]; exact recorded_filed remark _
  | polled _ _ _ ha => rw [ha.registry]; exact h
  | slept _ _ hq => rw [hq.registry]; exact h
  | stored _ _ _ _ _ ha =>
    apply World.afterWrite_filed
    exact ha.registry ▸ h
  | retried _ hq => rw [hq.registry]; exact h
  | exhausted _ _ _ ha => exact ha.registry ▸ h
  | gone _ hq => rw [conclude_registry, hq.registry]; exact recorded_filed h _
  | denied _ hq =>
    rw [conclude_registry]
    exact recorded_filed (show Registry.Filed (World.registry _) from hq.registry ▸ h) _
  | failed _ hq => rw [fail, conclude_registry, hq.registry]; exact recorded_filed h _

/-- **A step that adds to the record of writes is a write that the cluster took**, of a workload
that is under control, and after its quotas let it through. -/
theorem step_writes {s : Settings} {a : Attempt} {w : World} {id : WorkloadId} {n : Int}
    (h : (a.step s w).2.cluster.history = w.cluster.history ++ [(id, n)]) :
    id = a.item.id ∧ ∃ k live new c w₁, a.Tries w n k ∧
      w.cluster.inventory.get? id = some live ∧ live.isOptedIn = true ∧
      ((w.fetch id).2.admission live.key.ns (Quota.itemNeed live n)).1 = .ok .allowed ∧
      w.cluster.write { live with spec := n } = (.stored new, c) ∧ w.Asked w₁ ∧
      a.step s w = ({ a with current := new, written := true, phase := .deciding },
        { w₁ with cluster := c }.afterWrite new) := by
  have hc := a.step_case s w
  have same : ∀ {l : List (WorkloadId × Int)}, l ≠ l ++ [(id, n)] := by
    intro l hl
    simpa using congrArg List.length hl
  generalize a.step s w = r at hc h ⊢
  cases hc with
  | stored hp hget ho had hw ha =>
    obtain ⟨hnew, hid, hc⟩ := Cluster.write_stored_of_get? hget hw
    rw [World.afterWrite_history, hc] at h
    obtain ⟨rfl, rfl⟩ : a.item.id = id ∧ _ = n := by simpa using h
    exact ⟨rfl, _, _, _, _, _, hp, hget, ho, had, hw, ha, rfl⟩
  | idle => exact absurd h same
  | content => exact absurd h same
  | begun => exact absurd h same
  | unreachable => rw [fail, conclude_cluster] at h; exact absurd h same
  | decided => exact absurd h same
  | arrived => rw [conclude_cluster] at h; exact absurd h same
  | polled _ _ _ ha => rw [ha.cluster] at h; exact absurd h same
  | slept _ _ hq => rw [hq.history] at h; exact absurd h same
  | retried _ hq => rw [hq.history] at h; exact absurd h same
  | exhausted _ _ hw => exact absurd ((Cluster.write_exhausted hw).symm.trans h) same
  | gone _ hq => rw [conclude_cluster, hq.history] at h; exact absurd h same
  | denied _ hq =>
    rw [conclude_cluster] at h
    exact absurd (hq.history.symm.trans h) same
  | failed _ hq => rw [fail, conclude_cluster, hq.history] at h; exact absurd h same

end Attempt

/-- A turn that writes is a step that does. -/
theorem Scene.Writes.step {s : Settings} {sc : Scene} {i : Nat} {id : WorkloadId} {n : Int}
    (h : sc.Writes s i id n) :
    ∃ a, sc.attempts[i]? = some a ∧ sc.isFreeFor i ∧
      (a.step s sc.world).2.cluster.history = sc.world.cluster.history ++ [(id, n)] := by
  unfold Scene.Writes at h
  rcases sc.next_attempt_cases s i with ⟨a, ha, hf, hn⟩ | hn
  · rw [hn] at h
    exact ⟨a, ha, hf, h⟩
  · rw [hn] at h
    simpa using congrArg List.length h

end ReplicaControl
