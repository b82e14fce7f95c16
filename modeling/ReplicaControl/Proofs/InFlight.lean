import ReplicaControl.Proofs.ActiveEntries
import ReplicaControl.Proofs.ScheduleScenes

/-!
# Keys in flight

A workload whose key is marked as running is deferred by every trigger, so a mark that outlives the
attempts for its key would lock the workload up.

* `ItemDecision.IsFounded`, `Trigger.decisions_founded` — a trigger that defers a workload to a
  running attempt leaves its key marked.
* `Scene.Unbroken` — no attempt broke off without a record of its ending.
* `Tended.exists_running` — then every key that is marked has an unfinished attempt.
* `attended_run` — so it is in every reachable scene, right after every trigger, and in every
  schedule with its loops.
-/

namespace ReplicaControl

/-! ## Deferred decisions -/

/-- If the workload is deferred to a running attempt, its key is marked. -/
def ItemDecision.IsFounded (d : ItemDecision) (r : Registry) : Prop :=
  ∀ n, d.decision = .deferred n false → r.isInFlight d.key = true

theorem ItemDecision.IsFounded.mono {d : ItemDecision} {r r' : Registry} (h : d.IsFounded r)
    (hkept : ∀ key, r.isInFlight key = true → r'.isInFlight key = true) : d.IsFounded r' :=
  fun n hd => hkept d.key (h n hd)

namespace Cycle

variable {state : State}

theorem assess_founded {w w₁ : World} {item : Workload} {d : Decision}
    (h : assess w state item = (.inl d, w₁)) : (d.about item).IsFounded w₁.registry := by
  rintro n rfl
  unfold assess at h
  split at h
  · cases h
  · cases h
  · rename_i target _
    rcases revise_cases w item target with ⟨-, hr⟩ | ⟨-, -, hr⟩
    · rw [hr] at h
      simp only [Prod.mk.injEq, Sum.inl.injEq, Decision.deferred.injEq, Bool.not_eq_false'] at h
      obtain ⟨⟨-, hmark⟩, rfl⟩ := h
      show Registry.isInFlight (w.registry.retarget item.key target.replicas) item.key = true
      rw [Registry.isInFlight_retarget]
      exact hmark
    · rw [hr] at h
      dsimp only at h
      split at h <;> cases h

theorem assessAll_kept (items : List Workload) (w : World) (key : Key)
    (h : w.registry.isInFlight key = true) :
    (assessAll w state items).2.registry.isInFlight key = true :=
  (assessAll_plan (P := fun _ _ => True) items w fun _ _ _ _ => trivial).1.marks.kept key h

theorem assessAll_founded (items : List Workload) (w : World) :
    ∀ d ∈ (assessAll w state items).1.1, d.IsFounded (assessAll w state items).2.registry := by
  induction items generalizing w with
  | nil => exact fun d hd => nomatch hd
  | cons item rest ih =>
    unfold assessAll
    split
    · rename_i decision w₁ ha
      intro d hd
      rcases List.mem_cons.1 hd with rfl | hd
      · exact (assess_founded ha).mono (assessAll_kept rest w₁)
      · exact ih w₁ d hd
    · rename_i target w₁ ha
      exact ih w₁

theorem launchAll_kept (changes : List Launch) (w : World) (key : Key)
    (h : w.registry.isInFlight key = true) :
    (launchAll w changes).2.registry.isInFlight key = true := by
  induction changes generalizing w with
  | nil => exact h
  | cons change rest ih =>
    have hclaim := Registry.isInFlight_claim change.1 change.2.replicas h
    unfold launchAll
    split <;> rename_i registry hc <;> rw [hc] at hclaim <;> exact ih _ hclaim

theorem launchAll_founded (changes : List Launch) (w : World) :
    ∀ d ∈ (launchAll w changes).1.1, d.IsFounded (launchAll w changes).2.registry := by
  induction changes generalizing w with
  | nil => exact fun d hd => nomatch hd
  | cons change rest ih =>
    obtain ⟨item, target⟩ := change
    have ih := fun r => ih { w with registry := r }
    rcases w.registry.claim_cases item target.replicas with
      ⟨hi, hc⟩ | ⟨hi, hf, hc⟩ | ⟨hi, hf, hc⟩
    all_goals
      simp only [launchAll, hc]
      intro d hd
      rcases List.mem_cons.1 hd with rfl | hd
    · refine fun n _ => launchAll_kept rest _ item.key ?_
      show Registry.isInFlight (w.registry.retarget item.key target.replicas) item.key = true
      rw [Registry.isInFlight_retarget, hi]
    · exact ih _ d hd
    · exact fun n hd => by cases hd
    · exact ih _ d hd
    · exact fun n hd => by cases hd
    · exact ih _ d hd

theorem denyAll_founded (quota : String) (shortfall : ResourceList) (changes : List Launch)
    (w : World) (r : Registry) : ∀ d ∈ (denyAll w quota shortfall changes).1, d.IsFounded r := by
  induction changes generalizing w with
  | nil => exact fun d hd => nomatch hd
  | cons change rest ih =>
    intro d hd
    rcases List.mem_cons.1 hd with rfl | hd
    · exact fun n hd => by cases hd
    · exact ih _ d hd

theorem settleBatch_founded (w : World) (ns : String) (changes : List Launch) :
    ∀ d ∈ (settleBatch w ns changes).1.1, d.IsFounded (settleBatch w ns changes).2.registry := by
  unfold settleBatch
  split
  · intro d hd
    obtain ⟨c, -, rfl⟩ := List.mem_map.1 hd
    exact fun n hd => by cases hd
  · exact denyAll_founded _ _ changes _ _
  · exact launchAll_founded changes _

theorem settleBatch_kept (w : World) (ns : String) (changes : List Launch) (key : Key)
    (h : w.registry.isInFlight key = true) :
    (settleBatch w ns changes).2.registry.isInFlight key = true := by
  have ha := w.admission_asked ns (Quota.batchNeed (changes.map fun c => (c.1, c.2.replicas)))
  unfold settleBatch
  split
  · rename_i hd
    rw [hd] at ha
    rw [ha.registry]
    exact h
  · rename_i hd
    rw [hd] at ha
    rw [denyAll_registry, ha.registry]
    exact h
  · rename_i w₁ hd
    rw [hd] at ha
    exact launchAll_kept changes w₁ key (by rw [ha.registry]; exact h)

theorem ofWorkloads_founded (w : World) (ns : String) (items : List Workload) :
    ∀ d ∈ (ofWorkloads w ns state items).1.items,
      d.IsFounded (ofWorkloads w ns state items).2.registry := by
  have hfounded : ∀ d ∈ (assessAll w state items).1.1,
      d.IsFounded (assessAll w state items).2.registry := assessAll_founded items w
  unfold ofWorkloads
  split
  rename_i decided changes w₁ ha
  rw [ha] at hfounded
  split
  · exact hfounded
  · intro d hd
    rcases List.mem_append.1 hd with hd | hd
    · exact (hfounded d hd).mono (settleBatch_kept w₁ ns changes)
    · exact settleBatch_founded w₁ ns changes d hd

end Cycle

namespace Cycle

/-- The decisions of a cycle; none if it gave up. -/
def itemsOf : Except CycleError Cycle → List ItemDecision
  | .ok c => c.items
  | .error _ => []

theorem ofNamespace_founded (s : Settings) (w : World) (ns : String) :
    ∀ d ∈ itemsOf (ofNamespace s w ns).1, d.IsFounded (ofNamespace s w ns).2.registry := by
  unfold ofNamespace
  split
  · exact fun d hd => (List.not_mem_nil hd).elim
  · split
    · exact fun d hd => (List.not_mem_nil hd).elim
    · exact ofWorkloads_founded _ _ _

theorem ofItem_founded (s : Settings) (w : World) (id : WorkloadId) :
    ∀ d ∈ itemsOf (ofItem s w id).1, d.IsFounded (ofItem s w id).2.registry := by
  unfold ofItem
  split
  · split
    · exact fun d hd => (List.not_mem_nil hd).elim
    · split
      · exact ofWorkloads_founded _ _ _
      · exact fun d hd => (List.not_mem_nil hd).elim
      · exact ofWorkloads_founded _ _ _
  · exact fun d hd => (List.not_mem_nil hd).elim

end Cycle

/-- What a trigger decided; a sweep takes no decisions. -/
def Trigger.decisions (s : Settings) (w : World) : Trigger → List ItemDecision
  | .cycle ns => Cycle.itemsOf (Cycle.ofNamespace s w ns).1
  | .item id => Cycle.itemsOf (Cycle.ofItem s w id).1
  | .sweep => []

/-- **A trigger that defers a workload to a running attempt leaves its key marked.** -/
theorem Trigger.decisions_founded (s : Settings) (w : World) (t : Trigger) :
    ∀ d ∈ t.decisions s w, d.IsFounded (t.fire s w).2.registry := by
  cases t with
  | cycle ns => exact Cycle.ofNamespace_founded s w ns
  | item id => exact Cycle.ofItem_founded s w id
  | sweep => exact fun d hd => (List.not_mem_nil hd).elim

namespace Scene

variable {s : Settings} {sc : Scene}

/-! ## Attempts for the keys in flight -/

/-- No attempt broke off without a record of its ending. -/
def Unbroken (sc : Scene) : Prop := ∀ a ∈ sc.attempts, a.phase ≠ .aborted

/-- An attempt that has no ending is running, unless it broke off. -/
theorem Unbroken.mem_running (h : sc.Unbroken) {a : Attempt} (ha : a ∈ sc.attempts)
    (he : a.ending? = none) : a ∈ sc.running := by
  refine List.mem_filter.2 ⟨ha, ?_⟩
  have hp := h a ha
  unfold Attempt.isOver
  unfold Attempt.ending? at he
  cases hphase : a.phase <;> simp_all

theorem Tended.exists_running (h : sc.Tended) (hu : sc.Unbroken) {key : Key}
    (hkey : sc.world.registry.isInFlight key = true) : ∃ a ∈ sc.running, a.key = key := by
  obtain ⟨a, ha, hk, he⟩ := h.tended key hkey
  exact ⟨a, hu.mem_running ha he, hk⟩

theorem Unbroken.next_trigger (h : sc.Unbroken) (t : Trigger) :
    (sc.next s (.trigger t)).Unbroken := by
  by_cases hr : sc.isAtRest
  · rw [Scene.next_trigger hr]
    intro a ha
    rcases List.mem_append.1 ha with ha | ha
    · exact h a ha
    · obtain ⟨l, -, rfl⟩ := List.mem_map.1 ha
      exact fun hp => by cases hp
  · simpa [next, hr] using h

/-- **In every reachable scene in which no attempt broke off, every key that is marked as running
has an unfinished attempt; a trigger that defers a workload to a running attempt finds or launches
one for it; and the same holds of every schedule with its loops, whatever its callers do.** -/
theorem attended_run (s : Settings) (w : World) (moves : List Move)
    (h : ((idle w).run s moves).Unbroken) :
    let sc := (idle w).run s moves
    (∀ key, sc.world.registry.isInFlight key = true → ∃ a ∈ sc.running, a.key = key) ∧
      (sc.isAtRest → ∀ t, ∀ d ∈ t.decisions s sc.world, ∀ n, d.decision = .deferred n false →
        ∃ a ∈ (sc.next s (.trigger t)).running, a.key = d.key) ∧
      ∀ calls : List Schedule.Call,
        let sched := calls.foldl Schedule.perform
          { settings := s, world := { w with registry := ∅ } }
        sched.scene.Unbroken → ∀ key, sched.world.registry.isInFlight key = true →
          ∃ id a, sched.tasks.get? id = some (.attempt a) ∧ a.isOver = false ∧ a.key = key := by
  intro sc
  have htended : sc.Tended := (tended_idle w).run moves
  refine ⟨fun key => htended.exists_running h, fun hr t d hd n hn => ?_, ?_⟩
  · refine (htended.next_trigger t).exists_running (h.next_trigger t) ?_
    rw [Scene.next_trigger hr]
    exact t.decisions_founded s sc.world d hd n hn
  · intro calls sched hu key hkey
    obtain ⟨horderly, hscene⟩ := Schedule.orderly_of_no_tasks s { w with registry := ∅ }
    obtain ⟨turns, hturns⟩ := (Schedule.foldl_perform_leads horderly calls).turns
    have hsched : sched.scene.Tended := by
      rw [hturns, hscene]
      exact (tended_idle w).run turns
    obtain ⟨a, ha, hk⟩ := hsched.exists_running hu hkey
    obtain ⟨ha, hover⟩ := List.mem_filter.1 ha
    obtain ⟨id, hid⟩ := Schedule.mem_attempts.1 ha
    exact ⟨id, a, hid, by simpa using hover, hk⟩

/-- One attempt waits for readiness, and the next cycle defers its workload. -/
theorem attended_run_waiting :
    let x : Workload := { Workload.sample ⟨.deployment, "shop", "api"⟩ "3" with spec := 1 }
    let moves : List Move := [.trigger (.cycle "shop"), .attempt 0, .attempt 0, .attempt 0]
    ((idle (.holding [x])).run (.standard .step) moves).Unbroken ∧
      (Trigger.cycle "shop").decisions (.standard .step)
        ((idle (.holding [x])).run (.standard .step) moves).world =
          [(Decision.deferred 3 false).about x] ∧
      ∃ a ∈ ((idle (.holding [x])).run (.standard .step) moves).running, a.key = x.key := by
  intro x moves
  have hu : ((idle (.holding [x])).run (.standard .step) moves).Unbroken := by
    unfold Unbroken
    decide +kernel
  have hmark : ((idle (.holding [x])).run (.standard .step) moves).world.registry.isInFlight
      x.key = true := by decide +kernel
  refine ⟨hu, by decide +kernel, ?_⟩
  exact (attended_run (.standard .step) (.holding [x]) moves hu).1 x.key hmark

end Scene

end ReplicaControl
