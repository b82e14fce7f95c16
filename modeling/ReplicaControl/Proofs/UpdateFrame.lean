import ReplicaControl.Proofs.AttemptStep

/-!
# What an update changes

* `Cluster.Updates` — a cluster before and after an update of a workload: the workload is under
  control, and nothing changes but its counts, its version and the record of written counts.
* `Attempt.step_frame` — a step of an attempt leaves the workloads alone, or is such an update, or
  breaks the attempt off.
* `update_frame` — the same for every turn of every run.
-/

namespace ReplicaControl

/-- A cluster before and after a count is written to a workload that is under control. -/
structure Cluster.Updates (before after : Cluster) (live new : Workload) (n : Int) : Prop where
  stored : before.inventory.get? live.id = some live
  optedIn : live.labels.get? "scaler/opt-in" = some "true"
  count : new =
    { live with
      spec := n
      ready := if before.autoReady then n else live.ready
      version := live.version + 1 }
  written : after.inventory.get? live.id = some new
  others : ∀ id, id ≠ live.id → after.inventory.get? id = before.inventory.get? id
  rest : after =
    { before with inventory := after.inventory, history := before.history ++ [(live.id, n)] }

namespace Cluster

/-- **A workload that is under control and whose write the cluster takes is updated.** -/
theorem updates_of_write {c c' : Cluster} {id : WorkloadId} {live new : Workload} {n : Int}
    (hget : c.inventory.get? id = some live) (ho : live.isOptedIn = true)
    (h : c.write { live with spec := n } = (.stored new, c')) : c.Updates c' live new n := by
  obtain ⟨hnew, hid, hc'⟩ := write_stored_of_get? hget h
  obtain rfl : live.id = id := Inventory.id_of_get? hget
  have hinv : c'.inventory = c.inventory.put new := by rw [hc']
  refine ⟨hget, beq_iff_eq.1 ho, hnew, ?_, fun other hne => ?_, ?_⟩
  · rw [hinv, Inventory.get?_put, if_pos hid.symm]
  · rw [hinv, Inventory.get?_put, if_neg (hid ▸ hne)]
  · rw [hinv]
    exact hc'

end Cluster

/-- **A step leaves all workloads and the record of writes alone, or breaks the attempt off without
a record, or updates the workload of the attempt.** -/
theorem Attempt.step_frame (s : Settings) (a : Attempt) (w : World) :
    ((a.step s w).2.cluster.inventory = w.cluster.inventory ∧
      (a.step s w).2.cluster.history = w.cluster.history) ∨
    ((a.step s w).1.phase = .aborted ∧ (a.step s w).2.cluster.history = w.cluster.history) ∨
    ∃ live new n after w₁, live.id = a.item.id ∧ w.cluster.Updates after live new n ∧ w.Asked w₁ ∧
      (a.step s w).2 = { w₁ with cluster := after }.afterWrite new := by
  have hc := a.step_case s w
  generalize a.step s w = r at hc ⊢
  have quiet : ∀ {w₁ : World}, w.Quiet w₁ → w₁.cluster.inventory = w.cluster.inventory ∧
      w₁.cluster.history = w.cluster.history := fun hq => ⟨hq.inventory, hq.history⟩
  cases hc with
  | idle | content | begun | decided => exact .inl ⟨rfl, rfl⟩
  | unreachable => exact .inl (by rw [fail, conclude_cluster]; exact ⟨rfl, rfl⟩)
  | arrived => exact .inl (by rw [conclude_cluster]; exact ⟨rfl, rfl⟩)
  | polled _ _ _ ha => exact .inl (quiet ha.quiet)
  | slept _ _ hq => exact .inl (quiet hq)
  | retried _ hq => exact .inl (quiet hq)
  | gone _ hq => exact .inl (by rw [conclude_cluster]; exact quiet hq)
  | denied _ hq => exact .inl (by rw [conclude_cluster]; exact ⟨hq.inventory, hq.history⟩)
  | failed _ hq => exact .inl (by rw [fail, conclude_cluster]; exact quiet hq)
  | exhausted _ _ hw => exact .inr (.inl ⟨rfl, Cluster.write_exhausted hw⟩)
  | stored _ hget ho _ hw ha =>
    exact .inr (.inr ⟨_, _, _, _, _, Inventory.id_of_get? hget,
      Cluster.updates_of_write hget ho hw, ha, rfl⟩)

namespace Scene

/-- **Whatever happened before, with faults, conflicts and changes by others, the turn of an attempt
leaves all workloads alone, or updates its own workload, which is under control, and changes nothing
else.**  What happens in reaction to the update comes after it.  An attempt whose write does not
come to an end breaks off. -/
theorem update_frame (s : Settings) (start : Scene) (moves : List Move) (i : Nat) :
    let sc := start.run s moves
    let next := sc.next s (.attempt i)
    (next.world.cluster.inventory = sc.world.cluster.inventory ∧
      next.world.cluster.history = sc.world.cluster.history) ∨
    ((next.attempts[i]?).map (·.phase) = some .aborted ∧
      next.world.cluster.history = sc.world.cluster.history) ∨
    ∃ a live new n after w₁, sc.attempts[i]? = some a ∧ live.id = a.item.id ∧
      sc.world.cluster.Updates after live new n ∧ sc.world.Asked w₁ ∧
      next.world = { w₁ with cluster := after }.afterWrite new := by
  intro sc next
  rcases sc.next_attempt_cases s i with ⟨a, ha, hfree, -⟩ | hn
  · obtain ⟨hself, -, hworld⟩ := next_attempt_self (s := s) ha hfree
    show (next.world.cluster.inventory = _ ∧ _) ∨ _
    rw [show next.world = _ from hworld, show next.attempts[i]? = _ from hself]
    rcases a.step_frame s sc.world with h | ⟨hp, h⟩ | ⟨live, new, n, after, w₁, hid, h⟩
    · exact .inl h
    · exact .inr (.inl ⟨congrArg some hp, h⟩)
    · exact .inr (.inr ⟨a, live, new, n, after, w₁, ha, hid, h⟩)
  · exact .inl (by rw [show next = sc from hn]; exact ⟨rfl, rfl⟩)

end Scene

end ReplicaControl
