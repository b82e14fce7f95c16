import ReplicaControl.Proofs.Sample
import ReplicaControl.Proofs.Totals

/-!
# Writes stay within the quotas

* `Cluster.usage_le_of_le` — the usage does not grow when a count is lowered.
* `Cluster.usage_le_hard` — a write whose whole need fits into the headroom keeps the usage within
  the limits.
* `quota_safe` — right after a write no quota is exceeded, unless the write was exempt; then no
  usage grew.
-/

namespace ReplicaControl

namespace Cluster

variable {c c' : Cluster} {live new : Workload} {n : Int}

/-- The usage does not grow when a count is lowered. -/
theorem usage_le_of_le (hget : c.inventory.get? live.id = some live)
    (hwrite : c.write { live with spec := n } = (.stored new, c'))
    (h : c.HasLimits live.key.ns) (hn : n ≤ live.spec) (name : String) :
    ((c'.usage live.key.ns).amount name).millis ≤ ((c.usage live.key.ns).amount name).millis := by
  obtain rfl := eq_update_of_write hget hwrite
  have hload := Workload.load_mono (h live (mem_workloadsOf hget)) hn name
  rw [usage_eq_total (h.update hget n), usage_eq_total h, total_update hget]
  omega

/-- **A write whose whole need fits into the headroom keeps the usage within the limits**, also
where amounts saturate. -/
theorem usage_le_hard (hget : c.inventory.get? live.id = some live)
    (hwrite : c.write { live with spec := n } = (.stored new, c'))
    (h : c.HasLimits live.key.ns)
    (hj : Quota.judge (live.needed n) (c.quotaStatus live.key.ns) = .allowed)
    {q : QuotaStatus} (hq : q ∈ c'.quotaStatus live.key.ns) {name : String} {most : Quantity}
    (hm : q.hard.get? name = some most) : (q.used.amount name).millis ≤ most.millis := by
  obtain rfl := eq_update_of_write hget hwrite
  have hlive := h live (mem_workloadsOf hget)
  have hcaps : c.Caps live.key.ns name most := by
    obtain ⟨object, hobject, rfl⟩ := List.mem_map.1 hq
    exact ⟨object, hobject, hm⟩
  have hfits := (judge_allowed_iff h (Workload.load_nonneg hlive n)).1 hj name most hcaps
  have hbase := Workload.load_nonneg hlive live.spec name
  have hneed := Workload.load_nonneg hlive n name
  rw [used_eq_total (h.update hget n) hq hm, total_update hget]
  unfold Workload.load at hbase hneed ⊢
  omega

end Cluster

namespace Scene

/-- **In every run, and whatever others do meanwhile, a write by an attempt leaves the usage of the
namespace within every quota, or was exempt and made no usage grow.**  A write that was not exempt
is made right after the quotas were read. -/
theorem quota_safe (s : Settings) (start : Scene) (moves : List Move) {i : Nat} {id : WorkloadId}
    {n : Int} (h : (start.run s moves).Writes s i id n)
    (hl : ∀ x ∈ (start.run s moves).world.cluster.workloadsOf id.key.ns, x.HasLimits) :
    let w := (start.run s moves).world
    ∃ live new after, w.cluster.inventory.get? id = some live ∧
      w.cluster.write { live with spec := n } = (.stored new, after) ∧
      (∃ w₁, w.Asked w₁ ∧ ((start.run s moves).next s (.attempt i)).world =
        { w₁ with cluster := after }.afterWrite new) ∧
      ((live.allowsAutoscaling = true ∧ n ≤ live.spec ∧ ∀ name,
          ((after.usage id.key.ns).amount name).millis ≤
            ((w.cluster.usage id.key.ns).amount name).millis) ∨
        (((w.fetch id).2.fetchQuotas id.key.ns).1 = .ok (w.cluster.quotaStatus id.key.ns) ∧
          ∀ q ∈ after.quotaStatus id.key.ns, ∀ name most, q.hard.get? name = some most →
            (q.used.amount name).millis ≤ most.millis)) := by
  intro w
  obtain ⟨a, ha, hf, hstep⟩ := h.step
  have hnext := next_attempt_self (s := s) ha hf
  obtain ⟨rfl, k, live, new, after, w₁, -, hget, -, hadmitted, hwrite, hasked, heq⟩ :=
    Attempt.step_writes hstep
  have hid := Inventory.id_of_get? hget
  have hns : a.item.id.key.ns = live.key.ns := by
    rw [← hid]
    rfl
  rw [hns] at hl ⊢
  refine ⟨live, new, after, hget, hwrite, ⟨w₁, hasked, ?_⟩, ?_⟩
  · rw [hnext.2.2, heq]
  · unfold Quota.itemNeed at hadmitted
    split at hadmitted
    · rename_i hexempt
      obtain ⟨hallow, hle⟩ := Bool.and_eq_true_iff.1 hexempt
      have hle : n ≤ live.spec := of_decide_eq_true hle
      exact .inl ⟨hallow, hle, Cluster.usage_le_of_le (hid ▸ hget) hwrite hl hle⟩
    · obtain ⟨hfetched, hjudge⟩ := World.admission_allowed hadmitted
      rw [(w.fetch_asked a.item.id).cluster] at hfetched hjudge
      exact .inr ⟨hfetched, fun q hq name most hm =>
        Cluster.usage_le_hard (hid ▸ hget) hwrite hl hjudge hq hm⟩

/-- A write that uses up a quota. -/
theorem quota_safe_used_up :
    let x : Workload :=
      { Workload.sample ⟨.deployment, "shop", "api"⟩ "3" with
        limits := Table.ofList [("cpu", .ofUnits 1)] }
    let quotas := Table.ofList [("shop", [⟨"compute", Table.ofList [("limits.cpu", .ofUnits 3)]⟩])]
    let start := staged { World.holding [x] with cluster.quotas := quotas } []
    let moves : List Move := [.trigger (.cycle "shop"), .attempt 0, .attempt 0]
    let w := (start.run (.standard .rapid) moves).world
    (start.run (.standard .rapid) moves).Writes (.standard .rapid) 0 x.id 3 ∧
      (∀ x ∈ w.cluster.workloadsOf "shop", x.HasLimits) ∧
      ∃ (live new : Workload) (after : Cluster),
        w.cluster.write { live with spec := 3 } = (.stored new, after) ∧
        (live.allowsAutoscaling = true ∨
          ∀ q ∈ after.quotaStatus "shop", ∀ name most, q.hard.get? name = some most →
            (q.used.amount name).millis ≤ most.millis) := by
  intro x quotas start moves w
  have hwrites : (start.run (.standard .rapid) moves).Writes (.standard .rapid) 0 x.id 3 := by
    unfold Writes
    decide +kernel
  have hlimits : ∀ x ∈ w.cluster.workloadsOf "shop", x.HasLimits := by
    decide +kernel
  obtain ⟨live, new, after, -, hwrite, -, hsafe⟩ :=
    quota_safe (.standard .rapid) start moves hwrites hlimits
  exact ⟨hwrites, hlimits, live, new, after, hwrite, hsafe.imp And.left And.right⟩

end Scene

end ReplicaControl
