import ReplicaControl.Proofs.Calm
import ReplicaControl.Proofs.Shortfalls
import ReplicaControl.Proofs.Usage

/-!
# Totals of needs

Usage saturates, and totals do not: the usage of a namespace is the total of its needs, up to the
largest amount.

* `Workload.load`, `Cluster.total` — what replicas need under one name, and what all workloads of a
  namespace do.
* `Cluster.total_update` — a written count changes the total by what it changes for its workload.
* `Cluster.judge_allowed_iff`, `verdict_allowed_iff` — a need is allowed if and only if, on top of
  the usage, it stays within every limit.
* `Quota.amount_batchNeed` — the need of a batch is the total of the needs of its changes.
-/

namespace ReplicaControl

/-- What a number of replicas needs under a name. -/
def Workload.load (x : Workload) (n : Int) (name : String) : Int :=
  ((x.needed n).amount name).millis

namespace Workload

variable {x : Workload}

theorem load_nonneg (h : x.HasLimits) (n : Int) (name : String) : 0 ≤ x.load n name :=
  amount_needed_nonneg h n name

theorem load_mono (h : x.HasLimits) {a b : Int} (hab : a ≤ b) (name : String) :
    x.load a name ≤ x.load b name :=
  amount_needed_mono h hab name

end Workload

namespace Cluster

variable {c : Cluster} {x : Workload} {ns : String}

/-- What all workloads of a namespace need under a name. -/
def total (c : Cluster) (ns name : String) : Int :=
  ((c.workloadsOf ns).map fun x => x.load x.spec name).sum

/-- No workload of a namespace has a negative limit. -/
def HasLimits (c : Cluster) (ns : String) : Prop := ∀ x ∈ c.workloadsOf ns, x.HasLimits

instance (c : Cluster) (ns : String) : Decidable (c.HasLimits ns) :=
  inferInstanceAs (Decidable (∀ x ∈ c.workloadsOf ns, x.HasLimits))

theorem total_nonneg (h : c.HasLimits ns) (name : String) : 0 ≤ c.total ns name :=
  sum_needed_nonneg name h

theorem usage_eq_total (h : c.HasLimits ns) (name : String) :
    ((c.usage ns).amount name).millis = min (c.total ns name) largest :=
  amount_usage h name

/-- A written workload keeps its place among the workloads of its namespace. -/
theorem workloadsOf_update (hget : c.inventory.get? x.id = some x) (n : Int) :
    ∃ before after, c.workloadsOf x.key.ns = before ++ x :: after ∧
      (c.update x n).workloadsOf x.key.ns = before ++ c.updated x n :: after :=
  @workloadsOf_put c x (c.updated x n) hget

/-- **A written count changes the total by what it changes for its workload.** -/
theorem total_update (hget : c.inventory.get? x.id = some x) (n : Int) (name : String) :
    (c.update x n).total x.key.ns name =
      c.total x.key.ns name - x.load x.spec name + x.load n name := by
  obtain ⟨before, after, hold, hnew⟩ := workloadsOf_update hget n
  have hload : (c.updated x n).load (c.updated x n).spec name = x.load n name := rfl
  rw [total, total, hold, hnew]
  simp only [List.map_append, List.map_cons, List.sum_append, List.sum_cons, hload]
  omega

theorem HasLimits.update (h : c.HasLimits x.key.ns) (hget : c.inventory.get? x.id = some x)
    (n : Int) : (c.update x n).HasLimits x.key.ns := by
  obtain ⟨before, after, hold, hnew⟩ := workloadsOf_update hget n
  intro y hy
  rw [HasLimits, hold] at h
  simp only [hnew, List.mem_append, List.mem_cons] at hy
  rcases hy with hy | rfl | hy
  · exact h y (by simp [hy])
  · exact h x (by simp)
  · exact h y (by simp [hy])

end Cluster

/-! ## Verdicts -/

namespace Cluster

variable {c : Cluster} {ns : String}

/-- A quota object of a namespace limits a name to an amount. -/
def Caps (c : Cluster) (ns name : String) (most : Quantity) : Prop :=
  ∃ q ∈ (c.quotas.get? ns).getD [], q.hard.get? name = some most

theorem forall_quotaStatus_iff {P : String → Quantity → Prop} :
    (∀ q ∈ c.quotaStatus ns, ∀ name most, q.hard.get? name = some most → P name most) ↔
      ∀ name most, c.Caps ns name most → P name most := by
  constructor
  · rintro h name most ⟨q, hq, hm⟩
    exact h _ (List.mem_map_of_mem hq) name most hm
  · intro h q hq name most hm
    obtain ⟨object, hobject, rfl⟩ := List.mem_map.1 hq
    exact h name most ⟨object, hobject, hm⟩

theorem forall_caps_iff {P : String → Quantity → Prop} :
    (∀ name most, c.Caps ns name most → P name most) ↔
      ∀ q ∈ (c.quotas.get? ns).getD [], ∀ e ∈ q.hard.entries, P e.1 e.2 := by
  constructor
  · intro h q hq e he
    exact h e.1 e.2 ⟨q, hq, (Table.mem_entries_iff _).1 he⟩
  · rintro h name most ⟨q, hq, hm⟩
    exact h q hq (name, most) ((Table.mem_entries_iff _).2 hm)

theorem used_eq_total (h : c.HasLimits ns) {q : QuotaStatus} (hq : q ∈ c.quotaStatus ns)
    {name : String} {most : Quantity} (hm : q.hard.get? name = some most) :
    (q.used.amount name).millis = min (c.total ns name) largest := by
  obtain ⟨object, -, rfl⟩ := List.mem_map.1 hq
  rw [ResourceList.amount_restrict (by simp [hm]), usage_eq_total h]

/-- **A need is allowed if and only if, on top of the usage, it stays within every limit.** -/
theorem judge_allowed_iff (h : c.HasLimits ns) {need : ResourceList}
    (hneed : ∀ name, 0 ≤ (need.amount name).millis) :
    Quota.judge need (c.quotaStatus ns) = .allowed ↔ ∀ name most, c.Caps ns name most →
      min (c.total ns name) largest + (need.amount name).millis ≤ most.millis := by
  rw [Quota.judge_allowed_iff, ← forall_quotaStatus_iff]
  refine forall₂_congr fun q hq => ?_
  rw [Quota.hasRoom_iff]
  refine forall₃_congr fun name most hm => ?_
  have hused := used_eq_total h hq hm
  have hneed := hneed name
  have hrange := most.inRange
  have htotal := total_nonneg h name
  simp only [Quantity.millis_sub, Quantity.millis_saturate, hused]
  unfold Quantity.InRange at hrange
  unfold largest
  omega

/-- An exempt change is allowed, and any other one if and only if the whole need of the new count
fits. -/
theorem verdict_allowed_iff (h : c.HasLimits ns) {x : Workload} (hx : x.HasLimits) (n : Int) :
    c.verdict ns (Quota.itemNeed x n) = .allowed ↔
      x.isExempt n = true ∨ ∀ name most, c.Caps ns name most →
        min (c.total ns name) largest + x.load n name ≤ most.millis := by
  unfold Quota.itemNeed
  split
  · simp [verdict, *]
  · rw [verdict, judge_allowed_iff h (Workload.load_nonneg hx n)]
    simp [*, Workload.load]

end Cluster

/-- **The need of a batch is the total of the needs of the changes that are not exempt**, up to the
largest amount. -/
theorem Quota.amount_batchNeed {changes : List (Workload × Int)} {need : ResourceList}
    (h : ∀ c ∈ changes, c.1.HasLimits) (hneed : batchNeed changes = some need) (name : String) :
    (need.amount name).millis =
      min ((changes.filter fun c => !c.1.isExempt c.2).map fun c => c.1.load c.2 name).sum
        Cluster.largest := by
  have hsum := Cluster.millis_foldl_add name (fun c : Workload × Int => c.1.needed c.2)
    (changes.filter fun c => !c.1.isExempt c.2)
    (fun c hc => Workload.load_nonneg (h c (List.mem_filter.1 hc).1) c.2 name) ∅ (Int.le_refl 0)
  simp only [show ((∅ : ResourceList).amount name).millis = 0 from rfl, Int.zero_add] at hsum
  unfold batchNeed at hneed
  dsimp only at hneed
  split at hneed
  · cases hneed
  · obtain rfl := Option.some.inj hneed
    exact hsum

end ReplicaControl
