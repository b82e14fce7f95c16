import Mathlib.Algebra.Order.BigOperators.Group.List
import Mathlib.Algebra.Order.Group.Int
import Mathlib.Algebra.Ring.Int.Defs
import ReplicaControl.Cluster

/-!
# What workloads need and use

* `Workload.counted`, `amount_needed` — what a number of replicas needs is a multiple of the limits
  that quotas count.
* `Cluster.amount_usage` — where limits are not negative, the usage is the exact sum of the needs,
  up to the largest amount.
-/

namespace ReplicaControl

/-! ## Needs -/

/-- No limit that quotas count is negative. -/
def Workload.HasLimits (w : Workload) : Prop :=
  0 ≤ (w.limits.amount "cpu").millis ∧ 0 ≤ (w.limits.amount "memory").millis

instance (w : Workload) : Decidable w.HasLimits := inferInstanceAs (Decidable (_ ∧ _))

namespace Workload

/-- The limits that quotas count, under the names of the quotas. -/
def counted (w : Workload) : ResourceList :=
  Table.ofList (w.limits.entries.filterMap fun e =>
    (Quota.nameOfLimit? e.1).map fun name => (name, e.2))

/-- **What a number of replicas needs is that many times the counted limits.** -/
theorem amount_needed (w : Workload) (replicas : Int) (name : String) :
    (w.needed replicas).amount name = (w.counted.amount name).scale (max replicas 0) := by
  have hlist : (w.limits.entries.filterMap fun e =>
      (Quota.nameOfLimit? e.1).map fun name => (name, e.2.scale (max replicas 0))) =
      (w.limits.entries.filterMap fun e =>
        (Quota.nameOfLimit? e.1).map fun name => (name, e.2)).map fun e =>
          (e.1, e.2.scale (max replicas 0)) := by
    rw [List.map_filterMap]
    simp only [Option.map_map]
    rfl
  rw [ResourceList.amount, needed, hlist,
    Table.get?_ofList_map fun q : Quantity => q.scale (max replicas 0), ResourceList.amount,
    counted]
  cases Table.get? _ name with
  | none => exact (Quantity.zero_scale _).symm
  | some q => rfl

theorem amount_counted_nonneg {w : Workload} (h : w.HasLimits) (name : String) :
    0 ≤ (w.counted.amount name).millis := by
  unfold ResourceList.amount
  cases hg : w.counted.get? name with
  | none => exact Int.le_refl 0
  | some q =>
    obtain ⟨e, he, hname⟩ := List.mem_filterMap.1 (Table.mem_of_get?_ofList hg)
    obtain ⟨_, hlimit, heq⟩ := Option.map_eq_some_iff.1 hname
    obtain rfl : e.2 = q := congrArg Prod.snd heq
    have hget : w.limits.get? e.1 = some e.2 := (Table.mem_entries_iff _).1 he
    unfold Quota.nameOfLimit? at hlimit
    split at hlimit
    · rename_i hcpu
      have hnonneg := h.1
      rwa [ResourceList.amount, ← hcpu, hget] at hnonneg
    · split at hlimit
      · rename_i hmemory
        have hnonneg := h.2
        rwa [ResourceList.amount, ← hmemory, hget] at hnonneg
      · cases hlimit

theorem amount_needed_nonneg {w : Workload} (h : w.HasLimits) (replicas : Int) (name : String) :
    0 ≤ ((w.needed replicas).amount name).millis := by
  have hc := amount_counted_nonneg h name
  have hmul : 0 ≤ (w.counted.amount name).millis * max replicas 0 :=
    Int.mul_nonneg hc (Int.le_max_right _ _)
  rw [amount_needed, Quantity.scale, Quantity.millis_saturate]
  omega

/-- Fewer replicas need less. -/
theorem amount_needed_mono {w : Workload} (h : w.HasLimits) {a b : Int} (hab : a ≤ b)
    (name : String) :
    ((w.needed a).amount name).millis ≤ ((w.needed b).amount name).millis := by
  have hc := amount_counted_nonneg h name
  have hmul : (w.counted.amount name).millis * max a 0 ≤
      (w.counted.amount name).millis * max b 0 :=
    Int.mul_le_mul_of_nonneg_left (by omega) hc
  rw [amount_needed, amount_needed, Quantity.scale, Quantity.scale, Quantity.millis_saturate,
    Quantity.millis_saturate]
  omega

end Workload

/-! ## Usage -/

namespace Cluster

/-- The largest amount. -/
def largest : Int := 9223372036854775807

theorem sum_needed_nonneg (name : String) {xs : List Workload} (h : ∀ x ∈ xs, x.HasLimits) :
    0 ≤ (xs.map fun x => ((x.needed x.spec).amount name).millis).sum := by
  refine List.sum_nonneg fun m hm => ?_
  obtain ⟨x, hx, rfl⟩ := List.mem_map.1 hm
  exact Workload.amount_needed_nonneg (h x hx) x.spec name

/-- A sum of amounts that are not negative is exact, up to the largest amount. -/
theorem millis_foldl_add {α : Type} (name : String) (f : α → ResourceList) (xs : List α)
    (hx : ∀ x ∈ xs, 0 ≤ ((f x).amount name).millis) (sum : ResourceList)
    (hs : 0 ≤ (sum.amount name).millis) :
    ((xs.foldl (fun sum x => ResourceList.add sum (f x)) sum).amount name).millis =
      min ((sum.amount name).millis + (xs.map fun x => ((f x).amount name).millis).sum)
        largest := by
  induction xs generalizing sum with
  | nil =>
    have hr := (sum.amount name).inRange
    unfold Quantity.InRange at hr
    simp only [List.foldl_nil, List.map_nil, List.sum_nil, largest]
    omega
  | cons x rest ih =>
    have hrest := fun y hy => hx y (List.mem_cons_of_mem x hy)
    have hnonneg := hx x List.mem_cons_self
    have hadd : ((sum.add (f x)).amount name).millis =
        min ((sum.amount name).millis + ((f x).amount name).millis) largest := by
      rw [ResourceList.amount_add, Quantity.millis_add, Quantity.millis_saturate, largest]
      omega
    have hsum : 0 ≤ (rest.map fun x => ((f x).amount name).millis).sum :=
      List.sum_nonneg fun m hm => by
        obtain ⟨y, hy, rfl⟩ := List.mem_map.1 hm
        exact hrest y hy
    rw [List.foldl_cons, ih hrest _ (by rw [hadd, largest]; omega), hadd, List.map_cons,
      List.sum_cons]
    unfold largest
    omega

/-- **Where no limit is negative, the usage is the sum of all needs, up to the largest amount.** -/
theorem amount_usage {c : Cluster} {ns : String} (h : ∀ x ∈ c.workloadsOf ns, x.HasLimits)
    (name : String) :
    ((c.usage ns).amount name).millis =
      min ((c.workloadsOf ns).map fun x => ((x.needed x.spec).amount name).millis).sum largest := by
  have hsum := millis_foldl_add name (fun x : Workload => x.needed x.spec) (c.workloadsOf ns)
    (fun x hx => Workload.amount_needed_nonneg (h x hx) x.spec name) ∅ (Int.le_refl 0)
  rw [usage, hsum]
  simp only [show ((∅ : ResourceList).amount name).millis = 0 from rfl, Int.zero_add]

theorem mem_workloadsOf {c : Cluster} {x : Workload} (h : c.inventory.get? x.id = some x) :
    x ∈ c.workloadsOf x.key.ns := by
  have hvalue : x ∈ c.inventory.workloads :=
    List.mem_map.2 ⟨(x.id, x), (Table.mem_entries_iff _).2 h, rfl⟩
  exact List.mem_filter.2 ⟨hvalue, by simp⟩

/-- A workload that takes the place of one with its kind and key takes its place among the
workloads of its namespace. -/
theorem workloadsOf_put {c : Cluster} {old new : Workload}
    (hget : c.inventory.get? new.id = some old) :
    ∃ before after, c.workloadsOf new.key.ns = before ++ old :: after ∧
      { c with inventory := c.inventory.put new }.workloadsOf new.key.ns =
        before ++ new :: after := by
  obtain ⟨before, after, hsplit, hput⟩ := Table.values_insert hget
  have hold : old.key = new.key := congrArg WorkloadId.key (Inventory.id_of_get? hget)
  refine ⟨before.filter fun w => w.key.ns == new.key.ns,
    after.filter fun w => w.key.ns == new.key.ns, ?_, ?_⟩
  · unfold workloadsOf Inventory.workloads
    rw [hsplit, List.filter_append, List.filter_cons, hold]
    simp
  · unfold workloadsOf Inventory.workloads Inventory.put
    rw [hput, List.filter_append, List.filter_cons]
    simp

end Cluster

namespace ResourceList

theorem amount_restrict {a mask : ResourceList} {name : String} (h : mask.contains name = true) :
    (a.restrict mask).amount name = a.amount name := by
  rw [amount, get?_restrict, amount, h]
  cases a.get? name <;> rfl

end ResourceList

end ReplicaControl
