import ReplicaControl.Proofs.AdmissionPaths

/-!
# Needs beyond the largest amount

A batch is compared with the quotas in amounts that saturate three times: the need of each change,
their sum, and both differences with what is granted.  Here it is compared with numbers that do not.

* `Workload.limitFor`, `exactLoad` — what replicas need under a name, however much that is.
* `Quota.exactNeed`, `QuotaStatus.Exceeded` — what all changes of a batch need, and whether that is
  more than what is left.
* `Workload.load_eq`, `Quota.amount_batchNeed_eq` — amounts are the exact numbers up to the largest
  amount.
* `Quota.left_neg_iff` — the amounts miss what is exceeded in one case only: everything up to the
  largest amount is granted, and nothing is in use.
* `Quota.batch_denied_iff` — the main theorem.
-/

namespace ReplicaControl

/-! ## Exact numbers -/

/-- The limit that quotas count under a name. -/
def Quota.limitOfName? (name : String) : Option String :=
  if name = "limits.cpu" then some "cpu"
  else if name = "limits.memory" then some "memory"
  else none

namespace Workload

/-- What one replica needs under a name, in thousandths. -/
def limitFor (x : Workload) (name : String) : Int :=
  match Quota.limitOfName? name with
  | some limit => (x.limits.amount limit).millis
  | none => 0

/-- What a number of replicas needs under a name, however much that is.  A count below zero stands
for no replicas. -/
def exactLoad (x : Workload) (n : Int) (name : String) : Int := x.limitFor name * max n 0

end Workload

/-- What all changes of a batch need under a name, however much that is. -/
def Quota.exactNeed (changes : List (Workload × Int)) (name : String) : Int :=
  (changes.map fun c => c.1.exactLoad c.2 name).sum

/-- The quota objects that the source answers with deny a batch. -/
def Quota.IsDenied (changes : List (Workload × Int)) (qs : List QuotaStatus) : Prop :=
  ∃ quota lack, admission (batchNeed changes) (.ok qs) = .ok (.denied quota lack)

namespace QuotaStatus

/-- What a quota object grants and what is in use are not negative. -/
def HasAmounts (q : QuotaStatus) : Prop :=
  (∀ e ∈ q.hard.entries, 0 ≤ e.2.millis) ∧ ∀ e ∈ q.used.entries, 0 ≤ e.2.millis

instance (q : QuotaStatus) : Decidable q.HasAmounts := inferInstanceAs (Decidable (_ ∧ _))

/-- With a batch, more of a name is in use than a quota object grants. -/
def Exceeded (q : QuotaStatus) (changes : List (Workload × Int)) (name : String) : Prop :=
  q.hard.contains name = true ∧
    (q.hard.amount name).millis < (q.used.amount name).millis + Quota.exactNeed changes name

instance (q : QuotaStatus) (changes : List (Workload × Int)) (name : String) :
    Decidable (q.Exceeded changes name) := inferInstanceAs (Decidable (_ ∧ _))

/-- Under a name the largest amount is granted, and nothing of it is in use. -/
def IsUntouchedMost (q : QuotaStatus) (name : String) : Prop :=
  (q.hard.amount name).millis = Cluster.largest ∧ (q.used.amount name).millis = 0

instance (q : QuotaStatus) (name : String) : Decidable (q.IsUntouchedMost name) :=
  inferInstanceAs (Decidable (_ ∧ _))

end QuotaStatus

/-! ## The limits that quotas count -/

theorem Quota.nameOfLimit?_eq_some_iff {limit name : String} :
    nameOfLimit? limit = some name ↔ limitOfName? name = some limit := by
  unfold nameOfLimit? limitOfName?
  constructor
  · intro h
    split at h
    · cases h
      simp [*]
    · split at h
      · cases h
        simp [*]
      · cases h
  · intro h
    split at h
    · cases h
      simp [*]
    · split at h
      · cases h
        simp [*]
      · cases h

namespace Workload

variable {x : Workload}

/-- What quotas count under a name is the limit that the name stands for. -/
theorem get?_counted (x : Workload) (name : String) :
    x.counted.get? name = (Quota.limitOfName? name).bind x.limits.get? := by
  cases hcounted : x.counted.get? name with
  | some q =>
    obtain ⟨e, he, hname⟩ := List.mem_filterMap.1 (Table.mem_of_get?_ofList hcounted)
    obtain ⟨_, hlimit, heq⟩ := Option.map_eq_some_iff.1 hname
    obtain ⟨rfl, rfl⟩ := Prod.mk.inj heq
    rw [Quota.nameOfLimit?_eq_some_iff.1 hlimit, Option.bind_some,
      (Table.mem_entries_iff _).1 he]
  | none =>
    cases hname : Quota.limitOfName? name with
    | none => rfl
    | some limit =>
      rw [Option.bind_some]
      by_contra hsome
      obtain ⟨q, hq⟩ := Option.ne_none_iff_exists'.1 (Ne.symm hsome)
      -- the entry of the limit is one of those that are counted
      have hmem : name ∈ (x.limits.entries.filterMap fun e =>
          (Quota.nameOfLimit? e.1).map fun name => (name, e.2)).map Prod.fst := by
        refine List.mem_map.2 ⟨(name, q), List.mem_filterMap.2 ⟨(limit, q), ?_, ?_⟩, rfl⟩
        · exact (Table.mem_entries_iff _).2 hq
        · rw [Quota.nameOfLimit?_eq_some_iff.2 hname]
          rfl
      have hcontains := Table.contains_ofList.2 hmem
      rw [Table.contains_eq_isSome] at hcontains
      rw [counted] at hcounted
      rw [hcounted] at hcontains
      cases hcontains

theorem amount_counted (x : Workload) (name : String) :
    (x.counted.amount name).millis = x.limitFor name := by
  rw [ResourceList.amount, get?_counted, limitFor]
  cases Quota.limitOfName? name <;> rfl

theorem exactLoad_nonneg (h : x.HasLimits) (n : Int) (name : String) :
    0 ≤ x.exactLoad n name := by
  have hcounted := amount_counted_nonneg h name
  rw [amount_counted] at hcounted
  exact Int.mul_nonneg hcounted (Int.le_max_right _ _)

/-- **Replicas need what is exact, up to the largest amount.** -/
theorem load_eq (h : x.HasLimits) (n : Int) (name : String) :
    x.load n name = min (x.exactLoad n name) Cluster.largest := by
  have hnonneg := exactLoad_nonneg h n name
  rw [load, amount_needed, Quantity.scale, Quantity.millis_saturate, amount_counted, ← exactLoad,
    Cluster.largest]
  omega

end Workload

/-! ## The need of a batch -/

/-- Cutting numbers that are not negative down before they are added makes no difference to their
sum, if it is cut down as well. -/
theorem Quota.min_sum_min {α : Type} {f : α → Int} {m : Int} (hm : 0 ≤ m) {xs : List α}
    (hf : ∀ x ∈ xs, 0 ≤ f x) :
    min (xs.map fun x => min (f x) m).sum m = min (xs.map f).sum m := by
  induction xs with
  | nil => rfl
  | cons x rest ih =>
    have hrest : ∀ y ∈ rest, 0 ≤ f y := fun y hy => hf y (List.mem_cons_of_mem x hy)
    have hx := hf x List.mem_cons_self
    have hsum : 0 ≤ (rest.map f).sum := List.sum_nonneg fun n hn => by
      obtain ⟨y, hy, rfl⟩ := List.mem_map.1 hn
      exact hrest y hy
    have hcut : 0 ≤ (rest.map fun y => min (f y) m).sum := List.sum_nonneg fun n hn => by
      obtain ⟨y, hy, rfl⟩ := List.mem_map.1 hn
      have := hrest y hy
      omega
    have ih := ih hrest
    rw [List.map_cons, List.map_cons, List.sum_cons, List.sum_cons]
    omega

namespace Quota

variable {changes : List (Workload × Int)} {need : ResourceList} {q : QuotaStatus} {name : String}

theorem exactNeed_nonneg (h : ∀ c ∈ changes, c.1.HasLimits) (name : String) :
    0 ≤ exactNeed changes name := by
  refine List.sum_nonneg fun n hn => ?_
  obtain ⟨c, hc, rfl⟩ := List.mem_map.1 hn
  exact Workload.exactLoad_nonneg (h c hc) c.2 name

/-- **The need of a batch without exempt changes is exact, up to the largest amount.** -/
theorem amount_batchNeed_eq (hlimits : ∀ c ∈ changes, c.1.HasLimits)
    (hexempt : ∀ c ∈ changes, c.1.isExempt c.2 = false) (hneed : batchNeed changes = some need)
    (name : String) :
    (need.amount name).millis = min (exactNeed changes name) Cluster.largest := by
  have hall : (changes.filter fun c => !c.1.isExempt c.2) = changes :=
    List.filter_eq_self.2 fun c hc => by rw [hexempt c hc]; rfl
  have hloads : (changes.map fun c => c.1.load c.2 name) =
      changes.map fun c => min (c.1.exactLoad c.2 name) Cluster.largest :=
    List.map_congr_left fun c hc => Workload.load_eq (hlimits c hc) c.2 name
  rw [amount_batchNeed hlimits hneed, hall, hloads, exactNeed]
  exact min_sum_min (by decide) fun c hc =>
    Workload.exactLoad_nonneg (hlimits c hc) c.2 name

theorem amount_nonneg {a : ResourceList} (h : ∀ e ∈ a.entries, 0 ≤ e.2.millis) (name : String) :
    0 ≤ (a.amount name).millis := by
  rw [ResourceList.amount]
  cases hget : a.get? name with
  | none => exact Int.le_refl 0
  | some amount => exact h (name, amount) ((Table.mem_entries_iff _).2 hget)

/-- **Less than nothing is left of a name if and only if it is exceeded**, unless the largest amount
is granted and nothing is in use. -/
theorem left_neg_iff (hlimits : ∀ c ∈ changes, c.1.HasLimits)
    (hexempt : ∀ c ∈ changes, c.1.isExempt c.2 = false) (hneed : batchNeed changes = some need)
    (hq : q.HasAmounts) (hname : q.hard.contains name = true) :
    (q.left need name).millis < 0 ↔ q.Exceeded changes name ∧ ¬ q.IsUntouchedMost name := by
  have hamount := amount_batchNeed_eq hlimits hexempt hneed name
  have hexact := exactNeed_nonneg hlimits name
  have hhard := amount_nonneg hq.1 name
  have hused := amount_nonneg hq.2 name
  have hhardRange := (q.hard.amount name).inRange
  have husedRange := (q.used.amount name).inRange
  unfold Quantity.InRange at hhardRange husedRange
  simp only [QuotaStatus.left, QuotaStatus.Exceeded, QuotaStatus.IsUntouchedMost, hname, true_and,
    Quantity.millis_saturate, hamount, Cluster.largest]
  omega

theorem isDenied_iff (hneed : batchNeed changes = some need) {qs : List QuotaStatus} :
    IsDenied changes qs ↔ ∃ q ∈ qs, ¬ q.HasRoom need := by
  have hrefused : IsDenied changes qs ↔ ¬ judge need qs = .allowed := by
    rw [IsDenied, hneed]
    constructor
    · rintro ⟨quota, lack, hverdict⟩ hallowed
      rw [admission, Except.map, hallowed] at hverdict
      cases hverdict
    · intro hrefused
      cases hverdict : judge need qs with
      | allowed => exact absurd hverdict hrefused
      | denied quota lack => exact ⟨quota, lack, by rw [admission, Except.map, hverdict]⟩
  rw [hrefused, judge_allowed_iff]
  simp only [not_forall, exists_prop]

/-- **When a batch is denied.**  Where no amount is negative, no change is exempt and the changes
need something, a batch is denied if and only if with it, in exact numbers, more of some name is in
use than some quota object grants — not counting a name of which the largest amount is granted and
nothing is in use.  So the verdict is wrong if and only if some name is exceeded and all that are
exceeded are of that sort; the batch is allowed then. -/
theorem batch_denied_iff {changes : List (Workload × Int)} {qs : List QuotaStatus}
    (hlimits : ∀ c ∈ changes, c.1.HasLimits)
    (hexempt : ∀ c ∈ changes, c.1.isExempt c.2 = false)
    (hneed : (batchNeed changes).isSome = true) (hamounts : ∀ q ∈ qs, q.HasAmounts) :
    (IsDenied changes qs ↔
      ∃ q ∈ qs, ∃ name, q.Exceeded changes name ∧ ¬ q.IsUntouchedMost name) ∧
    (¬ (IsDenied changes qs ↔ ∃ q ∈ qs, ∃ name, q.Exceeded changes name) ↔
      (∃ q ∈ qs, ∃ name, q.Exceeded changes name) ∧
        ∀ q ∈ qs, ∀ name, q.Exceeded changes name → q.IsUntouchedMost name) := by
  obtain ⟨need, hneed⟩ := Option.isSome_iff_exists.1 hneed
  have hdenied : IsDenied changes qs ↔
      ∃ q ∈ qs, ∃ name, q.Exceeded changes name ∧ ¬ q.IsUntouchedMost name := by
    rw [isDenied_iff hneed]
    refine exists_congr fun q => and_congr_right fun hq => ?_
    simp only [QuotaStatus.HasRoom, not_forall, Int.not_le, exists_prop]
    refine exists_congr fun name => ?_
    constructor
    · rintro ⟨hname, hleft⟩
      exact (left_neg_iff hlimits hexempt hneed (hamounts q hq) hname).1 hleft
    · intro h
      exact ⟨h.1.1, (left_neg_iff hlimits hexempt hneed (hamounts q hq) h.1.1).2 h⟩
  refine ⟨hdenied, ?_⟩
  rw [hdenied]
  constructor
  · intro hwrong
    by_contra hright
    apply hwrong
    constructor
    · rintro ⟨q, hq, name, hname, -⟩
      exact ⟨q, hq, name, hname⟩
    · intro hexceeded
      by_contra hnone
      apply hright
      refine ⟨hexceeded, fun q hq name hname => ?_⟩
      by_contra hmost
      exact hnone ⟨q, hq, name, hname, hmost⟩
  · rintro ⟨hexceeded, hall⟩ hright
    obtain ⟨q, hq, name, hname, hmost⟩ := hright.2 hexceeded
    exact hmost (hall q hq name hname)

/-- Two changes that need more than the largest amount together are denied where a little less than
that is granted. -/
theorem batch_denied_iff_past_largest :
    let x : Workload :=
      { key := ⟨"shop", "api"⟩
        kind := .deployment
        spec := 1
        limits := Table.ofList [("cpu", .saturate 9000000000000000000)] }
    let changes := [(x, 1), ({ x with key := ⟨"shop", "web"⟩ }, 1)]
    let q : QuotaStatus :=
      { name := "compute"
        hard := Table.ofList [("limits.cpu", .saturate 9223372036854775806)]
        used := ∅ }
    ((∀ c ∈ changes, c.1.HasLimits) ∧ (∀ c ∈ changes, c.1.isExempt c.2 = false) ∧
      (batchNeed changes).isSome = true ∧ ∀ p ∈ [q], p.HasAmounts) ∧
    q.Exceeded changes "limits.cpu" ∧ IsDenied changes [q] := by
  intro x changes q
  have hlimits : ∀ c ∈ changes, c.1.HasLimits := by decide +kernel
  have hexempt : ∀ c ∈ changes, c.1.isExempt c.2 = false := by decide +kernel
  have hneed : (batchNeed changes).isSome = true := by decide +kernel
  have hamounts : ∀ p ∈ [q], p.HasAmounts := by decide +kernel
  have hexceeded : q.Exceeded changes "limits.cpu" := by decide +kernel
  have hmost : ¬ q.IsUntouchedMost "limits.cpu" := by decide +kernel
  refine ⟨⟨hlimits, hexempt, hneed, hamounts⟩, hexceeded, ?_⟩
  exact (batch_denied_iff hlimits hexempt hneed hamounts).1.2
    ⟨q, List.mem_singleton_self q, "limits.cpu", hexceeded, hmost⟩

/-- Twice the largest amount is allowed where the largest amount is granted. -/
theorem not_denied_at_largest :
    let x : Workload :=
      { key := ⟨"shop", "api"⟩
        kind := .deployment
        spec := 1
        limits := Table.ofList [("cpu", .saturate Cluster.largest)] }
    let q : QuotaStatus :=
      { name := "compute"
        hard := Table.ofList [("limits.cpu", .saturate Cluster.largest)]
        used := ∅ }
    (x.HasLimits ∧ x.isExempt 2 = false ∧ (batchNeed [(x, 2)]).isSome = true ∧ q.HasAmounts) ∧
    q.Exceeded [(x, 2)] "limits.cpu" ∧ ¬ IsDenied [(x, 2)] [q] ∧
    admission (batchNeed [(x, 2)]) (.ok [q]) = .ok .allowed := by
  intro x q
  have hallowed : admission (batchNeed [(x, 2)]) (.ok [q]) = .ok .allowed := by decide +kernel
  refine ⟨by decide +kernel, by decide +kernel, ?_, hallowed⟩
  rintro ⟨quota, lack, hdenied⟩
  rw [hallowed] at hdenied
  cases hdenied

end Quota

end ReplicaControl
