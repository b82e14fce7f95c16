import ReplicaControl.Proofs.Totals

/-!
# One change, alone and as a batch

A cycle puts its changes before the quotas as a batch, and an attempt each of its counts alone.  A
batch that needs nothing is let through unseen; a single change is seen unless it is exempt.

* `Workload.IsCounted` — a workload has a limit that quotas count; `isEmpty_needed_iff`: else, and
  only else, no number of its replicas needs anything.
* `Quota.batchNeed_eq_none_iff` — when a batch needs nothing.
* `QuotaStatus.IsKept` — no more is in use than a quota object grants; `Quota.judge_empty_iff`: an
  empty need is refused where an object is not kept.
* `Quota.paths_agree_iff` — when both ways give the same verdict; where they do not, the batch is
  let through.
-/

namespace ReplicaControl

theorem ResourceList.empty_add (a : ResourceList) : ResourceList.add ∅ a = a := by
  refine Table.ext_get? fun name => ?_
  rw [add, Table.get?_merge]
  cases a.get? name with
  | none => rfl
  | some q => exact congrArg some (Quantity.zero_add q)

/-- A sum has no names if and only if neither side has any. -/
theorem ResourceList.isEmpty_add (a b : ResourceList) :
    (a.add b).isEmpty = true ↔ a.isEmpty = true ∧ b.isEmpty = true := by
  simp only [Table.isEmpty_iff, add, Table.get?_merge]
  constructor
  · intro h
    have hb : ∀ name, b.get? name = none := by
      intro name
      have hname := h name
      cases hget : b.get? name with
      | none => rfl
      | some q => simp [hget] at hname
    refine ⟨fun name => ?_, hb⟩
    have hname := h name
    rwa [hb name] at hname
  · rintro ⟨ha, hb⟩ name
    rw [hb name]
    exact ha name

theorem ResourceList.isEmpty_foldl_add {α : Type} (f : α → ResourceList) (xs : List α)
    (sum : ResourceList) :
    (xs.foldl (fun sum x => ResourceList.add sum (f x)) sum).isEmpty = true ↔
      sum.isEmpty = true ∧ ∀ x ∈ xs, (f x).isEmpty = true := by
  induction xs generalizing sum with
  | nil => simp
  | cons x rest ih => rw [List.foldl_cons, ih, isEmpty_add, List.forall_mem_cons, and_assoc]

/-! ## Changes that need nothing -/

/-- A workload has a limit that quotas count. -/
def Workload.IsCounted (x : Workload) : Prop :=
  x.limits.contains "cpu" = true ∨ x.limits.contains "memory" = true

instance (x : Workload) : Decidable x.IsCounted := inferInstanceAs (Decidable (_ ∨ _))

theorem Quota.isSome_nameOfLimit? {limit : String} :
    (nameOfLimit? limit).isSome = true ↔ limit = "cpu" ∨ limit = "memory" := by
  unfold nameOfLimit?
  split
  · exact iff_of_true rfl (.inl ‹_›)
  · rename_i hcpu
    split
    · exact iff_of_true rfl (.inr ‹_›)
    · rename_i hmemory
      exact iff_of_false Bool.false_ne_true (not_or.2 ⟨hcpu, hmemory⟩)

/-- **Replicas of a workload need nothing if and only if quotas count none of its limits.** -/
theorem Workload.isEmpty_needed_iff (x : Workload) (n : Int) :
    (x.needed n).isEmpty = true ↔ ¬ x.IsCounted := by
  have hlisted : ∀ name, (x.needed n).contains name = true ↔
      ∃ e ∈ x.limits.entries, Quota.nameOfLimit? e.1 = some name := by
    intro name
    rw [needed, Table.contains_ofList, List.map_filterMap, List.mem_filterMap]
    simp
  have hlimit : ∀ limit, x.limits.contains limit = true ↔
      ∃ e ∈ x.limits.entries, e.1 = limit := by
    intro limit
    rw [Table.contains_eq_isSome, Option.isSome_iff_exists]
    constructor
    · rintro ⟨q, hq⟩
      exact ⟨(limit, q), (Table.mem_entries_iff _).2 hq, rfl⟩
    · rintro ⟨e, he, rfl⟩
      exact ⟨e.2, (Table.mem_entries_iff _).1 he⟩
  have hcounted : x.IsCounted ↔ ∃ e ∈ x.limits.entries,
      (Quota.nameOfLimit? e.1).isSome = true := by
    rw [IsCounted, hlimit, hlimit, ← exists_or]
    exact exists_congr fun e => by rw [← and_or_left, Quota.isSome_nameOfLimit?]
  rw [Table.isEmpty_iff, hcounted]
  constructor
  · rintro h ⟨e, he, hname⟩
    obtain ⟨name, hname⟩ := Option.isSome_iff_exists.1 hname
    have hcontains := (hlisted name).2 ⟨e, he, hname⟩
    rw [Table.contains_eq_isSome, h name] at hcontains
    cases hcontains
  · intro h name
    by_contra hsome
    obtain ⟨e, he, hname⟩ := (hlisted name).1 (Option.isSome_iff_ne_none.2 hsome)
    exact h ⟨e, he, by rw [hname]; rfl⟩

/-- No more is in use than a quota object grants. -/
def QuotaStatus.IsKept (q : QuotaStatus) : Prop :=
  ∀ e ∈ q.hard.entries, (q.used.amount e.1).millis ≤ e.2.millis

instance (q : QuotaStatus) : Decidable q.IsKept :=
  inferInstanceAs (Decidable (∀ e ∈ q.hard.entries, _))

namespace Quota

/-- **An empty need is refused if and only if more is in use than some quota object grants.** -/
theorem judge_empty_iff {qs : List QuotaStatus} :
    judge ∅ qs = .allowed ↔ ∀ q ∈ qs, q.IsKept := by
  rw [judge_allowed_iff]
  refine forall₂_congr fun q _ => ?_
  rw [hasRoom_iff, QuotaStatus.IsKept, Prod.forall, forall₂_congr]
  intro name most
  rw [Table.mem_entries_iff]
  refine imp_congr_right fun _ => ?_
  show 0 ≤ (most - q.used.amount name - 0).millis ↔ (q.used.amount name).millis ≤ most.millis
  rw [Quantity.sub_zero, Quantity.millis_sub, Quantity.millis_saturate]
  omega

/-- **A batch needs nothing if and only if quotas count no limit of the changes that are not
exempt.** -/
theorem batchNeed_eq_none_iff {changes : List (Workload × Int)} :
    batchNeed changes = none ↔
      ∀ c ∈ changes, c.1.isExempt c.2 = false → ¬ c.1.IsCounted := by
  have hempty := ResourceList.isEmpty_foldl_add (fun c : Workload × Int => c.1.needed c.2)
    (changes.filter fun c => !c.1.isExempt c.2) ∅
  have hnone : batchNeed changes = none ↔ ((changes.filter fun c => !c.1.isExempt c.2).foldl
      (fun sum c => ResourceList.add sum (c.1.needed c.2)) ∅).isEmpty = true := by
    simp only [batchNeed]
    split
    · exact iff_of_true rfl ‹_›
    · exact iff_of_false nofun ‹_›
  rw [hnone, hempty, and_iff_right (by rfl)]
  simp only [List.mem_filter, Bool.not_eq_true', and_imp, Workload.isEmpty_needed_iff]

/-! ## Both ways -/

/-- The need of a batch of one change: none if the change is exempt or needs nothing. -/
theorem batchNeed_singleton (x : Workload) (n : Int) :
    batchNeed [(x, n)] =
      if x.isExempt n = true ∨ ¬ x.IsCounted then none else some (x.needed n) := by
  cases hexempt : x.isExempt n with
  | true =>
    have hnone : ([(x, n)].filter fun c => !c.1.isExempt c.2) = [] := by simp [hexempt]
    simp only [batchNeed, hnone, true_or, if_true]
    rfl
  | false =>
    have htotal : ([(x, n)].filter fun c => !c.1.isExempt c.2).foldl
        (fun sum c => ResourceList.add sum (c.1.needed c.2)) ∅ = x.needed n := by
      simp [hexempt, ResourceList.empty_add]
    simp only [batchNeed, htotal, x.isEmpty_needed_iff n, Bool.false_eq_true, false_or]

/-- The verdict on a batch of one change: the verdict on the change alone, if the change is exempt
or needs something. -/
theorem admission_batchNeed_singleton (x : Workload) (n : Int)
    (source : Except QuotaError (List QuotaStatus)) :
    admission (batchNeed [(x, n)]) source =
      if x.isExempt n = true ∨ x.IsCounted then admission (itemNeed x n) source
      else .ok .allowed := by
  rw [batchNeed_singleton, itemNeed]
  by_cases hexempt : x.isExempt n = true
  · rw [if_pos (.inl hexempt), if_pos (.inl hexempt), if_pos hexempt]
  · by_cases hcounted : x.IsCounted
    · rw [if_neg (by simp [hexempt, hcounted]), if_pos (.inr hcounted), if_neg hexempt]
    · rw [if_pos (.inr hcounted), if_neg (by simp [hexempt, hcounted])]
      rfl

/-- **When a change alone and as a batch of one gets the same verdict.**  It does if it is exempt,
if quotas count a limit of its workload, or if the quotas can be read and no more is in use than
they grant; and in no other case.  Then the batch is let through although the change alone
is not. -/
theorem paths_agree_iff (x : Workload) (n : Int)
    (source : Except QuotaError (List QuotaStatus)) :
    (admission (batchNeed [(x, n)]) source = admission (itemNeed x n) source ↔
      x.isExempt n = true ∨ x.IsCounted ∨ ∃ qs, source = .ok qs ∧ ∀ q ∈ qs, q.IsKept) ∧
    (admission (batchNeed [(x, n)]) source = admission (itemNeed x n) source ∨
      admission (batchNeed [(x, n)]) source = .ok .allowed) := by
  rw [admission_batchNeed_singleton]
  by_cases hseen : x.isExempt n = true ∨ x.IsCounted
  · rw [if_pos hseen]
    exact ⟨iff_of_true rfl (or_assoc.1 (.inl hseen)), .inl rfl⟩
  · rw [if_neg hseen]
    obtain ⟨hexempt, hcounted⟩ := not_or.1 hseen
    have hneed : x.needed n = ∅ :=
      Table.ext_get? (Table.isEmpty_iff.1 ((x.isEmpty_needed_iff n).2 hcounted))
    refine ⟨?_, .inr rfl⟩
    rw [itemNeed, if_neg hexempt, hneed, or_iff_right hexempt, or_iff_right hcounted]
    cases source with
    | error e => exact iff_of_false nofun nofun
    | ok qs =>
      show Except.ok Admission.allowed = Except.ok (judge ∅ qs) ↔ _
      rw [Except.ok.injEq, eq_comm, judge_empty_iff]
      exact ⟨fun h => ⟨qs, rfl, h⟩, fun ⟨_, heq, h⟩ => Except.ok.inj heq ▸ h⟩

/-- A workload without limits grows where more is in use than granted, and where the quotas cannot
be read. -/
theorem not_paths_agree_without_limits :
    let x : Workload := { key := ⟨"shop", "api"⟩, kind := .deployment, spec := 1 }
    let exceeded : QuotaStatus :=
      { name := "compute"
        hard := Table.ofList [("limits.cpu", .ofUnits 4)]
        used := Table.ofList [("limits.cpu", .ofUnits 5)] }
    let unread : QuotaError := ⟨"shop", "api unavailable"⟩
    admission (batchNeed [(x, 2)]) (.ok [exceeded]) = .ok .allowed ∧
      admission (itemNeed x 2) (.ok [exceeded]) =
        .ok (.denied "compute" (Table.ofList [("limits.cpu", .ofUnits (-1))])) ∧
      admission (batchNeed [(x, 2)]) (.error unread) = .ok .allowed ∧
      admission (itemNeed x 2) (.error unread) = .error unread := by
  decide +kernel

end Quota

end ReplicaControl
