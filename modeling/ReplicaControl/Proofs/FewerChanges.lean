import Mathlib.Data.List.Perm.Basic
import ReplicaControl.Proofs.AdmissionPaths

/-!
# Fewer changes, in any order

What is allowed stays allowed when changes are left out or ask for fewer replicas, and the order of
the changes of a batch does not matter.  Neither is plain: a change that asks for fewer replicas may
become exempt, the rest may need nothing at all, and sums of amounts saturate.

* `QuotaStatus.HasRoom.of_le`, `Quota.admission_allowed_of_le` — what has room for a need has room
  for a smaller one, and none is smaller than any.
* `Quota.Lowers` — the changes of a batch that are left, each with the same count or a lower one;
  `gross_le`: they need no more under any name.
* `ResourceList.add_right_comm` — two lists without negative amounts may be added to a third in
  either order.
* `Quota.allowed_of_lowers`, `batchNeed_perm`, `item_allowed_of_le` — the parts of the main theorem,
  `admission_downward_closed`.
-/

namespace ReplicaControl

/-! ## Smaller needs -/

/-- What has room for a need has room for a smaller one. -/
theorem QuotaStatus.HasRoom.of_le {q : QuotaStatus} {need low : ResourceList} (h : q.HasRoom need)
    (hle : ∀ name, (low.amount name).millis ≤ (need.amount name).millis) : q.HasRoom low := by
  intro name hname
  have hroom := h name hname
  have hle := hle name
  simp only [left, Quantity.millis_saturate] at hroom ⊢
  omega

namespace Quota

theorem judge_allowed_of_le {need low : ResourceList} {qs : List QuotaStatus}
    (h : judge need qs = .allowed)
    (hle : ∀ name, (low.amount name).millis ≤ (need.amount name).millis) :
    judge low qs = .allowed := by
  rw [judge_allowed_iff] at h ⊢
  intro q hq
  exact (h q hq).of_le hle

/-- **A smaller need is allowed where a need is**, and so is none. -/
theorem admission_allowed_of_le {need low : Option ResourceList}
    {source : Except QuotaError (List QuotaStatus)} (h : admission need source = .ok .allowed)
    (hle : ∀ l, low = some l → ∃ n, need = some n ∧
      ∀ name, (l.amount name).millis ≤ (n.amount name).millis) :
    admission low source = .ok .allowed := by
  cases low with
  | none => rfl
  | some l =>
    obtain ⟨n, rfl, hless⟩ := hle l rfl
    cases source with
    | error e => cases h
    | ok qs =>
      have hn : judge n qs = .allowed := Except.ok.inj h
      exact congrArg Except.ok (judge_allowed_of_le hn hless)

end Quota

/-! ## Lowered changes -/

/-- A count that is lowered further stays exempt. -/
theorem Workload.isExempt_of_le {x : Workload} {n low : Int} (h : x.isExempt n = true)
    (hle : low ≤ n) : x.isExempt low = true := by
  simp only [isExempt, Bool.and_eq_true, decide_eq_true_eq] at h ⊢
  exact ⟨h.1, by omega⟩

namespace Quota

variable {fewer other changes : List (Workload × Int)} {name : String}

/-- The changes of a batch that are left, in order, each with the same count or a lower one. -/
def Lowers : List (Workload × Int) → List (Workload × Int) → Prop :=
  List.SublistForall₂ fun low c => low.1 = c.1 ∧ low.2 ≤ c.2

theorem Lowers.exists_mem (h : Lowers fewer changes) {low : Workload × Int} (hlow : low ∈ fewer) :
    ∃ c ∈ changes, low.1 = c.1 ∧ low.2 ≤ c.2 := by
  induction h with
  | nil => cases hlow
  | cons hc _ ih =>
    rcases List.mem_cons.1 hlow with rfl | hlow
    · exact ⟨_, List.mem_cons_self, hc⟩
    · obtain ⟨c, hmem, hc⟩ := ih hlow
      exact ⟨c, List.mem_cons_of_mem _ hmem, hc⟩
  | cons_right _ ih =>
    obtain ⟨c, hmem, hc⟩ := ih hlow
    exact ⟨c, List.mem_cons_of_mem _ hmem, hc⟩

theorem Lowers.hasLimits (h : Lowers fewer changes) (hlimits : ∀ c ∈ changes, c.1.HasLimits) :
    ∀ low ∈ fewer, low.1.HasLimits := by
  intro low hlow
  obtain ⟨c, hc, heq, -⟩ := h.exists_mem hlow
  exact heq ▸ hlimits c hc

/-- What the changes of a batch that are not exempt need under a name. -/
def gross (changes : List (Workload × Int)) (name : String) : Int :=
  ((changes.filter fun c => !c.1.isExempt c.2).map fun c => c.1.load c.2 name).sum

/-- What a change adds to the need of a batch under a name. -/
def share (c : Workload × Int) (name : String) : Int :=
  if c.1.isExempt c.2 then 0 else c.1.load c.2 name

theorem gross_cons (c : Workload × Int) (changes : List (Workload × Int)) (name : String) :
    gross (c :: changes) name = share c name + gross changes name := by
  unfold gross share
  cases hexempt : c.1.isExempt c.2 <;> simp [hexempt]

theorem share_nonneg {c : Workload × Int} (h : c.1.HasLimits) (name : String) :
    0 ≤ share c name := by
  unfold share
  split
  · exact Int.le_refl 0
  · exact Workload.load_nonneg h c.2 name

/-- A lowered change adds no more than before.  It may become exempt, but never ceases to be. -/
theorem share_le {low c : Workload × Int} (h : c.1.HasLimits) (heq : low.1 = c.1)
    (hle : low.2 ≤ c.2) (name : String) : share low name ≤ share c name := by
  obtain ⟨x, n⟩ := low
  obtain rfl : x = c.1 := heq
  cases hexempt : c.1.isExempt c.2 with
  | true =>
    have hlow := Workload.isExempt_of_le hexempt hle
    simp [share, hexempt, hlow]
  | false =>
    cases hlow : c.1.isExempt n with
    | true => simpa [share, hlow] using share_nonneg h name
    | false => simpa [share, hexempt, hlow] using Workload.load_mono h hle name

/-- **Lowered changes need no more under any name.** -/
theorem gross_le (h : Lowers fewer changes) (hlimits : ∀ c ∈ changes, c.1.HasLimits)
    (name : String) : gross fewer name ≤ gross changes name := by
  have hnonneg : ∀ {changes : List (Workload × Int)}, (∀ c ∈ changes, c.1.HasLimits) →
      0 ≤ gross changes name := by
    intro changes hlimits
    refine List.sum_nonneg fun n hn => ?_
    obtain ⟨c, hc, rfl⟩ := List.mem_map.1 hn
    exact Workload.load_nonneg (hlimits c (List.mem_filter.1 hc).1) c.2 name
  induction h with
  | nil => exact hnonneg hlimits
  | cons hc _ ih =>
    obtain ⟨hfirst, hrest⟩ := List.forall_mem_cons.1 hlimits
    have hshare := share_le hfirst hc.1 hc.2 name
    have hgross := ih hrest
    rw [gross_cons, gross_cons]
    omega
  | cons_right _ ih =>
    obtain ⟨hfirst, hrest⟩ := List.forall_mem_cons.1 hlimits
    have hshare := share_nonneg hfirst name
    have hgross := ih hrest
    rw [gross_cons]
    omega

/-- **What is allowed stays allowed when changes are left out or lowered.** -/
theorem allowed_of_lowers {source : Except QuotaError (List QuotaStatus)}
    (h : Lowers fewer changes) (hlimits : ∀ c ∈ changes, c.1.HasLimits)
    (hallowed : admission (batchNeed changes) source = .ok .allowed) :
    admission (batchNeed fewer) source = .ok .allowed := by
  refine admission_allowed_of_le hallowed fun l hl => ?_
  cases hn : batchNeed changes with
  | none =>
    -- a change that needs something was there before, and it was not exempt
    have hnone : batchNeed fewer = none := by
      rw [batchNeed_eq_none_iff] at hn ⊢
      intro low hlow hexempt
      obtain ⟨c, hc, heq, hle⟩ := h.exists_mem hlow
      rw [heq] at hexempt ⊢
      refine hn c hc ?_
      by_contra hc
      rw [Bool.not_eq_false] at hc
      rw [Workload.isExempt_of_le hc hle] at hexempt
      cases hexempt
    rw [hnone] at hl
    cases hl
  | some n =>
    refine ⟨n, rfl, fun name => ?_⟩
    have hgross := gross_le h hlimits name
    rw [amount_batchNeed (h.hasLimits hlimits) hl, amount_batchNeed hlimits hn]
    unfold gross at hgross
    omega

/-- **A count that is allowed stays allowed when it is lowered.** -/
theorem item_allowed_of_le {x : Workload} {n low : Int}
    {source : Except QuotaError (List QuotaStatus)} (h : x.HasLimits) (hle : low ≤ n)
    (hallowed : admission (itemNeed x n) source = .ok .allowed) :
    admission (itemNeed x low) source = .ok .allowed := by
  refine admission_allowed_of_le hallowed fun l hl => ?_
  unfold itemNeed at hl ⊢
  split at hl
  · cases hl
  · rename_i hlow
    rw [if_neg fun hexempt => hlow (Workload.isExempt_of_le hexempt hle)]
    obtain rfl := Option.some.inj hl
    exact ⟨x.needed n, rfl, Workload.amount_needed_mono h hle⟩

end Quota

/-! ## The order of changes -/

/-- Amounts that are not negative may be added to any amount in either order: the sums saturate
upwards only. -/
theorem Quantity.add_right_comm {a b c : Quantity} (hb : 0 ≤ b.millis) (hc : 0 ≤ c.millis) :
    a + b + c = a + c + b := by
  have hrange := a.inRange
  unfold InRange at hrange
  ext
  simp only [millis_add, millis_saturate]
  omega

theorem ResourceList.add_right_comm {a b c : ResourceList}
    (hb : ∀ name, 0 ≤ (b.amount name).millis) (hc : ∀ name, 0 ≤ (c.amount name).millis) :
    (a.add b).add c = (a.add c).add b := by
  refine Table.ext_get? fun name => ?_
  have hb := hb name
  have hc := hc name
  unfold amount at hb hc
  simp only [add, Table.get?_merge]
  cases hgetb : b.get? name with
  | none => rfl
  | some p =>
    cases hgetc : c.get? name with
    | none => rfl
    | some q =>
      rw [hgetb] at hb
      rw [hgetc] at hc
      exact congrArg some (Quantity.add_right_comm hb hc)

namespace Quota

variable {fewer other changes : List (Workload × Int)}

/-- **The order of the changes does not matter for the need of a batch.** -/
theorem batchNeed_perm (h : other.Perm changes) (hlimits : ∀ c ∈ changes, c.1.HasLimits) :
    batchNeed other = batchNeed changes := by
  have hsum : (other.filter fun c => !c.1.isExempt c.2).foldl
      (fun sum c => ResourceList.add sum (c.1.needed c.2)) ∅ =
      (changes.filter fun c => !c.1.isExempt c.2).foldl
        (fun sum c => ResourceList.add sum (c.1.needed c.2)) ∅ := by
    refine (h.filter _).foldl_eq' (fun b hb c hc a => ?_) ∅
    have hlimits : ∀ d ∈ other.filter (fun c => !c.1.isExempt c.2), d.1.HasLimits :=
      fun d hd => hlimits d (h.mem_iff.1 (List.mem_filter.1 hd).1)
    exact ResourceList.add_right_comm (Workload.amount_needed_nonneg (hlimits b hb) b.2)
      (Workload.amount_needed_nonneg (hlimits c hc) c.2)
  rw [batchNeed, batchNeed, hsum]

/-- **Fewer and smaller changes are allowed as well, in any order.**  Whatever the quota source
answers, and where no workload has a negative limit: if a batch is allowed, so is every batch that
leaves changes out or lowers their counts; a batch gets the same verdict, with the same quota object
and the same shortfall, or the same error, in every order; and if a count is allowed for a workload,
so is every lower one. -/
theorem admission_downward_closed (source : Except QuotaError (List QuotaStatus)) :
    (∀ changes : List (Workload × Int), (∀ c ∈ changes, c.1.HasLimits) →
      (∀ fewer, Lowers fewer changes → admission (batchNeed changes) source = .ok .allowed →
        admission (batchNeed fewer) source = .ok .allowed) ∧
      ∀ other, other.Perm changes →
        admission (batchNeed other) source = admission (batchNeed changes) source) ∧
    ∀ x : Workload, x.HasLimits → ∀ n low, low ≤ n →
      admission (itemNeed x n) source = .ok .allowed →
      admission (itemNeed x low) source = .ok .allowed := by
  refine ⟨fun changes hlimits => ⟨?_, ?_⟩, ?_⟩
  · intro fewer hfewer hallowed
    exact allowed_of_lowers hfewer hlimits hallowed
  · intro other hperm
    rw [batchNeed_perm hperm hlimits]
  · intro x hlimits n low hle hallowed
    exact item_allowed_of_le hlimits hle hallowed

/-- Of a batch that fits one change alone fits, lowered until it is exempt; so does the batch in the
other order, and so do fewer replicas of the first workload. -/
theorem admission_downward_closed_two_changes :
    let api : Workload :=
      { key := ⟨"shop", "api"⟩
        kind := .deployment
        annotations := Table.ofList [(Workload.autoscalingMark, "true")]
        spec := 3
        limits := Table.ofList [("cpu", .ofUnits 1)] }
    let web : Workload := { api with key := ⟨"shop", "web"⟩, annotations := ∅, spec := 1 }
    let source : Except QuotaError (List QuotaStatus) := .ok
      [{ name := "compute"
         hard := Table.ofList [("limits.cpu", .ofUnits 12)]
         used := Table.ofList [("limits.cpu", .ofUnits 5)] }]
    admission (batchNeed [(api, 4), (web, 3)]) source = .ok .allowed ∧
      admission (batchNeed [(api, 3)]) source = .ok .allowed ∧
      admission (batchNeed [(web, 3), (api, 4)]) source =
        admission (batchNeed [(api, 4), (web, 3)]) source ∧
      admission (itemNeed api 5) source = .ok .allowed := by
  intro api web source
  have hlimits : ∀ c ∈ [(api, (4 : Int)), (web, 3)], c.1.HasLimits := by decide +kernel
  have hallowed : admission (batchNeed [(api, 4), (web, 3)]) source = .ok .allowed := by
    decide +kernel
  have hitem : admission (itemNeed api 7) source = .ok .allowed := by decide +kernel
  have hlowers : Lowers [(api, 3)] [(api, 4), (web, 3)] := .cons ⟨rfl, by decide⟩ .nil
  obtain ⟨hbatch, hcount⟩ := admission_downward_closed source
  obtain ⟨hfewer, hperm⟩ := hbatch _ hlimits
  refine ⟨hallowed, hfewer _ hlowers hallowed, hperm _ (List.Perm.swap _ _ _), ?_⟩
  exact hcount api (by decide +kernel) 7 5 (by decide) hitem

end Quota

end ReplicaControl
