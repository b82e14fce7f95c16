import ReplicaControl.Proofs.AdmissionPaths
import ReplicaControl.Proofs.Decisions

/-!
# Exempt changes in a batch

A change that only lowers the count of a workload that may be autoscaled is exempt: quotas do not
count it.  But a cycle puts all changes before the quotas as one batch.

* `Cycle.needOf_filter`, `needOf_of_not_counted` — only the changes that are not exempt, and of them
  only those with limits that quotas count, matter for the need of a batch.
* `Cycle.launched_mem_launchAll_iff` — of the changes of a batch that is let through the first one
  of every key is launched.
* `Cycle.decision_of_refused`, `launched_of_allowed` — the decisions on a due workload, in either
  case of the verdict; `decided_with_batch` has both.
* `Cycle.ofNamespace_ok` — what a cycle for a namespace that does not give up has gone over.
* `Cycle.exempt_launched_iff` — the main theorem.
-/

namespace ReplicaControl

/-- A cluster declares and selects one state for a namespace at most. -/
theorem Cluster.Resolves.unique {c : Cluster} {ns : String} {state state' : State}
    (h : c.Resolves ns state) (h' : c.Resolves ns state') : state = state' := by
  obtain ⟨-, cluster, selected, hc, hs, hch⟩ := h
  obtain ⟨-, cluster', selected', hc', hs', hch'⟩ := h'
  cases hc.symm.trans hc'
  cases hs.symm.trans hs'
  exact Except.ok.inj (hch.symm.trans hch')

/-- The state that holds in a namespace has a name. -/
theorem Cluster.Resolves.name_ne {c : Cluster} {ns : String} {state : State}
    (h : c.Resolves ns state) : state.name ≠ "" := by
  obtain ⟨-, cluster, selected, -, -, hch⟩ := h
  unfold NamespaceState.choose at hch
  split at hch
  · cases hch
  · dsimp only at hch
    split at hch
    · cases hch
    · rename_i hne
      cases hch
      simpa [State.isEmpty] using hne

namespace Cycle

variable {s : Settings} {w : World} {ns : String} {state : State} {items : List Workload}
  {changes : List Launch} {x : Workload} {t : Target} {d : Decision}

/-! ## The need of a batch -/

/-- Whether a change lowers or keeps the count of a workload that may be autoscaled. -/
def isExempt (c : Launch) : Bool := c.1.isExempt c.2.replicas

/-- Only the changes that are not exempt matter for the need of a batch. -/
theorem needOf_filter (changes : List Launch) :
    needOf (changes.filter fun c => !isExempt c) = needOf changes := by
  simp only [needOf, Quota.batchNeed, List.filter_map, List.filter_filter, Function.comp_def,
    isExempt, Bool.and_self]

/-- A batch needs nothing if quotas count no limit of the changes that are not exempt. -/
theorem needOf_of_not_counted (h : ∀ c ∈ changes, isExempt c = false → ¬ c.1.IsCounted) :
    needOf changes = none := by
  rw [needOf, Quota.batchNeed_eq_none_iff]
  simp only [List.forall_mem_map]
  exact h

/-! ## Launches of a batch -/

theorem launchAll_cons_of_isFree {y : Workload} (h : w.registry.IsFree y.key) :
    (launchAll w ((y, t) :: changes)).1.1 =
      (settlement (.ok .allowed) (y, t)).about y :: (launchAll { w with
        registry := w.registry.insert y.key (Registry.started y t.replicas) } changes).1.1 := by
  simp only [launchAll, Registry.claim_of_isFree h]
  rfl

theorem launchAll_cons_of_busy {y : Workload} (h : ¬ w.registry.IsFree y.key) (t : Target)
    (changes : List Launch) :
    ∃ hasFailed, (launchAll w ((y, t) :: changes)).1.1 =
      (Decision.deferred t.replicas hasFailed).about y :: (launchAll { w with
        registry := w.registry.retarget y.key t.replicas } changes).1.1 := by
  rcases w.registry.claim_cases y t.replicas with ⟨-, hc⟩ | ⟨-, -, hc⟩ | ⟨hi, hf, -⟩
  · exact ⟨false, by simp [launchAll, hc]⟩
  · exact ⟨true, by simp [launchAll, hc]⟩
  · exact absurd ⟨hi, hf⟩ h

/-- **Of the changes of a batch that is let through, the first one of every key is launched**,
unless somebody is at work on the key. -/
theorem launched_mem_launchAll_iff {start n : Int} {name : String} :
    (Decision.launched start n name).about x ∈ (launchAll w changes).1.1 ↔
      w.registry.IsFree x.key ∧ ∃ c, changes.find? (fun l => l.1.key == x.key) = some c ∧
        (Decision.launched start n name).about x = (settlement (.ok .allowed) c).about c.1 := by
  induction changes generalizing w with
  | nil => simp [launchAll]
  | cons change rest ih =>
    obtain ⟨y, t⟩ := change
    by_cases hfree : w.registry.IsFree y.key
    · rw [launchAll_cons_of_isFree hfree, List.mem_cons, ih]
      by_cases hkey : y.key = x.key
      · -- the key is taken from here on
        have hbusy : ¬ Registry.IsFree (w.registry.insert y.key
            (Registry.started y t.replicas)) x.key := by
          intro h
          have := h.1
          rw [Registry.isInFlight_insert, if_pos hkey.symm] at this
          cases this
        simp only [hbusy, false_and, or_false]
        simp [hkey, hkey ▸ hfree]
      · have hstays : Registry.IsFree (w.registry.insert y.key
            (Registry.started y t.replicas)) x.key ↔ w.registry.IsFree x.key := by
          have hget : Table.get? (w.registry.insert y.key (Registry.started y t.replicas)) x.key =
              w.registry.get? x.key := Table.get?_insert_of_ne _ (Ne.symm hkey) _
          exact ⟨fun h => h.of_get?_eq hget.symm, fun h => h.of_get?_eq hget⟩
        have hother : (Decision.launched start n name).about x ≠
            (settlement (.ok .allowed) (y, t)).about y := fun h =>
          hkey (congrArg ItemDecision.key h).symm
        rw [hstays, or_iff_right hother, List.find?_cons_of_neg (by simpa using hkey)]
    · obtain ⟨hasFailed, heq⟩ := launchAll_cons_of_busy hfree t rest
      have hother : (Decision.launched start n name).about x ≠
          (Decision.deferred t.replicas hasFailed).about y := by
        intro h
        cases congrArg ItemDecision.decision h
      rw [heq, List.mem_cons, ih, Registry.isFree_retarget, or_iff_right hother]
      by_cases hkey : y.key = x.key
      · simp [hkey ▸ hfree]
      · rw [List.find?_cons_of_neg (by simpa using hkey)]

/-- A batch that is let through consists of launches and deferrals. -/
theorem launchAll_decision {i : ItemDecision} (hi : i ∈ (launchAll w changes).1.1) :
    (∃ start n name, i.decision = .launched start n name) ∨
      ∃ n hasFailed, i.decision = .deferred n hasFailed := by
  induction changes generalizing w with
  | nil => cases hi
  | cons change rest ih =>
    obtain ⟨y, t⟩ := change
    by_cases hfree : w.registry.IsFree y.key
    · rw [launchAll_cons_of_isFree hfree] at hi
      rcases List.mem_cons.1 hi with rfl | hi
      · exact .inl ⟨_, _, _, rfl⟩
      · exact ih hi
    · obtain ⟨hasFailed, heq⟩ := launchAll_cons_of_busy hfree t rest
      rw [heq] at hi
      rcases List.mem_cons.1 hi with rfl | hi
      · exact .inr ⟨_, _, rfl⟩
      · exact ih hi

/-! ## Decisions on a due workload -/

/-- A due workload is decided on together with the batch. -/
theorem decision_mem_iff_of_due (hid : ∀ y ∈ items, y.id = x.id → y = x)
    (hdue : triage w.registry state x = .inr t) :
    d.about x ∈ (ofWorkloads w ns state items).1.items ↔
      d.about x ∈ (settleBatch (assessAll w state items).2 ns
        (batchOf w.registry state items)).1.1 := by
  obtain ⟨hfst, -⟩ := assessAll_eq state items w
  rw [ofWorkloads_items, hfst, List.mem_append]
  refine or_iff_right fun himmediate => ?_
  obtain ⟨y, hy, hyd⟩ := List.mem_filterMap.1 himmediate
  obtain ⟨d', htriage, heq⟩ := Option.map_eq_some_iff.1 hyd
  obtain ⟨hkey, hkind, -⟩ := ItemDecision.mk.inj heq
  obtain rfl := hid y hy (by rw [Workload.id, hkey, hkind, Workload.id])
  rw [hdue] at htriage
  cases htriage

/-- **A due workload gets the decision that goes with the verdict if the batch is not let
through.** -/
theorem decision_of_refused (hx : x ∈ items) (hid : ∀ y ∈ items, y.id = x.id → y = x)
    (hdue : triage w.registry state x = .inr t)
    (hrefused : verdictOn w ns state items ≠ .ok .allowed) :
    d.about x ∈ (ofWorkloads w ns state items).1.items ↔
      d = settlement (verdictOn w ns state items) (x, t) := by
  rw [decision_mem_iff_of_due hid hdue, settleBatch_of_refused (by rwa [admission_assessAll]),
    admission_assessAll, List.mem_map]
  constructor
  · rintro ⟨⟨y, t'⟩, hc, heq⟩
    obtain ⟨hy, htriage⟩ := mem_batchOf.1 hc
    obtain ⟨hkey, hkind, hd⟩ := ItemDecision.mk.inj heq
    obtain rfl : y = x := hid y hy (by rw [Workload.id, hkey, hkind, Workload.id])
    cases hdue.symm.trans htriage
    exact hd.symm
  · rintro rfl
    exact ⟨(x, t), mem_batchOf.2 ⟨hx, hdue⟩, rfl⟩

/-- **A due workload is launched with a batch that is let through if the first change of its key is
its own.** -/
theorem launched_of_allowed (hx : x ∈ items) (hid : ∀ y ∈ items, y.id = x.id → y = x)
    (hdue : triage w.registry state x = .inr t)
    (hallowed : verdictOn w ns state items = .ok .allowed) :
    ((Decision.launched x.spec t.replicas t.state).about x ∈
        (ofWorkloads w ns state items).1.items ↔
      (batchOf w.registry state items).find? (fun l => l.1.key == x.key) = some (x, t)) ∧
    ∀ d : Decision, d.about x ∈ (ofWorkloads w ns state items).1.items →
      (∃ start n name, d = .launched start n name) ∨ ∃ n hasFailed, d = .deferred n hasFailed := by
  have hsettle := settleBatch_of_allowed ((admission_assessAll w ns state items).trans hallowed)
  simp only [decision_mem_iff_of_due hid hdue, hsettle]
  refine ⟨?_, fun d hd => launchAll_decision hd⟩
  have hmem : (x, t) ∈ batchOf w.registry state items := mem_batchOf.2 ⟨hx, hdue⟩
  have hfree : ((assessAll w state items).2.admission ns
      (needOf (batchOf w.registry state items))).2.registry.IsFree x.key := by
    rw [(World.admission_asked ..).registry, (assessAll_eq state items w).2]
    exact isFree_of_mem_batchOf hmem
  rw [launched_mem_launchAll_iff, and_iff_right hfree]
  constructor
  · rintro ⟨⟨y, t'⟩, hfind, heq⟩
    obtain ⟨hy, htriage⟩ := mem_batchOf.1 (List.mem_of_find?_eq_some hfind)
    obtain ⟨hkey, hkind, -⟩ := ItemDecision.mk.inj heq
    obtain rfl : y = x := hid y hy (by rw [Workload.id, ← hkey, ← hkind, Workload.id])
    cases hdue.symm.trans htriage
    exact hfind
  · exact fun hfind => ⟨(x, t), hfind, rfl⟩

/-- **What a cycle decides on a due workload**: it is launched with a batch that is let through, and
denied or failed with the others if the quotas refuse the batch or cannot be read. -/
theorem decided_with_batch (hx : x ∈ items) (hid : ∀ y ∈ items, y.id = x.id → y = x)
    (hdue : triage w.registry state x = .inr t) :
    ((Decision.launched x.spec t.replicas t.state).about x ∈
        (ofWorkloads w ns state items).1.items ↔
      verdictOn w ns state items = .ok .allowed ∧
        (batchOf w.registry state items).find? (fun l => l.1.key == x.key) = some (x, t)) ∧
    (∀ m, (Decision.quotaDenied m).about x ∈ (ofWorkloads w ns state items).1.items ↔
      m = t.replicas ∧
        ∃ quota shortfall, verdictOn w ns state items = .ok (.denied quota shortfall)) ∧
    ∀ m, (Decision.failed m).about x ∈ (ofWorkloads w ns state items).1.items ↔
      ∃ e, verdictOn w ns state items = .error e ∧ m = e.message := by
  by_cases hallowed : verdictOn w ns state items = .ok .allowed
  · obtain ⟨hlaunched, honly⟩ := launched_of_allowed hx hid hdue hallowed
    refine ⟨hlaunched.trans (and_iff_right hallowed).symm, fun m => ?_, fun m => ?_⟩
    · refine iff_of_false (fun h => ?_) (by simp [hallowed])
      rcases honly _ h with ⟨_, _, _, h⟩ | ⟨_, _, h⟩ <;> cases h
    · refine iff_of_false (fun h => ?_) (by simp [hallowed])
      rcases honly _ h with ⟨_, _, _, h⟩ | ⟨_, _, h⟩ <;> cases h
  · simp only [decision_of_refused hx hid hdue hallowed]
    generalize verdictOn w ns state items = verdict at hallowed ⊢
    rcases verdict with e | _ | ⟨quota, shortfall⟩
    · simp [settlement]
    · exact absurd rfl hallowed
    · simp [settlement]

/-! ## Cycles for a namespace -/

theorem listAll_ok {kinds : List Kind} (h : (listAll w ns kinds).1 = .ok items) :
    items = kinds.flatMap fun k => w.cluster.list k ns selector := by
  induction kinds generalizing w items with
  | nil => exact (Except.ok.inj h).symm
  | cons kind rest ih =>
    have ha := w.listWorkloads_asked kind ns selector
    unfold listAll at h
    split at h
    · cases h
    · rename_i listed w₁ hl
      rw [hl] at ha
      obtain rfl := World.listWorkloads_ok (congrArg Prod.fst hl)
      split at h
      · cases h
      · rename_i others w₂ hr
        cases h
        rw [ih (congrArg Prod.fst hr), ha.cluster, List.flatMap_cons]

/-- A cycle for a namespace that does not give up has gone over the workloads of the namespace that
are of the enabled kinds and under control, for the state that holds there. -/
theorem ofNamespace_ok {c : Cycle} (h : (ofNamespace s w ns).1 = .ok c) :
    ∃ state w₁, w.Asked w₁ ∧ w.cluster.Resolves ns state ∧
      let items := s.enabledKinds.flatMap fun k => w.cluster.list k ns selector
      c = (ofWorkloads w₁ ns state items).1 ∧
        proposed s w ns = (batchOf w.registry state items, (assessAll w₁ state items).2) := by
  have ha := NamespaceState.resolve_asked w ns
  unfold ofNamespace at h
  unfold proposed
  rcases hr : NamespaceState.resolve w ns with ⟨e | state, w₁⟩ <;> rw [hr] at h ha
  · cases h
  · have hresolves := NamespaceState.resolve_ok (congrArg Prod.fst hr)
    have ha₂ := ha.trans (listAll_asked ns s.enabledKinds w₁)
    dsimp only at h ⊢
    rcases hl : listAll w₁ ns s.enabledKinds with ⟨e | items, w₂⟩ <;> rw [hl] at h ha₂
    · cases h
    · cases h
      obtain rfl := listAll_ok (congrArg Prod.fst hl)
      rw [ha.cluster]
      refine ⟨state, w₂, ha₂, hresolves, rfl, Prod.ext ?_ rfl⟩
      rw [← ha₂.registry]
      exact congrArg Prod.snd (assessAll_eq state _ w₂).1

/-- **When a cycle launches an exempt change.**  Its change is put before the quotas with the
changes of its siblings, but has no part in the need.  The workload is launched if and only if the
quotas let the need of its siblings through, and the first change of its key is its own.  They let
it through unread if they count no limit of these siblings; where they refuse it or cannot be read,
the workload is refused or fails with the siblings. -/
theorem exempt_launched_iff (s : Settings) (w : World) (ns : String) {c : Cycle} {state : State}
    {x : Workload} {n : Int} (hcycle : (ofNamespace s w ns).1 = .ok c)
    (hstate : w.cluster.Resolves ns state) (hstored : w.cluster.inventory.get? x.id = some x)
    (hns : x.key.ns = ns) (hkind : x.kind ∈ s.enabledKinds) (hauto : x.allowsAutoscaling = true)
    (htarget : x.HasTarget state n) (hlower : n < x.spec) (hfree : w.registry.IsFree x.key) :
    let batch := (proposed s w ns).1
    let siblings := batch.filter fun l => !isExempt l
    let verdict := ((proposed s w ns).2.admission ns (needOf siblings)).1
    (x, ⟨state.name, n⟩) ∈ batch ∧ (x, ⟨state.name, n⟩) ∉ siblings ∧
      ((∀ l ∈ siblings, ¬ l.1.IsCounted) → verdict = .ok .allowed) ∧
      ((Decision.launched x.spec n state.name).about x ∈ c.items ↔
        verdict = .ok .allowed ∧
          batch.find? (fun l => l.1.key == x.key) = some (x, ⟨state.name, n⟩)) ∧
      (∀ m, (Decision.quotaDenied m).about x ∈ c.items ↔
        m = n ∧ ∃ quota shortfall, verdict = .ok (.denied quota shortfall)) ∧
      ∀ m, (Decision.failed m).about x ∈ c.items ↔ ∃ e, verdict = .error e ∧ m = e.message := by
  obtain ⟨state', w₁, ha, hresolves, rfl, hproposed⟩ := ofNamespace_ok hcycle
  obtain rfl := hstate.unique hresolves
  intro batch siblings verdict
  have hx : x ∈ s.enabledKinds.flatMap fun k => w.cluster.list k ns selector :=
    List.mem_flatMap.2 ⟨x.kind, hkind, mem_list.2 ⟨hstored, rfl, hns, htarget.optedIn⟩⟩
  have hid : ∀ y ∈ s.enabledKinds.flatMap fun k => w.cluster.list k ns selector,
      y.id = x.id → y = x := by
    intro y hy heq
    obtain ⟨k, -, hy⟩ := List.mem_flatMap.1 hy
    obtain ⟨hget, -⟩ := mem_list.1 hy
    exact Option.some.inj (hget.symm.trans (heq ▸ hstored))
  have hdue : triage w₁.registry state x = .inr ⟨state.name, n⟩ :=
    triage_of_isDue hresolves.name_ne ⟨htarget, ha.registry ▸ hfree, Int.ne_of_gt hlower⟩
  generalize (s.enabledKinds.flatMap fun k => w.cluster.list k ns selector) = items at *
  have hbatch : batch = batchOf w₁.registry state items := by
    rw [ha.registry]
    exact congrArg Prod.fst hproposed
  have hverdict : verdict = verdictOn w₁ ns state items := by
    rw [← admission_assessAll, ← hbatch, ← needOf_filter batch,
      ← congrArg Prod.snd hproposed]
  have hmem : (x, ⟨state.name, n⟩) ∈ batch := hbatch ▸ mem_batchOf.2 ⟨hx, hdue⟩
  have hexempt : isExempt (x, ⟨state.name, n⟩) = true := by
    simp [isExempt, Workload.isExempt, hauto, Int.le_of_lt hlower]
  refine ⟨hmem, fun h => ?_, fun hnone => ?_, ?_⟩
  · simpa [hexempt] using (List.mem_filter.1 h).2
  · have hneed : needOf siblings = none := needOf_of_not_counted fun l hl _ => hnone l hl
    simp only [verdict, hneed]
    rfl
  · rw [hverdict, hbatch]
    exact decided_with_batch hx hid hdue

/-- A workload with six replicas that may be autoscaled, and is to have two. -/
def shrinking : Workload :=
  { Workload.sample ⟨.deployment, "shop", "api"⟩ "2" with
    annotations := Table.ofList
      [("scaler/state-up-replicas", "2"), (Workload.autoscalingMark, "true")]
    spec := 6
    limits := Table.ofList [("cpu", .ofUnits 1)] }

theorem hasTarget_shrinking : shrinking.HasTarget ⟨"up", 0⟩ 2 where
  optedIn := by decide +kernel
  valid := by decide +kernel
  count := by decide +kernel

/-- The workload is launched although no quota can be read, since its sibling has no limits. -/
theorem exempt_launched_iff_unread :
    let web : Workload := .sample ⟨.deployment, "shop", "web"⟩ "4"
    let w : World := { World.holding [shrinking, web] with
      faults := [{ request := .quotas, message := "timeout", count := 1 }] }
    ∃ c, (ofNamespace (.standard .rapid) w "shop").1 = .ok c ∧
      w.cluster.Resolves "shop" ⟨"up", 0⟩ ∧
      w.cluster.inventory.get? shrinking.id = some shrinking ∧
      shrinking.kind ∈ (Settings.standard .rapid).enabledKinds ∧
      shrinking.allowsAutoscaling = true ∧ shrinking.HasTarget ⟨"up", 0⟩ 2 ∧
      w.registry.IsFree shrinking.key ∧
      (Decision.launched 6 2 "up").about shrinking ∈ c.items := by
  intro web w
  have hresolves : w.cluster.Resolves "shop" ⟨"up", 0⟩ :=
    NamespaceState.resolve_ok (w := w) rfl
  have hstored : w.cluster.inventory.get? shrinking.id = some shrinking := by decide +kernel
  have hkind : shrinking.kind ∈ (Settings.standard .rapid).enabledKinds := by decide +kernel
  have hauto : shrinking.allowsAutoscaling = true := by decide +kernel
  have hfree : w.registry.IsFree shrinking.key := ⟨rfl, rfl⟩
  have hfirst : (proposed (.standard .rapid) w "shop").1.find? (·.1.key == shrinking.key) =
      some (shrinking, ⟨"up", 2⟩) := by decide +kernel
  have hsiblings : ∀ l ∈ (proposed (.standard .rapid) w "shop").1.filter (fun l => !isExempt l),
      ¬ l.1.IsCounted := by decide +kernel
  refine ⟨_, rfl, hresolves, hstored, hkind, hauto, hasTarget_shrinking, hfree, ?_⟩
  obtain ⟨-, -, hunread, hlaunched, -⟩ := exempt_launched_iff (.standard .rapid) w "shop" rfl
    hresolves hstored rfl hkind hauto hasTarget_shrinking (by decide) hfree
  exact hlaunched.2 ⟨hunread hsiblings, hfirst⟩

/-- The workload is refused together with a sibling that the quota has no room for. -/
theorem not_exempt_launched :
    let web : Workload :=
      { Workload.sample ⟨.deployment, "shop", "web"⟩ "4" with
        spec := 1
        limits := Table.ofList [("cpu", .ofUnits 1)] }
    let quotas := Table.ofList [("shop", [⟨"compute", Table.ofList [("limits.cpu", .ofUnits 8)]⟩])]
    let w : World := { World.holding [shrinking, web] with cluster.quotas := quotas }
    ∃ c, (ofNamespace (.standard .rapid) w "shop").1 = .ok c ∧
      w.cluster.Resolves "shop" ⟨"up", 0⟩ ∧
      w.cluster.inventory.get? shrinking.id = some shrinking ∧
      shrinking.allowsAutoscaling = true ∧ shrinking.HasTarget ⟨"up", 0⟩ 2 ∧ 2 < shrinking.spec ∧
      w.registry.get? shrinking.key = none ∧
      c.items = [(Decision.quotaDenied 2).about shrinking, (Decision.quotaDenied 4).about web] := by
  intro web quotas w
  exact ⟨_, rfl, NamespaceState.resolve_ok (w := w) rfl, by decide +kernel, by decide +kernel,
    hasTarget_shrinking, by decide, rfl, by decide +kernel⟩

end Cycle

end ReplicaControl
