import ReplicaControl.Proofs.AbortedCycles
import ReplicaControl.Proofs.Annotations
import ReplicaControl.Proofs.Sample

/-!
# What a cycle decides

A cycle goes over its workloads twice: first it decides on those whose change need not be put before
the quotas, then on the batch of all other changes.

* `Cycle.triage`, `revised` — what the first pass makes of one workload and of the registry.
  Revised targets change no marks, so `assessAll_eq` has the whole pass as one of independent
  decisions.
* `Cycle.verdictOn`, `settlement` — the second pass; `settleBatch_eq`: every change of the batch
  gets the decision that goes with the verdict on the batch.
* `Cycle.ruling` — the decision on one workload.  `ofWorkloads_eq`: a cycle as a whole.
* `Cycle.Merits` — when a workload deserves a decision, by what it says, the marks of its key and
  the verdict; `merits_iff`: the ruling is the only decision that it deserves.
* `plan_exact` — the main theorem.
-/

namespace ReplicaControl

theorem Registry.claim_of_isFree {r : Registry} {w : Workload} (h : r.IsFree w.key) (n : Int) :
    r.claim w n = (.claimed, r.insert w.key (started w n)) := by
  rcases r.claim_cases w n with ⟨hi, -⟩ | ⟨-, hf, -⟩ | ⟨-, -, hc⟩
  · exact absurd (hi.symm.trans h.1) nofun
  · exact absurd (hf.symm.trans h.2) nofun
  · exact hc

/-- The verdict on a need depends on the faults and the cluster only. -/
theorem World.admission_congr {w w' : World} (hf : w'.faults = w.faults)
    (hc : w'.cluster = w.cluster) (ns : String) (need : Option ResourceList) :
    (w'.admission ns need).1 = (w.admission ns need).1 := by
  cases need with
  | none => rfl
  | some need =>
    simp only [admission, fetchQuotas, ask, intercept, hf, hc]
    rcases Fault.next .quotas w.faults with ⟨_ | f, faults⟩ <;> rfl

namespace Cycle

variable {r : Registry} {w : World} {ns : String} {state : State} {items : List Workload}

/-! ## The first pass -/

/-- What a cycle makes of a workload before the quotas are asked: a decision, or a change that has
to be put before them. -/
def triage (r : Registry) (state : State) (x : Workload) : Decision ⊕ Target :=
  match targetOf x state with
  | .error e => .inl (.failed e.message)
  | .ok none => .inl .skipped
  | .ok (some t) =>
    if r.isInFlight x.key then .inl (.deferred t.replicas false)
    else if r.isFailed x.key then .inl (.deferred t.replicas true)
    else if x.spec = t.replicas then .inl .unchanged
    else .inr t

/-- The registry after a cycle decided on a workload before the quotas are asked. -/
def revised (state : State) (r : Registry) (x : Workload) : Registry :=
  match triage r state x with
  | .inl (.deferred n _) => r.retarget x.key n
  | _ => r

theorem assess_eq (w : World) (state : State) (x : Workload) :
    (assess w state x).1 = triage w.registry state x ∧
      (assess w state x).2.registry = revised state w.registry x := by
  unfold assess revised triage
  rcases targetOf x state with e | _ | t
  · exact ⟨rfl, rfl⟩
  · exact ⟨rfl, rfl⟩
  · dsimp only
    rcases revise_cases w x t with ⟨hi | hf, hr⟩ | ⟨hi, hf, hr⟩
    · simp [hr, hi]
    · cases hi : w.registry.isInFlight x.key <;> simp [hr, hi, hf]
    · rw [hr]
      by_cases hs : x.spec = t.replicas <;> simp [hi, hf, hs]

theorem marks_revised (state : State) (r : Registry) (x : Workload) (key : Key) :
    (revised state r x).isInFlight key = r.isInFlight key ∧
      (revised state r x).isFailed key = r.isFailed key := by
  unfold revised
  split
  · exact ⟨Registry.isInFlight_retarget .., Registry.isFailed_retarget ..⟩
  · exact ⟨rfl, rfl⟩

/-- A revision for one workload does not matter for the decision on another one. -/
theorem triage_revised (state : State) (r : Registry) (x y : Workload) :
    triage (revised state r y) state x = triage r state x := by
  obtain ⟨hi, hf⟩ := marks_revised state r y x.key
  rw [triage, hi, hf, triage]

/-- The immediate decision on a workload, if there is one. -/
def immediate? (r : Registry) (state : State) (x : Workload) : Option ItemDecision :=
  (triage r state x).getLeft?.map (·.about x)

/-- The change of a workload that has to be put before the quotas, if there is one. -/
def due? (r : Registry) (state : State) (x : Workload) : Option Launch :=
  (triage r state x).getRight?.map (x, ·)

/-- **The first pass decides on every workload by the registry that it starts with.** -/
theorem assessAll_eq (state : State) (items : List Workload) (w : World) :
    (assessAll w state items).1 =
        (items.filterMap (immediate? w.registry state), items.filterMap (due? w.registry state)) ∧
      (assessAll w state items).2.registry = items.foldl (revised state) w.registry := by
  induction items generalizing w with
  | nil => exact ⟨rfl, rfl⟩
  | cons x rest ih =>
    obtain ⟨hfst, hreg⟩ := assess_eq w state x
    obtain ⟨ihfst, ihreg⟩ := ih (assess w state x).2
    have himm : immediate? (revised state w.registry x) state = immediate? w.registry state :=
      funext fun y => by rw [immediate?, triage_revised, immediate?]
    have hdue : due? (revised state w.registry x) state = due? w.registry state :=
      funext fun y => by rw [due?, triage_revised, due?]
    rw [hreg, himm, hdue] at ihfst
    rw [hreg] at ihreg
    rcases ha : assess w state x with ⟨d | t, w₁⟩ <;> rw [ha] at hfst ihfst ihreg <;>
      simp only [assessAll, ha, List.filterMap_cons, immediate?, due?, ← hfst, List.foldl_cons] <;>
      simp [ihfst, ihreg, immediate?, due?]

/-! ## The second pass -/

/-- The decision on a change of a batch. -/
def settlement (verdict : Except QuotaError Admission) (c : Launch) : Decision :=
  match verdict with
  | .error e => .failed e.message
  | .ok (.denied _ _) => .quotaDenied c.2.replicas
  | .ok .allowed => .launched c.1.spec c.2.replicas c.2.state

/-- The registry after every change of a list was claimed. -/
def claimAll (r : Registry) (changes : List Launch) : Registry :=
  changes.foldl (fun r c => (r.claim c.1 c.2.replicas).2) r

theorem launchAll_registry (changes : List Launch) (w : World) :
    (launchAll w changes).2.registry = claimAll w.registry changes := by
  induction changes generalizing w with
  | nil => rfl
  | cons change rest ih =>
    unfold launchAll
    split <;> rename_i hc <;> exact (ih _).trans (congrArg (claimAll ·.2 rest) hc.symm)

/-- Changes of different keys that nobody is at work on are all reported as launched. -/
theorem launchAll_decided {changes : List Launch} {w : World}
    (hkeys : (changes.map fun c => c.1.key).Nodup)
    (hfree : ∀ c ∈ changes, w.registry.IsFree c.1.key) :
    (launchAll w changes).1.1 = changes.map fun c => (settlement (.ok .allowed) c).about c.1 := by
  induction changes generalizing w with
  | nil => rfl
  | cons change rest ih =>
    obtain ⟨hnew, hkeys⟩ := List.nodup_cons.1 hkeys
    have hclaim := Registry.claim_of_isFree (hfree change List.mem_cons_self) change.2.replicas
    simp only [launchAll, hclaim, List.map_cons]
    rw [ih hkeys fun c hc => ?_]
    · rfl
    · refine (hfree c (List.mem_cons_of_mem _ hc)).of_get?_eq (Table.get?_insert_of_ne _ ?_ _)
      exact fun he => hnew (List.mem_map.2 ⟨c, hc, he⟩)

theorem denyAll_decided (quota : String) (shortfall : ResourceList) (changes : List Launch)
    (w : World) :
    (denyAll w quota shortfall changes).1 =
      changes.map fun c => (settlement (.ok (.denied quota shortfall)) c).about c.1 := by
  induction changes generalizing w with
  | nil => rfl
  | cons change rest ih => exact congrArg (_ :: ·) (ih _)

theorem settleBatch_of_allowed {changes : List Launch}
    (h : (w.admission ns (needOf changes)).1 = .ok .allowed) :
    settleBatch w ns changes = launchAll (w.admission ns (needOf changes)).2 changes := by
  rw [needOf] at h ⊢
  unfold settleBatch
  rcases hadmission : w.admission ns (Quota.batchNeed (changes.map fun c => (c.1, c.2.replicas)))
    with ⟨v, w₁⟩
  rw [hadmission] at h
  obtain rfl : v = .ok .allowed := h
  rw [hadmission]

theorem settleBatch_of_refused {changes : List Launch}
    (h : (w.admission ns (needOf changes)).1 ≠ .ok .allowed) :
    (settleBatch w ns changes).1.1 =
      changes.map fun c => (settlement (w.admission ns (needOf changes)).1 c).about c.1 := by
  rw [needOf] at h ⊢
  unfold settleBatch
  rcases hadmission : w.admission ns (Quota.batchNeed (changes.map fun c => (c.1, c.2.replicas)))
    with ⟨e | _ | ⟨quota, shortfall⟩, w₁⟩ <;> rw [hadmission] at h ⊢
  · rfl
  · exact absurd rfl h
  · exact denyAll_decided quota shortfall changes w₁

/-- **All changes of a batch share the verdict on it**, if they have different keys and nobody is at
work on their workloads. -/
theorem settleBatch_eq (ns : String) {changes : List Launch}
    (hkeys : (changes.map fun c => c.1.key).Nodup)
    (hfree : ∀ c ∈ changes, w.registry.IsFree c.1.key) :
    let verdict := (w.admission ns (needOf changes)).1
    (settleBatch w ns changes).1 =
        (changes.map fun c => (settlement verdict c).about c.1,
          if verdict = .ok .allowed then changes else []) ∧
      (settleBatch w ns changes).2.registry =
        if verdict = .ok .allowed then claimAll w.registry changes else w.registry := by
  intro verdict
  have ha := w.admission_asked ns (needOf changes)
  by_cases hv : verdict = .ok .allowed
  · have hfree₁ : ∀ c ∈ changes, (w.admission ns (needOf changes)).2.registry.IsFree c.1.key :=
      fun c hc => ha.registry ▸ hfree c hc
    rw [settleBatch_of_allowed hv, if_pos hv, if_pos hv, hv, launchAll_registry, ha.registry]
    exact ⟨Prod.ext (launchAll_decided hkeys hfree₁) (launchAll_of_free hkeys hfree₁).1, rfl⟩
  · obtain ⟨hnone, hregistry⟩ := settleBatch_refused hv
    rw [if_neg hv, if_neg hv]
    exact ⟨Prod.ext (settleBatch_of_refused hv) hnone, hregistry⟩

/-! ## The whole cycle -/

/-- The changes that a cycle puts before the quotas. -/
def batchOf (r : Registry) (state : State) (items : List Workload) : List Launch :=
  items.filterMap (due? r state)

/-- The verdict on the changes that a cycle puts before the quotas. -/
def verdictOn (w : World) (ns : String) (state : State) (items : List Workload) :
    Except QuotaError Admission :=
  (w.admission ns (needOf (batchOf w.registry state items))).1

/-- The first pass does not matter for the verdict. -/
theorem admission_assessAll (w : World) (ns : String) (state : State) (items : List Workload) :
    ((assessAll w state items).2.admission ns (needOf (batchOf w.registry state items))).1 =
      verdictOn w ns state items := by
  obtain ⟨faults, registry, events, heq⟩ := assessAll_booked state items w
  exact World.admission_congr (assessAll_faults state items w) (by rw [heq]) ns _

theorem due?_eq_some_iff {x : Workload} {c : Launch} :
    due? r state x = some c ↔ c.1 = x ∧ triage r state x = .inr c.2 := by
  unfold due?
  cases triage r state x <;> simp [Prod.ext_iff, eq_comm]

theorem mem_batchOf {c : Launch} :
    c ∈ batchOf r state items ↔ c.1 ∈ items ∧ triage r state c.1 = .inr c.2 := by
  simp only [batchOf, List.mem_filterMap, due?_eq_some_iff]
  constructor
  · rintro ⟨x, hx, rfl, h⟩
    exact ⟨hx, h⟩
  · exact fun ⟨hx, h⟩ => ⟨c.1, hx, rfl, h⟩

theorem sublist_batchOf (r : Registry) (state : State) (items : List Workload) :
    ((batchOf r state items).map Prod.fst).Sublist items := by
  have h := assessAll_sublist state items { registry := r }
  rwa [(assessAll_eq state items { registry := r }).1] at h

theorem nodup_batchOf (r : Registry) (state : State) (hkeys : (items.map Workload.key).Nodup) :
    ((batchOf r state items).map fun c => c.1.key).Nodup := by
  have hsub := (sublist_batchOf r state items).map Workload.key
  rw [List.map_map] at hsub
  exact hkeys.sublist hsub

/-- Nobody is at work on the workloads of a batch, also after the first pass. -/
theorem isFree_of_mem_batchOf {c : Launch} (hc : c ∈ batchOf r state items) :
    (items.foldl (revised state) r).IsFree c.1.key := by
  obtain ⟨hfst, hreg⟩ := assessAll_eq state items { registry := r }
  rw [show batchOf r state items = (assessAll { registry := r } state items).1.2 from
    (congrArg Prod.snd hfst).symm] at hc
  rw [← show _ = items.foldl (revised state) r from hreg]
  exact (assessAll_isFree state items _ c.1.key).2 (mem_assessAll hc).2

theorem ofWorkloads_items (w : World) (ns : String) (state : State) (items : List Workload) :
    (ofWorkloads w ns state items).1.items = (assessAll w state items).1.1 ++
      (settleBatch (assessAll w state items).2 ns (assessAll w state items).1.2).1.1 := by
  dsimp only [ofWorkloads]
  split
  · rename_i hnil
    rw [hnil, settleBatch_nil, List.append_nil]
  · rfl

/-- **A cycle decides on its workloads by the registry that it starts with and by the verdict on the
changes that are due.** -/
theorem ofWorkloads_eq (w : World) (ns : String) (state : State)
    (hkeys : (items.map Workload.key).Nodup) :
    let batch := batchOf w.registry state items
    let verdict := verdictOn w ns state items
    let revisedAll := items.foldl (revised state) w.registry
    (ofWorkloads w ns state items).1.items = items.filterMap (immediate? w.registry state) ++
        batch.map (fun c => (settlement verdict c).about c.1) ∧
      (ofWorkloads w ns state items).1.launches = (if verdict = .ok .allowed then batch else []) ∧
      (ofWorkloads w ns state items).2.registry =
        if verdict = .ok .allowed then claimAll revisedAll batch else revisedAll := by
  intro batch verdict revisedAll
  obtain ⟨hfst, hreg⟩ := assessAll_eq state items w
  have hbatch : (assessAll w state items).1.2 = batch := congrArg Prod.snd hfst
  obtain ⟨hlaunches, hworld⟩ := ofWorkloads_settled w ns state items
  have hverdict := admission_assessAll w ns state items
  have hfree : ∀ c ∈ batch, (assessAll w state items).2.registry.IsFree c.1.key := fun c hc =>
    hreg ▸ isFree_of_mem_batchOf hc
  obtain ⟨hdecided, hregistry⟩ := settleBatch_eq ns (nodup_batchOf _ state hkeys) hfree
  rw [hverdict, hreg] at hregistry
  rw [hverdict] at hdecided
  rw [ofWorkloads_items, hlaunches, hworld, hbatch, hdecided, hregistry, hfst]
  exact ⟨rfl, rfl, rfl⟩

/-- The decision of a cycle on one workload, given the verdict on its batch. -/
def ruling (verdict : Except QuotaError Admission) (r : Registry) (state : State) (x : Workload) :
    Decision :=
  match triage r state x with
  | .inl d => d
  | .inr t => settlement verdict (x, t)

/-- The decisions of both passes are one decision on each workload. -/
theorem decisions_perm (verdict : Except QuotaError Admission) (r : Registry) (state : State)
    (items : List Workload) :
    (items.filterMap (immediate? r state) ++
        (batchOf r state items).map fun c => (settlement verdict c).about c.1).Perm
      (items.map fun x => (ruling verdict r state x).about x) := by
  induction items with
  | nil => exact .nil
  | cons x rest ih =>
    simp only [batchOf, List.filterMap_cons, List.map_cons, immediate?, due?, ruling] at ih ⊢
    cases triage r state x with
    | inl d => exact ih.cons _
    | inr t => exact List.perm_middle.trans (ih.cons _)

/-! ## When a workload deserves which decision -/

/-- A workload has to be moved to a count for a state, and nobody is at work on it. -/
def IsDue (state : State) (r : Registry) (x : Workload) (n : Int) : Prop :=
  x.HasTarget state n ∧ r.IsFree x.key ∧ x.spec ≠ n

/-- When a workload deserves a decision, by its labels, annotations and count, the marks of its key
in the registry, and the verdict on the changes that are due. -/
def Merits (verdict : Except QuotaError Admission) (r : Registry) (state : State) (x : Workload) :
    Decision → Prop
  | .skipped => x.isOptedIn = false ∨ x.stateAnnotations = []
  | .failed message =>
    (∃ e, x.LacksTarget state e ∧ message = e.message) ∨
      (∃ n, IsDue state r x n) ∧ ∃ e, verdict = .error e ∧ message = e.message
  | .deferred n hasFailed =>
    x.HasTarget state n ∧ ¬ r.IsFree x.key ∧ hasFailed = !r.isInFlight x.key
  | .unchanged => x.HasTarget state x.spec ∧ r.IsFree x.key
  | .launched start n name =>
    start = x.spec ∧ name = state.name ∧ IsDue state r x n ∧ verdict = .ok .allowed
  | .quotaDenied n =>
    IsDue state r x n ∧ ∃ quota shortfall, verdict = .ok (.denied quota shortfall)

theorem triage_of_hasTarget (hstate : state.name ≠ "") {x : Workload} {n : Int}
    (h : x.HasTarget state n) :
    triage r state x =
      if r.isInFlight x.key then .inl (.deferred n false)
      else if r.isFailed x.key then .inl (.deferred n true)
      else if x.spec = n then .inl .unchanged
      else .inr ⟨state.name, n⟩ := by
  rw [triage, (targetOf_eq_some_iff hstate (t := ⟨state.name, n⟩)).2 ⟨rfl, h⟩]

theorem triage_of_isDue (hstate : state.name ≠ "") {x : Workload} {n : Int}
    (h : IsDue state r x n) : triage r state x = .inr ⟨state.name, n⟩ := by
  obtain ⟨htarget, ⟨hi, hf⟩, hne⟩ := h
  rw [triage_of_hasTarget hstate htarget, hi, hf, if_neg nofun, if_neg nofun, if_neg hne]

/-- **A workload deserves the decision that it gets, and no other one.** -/
theorem merits_iff (hstate : state.name ≠ "") {verdict : Except QuotaError Admission}
    {x : Workload} {d : Decision} :
    Merits verdict r state x d ↔ d = ruling verdict r state x := by
  constructor
  · intro h
    cases d with
    | skipped => rw [ruling, triage, (targetOf_eq_none_iff hstate).2 h]
    | failed message =>
      rcases h with ⟨e, hlacks, rfl⟩ | ⟨⟨n, hdue⟩, e, rfl, rfl⟩
      · rw [ruling, triage, (targetOf_eq_error_iff hstate).2 hlacks]
      · rw [ruling, triage_of_isDue hstate hdue]
        rfl
    | deferred n hasFailed =>
      obtain ⟨htarget, hbusy, rfl⟩ := h
      rw [ruling, triage_of_hasTarget hstate htarget]
      cases hi : r.isInFlight x.key with
      | true => rfl
      | false =>
        cases hf : r.isFailed x.key with
        | true => rfl
        | false => exact absurd ⟨hi, hf⟩ hbusy
    | unchanged =>
      obtain ⟨htarget, hi, hf⟩ := h
      rw [ruling, triage_of_hasTarget hstate htarget, hi, hf]
      simp
    | launched start n name =>
      obtain ⟨rfl, rfl, hdue, rfl⟩ := h
      rw [ruling, triage_of_isDue hstate hdue]
      rfl
    | quotaDenied n =>
      obtain ⟨hdue, quota, shortfall, rfl⟩ := h
      rw [ruling, triage_of_isDue hstate hdue]
      rfl
  · rintro rfl
    cases ht : targetOf x state with
    | error e =>
      rw [ruling, triage, ht]
      exact .inl ⟨e, (targetOf_eq_error_iff hstate).1 ht, rfl⟩
    | ok t =>
      cases t with
      | none =>
        rw [ruling, triage, ht]
        exact (targetOf_eq_none_iff hstate).1 ht
      | some t =>
        have htarget := ((targetOf_eq_some_iff hstate).1 ht).2
        rw [ruling, triage_of_hasTarget hstate htarget]
        cases hi : r.isInFlight x.key with
        | true => exact ⟨htarget, fun h => Bool.false_ne_true (h.1.symm.trans hi), by rw [hi]; rfl⟩
        | false =>
          cases hf : r.isFailed x.key with
          | true =>
            exact ⟨htarget, fun h => Bool.false_ne_true (h.2.symm.trans hf), by rw [hi]; rfl⟩
          | false =>
            by_cases hs : x.spec = t.replicas
            · rw [if_neg nofun, if_neg nofun, if_pos hs]
              exact ⟨hs ▸ htarget, hi, hf⟩
            · have hdue : IsDue state r x t.replicas := ⟨htarget, ⟨hi, hf⟩, hs⟩
              rw [if_neg nofun, if_neg nofun, if_neg hs]
              rcases verdict with e | _ | ⟨quota, shortfall⟩
              · exact .inr ⟨⟨_, hdue⟩, e, rfl, rfl⟩
              · exact ⟨rfl, rfl, hdue, rfl⟩
              · exact ⟨hdue, quota, shortfall, rfl⟩

/-! ## The registry after a cycle -/

/-- What a decision on a workload makes of the entry of its key. -/
def entryAfter (d : Decision) (x : Workload) (old : Option Workload) : Option Workload :=
  match d with
  | .deferred n _ => old.map ({ · with desired := n })
  | .launched _ n _ => some (Registry.started x n)
  | _ => old

theorem get?_revised_of_ne (state : State) (r : Registry) {x : Workload} {key : Key}
    (h : key ≠ x.key) : (revised state r x).get? key = r.get? key := by
  unfold revised
  split
  · rw [Registry.get?_retarget, if_neg h]
  · rfl

theorem get?_revised_congr {r r' : Registry} {x : Workload}
    (ht : triage r' state x = triage r state x) (hg : r'.get? x.key = r.get? x.key) :
    (revised state r' x).get? x.key = (revised state r x).get? x.key := by
  unfold revised
  rw [ht]
  split
  · rw [Registry.get?_retarget, Registry.get?_retarget, hg]
  · exact hg

/-- A revision concerns workloads that are not due, and their entry becomes what their decision
makes of it. -/
theorem get?_revised_self (verdict : Except QuotaError Admission) (state : State) (r : Registry)
    {x : Workload} (h : ∀ t, triage r state x ≠ .inr t) :
    (revised state r x).get? x.key =
      entryAfter (ruling verdict r state x) x (r.get? x.key) := by
  revert h
  unfold revised ruling triage
  rcases targetOf x state with e | _ | t
  · exact fun _ => rfl
  · exact fun _ => rfl
  · dsimp only
    split
    · exact fun _ => (Registry.get?_retarget ..).trans (if_pos rfl)
    · split
      · exact fun _ => (Registry.get?_retarget ..).trans (if_pos rfl)
      · split
        · exact fun _ => rfl
        · exact fun h => absurd rfl (h t)

/-- Workloads of different keys are revised independently. -/
theorem get?_foldl_revised (state : State) (hkeys : (items.map Workload.key).Nodup) (r : Registry) :
    (∀ x ∈ items, (items.foldl (revised state) r).get? x.key = (revised state r x).get? x.key) ∧
      ∀ key ∉ items.map Workload.key, (items.foldl (revised state) r).get? key = r.get? key := by
  induction items generalizing r with
  | nil => exact ⟨fun _ hx => (nomatch hx), fun _ _ => rfl⟩
  | cons x rest ih =>
    obtain ⟨hnew, hkeys⟩ := List.nodup_cons.1 hkeys
    obtain ⟨hself, hother⟩ := ih hkeys (revised state r x)
    refine ⟨fun y hy => ?_, fun key hkey => ?_⟩
    · rcases List.mem_cons.1 hy with rfl | hy
      · exact hother y.key hnew
      · have hne : y.key ≠ x.key := fun he => hnew (he ▸ List.mem_map_of_mem hy)
        exact (hself y hy).trans (get?_revised_congr (triage_revised state r y x)
          (get?_revised_of_ne state r hne))
    · rw [List.map_cons, List.mem_cons, not_or] at hkey
      exact (hother key hkey.2).trans (get?_revised_of_ne state r hkey.1)

/-- Changes of different keys that nobody is at work on are claimed independently. -/
theorem get?_claimAll {changes : List Launch} (hkeys : (changes.map fun c => c.1.key).Nodup)
    (hfree : ∀ c ∈ changes, r.IsFree c.1.key) :
    (∀ c ∈ changes, (claimAll r changes).get? c.1.key =
        some (Registry.started c.1 c.2.replicas)) ∧
      ∀ key ∉ changes.map (fun c => c.1.key), (claimAll r changes).get? key = r.get? key := by
  obtain ⟨-, hself, hother⟩ := launchAll_of_free (w := { registry := r }) hkeys hfree
  rw [launchAll_registry] at hself hother
  exact ⟨hself, hother⟩

/-- **The entry of a workload is what the decision on it makes of it, and other entries stay.** -/
theorem get?_ofWorkloads (w : World) (ns : String) (state : State)
    (hkeys : (items.map Workload.key).Nodup) :
    (∀ x ∈ items, (ofWorkloads w ns state items).2.registry.get? x.key =
        entryAfter (ruling (verdictOn w ns state items) w.registry state x) x
          (w.registry.get? x.key)) ∧
      ∀ key ∉ items.map Workload.key,
        (ofWorkloads w ns state items).2.registry.get? key = w.registry.get? key := by
  obtain ⟨-, -, hreg⟩ := ofWorkloads_eq w ns state hkeys
  obtain ⟨hrevised, hkept⟩ := get?_foldl_revised state hkeys w.registry
  obtain ⟨hclaimed, hunclaimed⟩ := get?_claimAll (nodup_batchOf w.registry state hkeys)
    fun c hc => isFree_of_mem_batchOf hc
  generalize verdictOn w ns state items = verdict at hreg ⊢
  rw [hreg]
  constructor
  · intro x hx
    cases htriage : triage w.registry state x with
    | inl d =>
      -- the workload is not in the batch, and its key belongs to no other one
      have hout : x.key ∉ (batchOf w.registry state items).map fun c => c.1.key := by
        intro hmem
        obtain ⟨c, hc, hkey⟩ := List.mem_map.1 hmem
        obtain ⟨hmem, hdue⟩ := mem_batchOf.1 hc
        rw [List.inj_on_of_nodup_map hkeys hmem hx hkey, htriage] at hdue
        cases hdue
      have hself := (hrevised x hx).trans (get?_revised_self verdict state w.registry
        (x := x) fun t ht => nomatch htriage.symm.trans ht)
      split
      · exact (hunclaimed x.key hout).trans hself
      · exact hself
    | inr t =>
      have hmem : (x, t) ∈ batchOf w.registry state items := mem_batchOf.2 ⟨hx, htriage⟩
      have hstays : (revised state w.registry x) = w.registry := by rw [revised, htriage]
      rw [ruling, htriage]
      rcases verdict with e | _ | ⟨quota, shortfall⟩
      · exact (hrevised x hx).trans (by rw [hstays]; rfl)
      · exact hclaimed (x, t) hmem
      · exact (hrevised x hx).trans (by rw [hstays]; rfl)
  · intro key hkey
    have hout : key ∉ (batchOf w.registry state items).map fun c => c.1.key := by
      intro hmem
      obtain ⟨c, hc, rfl⟩ := List.mem_map.1 hmem
      exact hkey (List.mem_map_of_mem (mem_batchOf.1 hc).1)
    split
    · exact (hunclaimed key hout).trans (hkept key hkey)
    · exact hkept key hkey

/-! ## Main theorem -/

theorem triage_eq_inr_iff (hstate : state.name ≠ "") {x : Workload} {t : Target} :
    triage r state x = .inr t ↔ t.state = state.name ∧ IsDue state r x t.replicas := by
  constructor
  · intro h
    have hruling : .launched x.spec t.replicas t.state = ruling (.ok .allowed) r state x := by
      rw [ruling, h]
      rfl
    obtain ⟨-, hname, hdue, -⟩ := (merits_iff hstate).2 hruling
    exact ⟨hname, hdue⟩
  · rintro ⟨hname, hdue⟩
    rw [triage_of_isDue hstate hdue, ← hname]

theorem decision_mem_iff (w : World) (ns : String) (hstate : state.name ≠ "")
    (hkeys : (items.map Workload.key).Nodup) {x : Workload} (hx : x ∈ items) (d : Decision) :
    d.about x ∈ (ofWorkloads w ns state items).1.items ↔
      Merits (verdictOn w ns state items) w.registry state x d := by
  rw [(ofWorkloads_eq w ns state hkeys).1, (decisions_perm _ _ state items).mem_iff,
    merits_iff hstate, List.mem_map]
  constructor
  · rintro ⟨y, hy, heq⟩
    obtain ⟨hkey, -, hd⟩ := ItemDecision.mk.inj heq
    rw [List.inj_on_of_nodup_map hkeys hy hx hkey] at hd
    exact hd.symm
  · rintro rfl
    exact ⟨x, hx, rfl⟩

/-- Workloads without a target have no part in the batch, and leave the registry as it is. -/
theorem filter_of_error {p : Workload → Bool} (state : State)
    (h : ∀ x ∈ items, p x = false → ∃ e, targetOf x state = .error e) (r : Registry) :
    batchOf r state (items.filter p) = batchOf r state items ∧
      (items.filter p).foldl (revised state) r = items.foldl (revised state) r := by
  induction items generalizing r with
  | nil => exact ⟨rfl, rfl⟩
  | cons x rest ih =>
    have ih := ih fun y hy => h y (List.mem_cons_of_mem x hy)
    cases hp : p x with
    | true =>
      rw [List.filter_cons_of_pos hp, batchOf, batchOf, List.filterMap_cons, List.filterMap_cons]
      have hrest : (rest.filter p).filterMap (due? r state) = rest.filterMap (due? r state) :=
        (ih r).1
      rw [hrest]
      exact ⟨rfl, (ih _).2⟩
    | false =>
      obtain ⟨e, he⟩ := h x List.mem_cons_self hp
      have htriage : triage r state x = .inl (.failed e.message) := by rw [triage, he]
      have hdue : due? r state x = none := by rw [due?, htriage]; rfl
      have hstays : revised state r x = r := by rw [revised, htriage]
      rw [List.filter_cons_of_neg (Bool.eq_false_iff.1 hp), List.foldl_cons, hstays, batchOf,
        batchOf, List.filterMap_cons, hdue]
      exact ih r

/-- **The plan of a cycle is exact.**  The batch consists of the workloads that are due.  Every
workload gets one decision, and it is the one that the workload deserves, given the verdict on the
batch.  The launches are the workloads that are reported as launched.  The entry of every workload
is what the decision makes of it, and no other entry changes.  Without some of the workloads that
lack a target, the others get the same decisions, launches and entries. -/
theorem plan_exact (w : World) (ns : String) (state : State) (items : List Workload)
    (hstate : state.name ≠ "") (hkeys : (items.map Workload.key).Nodup) :
    let cycle := (ofWorkloads w ns state items).1
    let after := (ofWorkloads w ns state items).2.registry
    let batch := batchOf w.registry state items
    let verdict := (w.admission ns (needOf batch)).1
    ((batch.map Prod.fst).Sublist items ∧ ∀ l, l ∈ batch ↔
        l.1 ∈ items ∧ l.2.state = state.name ∧ IsDue state w.registry l.1 l.2.replicas) ∧
      (cycle.items.map fun i => (i.key, i.kind)).Perm (items.map fun x => (x.key, x.kind)) ∧
      (∀ x ∈ items, ∀ d : Decision,
        d.about x ∈ cycle.items ↔ Merits verdict w.registry state x d) ∧
      ((cycle.launches.map Prod.fst).Sublist items ∧ ∀ l, l ∈ cycle.launches ↔ l.1 ∈ items ∧
        (Decision.launched l.1.spec l.2.replicas l.2.state).about l.1 ∈ cycle.items) ∧
      (∀ x ∈ items, ∀ d : Decision, d.about x ∈ cycle.items →
        after.get? x.key = entryAfter d x (w.registry.get? x.key)) ∧
      (∀ key ∉ items.map Workload.key, after.get? key = w.registry.get? key) ∧
      ∀ p : Workload → Bool, (∀ x ∈ items, p x = false → ∃ e, x.LacksTarget state e) →
        let others := ofWorkloads w ns state (items.filter p)
        others.1.launches = cycle.launches ∧ others.2.registry = after ∧
          ∀ x ∈ items, p x = true → ∀ d : Decision,
            d.about x ∈ others.1.items ↔ d.about x ∈ cycle.items := by
  intro cycle after batch verdict
  obtain ⟨hitems, hlaunches, hregistry⟩ := ofWorkloads_eq w ns state hkeys
  obtain ⟨hentries, hkept⟩ := get?_ofWorkloads w ns state hkeys
  have hmerits := fun x hx => decision_mem_iff w ns hstate hkeys (x := x) hx
  have hbatch : ∀ l, l ∈ batch ↔
      l.1 ∈ items ∧ l.2.state = state.name ∧ IsDue state w.registry l.1 l.2.replicas := fun l =>
    mem_batchOf.trans (and_congr_right fun _ => triage_eq_inr_iff hstate)
  refine ⟨⟨sublist_batchOf _ state items, hbatch⟩, ?_, hmerits, ⟨?_, fun l => ?_⟩, ?_, hkept, ?_⟩
  · have hperm := (decisions_perm verdict w.registry state items).map fun i => (i.key, i.kind)
    rw [List.map_map] at hperm
    exact hitems ▸ hperm
  · rw [hlaunches]
    split
    · exact sublist_batchOf _ state items
    · exact List.nil_sublist _
  · rw [hlaunches]
    constructor
    · intro hl
      split at hl
      · obtain ⟨hx, hname, hdue⟩ := (hbatch l).1 hl
        exact ⟨hx, (hmerits l.1 hx _).2 ⟨rfl, hname, hdue, ‹_›⟩⟩
      · cases hl
    · rintro ⟨hx, hd⟩
      obtain ⟨-, hname, hdue, hallowed⟩ := (hmerits l.1 hx _).1 hd
      rw [if_pos hallowed]
      exact (hbatch l).2 ⟨hx, hname, hdue⟩
  · intro x hx d hd
    rw [(merits_iff hstate).1 ((hmerits x hx d).1 hd)]
    exact hentries x hx
  · intro p hp others
    obtain ⟨hsame, hrevised⟩ := filter_of_error state
      (fun x hx h => (hp x hx h).imp fun e => (targetOf_eq_error_iff hstate).2) w.registry
    have hverdict : verdictOn w ns state (items.filter p) = verdict := by
      rw [verdictOn, hsame]
    have hkeys' : ((items.filter p).map Workload.key).Nodup :=
      hkeys.sublist (List.filter_sublist.map Workload.key)
    obtain ⟨-, hlaunches', hregistry'⟩ := ofWorkloads_eq w ns state hkeys'
    rw [hverdict, hsame] at hlaunches' hregistry'
    rw [hrevised] at hregistry'
    refine ⟨hlaunches'.trans hlaunches.symm, hregistry'.trans hregistry.symm,
      fun x hx hkeep d => ?_⟩
    rw [decision_mem_iff w ns hstate hkeys' (List.mem_filter.2 ⟨hx, hkeep⟩) d, hverdict]
    exact (hmerits x hx d).symm

/-- One workload of each sort, with an attempt under way for the last one. -/
theorem plan_exact_five_workloads :
    let x (name count : String) : Workload := .sample ⟨.deployment, "shop", name⟩ count
    let bare : Workload := { key := ⟨"shop", "tool"⟩, kind := .deployment }
    let items := [bare, x "api" "2", x "web" "two", x "db" "0", x "cart" "3"]
    let state : State := ⟨"up", 0⟩
    let w : World := { World.holding items with registry := (Registry.claim ∅ (x "cart" "1") 1).2 }
    let cycle := (ofWorkloads w "shop" state items).1
    state.name ≠ "" ∧ (items.map Workload.key).Nodup ∧
      cycle.items.map (·.decision) =
        [.skipped, .failed (TargetError.invalidCount "scaler/state-up-replicas" "two").message,
          .unchanged, .deferred 3 false, .launched 0 2 "up"] ∧
      Merits (w.admission "shop" (needOf (batchOf w.registry state items))).1 w.registry state
        (x "cart" "3") (.deferred 3 false) ∧
      (ofWorkloads w "shop" state items).2.registry.get? ⟨"shop", "cart"⟩ =
        (w.registry.get? ⟨"shop", "cart"⟩).map ({ · with desired := 3 }) := by
  intro x bare items state w cycle
  have hstate : state.name ≠ "" := by decide
  have hkeys : (items.map Workload.key).Nodup := by decide
  have hdecisions : cycle.items.map (·.decision) =
      [.skipped, .failed (TargetError.invalidCount "scaler/state-up-replicas" "two").message,
        .unchanged, .deferred 3 false, .launched 0 2 "up"] := by decide +kernel
  have hcart : (Decision.deferred 3 false).about (x "cart" "3") ∈ cycle.items := by decide +kernel
  obtain ⟨-, -, hmerits, -, hentries, -⟩ := plan_exact w "shop" state items hstate hkeys
  have hmem : x "cart" "3" ∈ items := by decide
  exact ⟨hstate, hkeys, hdecisions, (hmerits _ hmem _).1 hcart, hentries _ hmem _ hcart⟩

end Cycle

end ReplicaControl
