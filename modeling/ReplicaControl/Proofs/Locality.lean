import ReplicaControl.Proofs.Batch
import ReplicaControl.Proofs.CalmSteps
import ReplicaControl.Proofs.Scopes

/-!
# Locality

What a scope shows of a world is all that matters for what happens in it.

* `Cycle.ofNamespace_within` — a cycle for a namespace decides the same, and does the same.
* `Attempt.timeless` — an attempt without the instants of its wait.  `step_within`: a step of an
  attempt that goes on at once is the same.
* `Attempt.foresee` — an attempt at the end of its wait, if only time ends it.  `foresee_within`:
  the end is the same.
-/

namespace ReplicaControl

namespace World

variable {w : World} {σ : Scope}

theorem admission_within (h : w.IsCalm) (need : Option ResourceList) :
    (w.within σ).admission σ.ns need =
      ((w.admission σ.ns need).1, (w.admission σ.ns need).2.within σ) := by
  rw [h.admission, (h.within σ).admission, within, Cluster.verdict_within]

end World

/-! ## Cycles -/

namespace Cycle

variable {w : World} {σ : Scope} {state : State}

theorem revise_within {item : Workload} (h : σ.has item.key = true) (target : Target) :
    revise (w.within σ) item target =
      ((revise w item target).1, (revise w item target).2.within σ) := by
  have hclaim : (w.within σ).registry.claim item target.replicas =
      ((w.registry.claim item target.replicas).1,
        (w.registry.claim item target.replicas).2.only σ.has) := w.registry.only_claim h _
  have hin : (w.within σ).registry.isInFlight item.key = w.registry.isInFlight item.key :=
    w.registry.isInFlight_only h
  have hfailed : (w.within σ).registry.isFailed item.key = w.registry.isFailed item.key :=
    w.registry.isFailed_only h
  unfold revise
  rw [hclaim, hin, hfailed]
  split
  · rcases w.registry.claim item target.replicas with ⟨_ | _ | _, r⟩
    · dsimp only
      rw [Registry.only_release r h]
      rfl
    · rfl
    · rfl
  · rfl

theorem revise_fits (hf : σ.Fits w) (item : Workload) (target : Target) :
    σ.Fits (revise w item target).2 := by
  unfold revise
  split
  · split <;> exact ⟨hf.told, hf.written⟩
  · exact hf

theorem assess_within (state : State) {item : Workload} (h : σ.has item.key = true)
    (hf : σ.Fits w) :
    assess (w.within σ) state item =
      ((assess w state item).1, (assess w state item).2.within σ) ∧
    σ.Fits (assess w state item).2 := by
  unfold assess
  split
  · refine ⟨?_, hf.emit _⟩
    rw [World.emit_within h hf]
  · exact ⟨rfl, hf⟩
  · rename_i target ht
    have hfits := revise_fits hf item target
    rw [revise_within h]
    generalize revise w item target = r at hfits ⊢
    rcases r with ⟨_ | d, w₁⟩
    · dsimp only
      split
      · exact ⟨rfl, hfits⟩
      · exact ⟨rfl, hfits⟩
    · exact ⟨rfl, hfits⟩

theorem assessAll_within (state : State) {items : List Workload}
    (h : ∀ item ∈ items, σ.has item.key = true) (hf : σ.Fits w) :
    assessAll (w.within σ) state items =
      ((assessAll w state items).1, (assessAll w state items).2.within σ) ∧
    σ.Fits (assessAll w state items).2 := by
  induction items generalizing w with
  | nil => exact ⟨rfl, hf⟩
  | cons item rest ih =>
    obtain ⟨heq, hfits⟩ := assess_within state (h item List.mem_cons_self) hf
    obtain ⟨hrest, hfits'⟩ := ih (fun x hx => h x (List.mem_cons_of_mem _ hx)) hfits
    unfold assessAll
    rw [heq]
    generalize assess w state item = r at hrest hfits' ⊢
    rcases r with ⟨d | target, w₁⟩
    all_goals
      dsimp only at hrest ⊢
      rw [hrest]
      exact ⟨rfl, hfits'⟩

theorem launchAll_within {changes : List Launch} (h : ∀ c ∈ changes, σ.has c.1.key = true) :
    launchAll (w.within σ) changes =
      ((launchAll w changes).1, (launchAll w changes).2.within σ) := by
  induction changes generalizing w with
  | nil => rfl
  | cons change rest ih =>
    obtain ⟨item, target⟩ := change
    have hclaim : (w.within σ).registry.claim item target.replicas =
        ((w.registry.claim item target.replicas).1,
          (w.registry.claim item target.replicas).2.only σ.has) :=
      w.registry.only_claim (h _ List.mem_cons_self) _
    have ih : ∀ r : Registry, launchAll { w.within σ with registry := r.only σ.has } rest = _ :=
      fun r => ih (w := { w with registry := r }) fun x hx => h x (List.mem_cons_of_mem _ hx)
    unfold launchAll
    rw [hclaim]
    rcases w.registry.claim item target.replicas with ⟨_ | _ | _, r⟩
    all_goals
      dsimp only
      rw [ih r]

theorem denyAll_within (quota : String) (shortfall : ResourceList) {changes : List Launch}
    (h : ∀ c ∈ changes, σ.has c.1.key = true) (hf : σ.Fits w) :
    denyAll (w.within σ) quota shortfall changes =
      ((denyAll w quota shortfall changes).1, (denyAll w quota shortfall changes).2.within σ) := by
  induction changes generalizing w with
  | nil => rfl
  | cons change rest ih =>
    obtain ⟨item, target⟩ := change
    unfold denyAll
    rw [World.emit_within (h _ List.mem_cons_self) hf,
      ih (fun x hx => h x (List.mem_cons_of_mem _ hx)) (hf.emit _)]

theorem settleBatch_within (hw : w.IsCalm) {changes : List Launch}
    (h : ∀ c ∈ changes, σ.has c.1.key = true) (hf : σ.Fits w) :
    settleBatch (w.within σ) σ.ns changes =
      ((settleBatch w σ.ns changes).1, (settleBatch w σ.ns changes).2.within σ) := by
  unfold settleBatch
  rw [World.admission_within hw, hw.admission]
  dsimp only
  cases w.cluster.verdict σ.ns (Quota.batchNeed (changes.map fun c => (c.1, c.2.replicas))) with
  | allowed => exact launchAll_within h
  | denied quota shortfall =>
    dsimp only
    rw [denyAll_within quota shortfall h hf]

theorem ofWorkloads_within (hw : w.IsCalm) {items : List Workload}
    (h : ∀ item ∈ items, σ.has item.key = true) (hf : σ.Fits w) :
    ofWorkloads (w.within σ) σ.ns state items =
      ((ofWorkloads w σ.ns state items).1, (ofWorkloads w σ.ns state items).2.within σ) := by
  obtain ⟨heq, hfits⟩ := assessAll_within state h hf
  have hsub := assessAll_sublist state items w
  have hcalm : (assessAll w state items).2.IsCalm := by
    obtain ⟨f, r, e, hbooked⟩ := assessAll_booked state items w
    exact ⟨(assessAll_faults state items w).trans hw.faults, by rw [hbooked]; exact hw.rules,
      by rw [hbooked]; exact hw.conflicts⟩
  unfold ofWorkloads
  rw [heq]
  dsimp only
  split
  · rfl
  · rw [settleBatch_within hcalm (fun c hc => h _ (hsub.subset (List.mem_map_of_mem hc))) hfits]

/-- **A cycle for a namespace depends on what the namespace shows, and concerns nothing else.** -/
theorem ofNamespace_within (s : Settings) (hw : w.IsCalm)
    (h : ∀ key, key.ns = σ.ns → σ.has key = true) (hf : σ.Fits w) :
    ofNamespace s (w.within σ) σ.ns =
      ((ofNamespace s w σ.ns).1, (ofNamespace s w σ.ns).2.within σ) := by
  have hcongr : (NamespaceState.resolve (w.within σ) σ.ns).1 = (NamespaceState.resolve w σ.ns).1 :=
    NamespaceState.resolve_congr hw.faults (hw.within σ).faults rfl rfl Cluster.statesOf_within
  have hstay := NamespaceState.resolve_of_faults hw.faults σ.ns
  have hstay' := NamespaceState.resolve_of_faults (hw.within σ).faults σ.ns
  have hlist : ∀ kind, (w.within σ).cluster.list kind σ.ns selector =
      w.cluster.list kind σ.ns selector := fun kind => Cluster.list_within kind selector
  have hitems : ∀ item ∈ s.enabledKinds.flatMap fun k => w.cluster.list k σ.ns selector,
      σ.has item.key = true := by
    intro item hitem
    obtain ⟨kind, -, hmem⟩ := List.mem_flatMap.1 hitem
    exact h item.key (Cluster.ns_of_mem_list hmem)
  unfold ofNamespace
  rcases hr : NamespaceState.resolve w σ.ns with ⟨r, w₁⟩
  rcases hr' : NamespaceState.resolve (w.within σ) σ.ns with ⟨r', w₁'⟩
  rw [hr] at hstay hcongr
  rw [hr'] at hstay' hcongr
  obtain rfl : w₁ = w := hstay
  obtain rfl : w₁' = w₁.within σ := hstay'
  obtain rfl : r' = r := hcongr
  cases r' with
  | error e => rfl
  | ok state =>
    dsimp only
    rw [listAll_of_faults hw.faults, listAll_of_faults (hw.within σ).faults]
    simp only [hlist]
    rw [ofWorkloads_within hw hitems hf]

end Cycle

/-! ## Attempts -/

namespace Attempt

variable {s : Settings} {a : Attempt} {w : World} {σ : Scope}

/-- An attempt without the instants of its wait. -/
def timeless (a : Attempt) : Attempt :=
  match a.phase with
  | .polling wait => { a with phase := .polling { wait with deadline := 0, ticket := none } }
  | _ => a

/-- An attempt and its world after a wait that only time ends. -/
def foresee (a : Attempt) (w : World) : Attempt × World :=
  match a.stuck? w with
  | some wait => a.timeOut w wait
  | none => (a, w)

theorem only_recorded (r : Registry) {p : Key → Bool} (h : p a.key = true) (e : Ending) :
    a.recorded (r.only p) e = (a.recorded r e).only p := by
  have hitem : p a.item.key = true := h
  cases e with
  | done o =>
    cases o with
    | unchanged => exact congrArg Prod.snd (r.only_settle h a.item.spec)
    | scaled n => exact congrArg Prod.snd (r.only_settle h n)
    | quotaDenied => exact r.only_release h
    | removed => exact (r.only_erase h).symm
  | failed e =>
    unfold recorded Registry.update Registry.upsert
    rw [Table.contains_eq_isSome, Table.contains_eq_isSome, Table.get?_only_of r h]
    dsimp only
    split
    · rw [Table.only_adjust r h]
    · rw [Table.only_insert r hitem]

theorem only_marked (r : Registry) {p : Key → Bool} (h : p a.key = true) :
    a.marked (r.only p) = (a.marked r).only p := by
  have hitem : p a.item.key = true := h
  unfold marked Registry.update Registry.upsert
  rw [Table.contains_eq_isSome, Table.contains_eq_isSome, Table.get?_only_of r h]
  split
  · rw [Table.only_adjust r h]
  · rw [Table.only_insert r hitem]

theorem desired_only (r : Registry) {p : Key → Bool} (h : p a.key = true) :
    a.desired (r.only p) = a.desired r := by
  unfold desired
  rw [Table.get?_only_of r h]

section

variable (hk : σ.has a.key = true) (hf : σ.Fits w)
include hk hf

theorem tell_within (cause : Event.Cause) :
    a.tell (w.within σ) cause = (a.tell w cause).within σ := World.emit_within hk hf

theorem conclude_within (e : Ending) :
    a.conclude (w.within σ) e = ((a.conclude w e).1, (a.conclude w e).2.within σ) := by
  have hreg : { w.within σ with registry := a.recorded (w.within σ).registry e } =
      ({ w with registry := a.recorded w.registry e } : World).within σ := by
    rw [show (w.within σ).registry = w.registry.only σ.has from rfl, only_recorded _ hk]
    rfl
  have hf' : σ.Fits { w with registry := a.recorded w.registry e } := ⟨hf.told, hf.written⟩
  unfold conclude
  dsimp only
  rw [hreg]
  cases e with
  | done o =>
    cases o with
    | scaled n => exact congrArg _ (tell_within hk hf' _)
    | unchanged | quotaDenied | removed => rfl
  | failed e => exact congrArg _ (tell_within hk hf' _)

theorem begin_within :
    a.begin s (w.within σ) = ((a.begin s w).1, (a.begin s w).2.within σ) := by
  have hcontains : (w.within σ).registry.contains a.key = w.registry.contains a.key := by
    rw [Table.contains_eq_isSome, Table.contains_eq_isSome]
    exact congrArg _ (Table.get?_only_of w.registry hk)
  have hmarked : { w.within σ with registry := a.marked (w.within σ).registry } =
      ({ w with registry := a.marked w.registry } : World).within σ := by
    rw [show (w.within σ).registry = w.registry.only σ.has from rfl, only_marked _ hk]
    rfl
  have hf' : σ.Fits { w with registry := a.marked w.registry } := ⟨hf.told, hf.written⟩
  have hbegin : ∀ v : World, a.begin s v =
      if a.item.spec = a.target.replicas ∧ ¬ a.item.failure ∧ ¬ v.registry.contains a.key then
        ({ a with phase := .ended (.done .unchanged) }, v)
      else if s.adapters.contains a.item.kind then
        ({ a with phase := .deciding }, { v with registry := a.marked v.registry })
      else a.fail { v with registry := a.marked v.registry } (.noAdapter a.item.kind) :=
    fun v => rfl
  rw [hbegin, hbegin, hcontains, hmarked]
  split
  · rfl
  · split
    · rfl
    · exact conclude_within hk hf' _

theorem decide_within :
    (a.decide s (w.within σ)).1.timeless = (a.decide s w).1.timeless ∧
      (a.decide s (w.within σ)).2 = (a.decide s w).2.within σ := by
  have hdesired : a.desired (w.within σ).registry = a.desired w.registry :=
    desired_only w.registry hk
  have hmark : { w.within σ with
        registry := (w.within σ).registry.update a.key ({ · with scaling := true }) } =
      ({ w with registry := w.registry.update a.key ({ · with scaling := true }) } :
        World).within σ := by
    unfold Registry.update World.within
    dsimp only
    rw [Table.only_adjust _ hk]
  have hf' : σ.Fits
      { w with registry := w.registry.update a.key ({ · with scaling := true }) } :=
    ⟨hf.told, hf.written⟩
  unfold decide
  rw [hdesired, hmark]
  dsimp only
  split
  · rw [conclude_within hk hf']
    exact ⟨rfl, rfl⟩
  · split
    · exact ⟨rfl, rfl⟩
    · split
      · exact ⟨by simp only [timeless], rfl⟩
      · exact ⟨rfl, rfl⟩

variable (hw : w.IsCalm) (hns : a.key.ns = σ.ns)
include hw hns

theorem write_within (n : Int) (k : Nat) :
    a.write s (w.within σ) n k = ((a.write s w n k).1, (a.write s w n k).2.within σ) := by
  have hget : (w.within σ).cluster.inventory.get? a.item.id = w.cluster.inventory.get? a.item.id :=
    Cluster.get?_within hns
  rw [write_of_calm hw, write_of_calm (hw.within σ), hget]
  cases hlive : w.cluster.inventory.get? a.item.id with
  | none => exact conclude_within hk hf _
  | some live =>
    have hhome : live.key.ns = σ.ns :=
      (congrArg (fun id : WorkloadId => id.key.ns) (Inventory.id_of_get? hlive)).trans hns
    have hverdict : (w.within σ).cluster.verdict live.key.ns (Quota.itemNeed live n) =
        w.cluster.verdict live.key.ns (Quota.itemNeed live n) := by
      rw [hhome]
      exact Cluster.verdict_within _
    dsimp only
    split
    · rw [hverdict]
      cases w.cluster.verdict live.key.ns (Quota.itemNeed live n) with
      | denied quota shortfall =>
        dsimp only
        rw [tell_within hk hf]
        exact conclude_within hk (hf.emit _) _
      | allowed =>
        dsimp only
        split
        · have hupdate := Cluster.update_within hhome hf.written n
          show (_, { w.within σ with
            cluster := (w.cluster.within σ.ns σ.written).update live n }) = _
          rw [hupdate]
          rfl
        · have hput := w.cluster.inventory.put_within (x := w.cluster.withCount live n) hhome
          show (_, { w.within σ with
            cluster := (w.cluster.within σ.ns σ.written).overrun live n }) = _
          unfold Cluster.overrun
          rw [show (w.cluster.within σ.ns σ.written).withCount live n =
            w.cluster.withCount live n from rfl]
          rw [show (w.cluster.within σ.ns σ.written).inventory =
            w.cluster.inventory.within σ.ns from rfl, hput]
          rfl
    · exact conclude_within hk hf _

omit hk hf hw in
theorem stuck?_within {b : Attempt} (hb : b.item = a.item) :
    b.stuck? (w.within σ) = b.stuck? w := by
  refine stuck?_congr (Cluster.get?_within ?_)
  rw [hb]
  exact hns

/-- A poll that is not stuck does not look at the clock. -/
theorem poll_within {wait : Wait} (hp : a.phase = .polling wait) (h : a.stuck? w = none) :
    (a.timeless.poll s (w.within σ) { wait with deadline := 0, ticket := none }).1.timeless =
        (a.poll s w wait).1.timeless ∧
      (a.timeless.poll s (w.within σ) { wait with deadline := 0, ticket := none }).2 =
        (a.poll s w wait).2.within σ := by
  have hget : (w.within σ).cluster.inventory.get? a.timeless.item.id =
      w.cluster.inventory.get? a.item.id := by
    simp only [timeless, hp]
    exact Cluster.get?_within hns
  have hconclude : ∀ e, a.timeless.conclude (w.within σ) e =
      ((a.conclude w e).1, (a.conclude w e).2.within σ) := by
    intro e
    rw [← conclude_within hk hf]
    simp only [timeless, hp]
    rfl
  rw [poll_of_calm hw, poll_of_calm (hw.within σ), hget]
  cases hlive : w.cluster.inventory.get? a.item.id with
  | none =>
    dsimp only
    rw [hconclude]
    exact ⟨rfl, rfl⟩
  | some live =>
    dsimp only
    rw [show isReady { wait with deadline := 0, ticket := none } live = isReady wait live from rfl]
    split
    · simp only [timeless, hp]
      exact ⟨trivial, trivial⟩
    · rename_i hready
      split
      · unfold fail
        rw [show a.timeless.key = a.key by simp only [timeless, hp]; rfl, hconclude]
        exact ⟨rfl, rfl⟩
      · rename_i hdeadline
        have hstuck := stuck?_eq_some.2 ⟨(by simp [wait?, hp] : a.wait? = some wait), live, hlive,
          by simpa using hready, by simpa using hdeadline⟩
        rw [h] at hstuck
        cases hstuck

/-- **A step of an attempt that goes on at once depends on what its scope shows, and concerns
nothing else.** -/
theorem step_within (h : a.isActive w = true) :
    (a.timeless.step s (w.within σ)).1.timeless = (a.step s w).1.timeless ∧
      (a.timeless.step s (w.within σ)).2 = (a.step s w).2.within σ := by
  cases hp : a.phase with
  | starting =>
    have hsame : a.timeless = a := by simp only [timeless, hp]
    rw [hsame]
    simp only [step, hp]
    rw [begin_within hk hf]
    exact ⟨rfl, rfl⟩
  | deciding =>
    have hsame : a.timeless = a := by simp only [timeless, hp]
    rw [hsame]
    simp only [step, hp]
    exact decide_within hk hf
  | polling wait =>
    have hstuck : a.stuck? w = none := by simpa [isActive, hp] using h
    have hphase : a.timeless.phase = .polling { wait with deadline := 0, ticket := none } := by
      simp only [timeless, hp]
    simp only [step, hp, hphase]
    exact poll_within hk hf hw hns hp hstuck
  | writing n k =>
    have hsame : a.timeless = a := by simp only [timeless, hp]
    rw [hsame]
    simp only [step, hp]
    rw [write_within hk hf hw hns]
    exact ⟨rfl, rfl⟩
  | waiting | backingOff | ended | aborted => simp [isActive, hp] at h

omit hw in
/-- What the end of a wait that only time ends looks like depends on what the scope shows. -/
theorem foresee_within :
    (a.timeless.foresee (w.within σ)).1.timeless = (a.foresee w).1.timeless ∧
      (a.timeless.foresee (w.within σ)).2 = (a.foresee w).2.within σ := by
  have hstuck : a.stuck? (w.within σ) = a.stuck? w := stuck?_within hns rfl
  cases hp : a.phase with
  | polling wait =>
    have hsame : a.timeless =
        { a with phase := .polling { wait with deadline := 0, ticket := none } } := by
      simp only [timeless, hp]
    have htimeless : a.timeless.stuck? (w.within σ) =
        (a.stuck? (w.within σ)).map fun wait => { wait with deadline := 0, ticket := none } := by
      have hfilter : ∀ c : Bool,
          (if c = true then some { wait with deadline := 0, ticket := none } else none) =
            (if c = true then some wait else none).map
              fun wait => { wait with deadline := 0, ticket := none } := fun c => by cases c <;> rfl
      rw [hsame]
      simp only [stuck?, wait?, hp, Option.filter_some]
      exact hfilter _
    unfold foresee
    rw [htimeless, hstuck]
    cases h : a.stuck? w with
    | none => exact ⟨by simp only [Option.map_none, timeless, hp], rfl⟩
    | some wait' =>
      simp only [Option.map_some]
      have hend := conclude_within (a := a) hk hf
        (.failed (.stepTimeout a.key wait'.step wait'.limit))
      rw [hsame]
      exact ⟨congrArg (fun r => r.1.timeless) hend, congrArg Prod.snd hend⟩
  | starting | deciding | waiting | writing | backingOff | ended | aborted =>
    have hsame : a.timeless = a := by simp only [timeless, hp]
    rw [hsame]
    unfold foresee
    rw [hstuck]
    cases a.stuck? w with
    | none => exact ⟨rfl, rfl⟩
    | some wait =>
      have hend := conclude_within (a := a) hk hf
        (.failed (.stepTimeout a.key wait.step wait.limit))
      exact ⟨congrArg (fun r => r.1.timeless) hend, congrArg Prod.snd hend⟩

end

end Attempt

end ReplicaControl
