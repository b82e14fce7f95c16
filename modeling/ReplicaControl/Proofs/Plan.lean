import ReplicaControl.Proofs.RegistryMarks
import ReplicaControl.Proofs.Request
import ReplicaControl.Proofs.Scene

/-!
# What triggers do

* `Cluster.Resolves` — the state that holds in a namespace by what a cluster declares and selects.
* `Plan` — everything that a trigger does to the registry, one entry after the other, with the
  attempts that it launches.  `P` says for which workloads it computes which targets.
* `ofWorkloads_plan`, `survey_plan` — cycles and sweeps follow a plan.
* `fire_plan` — every trigger does, with the one exception of a cycle for a workload that is gone:
  it drops the registry's entry, whatever it is.
* `fire_booked` — a trigger changes nothing but the registry and the events.
-/

namespace ReplicaControl

/-! ## Resolution -/

/-- The state that holds in a namespace. -/
def Cluster.Resolves (c : Cluster) (ns : String) (state : State) : Prop :=
  NamespaceState.checkDefinitions c.definitions = .ok () ∧
    ∃ cluster selected, NamespaceState.atMostOne .cluster c.clusterStates = .ok cluster ∧
      NamespaceState.atMostOne .ns (c.statesOf ns) = .ok selected ∧
      NamespaceState.choose c.definitions ns cluster selected = .ok state

namespace NamespaceState

theorem resolve_asked (w : World) (ns : String) : w.Asked (resolve w ns).2 := by
  unfold resolve
  have h₁ := w.fetchDefinitions_asked
  split
  · rename_i hd
    rw [hd] at h₁
    exact h₁
  · rename_i ds w₁ hd
    rw [hd] at h₁
    split
    · exact h₁
    · have h₂ := h₁.trans w₁.fetchClusterStates_asked
      split
      · rename_i hc
        rw [hc] at h₂
        exact h₂
      · rename_i names w₂ hc
        rw [hc] at h₂
        split
        · exact h₂
        · have h₃ := h₂.trans (w₂.fetchNamespaceStates_asked ns)
          split
          · rename_i hn
            rw [hn] at h₃
            exact h₃
          · rename_i hn
            rw [hn] at h₃
            split <;> exact h₃

/-- A resolution that succeeds finds the state that holds. -/
theorem resolve_ok {w : World} {ns : String} {state : State} (h : (resolve w ns).1 = .ok state) :
    w.cluster.Resolves ns state := by
  unfold resolve at h
  have h₁ := w.fetchDefinitions_asked
  split at h
  · cases h
  · rename_i ds w₁ hd
    rw [hd] at h₁
    obtain rfl := World.fetchDefinitions_ok (congrArg Prod.fst hd)
    split at h
    · cases h
    · rename_i hcheck
      have h₂ := h₁.trans w₁.fetchClusterStates_asked
      split at h
      · cases h
      · rename_i names w₂ hc
        rw [hc] at h₂
        obtain rfl := World.fetchClusterStates_ok (congrArg Prod.fst hc)
        rw [h₁.cluster] at h
        split at h
        · cases h
        · rename_i cluster hcl
          split at h
          · cases h
          · rename_i names w₃ hn
            obtain rfl := World.fetchNamespaceStates_ok (congrArg Prod.fst hn)
            rw [h₂.cluster] at h
            split at h
            · cases h
            · rename_i selected hsel
              exact ⟨hcheck, cluster, selected, hcl, hsel, h⟩

end NamespaceState

/-! ## Plans -/

/-- What a trigger does to the registry, and the attempts that it launches. -/
inductive Plan (P : Workload → Target → Prop) : Registry → List Launch → Registry → Prop
  | done (r : Registry) : Plan P r [] r
  /-- The target of an entry is revised. -/
  | revise {r r' : Registry} {item : Workload} {target : Target} {launches : List Launch}
      (hp : P item target) (ha : r.isInFlight item.key = true ∨ r.isFailed item.key = true)
      (rest : Plan P (r.retarget item.key target.replicas) launches r') : Plan P r launches r'
  /-- A workload is claimed, and its attempt launched. -/
  | claim {r r' : Registry} {item : Workload} {target : Target} {launches : List Launch}
      (hp : P item target) (hne : item.spec ≠ target.replicas)
      (hi : r.isInFlight item.key = false) (hf : r.isFailed item.key = false)
      (rest : Plan P (r.insert item.key (Registry.started item target.replicas)) launches r') :
      Plan P r ((item, target) :: launches) r'
  /-- An attempt is launched for a failed entry. -/
  | retry {r r' : Registry} {entry live : Workload} {target : Target} {launches : List Launch}
      (hp : P live target) (he : r.get? entry.key = some entry) (hf : entry.failure = true)
      (hs : entry.scaling = false) (hid : live.id = entry.id)
      (rest : Plan P
        (r.upsert { entry with scaling := true } true entry.failureMessage target.replicas)
        launches r') :
      Plan P r (({ live with failure := true, failureMessage := entry.failureMessage }, target) ::
        launches) r'
  /-- A failed entry has no target, and says so. -/
  | note {r r' : Registry} {entry : Workload} {message : String} {launches : List Launch}
      (he : r.get? entry.key = some entry) (hf : entry.failure = true) (hs : entry.scaling = false)
      (rest : Plan P (r.update entry.key ({ · with failureMessage := message })) launches r') :
      Plan P r launches r'
  | drop {r r' : Registry} {entry : Workload} {launches : List Launch}
      (he : r.get? entry.key = some entry) (hf : entry.failure = true) (hs : entry.scaling = false)
      (rest : Plan P (r.erase entry.key) launches r') : Plan P r launches r'

theorem Plan.trans {P : Workload → Target → Prop} {r₁ r₂ r₃ : Registry} {l₁ l₂ : List Launch}
    (h₁ : Plan P r₁ l₁ r₂) (h₂ : Plan P r₂ l₂ r₃) : Plan P r₁ (l₁ ++ l₂) r₃ := by
  induction h₁ with
  | done r => exact h₂
  | revise hp ha _ ih => exact .revise hp ha (ih h₂)
  | claim hp hne hi hf _ ih => exact .claim hp hne hi hf (ih h₂)
  | retry hp he hf hs hid _ ih => exact .retry hp he hf hs hid (ih h₂)
  | note he hf hs _ ih => exact .note he hf hs (ih h₂)
  | drop he hf hs _ ih => exact .drop he hf hs (ih h₂)

theorem Plan.filed {P : Workload → Target → Prop} {r r' : Registry} {launches : List Launch}
    (h : Plan P r launches r') (hr : r.Filed) : r'.Filed := by
  induction h with
  | done r => exact hr
  | revise _ _ _ ih => exact ih (hr.retarget _ _)
  | claim _ _ _ _ _ ih => exact ih (hr.insert rfl)
  | retry _ _ _ _ _ _ ih => exact ih (hr.upsert _ _ _ _)
  | note _ _ _ _ ih => exact ih (hr.update _ fun _ => rfl)
  | drop _ _ _ _ ih => exact ih (hr.erase _)

/-! ## Cycles -/

namespace Cycle

variable {P : Workload → Target → Prop} {state : State}

/-- The target of an active entry is revised, and nothing else happens. -/
theorem revise_cases (w : World) (item : Workload) (target : Target) :
    ((w.registry.isInFlight item.key = true ∨ w.registry.isFailed item.key = true) ∧
      revise w item target =
        (some (.deferred target.replicas (!w.registry.isInFlight item.key)),
          { w with registry := w.registry.retarget item.key target.replicas })) ∨
    (w.registry.isInFlight item.key = false ∧ w.registry.isFailed item.key = false ∧
      revise w item target = (none, w)) := by
  unfold revise
  rcases w.registry.claim_cases item target.replicas with
    ⟨hi, hc⟩ | ⟨hi, hf, hc⟩ | ⟨hi, hf, -⟩
  · exact .inl ⟨.inl hi, by simp [hi, hc]⟩
  · exact .inl ⟨.inr hf, by simp [hi, hf, hc]⟩
  · exact .inr ⟨hi, hf, by simp [hi, hf]⟩

/-- What a cycle makes of a workload before the quotas are asked. -/
theorem assess_cases (w : World) (state : State) (item : Workload) :
    (∃ d w₁, assess w state item = (.inl d, w₁) ∧ w₁.registry = w.registry) ∨
    (∃ d target, targetOf item state = .ok (some target) ∧
      (w.registry.isInFlight item.key = true ∨ w.registry.isFailed item.key = true) ∧
      assess w state item =
        (.inl d, { w with registry := w.registry.retarget item.key target.replicas })) ∨
    (∃ target, targetOf item state = .ok (some target) ∧ item.spec ≠ target.replicas ∧
      w.registry.isInFlight item.key = false ∧ w.registry.isFailed item.key = false ∧
      assess w state item = (.inr target, w)) := by
  unfold assess
  split
  · exact .inl ⟨_, _, rfl, rfl⟩
  · exact .inl ⟨_, _, rfl, rfl⟩
  · rename_i target ht
    rcases revise_cases w item target with ⟨ha, hr⟩ | ⟨hi, hf, hr⟩
    · exact .inr (.inl ⟨_, target, ht, ha, by rw [hr]⟩)
    · rw [hr]
      dsimp only
      split
      · exact .inl ⟨_, _, rfl, rfl⟩
      · exact .inr (.inr ⟨target, ht, ‹_›, hi, hf, rfl⟩)

theorem assessAll_plan (items : List Workload) (w : World)
    (hP : ∀ item ∈ items, ∀ t, targetOf item state = .ok (some t) → P item t) :
    Plan P w.registry [] (assessAll w state items).2.registry ∧
      ∀ c ∈ (assessAll w state items).1.2, P c.1 c.2 ∧ c.1.spec ≠ c.2.replicas := by
  induction items generalizing w with
  | nil => exact ⟨.done w.registry, fun c hc => nomatch hc⟩
  | cons item rest ih =>
    have hrest : ∀ x ∈ rest, ∀ t, targetOf x state = .ok (some t) → P x t :=
      fun x hx => hP x (List.mem_cons_of_mem item hx)
    rcases assess_cases w state item with
      ⟨d, w₁, ha, hr⟩ | ⟨d, target, ht, hact, ha⟩ | ⟨target, ht, hne, -, -, ha⟩
    · simp only [assessAll, ha]
      rw [← hr]
      exact ih w₁ hrest
    · simp only [assessAll, ha]
      have h := ih { w with registry := w.registry.retarget item.key target.replicas } hrest
      exact ⟨.revise (hP item List.mem_cons_self target ht) hact h.1, h.2⟩
    · simp only [assessAll, ha]
      have h := ih w hrest
      refine ⟨h.1, fun c hc => ?_⟩
      rcases List.mem_cons.1 hc with rfl | hc
      · exact ⟨hP item List.mem_cons_self target ht, hne⟩
      · exact h.2 c hc

theorem launchAll_plan (changes : List Launch) (w : World)
    (hP : ∀ c ∈ changes, P c.1 c.2 ∧ c.1.spec ≠ c.2.replicas) :
    Plan P w.registry (launchAll w changes).1.2 (launchAll w changes).2.registry := by
  induction changes generalizing w with
  | nil => exact .done w.registry
  | cons change rest ih =>
    obtain ⟨item, target⟩ := change
    obtain ⟨hp, hne⟩ := hP _ List.mem_cons_self
    have hrest : ∀ c ∈ rest, P c.1 c.2 ∧ c.1.spec ≠ c.2.replicas :=
      fun c hc => hP c (List.mem_cons_of_mem _ hc)
    have ih := fun r => ih { w with registry := r } hrest
    rcases w.registry.claim_cases item target.replicas with
      ⟨hi, hc⟩ | ⟨hi, hf, hc⟩ | ⟨hi, hf, hc⟩
    · simp only [launchAll, hc]
      exact .revise hp (.inl hi) (ih _)
    · simp only [launchAll, hc]
      exact .revise hp (.inr hf) (ih _)
    · simp only [launchAll, hc]
      exact .claim hp hne hi hf (ih _)

theorem denyAll_registry (quota : String) (shortfall : ResourceList) (changes : List Launch)
    (w : World) : (denyAll w quota shortfall changes).2.registry = w.registry := by
  induction changes generalizing w with
  | nil => rfl
  | cons change rest ih => exact ih _

theorem settleBatch_plan (ns : String) (changes : List Launch) (w : World)
    (hP : ∀ c ∈ changes, P c.1 c.2 ∧ c.1.spec ≠ c.2.replicas) :
    Plan P w.registry (settleBatch w ns changes).1.2 (settleBatch w ns changes).2.registry := by
  have ha := w.admission_asked ns (Quota.batchNeed (changes.map fun c => (c.1, c.2.replicas)))
  unfold settleBatch
  split
  · rename_i hd
    rw [hd] at ha
    rw [← ha.registry]
    exact .done _
  · rename_i w₁ hd
    rw [hd] at ha
    rw [denyAll_registry, ha.registry]
    exact .done _
  · rename_i w₁ hd
    rw [hd] at ha
    rw [← ha.registry]
    exact launchAll_plan changes w₁ hP

theorem ofWorkloads_plan (ns : String) (items : List Workload) (w : World)
    (hP : ∀ item ∈ items, ∀ t, targetOf item state = .ok (some t) → P item t) :
    Plan P w.registry (ofWorkloads w ns state items).1.launches
      (ofWorkloads w ns state items).2.registry := by
  obtain ⟨hplan, hchanges⟩ := assessAll_plan items w hP
  unfold ofWorkloads
  split
  rename_i decided changes w₁ hassess
  rw [hassess] at hplan hchanges
  split
  · exact hplan
  · exact hplan.trans (settleBatch_plan ns changes w₁ hchanges)

theorem listAll_asked (ns : String) (kinds : List Kind) (w : World) :
    w.Asked (listAll w ns kinds).2 := by
  induction kinds generalizing w with
  | nil => exact .refl w
  | cons kind rest ih =>
    have ha := w.listWorkloads_asked kind ns selector
    unfold listAll
    split
    · rename_i hl
      rw [hl] at ha
      exact ha
    · rename_i items w₁ hl
      rw [hl] at ha
      have hrest := ha.trans (ih w₁)
      split <;> rename_i hr <;> rw [hr] at hrest <;> exact hrest

/-- What a cycle lists is stored, of the listed kinds, in the namespace and under control. -/
theorem mem_listAll {ns : String} {kinds : List Kind} {w : World} {items : List Workload}
    (h : (listAll w ns kinds).1 = .ok items) {x : Workload} (hx : x ∈ items) :
    w.cluster.inventory.get? x.id = some x ∧ x.kind ∈ kinds ∧ x.key.ns = ns ∧
      x.hasLabels selector = true := by
  induction kinds generalizing w items with
  | nil => cases h; cases hx
  | cons kind rest ih =>
    have ha := w.listWorkloads_asked kind ns selector
    unfold listAll at h
    split at h
    · cases h
    · rename_i listed w₁ hl
      rw [hl] at ha
      obtain rfl := World.listWorkloads_ok (congrArg Prod.fst hl)
      split at h
      · cases h
      · rename_i others w₂ hr
        cases h
        rcases List.mem_append.1 hx with hx | hx
        · obtain ⟨hmem, hcond⟩ := List.mem_filter.1 hx
          obtain ⟨⟨id, y⟩, he, rfl⟩ := List.mem_map.1 hmem
          have hget : w.cluster.inventory.get? id = some y := (Table.mem_entries_iff _).1 he
          obtain rfl := Inventory.id_of_get? hget
          simp only [Bool.and_eq_true, beq_iff_eq] at hcond
          obtain ⟨⟨hk, hns⟩, hlab⟩ := hcond
          exact ⟨hget, hk ▸ List.mem_cons_self, hns, hlab⟩
        · obtain ⟨hget, hk, hns, hlab⟩ := ih (congrArg Prod.fst hr) hx
          rw [ha.cluster] at hget
          exact ⟨hget, List.mem_cons_of_mem kind hk, hns, hlab⟩

end Cycle

/-! ## Sweeps -/

namespace Sweep

/-- The resolved states that a sweep remembers are the ones that hold. -/
def Remembers (c : Cluster) (states : States) : Prop :=
  ∀ ns state, states.lookup ns = some (some state) → c.Resolves ns state

theorem stateOf_asked (w : World) (states : States) (ns : String) :
    w.Asked (stateOf w states ns).2.2 := by
  unfold stateOf
  split
  · exact .refl w
  · exact NamespaceState.resolve_asked w ns

theorem stateOf_spec {w : World} {states : States} (h : Remembers w.cluster states) (ns : String) :
    w.Asked (stateOf w states ns).2.2 ∧ Remembers w.cluster (stateOf w states ns).2.1 ∧
      ∀ state, (stateOf w states ns).1 = some state → w.cluster.Resolves ns state := by
  unfold stateOf
  split
  · rename_i state hl
    refine ⟨.refl w, h, fun st hst => h ns st ?_⟩
    rw [hl]
    exact congrArg some hst
  · have ha := NamespaceState.resolve_asked w ns
    split
    rename_i result w₁ hr
    have hok : ∀ st, result.toOption = some st → w.cluster.Resolves ns st := by
      intro st hst
      cases result with
      | error e => cases hst
      | ok st' =>
        obtain rfl := Option.some.inj hst
        exact NamespaceState.resolve_ok (congrArg Prod.fst hr)
    rw [hr] at ha
    refine ⟨ha, fun ns' st hl => ?_, hok⟩
    rw [List.lookup_cons] at hl
    split at hl
    · rename_i heq
      obtain rfl : ns' = ns := by simpa using heq
      exact hok st (Option.some.inj hl)
    · exact h ns' st hl

/-- What a sweep makes of a failed entry that no attempt is running for. -/
theorem visit_cases (s : Settings) (w : World) (entry : Workload) (state : State) :
    (∃ w₁, visit s w entry state = (.skipped, w₁) ∧ w.Asked w₁) ∨
    (∃ w₁, visit s w entry state =
        (.removed, { w₁ with registry := w₁.registry.erase entry.key }) ∧ w.Asked w₁) ∨
    (∃ w₁ message, visit s w entry state =
        (.untargeted, { w₁ with registry := w₁.registry.update entry.key fun e =>
          { e with failureMessage := message } }) ∧ w.Asked w₁) ∨
    (∃ w₁ live target, w.cluster.inventory.get? entry.id = some live ∧
      s.adapters.contains entry.kind = true ∧ live.targetFor state = .ok target ∧
      visit s w entry state =
        (.launched ({ live with failure := true, failureMessage := entry.failureMessage }, target),
          { w₁ with
            registry := w₁.registry.upsert { entry with scaling := true } true
              entry.failureMessage target.replicas }) ∧ w.Asked w₁) := by
  have ha := w.fetch_asked entry.id
  unfold visit
  split
  · rename_i hk
    split
    · rename_i hf
      rw [hf] at ha
      exact .inr (.inl ⟨_, rfl, ha⟩)
    · rename_i hf
      rw [hf] at ha
      exact .inl ⟨_, rfl, ha⟩
    · rename_i live w₁ hf
      have hget := World.fetch_ok (congrArg Prod.fst hf)
      rw [hf] at ha
      unfold retry
      split
      · exact .inr (.inr (.inl ⟨w₁, _, rfl, ha⟩))
      · rename_i target ht
        exact .inr (.inr (.inr ⟨w₁, live, target, hget, hk, ht, rfl, ha⟩))
  · exact .inl ⟨w, rfl, .refl w⟩

theorem visitAll_plan {P : Workload → Target → Prop} {s : Settings} {c : Cluster}
    {final : List Launch}
    (hP : ∀ live state target, c.inventory.get? live.id = some live →
      c.Resolves live.key.ns state → live.targetFor state = .ok target →
      s.adapters.contains live.kind = true → (∃ l ∈ final, l.1.id = live.id ∧ l.2 = target) →
      P live target) :
    ∀ (entries : List Workload) (w : World) (states : States) (r : Report) (launches : List Launch)
      (r' : Report) (w' : World), w.cluster = c → Remembers c states →
      (entries.map Workload.key).Nodup →
      (∀ e ∈ entries, w.registry.get? e.key = some e ∧ e.failure = true) →
      visitAll s w states r launches entries = ((r', final), w') →
      ∃ ls, final = launches ++ ls ∧ Plan P w.registry ls w'.registry
  | [], w, states, r, launches, r', w', hc, hst, hkeys, hentries, hv => by
    cases hv
    exact ⟨[], by simp, .done _⟩
  | entry :: rest, w, states, r, launches, r', w', hc, hst, hkeys, hentries, hv => by
    obtain ⟨hnotin, hkeys⟩ := List.nodup_cons.1 hkeys
    obtain ⟨hget, hfail⟩ := hentries entry List.mem_cons_self
    have hrest : ∀ reg : Registry, (∀ k, k ≠ entry.key → reg.get? k = w.registry.get? k) →
        ∀ e ∈ rest, reg.get? e.key = some e ∧ e.failure = true := by
      intro reg hreg e he
      have hne : e.key ≠ entry.key := fun hk => hnotin (hk ▸ List.mem_map_of_mem he)
      rw [hreg e.key hne]
      exact hentries e (List.mem_cons_of_mem entry he)
    unfold visitAll at hv
    split at hv
    · exact visitAll_plan hP rest w states r launches r' w' hc hst hkeys
        (hrest w.registry fun _ _ => rfl) hv
    · rename_i hs
      have hs : entry.scaling = false := Bool.eq_false_iff.2 hs
      obtain ⟨ha, hst₁, hres⟩ := stateOf_spec (hc ▸ hst) entry.key.ns
      split at hv
      · rename_i states₁ w₁ hstate
        rw [hstate] at ha hst₁
        rw [← ha.registry]
        exact visitAll_plan hP rest w₁ states₁ r launches r' w' (ha.cluster.trans hc) (hc ▸ hst₁)
          hkeys (hrest w₁.registry fun _ _ => by rw [ha.registry]) hv
      · rename_i state states₁ w₁ hstate
        rw [hstate] at ha hst₁ hres
        have hres := hres state rfl
        rcases visit_cases s w₁ entry state with
          ⟨w₂, hvis, ha₂⟩ | ⟨w₂, hvis, ha₂⟩ | ⟨w₂, message, hvis, ha₂⟩ |
          ⟨w₂, live, target, hlive, hk, ht, hvis, ha₂⟩
        all_goals
          rw [hvis] at hv
          dsimp only [Step.note] at hv
          have hreg : w₂.registry = w.registry := (ha.trans ha₂).registry
          have next : ∀ (reg : Registry) (r₁ : Report) (ls₁ : List Launch),
              (∀ k, k ≠ entry.key → reg.get? k = w.registry.get? k) →
              visitAll s { w₂ with registry := reg } states₁ r₁ ls₁ rest = ((r', final), w') →
              ∃ ls, final = ls₁ ++ ls ∧ Plan P reg ls w'.registry :=
            fun reg r₁ ls₁ hk => visitAll_plan hP rest _ states₁ r₁ ls₁ r' w'
              ((ha.trans ha₂).cluster.trans hc) (hc ▸ hst₁) hkeys (hrest reg hk)
        · rw [← hreg]
          exact next w₂.registry r launches (fun _ _ => by rw [hreg]) hv
        · rw [hreg] at hv
          obtain ⟨ls, hls, hplan⟩ := next _ _ _ (fun k hk => w.registry.get?_erase_of_ne hk) hv
          exact ⟨ls, hls, .drop hget hfail hs hplan⟩
        · rw [hreg] at hv
          obtain ⟨ls, hls, hplan⟩ := next _ _ _
            (fun k hk => (w.registry.get?_update entry.key k _).trans (if_neg hk)) hv
          exact ⟨ls, hls, .note hget hfail hs hplan⟩
        · rw [hreg] at hv
          obtain ⟨ls, hls, hplan⟩ := next _ _ _
            (fun k hk => (w.registry.get?_upsert { entry with scaling := true } true
              entry.failureMessage target.replicas k).trans (if_neg hk)) hv
          have hid : live.id = entry.id := Inventory.id_of_get? hlive
          have hkind : live.kind = entry.kind := congrArg WorkloadId.kind hid
          have hkey : live.key = entry.key := congrArg WorkloadId.key hid
          rw [ha.cluster, hc, ← hid] at hlive
          rw [hc, ← hkey] at hres
          have hmem : ∃ l ∈ final, l.1.id = live.id ∧ l.2 = target :=
            ⟨({ live with failure := true, failureMessage := entry.failureMessage }, target),
              by rw [hls]; simp, rfl, rfl⟩
          have hp : P live target := hP live state target hlive hres ht (hkind ▸ hk) hmem
          exact ⟨_ :: ls, by rw [hls, List.append_assoc]; rfl, .retry hp hget hfail hs hid hplan⟩

/-- The failed entries are entries, each under its own key and each once. -/
theorem failures_spec {r : Registry} (h : r.Filed) :
    (r.failures.map Workload.key).Nodup ∧
      ∀ e ∈ r.failures, r.get? e.key = some e ∧ e.failure = true := by
  have hkey : ∀ p ∈ r.entries, p.2.key = p.1 := fun p hp =>
    h p.1 p.2 ((Table.mem_entries_iff r).1 hp)
  constructor
  · have hsub : (r.failures.map Workload.key).Sublist r.keys := by
      have heq : r.values.map Workload.key = r.keys := by
        rw [Table.values, List.map_map, Table.keys]
        exact List.map_congr_left hkey
      rw [← heq]
      exact List.filter_sublist.map _
    have hnodup : r.keys.Nodup :=
      List.pairwise_map.2 (r.increasing.imp fun {a b} hab he => by simp [he] at hab)
    exact hnodup.sublist hsub
  · intro e he
    obtain ⟨hmem, hf⟩ := List.mem_filter.1 he
    obtain ⟨p, hp, rfl⟩ := List.mem_map.1 hmem
    refine ⟨?_, hf⟩
    rw [hkey p hp]
    exact (Table.mem_entries_iff r).1 hp

end Sweep

/-! ## Triggers -/

/-- A trigger computes a target for a workload: the workload is stored, the target is the one for
the state that holds in its namespace, and the trigger gets to it. -/
def Trigger.Computes (s : Settings) (w : World) (t : Trigger) (x : Workload) (target : Target) :
    Prop :=
  w.cluster.inventory.get? x.id = some x ∧ s.adapters.contains x.kind = true ∧
    (∃ state, w.cluster.Resolves x.key.ns state ∧ x.targetFor state = .ok target) ∧
    match t with
    | .cycle ns => (Cycle.ofNamespace s w ns).1.toOption.isSome ∧ x.key.ns = ns ∧ x.isOptedIn
    | .item id => (Cycle.ofItem s w id).1.toOption.isSome ∧ x.id = id ∧ x.isOptedIn
    | .sweep => ∃ l ∈ (Sweep.survey s w).1.2, l.1.id = x.id ∧ l.2 = target

/-- A cycle for one workload finds out that it is gone. -/
def Cycle.Misses (s : Settings) (w : World) (id : WorkloadId) : Prop :=
  s.enabledKinds.contains id.kind = true ∧
    ∃ state subject, (NamespaceState.resolve w id.key.ns).1 = .ok state ∧
      ((NamespaceState.resolve w id.key.ns).2.fetch id).1 = .error (.notFound subject)

theorem Settings.adapters_of_enabledKinds {s : Settings} {k : Kind} (h : k ∈ s.enabledKinds) :
    s.adapters.contains k = true :=
  (List.mem_filter.1 h).2

/-- A target that a cycle finds is the one for the state. -/
theorem Cycle.targetOf_eq_some {x : Workload} {state : State} {target : Target}
    (h : targetOf x state = .ok (some target)) :
    x.isOptedIn = true ∧ x.targetFor state = .ok target := by
  unfold targetOf at h
  split at h
  · refine ⟨‹_›, ?_⟩
    split at h
    · cases h
    · split at h
      · cases h
      · cases ht : x.targetFor state with
        | error e => rw [ht] at h; cases h
        | ok t => rw [ht] at h; cases h; rfl
  · cases h

theorem Cycle.ofNamespace_plan (s : Settings) (w : World) (ns : String) :
    Plan ((Trigger.cycle ns).Computes s w) w.registry (launchesOf (ofNamespace s w ns).1)
      (ofNamespace s w ns).2.registry := by
  have hres := NamespaceState.resolve_asked w ns
  rcases hr : NamespaceState.resolve w ns with ⟨_ | state, w₁⟩
  · rw [hr] at hres
    rw [← hres.registry]
    simp only [ofNamespace, hr]
    exact .done _
  · rw [hr] at hres
    have hlist := hres.trans (listAll_asked ns s.enabledKinds w₁)
    rcases hl : listAll w₁ ns s.enabledKinds with ⟨_ | items, w₂⟩
    · rw [hl] at hlist
      rw [← hlist.registry]
      simp only [ofNamespace, hr, hl]
      exact .done _
    · rw [hl] at hlist
      have heq : ofNamespace s w ns =
          (.ok (ofWorkloads w₂ ns state items).1, (ofWorkloads w₂ ns state items).2) := by
        simp only [ofNamespace, hr, hl]
      rw [heq, ← hlist.registry]
      refine ofWorkloads_plan ns items w₂ fun x hx target ht => ?_
      obtain ⟨hget, hk, hns, hlab⟩ := mem_listAll (congrArg Prod.fst hl) hx
      rw [hres.cluster] at hget
      refine ⟨hget, Settings.adapters_of_enabledKinds hk, ⟨state, ?_, (targetOf_eq_some ht).2⟩, ?_⟩
      · rw [hns]
        exact NamespaceState.resolve_ok (congrArg Prod.fst hr)
      · refine ⟨?_, hns, (targetOf_eq_some ht).1⟩
        rw [heq]
        rfl

/-- A cycle for a workload that is gone launches nothing and drops the entry of the key. -/
theorem Cycle.Misses.ofItem {s : Settings} {w : World} {id : WorkloadId} (h : Misses s w id) :
    launchesOf (Cycle.ofItem s w id).1 = [] ∧
      (Cycle.ofItem s w id).2.registry = w.registry.erase id.key := by
  obtain ⟨hk, state, subject, hr, hf⟩ := h
  have hres := NamespaceState.resolve_asked w id.key.ns
  rcases hr' : NamespaceState.resolve w id.key.ns with ⟨res, w₁⟩
  rw [hr'] at hr hf hres
  cases hr
  have hread := hres.trans (w₁.fetch_asked id)
  rcases hf' : w₁.fetch id with ⟨item, w₂⟩
  rw [hf'] at hf hread
  cases hf
  simp only [Cycle.ofItem, hk, hr', hf', if_true]
  exact ⟨rfl, congrArg (Table.erase · id.key) hread.registry⟩

/-- A cycle for one workload follows a plan, unless the workload is gone: then the entry of its key
is dropped. -/
theorem Cycle.ofItem_plan (s : Settings) (w : World) (id : WorkloadId) :
    Plan ((Trigger.item id).Computes s w) w.registry (launchesOf (ofItem s w id).1)
        (ofItem s w id).2.registry ∨
      (Misses s w id ∧ launchesOf (ofItem s w id).1 = [] ∧
        (ofItem s w id).2.registry = w.registry.erase id.key) := by
  by_cases hk : s.enabledKinds.contains id.kind
  · have hres := NamespaceState.resolve_asked w id.key.ns
    rcases hr : NamespaceState.resolve w id.key.ns with ⟨_ | state, w₁⟩
    · rw [hr] at hres
      rw [← hres.registry]
      simp only [ofItem, hk, hr]
      exact .inl (.done _)
    · rw [hr] at hres
      have hread := hres.trans (w₁.fetch_asked id)
      rcases hf : w₁.fetch id with ⟨_ | item, w₂⟩
      · rename_i e
        rw [hf] at hread
        cases e with
        | notFound subject =>
          have hmiss : Misses s w id := ⟨hk, state, subject, by rw [hr], by rw [hr, hf]⟩
          exact .inr ⟨hmiss, hmiss.ofItem⟩
        | conflict subject =>
          rw [← hread.registry]
          simp only [ofItem, hk, hr, hf]
          exact .inl (.done _)
        | other detail =>
          rw [← hread.registry]
          simp only [ofItem, hk, hr, hf]
          exact .inl (.done _)
      · rw [hf] at hread
        have heq : ofItem s w id = (.ok (ofWorkloads w₂ id.key.ns state [item]).1,
            (ofWorkloads w₂ id.key.ns state [item]).2) := by
          simp only [ofItem, hk, hr, hf, if_true]
        rw [heq, ← hread.registry]
        refine .inl (ofWorkloads_plan id.key.ns [item] w₂ fun x hx target ht => ?_)
        obtain rfl := List.mem_singleton.1 hx
        have hget := World.fetch_ok (congrArg Prod.fst hf)
        obtain rfl := Inventory.id_of_get? hget
        rw [hres.cluster] at hget
        refine ⟨hget, Settings.adapters_of_enabledKinds (List.contains_iff_mem.1 hk),
          ⟨state, NamespaceState.resolve_ok (congrArg Prod.fst hr), (targetOf_eq_some ht).2⟩, ?_⟩
        refine ⟨?_, rfl, (targetOf_eq_some ht).1⟩
        rw [heq]
        rfl
  · simp only [ofItem, hk]
    exact .inl (.done _)

theorem Sweep.survey_plan (s : Settings) {w : World} (h : w.registry.Filed) :
    Plan (Trigger.sweep.Computes s w) w.registry (survey s w).1.2 (survey s w).2.registry := by
  obtain ⟨hkeys, hentries⟩ := failures_spec h
  obtain ⟨ls, hls, hplan⟩ := visitAll_plan (s := s) (c := w.cluster)
    (P := Trigger.sweep.Computes s w)
    (fun live state target hget hres ht hk hl => ⟨hget, hk, ⟨state, hres, ht⟩, hl⟩)
    w.registry.failures w [] {} [] (survey s w).1.1 (survey s w).2 rfl
    (fun _ _ hn => nomatch hn) hkeys hentries rfl
  rw [List.nil_append] at hls
  exact hls ▸ hplan

/-- **Every trigger follows a plan**, except for a cycle for a workload that is gone, which drops
the registry's entry of its key. -/
theorem Trigger.fire_plan (s : Settings) {w : World} (h : w.registry.Filed) (t : Trigger) :
    Plan (t.Computes s w) w.registry (t.fire s w).1 (t.fire s w).2.registry ∨
      ∃ id, t = .item id ∧ Cycle.Misses s w id ∧ (t.fire s w).1 = [] ∧
        (t.fire s w).2.registry = w.registry.erase id.key := by
  cases t with
  | cycle ns => exact .inl (Cycle.ofNamespace_plan s w ns)
  | item id =>
    rcases Cycle.ofItem_plan s w id with hplan | hmiss
    · exact .inl hplan
    · exact .inr ⟨id, rfl, hmiss⟩
  | sweep => exact .inl (Sweep.survey_plan s h)

/-! ## What triggers leave alone -/

namespace Cycle

theorem assess_booked (w : World) (state : State) (item : Workload) :
    w.Booked (assess w state item).2 := by
  unfold assess
  split
  · exact w.emit_booked _
  · exact .refl w
  · rename_i target ht
    rcases revise_cases w item target with ⟨-, hr⟩ | ⟨-, -, hr⟩
    · rw [hr]
      exact w.registry_booked _
    · rw [hr]
      dsimp only
      split <;> exact .refl w

theorem assessAll_booked (state : State) (items : List Workload) (w : World) :
    w.Booked (assessAll w state items).2 := by
  induction items generalizing w with
  | nil => exact .refl w
  | cons item rest ih =>
    have h := assess_booked w state item
    unfold assessAll
    split <;> rename_i w₁ ha <;> rw [ha] at h <;> exact h.trans (ih w₁)

theorem launchAll_booked (changes : List Launch) (w : World) :
    w.Booked (launchAll w changes).2 := by
  induction changes generalizing w with
  | nil => exact .refl w
  | cons change rest ih =>
    unfold launchAll
    split <;> exact (w.registry_booked _).trans (ih _)

theorem denyAll_booked (quota : String) (shortfall : ResourceList) (changes : List Launch)
    (w : World) : w.Booked (denyAll w quota shortfall changes).2 := by
  induction changes generalizing w with
  | nil => exact .refl w
  | cons change rest ih => exact (w.emit_booked _).trans (ih _)

theorem settleBatch_booked (w : World) (ns : String) (changes : List Launch) :
    w.Booked (settleBatch w ns changes).2 := by
  have ha := w.admission_asked ns (Quota.batchNeed (changes.map fun c => (c.1, c.2.replicas)))
  unfold settleBatch
  split
  · rename_i hd
    rw [hd] at ha
    exact ha.booked
  · rename_i w₁ hd
    rw [hd] at ha
    exact ha.booked.trans (denyAll_booked _ _ _ w₁)
  · rename_i w₁ hd
    rw [hd] at ha
    exact ha.booked.trans (launchAll_booked changes w₁)

theorem ofWorkloads_booked (w : World) (ns : String) (state : State) (items : List Workload) :
    w.Booked (ofWorkloads w ns state items).2 := by
  have h := assessAll_booked state items w
  unfold ofWorkloads
  split
  rename_i decided changes w₁ ha
  rw [ha] at h
  split
  · exact h
  · exact h.trans (settleBatch_booked w₁ ns changes)

theorem ofNamespace_booked (s : Settings) (w : World) (ns : String) :
    w.Booked (ofNamespace s w ns).2 := by
  have h := (NamespaceState.resolve_asked w ns).booked
  unfold ofNamespace
  split
  · rename_i hr
    rw [hr] at h
    exact h
  · rename_i state w₁ hr
    rw [hr] at h
    have hl := h.trans (listAll_asked ns s.enabledKinds w₁).booked
    split
    · rename_i hlist
      rw [hlist] at hl
      exact hl
    · rename_i items w₂ hlist
      rw [hlist] at hl
      exact hl.trans (ofWorkloads_booked w₂ ns state items)

theorem ofItem_booked (s : Settings) (w : World) (id : WorkloadId) :
    w.Booked (ofItem s w id).2 := by
  have h := (NamespaceState.resolve_asked w id.key.ns).booked
  unfold ofItem
  split
  · split
    · rename_i hr
      rw [hr] at h
      exact h
    · rename_i state w₁ hr
      rw [hr] at h
      have hf := h.trans (w₁.fetch_asked id).booked
      split
      · rename_i w₂ hfetch
        rw [hfetch] at hf
        exact hf.trans ((w₂.registry_booked _).trans (ofWorkloads_booked _ _ _ _))
      · rename_i hfetch
        rw [hfetch] at hf
        exact hf
      · rename_i w₂ hfetch
        rw [hfetch] at hf
        exact hf.trans (ofWorkloads_booked w₂ _ _ _)
  · exact .refl w

end Cycle

namespace Sweep


theorem visit_booked (s : Settings) (w : World) (entry : Workload) (state : State) :
    w.Booked (visit s w entry state).2 := by
  rcases visit_cases s w entry state with
    ⟨w₁, hv, ha⟩ | ⟨w₁, hv, ha⟩ | ⟨w₁, _, hv, ha⟩ | ⟨w₁, _, _, -, -, -, hv, ha⟩
  · rw [hv]
    exact ha.booked
  all_goals
    rw [hv]
    exact ha.booked.trans (w₁.registry_booked _)

theorem visitAll_booked (s : Settings) (entries : List Workload) (w : World) (states : States)
    (r : Report) (launches : List Launch) :
    w.Booked (visitAll s w states r launches entries).2 := by
  induction entries generalizing w states r launches with
  | nil => exact .refl w
  | cons entry rest ih =>
    have h := (stateOf_asked w states entry.key.ns).booked
    unfold visitAll
    split
    · exact ih w states r launches
    · split
      · rename_i states₁ w₁ hs
        rw [hs] at h
        exact h.trans (ih w₁ states₁ r launches)
      · rename_i state states₁ w₁ hs
        rw [hs] at h
        exact h.trans ((visit_booked s w₁ entry state).trans (ih _ states₁ _ _))

end Sweep

/-- **A trigger changes nothing but the registry and the events.** -/
theorem Trigger.fire_booked (s : Settings) (w : World) (t : Trigger) :
    w.Booked (t.fire s w).2 := by
  cases t with
  | cycle ns => exact Cycle.ofNamespace_booked s w ns
  | item id => exact Cycle.ofItem_booked s w id
  | sweep => exact Sweep.visitAll_booked s _ w _ _ _

end ReplicaControl
