import Mathlib.Data.List.Nodup
import ReplicaControl.Proofs.CourseScenes

/-!
# Batches of a cycle

* `Cycle.proposed` — the changes that a cycle puts before the quotas as one batch, and the world
  then; `ofNamespace_proposed`: the cycle launches what becomes of that batch.
* `Cycle.launchAll_of_free` — changes of different keys that nobody else is at work on are all
  launched, and the registry holds their targets.
* `underWay_afterCycle` — after a cycle whose batch the quotas allow, all changes of the batch have
  an attempt under way.
* `Cycle.Admitted` — a calm world without negative limits whose quotas allow the batch of a cycle;
  `Admitted.onCourse`: then the attempts are on course.
-/

namespace ReplicaControl

namespace Registry

/-- No attempt is running for a key, and none has failed. -/
def IsFree (r : Registry) (key : Key) : Prop :=
  r.isInFlight key = false ∧ r.isFailed key = false

theorem isFree_retarget {r : Registry} {key other : Key} {desired : Int} :
    (r.retarget key desired).IsFree other ↔ r.IsFree other := by
  rw [IsFree, isInFlight_retarget, isFailed_retarget, IsFree]

theorem IsFree.of_get?_eq {r r' : Registry} {key : Key} (h : r.IsFree key)
    (he : r'.get? key = r.get? key) : r'.IsFree key := by
  rw [IsFree, isInFlight, isFailed, he]
  exact h

end Registry

theorem Platform.nodup_kinds (p : Platform) : p.kinds.Nodup := by
  cases p <;> decide

theorem Settings.nodup_enabledKinds (s : Settings) : s.enabledKinds.Nodup :=
  s.config.platform.nodup_kinds.filter _

namespace NamespaceState

/-- In a world without faults a resolution changes nothing. -/
theorem resolve_of_faults {w : World} (h : w.faults = []) (ns : String) : (resolve w ns).2 = w := by
  simp only [resolve, World.fetchDefinitions, World.fetchClusterStates, World.fetchNamespaceStates,
    World.ask_of_faults h]
  split
  · rfl
  · split
    · rfl
    · split <;> rfl

/-- Where nothing fails, the state of a namespace depends on the declared and selected states
only. -/
theorem resolve_congr {w w' : World} {ns : String} (h : w.faults = [])
    (h' : w'.faults = []) (hd : w'.cluster.definitions = w.cluster.definitions)
    (hc : w'.cluster.clusterStates = w.cluster.clusterStates)
    (hn : w'.cluster.statesOf ns = w.cluster.statesOf ns) :
    (resolve w' ns).1 = (resolve w ns).1 := by
  simp only [resolve, World.fetchDefinitions, World.fetchClusterStates, World.fetchNamespaceStates,
    World.ask_of_faults h, World.ask_of_faults h', hd, hc, hn]
  split
  · rfl
  · split
    · rfl
    · split <;> rfl

end NamespaceState

namespace Cycle

variable {s : Settings} {w : World} {ns : String} {state : State}

/-- The changes that a cycle for a namespace puts before the quotas, and the world then. -/
def proposed (s : Settings) (w : World) (ns : String) : List Launch × World :=
  match NamespaceState.resolve w ns with
  | (.error _, w) => ([], w)
  | (.ok state, w) =>
    match listAll w ns s.enabledKinds with
    | (.error _, w) => ([], w)
    | (.ok items, w) => ((assessAll w state items).1.2, (assessAll w state items).2)

/-- The need of a batch of changes. -/
def needOf (changes : List Launch) : Option ResourceList :=
  Quota.batchNeed (changes.map fun c => (c.1, c.2.replicas))

theorem settleBatch_nil (w : World) (ns : String) : settleBatch w ns [] = (([], []), w) := rfl

/-- What is launched of some workloads is what becomes of their changes before the quotas. -/
theorem ofWorkloads_settled (w : World) (ns : String) (state : State) (items : List Workload) :
    (ofWorkloads w ns state items).1.launches =
        (settleBatch (assessAll w state items).2 ns (assessAll w state items).1.2).1.2 ∧
      (ofWorkloads w ns state items).2 =
        (settleBatch (assessAll w state items).2 ns (assessAll w state items).1.2).2 := by
  dsimp only [ofWorkloads]
  split
  · rename_i hnil
    rw [hnil, settleBatch_nil]
    exact ⟨rfl, rfl⟩
  · exact ⟨rfl, rfl⟩

/-- **A cycle launches what becomes of the changes that it puts before the quotas.** -/
theorem ofNamespace_proposed (s : Settings) (w : World) (ns : String) :
    launchesOf (ofNamespace s w ns).1 =
        (settleBatch (proposed s w ns).2 ns (proposed s w ns).1).1.2 ∧
      (ofNamespace s w ns).2 = (settleBatch (proposed s w ns).2 ns (proposed s w ns).1).2 := by
  unfold ofNamespace proposed
  rcases NamespaceState.resolve w ns with ⟨_ | state, w₁⟩
  · exact ⟨rfl, rfl⟩
  · dsimp only
    rcases listAll w₁ ns s.enabledKinds with ⟨_ | items, w₂⟩
    · exact ⟨rfl, rfl⟩
    · exact ofWorkloads_settled w₂ ns state items

/-! ## The changes of a batch -/

theorem assess_faults (w : World) (state : State) (item : Workload) :
    (assess w state item).2.faults = w.faults := by
  unfold assess
  split
  · rfl
  · rfl
  · rename_i target ht
    rcases revise_cases w item target with ⟨-, hr⟩ | ⟨-, -, hr⟩
    · rw [hr]
    · rw [hr]
      dsimp only
      split <;> rfl

theorem assessAll_faults (state : State) (items : List Workload) (w : World) :
    (assessAll w state items).2.faults = w.faults := by
  induction items generalizing w with
  | nil => rfl
  | cons item rest ih =>
    have h := assess_faults w state item
    unfold assessAll
    split <;> rename_i w₁ ha <;> rw [ha] at h <;> exact (ih w₁).trans h

theorem assessAll_sublist (state : State) (items : List Workload) (w : World) :
    ((assessAll w state items).1.2.map Prod.fst).Sublist items := by
  induction items generalizing w with
  | nil => exact .slnil
  | cons item rest ih =>
    unfold assessAll
    split
    · exact (ih _).cons item
    · exact (ih _).cons_cons item

/-- What a cycle makes of its workloads concerns the targets of entries only, never their marks. -/
theorem assessAll_isFree (state : State) (items : List Workload) (w : World) (key : Key) :
    (assessAll w state items).2.registry.IsFree key ↔ w.registry.IsFree key := by
  induction items generalizing w with
  | nil => exact .rfl
  | cons item rest ih =>
    rcases assess_cases w state item with
      ⟨d, w₁, ha, hr⟩ | ⟨d, target, -, -, ha⟩ | ⟨target, -, -, -, -, ha⟩
    · simp only [assessAll, ha]
      rw [ih, hr]
    · simp only [assessAll, ha]
      rw [ih]
      exact Registry.isFree_retarget
    · simp only [assessAll, ha]
      exact ih w

/-- The changes of a batch are changes, of workloads that nobody is at work on. -/
theorem mem_assessAll {items : List Workload} {w : World} {c : Launch}
    (hc : c ∈ (assessAll w state items).1.2) :
    c.1.spec ≠ c.2.replicas ∧ w.registry.IsFree c.1.key := by
  induction items generalizing w with
  | nil => cases hc
  | cons item rest ih =>
    rcases assess_cases w state item with
      ⟨d, w₁, ha, hr⟩ | ⟨d, target, -, -, ha⟩ | ⟨target, -, hne, hi, hf, ha⟩
    · simp only [assessAll, ha] at hc
      rw [← hr]
      exact ih hc
    · simp only [assessAll, ha] at hc
      obtain ⟨hne, hfree⟩ := ih hc
      exact ⟨hne, Registry.isFree_retarget.1 hfree⟩
    · simp only [assessAll, ha] at hc
      rcases List.mem_cons.1 hc with rfl | hc
      · exact ⟨hne, hi, hf⟩
      · exact ih hc

/-- In a world without faults a cycle can list its workloads, and that changes nothing. -/
theorem listAll_of_faults (h : w.faults = []) (ns : String) (kinds : List Kind) :
    listAll w ns kinds = (.ok (kinds.flatMap fun k => w.cluster.list k ns selector), w) := by
  induction kinds with
  | nil => rfl
  | cons kind rest ih =>
    simp only [listAll, World.listWorkloads, World.ask_of_faults h, ih, List.flatMap_cons]

/-- The listed workloads have different keys if all workloads of the namespace do. -/
theorem nodup_listed {c : Cluster} (h : ((c.workloadsOf ns).map Workload.key).Nodup)
    {kinds : List Kind} (hk : kinds.Nodup) :
    ((kinds.flatMap fun k => c.list k ns selector).map Workload.key).Nodup := by
  have hlist : ∀ k, c.list k ns selector =
      (c.workloadsOf ns).filter fun x => x.kind == k && x.hasLabels selector := by
    intro k
    rw [Cluster.list, Cluster.workloadsOf, List.filter_filter]
    refine List.filter_congr fun x _ => ?_
    cases x.kind == k <;> cases x.key.ns == ns <;> simp
  have hkinds : ∀ {k x}, x ∈ c.list k ns selector → x ∈ c.workloadsOf ns ∧ x.kind = k := by
    intro k x hx
    rw [hlist] at hx
    obtain ⟨hx, hcond⟩ := List.mem_filter.1 hx
    exact ⟨hx, beq_iff_eq.1 (Bool.and_eq_true_iff.1 hcond).1⟩
  rw [List.map_flatMap, List.nodup_flatMap]
  constructor
  · intro k _
    rw [hlist]
    exact h.sublist (List.filter_sublist.map _)
  · refine hk.imp fun {k k'} hne => ?_
    intro key hkey hkey'
    obtain ⟨x, hx, rfl⟩ := List.mem_map.1 hkey
    obtain ⟨y, hy, hxy⟩ := List.mem_map.1 hkey'
    obtain ⟨hxs, hxk⟩ := hkinds hx
    obtain ⟨hys, hyk⟩ := hkinds hy
    obtain rfl := List.inj_on_of_nodup_map h hxs hys hxy.symm
    exact hne (hxk.symm.trans hyk)

/-! ## Launches -/

theorem launchAll_faults (changes : List Launch) (w : World) :
    (launchAll w changes).2.faults = w.faults := by
  induction changes generalizing w with
  | nil => rfl
  | cons change rest ih =>
    unfold launchAll
    split <;> exact ih _

/-- **Changes of different keys that nobody is at work on are all launched**, and the registry then
holds their targets. -/
theorem launchAll_of_free {changes : List Launch} {w : World}
    (hkeys : (changes.map fun c => c.1.key).Nodup)
    (hfree : ∀ c ∈ changes, w.registry.IsFree c.1.key) :
    (launchAll w changes).1.2 = changes ∧
      (∀ c ∈ changes, (launchAll w changes).2.registry.get? c.1.key =
        some (Registry.started c.1 c.2.replicas)) ∧
      ∀ key, key ∉ changes.map (fun c => c.1.key) →
        (launchAll w changes).2.registry.get? key = w.registry.get? key := by
  induction changes generalizing w with
  | nil => exact ⟨rfl, (fun _ hc => nomatch hc), fun _ _ => rfl⟩
  | cons change rest ih =>
    obtain ⟨item, target⟩ := change
    obtain ⟨hnew, hkeys⟩ := List.nodup_cons.1 hkeys
    obtain ⟨hi, hf⟩ := hfree _ List.mem_cons_self
    have hclaim : w.registry.claim item target.replicas = (.claimed,
        w.registry.insert item.key (Registry.started item target.replicas)) := by
      rcases w.registry.claim_cases item target.replicas with ⟨h, -⟩ | ⟨-, h, -⟩ | ⟨-, -, h⟩
      · exact absurd (h.symm.trans hi) nofun
      · exact absurd (h.symm.trans hf) nofun
      · exact h
    have hne : ∀ c ∈ rest, c.1.key ≠ item.key := fun c hc he =>
      hnew (List.mem_map.2 ⟨c, hc, he⟩)
    have ih := ih (w := { w with
        registry := w.registry.insert item.key (Registry.started item target.replicas) }) hkeys
      fun c hc => (hfree c (List.mem_cons_of_mem _ hc)).of_get?_eq
        (w.registry.get?_insert_of_ne (hne c hc) _)
    obtain ⟨hall, hentries, hothers⟩ := ih
    simp only [launchAll, hclaim]
    refine ⟨by rw [hall], fun c hc => ?_, fun key hkey => ?_⟩
    · rcases List.mem_cons.1 hc with rfl | hc
      · rw [hothers _ hnew]
        exact w.registry.get?_insert_self _ _
      · exact hentries c hc
    · simp only [List.map_cons, List.mem_cons, not_or] at hkey
      rw [hothers key hkey.2]
      exact w.registry.get?_insert_of_ne hkey.1 _

/-- The premises under which the attempts of a cycle are left to themselves: the world is calm, no
limit in the namespace is negative, its workloads have different keys, and its quotas allow the
batch. -/
structure Admitted (s : Settings) (w : World) (ns : String) : Prop where
  calm : w.IsCalm
  limits : w.cluster.HasLimits ns
  distinct : ((w.cluster.workloadsOf ns).map Workload.key).Nodup
  allowed : ((proposed s w ns).2.admission ns (needOf (proposed s w ns).1)).1 = .ok .allowed

/-- Every change of a batch is one of a stored workload that is under control and that nobody is at
work on. -/
structure Proposes (s : Settings) (w w₁ : World) (ns : String) (c : Launch) : Prop where
  stored : w.cluster.inventory.get? c.1.id = some c.1
  home : c.1.key.ns = ns
  reachable : s.adapters.contains c.1.kind = true
  optedIn : c.1.isOptedIn = true
  change : c.1.spec ≠ c.2.replicas
  free : w₁.registry.IsFree c.1.key

theorem hasLabels_selector (x : Workload) : x.hasLabels selector = x.isOptedIn := by
  have hentries : selector.entries = [(Workload.optInLabel, "true")] := rfl
  rw [Workload.hasLabels, hentries]
  simp [Workload.isOptedIn]

/-- In a calm world the batch of a cycle consists of changes of different keys. -/
theorem proposed_spec (hw : w.IsCalm)
    (hkeys : ((w.cluster.workloadsOf ns).map Workload.key).Nodup) :
    w.Booked (proposed s w ns).2 ∧ (proposed s w ns).2.faults = [] ∧
      ((proposed s w ns).1.map fun c => c.1.key).Nodup ∧
      ∀ c ∈ (proposed s w ns).1, Proposes s w (proposed s w ns).2 ns c := by
  have hstay := NamespaceState.resolve_of_faults hw.faults ns
  unfold proposed
  rcases hresolve : NamespaceState.resolve w ns with ⟨_ | state, w₁⟩ <;> rw [hresolve] at hstay
  · obtain rfl : w₁ = w := hstay
    exact ⟨.refl w₁, hw.faults, .nil, fun c hc => nomatch hc⟩
  · obtain rfl : w₁ = w := hstay
    have hlist := listAll_of_faults hw.faults ns s.enabledKinds
    simp only [hlist]
    have hsub := assessAll_sublist state
      (s.enabledKinds.flatMap fun k => w₁.cluster.list k ns selector) w₁
    refine ⟨assessAll_booked state _ w₁, (assessAll_faults state _ w₁).trans hw.faults, ?_,
      fun c hc => ?_⟩
    · have hkeys := (nodup_listed hkeys s.nodup_enabledKinds).sublist (hsub.map Workload.key)
      rwa [List.map_map] at hkeys
    · obtain ⟨hne, hfree⟩ := mem_assessAll hc
      obtain ⟨hget, hk, hns, hlab⟩ := mem_listAll (congrArg Prod.fst hlist)
        (hsub.subset (List.mem_map_of_mem hc))
      exact ⟨hget, hns, Settings.adapters_of_enabledKinds hk, hasLabels_selector c.1 ▸ hlab, hne,
        (assessAll_isFree state _ w₁ c.1.key).2 hfree⟩

/-- **A cycle whose batch is allowed launches the whole batch**, files its targets and changes
nothing else. -/
theorem launches_of_allowed (hw : w.IsCalm)
    (hdistinct : ((w.cluster.workloadsOf ns).map Workload.key).Nodup)
    (hallowed : ((proposed s w ns).2.admission ns (needOf (proposed s w ns).1)).1 = .ok .allowed) :
    launchesOf (ofNamespace s w ns).1 = (proposed s w ns).1 ∧
      w.Booked (ofNamespace s w ns).2 ∧ (ofNamespace s w ns).2.faults = [] ∧
      (∀ c ∈ (proposed s w ns).1, (ofNamespace s w ns).2.registry.get? c.1.key =
        some (Registry.started c.1 c.2.replicas)) ∧
      ∀ key, key ∉ (proposed s w ns).1.map (fun c => c.1.key) →
        (ofNamespace s w ns).2.registry.get? key = (proposed s w ns).2.registry.get? key := by
  obtain ⟨hbooked, hfaults, hkeys, hmem⟩ := proposed_spec (s := s) hw hdistinct
  obtain ⟨hlaunches, hworld⟩ := ofNamespace_proposed s w ns
  rw [hlaunches, hworld]
  generalize proposed s w ns = p at hbooked hfaults hkeys hmem hallowed ⊢
  have hcalm : p.2.IsCalm := by
    obtain ⟨f, r, e, heq⟩ := hbooked
    exact ⟨hfaults, by rw [heq]; exact hw.rules, by rw [heq]; exact hw.conflicts⟩
  have hsettle : settleBatch p.2 ns p.1 = launchAll p.2 p.1 := by
    have hadmission := hcalm.admission ns (needOf p.1)
    rw [hadmission] at hallowed
    unfold settleBatch
    rw [show Quota.batchNeed (p.1.map fun c => (c.1, c.2.replicas)) = needOf p.1 from rfl,
      hadmission, Except.ok.inj hallowed]
  rw [hsettle]
  obtain ⟨hall, hentries, hothers⟩ := launchAll_of_free hkeys fun c hc => (hmem c hc).free
  exact ⟨hall, hbooked.trans (launchAll_booked p.1 p.2), (launchAll_faults p.1 p.2).trans hfaults,
    hentries, hothers⟩

end Cycle

/-! ## Attempts of a batch -/

/-- The scene after a cycle for a namespace, without other attempts. -/
def Scene.afterCycle (s : Settings) (w : World) (ns : String) : Scene :=
  (Scene.staged w []).next s (.trigger (.cycle ns))

namespace Scene

variable {s : Settings} {w : World} {ns : String}

/-- The attempts after a cycle are about to start. -/
theorem starting_afterCycle {a : Attempt} (ha : a ∈ (afterCycle s w ns).attempts) :
    a.phase = .starting := by
  have ha : a ∈ (Cycle.launchesOf (Cycle.ofNamespace s w ns).1).map fun l : Launch =>
      Attempt.launch l.1 l.2 := ha
  obtain ⟨l, -, rfl⟩ := List.mem_map.1 ha
  rfl

theorem isAtRest_afterCycle : (afterCycle s w ns).isAtRest :=
  isAtRest_of_starting fun _ ha => starting_afterCycle ha

/-- **After a cycle whose batch is allowed, all changes of the batch have an attempt under way**, if
their versions can be raised often enough and, in step mode, writes make replicas ready, the
workloads are ready and their waits can be bounded. -/
theorem underWay_afterCycle (hw : w.IsCalm)
    (hdistinct : ((w.cluster.workloadsOf ns).map Workload.key).Nodup)
    (hallowed : ((Cycle.proposed s w ns).2.admission ns
      (Cycle.needOf (Cycle.proposed s w ns).1)).1 = .ok .allowed)
    (hversion : ∀ c ∈ (Cycle.proposed s w ns).1,
      c.1.version + (s.config.mode.path c.1.spec c.2.replicas).length < versionBound)
    (hsteady : s.config.mode = .step → w.cluster.autoReady = true ∧
      ∀ c ∈ (Cycle.proposed s w ns).1, c.1.ready = c.1.spec ∧
        Attempt.isTimeLimit ((Attempt.launch c.1 c.2).limit s) = true) :
    (afterCycle s w ns).UnderWay s w.cluster ns (Cycle.proposed s w ns).1 [] := by
  obtain ⟨-, -, hkeys, hmem⟩ := Cycle.proposed_spec (s := s) hw hdistinct
  obtain ⟨hlaunches, ⟨faults, registry, events, hworld⟩, hfaults, hentries, -⟩ :=
    Cycle.launches_of_allowed hw hdistinct hallowed
  have hattempts : (afterCycle s w ns).attempts =
      (Cycle.proposed s w ns).1.map fun l => .launch l.1 l.2 := by
    rw [← hlaunches]
    rfl
  have hsc : (afterCycle s w ns).world = (Cycle.ofNamespace s w ns).2 := rfl
  have hcluster : (afterCycle s w ns).world.cluster = w.cluster := by rw [hsc, hworld]
  have hlaunch : ∀ a ∈ (afterCycle s w ns).attempts,
      ∃ c ∈ (Cycle.proposed s w ns).1, a = Attempt.launch c.1 c.2 := by
    intro a ha
    rw [hattempts] at ha
    obtain ⟨c, hc, rfl⟩ := List.mem_map.1 ha
    exact ⟨c, hc, rfl⟩
  refine ⟨⟨hsc ▸ hfaults, by rw [hsc, hworld]; exact hw.rules,
      by rw [hcluster]; exact hw.conflicts⟩, ?_, ?_, ?_, fun a ha => ?_, fun a ha => ?_,
    fun a ha => ?_, nofun, fun id _ => by rw [hcluster]⟩
  · rw [hcluster, List.append_nil]
  · rw [hattempts, List.map_map]
    exact List.map_id _
  · rw [hattempts, List.map_map]
    exact hkeys
  · obtain ⟨c, hc, rfl⟩ := hlaunch a ha
    exact (hmem c hc).home
  · obtain ⟨c, hc, rfl⟩ := hlaunch a ha
    have hp := hmem c hc
    refine ⟨by rw [hcluster]; exact hp.stored, ⟨_, _, _, rfl⟩, hp.optedIn, hp.reachable,
      fun _ => ?_, hversion c hc, fun hmode => ?_, rfl, hp.change⟩
    · have hentry := hentries c hc
      rw [← hsc] at hentry
      rw [Attempt.desired_eq, Registry.target?,
        show (Attempt.launch c.1 c.2).key = c.1.key from rfl, hentry]
      rfl
    · rw [hcluster]
      exact ⟨(hsteady hmode).1, (hsteady hmode).2 c hc⟩
  · obtain ⟨c, hc, rfl⟩ := hlaunch a ha
    exact ⟨rfl, rfl⟩

end Scene

namespace Cycle.Admitted

variable {s : Settings} {w : World} {ns : String}

theorem attempts_eq (h : Admitted s w ns) : (Scene.afterCycle s w ns).attempts =
    (proposed s w ns).1.map fun l => .launch l.1 l.2 := by
  rw [← (launches_of_allowed h.calm h.distinct h.allowed).1]
  rfl

theorem mem_workloadsOf (h : Admitted s w ns) {c : Launch} (hc : c ∈ (proposed s w ns).1) :
    c.1 ∈ w.cluster.workloadsOf ns := by
  obtain ⟨-, -, -, hmem⟩ := proposed_spec (s := s) h.calm h.distinct
  exact (hmem c hc).home ▸ Cluster.mem_workloadsOf (hmem c hc).stored

theorem hasLimits (h : Admitted s w ns) {c : Launch} (hc : c ∈ (proposed s w ns).1) :
    c.1.HasLimits :=
  h.limits _ (h.mem_workloadsOf hc)

/-- **After a cycle whose batch is allowed, all changes of the batch have an attempt on course**, if
their versions can be raised often enough and, in step mode, writes make replicas ready, the
workloads are ready and their waits can be bounded. -/
theorem onCourse (h : Admitted s w ns)
    (hversion : ∀ c ∈ (proposed s w ns).1,
      c.1.version + (s.config.mode.path c.1.spec c.2.replicas).length < versionBound)
    (hsteady : s.config.mode = .step → w.cluster.autoReady = true ∧
      ∀ c ∈ (proposed s w ns).1, c.1.ready = c.1.spec ∧
        Attempt.isTimeLimit ((Attempt.launch c.1 c.2).limit s) = true) :
    (Scene.afterCycle s w ns).OnCourse s w.cluster ns (proposed s w ns).1 [] := by
  have hunderway := Scene.underWay_afterCycle h.calm h.distinct h.allowed hversion hsteady
  obtain ⟨-, ⟨faults, registry, events, hworld⟩, -⟩ :=
    launches_of_allowed h.calm h.distinct h.allowed
  have hcluster : (Scene.afterCycle s w ns).world.cluster = w.cluster := by
    show (ofNamespace s w ns).2.cluster = w.cluster
    rw [hworld]
  refine ⟨hunderway, hcluster ▸ h.limits, fun name => ?_⟩
  have hgrowth : ∀ l : Launch, (Attempt.launch l.1 l.2).growth name = 0 :=
    fun l => Int.sub_self _
  rw [hcluster, h.attempts_eq, List.map_map]
  simp [Function.comp_def, hgrowth]

end Cycle.Admitted

end ReplicaControl
