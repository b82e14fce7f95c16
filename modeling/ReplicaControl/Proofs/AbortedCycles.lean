import ReplicaControl.Proofs.CycleSchedules

/-!
# Cycles that give up or are refused

* `Cycle.ofNamespace_cases`, `ofItem_cases` — what a cycle comes to before it decides on workloads.
  `ofNamespace_error`, `ofItem_error`: one that gives up has only made requests.
* `Cycle.Submits` — a cycle puts changes before the quotas, and has left the entries of their
  workloads alone up to there.  `Submits.refused`: if the quotas refuse them or cannot be read,
  nothing is launched and the entries stay as they are.
* `Schedule.OnlyAsked`, `Withholds` — the same for a schedule: requests were made, or besides
  nothing was launched or written and some workloads have the entries that they had.
* `cycle_changes_nothing` — what an aborted or refused cycle leaves of a schedule, and of a round.
-/

namespace ReplicaControl

namespace World

/-- Requests were made, and nothing else happened: only the faults that are still to come may
differ, and nothing at all if there were none. -/
def OnlyAsked (w w' : World) : Prop := w.Asked w' ∧ (w.faults = [] → w' = w)

theorem OnlyAsked.refl (w : World) : w.OnlyAsked w := ⟨.refl w, fun _ => rfl⟩

theorem OnlyAsked.trans {w₁ w₂ w₃ : World} (h : w₁.OnlyAsked w₂) (h' : w₂.OnlyAsked w₃) :
    w₁.OnlyAsked w₃ := by
  refine ⟨h.1.trans h'.1, fun hnone => ?_⟩
  obtain rfl := h.2 hnone
  exact h'.2 hnone

theorem fetch_onlyAsked (w : World) (id : WorkloadId) : w.OnlyAsked (w.fetch id).2 :=
  ⟨w.fetch_asked id, fun hnone => by rw [fetch, ask_of_faults hnone]⟩

end World

namespace Cycle

variable {s : Settings} {w w₁ : World} {ns : String} {id : WorkloadId} {e : CycleError}
  {result : Except CycleError Cycle × World} {changes : List Launch}

/-! ## Cycles that give up -/

theorem resolve_onlyAsked (w : World) (ns : String) :
    w.OnlyAsked (NamespaceState.resolve w ns).2 :=
  ⟨NamespaceState.resolve_asked w ns, fun hnone => NamespaceState.resolve_of_faults hnone ns⟩

theorem listAll_onlyAsked (ns : String) (kinds : List Kind) (w : World) :
    w.OnlyAsked (listAll w ns kinds).2 :=
  ⟨listAll_asked ns kinds w, fun hnone => by rw [listAll_of_faults hnone]⟩

/-- The change that a cycle for one workload puts before the quotas, and the world then. -/
def proposedItem (s : Settings) (w : World) (id : WorkloadId) : List Launch × World :=
  if s.enabledKinds.contains id.kind then
    match NamespaceState.resolve w id.key.ns with
    | (.error _, w) => ([], w)
    | (.ok state, w) =>
      match w.fetch id with
      | (.error (.notFound _), w) => ([], { w with registry := w.registry.erase id.key })
      | (.error _, w) => ([], w)
      | (.ok item, w) => ((assessAll w state [item]).1.2, (assessAll w state [item]).2)
  else ([], w)

/-- A cycle for a namespace gives up or decides on workloads, and has only made requests before. -/
theorem ofNamespace_cases (s : Settings) (w : World) (ns : String) :
    (∃ e w₁, w.OnlyAsked w₁ ∧ ofNamespace s w ns = (.error e, w₁) ∧
      proposed s w ns = ([], w₁)) ∨
    ∃ state items w₁, w.OnlyAsked w₁ ∧
      ofNamespace s w ns =
        (.ok (ofWorkloads w₁ ns state items).1, (ofWorkloads w₁ ns state items).2) ∧
      proposed s w ns = ((assessAll w₁ state items).1.2, (assessAll w₁ state items).2) := by
  have ha := resolve_onlyAsked w ns
  unfold ofNamespace proposed
  rcases hr : NamespaceState.resolve w ns with ⟨e | state, w₁⟩ <;> rw [hr] at ha
  · exact .inl ⟨_, w₁, ha, rfl, rfl⟩
  · have hl := ha.trans (listAll_onlyAsked ns s.enabledKinds w₁)
    dsimp only
    rcases hlist : listAll w₁ ns s.enabledKinds with ⟨e | items, w₂⟩ <;> rw [hlist] at hl
    · exact .inl ⟨_, w₂, hl, rfl, rfl⟩
    · exact .inr ⟨state, items, w₂, hl, rfl, rfl⟩

/-- A cycle for one workload gives up, drops the entry of a workload that is gone, or decides on the
workload, and has only made requests before. -/
theorem ofItem_cases (s : Settings) (w : World) (id : WorkloadId) :
    (∃ e w₁, w.OnlyAsked w₁ ∧ ofItem s w id = (.error e, w₁) ∧ proposedItem s w id = ([], w₁)) ∨
    (∃ c w₁, w.OnlyAsked w₁ ∧ c.launches = [] ∧
      ofItem s w id = (.ok c, { w₁ with registry := w₁.registry.erase id.key }) ∧
      proposedItem s w id = ([], { w₁ with registry := w₁.registry.erase id.key })) ∨
    ∃ state item w₁, w.OnlyAsked w₁ ∧
      ofItem s w id = (.ok (ofWorkloads w₁ id.key.ns state [item]).1,
        (ofWorkloads w₁ id.key.ns state [item]).2) ∧
      proposedItem s w id = ((assessAll w₁ state [item]).1.2, (assessAll w₁ state [item]).2) := by
  have ha := resolve_onlyAsked w id.key.ns
  unfold ofItem proposedItem
  split
  · rcases hr : NamespaceState.resolve w id.key.ns with ⟨e | state, w₁⟩ <;> rw [hr] at ha
    · exact .inl ⟨_, w₁, ha, rfl, rfl⟩
    · have hf := ha.trans (w₁.fetch_onlyAsked id)
      dsimp only
      rcases hfetch : w₁.fetch id with ⟨(_ | _ | _) | item, w₂⟩ <;> rw [hfetch] at hf
      · exact .inr (.inl ⟨_, w₂, hf, rfl, rfl, rfl⟩)
      · exact .inl ⟨_, w₂, hf, rfl, rfl⟩
      · exact .inl ⟨_, w₂, hf, rfl, rfl⟩
      · exact .inr (.inr ⟨state, item, w₂, hf, rfl, rfl⟩)
  · exact .inl ⟨_, w, .refl w, rfl, rfl⟩

/-- **A cycle for a namespace that gives up has only made requests.** -/
theorem ofNamespace_error (h : (ofNamespace s w ns).1 = .error e) :
    w.OnlyAsked (ofNamespace s w ns).2 := by
  rcases ofNamespace_cases s w ns with ⟨e, w₁, ha, heq, -⟩ | ⟨state, items, w₁, -, heq, -⟩
  · rw [heq]
    exact ha
  · rw [heq] at h
    cases h

/-- **A cycle for one workload that gives up has only made requests.** -/
theorem ofItem_error (h : (ofItem s w id).1 = .error e) : w.OnlyAsked (ofItem s w id).2 := by
  rcases ofItem_cases s w id with
    ⟨e, w₁, ha, heq, -⟩ | ⟨c, w₁, -, -, heq, -⟩ | ⟨state, item, w₁, -, heq, -⟩
  · rw [heq]
    exact ha
  · rw [heq] at h
    cases h
  · rw [heq] at h
    cases h

/-! ## Batches that are refused -/

/-- A cycle in a world puts changes before the quotas of a namespace, and launches what becomes of
them.  Up to there it has neither written nor launched anything, and the workloads of the changes
have the entries in the registry that they had. -/
structure Submits (w : World) (ns : String) (result : Except CycleError Cycle × World)
    (changes : List Launch) (w₁ : World) : Prop where
  launches : launchesOf result.1 = (settleBatch w₁ ns changes).1.2
  world : result.2 = (settleBatch w₁ ns changes).2
  booked : w.Booked w₁
  entries : ∀ c ∈ changes, w₁.registry.get? c.1.key = w.registry.get? c.1.key

/-- Deciding on workloads leaves the entries alone that are neither running nor failed. -/
theorem assessAll_get?_of_isFree (state : State) (items : List Workload) {key : Key}
    (h : w.registry.IsFree key) :
    (assessAll w state items).2.registry.get? key = w.registry.get? key := by
  induction items generalizing w with
  | nil => rfl
  | cons item rest ih =>
    rcases assess_cases w state item with
      ⟨d, w₁, ha, hr⟩ | ⟨d, target, -, hbusy, ha⟩ | ⟨target, -, -, -, -, ha⟩
    · simp only [assessAll, ha]
      rw [ih (hr ▸ h), hr]
    · -- the entry that is revised is running or failed, so it is another one
      have hne : key ≠ item.key := by
        rintro rfl
        rcases hbusy with hi | hf
        · exact absurd (h.1.symm.trans hi) Bool.false_ne_true
        · exact absurd (h.2.symm.trans hf) Bool.false_ne_true
      simp only [assessAll, ha]
      rw [ih (Registry.isFree_retarget.2 h), Registry.get?_retarget, if_neg hne]
    · simp only [assessAll, ha]
      exact ih h

/-- Workloads that are decided on submit their changes. -/
theorem ofWorkloads_submits (ha : w.Asked w₁) (ns : String) (state : State)
    (items : List Workload) :
    Submits w ns (.ok (ofWorkloads w₁ ns state items).1, (ofWorkloads w₁ ns state items).2)
      (assessAll w₁ state items).1.2 (assessAll w₁ state items).2 where
  launches := (ofWorkloads_settled w₁ ns state items).1
  world := (ofWorkloads_settled w₁ ns state items).2
  booked := ha.booked.trans (assessAll_booked state items w₁)
  entries c hc := by
    rw [assessAll_get?_of_isFree state items (mem_assessAll hc).2, ha.registry]

/-- A cycle that has no changes submits none. -/
theorem submits_nil (hl : launchesOf result.1 = []) (hb : w.Booked result.2) :
    Submits w ns result [] result.2 where
  launches := hl
  world := rfl
  booked := hb
  entries _ hc := nomatch hc

theorem ofNamespace_submits (s : Settings) (w : World) (ns : String) :
    Submits w ns (ofNamespace s w ns) (proposed s w ns).1 (proposed s w ns).2 := by
  rcases ofNamespace_cases s w ns with
    ⟨e, w₁, ha, heq, hproposed⟩ | ⟨state, items, w₁, ha, heq, hproposed⟩ <;> rw [heq, hproposed]
  · exact submits_nil rfl ha.1.booked
  · exact ofWorkloads_submits ha.1 ns state items

theorem ofItem_submits (s : Settings) (w : World) (id : WorkloadId) :
    Submits w id.key.ns (ofItem s w id) (proposedItem s w id).1 (proposedItem s w id).2 := by
  rcases ofItem_cases s w id with
    ⟨e, w₁, ha, heq, hproposed⟩ | ⟨c, w₁, ha, hnone, heq, hproposed⟩ |
      ⟨state, item, w₁, ha, heq, hproposed⟩ <;> rw [heq, hproposed]
  · exact submits_nil rfl ha.1.booked
  · exact submits_nil hnone (ha.1.booked.trans (w₁.registry_booked _))
  · exact ofWorkloads_submits ha.1 id.key.ns state [item]

/-- A batch that is refused, or whose quotas cannot be read, is not launched, and the registry stays
as it is. -/
theorem settleBatch_refused (h : (w.admission ns (needOf changes)).1 ≠ .ok .allowed) :
    (settleBatch w ns changes).1.2 = [] ∧ (settleBatch w ns changes).2.registry = w.registry := by
  have ha := w.admission_asked ns (needOf changes)
  rw [needOf] at h ha
  unfold settleBatch
  rcases hadmission : w.admission ns (Quota.batchNeed (changes.map fun c => (c.1, c.2.replicas)))
    with ⟨_ | _ | ⟨quota, shortfall⟩, w₁⟩ <;> rw [hadmission] at h ha ⊢
  · exact ⟨rfl, ha.registry⟩
  · exact absurd rfl h
  · exact ⟨rfl, (denyAll_registry quota shortfall changes w₁).trans ha.registry⟩

theorem Submits.refused (h : Submits w ns result changes w₁)
    (hrefused : (w₁.admission ns (needOf changes)).1 ≠ .ok .allowed) :
    launchesOf result.1 = [] ∧ w.Booked result.2 ∧
      ∀ c ∈ changes, result.2.registry.get? c.1.key = w.registry.get? c.1.key := by
  obtain ⟨hnone, hregistry⟩ := settleBatch_refused hrefused
  refine ⟨h.launches.trans hnone, ?_, fun c hc => ?_⟩
  · rw [h.world]
    exact h.booked.trans (settleBatch_booked w₁ ns changes)
  · rw [h.world, hregistry]
    exact h.entries c hc

end Cycle

namespace Schedule

variable {s : Schedule} {result : Except CycleError Cycle × World} {changes : List Launch}

/-- Requests were made, and neither was a task added nor did anything else happen in the world. -/
def OnlyAsked (s s' : Schedule) : Prop := ∃ w, s.world.OnlyAsked w ∧ s' = { s with world := w }

/-- No task was added, the cluster is the same, and the workloads of some changes have the entries
in the registry that they had. -/
structure Withholds (s : Schedule) (changes : List Launch) (s' : Schedule) : Prop where
  tasks : s' = { s with world := s'.world }
  cluster : s'.world.cluster = s.world.cluster
  entries : ∀ c ∈ changes, s'.world.registry.get? c.1.key = s.world.registry.get? c.1.key

/-- A cycle that launches nothing changes the world at most. -/
theorem launchCycle_of_launches_nil (h : Cycle.launchesOf result.1 = []) :
    (s.launchCycle result).2 = { s with world := result.2 } := by
  rw [launchCycle_snd, h]
  rfl

theorem launchCycle_onlyAsked {e : CycleError}
    (hasked : ∀ e, result.1 = .error e → s.world.OnlyAsked result.2)
    (h : (s.launchCycle result).1 = .error e) : s.OnlyAsked (s.launchCycle result).2 := by
  obtain ⟨e' | cycle, w⟩ := result
  · exact ⟨w, hasked e' rfl, rfl⟩
  · cases h

theorem launchCycle_withholds {ns : String} {w : World}
    (h : Cycle.Submits s.world ns result changes w)
    (hrefused : (w.admission ns (Cycle.needOf changes)).1 ≠ .ok .allowed) :
    s.Withholds changes (s.launchCycle result).2 := by
  obtain ⟨hnone, hbooked, hentries⟩ := h.refused hrefused
  have hlaunch := launchCycle_of_launches_nil (s := s) hnone
  refine ⟨by rw [hlaunch], ?_, fun c hc => ?_⟩
  · obtain ⟨faults, registry, events, hw⟩ := hbooked
    rw [hlaunch, hw]
  · rw [hlaunch]
    exact hentries c hc

theorem pass_cycles_append (s : Schedule) (before after : List String) :
    s.pass (.cycles (before ++ after)) = (s.pass (.cycles before)).2.pass (.cycles after) := by
  simp only [pass, List.foldl_append]

/-- In a round of a simulation a cycle that gives up is not waited for. -/
theorem runCycles_of_error {ns : String} {e : CycleError} (h : (s.reconcile ns).1 = .error e)
    (rest : List String) :
    Simulation.runCycles s (ns :: rest) = Simulation.runCycles (s.reconcile ns).2 rest := by
  rw [Simulation.runCycles]
  rcases hr : s.reconcile ns with ⟨r, s'⟩
  rw [hr] at h
  subst h
  rfl

/-- **Aborted and refused cycles change nothing.**  A cycle for a namespace or for one workload that
gives up, whatever request failed or whatever it read, has only made requests.  A cycle whose batch
the quotas refuse, or whose quotas cannot be read, writes and launches nothing, and the workloads of
its batch keep their entries in the registry, or have none as before.  So a namespace whose cycle
gives up makes no difference to a round of a loop or of a simulation: what comes after it takes
place in the schedule in which it takes place without it.  Only the faults that are still to come
may differ there, as the requests of the cycle have met some, and nothing differs if there are
none. -/
theorem cycle_changes_nothing (s : Schedule) :
    (∀ ns e, (s.reconcile ns).1 = .error e → s.OnlyAsked (s.reconcile ns).2) ∧
    (∀ id e, (s.reconcileItem id).1 = .error e → s.OnlyAsked (s.reconcileItem id).2) ∧
    (∀ ns, let (changes, w) := Cycle.proposed s.settings s.world ns
      (w.admission ns (Cycle.needOf changes)).1 ≠ .ok .allowed →
        s.Withholds changes (s.reconcile ns).2) ∧
    (∀ id, let (changes, w) := Cycle.proposedItem s.settings s.world id
      (w.admission id.key.ns (Cycle.needOf changes)).1 ≠ .ok .allowed →
        s.Withholds changes (s.reconcileItem id).2) ∧
    (∀ before ns after, let here := (s.pass (.cycles before)).2
      ∀ e, (here.reconcile ns).1 = .error e → ∃ left, here.OnlyAsked left ∧
        s.pass (.cycles (before ++ ns :: after)) = left.pass (.cycles after) ∧
        s.pass (.cycles (before ++ after)) = here.pass (.cycles after)) ∧
    ∀ before ns after, let (cycles, here) := Simulation.runCycles s before
      ∀ e, (here.reconcile ns).1 = .error e → ∃ left, here.OnlyAsked left ∧
        Simulation.runCycles s (before ++ ns :: after) =
          ((Simulation.runCycles left after).map (cycles ++ ·) id) ∧
        Simulation.runCycles s (before ++ after) =
          ((Simulation.runCycles here after).map (cycles ++ ·) id) := by
  have hreconcile : ∀ (s : Schedule) ns e, (s.reconcile ns).1 = .error e →
      s.OnlyAsked (s.reconcile ns).2 :=
    fun s ns e => launchCycle_onlyAsked fun e => Cycle.ofNamespace_error
  refine ⟨hreconcile s, ?_, ?_, ?_, ?_, ?_⟩
  · exact fun id e => launchCycle_onlyAsked fun e => Cycle.ofItem_error
  · exact fun ns => launchCycle_withholds (Cycle.ofNamespace_submits s.settings s.world ns)
  · exact fun id => launchCycle_withholds (Cycle.ofItem_submits s.settings s.world id)
  · intro before ns after here e he
    refine ⟨_, hreconcile here ns e he, ?_, pass_cycles_append s before after⟩
    rw [pass_cycles_append]
    rfl
  · intro before ns after e he
    refine ⟨_, hreconcile _ ns e he, ?_, runCycles_append s before after⟩
    rw [runCycles_append, runCycles_of_error he]
    rfl

/-- A namespace with two selected states, a kind that is not reconciled, a batch that a quota
refuses, and quotas that cannot be read. -/
theorem cycle_changes_nothing_shop_and_lab :
    let api : Workload :=
      { Workload.sample ⟨.deployment, "shop", "api"⟩ "3" with
        limits := Table.ofList [("cpu", .ofUnits 1)] }
    let cluster : Cluster :=
      { (World.holding [api]).cluster with
        namespaceStates := Table.ofList [("lab", ["up", "down"])]
        quotas := Table.ofList
          [("shop", [⟨"compute", Table.ofList [("limits.cpu", .ofUnits 1)]⟩])] }
    let s : Schedule := { settings := .standard .rapid, world := { cluster } }
    let faults : List Fault := [{ request := .quotas, message := "timeout", count := 1 }]
    let blind : Schedule := { s with world := { cluster, faults } }
    s.OnlyAsked (s.reconcile "lab").2 ∧
      s.OnlyAsked (s.reconcileItem ⟨.deploymentConfig, "shop", "cache"⟩).2 ∧
      s.Withholds [(api, ⟨"up", 3⟩)] (s.reconcile "shop").2 ∧
      blind.Withholds [(api, ⟨"up", 3⟩)] (blind.reconcileItem api.id).2 ∧
      s.pass (.cycles ["lab", "shop"]) = s.pass (.cycles ["shop"]) ∧
      Simulation.runCycles s ["lab", "shop"] = Simulation.runCycles s ["shop"] := by
  intro api cluster s faults blind
  have hlab : (s.reconcile "lab").1 = .error (.unresolved (.tooMany .ns 2)) := by rfl
  have hcache : (s.reconcileItem ⟨.deploymentConfig, "shop", "cache"⟩).1 =
      .error (.noAdapter .deploymentConfig) := by rfl
  have hbatch : (Cycle.proposed s.settings s.world "shop").1 = [(api, ⟨"up", 3⟩)] := by
    decide +kernel
  have hitem : (Cycle.proposedItem blind.settings blind.world api.id).1 = [(api, ⟨"up", 3⟩)] := by
    decide +kernel
  obtain ⟨hreconcile, hreconcileItem, hdenied, -, hpass, hround⟩ := cycle_changes_nothing s
  obtain ⟨-, -, -, hunread, -, -⟩ := cycle_changes_nothing blind
  refine ⟨hreconcile "lab" _ hlab, hreconcileItem _ _ hcache, ?_, ?_, ?_, ?_⟩
  · rw [← hbatch]
    exact hdenied "shop" (by decide +kernel)
  · rw [← hitem]
    exact hunread api.id (by decide +kernel)
  · obtain ⟨left, ⟨w, hw, rfl⟩, hwith, hwithout⟩ := hpass [] "lab" ["shop"] _ hlab
    rw [show ["lab", "shop"] = [] ++ "lab" :: ["shop"] from rfl, hwith, hw.2 rfl]
    exact hwithout.symm
  · obtain ⟨left, ⟨w, hw, rfl⟩, hwith, hwithout⟩ := hround [] "lab" ["shop"] _ hlab
    rw [show ["lab", "shop"] = [] ++ "lab" :: ["shop"] from rfl, hwith, hw.2 rfl]
    exact hwithout.symm

end Schedule

end ReplicaControl
