import ReplicaControl.Proofs.ActiveEntries
import ReplicaControl.Proofs.Batch

/-!
# Cycles converge

In a namespace without quotas nothing keeps a cycle from bringing every workload to its count.

* `Cycle.count?` — the count that a workload is to have in a state, if a cycle looks after it;
  `mem_proposed`: a cycle over an empty registry puts the workloads that have another count before
  the quotas, and no others.
* `Cycle.Unimpeded` — the premises: a calm world without quotas in which writes make replicas ready.
* `Attempt.Advances` — what an attempt has changed about its workload, by its path.
* `Scene.Converging` — the invariant of the attempts: besides, every entry of the registry belongs
  to an attempt that has not ended.
* `cycle_converges` — when all attempts have ended, which they do, every workload has its count, the
  registry is empty, and another cycle finds nothing to do.
-/

namespace ReplicaControl

namespace Cycle

variable {s : Settings} {w : World} {ns : String} {state : State}

/-! ## The counts of a state -/

/-- The count that a workload is to have in a state, if a cycle for a namespace looks after it: it
is in the namespace, of an enabled kind and under control, its annotations are valid, and they have
a count for the state. -/
def count? (s : Settings) (ns : String) (state : State) (x : Workload) : Option Int :=
  if x.key.ns = ns ∧ s.enabledKinds.contains x.kind = true ∧ x.isOptedIn = true then
    (ReplicaMap.ofAnnotations x.annotations).toOption.bind (·.get? state.name)
  else none

theorem targetOf_eq_iff {x : Workload} {target : Target} :
    targetOf x state = .ok (some target) ↔
      x.isOptedIn = true ∧ target.state = state.name ∧
        (ReplicaMap.ofAnnotations x.annotations).toOption.bind (·.get? state.name) =
          some target.replicas := by
  obtain ⟨name, n⟩ := target
  unfold targetOf Workload.targetFor
  by_cases hin : x.isOptedIn = true
  · simp only [hin, if_true, true_and]
    cases hm : ReplicaMap.ofAnnotations x.annotations with
    | error e => simp [Except.toOption]
    | ok m =>
      simp only [ReplicaMap.target?, Except.toOption, Option.bind_some]
      cases hget : m.get? state.name with
      | none => cases m.isEmpty <;> simp [Except.map]
      | some k =>
        -- a map with a count is not empty
        have hempty : m.isEmpty = false := by
          have hmem := (Table.mem_entries_iff m).2 hget
          cases hentries : m.entries with
          | nil => rw [hentries] at hmem; cases hmem
          | cons e rest => simp [Table.isEmpty, hentries]
        simp [hempty, Except.map, eq_comm]
  · simp [hin]

theorem count?_eq_iff {x : Workload} {n : Int} :
    count? s ns state x = some n ↔ x.key.ns = ns ∧ x.kind ∈ s.enabledKinds ∧
      targetOf x state = .ok (some ⟨state.name, n⟩) := by
  unfold count?
  split
  · rename_i h
    obtain ⟨hns, hk, hin⟩ := h
    simp [targetOf_eq_iff, hns, List.contains_iff_mem.1 hk, hin]
  · rename_i h
    simp only [reduceCtorEq, false_iff]
    rintro ⟨hns, hk, ht⟩
    exact h ⟨hns, List.contains_iff_mem.2 hk, (targetOf_eq_iff.1 ht).1⟩

/-! ## The batch of a cycle -/

theorem mem_list {c : Cluster} {kind : Kind} {x : Workload} :
    x ∈ c.list kind ns selector ↔ c.inventory.get? x.id = some x ∧ x.kind = kind ∧
      x.key.ns = ns ∧ x.isOptedIn = true := by
  have hstored : x ∈ c.inventory.workloads ↔ c.inventory.get? x.id = some x := by
    constructor
    · intro h
      obtain ⟨⟨id, y⟩, he, rfl⟩ := List.mem_map.1 h
      have hget : c.inventory.get? id = some y := (Table.mem_entries_iff _).1 he
      rwa [← Inventory.id_of_get? hget] at hget
    · exact fun h => List.mem_map.2 ⟨(x.id, x), (Table.mem_entries_iff _).2 h, rfl⟩
  simp only [Cluster.list, List.mem_filter, hstored, hasLabels_selector, Bool.and_eq_true,
    beq_iff_eq, and_assoc]

/-- Workloads that nobody is at work on keep the registry as it is, and the ones that have another
count than their target are put before the quotas. -/
theorem assessAll_of_free (state : State) (items : List Workload) (w : World)
    (hfree : ∀ item ∈ items, w.registry.IsFree item.key) :
    (assessAll w state items).2.registry = w.registry ∧
      ∀ c, c ∈ (assessAll w state items).1.2 ↔ c.1 ∈ items ∧
        targetOf c.1 state = .ok (some c.2) ∧ c.1.spec ≠ c.2.replicas := by
  induction items generalizing w with
  | nil => exact ⟨rfl, fun c => by simp [assessAll]⟩
  | cons item rest ih =>
    have hrest : ∀ x ∈ rest, w.registry.IsFree x.key := fun x hx =>
      hfree x (List.mem_cons_of_mem _ hx)
    obtain ⟨hi, hf⟩ := hfree item List.mem_cons_self
    rcases assess_cases w state item with
      ⟨d, w₁, ha, hr⟩ | ⟨d, target, -, hact, -⟩ | ⟨target, ht, hne, -, -, ha⟩
    · have hno : ∀ t, targetOf item state = .ok (some t) → item.spec = t.replicas := by
        intro t ht
        have hrev : revise w item t = (none, w) := by simp [revise, hi, hf]
        by_contra hne
        simp [assess, ht, hrev, hne] at ha
      obtain ⟨hreg, hmem⟩ := ih w₁ (hr ▸ hrest)
      simp only [assessAll, ha]
      refine ⟨hreg.trans hr, fun c => (hmem c).trans ⟨fun h => ⟨.tail _ h.1, h.2⟩, ?_⟩⟩
      rintro ⟨hc, ht, hne⟩
      rcases List.mem_cons.1 hc with heq | hc
      · exact absurd (heq ▸ hno c.2 (heq ▸ ht)) hne
      · exact ⟨hc, ht, hne⟩
    · simp [hi, hf] at hact
    · obtain ⟨hreg, hmem⟩ := ih w hrest
      simp only [assessAll, ha]
      refine ⟨hreg, fun c => ?_⟩
      rw [List.mem_cons, hmem, List.mem_cons]
      constructor
      · rintro (rfl | ⟨hc, h⟩)
        · exact ⟨.inl rfl, ht, hne⟩
        · exact ⟨.inr hc, h⟩
      · rintro ⟨heq | hc, h⟩
        · refine .inl (Prod.ext heq ?_)
          have htarget := h.1
          rw [heq, ht] at htarget
          exact (Option.some.inj (Except.ok.inj htarget)).symm
        · exact .inr ⟨hc, h⟩

/-- **A cycle over an empty registry puts the workloads of its namespace that have another count
than the one they are to have before the quotas, and no others.** -/
theorem mem_proposed (hw : w.IsCalm) (hr : w.registry = ∅)
    (hstate : (NamespaceState.resolve w ns).1 = .ok state) :
    (proposed s w ns).2.registry = ∅ ∧ ∀ c, c ∈ (proposed s w ns).1 ↔
      w.cluster.inventory.get? c.1.id = some c.1 ∧ c.2.state = state.name ∧
        count? s ns state c.1 = some c.2.replicas ∧ c.1.spec ≠ c.2.replicas := by
  have hresolve : NamespaceState.resolve w ns = (.ok state, w) :=
    Prod.ext hstate (NamespaceState.resolve_of_faults hw.faults ns)
  have hfree : ∀ item ∈ s.enabledKinds.flatMap fun k => w.cluster.list k ns selector,
      w.registry.IsFree item.key := fun item _ => by rw [hr]; exact ⟨rfl, rfl⟩
  obtain ⟨hreg, hmem⟩ := assessAll_of_free state _ w hfree
  simp only [proposed, hresolve, listAll_of_faults hw.faults]
  refine ⟨hreg.trans hr, fun c => ?_⟩
  rw [hmem, List.mem_flatMap, count?_eq_iff]
  simp only [mem_list]
  constructor
  · rintro ⟨⟨kind, hk, hget, rfl, hns, -⟩, ht, hne⟩
    have hname := (targetOf_eq_iff.1 ht).2.1
    exact ⟨hget, hname, ⟨hns, hk, hname ▸ ht⟩, hne⟩
  · rintro ⟨hget, hname, ⟨hns, hk, ht⟩, hne⟩
    rw [← hname] at ht
    exact ⟨⟨_, hk, hget, rfl, hns, (targetOf_eq_iff.1 ht).1⟩, ht, hne⟩

/-- The premises under which a cycle brings its namespace to a state: the world is calm, writes make
replicas ready, the namespace has no quotas and workloads of different keys, the registry is empty,
the state holds, versions can be raised once for each step, and in step mode the workloads are ready
and their waits can be bounded. -/
structure Unimpeded (s : Settings) (w : World) (ns : String) (state : State) : Prop where
  calm : w.IsCalm
  ready : w.cluster.autoReady = true
  quotas : w.cluster.quotaStatus ns = []
  distinct : ((w.cluster.workloadsOf ns).map Workload.key).Nodup
  registry : w.registry = ∅
  resolves : (NamespaceState.resolve w ns).1 = .ok state
  versions : ∀ x ∈ w.cluster.workloadsOf ns, ∀ n, count? s ns state x = some n →
    x.version + (s.config.mode.path x.spec n).length < versionBound
  steady : s.config.mode = .step → ∀ x ∈ w.cluster.workloadsOf ns, x.ready = x.spec ∧
    ∀ target, Attempt.isTimeLimit ((Attempt.launch x target).limit s) = true

end Cycle

/-! ## What attempts change about their workloads -/

/-- A workload after a walk to a count, which raises its version with every step. -/
def Workload.movedTo (mode : Mode) (x : Workload) (n : Int) : Workload :=
  if x.spec = n then x
  else { x with spec := n, ready := n, version := x.version + (mode.path x.spec n).length }

/-- A workload after a cycle for a namespace and its attempts. -/
def Cycle.settled (s : Settings) (ns : String) (state : State) (x : Workload) : Workload :=
  match count? s ns state x with
  | some n => x.movedTo s.config.mode n
  | none => x

namespace Cycle

variable {s : Settings} {ns : String} {state : State} {x : Workload}

/-- Moving a workload changes nothing that its count depends on. -/
theorem count?_settled : count? s ns state (settled s ns state x) = count? s ns state x := by
  unfold settled
  split
  · unfold Workload.movedTo
    split <;> rfl
  · rfl

theorem spec_settled {n : Int} (h : count? s ns state x = some n) :
    (settled s ns state x).spec = n := by
  rw [settled, h]
  show (x.movedTo s.config.mode n).spec = n
  unfold Workload.movedTo
  split
  · assumption
  · rfl

end Cycle

namespace Attempt

variable {s : Settings} {a : Attempt} {w : World}

/-- An attempt has raised the version of its workload once for each step so far, and what it wrote
is ready. -/
structure Advances (mode : Mode) (a : Attempt) : Prop where
  version : a.current.version + (mode.path a.current.spec a.target.replicas).length =
    a.item.version + (mode.path a.item.spec a.target.replicas).length
  ready : a.current = a.item ∨ a.current.ready = a.current.spec

theorem CourseStep.advances {r : Attempt × World} (hstep : CourseStep s a w r)
    (h : a.OnCourse s w) (hready : w.cluster.autoReady = true) (ha : a.Advances s.config.mode) :
    r.1.Advances s.config.mode := by
  cases hstep with
  | @wrote n k hp hv =>
    have hversion := ha.version
    rw [h.of_writing hp, List.length_cons] at hversion
    refine ⟨?_, .inr (if_pos hready)⟩
    show a.current.version + 1 + (s.config.mode.path n a.target.replicas).length =
      a.item.version + (s.config.mode.path a.item.spec a.target.replicas).length
    omega
  | finished => exact ha
  | begun | decided | ready | denied | arrived => exact ⟨ha.version, ha.ready⟩

/-- An attempt at its target has moved its workload there. -/
theorem Advances.current_eq (ha : a.Advances s.config.mode) (h : a.OnCourse s w)
    (hne : a.item.spec ≠ a.target.replicas) (hspec : a.current.spec = a.target.replicas) :
    a.current = a.item.movedTo s.config.mode a.target.replicas := by
  have hready : a.current.ready = a.current.spec :=
    ha.ready.resolve_left fun heq => hne (heq ▸ hspec)
  have hversion := ha.version
  rw [hspec, Mode.path_self, List.length_nil, Nat.add_zero] at hversion
  obtain ⟨spec, ready, version, heq⟩ := h.same
  rw [hspec] at hready
  rw [Workload.movedTo, if_neg hne, ← hversion]
  rw [heq] at hspec hready ⊢
  obtain rfl : spec = a.target.replicas := hspec
  obtain rfl : ready = a.target.replicas := hready
  rfl

/-- An attempt on course strands nothing. -/
theorem OnCourse.not_strands (h : a.OnCourse s w) : ¬ a.Strands w := by
  rintro ⟨hp, hw, ht, hne⟩
  refine h.of_deciding hp hw ?_
  have hforce := h.inForce (by simp [ending?, hp])
  rw [desired_eq, ht] at hforce
  exact hforce

end Attempt

namespace Scene

variable {s : Settings} {c : Cluster} {ns : String} {changes : List Launch} {sc : Scene}

/-! ## Attempts that nothing stops -/

/-- Attempts under way in a namespace without quotas.  None was refused, and every entry of the
registry belongs to one that has not ended. -/
structure Converging (s : Settings) (c : Cluster) (ns : String) (changes : List Launch)
    (sc : Scene) : Prop where
  underWay : ∃ records, sc.UnderWay s c ns changes records
  advances : ∀ a ∈ sc.attempts, a.Advances s.config.mode
  allowed : ∀ a ∈ sc.attempts, a.ending? ≠ some (.done .quotaDenied)
  attended : ∀ key, sc.world.registry.get? key = none ∨
    ∃ a ∈ sc.attempts, a.key = key ∧ a.ending? = none

/-- Without quotas no count is refused. -/
theorem UnderWay.verdict_eq {records : List (WorkloadId × Int)}
    (h : sc.UnderWay s c ns changes records) (hq : c.quotaStatus ns = []) {a : Attempt}
    (ha : a ∈ sc.attempts) (n : Int) : a.verdict sc.world.cluster n = .allowed := by
  have hnone : sc.world.cluster.quotaStatus ns = [] := by
    rw [Cluster.quotaStatus, List.map_eq_nil_iff] at hq ⊢
    rw [h.cluster]
    exact hq
  rw [Attempt.verdict, (h.courses a ha).key_eq, h.home a ha, Cluster.verdict_of_no_quotas hnone]

/-- A turn drops the entry of the attempt that ends with it, and no other entry. -/
theorem attended_next {records : List (WorkloadId × Int)}
    (h : sc.UnderWay s c ns changes records)
    (hattended : ∀ key, sc.world.registry.get? key = none ∨
      ∃ a ∈ sc.attempts, a.key = key ∧ a.ending? = none) (i : Nat)
    (hallowed : ∀ b ∈ (sc.next s (.attempt i)).attempts,
      b.ending? ≠ some (.done .quotaDenied)) (key : Key) :
    (sc.next s (.attempt i)).world.registry.get? key = none ∨
      ∃ b ∈ (sc.next s (.attempt i)).attempts, b.key = key ∧ b.ending? = none := by
  rcases sc.next_attempt_cases s i with ⟨a, ha, hfree, -⟩ | hn
  · have hmem := List.mem_of_getElem? ha
    obtain ⟨hself, -, hworld⟩ := next_attempt_self (s := s) ha hfree
    have hmem' := List.mem_of_getElem? hself
    rw [hworld]
    by_cases hown : a.key = key ∧ a.ending? = none
    · obtain ⟨rfl, hn⟩ := hown
      cases he : (a.step s sc.world).1.ending? with
      | none => exact .inr ⟨_, hmem', a.step_key s sc.world, he⟩
      | some e =>
        obtain ⟨records', h'⟩ := h.next i
        have hscaled := (h'.ending_cases hmem').resolve_left (by rw [he]; exact nofun)
        exact .inl (Attempt.get?_step_of_done hn (o := .scaled _) nofun
          (hscaled.resolve_right (hallowed _ hmem')) (h.courses a hmem).not_strands)
    · have hsame : (a.step s sc.world).2.registry.get? key = sc.world.registry.get? key := by
        by_cases hk : key = a.key
        · obtain ⟨e, he⟩ := Option.ne_none_iff_exists'.1 fun hn => hown ⟨hk.symm, hn⟩
          rw [Attempt.step_ending?_of_some he]
        · exact a.step_get?_of_ne s sc.world hk
      rw [hsame]
      refine (hattended key).imp id ?_
      rintro ⟨b, hb, hbk, hbe⟩
      have hne : b ≠ a := fun hba => hown (hba ▸ ⟨hbk, hbe⟩)
      exact ⟨b, mem_next_of_ne ha hfree hb hne, hbk, hbe⟩
  · rw [hn]
    exact hattended key

theorem Converging.next (h : sc.Converging s c ns changes) (hready : c.autoReady = true)
    (hq : c.quotaStatus ns = []) (i : Nat) :
    (sc.next s (.attempt i)).Converging s c ns changes := by
  obtain ⟨records, hunderway⟩ := h.underWay
  have hready : sc.world.cluster.autoReady = true := by
    rw [hunderway.cluster]
    exact hready
  have hallowed := hunderway.forall_next i (P := (·.ending? ≠ some (.done .quotaDenied)))
    (fun a ha r hstep => hstep.not_denied fun _ => hunderway.verdict_eq hq ha _) h.allowed
  exact
    { underWay := hunderway.next i
      advances := hunderway.forall_next i
        (fun a ha r hstep hadv => hstep.advances (hunderway.courses a ha) hready hadv) h.advances
      allowed := hallowed
      attended := attended_next hunderway h.attended i hallowed }

theorem Converging.run (h : sc.Converging s c ns changes) (hready : c.autoReady = true)
    (hq : c.quotaStatus ns = []) (turns : List Nat) :
    (sc.run s (turns.map .attempt)).Converging s c ns changes := by
  induction turns generalizing sc with
  | nil => exact h
  | cons i turns ih => exact ih (h.next hready hq i)

/-- When all attempts have ended, the registry is empty. -/
theorem Converging.registry_eq (h : sc.Converging s c ns changes)
    (hended : ∀ a ∈ sc.attempts, a.ending?.isSome = true) : sc.world.registry = ∅ := by
  refine Table.ext_get? fun key => (h.attended key).resolve_right ?_
  rintro ⟨a, ha, -, hn⟩
  simpa [hn] using hended a ha

/-- When all attempts have ended, they have moved their workloads to their targets. -/
theorem Converging.moved (h : sc.Converging s c ns changes)
    (hne : ∀ l ∈ changes, l.1.spec ≠ l.2.replicas)
    (hended : ∀ a ∈ sc.attempts, a.ending?.isSome = true) :
    ∀ l ∈ changes, sc.world.cluster.inventory.get? l.1.id =
      some (l.1.movedTo s.config.mode l.2.replicas) := by
  obtain ⟨records, hunderway⟩ := h.underWay
  intro l hl
  have hmem := hl
  rw [← hunderway.launched] at hmem
  obtain ⟨a, ha, rfl⟩ := List.mem_map.1 hmem
  have hcourse := hunderway.courses a ha
  obtain ⟨-, hspec, -⟩ := hunderway.scaled_of_ended ha (hended a ha) (h.allowed a ha)
  rw [hcourse.stored, (h.advances a ha).current_eq hcourse (hne _ hl) hspec]

/-! ## Main theorem -/

/-- A cycle for a namespace has brought it to a state: its workloads have the counts for that state,
nothing else about the workloads changed, the registry is empty, and another cycle finds nothing to
do. -/
structure Settled (s : Settings) (w : World) (ns : String) (state : State) (sc : Scene) : Prop where
  stored : ∀ id, sc.world.cluster.inventory.get? id =
    (w.cluster.inventory.get? id).map (Cycle.settled s ns state)
  registry : sc.world.registry = ∅
  launches_again : ((Trigger.cycle ns).fire s sc.world).1 = []
  cluster_again : ((Trigger.cycle ns).fire s sc.world).2.cluster = sc.world.cluster
  registry_again : ((Trigger.cycle ns).fire s sc.world).2.registry = ∅

end Scene

namespace Cycle.Unimpeded

variable {s : Settings} {w : World} {ns : String} {state : State}

theorem mem_workloadsOf (h : Unimpeded s w ns state) {c : Launch} (hc : c ∈ (proposed s w ns).1) :
    c.1 ∈ w.cluster.workloadsOf ns ∧ count? s ns state c.1 = some c.2.replicas := by
  obtain ⟨hget, -, hcount, -⟩ := ((mem_proposed h.calm h.registry h.resolves).2 c).1 hc
  exact ⟨(count?_eq_iff.1 hcount).1 ▸ Cluster.mem_workloadsOf hget, hcount⟩

theorem allowed (h : Unimpeded s w ns state) :
    ((proposed s w ns).2.admission ns (needOf (proposed s w ns).1)).1 = .ok .allowed := by
  obtain ⟨⟨faults, registry, events, hworld⟩, hfaults, -⟩ :=
    proposed_spec (s := s) h.calm h.distinct
  have hcalm : (proposed s w ns).2.IsCalm :=
    ⟨hfaults, by rw [hworld]; exact h.calm.rules, by rw [hworld]; exact h.calm.conflicts⟩
  have hquotas : (proposed s w ns).2.cluster.quotaStatus ns = [] := by
    rw [hworld]
    exact h.quotas
  rw [hcalm.admission, Cluster.verdict_of_no_quotas hquotas]

/-- **After the cycle every change of its batch has an attempt that nothing stops.** -/
theorem converging (h : Unimpeded s w ns state) :
    (Scene.afterCycle s w ns).Converging s w.cluster ns (proposed s w ns).1 := by
  obtain ⟨hlaunches, -, -, -, hothers⟩ := launches_of_allowed h.calm h.distinct h.allowed
  have hunderway := Scene.underWay_afterCycle h.calm h.distinct h.allowed
    (fun c hc => h.versions c.1 (h.mem_workloadsOf hc).1 _ (h.mem_workloadsOf hc).2)
    fun hmode => ⟨h.ready, fun c hc =>
      have hsteady := h.steady hmode c.1 (h.mem_workloadsOf hc).1
      ⟨hsteady.1, hsteady.2 c.2⟩⟩
  have hlaunched : ∀ a ∈ (Scene.afterCycle s w ns).attempts, ∃ l : Launch, a = .launch l.1 l.2 := by
    intro a ha
    obtain ⟨l, -, rfl⟩ := List.mem_map.1 (show a ∈ List.map _ (launchesOf _) from ha)
    exact ⟨l, rfl⟩
  refine ⟨⟨[], hunderway⟩, fun a ha => ?_, fun a ha => ?_, fun key => ?_⟩
  · obtain ⟨l, rfl⟩ := hlaunched a ha
    exact ⟨rfl, .inl rfl⟩
  · obtain ⟨l, rfl⟩ := hlaunched a ha
    exact nofun
  · by_cases hkey : key ∈ (proposed s w ns).1.map fun c => c.1.key
    · obtain ⟨c, hc, rfl⟩ := List.mem_map.1 hkey
      rw [← hlaunches] at hc
      exact .inr ⟨.launch c.1 c.2, List.mem_map_of_mem hc, rfl, rfl⟩
    · refine .inl ((hothers key hkey).trans ?_)
      rw [(mem_proposed h.calm h.registry h.resolves).1]
      rfl

/-- When all attempts have ended, every workload of the cluster is the settled one. -/
theorem stored {sc : Scene} (h : Unimpeded s w ns state)
    (hsc : sc.Converging s w.cluster ns (proposed s w ns).1)
    (hended : ∀ a ∈ sc.attempts, a.ending?.isSome = true) (id : WorkloadId) :
    sc.world.cluster.inventory.get? id =
      (w.cluster.inventory.get? id).map (Cycle.settled s ns state) := by
  obtain ⟨records, hunderway⟩ := hsc.underWay
  have hmem := (mem_proposed (s := s) h.calm h.registry h.resolves).2
  -- a workload without a change has no attempt
  have hkept : (∀ c ∈ (proposed s w ns).1, c.1.id ≠ id) →
      sc.world.cluster.inventory.get? id = w.cluster.inventory.get? id := fun hno =>
    hunderway.others id fun a ha => hno _ (hunderway.mem_changes ha)
  cases hx : w.cluster.inventory.get? id with
  | none =>
    rw [hkept, hx, Option.map_none]
    rintro c hc rfl
    rw [((hmem c).1 hc).1] at hx
    cases hx
  | some x =>
    obtain rfl := Inventory.id_of_get? hx
    have hsame : ∀ c ∈ (proposed s w ns).1, c.1.id = x.id → c.1 = x := fun c hc hid =>
      Option.some.inj (((hmem c).1 hc).1.symm.trans (hid ▸ hx))
    rw [Option.map_some, Cycle.settled]
    cases hcount : count? s ns state x with
    | none =>
      rw [hkept, hx]
      intro c hc hid
      have hsome := ((hmem c).1 hc).2.2.1
      rw [hsame c hc hid, hcount] at hsome
      cases hsome
    | some n =>
      show _ = some (x.movedTo s.config.mode n)
      by_cases hspec : x.spec = n
      · rw [hkept, hx, Workload.movedTo, if_pos hspec]
        intro c hc hid
        obtain ⟨-, -, hsome, hne⟩ := (hmem c).1 hc
        rw [hsame c hc hid] at hsome hne
        exact hne (hspec.trans (Option.some.inj (hcount.symm.trans hsome)))
      · exact hsc.moved (fun l hl => ((hmem l).1 hl).2.2.2) hended (x, ⟨state.name, n⟩)
          ((hmem _).2 ⟨hx, rfl, hcount, hspec⟩)

/-- **When all attempts have ended, the namespace is settled.** -/
theorem settled {sc : Scene} (h : Unimpeded s w ns state)
    (hsc : sc.Converging s w.cluster ns (proposed s w ns).1)
    (hended : ∀ a ∈ sc.attempts, a.ending?.isSome = true) : sc.Settled s w ns state := by
  obtain ⟨records, hunderway⟩ := hsc.underWay
  have hstored := h.stored hsc hended
  have hregistry := hsc.registry_eq hended
  have hresolves : (NamespaceState.resolve sc.world ns).1 = .ok state := by
    rw [← h.resolves]
    refine NamespaceState.resolve_congr h.calm.faults hunderway.calm.faults ?_ ?_ ?_ <;>
      rw [hunderway.cluster]
    rfl
  obtain ⟨hreg, hmem⟩ := mem_proposed (s := s) hunderway.calm hregistry hresolves
  have hnil : (proposed s sc.world ns).1 = [] := by
    refine List.eq_nil_iff_forall_not_mem.2 fun c hc => ?_
    obtain ⟨hget, -, hcount, hne⟩ := (hmem c).1 hc
    obtain ⟨x, -, hx⟩ := Option.map_eq_some_iff.1 ((hstored c.1.id).symm.trans hget)
    rw [← hx] at hcount hne
    rw [count?_settled] at hcount
    exact hne (spec_settled hcount)
  obtain ⟨hlaunches, hworld⟩ := ofNamespace_proposed s sc.world ns
  rw [hnil] at hlaunches hworld
  refine ⟨hstored, hregistry, hlaunches, ?_, ?_⟩
  · obtain ⟨faults, registry, events, hbooked⟩ := ofNamespace_booked s sc.world ns
    show (ofNamespace s sc.world ns).2.cluster = sc.world.cluster
    rw [hbooked]
  · exact (congrArg World.registry hworld).trans hreg

end Cycle.Unimpeded

namespace Scene

/-- **A cycle brings its namespace to the state that holds.**  When its attempts have all ended, in
whatever order they took their turns, every workload that is under control, of an enabled kind and
has valid annotations with a count for the state has that count, every other workload of the cluster
is unchanged, the registry is empty, and another cycle launches and writes nothing.  The attempts
have all ended after each got enough turns, in any order. -/
theorem cycle_converges (s : Settings) (w : World) (ns : String) (state : State)
    (h : Cycle.Unimpeded s w ns state) :
    let start := afterCycle s w ns
    (∀ turns : List Nat,
      let sc := start.run s (turns.map .attempt)
      (∀ a ∈ sc.attempts, a.ending?.isSome = true) → sc.Settled s w ns state) ∧
    ∃ k, ∀ order : List Nat, order.Perm (List.range start.attempts.length) → ∀ more, k ≤ more →
      ∀ a ∈ (start.run s ((order.flatMap fun i => List.replicate more i).map .attempt)).attempts,
        a.ending?.isSome = true := by
  intro start
  have hstart : start.Converging s w.cluster ns (Cycle.proposed s w ns).1 := h.converging
  obtain ⟨records, hunderway⟩ := hstart.underWay
  obtain ⟨k, hk⟩ := exists_turns s (Cycle.proposed s w ns).1
  refine ⟨fun turns => h.settled (hstart.run h.ready h.quotas turns), k,
    fun order horder more hmore => ?_⟩
  rw [hunderway.length_attempts] at horder
  exact hunderway.ended_of_perm isAtRest_afterCycle horder fun l hl => (hk l hl).trans hmore

/-- Step by step one workload grows and another one shrinks; one without the label keeps its
count. -/
theorem cycle_converges_three_workloads :
    let x : Workload :=
      { Workload.sample ⟨.deployment, "shop", "api"⟩ "3" with spec := 1, ready := 1 }
    let y : Workload :=
      { Workload.sample ⟨.deployment, "shop", "db"⟩ "0" with spec := 1, ready := 1 }
    let z : Workload :=
      { Workload.sample ⟨.deployment, "shop", "web"⟩ "5" with spec := 2, ready := 2, labels := ∅ }
    let s := Settings.standard .step
    let w := World.holding [x, y, z]
    let turns := [1, 0].flatMap fun i => List.replicate 9 i
    Cycle.Unimpeded s w "shop" ⟨"up", 0⟩ ∧
      ((afterCycle s w "shop").run s (turns.map .attempt)).Settled s w "shop" ⟨"up", 0⟩ ∧
      [x, y, z].map (Cycle.settled s "shop" ⟨"up", 0⟩) =
        [{ x with spec := 3, ready := 3, version := 2 },
          { y with spec := 0, ready := 0, version := 1 }, z] := by
  intro x y z s w turns
  have hversions : ∀ v ∈ w.cluster.workloadsOf "shop", (Cycle.count? s "shop" ⟨"up", 0⟩ v).all
      (fun n => v.version + (s.config.mode.path v.spec n).length < versionBound) = true := by
    decide +kernel
  have hsteady : ∀ v ∈ w.cluster.workloadsOf "shop", v.ready = v.spec ∧
      Attempt.isTimeLimit ((Attempt.launch v default).limit s) = true := by
    decide +kernel
  have h : Cycle.Unimpeded s w "shop" ⟨"up", 0⟩ :=
    { calm := ⟨rfl, rfl, rfl⟩
      ready := rfl
      quotas := rfl
      distinct := by decide +kernel
      registry := rfl
      resolves := rfl
      versions := fun v hv n hn => by simpa [hn] using hversions v hv
      steady := fun _ v hv => ⟨(hsteady v hv).1, fun _ => (hsteady v hv).2⟩ }
  refine ⟨h, (cycle_converges s w "shop" ⟨"up", 0⟩ h).1 turns (by decide +kernel), ?_⟩
  decide +kernel

end Scene

end ReplicaControl
