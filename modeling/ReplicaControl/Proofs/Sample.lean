import ReplicaControl.Proofs.AttemptStep
import ReplicaControl.Proofs.Calm
import ReplicaControl.Proofs.Plan

/-!
# Sample worlds

* `World.holding` — a world that refuses nothing, with some workloads and one state, which holds
  everywhere.
* `Workload.sample` — a workload under control with a target for that state.
* `Settings.standard` — the default configuration with all kinds of its platform.
* `World.Grants` — a world in which a workload can be read and written; `Attempt.step_of_grants`: an
  attempt that tries to write a count there does so.
* `resolve_holding`, `fetch_holding`, `targetOf_sample` — what can be read after others made such a
  world.
-/

namespace ReplicaControl

/-- A world that refuses nothing, with some workloads and one state, which holds everywhere. -/
def World.holding (xs : List Workload) : World where
  cluster :=
    { inventory := xs.foldl Inventory.put ∅, definitions := [⟨"up", 0⟩], clusterStates := ["up"] }

/-- A workload under control without replicas, with a target for the state. -/
def Workload.sample (id : WorkloadId) (count : String) : Workload where
  key := id.key
  kind := id.kind
  labels := Table.ofList [(optInLabel, "true")]
  annotations := Table.ofList [("scaler/state-up-replicas", count)]

/-- The default configuration, except for the mode. -/
def Settings.standard (mode : Mode) : Settings where
  config := { mode }
  timings :=
    { pollInterval := ⟨2000⟩, stepSlack := ⟨60000⟩, rectifyInterval := ⟨15000⟩,
      reconcileInterval := ⟨30000⟩, conflictBackoff := ⟨10⟩ }
  adapters := Platform.kubernetes.kinds

/-- These are the times that the texts of the default configuration mean. -/
example (mode : Mode) :
    (Settings.standard mode).config.timings = .ok (Settings.standard mode).timings := by
  cbv

theorem Workload.isOptedIn_sample (id : WorkloadId) (count : String) :
    (sample id count).isOptedIn = true := by
  show ((Table.ofList [(optInLabel, "true")]).get? optInLabel == some "true") = true
  decide +kernel

theorem Workload.ofAnnotations_sample (id : WorkloadId) :
    ReplicaMap.ofAnnotations (sample id "1").annotations = .ok (Table.ofList [("up", 1)]) := by
  show ReplicaMap.ofAnnotations (Table.ofList [("scaler/state-up-replicas", "1")]) = _
  decide +kernel

theorem Workload.targetOf_sample (id : WorkloadId) :
    Cycle.targetOf (sample id "1") ⟨"up", 0⟩ = .ok (some ⟨"up", 1⟩) := by
  have hin := isOptedIn_sample id "1"
  rw [Cycle.targetOf, if_pos hin, targetFor, if_pos hin, ofAnnotations_sample]
  rfl

theorem World.resolve_holding (w : World) (xs : List Workload) (ns : String) :
    NamespaceState.resolve (w.changedTo (holding xs)) ns =
      (.ok ⟨"up", 0⟩, w.changedTo (holding xs)) := by
  rfl

/-- The one state is the only one that holds. -/
theorem World.eq_of_resolves_holding {xs : List Workload} {ns : String} {state : State}
    (h : (holding xs).cluster.Resolves ns state) : state = ⟨"up", 0⟩ := by
  obtain ⟨-, cluster, selected, hc, hs, hch⟩ := h
  cases hc
  cases hs
  cases hch
  rfl

theorem World.get?_holding (w : World) (x : Workload) :
    (w.changedTo (holding [x])).cluster.inventory.get? x.id = some x :=
  Inventory.get?_put_self ∅ x

theorem World.fetch_holding (w : World) (x : Workload) :
    (w.changedTo (holding [x])).fetch x.id = (.ok x, w.changedTo (holding [x])) := by
  have hread : (w.changedTo (holding [x])).cluster.read x.id = .ok x := by
    simp only [Cluster.read, get?_holding]
  have hpass : (w.changedTo (holding [x])).intercept .get =
      (none, w.changedTo (holding [x])) := rfl
  simp only [fetch, ask, hpass, hread]

/-! ## Writes -/

/-- Nothing stands in the way of reading and writing a workload. -/
structure World.Grants (w : World) (x : Workload) : Prop where
  faults : w.faults = []
  rules : w.rules = []
  conflicts : w.cluster.pendingConflicts = 0
  quotas : w.cluster.quotaStatus x.key.ns = []
  stored : w.cluster.inventory.get? x.id = some x
  optedIn : x.isOptedIn = true
  version : x.version + 1 < versionBound

namespace World.Grants

variable {w : World} {x : Workload}

theorem isCalm (h : w.Grants x) : w.IsCalm := ⟨h.faults, h.rules, h.conflicts⟩

theorem fetch (h : w.Grants x) : w.fetch x.id = (.ok x, w) := h.isCalm.fetch h.stored

theorem admission (h : w.Grants x) (need : Option ResourceList) :
    w.admission x.key.ns need = (.ok .allowed, w) := by
  rw [h.isCalm.admission, Cluster.verdict_of_no_quotas h.quotas]

theorem store (h : w.Grants x) (n : Int) :
    w.store { x with spec := n } =
      (.stored (w.cluster.updated x n), { w with cluster := w.cluster.update x n }) :=
  h.isCalm.store h.stored h.version n

end World.Grants

theorem World.Grants.registry {w : World} {x : Workload} (h : w.Grants x) (r : Registry) :
    ({ w with registry := r } : World).Grants x :=
  ⟨h.faults, h.rules, h.conflicts, h.quotas, h.stored, h.optedIn, h.version⟩

/-- **Where nothing stands in the way, an attempt that tries to write a count does so.** -/
theorem Attempt.step_of_grants (s : Settings) {a : Attempt} {w : World} {x : Workload} {n : Int}
    {k : Nat} (h : w.Grants x) (hid : a.item.id = x.id) (ht : a.Tries w n k) :
    ∃ new w', a.step s w =
        ({ a with current := new, written := true, phase := .deciding }, w') ∧
      new.spec = n ∧ new.id = x.id ∧ new.version = x.version + 1 ∧ w'.registry = w.registry ∧
      w'.cluster.history = w.cluster.history ++ [(x.id, n)] ∧
      (new.version + 1 < versionBound → w'.Grants new) := by
  have hwrite : a.write s w n k = a.store s w x n k := by
    simp [write, hid, h.fetch, h.optedIn, h.admission]
  rw [step_of_tries ht, hwrite, store, h.store n]
  refine ⟨_, _, rfl, rfl, rfl, rfl, rfl, rfl, fun hv => ?_⟩
  refine ⟨h.faults, h.rules, h.conflicts, ?_, Inventory.get?_put_self _ _, h.optedIn, hv⟩
  exact List.map_eq_nil_iff.2 (List.map_eq_nil_iff.1 h.quotas)

/-- Nothing stands in the way of a sample workload that is alone, whatever the time. -/
theorem World.grants_holding (w : World) (id : WorkloadId) (count : String) (now : Nat) :
    (w.changedTo { holding [.sample id count] with now }).Grants (.sample id count) where
  faults := rfl
  rules := rfl
  conflicts := rfl
  quotas := rfl
  stored := Inventory.get?_put_self ∅ _
  optedIn := Workload.isOptedIn_sample id count
  version := show 0 + 1 < versionBound by decide

end ReplicaControl
