import ReplicaControl.Proofs.Calm

/-!
# Scopes

* `Scope` — a namespace of the cluster, some keys of the registry and of the events, and what was
  told and written before.
* `World.within` — all that a scope shows of a world: of the cluster the namespace, of the registry
  and the new events the keys, and nothing of the clock.
* `Table.only_insert`, `Registry.only_claim`, … — the operations on a key commute with the
  restriction to keys that include it.
* `Cluster.usage_within`, `update_within`, … — what a cluster answers about a namespace, and how it
  changes, depends on the namespace only.
* `World.AgreesOn` — two worlds have the same for a namespace: then they show the same.
-/

namespace ReplicaControl

/-! ## Tables -/

namespace Table

variable {κ α : Type} [Ord κ]

/-- The entries under the keys that a test accepts. -/
def only (t : Table κ α) (p : κ → Bool) : Table κ α := t.filter fun k _ => p k

variable [Std.LawfulEqOrd κ] {p : κ → Bool} {k : κ}

theorem get?_only (t : Table κ α) (p : κ → Bool) (k : κ) :
    (t.only p).get? k = if p k = true then t.get? k else none := by
  rw [only, get?_filter]
  cases t.get? k <;> cases p k <;> simp [Option.filter]

theorem get?_only_of (t : Table κ α) (h : p k = true) : (t.only p).get? k = t.get? k := by
  rw [get?_only, if_pos h]

variable [Std.TransOrd κ] [DecidableEq κ]

theorem only_insert (t : Table κ α) (h : p k = true) (v : α) :
    (t.insert k v).only p = (t.only p).insert k v := by
  refine ext_get? fun j => ?_
  rw [get?_only, get?_insert, get?_insert, get?_only]
  by_cases hj : j = k
  · simp [hj, h]
  · simp [hj]

theorem only_adjust (t : Table κ α) (h : p k = true) (f : α → α) :
    (t.adjust k f).only p = (t.only p).adjust k f := by
  refine ext_get? fun j => ?_
  rw [get?_only, get?_adjust, get?_adjust, get?_only, get?_only]
  by_cases hj : j = k
  · simp [hj, h]
  · simp [hj]

theorem only_erase (t : Table κ α) (h : p k = true) :
    (t.erase k).only p = (t.only p).erase k := by
  refine ext_get? fun j => ?_
  by_cases hj : j = k
  · subst hj
    rw [get?_only, if_pos h, get?_erase_self, get?_erase_self]
  · rw [get?_only, get?_erase_of_ne _ hj, get?_erase_of_ne _ hj, get?_only]

end Table

/-! ## Registries -/

namespace Registry

variable {p : Key → Bool} {key : Key}

theorem isInFlight_only (r : Registry) (h : p key = true) :
    isInFlight (r.only p) key = r.isInFlight key := by
  rw [isInFlight, Table.get?_only_of r h]
  rfl

theorem isFailed_only (r : Registry) (h : p key = true) :
    isFailed (r.only p) key = r.isFailed key := by
  rw [isFailed, Table.get?_only_of r h]
  rfl

theorem only_claim (r : Registry) {x : Workload} (h : p x.key = true) (desired : Int) :
    claim (r.only p) x desired = ((r.claim x desired).1, (r.claim x desired).2.only p) := by
  unfold claim retarget
  rw [Table.get?_only_of r h]
  split
  · split
    · rw [Table.only_adjust r h]
    · split
      · rw [Table.only_adjust r h]
      · rw [Table.only_insert r h]
  · rw [Table.only_insert r h]

theorem only_settle (r : Registry) (h : p key = true) (reached : Int) :
    settle (r.only p) key reached =
      ((r.settle key reached).1, (r.settle key reached).2.only p) := by
  unfold settle
  rw [Table.get?_only_of r h]
  split
  · split
    · rw [Table.only_erase r h]
    · rw [Table.only_adjust r h]
  · rfl

theorem only_release (r : Registry) (h : p key = true) :
    release (r.only p) key = (r.release key).only p := by
  unfold release
  rw [Table.get?_only_of r h]
  split
  · split
    · rw [Table.only_adjust r h]
    · rw [Table.only_erase r h]
  · rfl

end Registry

/-! ## Clusters -/

namespace Inventory

/-- The workloads of a namespace. -/
def within (inv : Inventory) (ns : String) : Inventory where
  table := inv.table.only fun id => id.key.ns == ns
  filed id w h := by
    rw [Table.get?_only] at h
    split at h
    · exact inv.filed id w h
    · cases h

variable {ns : String}

theorem get?_within (inv : Inventory) (id : WorkloadId) :
    (inv.within ns).get? id = if id.key.ns = ns then inv.get? id else none := by
  rw [get?, within, Table.get?_only]
  simp only [beq_iff_eq]
  rfl

theorem ext_get? {inv inv' : Inventory} (h : ∀ id, inv.get? id = inv'.get? id) : inv = inv' := by
  obtain ⟨t, hf⟩ := inv
  obtain ⟨t', hf'⟩ := inv'
  obtain rfl : t = t' := Table.ext_get? h
  rfl

theorem put_within (inv : Inventory) {x : Workload} (h : x.key.ns = ns) :
    (inv.within ns).put x = (inv.put x).within ns := by
  refine ext_get? fun id => ?_
  rw [get?_put, get?_within, get?_within, get?_put]
  by_cases hid : id = x.id
  · rw [if_pos hid, if_pos hid, if_pos (hid ▸ h)]
  · rw [if_neg hid, if_neg hid]

theorem workloads_within (inv : Inventory) :
    (inv.within ns).workloads = inv.workloads.filter fun x => x.key.ns == ns := by
  unfold workloads within Table.only Table.filter Table.values
  rw [List.filter_map]
  refine congrArg (List.map _) (List.filter_congr fun e he => ?_)
  have hid := inv.filed e.1 e.2 ((inv.table.mem_entries_iff).1 he)
  exact congrArg (fun id : WorkloadId => id.key.ns == ns) hid.symm

end Inventory

namespace Cluster

/-- All that concerns a namespace, and the writes to its workloads after the first few writes. -/
def within (c : Cluster) (ns : String) (written : Nat) : Cluster :=
  { c with
    inventory := c.inventory.within ns
    quotas := Table.insert ∅ ns ((c.quotas.get? ns).getD [])
    namespaceStates := Table.insert ∅ ns (c.statesOf ns)
    history := (c.history.drop written).filter fun r => r.1.key.ns == ns }

variable {c : Cluster} {ns : String} {written : Nat}

theorem get?_within {id : WorkloadId} (h : id.key.ns = ns) :
    (c.within ns written).inventory.get? id = c.inventory.get? id := by
  rw [within, Inventory.get?_within, if_pos h]

theorem list_within (kind : Kind) (selector : Table String String) :
    (c.within ns written).list kind ns selector = c.list kind ns selector := by
  rw [list, within, Inventory.workloads_within, List.filter_filter]
  refine List.filter_congr fun x _ => ?_
  cases x.key.ns == ns <;> simp

theorem workloadsOf_within : (c.within ns written).workloadsOf ns = c.workloadsOf ns := by
  rw [workloadsOf, within, Inventory.workloads_within, List.filter_filter]
  exact List.filter_congr fun x _ => Bool.and_self _

theorem usage_within : (c.within ns written).usage ns = c.usage ns := by
  rw [usage, workloadsOf_within]
  rfl

theorem quotaStatus_within : (c.within ns written).quotaStatus ns = c.quotaStatus ns := by
  rw [quotaStatus, usage_within, within, Table.get?_insert_self]
  rfl

theorem verdict_within (need : Option ResourceList) :
    (c.within ns written).verdict ns need = c.verdict ns need := by
  cases need with
  | none => rfl
  | some need => rw [verdict, verdict, quotaStatus_within]

theorem statesOf_within : (c.within ns written).statesOf ns = c.statesOf ns := by
  rw [statesOf, within, Table.get?_insert_self]
  rfl

/-- A write to a workload of the namespace. -/
theorem update_within {x : Workload} (h : x.key.ns = ns) (hw : written ≤ c.history.length)
    (n : Int) : (c.within ns written).update x n = (c.update x n).within ns written := by
  have hput : (c.inventory.within ns).put (c.updated x n) =
      (c.inventory.put (c.updated x n)).within ns := c.inventory.put_within h
  have hlog : (c.history.drop written).filter (fun r => r.1.key.ns == ns) ++ [(x.id, n)] =
      ((c.history ++ [(x.id, n)]).drop written).filter fun r => r.1.key.ns == ns := by
    rw [List.drop_append_of_le_length hw, List.filter_append]
    simp [Workload.id, h]
  unfold update within
  dsimp only
  rw [hlog, ← hput]
  rfl

/-- Two clusters have the same for a namespace. -/
structure AgreesOn (ns : String) (c c' : Cluster) : Prop where
  definitions : c'.definitions = c.definitions
  clusterStates : c'.clusterStates = c.clusterStates
  autoReady : c'.autoReady = c.autoReady
  workloads : ∀ id, id.key.ns = ns → c'.inventory.get? id = c.inventory.get? id
  quotas : (c'.quotas.get? ns).getD [] = (c.quotas.get? ns).getD []
  namespaceStates : c'.statesOf ns = c.statesOf ns

end Cluster

/-! ## Worlds -/

/-- What somebody may see of a world: a namespace of the cluster, and some keys of the registry and
of the events.  Of the events and of the record of writes only what is new is shown. -/
structure Scope where
  ns : String
  has : Key → Bool
  /-- How many events were told before. -/
  told : Nat
  /-- How many counts were written before. -/
  written : Nat

namespace Scope

/-- A namespace. -/
def ofNamespace (w : World) (ns : String) : Scope where
  ns := ns
  has := fun key => key.ns == ns
  told := w.events.length
  written := w.cluster.history.length

/-- A key, in its namespace. -/
def ofKey (w : World) (key : Key) : Scope where
  ns := key.ns
  has := fun other => other == key
  told := w.events.length
  written := w.cluster.history.length

/-- What was told and written before a scope is part of what a world has recorded. -/
structure Fits (σ : Scope) (w : World) : Prop where
  told : σ.told ≤ w.events.length
  written : σ.written ≤ w.cluster.history.length

theorem Fits.emit {σ : Scope} {w : World} (h : σ.Fits w) (e : Event) : σ.Fits (w.emit e) where
  told := Nat.le_trans h.told (by simp [World.emit])
  written := h.written

end Scope

namespace World

/-- What a scope shows of a world. -/
def within (w : World) (σ : Scope) : World where
  cluster := w.cluster.within σ.ns σ.written
  faults := w.faults
  rules := w.rules
  registry := w.registry.only σ.has
  events := (w.events.drop σ.told).filter fun e => σ.has e.key

variable {w w' : World} {σ : Scope}

theorem IsCalm.within (h : w.IsCalm) (σ : Scope) : (w.within σ).IsCalm :=
  ⟨h.faults, h.rules, h.conflicts⟩

theorem emit_within {e : Event} (h : σ.has e.key = true) (hf : σ.Fits w) :
    (w.within σ).emit e = (w.emit e).within σ := by
  have hevents : (w.events.drop σ.told).filter (fun e => σ.has e.key) ++ [e] =
      ((w.events ++ [e]).drop σ.told).filter fun e => σ.has e.key := by
    rw [List.drop_append_of_le_length hf.told, List.filter_append]
    simp [h]
  unfold emit World.within
  rw [hevents]

/-! ## Agreement -/

/-- Two worlds have the same for a namespace: clusters that do, and the same entries. -/
structure AgreesOn (ns : String) (w w' : World) : Prop where
  cluster : w.cluster.AgreesOn ns w'.cluster
  entries : ∀ key, key.ns = ns → w'.registry.get? key = w.registry.get? key

theorem AgreesOn.refl (ns : String) (w : World) : w.AgreesOn ns w where
  cluster := ⟨rfl, rfl, rfl, fun _ _ => rfl, rfl, rfl⟩
  entries := fun _ _ => rfl

theorem AgreesOn.symm {ns : String} (h : w.AgreesOn ns w') : w'.AgreesOn ns w where
  cluster := {
    definitions := h.cluster.definitions.symm
    clusterStates := h.cluster.clusterStates.symm
    autoReady := h.cluster.autoReady.symm
    workloads := fun id hid => (h.cluster.workloads id hid).symm
    quotas := h.cluster.quotas.symm
    namespaceStates := h.cluster.namespaceStates.symm }
  entries := fun key hkey => (h.entries key hkey).symm

theorem AgreesOn.trans {ns : String} {w₁ w₂ w₃ : World} (h : w₁.AgreesOn ns w₂)
    (h' : w₂.AgreesOn ns w₃) : w₁.AgreesOn ns w₃ where
  cluster := {
    definitions := h'.cluster.definitions.trans h.cluster.definitions
    clusterStates := h'.cluster.clusterStates.trans h.cluster.clusterStates
    autoReady := h'.cluster.autoReady.trans h.cluster.autoReady
    workloads := fun id hid => (h'.cluster.workloads id hid).trans (h.cluster.workloads id hid)
    quotas := h'.cluster.quotas.trans h.cluster.quotas
    namespaceStates := h'.cluster.namespaceStates.trans h.cluster.namespaceStates }
  entries := fun key hkey => (h'.entries key hkey).trans (h.entries key hkey)

/-- Of worlds that have the same for a namespace the namespace shows the same. -/
theorem AgreesOn.within_eq {ns : String} (h : w.AgreesOn ns w') (hw : w.IsCalm) (hw' : w'.IsCalm) :
    w'.within (.ofNamespace w' ns) = w.within (.ofNamespace w ns) := by
  obtain ⟨⟨hd, hc, hr, hwl, hq, hn⟩, he⟩ := h
  have hinv : w'.cluster.inventory.within ns = w.cluster.inventory.within ns := by
    refine Inventory.ext_get? fun id => ?_
    rw [Inventory.get?_within, Inventory.get?_within]
    split
    · exact hwl id ‹_›
    · rfl
  have hreg : w'.registry.only (fun key => key.ns == ns) =
      w.registry.only fun key => key.ns == ns := by
    refine Table.ext_get? fun key => ?_
    rw [Table.get?_only, Table.get?_only]
    split
    · exact he key (beq_iff_eq.1 ‹_›)
    · rfl
  have hconf : w'.cluster.pendingConflicts = w.cluster.pendingConflicts :=
    hw'.conflicts.trans hw.conflicts.symm
  have hfaults : w'.faults = w.faults := hw'.faults.trans hw.faults.symm
  have hrules : w'.rules = w.rules := hw'.rules.trans hw.rules.symm
  unfold World.within Scope.ofNamespace Cluster.within
  simp only [hinv, hreg, hd, hc, hr, hq, hn, hconf, hfaults, hrules, List.drop_length]

/-- A key of which two worlds show the same has the same entry in them. -/
theorem entry_of_within_ofKey {w₀ w₀' : World} {key : Key}
    (h : w'.within (.ofKey w₀' key) = w.within (.ofKey w₀ key)) :
    w'.registry.get? key = w.registry.get? key := by
  have hreg := congrArg (fun v => v.registry.get? key) h
  have hself : (Scope.ofKey w₀ key).has key = true := beq_self_eq_true key
  have hself' : (Scope.ofKey w₀' key).has key = true := beq_self_eq_true key
  exact (Table.get?_only_of _ hself').symm.trans (hreg.trans (Table.get?_only_of _ hself))

end World

/-- Clusters of which a namespace shows the same have the same for it. -/
theorem Cluster.agreesOn_of_within {c c' : Cluster} {ns : String} {n n' : Nat}
    (h : c'.within ns n' = c.within ns n) : c.AgreesOn ns c' where
  definitions := show (c'.within ns n').definitions = (c.within ns n).definitions by rw [h]
  clusterStates := show (c'.within ns n').clusterStates = (c.within ns n).clusterStates by rw [h]
  autoReady := show (c'.within ns n').autoReady = (c.within ns n).autoReady by rw [h]
  workloads := fun id hid => by
    rw [← Cluster.get?_within hid, h, Cluster.get?_within hid]
  quotas := by
    have hquotas := congrArg (fun d => d.quotas.get? ns) h
    simpa [Cluster.within] using hquotas
  namespaceStates := by
    rw [← Cluster.statesOf_within, h, Cluster.statesOf_within]

end ReplicaControl
