import ReplicaControl.Proofs.RegistryMarks
import ReplicaControl.World

/-!
# What requests leave alone

* `World.Asked` — requests were made: only the faults that are still to come may differ.
* `World.Booked` — besides, the registry and the events may differ.
* `World.Quiet` — requests were made, alarms were set and writes were refused: neither a workload,
  nor the record of writes, the registry or the events differ.
* `ask_ok` — a request that is not refused is answered by the cluster; `fetch_ok`, … for each one.
* `write_cases` — what a cluster makes of a write.
* `afterWrite_induction` — what every reaction to a write preserves, all of them preserve.
-/

namespace ReplicaControl

namespace World

/-- Requests were made, and nothing else happened. -/
def Asked (w w' : World) : Prop := ∃ faults, w' = { w with faults }

theorem Asked.refl (w : World) : w.Asked w := ⟨w.faults, rfl⟩

theorem Asked.trans {w₁ w₂ w₃ : World} (h : w₁.Asked w₂) (h' : w₂.Asked w₃) : w₁.Asked w₃ := by
  obtain ⟨f, rfl⟩ := h
  obtain ⟨f', rfl⟩ := h'
  exact ⟨f', rfl⟩

theorem Asked.cluster {w w' : World} (h : w.Asked w') : w'.cluster = w.cluster := by
  obtain ⟨f, rfl⟩ := h
  rfl

theorem Asked.registry {w w' : World} (h : w.Asked w') : w'.registry = w.registry := by
  obtain ⟨f, rfl⟩ := h
  rfl

/-- Requests were made, and the controller may have changed its registry and told events. -/
def Booked (w w' : World) : Prop :=
  ∃ faults registry events, w' = { w with faults, registry, events }

theorem Booked.refl (w : World) : w.Booked w := ⟨w.faults, w.registry, w.events, rfl⟩

theorem Booked.trans {w₁ w₂ w₃ : World} (h : w₁.Booked w₂) (h' : w₂.Booked w₃) : w₁.Booked w₃ := by
  obtain ⟨f, r, e, rfl⟩ := h
  obtain ⟨f', r', e', rfl⟩ := h'
  exact ⟨f', r', e', rfl⟩

theorem Booked.rules {w w' : World} (h : w.Booked w') : w'.rules = w.rules := by
  obtain ⟨f, r, e, rfl⟩ := h
  rfl

theorem Booked.now {w w' : World} (h : w.Booked w') : w'.now = w.now := by
  obtain ⟨f, r, e, rfl⟩ := h
  rfl

theorem Asked.booked {w w' : World} (h : w.Asked w') : w.Booked w' := by
  obtain ⟨f, rfl⟩ := h
  exact ⟨f, w.registry, w.events, rfl⟩

theorem registry_booked (w : World) (r : Registry) : w.Booked { w with registry := r } :=
  ⟨w.faults, r, w.events, rfl⟩

theorem emit_booked (w : World) (e : Event) : w.Booked (w.emit e) :=
  ⟨w.faults, w.registry, w.events ++ [e], rfl⟩

/-- Nothing was written, told or registered. -/
structure Quiet (w w' : World) : Prop where
  now : w'.now = w.now
  inventory : w'.cluster.inventory = w.cluster.inventory
  history : w'.cluster.history = w.cluster.history
  rules : w'.rules = w.rules
  registry : w'.registry = w.registry
  events : w'.events = w.events

theorem Quiet.refl (w : World) : w.Quiet w := ⟨rfl, rfl, rfl, rfl, rfl, rfl⟩

theorem Quiet.trans {w₁ w₂ w₃ : World} (h : w₁.Quiet w₂) (h' : w₂.Quiet w₃) : w₁.Quiet w₃ where
  now := h'.now.trans h.now
  inventory := h'.inventory.trans h.inventory
  history := h'.history.trans h.history
  rules := h'.rules.trans h.rules
  registry := h'.registry.trans h.registry
  events := h'.events.trans h.events

theorem Asked.quiet {w w' : World} (h : w.Asked w') : w.Quiet w' := by
  obtain ⟨f, rfl⟩ := h
  exact ⟨rfl, rfl, rfl, rfl, rfl, rfl⟩

theorem setAlarm_quiet (w : World) (due : Nat) : w.Quiet (w.setAlarm due).2 :=
  ⟨rfl, rfl, rfl, rfl, rfl, rfl⟩

theorem alarmAfter_quiet (w : World) (c : Clock) (d : Duration) : w.Quiet (w.alarmAfter c d).2 :=
  w.setAlarm_quiet _

/-! ## Requests -/

theorem intercept_asked (w : World) (r : Request) : w.Asked (w.intercept r).2 := ⟨_, rfl⟩

section Reading

variable {w : World}

theorem ask_asked {α : Type} (w : World) (r : Request) (refused : Fault → α)
    (answer : Cluster → α) : w.Asked (w.ask r refused answer).2 := by
  have h := w.intercept_asked r
  unfold ask
  split <;> rename_i hi <;> rw [hi] at h <;> exact h

/-- A request that is not refused is answered by the cluster. -/
theorem ask_ok {ε α : Type} {r : Request} {refused : Fault → ε} {answer : Cluster → Except ε α}
    {x : α} (h : (w.ask r (fun f => .error (refused f)) answer).1 = .ok x) :
    answer w.cluster = .ok x := by
  have ha := w.intercept_asked r
  unfold ask at h
  split at h
  · cases h
  · rename_i hi
    rw [hi] at ha
    rw [← ha.cluster]
    exact h

theorem fetch_asked (w : World) (id : WorkloadId) : w.Asked (w.fetch id).2 := w.ask_asked _ _ _

theorem fetch_ok {id : WorkloadId} {x : Workload} (h : (w.fetch id).1 = .ok x) :
    w.cluster.inventory.get? id = some x := by
  have hread : w.cluster.read id = .ok x := ask_ok h
  unfold Cluster.read at hread
  split at hread
  · cases hread; assumption
  · cases hread

theorem listWorkloads_asked (w : World) (k : Kind) (ns : String) (sel : Table String String) :
    w.Asked (w.listWorkloads k ns sel).2 := w.ask_asked _ _ _

theorem listWorkloads_ok {k : Kind} {ns : String} {sel : Table String String} {xs : List Workload}
    (h : (w.listWorkloads k ns sel).1 = .ok xs) : w.cluster.list k ns sel = xs :=
  Except.ok.inj (ask_ok h)

theorem fetchQuotas_asked (w : World) (ns : String) : w.Asked (w.fetchQuotas ns).2 :=
  w.ask_asked _ _ _

theorem fetchQuotas_ok {ns : String} {qs : List QuotaStatus}
    (h : (w.fetchQuotas ns).1 = .ok qs) : w.cluster.quotaStatus ns = qs :=
  Except.ok.inj (ask_ok h)

theorem fetchDefinitions_asked (w : World) : w.Asked w.fetchDefinitions.2 := w.ask_asked _ _ _

theorem fetchDefinitions_ok {ds : List State} (h : w.fetchDefinitions.1 = .ok ds) :
    w.cluster.definitions = ds :=
  Except.ok.inj (ask_ok h)

theorem fetchClusterStates_asked (w : World) : w.Asked w.fetchClusterStates.2 :=
  w.ask_asked _ _ _

theorem fetchClusterStates_ok {names : List String} (h : w.fetchClusterStates.1 = .ok names) :
    w.cluster.clusterStates = names :=
  Except.ok.inj (ask_ok h)

theorem fetchNamespaceStates_asked (w : World) (ns : String) :
    w.Asked (w.fetchNamespaceStates ns).2 := w.ask_asked _ _ _

theorem fetchNamespaceStates_ok {ns : String} {names : List String}
    (h : (w.fetchNamespaceStates ns).1 = .ok names) : w.cluster.statesOf ns = names :=
  Except.ok.inj (ask_ok h)

end Reading

theorem admission_asked (w : World) (ns : String) (need : Option ResourceList) :
    w.Asked (w.admission ns need).2 := by
  unfold admission
  split
  · exact .refl w
  · exact w.fetchQuotas_asked ns

/-- A need is let through only after the quotas were read. -/
theorem admission_allowed {w : World} {ns : String} {need : ResourceList}
    (h : (w.admission ns (some need)).1 = .ok .allowed) :
    (w.fetchQuotas ns).1 = .ok (w.cluster.quotaStatus ns) ∧
      Quota.judge need (w.cluster.quotaStatus ns) = .allowed := by
  simp only [admission, Quota.admission] at h
  cases hq : (w.fetchQuotas ns).1 with
  | error e => simp [hq, Except.map] at h
  | ok qs =>
    rw [hq] at h
    obtain rfl := fetchQuotas_ok hq
    exact ⟨rfl, by simpa [Except.map] using h⟩

/-! ## Writes -/

/-- What every reaction of the rules preserves, all that happens after a write preserves. -/
theorem afterWrite_induction_of_mem (P : World → Prop) {x : Workload} {w : World} (h : P w)
    (step : ∀ v, ∀ rule ∈ w.rules, ∀ r ∈ rule.reactions, P v → P (react x v r)) :
    P (w.afterWrite x) := by
  unfold afterWrite
  refine List.foldlRecOn _ _ h fun v hv r hr => ?_
  obtain ⟨rule, hrule, hr⟩ := List.mem_flatMap.1 hr
  exact step v rule (List.mem_filter.1 hrule).1 r hr hv

/-- What every reaction to a write preserves, all of them preserve. -/
theorem afterWrite_induction (P : World → Prop) {x : Workload} {w : World} (h : P w)
    (step : ∀ w r, P w → P (react x w r)) : P (w.afterWrite x) :=
  afterWrite_induction_of_mem P h fun v _ _ r _ => step v r

end World

namespace Cluster

theorem apply_history (c : Cluster) (d : Change) : (c.apply d).history = c.history := by
  cases d <;> rfl

/-- What a write comes to: it is refused, and at most a pending conflict is used up; or no conflict
is pending and the version is the stored one, which is raised or cannot be. -/
theorem write_cases (c : Cluster) (x : Workload) :
    (∃ e n, c.write x = (.refused e, { c with pendingConflicts := n })) ∨
    (∃ old, c.pendingConflicts = 0 ∧ c.inventory.get? x.id = some old ∧
      old.version = x.version ∧ old.version + 1 < versionBound ∧
      c.write x = (.stored { c.withCount old x.spec with version := old.version + 1 }, { c with
        inventory := c.inventory.put { c.withCount old x.spec with version := old.version + 1 }
        history := c.history ++ [(x.id, x.spec)] })) ∨
    ∃ old, c.pendingConflicts = 0 ∧ c.inventory.get? x.id = some old ∧
      old.version = x.version ∧ ¬ old.version + 1 < versionBound ∧
      c.write x =
        (.exhausted, { c with inventory := c.inventory.put (c.withCount old x.spec) }) := by
  unfold write
  split
  · exact .inl ⟨_, _, rfl⟩
  · rename_i hpending
    have hnone : c.pendingConflicts = 0 := Nat.eq_zero_of_not_pos hpending
    split
    · exact .inl ⟨_, c.pendingConflicts, rfl⟩
    · rename_i old hget
      split
      · exact .inl ⟨_, c.pendingConflicts, rfl⟩
      · rename_i hv
        have hv := Decidable.not_not.1 hv
        split
        · exact .inr (.inl ⟨old, hnone, hget, hv, ‹_›, rfl⟩)
        · exact .inr (.inr ⟨old, hnone, hget, hv, ‹_›, rfl⟩)

/-- A write is taken if no conflict is pending, the version is the stored one, and it can be
raised. -/
theorem write_stored {c c' : Cluster} {x new : Workload} (h : c.write x = (.stored new, c')) :
    ∃ old, c.inventory.get? x.id = some old ∧ old.version = x.version ∧
      new = { c.withCount old x.spec with version := old.version + 1 } ∧
      c' = { c with
        inventory := c.inventory.put new, history := c.history ++ [(x.id, x.spec)] } := by
  rcases c.write_cases x with
    ⟨e, n, heq⟩ | ⟨old, -, hget, hv, -, heq⟩ | ⟨old, -, -, -, -, heq⟩ <;> rw [heq] at h <;> cases h
  exact ⟨old, hget, hv, rfl, rfl⟩

/-- A workload that is read and written with another count is stored with that count. -/
theorem write_stored_of_get? {c c' : Cluster} {id : WorkloadId} {live new : Workload} {n : Int}
    (hget : c.inventory.get? id = some live)
    (h : c.write { live with spec := n } = (.stored new, c')) :
    new = { c.withCount live n with version := live.version + 1 } ∧ new.id = id ∧
      c' = { c with inventory := c.inventory.put new, history := c.history ++ [(id, n)] } := by
  have hid : live.id = id := Inventory.id_of_get? hget
  obtain ⟨old, hold, -, hnew, hc⟩ := write_stored h
  have hsame : ({ live with spec := n } : Workload).id = id := hid
  rw [hsame] at hold hc
  obtain rfl : live = old := Option.some.inj (hget.symm.trans hold)
  refine ⟨hnew, ?_, hc⟩
  rw [hnew]
  exact hid

theorem write_exhausted {c c' : Cluster} {x : Workload} (h : c.write x = (.exhausted, c')) :
    c'.history = c.history := by
  rcases c.write_cases x with
    ⟨e, n, heq⟩ | ⟨old, -, -, -, -, heq⟩ | ⟨old, -, -, -, -, heq⟩ <;> rw [heq] at h <;> cases h
  rfl

/-- A write concerns the workload that is written only. -/
theorem write_get?_of_ne {c c' : Cluster} {x : Workload} {r : WriteResult} {id : WorkloadId}
    (h : c.write x = (r, c')) (hid : id ≠ x.id) :
    c'.inventory.get? id = c.inventory.get? id := by
  have hput : ∀ old new : Workload, c.inventory.get? x.id = some old → new.id = old.id →
      (c.inventory.put new).get? id = c.inventory.get? id := by
    intro old new hold hnew
    rw [Inventory.get?_put, if_neg]
    rw [hnew, Inventory.id_of_get? hold]
    exact hid
  rcases c.write_cases x with
    ⟨e, n, heq⟩ | ⟨old, -, hold, -, -, heq⟩ | ⟨old, -, hold, -, -, heq⟩ <;>
    rw [heq] at h <;> cases h
  · rfl
  · exact hput old _ hold rfl
  · exact hput old _ hold rfl

/-- A write that is refused changes no workload and no record. -/
theorem write_refused {c c' : Cluster} {x : Workload} {e : AdapterError}
    (h : c.write x = (.refused e, c')) :
    c'.inventory = c.inventory ∧ c'.history = c.history := by
  rcases c.write_cases x with
    ⟨e, n, heq⟩ | ⟨old, -, -, -, -, heq⟩ | ⟨old, -, -, -, -, heq⟩ <;> rw [heq] at h <;> cases h
  exact ⟨rfl, rfl⟩

end Cluster

namespace World

theorem afterWrite_history (w : World) (x : Workload) :
    (w.afterWrite x).cluster.history = w.cluster.history := by
  refine afterWrite_induction (fun v => v.cluster.history = w.cluster.history) rfl ?_
  intro v r h
  cases r with
  | change d => exact (v.cluster.apply_history d).trans h
  | claimWritten d => exact h

theorem afterWrite_rules (w : World) (x : Workload) : (w.afterWrite x).rules = w.rules := by
  refine afterWrite_induction (fun v => v.rules = w.rules) rfl ?_
  intro v r h
  cases r with
  | change d => exact h
  | claimWritten d => exact h

theorem afterWrite_now (w : World) (x : Workload) : (w.afterWrite x).now = w.now := by
  refine afterWrite_induction (fun v => v.now = w.now) rfl ?_
  intro v r h
  cases r with
  | change d => exact h
  | claimWritten d => exact h

/-- Reactions to a write concern the registry's entry of the written workload only. -/
theorem afterWrite_get?_of_ne (w : World) (x : Workload) {key : Key} (h : key ≠ x.key) :
    (w.afterWrite x).registry.get? key = w.registry.get? key := by
  refine afterWrite_induction (fun v => v.registry.get? key = w.registry.get? key) rfl ?_
  intro v r hv
  cases r with
  | change d => exact hv
  | claimWritten d => exact (v.registry.get?_claim_of_ne x d h).trans hv

theorem afterWrite_isInFlight {w : World} {key : Key} (x : Workload)
    (h : w.registry.isInFlight key = true) :
    (w.afterWrite x).registry.isInFlight key = true := by
  refine afterWrite_induction (fun v => v.registry.isInFlight key = true) h ?_
  intro v r hv
  cases r with
  | change d => exact hv
  | claimWritten d => exact Registry.isInFlight_claim x d hv

theorem afterWrite_filed {w : World} (x : Workload) (h : w.registry.Filed) :
    (w.afterWrite x).registry.Filed := by
  refine afterWrite_induction (fun v => v.registry.Filed) h ?_
  intro v r hv
  cases r with
  | change d => exact hv
  | claimWritten d => exact hv.claim x d

/-- What a write through an adapter comes to. -/
theorem storeThrough_cases (w : World) (kind : Kind) (x : Workload) :
    (∃ w₁ new c, w.Asked w₁ ∧ w.cluster.write x = (.stored new, c) ∧
      w.storeThrough kind x = (.stored new, { w₁ with cluster := c }.afterWrite new)) ∨
    (∃ e w₁, w.Quiet w₁ ∧ w.storeThrough kind x = (.refused e, w₁)) ∨
    (∃ w₁ c, w.Asked w₁ ∧ w.cluster.write x = (.exhausted, c) ∧
      w.storeThrough kind x = (.exhausted, { w₁ with cluster := c })) := by
  have ha := w.intercept_asked .update
  unfold storeThrough
  split
  · rename_i f w₁ hi
    rw [hi] at ha
    exact .inr (.inl ⟨_, _, ha.quiet, rfl⟩)
  · rename_i w₁ hi
    rw [hi] at ha
    obtain ⟨faults, rfl⟩ := ha
    split
    · split
      · rename_i new c hw
        exact .inl ⟨_, new, c, ⟨faults, rfl⟩, hw, rfl⟩
      · rename_i r c hr hw
        cases r with
        | stored new => exact absurd rfl (hr new)
        | refused e =>
          obtain ⟨hinv, hhist⟩ := Cluster.write_refused hw
          exact .inr (.inl ⟨e, { w with faults, cluster := c },
            ⟨rfl, hinv, hhist, rfl, rfl, rfl⟩, rfl⟩)
        | exhausted => exact .inr (.inr ⟨_, c, ⟨faults, rfl⟩, hw, rfl⟩)
    · exact .inr (.inl ⟨_, _, Asked.quiet ⟨faults, rfl⟩, rfl⟩)

/-- What a write comes to. -/
theorem store_cases (w : World) (x : Workload) :
    (∃ w₁ new c, w.Asked w₁ ∧ w.cluster.write x = (.stored new, c) ∧
      w.store x = (.stored new, { w₁ with cluster := c }.afterWrite new)) ∨
    (∃ e w₁, w.Quiet w₁ ∧ w.store x = (.refused e, w₁)) ∨
    (∃ w₁ c, w.Asked w₁ ∧ w.cluster.write x = (.exhausted, c) ∧
      w.store x = (.exhausted, { w₁ with cluster := c })) :=
  w.storeThrough_cases x.kind x

end World

end ReplicaControl
