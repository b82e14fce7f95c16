import ReplicaControl.Proofs.AttemptStep
import ReplicaControl.Proofs.Plan

/-!
# Targets of registry entries

* `Registry.target?` — the target that the registry holds for a key, and what each operation makes
  of it (`target?_insert`, `target?_update`, …).  Only claims and upserts write targets.
* `Attempt.desired_eq` — the target in force for an attempt is the registry's, else its own.
* `Plan.target?` — a target that is in the registry after a plan was there before, or was computed
  for a workload of the key.
* `Attempt.step_target?` — a target that is there after a step was there before, or is the one that
  the attempt was launched for, unless someone claims in reaction to a write.
-/

namespace ReplicaControl

namespace Registry

/-- The target that the registry holds for a key. -/
def target? (r : Registry) (key : Key) : Option Int := (r.get? key).map (·.desired)

theorem target?_insert (r : Registry) (key other : Key) (e : Workload) :
    target? (r.insert key e) other = if other = key then some e.desired else r.target? other := by
  rw [target?, Table.get?_insert]
  split <;> rfl

theorem target?_erase (r : Registry) (key other : Key) :
    target? (r.erase key) other = if other = key then none else r.target? other := by
  split
  · subst other
    rw [target?, Table.get?_erase_self]
    rfl
  · rw [target?, Table.get?_erase_of_ne _ ‹_›]
    rfl

/-- Changes in place that keep the target of an entry keep all targets. -/
theorem target?_adjust (r : Registry) (key other : Key) {f : Workload → Workload}
    (hf : ∀ e, (f e).desired = e.desired) : target? (r.adjust key f) other = r.target? other := by
  rw [target?, Table.get?_adjust]
  split
  · subst other
    rw [Option.map_map, target?]
    exact congrArg (Option.map · _) (funext hf)
  · rfl

theorem target?_update (r : Registry) (key other : Key) (f : Workload → Workload) :
    (r.update key f).target? other = r.target? other :=
  r.target?_adjust key other fun _ => rfl

theorem target?_retarget (r : Registry) (key other : Key) (desired : Int) :
    (r.retarget key desired).target? other =
      if other = key then (r.target? key).map fun _ => desired else r.target? other := by
  rw [target?, get?_retarget]
  split
  · rw [target?, Option.map_map, Option.map_map]
    rfl
  · rfl

theorem target?_upsert (r : Registry) (w : Workload) (failure : Bool) (message : String)
    (desired : Int) (other : Key) :
    (r.upsert w failure message desired).target? other =
      if other = w.key then some desired else r.target? other :=
  r.target?_insert w.key other _

/-- A target that is still there after an entry was dropped was there before. -/
theorem target?_of_erase {r : Registry} {key other : Key} {n : Int}
    (h : target? (r.erase key) other = some n) : r.target? other = some n := by
  rw [target?_erase] at h
  split at h
  · cases h
  · exact h

theorem target?_of_settle {r : Registry} {key other : Key} {reached n : Int}
    (h : (r.settle key reached).2.target? other = some n) : r.target? other = some n := by
  unfold settle at h
  split at h
  · split at h
    · exact target?_of_erase h
    · refine (r.target?_adjust key other ?_).symm.trans h
      exact fun _ => rfl
  · exact h

theorem target?_of_release {r : Registry} {key other : Key} {n : Int}
    (h : (r.release key).target? other = some n) : r.target? other = some n := by
  unfold release at h
  split at h
  · split at h
    · refine (r.target?_adjust key other ?_).symm.trans h
      exact fun _ => rfl
    · exact target?_of_erase h
  · exact h

end Registry

/-! ## Plans -/

/-- **A target that is in the registry after a plan was there before, or was computed for a workload
of the key.** -/
theorem Plan.target? {P : Workload → Target → Prop} {r r' : Registry} {launches : List Launch}
    (h : Plan P r launches r') {key : Key} {n : Int} (hn : r'.target? key = some n) :
    r.target? key = some n ∨ ∃ x target, P x target ∧ x.key = key ∧ target.replicas = n := by
  induction h with
  | done r => exact .inl hn
  | @revise _ _ item target _ hp _ _ ih =>
    rcases ih hn with h | h
    · rw [Registry.target?_retarget] at h
      split at h
      · subst key
        obtain ⟨-, -, rfl⟩ := Option.map_eq_some_iff.1 h
        exact .inr ⟨item, target, hp, rfl, rfl⟩
      · exact .inl h
    · exact .inr h
  | @claim _ _ item target _ hp _ _ _ _ ih =>
    rcases ih hn with h | h
    · rw [Registry.target?_insert] at h
      split at h
      · subst key
        exact .inr ⟨item, target, hp, rfl, Option.some.inj h⟩
      · exact .inl h
    · exact .inr h
  | @retry _ _ entry live target _ hp _ _ _ hid _ ih =>
    rcases ih hn with h | h
    · rw [Registry.target?_upsert] at h
      split at h
      · subst key
        exact .inr ⟨live, target, hp, congrArg WorkloadId.key hid, Option.some.inj h⟩
      · exact .inl h
    · exact .inr h
  | note _ _ _ _ ih =>
    rcases ih hn with h | h
    · rw [Registry.target?_update] at h
      exact .inl h
    · exact .inr h
  | drop _ _ _ _ ih =>
    rcases ih hn with h | h
    · exact .inl (Registry.target?_of_erase h)
    · exact .inr h

/-- What a plan launches was computed for the workload, which has the count that the attempt starts
from. -/
theorem Plan.launched {P : Workload → Target → Prop} {r r' : Registry} {launches : List Launch}
    (h : Plan P r launches r') {l : Launch} (hl : l ∈ launches) :
    ∃ x, P x l.2 ∧ x.id = l.1.id ∧ x.spec = l.1.spec := by
  induction h with
  | done r => cases hl
  | revise _ _ _ ih => exact ih hl
  | claim hp _ _ _ _ ih =>
    rcases List.mem_cons.1 hl with rfl | hl
    · exact ⟨_, hp, rfl, rfl⟩
    · exact ih hl
  | retry hp _ _ _ _ _ ih =>
    rcases List.mem_cons.1 hl with rfl | hl
    · exact ⟨_, hp, rfl, rfl⟩
    · exact ih hl
  | note _ _ _ _ ih => exact ih hl
  | drop _ _ _ _ ih => exact ih hl

/-! ## Attempts -/

/-- No reaction to a write claims anything. -/
def World.IsPlain (w : World) : Prop :=
  ∀ rule ∈ w.rules, ∀ reaction ∈ rule.reactions, ∃ c, reaction = .change c

theorem World.IsPlain.of_rules {w w' : World} (h : w.IsPlain) (hr : w'.rules = w.rules) :
    w'.IsPlain := by
  unfold World.IsPlain
  rw [hr]
  exact h

/-- Where no reaction claims anything, writes leave the registry alone. -/
theorem World.IsPlain.afterWrite {w : World} (h : w.IsPlain) (x : Workload) :
    (w.afterWrite x).registry = w.registry := by
  refine World.afterWrite_induction_of_mem (fun v => v.registry = w.registry) rfl ?_
  intro v rule hrule r hr hv
  obtain ⟨c, rfl⟩ := h rule hrule r hr
  exact hv

theorem World.IsPlain.stored {w w₁ : World} (h : w.IsPlain) (ha : w.Asked w₁) (c : Cluster)
    (x : Workload) : ({ w₁ with cluster := c }.afterWrite x).registry = w.registry := by
  obtain ⟨faults, rfl⟩ := ha
  exact IsPlain.afterWrite (w := { w with faults, cluster := c }) h x

namespace Attempt

/-- The target in force is the one in the registry, else the one of the attempt. -/
theorem desired_eq (a : Attempt) (r : Registry) :
    a.desired r = (r.target? a.key).getD a.target.replicas := by
  unfold desired Registry.target?
  cases r.get? a.key <;> rfl

theorem desired_eq_of_target? {a : Attempt} {r r' : Registry}
    (h : r'.target? a.key = r.target? a.key) : a.desired r' = a.desired r := by
  rw [desired_eq, h, desired_eq]

/-- The first step keeps the target in force. -/
theorem desired_marked (a : Attempt) (r : Registry) : a.desired (a.marked r) = a.desired r := by
  unfold marked
  split
  · exact desired_eq_of_target? (r.target?_update a.key a.key _)
  · rename_i hc
    have hnone : r.get? a.key = none := by simpa using hc
    rw [desired_eq, Registry.target?_upsert, if_pos (show a.key = a.item.key from rfl), desired_eq,
      Registry.target?, hnone]
    rfl

theorem target?_of_marked {a : Attempt} {r : Registry} {key : Key} {n : Int}
    (h : (a.marked r).target? key = some n) :
    r.target? key = some n ∨ (key = a.key ∧ n = a.target.replicas) := by
  unfold marked at h
  split at h
  · rw [Registry.target?_update] at h
    exact .inl h
  · rw [Registry.target?_upsert] at h
    split at h
    · exact .inr ⟨‹_›, (Option.some.inj h).symm⟩
    · exact .inl h

theorem target?_of_recorded {a : Attempt} {r : Registry} {e : Ending} {key : Key} {n : Int}
    (h : (a.recorded r e).target? key = some n) :
    r.target? key = some n ∨ (key = a.key ∧ n = a.target.replicas) := by
  cases e with
  | done o =>
    cases o with
    | unchanged => exact .inl (Registry.target?_of_settle h)
    | scaled n => exact .inl (Registry.target?_of_settle h)
    | quotaDenied => exact .inl (Registry.target?_of_release h)
    | removed => exact .inl (Registry.target?_of_erase h)
  | failed e =>
    simp only [recorded] at h
    split at h
    · rw [Registry.target?_update] at h
      exact .inl h
    · rw [Registry.target?_upsert] at h
      split at h
      · exact .inr ⟨‹_›, (Option.some.inj h).symm⟩
      · exact .inl h

/-- A target that is there after a step was there before, or is the one of the attempt, unless a
reaction to a write claims something. -/
theorem step_target? (s : Settings) (a : Attempt) {w : World}
    (hw : w.IsPlain ∨ (a.step s w).2.cluster.history = w.cluster.history) {key : Key} {n : Int}
    (h : (a.step s w).2.registry.target? key = some n) :
    w.registry.target? key = some n ∨ (key = a.key ∧ n = a.target.replicas) := by
  have hc := a.step_case s w
  generalize a.step s w = r at hc h hw
  cases hc with
  | idle => exact .inl h
  | content => exact .inl h
  | begun => exact target?_of_marked h
  | unreachable =>
    rw [fail, conclude_registry] at h
    rcases target?_of_recorded h with h | h
    · exact target?_of_marked h
    · exact .inr h
  | decided => exact .inl ((Registry.target?_update _ _ _ _).symm.trans h)
  | arrived =>
    rw [conclude_registry] at h
    rcases target?_of_recorded h with h | h
    · exact .inl ((Registry.target?_update _ _ _ _).symm.trans h)
    · exact .inr h
  | polled _ _ _ ha => rw [ha.registry] at h; exact .inl h
  | slept _ _ hq => rw [hq.registry] at h; exact .inl h
  | stored _ hget _ _ hwrite ha =>
    rcases hw with hplain | hsame
    · rw [hplain.stored ha] at h
      exact .inl h
    · rw [World.afterWrite_history, (Cluster.write_stored_of_get? hget hwrite).2.2] at hsame
      simp at hsame
  | retried _ hq => rw [hq.registry] at h; exact .inl h
  | exhausted _ _ _ ha => exact .inl (ha.registry ▸ h)
  | gone _ hq =>
    rw [conclude_registry, hq.registry] at h
    exact target?_of_recorded h
  | denied _ hq =>
    rw [conclude_registry, show (a.tell _ _).registry = w.registry from hq.registry] at h
    exact target?_of_recorded h
  | failed _ hq =>
    rw [fail, conclude_registry, hq.registry] at h
    exact target?_of_recorded h

end Attempt

end ReplicaControl
