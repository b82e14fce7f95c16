import ReplicaControl.Registry

/-!
# Marks of registry entries

* `Registry.isInFlight_insert`, … — which keys are marked as running after each operation.
* `Registry.claim_cases` — the three answers to a claim, each with its condition and its effect.
* `Registry.Filed` — every entry is stored under its own key; every operation keeps that.
-/

namespace ReplicaControl.Registry

/-! ## Which keys are marked as running -/

theorem isInFlight_eq_true {r : Registry} {key : Key} :
    r.isInFlight key = true ↔ ∃ e, r.get? key = some e ∧ e.scaling = true := by
  simp [isInFlight, Option.any_eq_true]

theorem isFailed_eq_true {r : Registry} {key : Key} :
    r.isFailed key = true ↔ ∃ e, r.get? key = some e ∧ e.failure = true := by
  simp [isFailed, Option.any_eq_true]

theorem isInFlight_of_get?_eq {r r' : Registry} {key : Key} (h : r'.get? key = r.get? key) :
    r'.isInFlight key = r.isInFlight key := by
  rw [isInFlight, h, isInFlight]

theorem isInFlight_insert (r : Registry) (key other : Key) (e : Workload) :
    isInFlight (r.insert key e) other = if other = key then e.scaling else r.isInFlight other := by
  rw [isInFlight, Table.get?_insert]
  split <;> rfl

theorem isInFlight_erase (r : Registry) (key other : Key) :
    isInFlight (r.erase key) other = if other = key then false else r.isInFlight other := by
  split
  · subst other
    rw [isInFlight, Table.get?_erase_self]
    rfl
  · exact isInFlight_of_get?_eq (r.get?_erase_of_ne ‹_›)

theorem isInFlight_retarget (r : Registry) (key other : Key) (desired : Int) :
    (r.retarget key desired).isInFlight other = r.isInFlight other := by
  rw [isInFlight, get?_retarget]
  split
  · subst other
    rw [isInFlight, Option.any_map]
  · rfl

theorem isFailed_retarget (r : Registry) (key other : Key) (desired : Int) :
    (r.retarget key desired).isFailed other = r.isFailed other := by
  rw [isFailed, get?_retarget]
  split
  · subst other
    rw [isFailed, Option.any_map]
  · rfl

theorem isInFlight_upsert (r : Registry) (w : Workload) (failure : Bool) (message : String)
    (desired : Int) (other : Key) :
    (r.upsert w failure message desired).isInFlight other =
      if other = w.key then w.scaling else r.isInFlight other :=
  r.isInFlight_insert w.key other _

theorem isInFlight_update (r : Registry) (key other : Key) (f : Workload → Workload) :
    (r.update key f).isInFlight other =
      if other = key then (r.get? key).any fun e => (f e).scaling else r.isInFlight other := by
  rw [isInFlight, get?_update]
  split
  · rw [Option.any_map]
  · rfl

/-! ## Claims -/

/-- The three answers to a claim. -/
theorem claim_cases (r : Registry) (w : Workload) (desired : Int) :
    (r.isInFlight w.key = true ∧ r.claim w desired = (.inFlight, r.retarget w.key desired)) ∨
    (r.isInFlight w.key = false ∧ r.isFailed w.key = true ∧
      r.claim w desired = (.failed, r.retarget w.key desired)) ∨
    (r.isInFlight w.key = false ∧ r.isFailed w.key = false ∧
      r.claim w desired = (.claimed, r.insert w.key (started w desired))) := by
  unfold claim isInFlight isFailed
  cases hg : r.get? w.key with
  | none => exact .inr (.inr ⟨rfl, rfl, rfl⟩)
  | some e =>
    cases hs : e.scaling with
    | true => exact .inl ⟨by simp [hs], by simp [hs]⟩
    | false =>
      cases hf : e.failure with
      | true => exact .inr (.inl ⟨by simp [hs], by simp [hf], by simp [hs, hf]⟩)
      | false => exact .inr (.inr ⟨by simp [hs], by simp [hf], by simp [hs, hf]⟩)

/-- No claim takes a mark away. -/
theorem isInFlight_claim {r : Registry} {key : Key} (w : Workload) (desired : Int)
    (h : r.isInFlight key = true) : (r.claim w desired).2.isInFlight key = true := by
  rcases r.claim_cases w desired with ⟨-, hc⟩ | ⟨-, -, hc⟩ | ⟨-, -, hc⟩
  · rw [hc, isInFlight_retarget, h]
  · rw [hc, isInFlight_retarget, h]
  · rw [hc, isInFlight_insert, h]
    split <;> rfl

/-! ## Entries under their own keys -/

/-- Every entry is stored under its own key. -/
def Filed (r : Registry) : Prop := ∀ key e, r.get? key = some e → e.key = key

theorem filed_empty : Filed ∅ := fun _ _ h => nomatch h

theorem Filed.insert {r : Registry} (h : r.Filed) {key : Key} {e : Workload} (he : e.key = key) :
    Filed (r.insert key e) := by
  intro other x hx
  rw [Table.get?_insert] at hx
  split at hx
  · cases hx
    subst other
    exact he
  · exact h other x hx

theorem Filed.erase {r : Registry} (h : r.Filed) (key : Key) : Filed (r.erase key) := by
  intro other x hx
  by_cases hk : other = key
  · subst hk
    simp at hx
  · rw [Table.get?_erase_of_ne _ hk] at hx
    exact h other x hx

theorem Filed.adjust {r : Registry} (h : r.Filed) (key : Key) {f : Workload → Workload}
    (hf : ∀ e, (f e).key = e.key) : Filed (r.adjust key f) := by
  intro other x hx
  rw [Table.get?_adjust] at hx
  split at hx
  · subst other
    obtain ⟨e, he, rfl⟩ := Option.map_eq_some_iff.1 hx
    rw [hf]
    exact h key e he
  · exact h other x hx

theorem Filed.update {r : Registry} (h : r.Filed) (key : Key) {f : Workload → Workload}
    (hf : ∀ e, (f e).key = e.key) : (r.update key f).Filed :=
  h.adjust key hf

theorem Filed.retarget {r : Registry} (h : r.Filed) (key : Key) (desired : Int) :
    (r.retarget key desired).Filed :=
  h.adjust key fun _ => rfl

theorem Filed.upsert {r : Registry} (h : r.Filed) (w : Workload) (failure : Bool)
    (message : String) (desired : Int) : (r.upsert w failure message desired).Filed :=
  h.insert rfl

theorem Filed.claim {r : Registry} (h : r.Filed) (w : Workload) (desired : Int) :
    (r.claim w desired).2.Filed := by
  rcases r.claim_cases w desired with ⟨-, hc⟩ | ⟨-, -, hc⟩ | ⟨-, -, hc⟩
  · rw [hc]
    exact h.retarget w.key desired
  · rw [hc]
    exact h.retarget w.key desired
  · rw [hc]
    exact h.insert rfl

theorem Filed.settle {r : Registry} (h : r.Filed) (key : Key) (reached : Int) :
    (r.settle key reached).2.Filed := by
  unfold Registry.settle
  split
  · split
    · exact h.erase key
    · exact h.adjust key fun _ => rfl
  · exact h

theorem Filed.release {r : Registry} (h : r.Filed) (key : Key) : (r.release key).Filed := by
  unfold Registry.release
  split
  · split
    · exact h.adjust key fun _ => rfl
    · exact h.erase key
  · exact h

end ReplicaControl.Registry
