import ReplicaControl.Proofs.RegistryTargets

/-!
# Calls on the registry

* `Registry.Call`, `apply`, `applyAll` — the calls that anyone can make, and the registry after a
  list of them.  Changes in place may be any function of the entry.
* `Call.intent?`, `latestIntent?` — the target that a call, or the last of a list of calls, intends
  for a key, whatever it is answered.
* `target?_of_apply`, `target?_of_applyAll` — one call, and any number of calls, leave the target of
  a key alone unless they intend one for it.
* `desired_eq_latestIntent` — an entry always has the target that was intended last for its key.
-/

namespace ReplicaControl.Registry

/-- A call on the registry. -/
inductive Call where
  | upsert (w : Workload) (failure : Bool) (message : String) (desired : Int)
  | update (key : Key) (f : Workload → Workload)
  | claim (w : Workload) (desired : Int)
  | settle (key : Key) (reached : Int)
  | release (key : Key)
  | remove (key : Key)
  /-- A question about entries, for one key or for all. -/
  | query

/-- The registry after a call. -/
def apply (r : Registry) : Call → Registry
  | .upsert w failure message desired => r.upsert w failure message desired
  | .update key f => r.update key f
  | .claim w desired => (r.claim w desired).2
  | .settle key reached => (r.settle key reached).2
  | .release key => r.release key
  | .remove key => r.erase key
  | .query => r

/-- The registry after a list of calls. -/
def applyAll (r : Registry) (calls : List Call) : Registry := calls.foldl apply r

theorem applyAll_concat (r : Registry) (calls : List Call) (c : Call) :
    r.applyAll (calls ++ [c]) = (r.applyAll calls).apply c :=
  List.foldl_append

/-! ## Intended targets -/

/-- The target that a call intends for a key. -/
def Call.intent? (key : Key) : Call → Option Int
  | .upsert w _ _ desired => if key = w.key then some desired else none
  | .claim w desired => if key = w.key then some desired else none
  | _ => none

/-- The target that the calls of a list intended last for a key. -/
def latestIntent? (key : Key) (calls : List Call) : Option Int :=
  calls.reverse.findSome? (·.intent? key)

theorem latestIntent?_concat (key : Key) (calls : List Call) (c : Call) :
    latestIntent? key (calls ++ [c]) = (c.intent? key).or (latestIntent? key calls) := by
  rw [latestIntent?, List.reverse_append, List.reverse_singleton, List.singleton_append,
    List.findSome?_cons]
  cases c.intent? key <;> rfl

/-- A claim sets the target of its key, whatever the answer. -/
theorem target?_claim (r : Registry) (w : Workload) (desired : Int) (key : Key) :
    (r.claim w desired).2.target? key = if key = w.key then some desired else r.target? key := by
  have hretarget : ∀ e, r.get? w.key = some e →
      (r.retarget w.key desired).target? key =
        if key = w.key then some desired else r.target? key := by
    intro e he
    rw [target?_retarget, target?, he]
    rfl
  rcases r.claim_cases w desired with ⟨hi, hc⟩ | ⟨-, hf, hc⟩ | ⟨-, -, hc⟩
  · obtain ⟨e, he, -⟩ := isInFlight_eq_true.1 hi
    rw [hc]
    exact hretarget e he
  · obtain ⟨e, he, -⟩ := isFailed_eq_true.1 hf
    rw [hc]
    exact hretarget e he
  · rw [hc]
    exact r.target?_insert w.key key _

/-- A target that is there after a call is the one that the call intends, or was there before. -/
theorem target?_of_apply {r : Registry} {c : Call} {key : Key} {n : Int}
    (h : (r.apply c).target? key = some n) : (c.intent? key).or (r.target? key) = some n := by
  cases c with
  | upsert w failure message desired =>
    rw [apply, target?_upsert] at h
    rw [Call.intent?, ← h]
    split <;> rfl
  | claim w desired =>
    rw [apply, target?_claim] at h
    rw [Call.intent?, ← h]
    split <;> rfl
  | update other f => exact (r.target?_update other key f).symm.trans h
  | settle other reached => exact target?_of_settle h
  | release other => exact target?_of_release h
  | remove other => exact target?_of_erase h
  | query => exact h

/-- After a call that intends a target for a key, the registry has it. -/
theorem target?_apply_of_intent {r : Registry} {c : Call} {key : Key} {n : Int}
    (h : c.intent? key = some n) : (r.apply c).target? key = some n := by
  cases c with
  | upsert w failure message desired =>
    rw [apply, target?_upsert]
    rw [Call.intent?] at h
    split at h
    · rw [if_pos ‹_›, h]
    · cases h
  | claim w desired =>
    rw [apply, target?_claim]
    rw [Call.intent?] at h
    split at h
    · rw [if_pos ‹_›, h]
    · cases h
  | update | settle | release | remove | query => cases h

/-- **A target that is there after any calls is the one that they intended last, or was there
before them if they intended none.** -/
theorem target?_of_applyAll {r : Registry} {calls : List Call} {key : Key} {n : Int}
    (h : (r.applyAll calls).target? key = some n) :
    (latestIntent? key calls).or (r.target? key) = some n := by
  induction calls using List.reverseRecOn generalizing n with
  | nil => exact h
  | append_singleton calls c ih =>
    rw [applyAll_concat] at h
    have hlast := target?_of_apply h
    rw [latestIntent?_concat, Option.or_assoc]
    cases hc : c.intent? key with
    | some d => rwa [hc] at hlast
    | none =>
      rw [hc] at hlast
      exact ih hlast

/-- **The registry stores the latest intent.**  After any calls from the empty registry on, an entry
has the target that was intended last for its key, by an upsert or by a claim with whatever answer;
and right after such a call the key has an entry. -/
theorem desired_eq_latestIntent (calls : List Call) (key : Key) :
    (∀ e, (applyAll ∅ calls).get? key = some e → latestIntent? key calls = some e.desired) ∧
      ∀ c n, c.intent? key = some n →
        ∃ e, (applyAll ∅ (calls ++ [c])).get? key = some e ∧ e.desired = n := by
  refine ⟨fun e he => ?_, fun c n hn => ?_⟩
  · have htarget : (applyAll ∅ calls).target? key = some e.desired := by
      rw [target?, he]
      rfl
    have hlatest := target?_of_applyAll htarget
    rwa [show target? ∅ key = none from rfl, Option.or_none] at hlatest
  · have htarget := target?_apply_of_intent (r := applyAll ∅ calls) hn
    rw [← applyAll_concat, target?] at htarget
    exact Option.map_eq_some_iff.1 htarget

/-- A refused claim after an update that tried to change the target, and an attempt that ends at the
older target: the entry keeps the target of the claim. -/
theorem desired_eq_latestIntent_refused_claim :
    let api : Workload := { key := ⟨"shop", "api"⟩, kind := .deployment, spec := 1 }
    let calls : List Call := [.claim api 3, .update api.key ({ · with desired := 9, spec := 5 }),
      .claim { api with spec := 2 } 7, .settle api.key 3]
    latestIntent? api.key calls = some 7 ∧
      ∃ e, (applyAll ∅ (calls ++ [.claim api 8])).get? api.key = some e ∧ e.desired = 8 := by
  intro api calls
  obtain ⟨e, he, hdesired⟩ : ∃ e, (applyAll ∅ calls).get? api.key = some e ∧ e.desired = 7 :=
    ⟨{ api with spec := 5, desired := 7 }, by decide +kernel, rfl⟩
  have h := desired_eq_latestIntent calls api.key
  exact ⟨hdesired ▸ h.1 e he, h.2 (.claim api 8) 8 (by decide +kernel)⟩

end ReplicaControl.Registry
