import ReplicaControl.Proofs.RegistryCalls
import ReplicaControl.Proofs.Runs

/-!
# Exclusive claims

* `Call.GivesBack` — the calls after which the attempt of a key may no longer be the claimant's.
  `isInFlight_apply`: all others leave a running attempt its mark.
* `Registry.IsParked`, `Call.Unparks` — a failure that waits for the sweep, and the calls that may
  end the wait.  `IsParked.apply`: all others keep it.
* `claim_exclusive` — who gets a claim, and what every other claim is answered until it is given
  back.
-/

namespace ReplicaControl.Registry

/-- A call ends the attempt of a key, replaces its entry, or changes in place whether the entry is
marked as running. -/
def Call.GivesBack (key : Key) (r : Registry) : Call → Prop
  | .upsert w _ _ _ => key = w.key
  | .update other f => key = other ∧ ∃ e, r.get? key = some e ∧ (f e).scaling ≠ e.scaling
  | .claim .. => False
  | .settle other _ => key = other
  | .release other => key = other
  | .remove other => key = other
  | .query => False

/-- A call replaces or drops the entry of a key, settles it, or changes it in place. -/
def Call.Unparks (key : Key) : Call → Prop
  | .upsert w _ _ _ => key = w.key
  | .update other _ => key = other
  | .claim .. => False
  | .settle other _ => key = other
  | .release _ => False
  | .remove other => key = other
  | .query => False

/-- The last attempt of a key failed, and none is running. -/
def IsParked (r : Registry) (key : Key) : Prop :=
  r.isInFlight key = false ∧ r.isFailed key = true

theorem isParked_iff {r : Registry} {key : Key} :
    r.IsParked key ↔ ∃ e, r.get? key = some e ∧ e.failure = true ∧ e.scaling = false := by
  unfold IsParked isInFlight isFailed
  cases r.get? key with
  | none => simp
  | some e => simp [and_comm]

theorem IsParked.of_get?_eq {r r' : Registry} {key : Key} (h : r.IsParked key)
    (he : r'.get? key = r.get? key) : r'.IsParked key := by
  rw [IsParked, isInFlight, isFailed, he]
  exact h

/-! ## Answers -/

/-- A claim is granted exactly if no attempt is running for the key and none has failed. -/
theorem claim_eq_claimed_iff (r : Registry) (w : Workload) (desired : Int) :
    (r.claim w desired).1 = .claimed ↔ r.isInFlight w.key = false ∧ r.isFailed w.key = false := by
  rcases r.claim_cases w desired with ⟨hi, hc⟩ | ⟨-, hf, hc⟩ | ⟨hi, hf, hc⟩
  · simp [hc, hi]
  · simp [hc, hf]
  · simp [hc, hi, hf]

/-- A claim during an attempt only revises its target. -/
theorem claim_of_isInFlight {r : Registry} {w : Workload} (h : r.isInFlight w.key = true)
    (desired : Int) : r.claim w desired = (.inFlight, r.retarget w.key desired) := by
  rcases r.claim_cases w desired with ⟨-, hc⟩ | ⟨hi, -⟩ | ⟨hi, -⟩
  · exact hc
  · exact absurd (hi.symm.trans h) Bool.false_ne_true
  · exact absurd (hi.symm.trans h) Bool.false_ne_true

/-- A claim of a parked failure only revises its target. -/
theorem claim_of_isParked {r : Registry} {w : Workload} (h : r.IsParked w.key) (desired : Int) :
    r.claim w desired = (.failed, r.retarget w.key desired) := by
  rcases r.claim_cases w desired with ⟨hi, -⟩ | ⟨-, -, hc⟩ | ⟨-, hf, -⟩
  · exact absurd (h.1.symm.trans hi) Bool.false_ne_true
  · exact hc
  · exact absurd (hf.symm.trans h.2) Bool.false_ne_true

/-! ## One call -/

/-- A running attempt keeps its mark in every call that does not give it back. -/
theorem isInFlight_apply {r : Registry} {c : Call} {key : Key} (h : r.isInFlight key = true)
    (hc : ¬ c.GivesBack key r) : (r.apply c).isInFlight key = true := by
  cases c with
  | upsert w failure message desired =>
    exact ((r.isInFlight_upsert w failure message desired key).trans (if_neg hc)).trans h
  | update other f =>
    rw [apply, isInFlight_update]
    split
    · obtain ⟨e, he, hscaling⟩ := isInFlight_eq_true.1 h
      have hkept : (f e).scaling = e.scaling :=
        Decidable.not_not.1 fun hne => hc ⟨‹_›, e, he, hne⟩
      subst other
      rw [he, Option.any_some, hkept]
      exact hscaling
    · exact h
  | claim w desired => exact isInFlight_claim w desired h
  | settle other reached => exact (isInFlight_of_get?_eq (r.get?_settle_of_ne reached hc)).trans h
  | release other => exact (isInFlight_of_get?_eq (r.get?_release_of_ne hc)).trans h
  | remove other => exact ((r.isInFlight_erase other key).trans (if_neg hc)).trans h
  | query => exact h

/-- A failure stays parked in every call that does not unpark it. -/
theorem IsParked.apply {r : Registry} {c : Call} {key : Key} (h : r.IsParked key)
    (hc : ¬ c.Unparks key) : (r.apply c).IsParked key := by
  cases c with
  | upsert w failure message desired =>
    exact h.of_get?_eq ((r.get?_upsert w failure message desired key).trans (if_neg hc))
  | update other f => exact h.of_get?_eq ((r.get?_update other key f).trans (if_neg hc))
  | claim w desired =>
    by_cases hk : key = w.key
    · subst hk
      rw [Registry.apply, claim_of_isParked h desired, IsParked, isInFlight_retarget,
        isFailed_retarget]
      exact h
    · exact h.of_get?_eq (r.get?_claim_of_ne w desired hk)
  | settle other reached => exact h.of_get?_eq (r.get?_settle_of_ne reached hc)
  | release other =>
    by_cases hk : key = other
    · subst hk
      obtain ⟨e, he, hf, -⟩ := isParked_iff.1 h
      refine isParked_iff.2 ⟨{ e with scaling := false }, ?_, hf, rfl⟩
      simp only [Registry.apply, release, he, if_pos hf, Table.get?_adjust, Option.map_some,
        if_true]
    · exact h.of_get?_eq (r.get?_release_of_ne hk)
  | remove other => exact h.of_get?_eq (r.get?_erase_of_ne hc)
  | query => exact h

/-! ## Exclusive claims -/

/-- **A claim is exclusive until it is given back.**  In any registry, whatever calls it comes from,
a claim is granted exactly if the key has no entry or one that is neither running nor failed, and
then the entry is the claimed workload, running and without failure.  From then on, up to the first
call that gives the claim back, every further claim of the key is refused as being in flight, and
changes nothing but the target.  Claims of a parked failure are refused as failed, and it stays
parked, up to the first call that may unpark it. -/
theorem claim_exclusive (r : Registry) (w : Workload) (desired : Int) :
    ((r.claim w desired).1 = .claimed ↔
      ∀ e, r.get? w.key = some e → e.scaling = false ∧ e.failure = false) ∧
    ((r.claim w desired).1 = .claimed →
      (r.claim w desired).2.get? w.key =
          some { w with failure := false, failureMessage := "", scaling := true, desired } ∧
        ∀ calls, AtEach apply (fun r c => ¬ c.GivesBack w.key r) (r.claim w desired).2 calls →
          ∀ w' desired', w'.key = w.key →
            let later := (r.claim w desired).2.applyAll calls
            (later.claim w' desired').1 = .inFlight ∧
              ∀ key, (later.claim w' desired').2.get? key =
                if key = w.key then (later.get? key).map ({ · with desired := desired' })
                else later.get? key) ∧
    ∀ e, r.get? w.key = some e → e.failure = true → e.scaling = false →
      ∀ calls, (∀ c ∈ calls, ¬ c.Unparks w.key) →
        ((r.applyAll calls).claim w desired).1 = .failed ∧
          ∃ e', (r.applyAll calls).get? w.key = some e' ∧ e'.failure = true ∧
            e'.scaling = false := by
  refine ⟨?_, fun hclaimed => ⟨get?_claim_of_claimed hclaimed, ?_⟩, ?_⟩
  · rw [claim_eq_claimed_iff, isInFlight, isFailed]
    cases r.get? w.key <;> simp
  · intro calls hcalls w' desired' hkey later
    have hstart : (r.claim w desired).2.isInFlight w.key = true :=
      isInFlight_eq_true.2 ⟨_, get?_claim_of_claimed hclaimed, rfl⟩
    have hlater : later.isInFlight w'.key = true := by
      rw [hkey]
      exact hcalls.invariant (I := (isInFlight · w.key = true)) (fun _ _ => isInFlight_apply) hstart
    rw [claim_of_isInFlight hlater]
    refine ⟨rfl, fun key => ?_⟩
    rw [get?_retarget, hkey]
    split
    · subst key
      rfl
    · rfl
  · intro e he hf hs calls hcalls
    have hparked : (r.applyAll calls).IsParked w.key :=
      (AtEach.of_forall_mem fun c hc _ => hcalls c hc).invariant (I := (IsParked · w.key))
        (fun _ _ => IsParked.apply) (isParked_iff.2 ⟨e, he, hf, hs⟩)
    exact ⟨by rw [claim_of_isParked hparked], isParked_iff.1 hparked⟩

/-- A second claim of a key whose first claim still runs: in between the entry is changed twice, and
another key is registered with a failure and released.  The second claim is refused; and a failure
stays parked while it is released and claimed. -/
theorem claim_exclusive_second_attempt :
    let api : Workload := { key := ⟨"shop", "api"⟩, kind := .deployment, spec := 1 }
    let web : Workload := { key := ⟨"shop", "web"⟩, kind := .deployment, spec := 2 }
    let granted := (claim ∅ api 3).2
    let between : List Call := [.update api.key ({ · with ready := 1 }), .upsert web true "late" 4,
      .release web.key, .update api.key ({ · with ready := 3, spec := 3 }), .query]
    let failed := granted.upsert web true "late" 4
    (claim ∅ api 3).1 = .claimed ∧
      ((granted.applyAll between).claim { api with spec := 3 } 5).1 = .inFlight ∧
      ((failed.applyAll [.release web.key, .claim web 6, .query]).claim web 7).1 = .failed := by
  intro api web granted between failed
  have hclaimed : (claim ∅ api 3).1 = .claimed :=
    (claim_exclusive ∅ api 3).1.2 fun e he => nomatch he
  have hkept : AtEach apply (fun r c => ¬ c.GivesBack api.key r) granted between := by
    have hkey : api.key ≠ web.key := by decide
    exact ⟨fun ⟨_, _, _, hne⟩ => hne rfl, hkey, hkey, fun ⟨_, _, _, hne⟩ => hne rfl, id, trivial⟩
  refine ⟨hclaimed, ?_, ?_⟩
  · exact (((claim_exclusive ∅ api 3).2.1 hclaimed).2 between hkept { api with spec := 3 } 5 rfl).1
  · have hfailed : failed.get? web.key =
        some { web with failure := true, failureMessage := "late", desired := 4 } := by
      decide +kernel
    refine ((claim_exclusive failed web 7).2.2 _ hfailed rfl rfl _ ?_).1
    simp [Call.Unparks]

end ReplicaControl.Registry
