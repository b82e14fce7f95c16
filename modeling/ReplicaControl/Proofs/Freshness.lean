import ReplicaControl.Proofs.RegistryTargets
import ReplicaControl.Proofs.Sample

/-!
# What counts are computed from

An attempt computes a count from the target in force when it decides and, in step mode, from the
stored count when it finds its workload ready.  Other turns come between that and the write.

* `Mode.nextCount` — the count that comes next after a stored count, on the way to a target.
* `Basis`, `Scene.basis` — what an attempt last computed a count from, as its turns show it.
* `Attempt.Follows`, `Attempt.Fresh` — what an attempt is about to write was computed from its
  basis; and before the first try nothing of the basis is out of date.
* `current_iff_basis` — a count that is written is the one that the target in force and the stored
  count call for if and only if they call for the same as the basis.
-/

namespace ReplicaControl

/-- The count that comes next after a stored count; in step mode there is none at the target. -/
def Mode.nextCount (mode : Mode) (stored desired : Int) : Option Int :=
  match mode with
  | .rapid => some desired
  | .step => if stored = desired then none else some (oneToward stored desired)

theorem Mode.nextCount_eq_some_iff {mode : Mode} {stored desired n : Int} :
    mode.nextCount stored desired = some n ↔
      (mode = .rapid ∧ desired = n) ∨
        (mode = .step ∧ stored ≠ desired ∧ oneToward stored desired = n) := by
  cases mode <;> simp [nextCount]

/-- What an attempt computes a count from. -/
structure Basis where
  /-- The target in force when it last decided. -/
  desired : Int := 0
  /-- The stored count when it last had its turn in a wait. -/
  stored : Int := 0

namespace Attempt

variable {s : Settings} {a : Attempt} {w : World} {b : Basis}

/-- The basis after the attempt took a step. -/
def basisAfter (a : Attempt) (w : World) (b : Basis) : Basis :=
  match a.phase with
  | .deciding => { b with desired := a.desired w.registry }
  | .polling _ | .waiting .. =>
    { b with stored := ((w.cluster.inventory.get? a.item.id).map (·.spec)).getD b.stored }
  | _ => b

/-- Waits are for the target of the basis, and counts were computed from it. -/
structure Follows (mode : Mode) (a : Attempt) (b : Basis) : Prop where
  waits : ∀ wait, (a.phase = .polling wait ∨ ∃ wake, a.phase = .waiting wait wake) →
    mode = .step ∧ wait.desired = b.desired
  counts : ∀ n k, (a.phase = .writing n k ∨ ∃ wake, a.phase = .backingOff n k wake) →
    mode.nextCount b.stored b.desired = some n

/-- In rapid mode the target of the basis is in force, in step mode its count is stored. -/
def Fresh (mode : Mode) (a : Attempt) (w : World) (b : Basis) : Prop :=
  match mode with
  | .rapid => b.desired = a.desired w.registry
  | .step => ∃ live, w.cluster.inventory.get? a.item.id = some live ∧ b.stored = live.spec

theorem Follows.of_polls {mode : Mode} {wait : Wait} (h : a.Follows mode b)
    (hp : a.Polls w wait) : mode = .step ∧ wait.desired = b.desired := by
  rcases hp with hp | ⟨wake, hp, -⟩
  · exact h.waits wait (.inl hp)
  · exact h.waits wait (.inr ⟨wake, hp⟩)

theorem Follows.of_tries {mode : Mode} {n : Int} {k : Nat} (h : a.Follows mode b)
    (hp : a.Tries w n k) : mode.nextCount b.stored b.desired = some n := by
  rcases hp with hp | ⟨wake, hp, -⟩
  · exact h.counts n k (.inl hp)
  · exact h.counts n k (.inr ⟨wake, hp⟩)

theorem follows_of_not_underway {mode : Mode} (h : ¬ a.IsUnderway) : a.Follows mode b where
  waits := fun wait hp => absurd (.inl ⟨wait, hp⟩) h
  counts := fun n k hp => absurd (.inr ⟨n, k, hp⟩) h

theorem basisAfter_of_polls {wait : Wait} {live : Workload} (hp : a.Polls w wait)
    (hget : w.cluster.inventory.get? a.item.id = some live) :
    a.basisAfter w b = { b with stored := live.spec } := by
  rcases hp with hp | ⟨wake, hp, -⟩ <;> simp [basisAfter, hp, hget]

theorem basisAfter_of_tries {n : Int} {k : Nat} (hp : a.Tries w n k) : a.basisAfter w b = b := by
  rcases hp with hp | ⟨wake, hp, -⟩ <;> simp [basisAfter, hp]

theorem basisAfter_desired_of_polls {wait : Wait} (hp : a.Polls w wait) :
    (a.basisAfter w b).desired = b.desired := by
  rcases hp with hp | ⟨wake, hp, -⟩ <;> simp [basisAfter, hp]

/-- A turn that an attempt lets pass changes nothing that it follows. -/
theorem Follows.basisAfter {mode : Mode} (h : a.Follows mode b) :
    a.Follows mode (a.basisAfter w b) where
  waits := by
    intro wait hp
    have hb : (a.basisAfter w b).desired = b.desired := by
      rcases hp with hp | ⟨wake, hp⟩ <;> simp [Attempt.basisAfter, hp]
    rw [hb]
    exact h.waits wait hp
  counts := by
    intro n k hp
    have hb : a.basisAfter w b = b := by
      rcases hp with hp | ⟨wake, hp⟩ <;> simp [Attempt.basisAfter, hp]
    rw [hb]
    exact h.counts n k hp

/-- **A step computes counts from the basis only.** -/
theorem step_follows (h : a.Follows s.config.mode b) :
    (a.step s w).1.Follows s.config.mode (a.basisAfter w b) := by
  have hc := a.step_case s w
  generalize a.step s w = r at hc ⊢
  cases hc with
  | idle => exact h.basisAfter
  | content => exact follows_of_not_underway (by simp [IsUnderway])
  | begun => exact follows_of_not_underway (by simp [IsUnderway])
  | unreachable => exact follows_of_not_underway (by simp [IsUnderway, fail, conclude_fst])
  | decided hp hne hn =>
    have hb : a.basisAfter w b = { b with desired := a.desired w.registry } := by
      simp [basisAfter, hp]
    rw [hb]
    cases hn with
    | write hm =>
      rw [hm]
      refine ⟨by simp, ?_⟩
      rintro n k (h | ⟨wake, h⟩) <;> cases h
      rfl
    | wait hm =>
      rw [hm]
      refine ⟨?_, by simp⟩
      rintro wait (h | ⟨wake, h⟩) <;> cases h
      exact ⟨rfl, rfl⟩
    | abort => exact follows_of_not_underway (by simp [IsUnderway])
  | arrived => exact follows_of_not_underway (by simp [IsUnderway, conclude_fst])
  | polled hp hget =>
    obtain ⟨hm, hd⟩ := h.of_polls hp
    rw [basisAfter_of_polls hp hget, hm]
    split
    · exact follows_of_not_underway (by simp [IsUnderway])
    · rename_i hne
      refine ⟨by simp, ?_⟩
      rintro n k (h | ⟨wake, h⟩) <;> cases h
      rw [hd] at hne ⊢
      simp [Mode.nextCount, hne]
  | slept hp hd =>
    obtain ⟨hm, hdesired⟩ := h.of_polls hp
    constructor
    · intro wait' hp'
      rw [basisAfter_desired_of_polls hp, ← hdesired, ← hd]
      rcases hp' with hp' | ⟨wake', hp'⟩ <;> cases hp'
      exact ⟨hm, rfl⟩
    · rintro n k (hp' | ⟨wake', hp'⟩) <;> cases hp'
  | stored => exact follows_of_not_underway (by simp [IsUnderway])
  | retried hp hq =>
    have hcount := h.of_tries hp
    rw [basisAfter_of_tries hp]
    constructor
    · rintro wait (hp' | ⟨wake', hp'⟩) <;> cases hp'
    · intro n' k' hp'
      rcases hp' with hp' | ⟨wake', hp'⟩ <;> cases hp'
      exact hcount
  | exhausted => exact follows_of_not_underway (by simp [IsUnderway])
  | gone => exact follows_of_not_underway (by simp [IsUnderway, conclude_fst])
  | denied => exact follows_of_not_underway (by simp [IsUnderway, conclude_fst])
  | failed => exact follows_of_not_underway (by simp [IsUnderway, fail, conclude_fst])

/-- **A count that is about to be tried for the first time was computed from a fresh basis.** -/
theorem step_fresh (h : a.Follows s.config.mode b) {n : Int}
    (hp : (a.step s w).1.phase = .writing n 0) :
    (a.step s w).1.Fresh s.config.mode (a.step s w).2 (a.basisAfter w b) := by
  have hcase := a.step_case s w
  generalize a.step s w = r at hcase hp ⊢
  cases hcase with
  | idle hi => simp [canStep, isOver, isSuspended, show a.phase = .writing n 0 from hp] at hi
  | content => cases hp
  | begun => cases hp
  | unreachable => cases hp
  | decided hd hne hn =>
    have hb : a.basisAfter w b = { b with desired := a.desired w.registry } := by
      simp [basisAfter, hd]
    rw [hb]
    cases hn with
    | write hm =>
      rw [hm]
      exact (desired_eq_of_target? (w.registry.target?_update a.key a.key _)).symm
    | wait => cases hp
    | abort => cases hp
  | arrived => cases hp
  | @polled wait live w₁ hpolls hget _ ha =>
    rw [basisAfter_of_polls hpolls hget, (h.of_polls hpolls).1]
    refine ⟨live, ?_, rfl⟩
    rw [ha.cluster]
    exact hget
  | slept => cases hp
  | stored => cases hp
  | retried => cases hp
  | exhausted => cases hp
  | gone => cases hp
  | denied => cases hp
  | failed => cases hp

end Attempt

namespace Scene

variable {s : Settings} {sc : Scene} {i : Nat} {b : Basis}

/-- The basis of the attempt with a number after a turn. -/
def observe (i : Nat) (sc : Scene) (b : Basis) : Move → Basis
  | .attempt j =>
    match sc.attempts[i]? with
    | some a => if j = i ∧ sc.isFreeFor i then a.basisAfter sc.world b else b
    | none => b
  | _ => b

/-- The basis of the attempt with a number after a list of turns. -/
def basisFrom (s : Settings) (i : Nat) : Scene → Basis → List Move → Basis
  | _, b, [] => b
  | sc, b, m :: moves => basisFrom s i (sc.next s m) (sc.observe i b m) moves

/-- What the attempt with a number last computed a count from. -/
def basis (s : Settings) (i : Nat) (sc : Scene) (moves : List Move) : Basis :=
  basisFrom s i sc {} moves

/-- The attempt with a number follows its basis, which is fresh before the first try of a write. -/
structure Grounded (s : Settings) (i : Nat) (sc : Scene) (b : Basis) : Prop where
  follows : ∀ a, sc.attempts[i]? = some a → a.Follows s.config.mode b
  fresh : ∀ a n, sc.attempts[i]? = some a → a.phase = .writing n 0 →
    a.Fresh s.config.mode sc.world b

theorem grounded_staged (w : World) (launches : List Launch) :
    Grounded s i (staged w launches) b := by
  have hstart : ∀ a, (staged w launches).attempts[i]? = some a → a.phase = .starting := by
    intro a ha
    obtain ⟨l, -, rfl⟩ := List.mem_map.1 (List.mem_of_getElem? ha)
    rfl
  constructor
  · intro a ha
    exact Attempt.follows_of_not_underway (by simp [Attempt.IsUnderway, hstart a ha])
  · intro a n ha hp
    rw [hstart a ha] at hp
    cases hp

/-- An attempt at rest has no write before its first try. -/
theorem Grounded.of_rest (hf : ∀ a, sc.attempts[i]? = some a → a.Follows s.config.mode b)
    (hr : ∀ a, sc.attempts[i]? = some a → a.isAtRest = true) : Grounded s i sc b := by
  refine ⟨hf, fun a n ha hp => ?_⟩
  have hrest := hr a ha
  simp [Attempt.isAtRest, hp] at hrest

theorem Grounded.next_trigger (h : Grounded s i sc b) (t : Trigger) :
    Grounded s i (sc.next s (.trigger t)) b := by
  by_cases hr : sc.isAtRest
  · have hcases : ∀ a, (sc.next s (.trigger t)).attempts[i]? = some a →
        sc.attempts[i]? = some a ∨ a.phase = .starting := by
      intro a ha
      rw [Scene.next_trigger hr, List.getElem?_append] at ha
      split at ha
      · exact .inl ha
      · obtain ⟨l, -, rfl⟩ := List.mem_map.1 (List.mem_of_getElem? ha)
        exact .inr rfl
    refine .of_rest (fun a ha => ?_) (fun a ha => ?_) <;> rcases hcases a ha with ha | hp
    · exact h.follows a ha
    · exact Attempt.follows_of_not_underway (by simp [Attempt.IsUnderway, hp])
    · exact List.all_eq_true.1 hr a (List.mem_of_getElem? ha)
    · simp [Attempt.isAtRest, hp]
  · simpa [Scene.next, hr] using h

/-- A turn of another attempt finds this one at rest. -/
theorem Grounded.next_other (h : Grounded s i sc b) {j : Nat} (hj : j ≠ i) :
    Grounded s i (sc.next s (.attempt j)) b := by
  rcases sc.next_attempt_cases s j with ⟨c, hc, hf, hn⟩ | hn
  · rw [hn]
    have hsame : (sc.attempts.set j (c.step s sc.world).1)[i]? = sc.attempts[i]? :=
      List.getElem?_set_ne hj
    refine .of_rest (fun a ha => h.follows a (hsame ▸ ha)) fun a ha => ?_
    rw [hsame] at ha
    exact List.all_eq_true.1 hf a (List.mem_eraseIdx_iff_getElem?.2 ⟨i, hj.symm, ha⟩)
  · rw [hn]
    exact h

theorem Grounded.next_attempt (h : Grounded s i sc b) :
    Grounded s i (sc.next s (.attempt i)) (sc.observe i b (.attempt i)) := by
  cases ha : sc.attempts[i]? with
  | none => simpa [Scene.next, observe, ha] using h
  | some a =>
    by_cases hf : sc.isFreeFor i
    · obtain ⟨ha', -, hw'⟩ := next_attempt_self (s := s) ha hf
      have hb : sc.observe i b (.attempt i) = a.basisAfter sc.world b := by
        simp [observe, ha, hf]
      rw [hb]
      have hfollows := h.follows a ha
      constructor
      · intro a' hget
        obtain rfl := Option.some.inj (ha'.symm.trans hget)
        exact Attempt.step_follows hfollows
      · intro a' n hget hp
        obtain rfl := Option.some.inj (ha'.symm.trans hget)
        rw [hw']
        exact Attempt.step_fresh hfollows hp
    · simpa [Scene.next, observe, ha, hf] using h

theorem Grounded.next (h : Grounded s i sc b) (m : Move) :
    Grounded s i (sc.next s m) (sc.observe i b m) := by
  cases m with
  | trigger t => exact h.next_trigger t
  | attempt j =>
    by_cases hj : j = i
    · subst hj
      exact h.next_attempt
    · have hb : sc.observe i b (.attempt j) = b := by
        simp only [observe, hj, false_and, if_false]
        split <;> rfl
      rw [hb]
      exact h.next_other hj
  | others w =>
    by_cases hr : sc.isAtRest
    · rw [next_others hr]
      exact .of_rest h.follows fun a ha => List.all_eq_true.1 hr a (List.mem_of_getElem? ha)
    · simpa [Scene.next, hr, observe] using h

theorem Grounded.run (h : Grounded s i sc b) (moves : List Move) :
    Grounded s i (sc.run s moves) (basisFrom s i sc b moves) := by
  induction moves generalizing sc b with
  | nil => exact h
  | cons m moves ih => exact ih (h.next m)

/-- A count is the one that the target in force for an attempt and the stored count call for: the
target in rapid mode, in step mode one replica from the stored count toward another target. -/
def Current (s : Settings) (sc : Scene) (a : Attempt) (n : Int) : Prop :=
  ∃ live, sc.world.cluster.inventory.get? a.item.id = some live ∧
    s.config.mode.nextCount live.spec (a.desired sc.world.registry) = some n

/-- **A count that an attempt writes was computed from its basis.  It is the current one if and only
if in rapid mode the target of the basis is in force, and in step mode the stored count and the
target in force call for the same as the basis.  At the first try of a write the target of the
basis is in force in rapid mode, and its count is stored in step mode.** -/
theorem current_iff_basis (s : Settings) (w : World) (launches : List Launch) (moves : List Move)
    {i : Nat} {id : WorkloadId} {n : Int}
    (h : ((staged w launches).run s moves).Writes s i id n) :
    let sc := (staged w launches).run s moves
    let b := basis s i (staged w launches) moves
    ∃ a live, sc.attempts[i]? = some a ∧ a.item.id = id ∧
      sc.world.cluster.inventory.get? id = some live ∧
      s.config.mode.nextCount b.stored b.desired = some n ∧
      (s.config.mode = .rapid →
        (Current s sc a n ↔ a.desired sc.world.registry = b.desired)) ∧
      (s.config.mode = .step →
        (Current s sc a n ↔ live.spec ≠ a.desired sc.world.registry ∧
          oneToward live.spec (a.desired sc.world.registry) = oneToward b.stored b.desired)) ∧
      (a.phase = .writing n 0 →
        (s.config.mode = .rapid → Current s sc a n) ∧
        (s.config.mode = .step → b.stored = live.spec)) := by
  intro sc b
  have hgrounded : Grounded s i sc b := (grounded_staged w launches).run moves
  have h : sc.Writes s i id n := h
  clear_value sc b
  obtain ⟨a, ha, -, hstep⟩ := h.step
  obtain ⟨rfl, k, live, -, -, -, htries, hget, -⟩ := Attempt.step_writes hstep
  have hcount := (hgrounded.follows a ha).of_tries htries
  have hcurrent : Current s sc a n ↔
      s.config.mode.nextCount live.spec (a.desired sc.world.registry) = some n := by
    constructor
    · rintro ⟨live', hget', hn⟩
      obtain rfl := Option.some.inj (hget.symm.trans hget')
      exact hn
    · exact fun hn => ⟨live, hget, hn⟩
  refine ⟨a, live, ha, rfl, hget, hcount, fun hm => ?_, fun hm => ?_, fun hp => ?_⟩
  · rw [hcurrent]
    rw [hm] at hcount ⊢
    obtain rfl := Option.some.inj hcount
    exact ⟨Option.some.inj, congrArg some⟩
  · rw [hcurrent]
    rw [hm] at hcount ⊢
    obtain ⟨-, -, rfl⟩ := (Mode.nextCount_eq_some_iff.1 hcount).resolve_left (by simp)
    simp [Mode.nextCount_eq_some_iff]
  · have hfresh := hgrounded.fresh a n ha hp
    constructor
    · intro hm
      rw [hcurrent]
      rw [hm] at hcount hfresh ⊢
      rw [← hcount]
      exact congrArg some hfresh.symm
    · intro hm
      rw [hm] at hfresh
      obtain ⟨live', hget', hstored⟩ := hfresh
      obtain rfl := Option.some.inj (hget.symm.trans hget')
      exact hstored

/-- The first try of a write in step mode. -/
theorem current_iff_basis_first_try :
    let start := staged (.holding [.sample ⟨.deployment, "shop", "api"⟩ "3"]) []
    let moves : List Move := [.trigger (.cycle "shop"), .attempt 0, .attempt 0, .attempt 0]
    (start.run (.standard .step) moves).Writes (.standard .step) 0 ⟨.deployment, "shop", "api"⟩ 1 ∧
      Mode.nextCount .step (basis (.standard .step) 0 start moves).stored
        (basis (.standard .step) 0 start moves).desired = some 1 := by
  intro start moves
  have hw : (start.run (.standard .step) moves).Writes (.standard .step) 0
      ⟨.deployment, "shop", "api"⟩ 1 := by
    unfold Writes
    decide +kernel
  obtain ⟨-, -, -, -, -, hcount, -⟩ := current_iff_basis _ _ _ moves hw
  exact ⟨hw, hcount⟩

/-- A target that is revised while a conflicting write waits for its next try is not the one that
is written. -/
theorem not_current_revised_in_backoff :
    let x := Workload.sample ⟨.deployment, "shop", "api"⟩ "3"
    let y := Workload.sample ⟨.deployment, "shop", "api"⟩ "7"
    let sc := (staged { World.holding [x] with cluster.pendingConflicts := 1 } []).run
      (.standard .rapid) [.trigger (.cycle "shop"), .attempt 0, .attempt 0, .attempt 0,
        .others (.holding [y]), .trigger (.cycle "shop"),
        .others { World.holding [y] with now := 10 }]
    sc.Writes (.standard .rapid) 0 x.id 3 ∧
      ∀ a, sc.attempts[0]? = some a → ¬ Current (.standard .rapid) sc a 3 := by
  intro x y sc
  refine ⟨by unfold Writes; decide +kernel, ?_⟩
  rintro a ha ⟨live, -, hn⟩
  have hdesired : sc.attempts[0]?.map (·.desired sc.world.registry) = some 7 := by decide +kernel
  rw [ha] at hdesired
  have hseven : a.desired sc.world.registry = 7 := Option.some.inj hdesired
  rw [hseven] at hn
  cases hn

end Scene

end ReplicaControl
