import ReplicaControl.Proofs.Exclusivity
import ReplicaControl.Proofs.RegistryTargets

/-!
# Progress of attempts

An attempt that nobody disturbs gets to its end.

* `World.Spares` — a key was not touched: its entry is the same, and no workload of it has another
  count than before.
* `Attempt.Chases` — the attempt is on its way to a count, and saw its workload as it is.
  `Chases.of_spares`, `step_chases`: whoever does not touch the key keeps that, and so does a step
  of the attempt unless it ends it.
* `Attempt.rank`, `step_rank` — every step of an attempt ends it or gets it closer to its end, once
  the alarm rang that it waits for.
* `Attempt.exists_over` — if time goes on and an attempt gets one turn after the other, it is over
  at some time.
* `Scene.after` — the scene after the first turns of a sequence.  `Scene.exists_over`: the same of
  an attempt of a scene.
-/

namespace ReplicaControl

namespace World

/-! ## Keys that are not touched -/

/-- Nobody touched a key between two worlds: the registry has the same entry for it, and none of its
workloads is new or has another count. -/
structure Spares (w w' : World) (key : Key) : Prop where
  entry : w'.registry.get? key = w.registry.get? key
  counts : ∀ id x, id.key = key → w'.cluster.inventory.get? id = some x →
    ∃ y, w.cluster.inventory.get? id = some y ∧ y.spec = x.spec

theorem Spares.refl (w : World) (key : Key) : w.Spares w key :=
  ⟨rfl, fun _ x _ hx => ⟨x, hx, rfl⟩⟩

theorem Spares.trans {w₁ w₂ w₃ : World} {key : Key} (h : w₁.Spares w₂ key) (h' : w₂.Spares w₃ key) :
    w₁.Spares w₃ key where
  entry := h'.entry.trans h.entry
  counts := fun id x hid hx => by
    obtain ⟨y, hy, hspec⟩ := h'.counts id x hid hx
    obtain ⟨z, hz, hspec'⟩ := h.counts id y hid hy
    exact ⟨z, hz, hspec'.trans hspec⟩

theorem afterWrite_of_bare {w : World} (h : w.rules = []) (x : Workload) : w.afterWrite x = w := by
  rw [afterWrite, h]
  rfl

end World

namespace Attempt

variable {s : Settings} {a : Attempt} {w w' : World} {d : Int}

/-- Unless something reacts to a write, a step concerns the workload of the attempt only. -/
theorem step_workload_of_ne (s : Settings) (a : Attempt) {w : World} (hw : w.rules = [])
    {id : WorkloadId} (hid : id ≠ a.item.id) :
    (a.step s w).2.cluster.inventory.get? id = w.cluster.inventory.get? id := by
  have hc := a.step_case s w
  generalize a.step s w = r at hc ⊢
  cases hc with
  | idle => rfl
  | content => rfl
  | begun => rfl
  | unreachable => rw [fail, conclude_cluster]
  | decided => rfl
  | arrived => rw [conclude_cluster]
  | polled _ _ _ ha => rw [ha.cluster]
  | slept _ _ hq => rw [hq.inventory]
  | @stored n k live new c w₁ hp hget ho had hcw ha =>
    rw [World.afterWrite_of_bare (w := { w₁ with cluster := c }) (ha.quiet.rules.trans hw)]
    exact Cluster.write_get?_of_ne hcw (Inventory.id_of_get? hget ▸ hid)
  | retried _ hq => rw [hq.inventory]
  | exhausted _ hget hcw => exact Cluster.write_get?_of_ne hcw (Inventory.id_of_get? hget ▸ hid)
  | gone _ hq => rw [conclude_cluster, hq.inventory]
  | denied _ hq => rw [conclude_cluster]; exact congrArg (Inventory.get? · id) hq.inventory
  | failed _ hq => rw [fail, conclude_cluster, hq.inventory]

/-- Unless something reacts to a write, a step does not touch other keys. -/
theorem step_spares (s : Settings) (a : Attempt) {w : World} (hw : w.rules = []) {key : Key}
    (hkey : key ≠ a.key) : w.Spares (a.step s w).2 key where
  entry := a.step_get?_of_ne s w hkey
  counts := fun id x hid hx => by
    have hne : id ≠ a.item.id := fun h => hkey (hid.symm.trans (congrArg WorkloadId.key h))
    rw [a.step_workload_of_ne s hw hne] at hx
    exact ⟨x, hx, rfl⟩

/-! ## On the way to a count -/

/-- How far a count is from another one. -/
def distance (d n : Int) : Nat := (d - n).natAbs

theorem distance_pos {n : Int} (h : n ≠ d) : distance d d < distance d n := by
  unfold distance
  omega

theorem distance_oneToward {n : Int} (h : n ≠ d) : distance d (oneToward n d) < distance d n := by
  unfold distance oneToward
  split <;> omega

/-- The attempt waits on the way to a count, or tries to write a count that is closer to it. -/
def Aims (d : Int) (a : Attempt) : Prop :=
  match a.phase with
  | .polling wait => wait.desired = d ∧ a.current.spec ≠ d
  | .waiting wait _ => wait.desired = d ∧ a.current.spec ≠ d
  | .writing n _ => distance d n < distance d a.current.spec
  | .backingOff n _ _ => distance d n < distance d a.current.spec
  | _ => True

theorem Aims.of_polls (h : a.Aims d) {wait : Wait} (hp : a.Polls w wait) :
    wait.desired = d ∧ a.current.spec ≠ d := by
  unfold Aims at h
  rcases hp with hp | ⟨wake, hp, -⟩ <;> rw [hp] at h <;> exact h

theorem Aims.of_tries (h : a.Aims d) {n : Int} {k : Nat} (hp : a.Tries w n k) :
    distance d n < distance d a.current.spec := by
  unfold Aims at h
  rcases hp with hp | ⟨wake, hp, -⟩ <;> rw [hp] at h <;> exact h

/-- The attempt is on its way to the target in force, and its workload has the count that the
attempt saw last. -/
structure Chases (d : Int) (a : Attempt) (w : World) : Prop where
  desired : a.desired w.registry = d
  counts : ∀ x, w.cluster.inventory.get? a.item.id = some x → x.spec = a.current.spec
  aims : a.Aims d

/-- Whoever does not touch the key does not disturb an attempt. -/
theorem Chases.of_spares (h : a.Chases d w) (hs : w.Spares w' a.key) : a.Chases d w' where
  desired := by
    have hd := h.desired
    unfold Attempt.desired at hd ⊢
    rw [hs.entry]
    exact hd
  counts := fun x hx => by
    obtain ⟨y, hy, hspec⟩ := hs.counts a.item.id x rfl hx
    exact hspec.symm.trans (h.counts y hy)
  aims := h.aims

/-- A step that leaves the registry and the workloads as they are, and the attempt on its way. -/
theorem Chases.quiet (h : a.Chases d w) (hq : w.Quiet w') {phase : Phase}
    (haims : Aims d { a with phase }) : Chases d { a with phase } w' where
  desired := hq.registry ▸ h.desired
  counts := hq.inventory ▸ h.counts
  aims := haims

/-- **An attempt stays on its way**, or it is over. -/
theorem step_chases (h : a.Chases d w) (hw : w.rules = []) :
    (a.step s w).1.isOver = true ∨ (a.step s w).1.Chases d (a.step s w).2 := by
  have hc := a.step_case s w
  generalize a.step s w = r at hc
  cases hc with
  | idle => exact .inr h
  | content => exact .inl rfl
  | begun => exact .inr ⟨(a.desired_marked _).trans h.desired, h.counts, trivial⟩
  | unreachable => exact .inl rfl
  | @decided phase hp hne hn =>
    have hdesired : a.desired (w.registry.update a.key ({ · with scaling := true })) = d :=
      (desired_eq_of_target? (w.registry.target?_update a.key a.key _)).trans h.desired
    rw [h.desired] at hne
    cases hn with
    | write hmode =>
      refine .inr ⟨hdesired, h.counts, ?_⟩
      show distance d (a.desired w.registry) < distance d a.current.spec
      rw [h.desired]
      exact distance_pos hne
    | wait hmode deadline => exact .inr ⟨hdesired, h.counts, h.desired, hne⟩
    | abort hmode => exact .inl rfl
  | arrived => exact .inl rfl
  | @polled wait live w₁ hp hget hr ha =>
    have hlive := h.counts live hget
    obtain ⟨hdesired, hfar⟩ := h.aims.of_polls hp
    have hne : live.spec ≠ wait.desired := by rw [hlive, hdesired]; exact hfar
    rw [if_neg hne]
    refine .inr ⟨ha.registry ▸ h.desired, fun y hy => ?_, ?_⟩
    · rw [ha.cluster] at hy
      exact congrArg Workload.spec (Option.some.inj (hy.symm.trans hget))
    · show distance d (oneToward live.spec wait.desired) < distance d live.spec
      rw [hdesired]
      exact distance_oneToward (hdesired ▸ hne)
  | slept hp hd hq =>
    have haims := h.aims.of_polls hp
    rw [← hd] at haims
    exact .inr (h.quiet hq haims)
  | @stored n k live new c w₁ hp hget ho had hcw ha =>
    obtain ⟨-, hid, hcl⟩ := Cluster.write_stored_of_get? hget hcw
    have hrules : w₁.rules = [] := ha.quiet.rules.trans hw
    rw [World.afterWrite_of_bare (w := { w₁ with cluster := c }) hrules]
    refine .inr ⟨ha.registry ▸ h.desired, fun y hy => ?_, trivial⟩
    have hy : c.inventory.get? a.item.id = some y := hy
    rw [hcl] at hy
    have hy : (w.cluster.inventory.put new).get? a.item.id = some y := hy
    rw [Inventory.get?_put, if_pos hid.symm] at hy
    exact congrArg Workload.spec (Option.some.inj hy).symm
  | retried hp hq => exact .inr (h.quiet hq (h.aims.of_tries hp))
  | exhausted => exact .inl rfl
  | gone => exact .inl rfl
  | denied => exact .inl rfl
  | failed => exact .inl rfl

/-! ## The way to the end -/

/-- How far an attempt is from the end of its round, given how often a write is tried. -/
def stage (tries : Nat) (a : Attempt) : Nat :=
  match a.phase with
  | .starting => tries + 4
  | .deciding => tries + 3
  | .polling _ => tries + 2
  | .waiting _ _ => tries + 2
  | .writing _ k => tries + 1 - k
  | .backingOff _ k _ => tries + 1 - k
  | _ => 0

/-- How far an attempt is from its end: first by its count, then by its stage. -/
def rank (tries : Nat) (d : Int) (a : Attempt) : Nat :=
  distance d a.current.spec * (tries + 5) + a.stage tries

/-- The instant from which on the attempt waits no longer. -/
def horizon (a : Attempt) : Nat :=
  match a.phase with
  | .polling wait => wait.deadline
  | .waiting wait _ => wait.deadline
  | .backingOff _ _ wake => wake.due
  | _ => 0

theorem rank_lt_of_stage {tries : Nat} {a' : Attempt} (hspec : a'.current.spec = a.current.spec)
    (h : a'.stage tries < a.stage tries) : a'.rank tries d < a.rank tries d := by
  unfold rank
  rw [hspec]
  exact Nat.add_lt_add_left h _

theorem rank_lt_of_distance {tries : Nat} {a' : Attempt}
    (hd : distance d a'.current.spec < distance d a.current.spec)
    (h : a'.stage tries < tries + 5) : a'.rank tries d < a.rank tries d := by
  have hmul := Nat.mul_le_mul_right (tries + 5) (Nat.succ_le_of_lt hd)
  rw [Nat.succ_mul] at hmul
  unfold rank
  omega

theorem stage_of_tries {tries : Nat} {n : Int} {k : Nat} (h : a.Tries w n k) :
    a.stage tries = tries + 1 - k := by
  rcases h with h | ⟨wake, h, -⟩ <;> simp [stage, h]

theorem stage_of_polls {tries : Nat} {wait : Wait} (h : a.Polls w wait) :
    a.stage tries = tries + 2 := by
  rcases h with h | ⟨wake, h, -⟩ <;> simp [stage, h]

theorem horizon_of_polls {wait : Wait} (h : a.Polls w wait) : a.horizon = wait.deadline := by
  rcases h with h | ⟨wake, h, -⟩ <;> simp [horizon, h]

/-- An attempt that is not over and cannot take a step waits for an alarm. -/
theorem lt_horizon_of_not_canStep (h : a.canStep w.now = false) (ho : a.isOver = false) :
    w.now < a.horizon := by
  unfold canStep isSuspended at h
  unfold horizon
  cases hp : a.phase <;> simp_all

/-- **A step of an attempt ends it or gets it closer to its end**, unless it still waits.  Then it
takes no other step before time passes, if it takes time to sleep between two polls. -/
theorem step_rank (h : a.Chases d w) (ho : a.isOver = false) :
    (a.step s w).1.isOver = true ∨
      (a.step s w).1.rank s.config.writeTries d < a.rank s.config.writeTries d ∨
      (a.step s w).1.rank s.config.writeTries d = a.rank s.config.writeTries d ∧
        (a.step s w).1.horizon = a.horizon ∧ w.now < a.horizon ∧
        (w.now < s.clock.wake w.now s.timings.pollInterval →
          (a.step s w).1.canStep w.now = false) := by
  have hc := a.step_case s w
  generalize a.step s w = r at hc
  cases hc with
  | idle hstep =>
    exact .inr (.inr ⟨rfl, rfl, lt_horizon_of_not_canStep hstep ho, fun _ => hstep⟩)
  | content => exact .inl rfl
  | begun hp => exact .inr (.inl (rank_lt_of_stage rfl (by simp [stage, hp])))
  | unreachable => exact .inl rfl
  | decided hp hne hn =>
    cases hn with
    | write => exact .inr (.inl (rank_lt_of_stage rfl (by simp [stage, hp])))
    | wait => exact .inr (.inl (rank_lt_of_stage rfl (by simp [stage, hp])))
    | abort => exact .inl rfl
  | arrived => exact .inl rfl
  | @polled wait live w₁ hp hget hr ha =>
    have hlive := h.counts live hget
    obtain ⟨hdesired, hfar⟩ := h.aims.of_polls hp
    rw [if_neg (by rw [hlive, hdesired]; exact hfar)]
    refine .inr (.inl (rank_lt_of_stage hlive ?_))
    rw [stage_of_polls hp]
    simp [stage]
  | slept hp hd hq hl hnow hdue =>
    refine .inr (.inr ⟨?_, ?_, (horizon_of_polls hp).symm ▸ hnow, fun hslow => ?_⟩)
    · unfold rank
      rw [stage_of_polls hp]
      rfl
    · rw [horizon_of_polls hp, ← hl]
      rfl
    · simp [canStep, isOver, isSuspended, hdue, hslow, hl, hnow]
  | @stored n k live new c w₁ hp hget ho had hcw ha =>
    obtain ⟨hnew, -, -⟩ := Cluster.write_stored_of_get? hget hcw
    refine .inr (.inl (rank_lt_of_distance ?_ (by simp [stage])))
    have hspec : new.spec = n := by rw [hnew]; rfl
    show distance d new.spec < distance d a.current.spec
    rw [hspec]
    exact h.aims.of_tries hp
  | retried hp hq hk =>
    refine .inr (.inl (rank_lt_of_stage rfl ?_))
    rw [stage_of_tries hp]
    simp only [stage]
    omega
  | exhausted => exact .inl rfl
  | gone => exact .inl rfl
  | denied => exact .inl rfl
  | failed => exact .inl rfl

/-! ## The end of an attempt -/

section

variable {a : Nat → Attempt} {w : Nat → World}
  (hmove : ∀ n, a (n + 1) = a n ∨ a (n + 1) = ((a n).step s (w n)).1)
  (hturn : ∀ t m, ∃ n, m ≤ n ∧ t ≤ (w n).now ∧
    (a (n + 1) = ((a n).step s (w n)).1 ∨ (a n).canStep (w n).now = false))
  (hchases : ∀ n, (a n).isOver = false → (a n).Chases d (w n))
include hmove hturn hchases

/-- **An attempt that nobody disturbs gets to its end**, or closer to it: at the latest in its first
turn after the alarm rang that it waits for. -/
theorem exists_closer (n : Nat) :
    ∃ m, (a m).isOver = true ∨
      (a m).rank s.config.writeTries d < (a n).rank s.config.writeTries d := by
  by_contra hnone
  have hrunning : ∀ m, (a m).isOver = false := fun m =>
    Bool.eq_false_iff.2 fun h => hnone ⟨m, .inl h⟩
  have hfar : ∀ m, (a n).rank s.config.writeTries d ≤ (a m).rank s.config.writeTries d := fun m =>
    Nat.le_of_not_lt fun h => hnone ⟨m, .inr h⟩
  have hstep : ∀ m, (a m).rank s.config.writeTries d = (a n).rank s.config.writeTries d →
      a (m + 1) = ((a m).step s (w m)).1 →
      (a (m + 1)).rank s.config.writeTries d = (a n).rank s.config.writeTries d ∧
        (a (m + 1)).horizon = (a m).horizon ∧ (w m).now < (a m).horizon := by
    intro m hrank hown
    have hle := hfar (m + 1)
    have hnext := hrunning (m + 1)
    rw [hown] at hle hnext ⊢
    rcases step_rank (s := s) (hchases m (hrunning m)) (hrunning m) with
      hover | hlt | ⟨hsame, hhorizon, hlt, -⟩
    · exact absurd (hover.symm.trans hnext) (by decide)
    · omega
    · exact ⟨hsame.trans hrank, hhorizon, hlt⟩
  -- the attempt goes on waiting for the alarm that it waits for now
  have hwaits : ∀ m, n ≤ m →
      (a m).rank s.config.writeTries d = (a n).rank s.config.writeTries d ∧
        (a m).horizon = (a n).horizon := by
    intro m hm
    induction hm with
    | refl => exact ⟨rfl, rfl⟩
    | @step m hm ih =>
      obtain ⟨hrank, hhorizon⟩ := ih
      rcases hmove m with hstay | hown
      · rw [hstay]
        exact ⟨hrank, hhorizon⟩
      · obtain ⟨hrank', hhorizon', -⟩ := hstep m hrank hown
        exact ⟨hrank', hhorizon'.trans hhorizon⟩
  obtain ⟨m, hm, hnow, hown | hidle⟩ := hturn (a n).horizon n
  · obtain ⟨hrank, hhorizon⟩ := hwaits m hm
    obtain ⟨-, -, hlt⟩ := hstep m hrank hown
    omega
  · obtain ⟨-, hhorizon⟩ := hwaits m hm
    have hlt := lt_horizon_of_not_canStep hidle (hrunning m)
    omega

/-- **An attempt that nobody disturbs is over at some time**, if time goes on and it has one turn
after the other as long as it can take a step. -/
theorem exists_over : ∃ n, (a n).isOver = true := by
  suffices h : ∀ r n, (a n).rank s.config.writeTries d = r → ∃ m, (a m).isOver = true from
    h _ 0 rfl
  intro r
  induction r using Nat.strongRecOn with
  | ind r ih =>
    intro n hr
    obtain ⟨m, hover | hlt⟩ := exists_closer hmove hturn hchases n
    · exact ⟨m, hover⟩
    · exact ih _ (hr ▸ hlt) m rfl

end

end Attempt

namespace Scene

/-! ## Sequences of turns -/

/-- The scene after the first turns of a sequence. -/
def after (s : Settings) (sc : Scene) (turns : Nat → Move) : Nat → Scene
  | 0 => sc
  | n + 1 => (sc.after s turns n).next s (turns n)

variable {s : Settings} {sc : Scene} {turns : Nat → Move}

/-- Time does not go back. -/
theorem now_le_next (s : Settings) (sc : Scene) (m : Move) :
    sc.world.now ≤ (sc.next s m).world.now := by
  cases m with
  | trigger t =>
    simp only [next]
    split
    · exact Nat.le_of_eq (t.fire_booked s sc.world).now.symm
    · exact Nat.le_refl _
  | attempt i =>
    rcases sc.next_attempt_cases s i with ⟨a, -, -, hn⟩ | hn
    · rw [hn]
      exact Nat.le_of_eq (a.step_now s sc.world).symm
    · exact Nat.le_of_eq (congrArg (·.world.now) hn.symm)
  | others w =>
    simp only [next]
    split
    · exact Nat.le_max_left _ _
    · exact Nat.le_refl _

theorem now_le_after (s : Settings) (sc : Scene) (turns : Nat → Move) {m n : Nat} (h : m ≤ n) :
    (sc.after s turns m).world.now ≤ (sc.after s turns n).world.now := by
  induction h with
  | refl => exact Nat.le_refl _
  | step _ ih => exact Nat.le_trans ih (now_le_next s _ _)

/-- An attempt stays where it is, or takes a step in its turn. -/
theorem getElem?_next {i : Nat} {a : Attempt} (ha : sc.attempts[i]? = some a) (m : Move) :
    (sc.next s m).attempts[i]? = some a ∨
      m = .attempt i ∧ sc.isFreeFor i ∧
        (sc.next s m).attempts[i]? = some (a.step s sc.world).1 := by
  have hlen := (List.getElem?_eq_some_iff.1 ha).1
  cases m with
  | trigger t =>
    simp only [next]
    split
    · exact .inl ((List.getElem?_append_left hlen).trans ha)
    · exact .inl ha
  | others w =>
    simp only [next]
    split <;> exact .inl ha
  | attempt j =>
    by_cases hj : j = i
    · subst hj
      by_cases hf : sc.isFreeFor j
      · exact .inr ⟨rfl, hf, (next_attempt_self ha hf).1⟩
      · refine .inl ?_
        simp only [next, ha, hf]
        exact ha
    · rcases sc.next_attempt_cases s j with ⟨b, -, -, hn⟩ | hn
      · rw [hn]
        exact .inl ((List.getElem?_set_ne hj).trans ha)
      · rw [hn]
        exact .inl ha

/-- An attempt that is over stays as it is. -/
theorem getElem?_of_isOver {i m n : Nat} {a : Attempt} (hover : a.isOver = true) (hmn : m ≤ n)
    (ha : (sc.after s turns m).attempts[i]? = some a) :
    (sc.after s turns n).attempts[i]? = some a := by
  induction hmn with
  | refl => exact ha
  | step _ ih =>
    rcases getElem?_next (s := s) ih (turns _) with h | ⟨-, -, h⟩
    · exact h
    · rw [Attempt.step_of_isOver s _ hover] at h
      exact h

/-- **An attempt that nobody disturbs is over at some time**, if time goes on and it has one turn
after the other. -/
theorem exists_over {i : Nat} {d : Int} (htime : ∀ t, ∃ n, t ≤ (sc.after s turns n).world.now)
    (hturn : ∀ n, ∃ m, n ≤ m ∧ turns m = .attempt i ∧ (sc.after s turns m).isFreeFor i)
    (hchases : ∀ n a, (sc.after s turns n).attempts[i]? = some a → a.isOver = false →
      a.Chases d (sc.after s turns n).world)
    {a : Attempt} (ha : sc.attempts[i]? = some a) :
    ∃ m a', (sc.after s turns m).attempts[i]? = some a' ∧ a'.isOver = true := by
  have hall : ∀ n, ∃ a', (sc.after s turns n).attempts[i]? = some a' := by
    intro n
    induction n with
    | zero => exact ⟨a, ha⟩
    | succ n ih =>
      obtain ⟨b, hb⟩ := ih
      exact (getElem?_next (s := s) hb (turns n)).elim (fun h => ⟨b, h⟩) fun h => ⟨_, h.2.2⟩
  choose b hb using hall
  have hover : ∃ n, (b n).isOver = true := by
    refine Attempt.exists_over (s := s) (w := fun n => (sc.after s turns n).world) (fun n => ?_)
      (fun t m => ?_) fun n => hchases n (b n) (hb n)
    · rcases getElem?_next (s := s) (hb n) (turns n) with h | ⟨-, -, h⟩
      · exact .inl (Option.some.inj ((hb (n + 1)).symm.trans h))
      · exact .inr (Option.some.inj ((hb (n + 1)).symm.trans h))
    · obtain ⟨k, hk⟩ := htime t
      obtain ⟨n, hn, hmove, hfree⟩ := hturn (max m k)
      refine ⟨n, Nat.le_trans (Nat.le_max_left m k) hn, ?_, .inl ?_⟩
      · exact Nat.le_trans hk (now_le_after s sc turns (Nat.le_trans (Nat.le_max_right m k) hn))
      · have hself := (next_attempt_self (s := s) (hb n) hfree).1
        rw [← hmove] at hself
        exact Option.some.inj ((hb (n + 1)).symm.trans hself)
  exact hover.imp fun n hn => ⟨b n, hb n, hn⟩

/-- Attempts that are over at some time each are over together at some time. -/
theorem exists_all_over {is : List Nat}
    (h : ∀ i ∈ is, ∃ n a, (sc.after s turns n).attempts[i]? = some a ∧ a.isOver = true) :
    ∃ n, ∀ i ∈ is, ∃ a, (sc.after s turns n).attempts[i]? = some a ∧ a.isOver = true := by
  induction is with
  | nil => exact ⟨0, fun i hi => nomatch hi⟩
  | cons i is ih =>
    obtain ⟨n, hn⟩ := ih fun j hj => h j (List.mem_cons_of_mem _ hj)
    obtain ⟨m, b, hb, hover⟩ := h i List.mem_cons_self
    refine ⟨max n m, List.forall_mem_cons.2 ⟨?_, fun j hj => ?_⟩⟩
    · exact ⟨b, getElem?_of_isOver hover (Nat.le_max_right n m) hb, hover⟩
    · obtain ⟨c, hc, hdone⟩ := hn j hj
      exact ⟨c, getElem?_of_isOver hdone (Nat.le_max_left n m) hc, hdone⟩

end Scene

end ReplicaControl
