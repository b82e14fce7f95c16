import ReplicaControl.Proofs.RegistryTargets
import ReplicaControl.Proofs.Sample

/-!
# Whose targets are written

The registry files a target under the key of a workload, and workloads of different kinds may share
a key.

* `Scene.Computed`, `Scene.Own` — the targets that the triggers of a run computed for a workload.
* `Scene.Sourced` — every target in the registry was computed for a workload of its key, and every
  attempt was launched for a target of its own workload.
* `Attempt.Misled` — the target in force for an attempt is none of its own workload, and the attempt
  is going to follow it.
* `Scene.Honest`, `Scene.Owned` — no attempt is misled when it gets its turn; every count that is
  written is a target of the workload that it is written to.
* `owned_iff_not_misled` — in rapid mode the counts that attempts write are targets of their own
  workloads as long as no attempt is misled; an attempt that is misled can write another one; and
  where no two kinds share a key, no attempt is ever misled.
-/

namespace ReplicaControl

/-! ## Steps that heed the workload's own targets -/

namespace Attempt

/-- The attempt waits for its workload to become ready. -/
def Waits (a : Attempt) : Prop :=
  ∃ wait, a.phase = .polling wait ∨ ∃ wake, a.phase = .waiting wait wake

/-- A count that the attempt is about to write is an own one. -/
def Captured (own : Int → Prop) (a : Attempt) : Prop :=
  ∀ n k, (a.phase = .writing n k ∨ ∃ wake, a.phase = .backingOff n k wake) → own n

/-- The target in force is no own one, and the attempt is going to follow it. -/
def Misled (own : Int → Prop) (a : Attempt) (r : Registry) : Prop :=
  a.isOver = false ∧ ¬ own (a.desired r) ∧
    (a.phase = .starting ∨ a.phase = .deciding → a.current.spec ≠ a.desired r)

variable {s : Settings} {a : Attempt} {w : World} {own own' : Int → Prop}

theorem Polls.waits {wait : Wait} (h : a.Polls w wait) : a.Waits := by
  rcases h with h | ⟨wake, h, -⟩
  · exact ⟨wait, .inl h⟩
  · exact ⟨wait, .inr ⟨wake, h⟩⟩

theorem Captured.mono (h : a.Captured own) (hle : ∀ n, own n → own' n) : a.Captured own' :=
  fun n k hp => hle n (h n k hp)

theorem Captured.of_tries {n : Int} {k : Nat} (h : a.Captured own) (ht : a.Tries w n k) :
    own n := by
  rcases ht with hp | ⟨wake, hp, -⟩
  · exact h n k (.inl hp)
  · exact h n k (.inr ⟨wake, hp⟩)

theorem Misled.mono (h : a.Misled own' w.registry) (hle : ∀ n, own n → own' n) :
    a.Misled own w.registry :=
  ⟨h.1, fun ho => h.2.1 (hle _ ho), h.2.2⟩

theorem own_of_not_misled {n : Int} {k : Nat} {r : Registry} (h : ¬ a.Misled own r)
    (ht : a.Tries w n k) : own (a.desired r) := by
  have hp : a.isOver = false ∧ ¬ (a.phase = .starting ∨ a.phase = .deciding) := by
    rcases ht with hp | ⟨wake, hp, -⟩ <;> simp [isOver, hp]
  exact Classical.not_not.1 fun hn => h ⟨hp.1, hn, fun hq => absurd hq hp.2⟩

/-- The registry has an entry for an attempt if the target in force is another one than its own. -/
theorem contains_of_not_own {r : Registry} (h : ¬ own (a.desired r)) (ht : own a.target.replicas) :
    r.contains a.key = true := by
  unfold desired at h
  cases hg : r.get? a.key with
  | none =>
    rw [hg] at h
    exact absurd ht h
  | some e => simp [hg]

/-- An attempt in rapid mode never waits for readiness. -/
theorem step_not_waits (hmode : s.config.mode = .rapid) (h : ¬ a.Waits) :
    ¬ (a.step s w).1.Waits := by
  have hc := a.step_case s w
  generalize a.step s w = r at hc ⊢
  cases hc with
  | idle => exact h
  | content => simp [Waits]
  | begun => simp [Waits]
  | unreachable => simp [Waits, fail, conclude_fst]
  | decided _ _ hn =>
    cases hn with
    | write => simp [Waits]
    | wait hm => rw [hmode] at hm; cases hm
    | abort => simp [Waits]
  | arrived => simp [Waits, conclude_fst]
  | polled hp => exact absurd hp.waits h
  | slept hp => exact absurd hp.waits h
  | stored => simp [Waits]
  | retried => simp [Waits]
  | exhausted => simp [Waits]
  | gone => simp [Waits, conclude_fst]
  | denied => simp [Waits, conclude_fst]
  | failed => simp [Waits, fail, conclude_fst]

/-- **An attempt that is not misled stays so by its own steps, and captures own counts only.** -/
theorem step_heeds (hmode : s.config.mode = .rapid) (hw : w.IsPlain) (hwaits : ¬ a.Waits)
    (hc : a.Captured own) (hm : ¬ a.Misled own w.registry) :
    (a.step s w).1.Captured own ∧ ¬ (a.step s w).1.Misled own (a.step s w).2.registry := by
  have ended : ∀ e r, Captured own { a with phase := .ended e } ∧
      ¬ Misled own { a with phase := .ended e } r := fun e r =>
    ⟨by simp [Captured], fun h => by simp [Misled, isOver] at h⟩
  have hcase := a.step_case s w
  generalize a.step s w = r at hcase ⊢
  cases hcase with
  | idle => exact ⟨hc, hm⟩
  | content => exact ended _ _
  | begun hp =>
    refine ⟨by simp [Captured], fun h => hm ?_⟩
    obtain ⟨-, hn, hne⟩ := h
    have hd : Attempt.desired { a with phase := .deciding } (a.marked w.registry) =
        a.desired w.registry := a.desired_marked w.registry
    rw [hd] at hn hne
    exact ⟨by simp [isOver, hp], hn, fun _ => hne (.inr rfl)⟩
  | unreachable => exact ended _ _
  | @decided phase hp hne hn =>
    have hown : own (a.desired w.registry) :=
      Classical.not_not.1 fun hn => hm ⟨by simp [isOver, hp], hn, fun _ => hne⟩
    have hd : Attempt.desired { a with phase }
        (w.registry.update a.key ({ · with scaling := true })) = a.desired w.registry :=
      desired_eq_of_target? (w.registry.target?_update a.key a.key _)
    cases hn with
    | write =>
      refine ⟨?_, fun h => h.2.1 (hd ▸ hown)⟩
      intro n k hp
      rcases hp with hp | ⟨wake, hp⟩
      · cases hp
        exact hown
      · cases hp
    | wait hm => rw [hmode] at hm; cases hm
    | abort hm => rw [hmode] at hm; cases hm
  | arrived => exact ended _ _
  | polled hp => exact absurd hp.waits hwaits
  | slept hp => exact absurd hp.waits hwaits
  | stored hp _ _ _ _ ha =>
    have hown := own_of_not_misled hm hp
    refine ⟨by simp [Captured], fun h => h.2.1 ?_⟩
    rw [hw.stored ha]
    exact hown
  | retried hp hq =>
    have hown := own_of_not_misled hm hp
    refine ⟨?_, fun h => h.2.1 ?_⟩
    · rintro n' k' (hp' | ⟨wake, hp'⟩) <;> cases hp'
      exact hc.of_tries hp
    · rw [hq.registry]
      exact hown
  | exhausted => exact ⟨by simp [Captured], fun h => by simp [Misled, isOver] at h⟩
  | gone => exact ended _ _
  | denied => exact ended _ _
  | failed => exact ended _ _

end Attempt

/-! ## Computed targets -/

namespace Scene

variable {s : Settings} {w : World} {moves : List Move}

/-- A trigger of a run computed a target for a workload. -/
def Computed (s : Settings) (w : World) (moves : List Move) (x : Workload) (target : Target) :
    Prop :=
  ∃ before t after, moves = before ++ .trigger t :: after ∧ ((idle w).run s before).isAtRest ∧
    t.Computes s ((idle w).run s before).world x target

/-- A count is a target that a trigger of a run computed for a workload. -/
def Own (s : Settings) (w : World) (moves : List Move) (id : WorkloadId) (n : Int) : Prop :=
  ∃ x target, Computed s w moves x target ∧ x.id = id ∧ target.replicas = n

theorem computed_concat {m : Move} {x : Workload} {target : Target} :
    Computed s w (moves ++ [m]) x target ↔ Computed s w moves x target ∨
      ∃ t, m = .trigger t ∧ ((idle w).run s moves).isAtRest ∧
        t.Computes s ((idle w).run s moves).world x target := by
  constructor
  · rintro ⟨before, t, after, hm, hc⟩
    rcases List.eq_nil_or_concat after with rfl | ⟨after, m', rfl⟩
    · obtain ⟨rfl, rfl⟩ := List.append_singleton_inj.1 hm
      exact .inr ⟨t, rfl, hc⟩
    · rw [List.concat_eq_append, ← List.cons_append, ← List.append_assoc] at hm
      exact .inl ⟨before, t, after, (List.append_singleton_inj.1 hm).1, hc⟩
  · rintro (⟨before, t, after, rfl, hc⟩ | ⟨t, rfl, hc⟩)
    · exact ⟨before, t, after ++ [m], by rw [List.append_assoc, List.cons_append], hc⟩
    · exact ⟨moves, t, [], rfl, hc⟩

theorem Own.concat {id : WorkloadId} {n : Int} (h : Own s w moves id n) (m : Move) :
    Own s w (moves ++ [m]) id n := by
  obtain ⟨x, target, hc, hid, hn⟩ := h
  exact ⟨x, target, computed_concat.2 (.inl hc), hid, hn⟩

/-- Only triggers compute targets. -/
theorem own_concat_of_ne {m : Move} (hm : ∀ t, m ≠ .trigger t) {id : WorkloadId} {n : Int} :
    Own s w (moves ++ [m]) id n ↔ Own s w moves id n := by
  refine ⟨fun h => ?_, fun h => h.concat m⟩
  obtain ⟨x, target, hc, hid, hn⟩ := h
  rcases computed_concat.1 hc with hc | ⟨t, rfl, -⟩
  · exact ⟨x, target, hc, hid, hn⟩
  · exact absurd rfl (hm t)

/-- Others bring no reactions that claim anything. -/
def PlainMoves (moves : List Move) : Prop := ∀ v, .others v ∈ moves → v.IsPlain

/-- Every target in the registry was computed for a workload of its key, and every attempt was
launched for a target of its own workload. -/
structure Sourced (s : Settings) (w : World) (moves : List Move) (sc : Scene) : Prop where
  filed : sc.world.registry.Filed
  plain : sc.world.IsPlain
  entries : ∀ key n, sc.world.registry.target? key = some n →
    ∃ x target, Computed s w moves x target ∧ x.key = key ∧ target.replicas = n
  targets : ∀ a ∈ sc.attempts, ∃ x, Computed s w moves x a.target ∧ x.id = a.item.id
  rapid : ∀ a ∈ sc.attempts, ¬ a.Waits

theorem Sourced.mono {sc : Scene} (h : Sourced s w moves sc) (m : Move) :
    Sourced s w (moves ++ [m]) sc where
  filed := h.filed
  plain := h.plain
  entries := by
    intro key n hn
    obtain ⟨x, target, hc, hx⟩ := h.entries key n hn
    exact ⟨x, target, computed_concat.2 (.inl hc), hx⟩
  targets := by
    intro a ha
    obtain ⟨x, hc, hx⟩ := h.targets a ha
    exact ⟨x, computed_concat.2 (.inl hc), hx⟩
  rapid := h.rapid

theorem Sourced.next_trigger (h : Sourced s w moves ((idle w).run s moves)) (t : Trigger) :
    Sourced s w (moves ++ [.trigger t]) (((idle w).run s moves).next s (.trigger t)) := by
  by_cases hr : ((idle w).run s moves).isAtRest
  · rw [Scene.next_trigger hr]
    have hnew : ∀ x target, t.Computes s ((idle w).run s moves).world x target →
        Computed s w (moves ++ [.trigger t]) x target :=
      fun x target hc => computed_concat.2 (.inr ⟨t, rfl, hr, hc⟩)
    have hold := h.mono (.trigger t)
    have hplain := h.plain.of_rules (t.fire_booked s ((idle w).run s moves).world).rules
    rcases t.fire_plan s h.filed with hplan | ⟨id, rfl, -, hl, hreg⟩
    · refine ⟨hplan.filed h.filed, hplain, ?_, ?_, ?_⟩
      · intro key n hn
        rcases hplan.target? hn with hn | ⟨x, target, hc, hx⟩
        · exact hold.entries key n hn
        · exact ⟨x, target, hnew x target hc, hx⟩
      · intro a ha
        rcases List.mem_append.1 ha with ha | ha
        · exact hold.targets a ha
        · obtain ⟨l, hl, rfl⟩ := List.mem_map.1 ha
          obtain ⟨x, hc, hx, -⟩ := hplan.launched hl
          exact ⟨x, hnew x l.2 hc, hx⟩
      · intro a ha
        rcases List.mem_append.1 ha with ha | ha
        · exact h.rapid a ha
        · obtain ⟨l, hl, rfl⟩ := List.mem_map.1 ha
          simp [Attempt.Waits, Attempt.launch]
    · rw [hl, List.map_nil, List.append_nil]
      refine ⟨?_, hplain, ?_, hold.targets, h.rapid⟩
      · show Registry.Filed (World.registry _)
        rw [hreg]
        exact h.filed.erase id.key
      · intro key n hn
        rw [hreg] at hn
        exact hold.entries key n (Registry.target?_of_erase hn)
  · simpa [next, hr] using h.mono (.trigger t)

theorem Sourced.next_attempt (hmode : s.config.mode = .rapid) {sc : Scene}
    (h : Sourced s w moves sc) (i : Nat) :
    Sourced s w (moves ++ [.attempt i]) (sc.next s (.attempt i)) := by
  have hold := h.mono (.attempt i)
  rcases sc.next_attempt_cases s i with ⟨a, ha, -, hn⟩ | hn
  · rw [hn]
    have hmem := List.mem_of_getElem? ha
    obtain ⟨y, hy, hyid⟩ := hold.targets a hmem
    refine ⟨a.step_filed s h.filed, h.plain.of_rules (a.step_rules s _), ?_, ?_, ?_⟩
    · intro key n hn
      rcases a.step_target? s (.inl h.plain) hn with hn | ⟨rfl, rfl⟩
      · exact hold.entries key n hn
      · exact ⟨y, a.target, hy, congrArg WorkloadId.key hyid, rfl⟩
    · intro b hb
      rcases List.mem_or_eq_of_mem_set hb with hb | rfl
      · exact hold.targets b hb
      · rw [a.step_target, a.step_item]
        exact ⟨y, hy, hyid⟩
    · intro b hb
      rcases List.mem_or_eq_of_mem_set hb with hb | rfl
      · exact h.rapid b hb
      · exact Attempt.step_not_waits hmode (h.rapid a hmem)
  · rw [hn]
    exact hold

theorem Sourced.next_others {sc : Scene} (h : Sourced s w moves sc) {v : World} (hv : v.IsPlain) :
    Sourced s w (moves ++ [.others v]) (sc.next s (.others v)) := by
  have hold := h.mono (.others v)
  by_cases hr : sc.isAtRest
  · rw [Scene.next_others hr]
    exact ⟨h.filed, hv, hold.entries, hold.targets, h.rapid⟩
  · simpa [next, hr] using hold

/-- **In rapid mode every target in the registry was computed for a workload of its key.** -/
theorem sourced_run (hmode : s.config.mode = .rapid) (hw : w.IsPlain) (hm : PlainMoves moves) :
    Sourced s w moves ((idle w).run s moves) := by
  induction moves using List.reverseRecOn with
  | nil =>
    exact ⟨Registry.filed_empty, hw, fun _ _ h => (nomatch h), fun _ h => (nomatch h),
      fun _ h => (nomatch h)⟩
  | append_singleton moves m ih =>
    have ih := ih fun v hv => hm v (List.mem_append_left _ hv)
    rw [run_concat]
    cases m with
    | trigger t => exact ih.next_trigger t
    | attempt i => exact ih.next_attempt hmode i
    | others v => exact ih.next_others (hm v (by simp))

/-! ## Runs without misled attempts -/

/-- The attempt follows a target that no trigger of the run computed for its workload. -/
def Misled (s : Settings) (w : World) (moves : List Move) (a : Attempt) : Prop :=
  a.Misled (Own s w moves a.item.id) ((idle w).run s moves).world.registry

/-- Whenever others have their turn, no attempt is misled. -/
def Honest (s : Settings) (w : World) : List Move → Prop :=
  Throughout fun before _ => ((idle w).run s before).isAtRest →
    ∀ a ∈ ((idle w).run s before).attempts, ¬ Misled s w before a

/-- Every count that an attempt writes is a target of the workload that it writes it to. -/
def Owned (s : Settings) (w : World) : List Move → Prop :=
  Throughout fun before m => ∀ i id n, m = .attempt i →
    ((idle w).run s before).Writes s i id n → Own s w before id n

/-- What an attempt is about to write is a target of its workload. -/
def Captured (s : Settings) (w : World) (moves : List Move) (a : Attempt) : Prop :=
  a.Captured (Own s w moves a.item.id)

theorem Captured.concat {a : Attempt} (h : Captured s w moves a) (m : Move) :
    Captured s w (moves ++ [m]) a :=
  Attempt.Captured.mono h fun _ ho => ho.concat m

/-- A step of an attempt that is not misled captures targets of its workload only, and leaves the
attempt so. -/
theorem stepped_heeds (hmode : s.config.mode = .rapid) (hw : w.IsPlain) (hm : PlainMoves moves)
    {i : Nat} {a : Attempt} (ha : ((idle w).run s moves).attempts[i]? = some a)
    (hf : ((idle w).run s moves).isFreeFor i) (hc : Captured s w moves a)
    (hn : ¬ Misled s w moves a) :
    ∃ a', ((idle w).run s (moves ++ [.attempt i])).attempts =
        ((idle w).run s moves).attempts.set i a' ∧
      a'.item = a.item ∧ Captured s w (moves ++ [.attempt i]) a' ∧
      ¬ Misled s w (moves ++ [.attempt i]) a' := by
  have hsource := sourced_run hmode hw hm
  have hwaits := hsource.rapid a (List.mem_of_getElem? ha)
  have hheeds := Attempt.step_heeds hmode hsource.plain hwaits hc hn
  rw [run_concat, Scene.next_attempt ha hf]
  refine ⟨_, rfl, a.step_item s _, ?_, ?_⟩
  · unfold Captured
    rw [a.step_item]
    exact hheeds.1.mono fun _ ho => ho.concat _
  · unfold Misled
    rw [a.step_item, run_concat, Scene.next_attempt ha hf]
    exact fun h => hheeds.2 (h.mono fun _ ho => ho.concat _)

theorem not_misled_concat {a : Attempt} {m : Move} (h : ¬ Misled s w moves a)
    (hr : ((idle w).run s (moves ++ [m])).world.registry =
      ((idle w).run s moves).world.registry) : ¬ Misled s w (moves ++ [m]) a := by
  unfold Misled
  rw [hr]
  exact fun hn => h (hn.mono fun _ ho => ho.concat m)

/-- The attempt captured targets of its workload only, and is misled at most while it leaves the
turn to others. -/
structure Heeds (s : Settings) (w : World) (moves : List Move) (a : Attempt) : Prop where
  captured : Captured s w moves a
  honest : a.isAtRest = false → ¬ Misled s w moves a

theorem Heeds.of_rest {a : Attempt} (h : Captured s w moves a) (hr : a.isAtRest = true) :
    Heeds s w moves a :=
  ⟨h, fun hn => absurd hr (by simp [hn])⟩

theorem Heeds.concat {a : Attempt} (h : Heeds s w moves a) {m : Move}
    (hr : ((idle w).run s (moves ++ [m])).world.registry =
      ((idle w).run s moves).world.registry) : Heeds s w (moves ++ [m]) a :=
  ⟨h.captured.concat m, fun hn => not_misled_concat (h.honest hn) hr⟩

/-- Every attempt of a run heeds the targets of its workload. -/
def AllHeed (s : Settings) (w : World) (moves : List Move) : Prop :=
  ∀ a ∈ ((idle w).run s moves).attempts, Heeds s w moves a

theorem AllHeed.same (h : AllHeed s w moves) {m : Move}
    (hm : ((idle w).run s moves).next s m = (idle w).run s moves) :
    AllHeed s w (moves ++ [m]) := by
  intro a ha
  rw [run_concat, hm] at ha
  refine (h a ha).concat ?_
  rw [run_concat, hm]

theorem AllHeed.next_trigger (h : AllHeed s w moves) (t : Trigger) :
    AllHeed s w (moves ++ [.trigger t]) := by
  by_cases hr : ((idle w).run s moves).isAtRest
  · intro a ha
    rw [run_concat, Scene.next_trigger hr] at ha
    rcases List.mem_append.1 ha with ha | ha
    · exact .of_rest ((h a ha).captured.concat _) (List.all_eq_true.1 hr a ha)
    · obtain ⟨l, -, rfl⟩ := List.mem_map.1 ha
      exact .of_rest (by simp [Captured, Attempt.Captured, Attempt.launch]) rfl
  · exact h.same (by simp [next, hr])

theorem AllHeed.next_others (h : AllHeed s w moves) (v : World) :
    AllHeed s w (moves ++ [.others v]) := by
  by_cases hr : ((idle w).run s moves).isAtRest
  · intro a ha
    rw [run_concat, Scene.next_others hr] at ha
    exact .of_rest ((h a ha).captured.concat _) (List.all_eq_true.1 hr a ha)
  · exact h.same (by simp [next, hr])

/-- The attempt that takes a step still heeds the targets of its workload; the others are at
rest. -/
theorem AllHeed.next_attempt (hmode : s.config.mode = .rapid) (hw : w.IsPlain)
    (hm : PlainMoves moves) (h : AllHeed s w moves)
    (hrest : ((idle w).run s moves).isAtRest →
      ∀ a ∈ ((idle w).run s moves).attempts, ¬ Misled s w moves a) (i : Nat) :
    AllHeed s w (moves ++ [.attempt i]) := by
  rcases ((idle w).run s moves).next_attempt_cases s i with ⟨a, ha, hf, -⟩ | hsame
  · have hmem := List.mem_of_getElem? ha
    have hnot : ¬ Misled s w moves a := by
      cases hr : a.isAtRest with
      | true => exact hrest (isAtRest_of_isFreeFor ha hf hr) a hmem
      | false => exact (h a hmem).honest hr
    obtain ⟨a', hset, -, hc', hn'⟩ := stepped_heeds hmode hw hm ha hf (h a hmem).captured hnot
    obtain ⟨before, after, hsplit, herase, hsets⟩ := exists_around ha
    have hother : ∀ b ∈ before ++ after, Heeds s w (moves ++ [.attempt i]) b := by
      intro b hb
      have hold : b ∈ ((idle w).run s moves).attempts := by
        rw [hsplit]
        exact List.perm_middle.mem_iff.2 (List.mem_cons_of_mem a hb)
      exact .of_rest ((h b hold).captured.concat _) (List.all_eq_true.1 hf b (herase ▸ hb))
    intro b hb
    rw [hset, hsets] at hb
    rcases List.mem_cons.1 (List.perm_middle.mem_iff.1 hb) with rfl | hb
    · exact ⟨hc', fun _ => hn'⟩
    · exact hother b hb
  · exact h.same hsame

/-- In an honest run every attempt heeds the targets of its workload. -/
theorem allHeed_run (hmode : s.config.mode = .rapid) (hw : w.IsPlain) (hm : PlainMoves moves)
    (h : Honest s w moves) : AllHeed s w moves := by
  induction moves using List.reverseRecOn with
  | nil => exact fun _ ha => nomatch ha
  | append_singleton moves m ih =>
    obtain ⟨hon, hlast⟩ := throughout_concat.1 h
    have hm' : PlainMoves moves := fun v hv => hm v (List.mem_append_left _ hv)
    have ih := ih hm' hon
    cases m with
    | trigger t => exact ih.next_trigger t
    | attempt i => exact ih.next_attempt hmode hw hm' hlast i
    | others v => exact ih.next_others v

/-- A turn writes a target of its workload if the attempt captured such targets only. -/
theorem own_of_writes {i : Nat} {id : WorkloadId} {n : Int}
    (h : ((idle w).run s moves).Writes s i id n)
    (hc : ∀ a, ((idle w).run s moves).attempts[i]? = some a → Captured s w moves a) :
    Own s w moves id n := by
  obtain ⟨a, ha, -, hstep⟩ := h.step
  obtain ⟨rfl, k, -, -, -, -, ht, -⟩ := Attempt.step_writes hstep
  exact (hc a ha).of_tries ht

/-- **Honest runs write targets of the written workloads only.** -/
theorem owned_of_honest (hmode : s.config.mode = .rapid) (hw : w.IsPlain) (hm : PlainMoves moves)
    (h : Honest s w moves) : Owned s w moves := by
  induction moves using List.reverseRecOn with
  | nil => exact throughout_nil _
  | append_singleton moves m ih =>
    obtain ⟨hon, -⟩ := throughout_concat.1 h
    have hm' : PlainMoves moves := fun v hv => hm v (List.mem_append_left _ hv)
    refine throughout_concat.2 ⟨ih hm' hon, ?_⟩
    rintro i id n - hwrites
    exact own_of_writes hwrites fun a ha =>
      (allHeed_run hmode hw hm' hon a (List.mem_of_getElem? ha)).captured

/-! ## Keys of one kind -/

/-- The workloads of one key that targets were computed for are of one kind. -/
def Unambiguous (s : Settings) (w : World) (moves : List Move) : Prop :=
  ∀ x t y u, Computed s w moves x t → Computed s w moves y u → x.key = y.key → x.kind = y.kind

theorem Computed.append {x : Workload} {target : Target} (h : Computed s w moves x target)
    (more : List Move) : Computed s w (moves ++ more) x target := by
  obtain ⟨before, t, after, rfl, hc⟩ := h
  exact ⟨before, t, after ++ more, by rw [List.append_assoc, List.cons_append], hc⟩

theorem Computed.adapters {x : Workload} {target : Target} (h : Computed s w moves x target) :
    s.adapters.contains x.kind = true := by
  obtain ⟨before, t, after, -, -, -, hk, -⟩ := h
  exact hk

/-- Where keys are of one kind, the target in force for an attempt is one of its workload. -/
theorem Sourced.own_desired {sc : Scene} (h : Sourced s w moves sc) (hu : Unambiguous s w moves)
    {a : Attempt} (ha : a ∈ sc.attempts) :
    Own s w moves a.item.id (a.desired sc.world.registry) := by
  obtain ⟨y, hy, hyid⟩ := h.targets a ha
  rw [Attempt.desired_eq]
  cases hn : sc.world.registry.target? a.key with
  | none => exact ⟨y, a.target, hy, hyid, rfl⟩
  | some n =>
    obtain ⟨x, target, hx, hkey, rfl⟩ := h.entries a.key n hn
    have hsame : x.key = y.key := hkey.trans (congrArg WorkloadId.key hyid).symm
    have hid : x.id = y.id := by
      rw [Workload.id, Workload.id, hsame, hu x target y a.target hx hy hsame]
    exact ⟨x, target, hx, hid.trans hyid, rfl⟩

/-- **Runs in which no two kinds share a key are honest.** -/
theorem honest_of_unambiguous (hmode : s.config.mode = .rapid) (hw : w.IsPlain)
    (hm : PlainMoves moves) (hu : Unambiguous s w moves) : Honest s w moves := by
  rintro before m after rfl - a ha hmis
  have hsource : Sourced s w before ((idle w).run s before) :=
    sourced_run hmode hw fun v hv => hm v (List.mem_append_left _ hv)
  have hu' : Unambiguous s w before := fun x t y u hx hy =>
    hu x t y u (hx.append _) (hy.append _)
  exact hmis.2.1 (hsource.own_desired hu' ha)

/-! ## What a misled attempt can do -/

/-- Only one attempt gets its turn, and others who bring no reactions that claim anything. -/
def Alone (i : Nat) (more : List Move) : Prop :=
  ∀ m ∈ more, m = .attempt i ∨ ∃ v : World, v.IsPlain ∧ m = .others v

theorem Alone.plain {i : Nat} {more : List Move} (h : Alone i more) (hm : PlainMoves moves) :
    PlainMoves (moves ++ more) := by
  intro v hv
  rcases List.mem_append.1 hv with hv | hv
  · exact hm v hv
  · rcases h _ hv with he | ⟨v', hv', he⟩
    · cases he
    · cases he
      exact hv'

/-- Without a trigger no target is computed. -/
theorem Alone.own {i : Nat} {more : List Move} (h : Alone i more) {id : WorkloadId} {n : Int}
    (ho : Own s w (moves ++ more) id n) : Own s w moves id n := by
  induction more using List.reverseRecOn with
  | nil => rwa [List.append_nil] at ho
  | append_singleton more m ih =>
    refine ih (fun m' hm' => h m' (List.mem_append_left _ hm')) ?_
    rw [← List.append_assoc] at ho
    refine (own_concat_of_ne fun t ht => ?_).1 ho
    rcases h m (List.mem_append_right more List.mem_cons_self) with hm | ⟨v, -, hm⟩
    · rw [hm] at ht
      cases ht
    · rw [hm] at ht
      cases ht

/-- The attempt with a number captured targets of its workload only, and is not misled. -/
def Guided (s : Settings) (w : World) (moves : List Move) (i : Nat) : Prop :=
  ∃ a, ((idle w).run s moves).attempts[i]? = some a ∧ Captured s w moves a ∧ ¬ Misled s w moves a

theorem Guided.same {i : Nat} (h : Guided s w moves i) {m : Move}
    (hm : ((idle w).run s moves).next s m = (idle w).run s moves) :
    Guided s w (moves ++ [m]) i := by
  obtain ⟨a, ha, hc, hn⟩ := h
  refine ⟨a, ?_, hc.concat m, not_misled_concat hn ?_⟩ <;> rw [run_concat, hm]
  exact ha

theorem Guided.next_attempt (hmode : s.config.mode = .rapid) (hw : w.IsPlain)
    (hm : PlainMoves moves) {i : Nat} (h : Guided s w moves i) :
    Guided s w (moves ++ [.attempt i]) i := by
  rcases ((idle w).run s moves).next_attempt_cases s i with ⟨b, hb, hf, -⟩ | hsame
  · obtain ⟨a, ha, hc, hn⟩ := h
    obtain ⟨a', hset, -, hc', hn'⟩ := stepped_heeds hmode hw hm ha hf hc hn
    have hlen := (List.getElem?_eq_some_iff.1 ha).1
    exact ⟨a', by rw [hset, List.getElem?_set_self hlen], hc', hn'⟩
  · exact h.same hsame

theorem Guided.next_others {i : Nat} (h : Guided s w moves i) (v : World) :
    Guided s w (moves ++ [.others v]) i := by
  by_cases hr : ((idle w).run s moves).isAtRest
  · obtain ⟨a, ha, hc, hn⟩ := h
    refine ⟨a, ?_, hc.concat _, not_misled_concat hn ?_⟩ <;> rw [run_concat, Scene.next_others hr]
    · exact ha
    · rfl
  · exact h.same (by simp [next, hr])

/-- An attempt that is not misled writes targets of its workload only, as long as no trigger
revises its target. -/
theorem owned_alone (hmode : s.config.mode = .rapid) (hw : w.IsPlain) (hm : PlainMoves moves)
    {i : Nat} (ho : Owned s w moves) (hg : Guided s w moves i) {more : List Move}
    (hmore : Alone i more) : Owned s w (moves ++ more) ∧ Guided s w (moves ++ more) i := by
  induction more using List.reverseRecOn with
  | nil =>
    rw [List.append_nil]
    exact ⟨ho, hg⟩
  | append_singleton more m ih =>
    have hmore' : Alone i more := fun m' hm' => hmore m' (List.mem_append_left _ hm')
    obtain ⟨ho, hg⟩ := ih hmore'
    have hm' := hmore'.plain hm
    rw [← List.append_assoc]
    rcases hmore m (List.mem_append_right more List.mem_cons_self) with rfl | ⟨v, -, rfl⟩
    · refine ⟨throughout_concat.2 ⟨ho, ?_⟩, hg.next_attempt hmode hw hm'⟩
      rintro j id n hj hwrites
      cases hj
      obtain ⟨a, ha, hc, -⟩ := hg
      refine own_of_writes hwrites fun b hb => ?_
      obtain rfl := Option.some.inj (ha.symm.trans hb)
      exact hc
    · exact ⟨throughout_concat.2 ⟨ho, nofun⟩, hg.next_others v⟩

/-- The attempt with a number is about to decide on a count that a workload does not have, and
nothing stands in the way of writing it. -/
def Poised (sc : Scene) (i : Nat) (id : WorkloadId) (n : Int) : Prop :=
  ∃ a x, sc.attempts[i]? = some a ∧ sc.isFreeFor i ∧ a.phase = .deciding ∧ a.item.id = id ∧
    x.id = id ∧ a.desired sc.world.registry = n ∧ a.current.spec ≠ n ∧ sc.world.Grants x

/-- An attempt that is poised writes after one more step. -/
theorem Poised.writes (hmode : s.config.mode = .rapid) {sc : Scene} {i : Nat} {id : WorkloadId}
    {n : Int} (h : sc.Poised i id n) : (sc.next s (.attempt i)).Writes s i id n := by
  obtain ⟨a, x, ha, hf, hp, rfl, hid, rfl, hne, hg⟩ := h
  obtain ⟨ha₁, hf₁, hw₁⟩ := next_attempt_self (s := s) ha hf
  rw [Attempt.step_decide hmode hp hne] at ha₁ hw₁
  have hg₁ : (sc.next s (.attempt i)).world.Grants x := hw₁ ▸ hg.registry _
  obtain ⟨new, w', hstep, -, -, -, -, hhist, -⟩ :=
    Attempt.step_of_grants s (a := { a with phase := .writing (a.desired sc.world.registry) 0 })
      hg₁ hid.symm (.inl rfl)
  unfold Writes
  rw [(next_attempt_self (s := s) ha₁ hf₁).2.2, hstep, hhist, hid]

section Poised

variable {sc : Scene} {i : Nat} {a : Attempt} {own : Int → Prop}

/-- An attempt at rest finds what others made of the world. -/
theorem next_others_for (hr : sc.isAtRest) (ha : sc.attempts[i]? = some a) (v : World) :
    (sc.next s (.others v)).attempts[i]? = some a ∧ (sc.next s (.others v)).isFreeFor i ∧
      (sc.next s (.others v)).world = sc.world.changedTo v := by
  rw [next_others hr]
  exact ⟨ha, isFreeFor_of_isAtRest hr i, rfl⟩

/-- An attempt that has not started and would follow another target than its own can be brought to
decide on it. -/
theorem poised_of_starting (hr : sc.isAtRest) (ha : sc.attempts[i]? = some a)
    (hp : a.phase = .starting) (hadapter : s.adapters.contains a.item.kind = true)
    (hentry : sc.world.registry.contains a.key = true)
    (hne : a.current.spec ≠ a.desired sc.world.registry) :
    ∃ v : World, v.IsPlain ∧ ((sc.next s (.others v)).next s (.attempt i)).Poised i a.item.id
      (a.desired sc.world.registry) := by
  let x := Workload.sample a.item.id "1"
  let v : World := { World.holding [x] with now := 0 }
  obtain ⟨ha', hf', hw'⟩ := next_others_for (s := s) hr ha v
  have hg := sc.world.grants_holding a.item.id "1" 0
  have hstep := Attempt.step_begin (s := s) (w := sc.world.changedTo v) hp hentry hadapter
  obtain ⟨hb, hf, hworld⟩ := next_attempt_self (s := s) ha' hf'
  rw [hw', hstep] at hb hworld
  refine ⟨v, nofun, _, x, hb, hf, rfl, rfl, rfl, ?_, hne, ?_⟩
  · rw [hworld]
    exact a.desired_marked sc.world.registry
  · rw [hworld]
    exact hg.registry _

/-- An attempt that backs off before it writes another count than the target in force can be brought
to write it, and to decide on the target then. -/
theorem poised_of_backingOff (hr : sc.isAtRest) (ha : sc.attempts[i]? = some a) {n : Int} {k : Nat}
    {wake : Alarm} (hp : a.phase = .backingOff n k wake)
    (hne : n ≠ a.desired sc.world.registry) :
    ∃ v : World, v.IsPlain ∧ ((sc.next s (.others v)).next s (.attempt i)).Poised i a.item.id
      (a.desired sc.world.registry) := by
  let x := Workload.sample a.item.id "1"
  let v : World := { World.holding [x] with now := wake.due }
  obtain ⟨ha', hf', hw'⟩ := next_others_for (s := s) hr ha v
  have hg := sc.world.grants_holding a.item.id "1" wake.due
  obtain ⟨new, w', hstep, hspec, hid, hversion, hreg, -, hg'⟩ :=
    Attempt.step_of_grants s (a := a) hg rfl (.inr ⟨wake, hp, Nat.le_max_right _ _⟩)
  obtain ⟨hb, hf, hworld⟩ := next_attempt_self (s := s) ha' hf'
  rw [hw', hstep] at hb hworld
  refine ⟨v, nofun, _, new, hb, hf, rfl, rfl, hid, ?_, ?_, ?_⟩
  · rw [hworld, hreg]
    rfl
  · show new.spec ≠ _
    rw [hspec]
    exact hne
  · rw [hworld]
    refine hg' ?_
    rw [hversion]
    show 0 + 1 + 1 < versionBound
    decide

/-- A misled attempt at rest can be brought to decide on the target that is none of its
workload. -/
theorem exists_poised (hr : sc.isAtRest) (ha : sc.attempts[i]? = some a) (hwaits : ¬ a.Waits)
    (hadapter : s.adapters.contains a.item.kind = true) (ht : own a.target.replicas)
    (hc : a.Captured own) (hmis : a.Misled own sc.world.registry) :
    ∃ v : World, v.IsPlain ∧ ((sc.next s (.others v)).next s (.attempt i)).Poised i a.item.id
      (a.desired sc.world.registry) := by
  obtain ⟨hover, hnot, hne⟩ := hmis
  have hrest : a.isAtRest = true := List.all_eq_true.1 hr a (List.mem_of_getElem? ha)
  cases hp : a.phase with
  | starting =>
    exact poised_of_starting hr ha hp hadapter (Attempt.contains_of_not_own hnot ht) (hne (.inl hp))
  | backingOff n k wake =>
    refine poised_of_backingOff hr ha hp ?_
    rintro rfl
    exact hnot (hc _ k (.inr ⟨wake, hp⟩))
  | deciding => simp [Attempt.isAtRest, hp] at hrest
  | polling => simp [Attempt.isAtRest, hp] at hrest
  | waiting wait wake => exact absurd ⟨wait, .inr ⟨wake, hp⟩⟩ hwaits
  | writing => simp [Attempt.isAtRest, hp] at hrest
  | ended => simp [Attempt.isOver, hp] at hover
  | aborted => simp [Attempt.isOver, hp] at hover

end Poised

/-- **An attempt that is misled and leaves the turn to others can come to write a count that is no
target of its workload.** -/
theorem exists_not_owned (hmode : s.config.mode = .rapid) (hw : w.IsPlain) (hm : PlainMoves moves)
    (hr : ((idle w).run s moves).isAtRest) {i : Nat} {a : Attempt}
    (ha : ((idle w).run s moves).attempts[i]? = some a) (hc : Captured s w moves a)
    (hmis : Misled s w moves a) : ∃ more, Alone i more ∧ ¬ Owned s w (moves ++ more) := by
  have hsource := sourced_run hmode hw hm
  have hmem := List.mem_of_getElem? ha
  obtain ⟨y, hy, hyid⟩ := hsource.targets a hmem
  have hadapter : s.adapters.contains a.item.kind = true := by
    rw [← show y.kind = a.item.kind from congrArg WorkloadId.kind hyid]
    exact hy.adapters
  obtain ⟨v, hv, hpoised⟩ :=
    exists_poised hr ha (hsource.rapid a hmem) hadapter ⟨y, a.target, hy, hyid, rfl⟩ hc hmis
  have halone : Alone i [.others v, .attempt i, .attempt i] := by simp [Alone, hv]
  refine ⟨[.others v, .attempt i, .attempt i, .attempt i], by simp [Alone, hv], fun ho => ?_⟩
  have hwrites := hpoised.writes hmode
  rw [← run_concat, ← run_concat, ← run_concat, List.append_assoc, List.append_assoc] at hwrites
  have hown := ho _ (.attempt i) [] (by simp) i _ _ rfl hwrites
  exact hmis.2.1 (halone.own hown)

/-- **In rapid mode the counts that attempts write are targets of the written workloads as long as
no attempt is misled; an attempt that leaves the turn to others writes such targets only, until a
trigger revises its target, if and only if it is not misled; and where no two kinds of workloads
share a key, no attempt is misled.** -/
theorem owned_iff_not_misled (hmode : s.config.mode = .rapid) (hw : w.IsPlain)
    (hm : PlainMoves moves) :
    (Honest s w moves → Owned s w moves ∧
      (((idle w).run s moves).isAtRest →
        ∀ i a, ((idle w).run s moves).attempts[i]? = some a →
          ((∀ more, Alone i more → Owned s w (moves ++ more)) ↔ ¬ Misled s w moves a))) ∧
    (Unambiguous s w moves → Honest s w moves) := by
  refine ⟨fun h => ?_, honest_of_unambiguous hmode hw hm⟩
  have howned := owned_of_honest hmode hw hm h
  refine ⟨howned, fun hr i a ha => ?_⟩
  have hc := (allHeed_run hmode hw hm h a (List.mem_of_getElem? ha)).captured
  constructor
  · intro hall hmis
    obtain ⟨more, halone, hnot⟩ := exists_not_owned hmode hw hm hr ha hc hmis
    exact hnot (hall more halone)
  · intro hn more halone
    exact (owned_alone hmode hw hm howned ⟨a, ha, hc, hn⟩ halone).1

/-- In a run with one trigger at its start, that trigger computed all targets. -/
theorem Computed.of_cons {t : Trigger} {more : List Move} {x : Workload} {target : Target}
    (h : Computed s w (.trigger t :: more) x target) (hmore : ∀ u, .trigger u ∉ more) :
    t.Computes s (idle w).world x target := by
  obtain ⟨before, u, after, hm, -, hc⟩ := h
  cases before with
  | nil =>
    cases hm
    exact hc
  | cons m before =>
    obtain ⟨rfl, rfl⟩ := List.cons.inj hm
    exact absurd (List.mem_append_right before List.mem_cons_self) (hmore u)

/-- A cycle and an attempt for one workload. -/
theorem owned_iff_not_misled_one_workload :
    let x := Workload.sample ⟨.deployment, "shop", "api"⟩ "3"
    let moves : List Move := [.trigger (.cycle "shop"), .attempt 0, .attempt 0, .attempt 0]
    ((idle (.holding [x])).run (.standard .rapid) moves).world.cluster.history = [(x.id, 3)] ∧
      Owned (.standard .rapid) (.holding [x]) moves := by
  intro x moves
  have hm : PlainMoves moves := by simp [PlainMoves, moves]
  have hkind : ∀ y t, Computed (.standard .rapid) (.holding [x]) moves y t →
      y.kind = .deployment := by
    intro y t hy
    have hget : (Inventory.put ∅ x).get? y.id = some y := (hy.of_cons (by simp)).1
    rw [Inventory.get?_put] at hget
    split at hget
    · exact congrArg WorkloadId.kind ‹_›
    · cases hget
  obtain ⟨howned, hhonest⟩ :=
    owned_iff_not_misled (s := .standard .rapid) (w := .holding [x]) rfl nofun hm
  refine ⟨by decide +kernel, (howned (hhonest ?_)).1⟩
  intro y t z u hy hz _
  rw [hkind y t hy, hkind z u hz]

/-- A cycle revises the target of the attempt for one workload with the one of another kind. -/
theorem not_owned_two_kinds :
    let x := Workload.sample ⟨.deployment, "shop", "api"⟩ "3"
    let y := Workload.sample ⟨.redisCluster, "shop", "api"⟩ "7"
    ¬ Owned (.standard .rapid) (.holding [x, y])
      [.trigger (.cycle "shop"), .attempt 0, .attempt 0, .attempt 0] := by
  intro x y ho
  obtain ⟨z, target, hc, hid, hn⟩ := ho [.trigger (.cycle "shop"), .attempt 0, .attempt 0]
    (.attempt 0) [] rfl 0 x.id 7 rfl (by unfold Writes; decide +kernel)
  obtain ⟨hget, -, ⟨state, hres, ht⟩, -⟩ := hc.of_cons (by simp)
  obtain rfl := World.eq_of_resolves_holding hres
  obtain rfl : x = z := by
    have hx : (idle (.holding [x, y])).world.cluster.inventory.get? x.id = some x := by
      decide +kernel
    rw [hid, hx] at hget
    exact Option.some.inj hget
  have htarget : x.targetFor ⟨"up", 0⟩ = .ok ⟨"up", 3⟩ := by decide +kernel
  rw [htarget] at ht
  cases ht
  cases hn

end Scene

end ReplicaControl
