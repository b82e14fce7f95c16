import ReplicaControl.Proofs.InFlight
import ReplicaControl.Proofs.Ranges
import ReplicaControl.Proofs.Runs

/-!
# Attempts that overflow

An attempt breaks off without a record of its ending where its arithmetic leaves a 64 bit word, and
nowhere else.

* `Attempt.OverrunsLimit` — the time limit of a wait is too long.  `not_overrunsLimit`: never, if
  the time beyond the progress deadline leaves room for every deadline.
* `Attempt.OverrunsVersion` — the count is to be written to a workload with the largest version.
* `Attempt.step_aborted_iff`, `Scene.unbroken_run_iff` — these are the steps, and the turns of a
  run, with which an attempt breaks off.
* `Scene.recorded_iff_not_overflows` — in every run all numbers stay in range; as long as no turn
  overflows, and only then, every attempt that is over has recorded its ending and no key stays in
  flight without an attempt.
-/

namespace ReplicaControl

/-- A write of a workload that was read just now ends the writer if it reaches the cluster and the
version is the largest one. -/
theorem World.store_exhausted_iff {w : World} {live : Workload} (n : Int)
    (hget : w.cluster.inventory.get? live.id = some live) :
    (w.store { live with spec := n }).1 = .exhausted ↔
      (w.intercept .update).1 = none ∧ w.cluster.pendingConflicts = 0 ∧
        versionBound ≤ live.version + 1 := by
  have ha := w.intercept_asked .update
  unfold store storeThrough
  rcases hi : w.intercept .update with ⟨_ | fault, w₁⟩
  · rw [hi] at ha
    obtain ⟨faults, rfl⟩ := ha
    dsimp only
    rw [if_pos rfl]
    rcases w.cluster.write_cases { live with spec := n } with
      ⟨e, m, heq⟩ | ⟨old, hzero, hold, -, hbound, heq⟩ | ⟨old, hzero, hold, -, hbound, heq⟩
    · have hrefused : ¬ (w.cluster.pendingConflicts = 0 ∧ versionBound ≤ live.version + 1) := by
        rintro ⟨hzero, hbound⟩
        have hexhausted : (w.cluster.write { live with spec := n }).1 = .exhausted := by
          have hget : w.cluster.inventory.get? ({ live with spec := n } : Workload).id =
            some live := hget
          simp [Cluster.write, hzero, hget, Nat.not_lt.2 hbound]
        rw [heq] at hexhausted
        cases hexhausted
      rw [heq]
      exact iff_of_false (by simp) fun h => hrefused h.2
    · obtain rfl := Option.some.inj (hget.symm.trans hold)
      rw [heq]
      exact iff_of_false (by simp) fun h => Nat.not_lt.2 h.2.2 hbound
    · obtain rfl := Option.some.inj (hget.symm.trans hold)
      rw [heq]
      exact iff_of_true rfl ⟨rfl, hzero, Nat.not_lt.1 hbound⟩
  · exact iff_of_false (by simp) (by simp)

namespace Attempt

variable {s : Settings} {a : Attempt} {w : World}

/-- With its next step the attempt computes a time limit that is no 64 bit number of seconds. -/
def OverrunsLimit (s : Settings) (a : Attempt) (w : World) : Prop :=
  a.phase = .deciding ∧ a.current.spec ≠ a.desired w.registry ∧ s.config.mode = .step ∧
    Duration.wordBound ≤ (a.limit s).millis / 1000

/-- The write of a count to a workload is let through and reaches the cluster. -/
def Reaches (a : Attempt) (w : World) (n : Int) (live : Workload) : Prop :=
  (w.fetch a.item.id).1 = .ok live ∧ live.isOptedIn = true ∧
    ((w.fetch a.item.id).2.admission live.key.ns (Quota.itemNeed live n)).1 = .ok .allowed ∧
    (((w.fetch a.item.id).2.admission live.key.ns (Quota.itemNeed live n)).2.intercept .update).1 =
      none ∧
    w.cluster.pendingConflicts = 0

/-- With its next step the attempt writes to a workload whose version cannot be raised. -/
def OverrunsVersion (a : Attempt) (w : World) : Prop :=
  ∃ n k live, a.Tries w n k ∧ a.Reaches w n live ∧ versionBound ≤ live.version + 1

/-- With its next step the attempt's arithmetic leaves a 64 bit word. -/
def Overflows (s : Settings) (a : Attempt) (w : World) : Prop :=
  a.OverrunsLimit s w ∨ a.OverrunsVersion w

theorem conclude_ne_aborted (e : Ending) : (a.conclude w e).1.phase ≠ .aborted := nofun

/-- A limit fits if the time beyond the deadline leaves room for the largest deadline. -/
theorem not_overrunsLimit (hslack : s.timings.stepSlack.millis / 1000 + 4294967296 ≤
    Duration.wordBound) (ha : a.current.progressDeadline < 4294967296) : ¬ a.OverrunsLimit s w := by
  rintro ⟨-, -, -, hlimit⟩
  have hmillis : (a.limit s).millis =
      a.current.progressDeadline * 1000 + s.timings.stepSlack.millis := rfl
  rw [hmillis] at hlimit
  omega

theorem decide_aborted_iff (hp : a.phase = .deciding) :
    (a.decide s w).1.phase = .aborted ↔ a.OverrunsLimit s w := by
  unfold OverrunsLimit decide
  dsimp only
  split
  · rename_i heq
    exact iff_of_false (conclude_ne_aborted _) fun h => h.2.1 heq
  · rename_i hne
    split
    · rename_i hmode
      rw [hmode]
      exact iff_of_false nofun nofun
    · rename_i hmode
      split
      · rename_i hlimit
        refine iff_of_false nofun fun h => Nat.not_lt.2 h.2.2.2 ?_
        exact of_decide_eq_true hlimit
      · rename_i hlimit
        refine iff_of_true rfl ⟨hp, hne, hmode, Nat.not_lt.1 fun h => hlimit ?_⟩
        exact decide_eq_true h

theorem retry_ne_aborted {n : Int} {k : Nat} : (a.retry s w n k).1.phase ≠ .aborted := by
  unfold retry
  split
  · exact nofun
  · exact conclude_ne_aborted _

theorem poll_ne_aborted {wait : Wait} : (a.poll s w wait).1.phase ≠ .aborted := by
  rcases a.poll_phase s w wait with ⟨e, hpoll⟩ | ⟨live, -, hpoll⟩ | ⟨ticket, wake, hpoll⟩
  · simp [hpoll]
  · rw [hpoll]
    split <;> simp
  · simp [hpoll]

theorem store_aborted_iff {live : Workload} {n : Int} {k : Nat} :
    (a.store s w live n k).1.phase = .aborted ↔
      (w.store { live with spec := n }).1 = .exhausted := by
  unfold store
  rcases w.store { live with spec := n } with ⟨new | e | _, w₁⟩
  · exact iff_of_false (by simp) (by simp)
  · cases e with
    | notFound => exact iff_of_false (conclude_ne_aborted _) nofun
    | conflict => exact iff_of_false retry_ne_aborted nofun
    | other => exact iff_of_false (conclude_ne_aborted _) nofun
  · exact iff_of_true rfl rfl

theorem write_aborted_iff {n : Int} {k : Nat} :
    (a.write s w n k).1.phase = .aborted ↔
      ∃ live, a.Reaches w n live ∧ versionBound ≤ live.version + 1 := by
  have ha := w.fetch_asked a.item.id
  unfold write Reaches
  rcases hf : w.fetch a.item.id with ⟨e | live, w₁⟩
  · refine iff_of_false ?_ fun ⟨_, h, _⟩ => nomatch h.1
    cases e <;> exact conclude_ne_aborted _
  · have hget := World.fetch_ok (congrArg Prod.fst hf)
    rw [hf] at ha
    dsimp only
    split
    · rename_i ho
      have ha₂ := ha.trans (w₁.admission_asked live.key.ns (Quota.itemNeed live n))
      rcases had : w₁.admission live.key.ns (Quota.itemNeed live n) with ⟨e | verdict, w₂⟩
      · refine iff_of_false (conclude_ne_aborted _) ?_
        rintro ⟨live', ⟨h, -, hallowed, -⟩, -⟩
        cases h
        rw [had] at hallowed
        cases hallowed
      · cases verdict with
        | denied quota shortfall =>
          refine iff_of_false (conclude_ne_aborted _) ?_
          rintro ⟨live', ⟨h, -, hallowed, -⟩, -⟩
          cases h
          rw [had] at hallowed
          cases hallowed
        | allowed =>
          rw [had] at ha₂
          have hcluster := ha₂.cluster
          dsimp only at hcluster ⊢
          rw [store_aborted_iff, World.store_exhausted_iff]
          · rw [hcluster]
            constructor
            · rintro ⟨hcut, hzero, hbound⟩
              exact ⟨live, ⟨rfl, ho, by rw [had], by rw [had]; exact hcut, hzero⟩, hbound⟩
            · rintro ⟨live', ⟨h, -, -, hcut, hzero⟩, hbound⟩
              cases h
              rw [had] at hcut
              exact ⟨hcut, hzero, hbound⟩
          · rw [hcluster, Inventory.id_of_get? hget]
            exact hget
    · rename_i ho
      refine iff_of_false (conclude_ne_aborted _) ?_
      rintro ⟨live', ⟨h, ho', -⟩, -⟩
      cases h
      exact ho ho'

/-- An attempt that tries to write a count overflows with the write only. -/
theorem overflows_iff_of_tries {n : Int} {k : Nat} (hp : a.Tries w n k) :
    a.Overflows s w ↔ ∃ live, a.Reaches w n live ∧ versionBound ≤ live.version + 1 := by
  constructor
  · rintro (⟨hd, -⟩ | ⟨n', k', live, hp', hr, hv⟩)
    · rcases hp with hp | ⟨wake, hp, -⟩ <;> cases hp.symm.trans hd
    · obtain rfl : n = n' := by
        rcases hp with hp | ⟨wake, hp, -⟩ <;> rcases hp' with hp' | ⟨wake', hp', -⟩ <;>
          cases hp.symm.trans hp' <;> rfl
      exact ⟨live, hr, hv⟩
  · rintro ⟨live, hr, hv⟩
    exact .inr ⟨n, k, live, hp, hr, hv⟩

/-- An attempt that neither decides nor tries to write a count does not overflow. -/
theorem not_overflows (hd : a.phase ≠ .deciding) (ht : ∀ n k, ¬ a.Tries w n k) :
    ¬ a.Overflows s w := by
  rintro (⟨hp, -⟩ | ⟨n, k, -, hp, -⟩)
  · exact hd hp
  · exact ht n k hp

/-- **An attempt breaks off with the steps that overflow, and with no other step.** -/
theorem step_aborted_iff (h : a.phase ≠ .aborted) :
    (a.step s w).1.phase = .aborted ↔ a.Overflows s w := by
  cases hp : a.phase with
  | starting =>
    refine iff_of_false ?_ (not_overflows (by simp [hp]) (by simp [Tries, hp]))
    simp only [step, hp]
    unfold begin
    split
    · simp
    · dsimp only
      split
      · simp
      · exact conclude_ne_aborted _
  | deciding =>
    simp only [step, hp]
    rw [decide_aborted_iff hp]
    refine ⟨.inl, fun h => h.resolve_right ?_⟩
    rintro ⟨n, k, live, ht, -⟩
    simp [Tries, hp] at ht
  | polling wait =>
    rw [step_of_polls (.inl hp)]
    exact iff_of_false poll_ne_aborted (not_overflows (by simp [hp]) (by simp [Tries, hp]))
  | waiting wait wake =>
    refine iff_of_false ?_ (not_overflows (by simp [hp]) (by simp [Tries, hp]))
    simp only [step, hp]
    split
    · exact poll_ne_aborted
    · split
      · exact conclude_ne_aborted _
      · exact h
  | writing n k =>
    rw [overflows_iff_of_tries (.inl hp), ← write_aborted_iff (s := s) (k := k)]
    simp only [step, hp]
  | backingOff n k wake =>
    simp only [step, hp]
    split
    · rename_i hdue
      rw [overflows_iff_of_tries (.inr ⟨wake, hp, hdue⟩), write_aborted_iff]
    · rename_i hdue
      exact iff_of_false h (not_overflows (by simp [hp]) (by simp [Tries, hp, hdue]))
  | ended e =>
    simp only [step, hp]
    exact iff_of_false (by simp) (not_overflows (by simp [hp]) (by simp [Tries, hp]))
  | aborted => exact absurd hp h

end Attempt

namespace Scene

variable {s : Settings} {sc : Scene}

/-- With the turn an attempt takes a step that overflows. -/
def Overflows (s : Settings) (sc : Scene) (m : Move) : Prop :=
  ∃ i a, m = .attempt i ∧ sc.attempts[i]? = some a ∧ sc.isFreeFor i ∧ a.phase ≠ .aborted ∧
    a.Overflows s sc.world

/-- An attempt that broke off stays so. -/
theorem unbroken_of_next {m : Move} (h : (sc.next s m).Unbroken) : sc.Unbroken := by
  intro a ha
  cases m with
  | trigger t =>
    by_cases hr : sc.isAtRest
    · rw [next_trigger hr] at h
      exact h a (List.mem_append_left _ ha)
    · exact h a (by simpa [next, hr] using ha)
  | others w =>
    by_cases hr : sc.isAtRest
    · rw [next_others hr] at h
      exact h a ha
    · exact h a (by simpa [next, hr] using ha)
  | attempt i =>
    rcases sc.next_attempt_cases s i with ⟨b, hb, hfree, hn⟩ | hn
    · by_cases hab : a = b
      · subst hab
        intro hp
        have hstep : a.step s sc.world = (a, sc.world) := by simp only [Attempt.step, hp]
        have hself := (next_attempt_self (s := s) hb hfree).1
        rw [hstep] at hself
        exact h a (List.mem_of_getElem? hself) hp
      · exact h a (mem_next_of_ne hb hfree ha hab)
    · rw [hn] at h
      exact h a ha

theorem unbroken_of_run (moves : List Move) (h : (sc.run s moves).Unbroken) : sc.Unbroken := by
  induction moves generalizing sc with
  | nil => exact h
  | cons m moves ih => exact unbroken_of_next (ih h)

/-- **A turn after which an attempt has broken off is one that overflows.** -/
theorem unbroken_next_iff (h : sc.Unbroken) (m : Move) :
    (sc.next s m).Unbroken ↔ ¬ sc.Overflows s m := by
  cases m with
  | trigger t => exact iff_of_true (h.next_trigger t) fun ⟨_, _, hm, _⟩ => nomatch hm
  | others w =>
    refine iff_of_true ?_ fun ⟨_, _, hm, _⟩ => nomatch hm
    by_cases hr : sc.isAtRest
    · rw [next_others hr]
      exact h
    · simpa [next, hr] using h
  | attempt i =>
    rcases sc.next_attempt_cases s i with ⟨a, ha, hfree, hn⟩ | hn
    · have hp : a.phase ≠ .aborted := h a (List.mem_of_getElem? ha)
      have hself := (next_attempt_self (s := s) ha hfree).1
      constructor
      · rintro hnext ⟨j, b, hj, hb, -, -, hover⟩
        cases hj
        obtain rfl := Option.some.inj (ha.symm.trans hb)
        exact hnext _ (List.mem_of_getElem? hself) ((Attempt.step_aborted_iff hp).2 hover)
      · intro hover b hb
        rw [hn] at hb
        rcases List.mem_or_eq_of_mem_set hb with hb | rfl
        · exact h b hb
        · intro hbroken
          exact hover ⟨i, a, rfl, ha, hfree, hp, (Attempt.step_aborted_iff hp).1 hbroken⟩
    · rw [hn]
      refine iff_of_true h ?_
      rintro ⟨j, b, hj, hb, hfree, hp, hover⟩
      cases hj
      have hself := (next_attempt_self (s := s) hb hfree).1
      rw [hn, hb] at hself
      have hsame := Option.some.inj hself
      exact hp (hsame ▸ (Attempt.step_aborted_iff hp).2 hover)

/-- **No attempt has broken off in a run exactly if none of its turns overflows.** -/
theorem unbroken_run_iff (h : sc.Unbroken) (moves : List Move) :
    (sc.run s moves).Unbroken ↔ AtEach (next s) (fun sc m => ¬ sc.Overflows s m) sc moves := by
  induction moves generalizing sc with
  | nil => exact iff_of_true h trivial
  | cons m moves ih =>
    rw [run_cons, AtEach, ← unbroken_next_iff h]
    by_cases hnext : (sc.next s m).Unbroken
    · rw [ih hnext, and_iff_right hnext]
    · exact iff_of_false (fun hrun => hnext (unbroken_of_run moves hrun)) fun h => hnext h.1

/-- That no attempt has broken off says that those which are over have recorded their ending. -/
theorem unbroken_iff_recorded :
    sc.Unbroken ↔ ∀ a ∈ sc.attempts, a.isOver = true → ∃ e, a.ending? = some e := by
  refine forall₂_congr fun a _ => ?_
  unfold Attempt.isOver Attempt.ending?
  cases a.phase <;> simp

/-- **In every run all numbers stay in range.  Every attempt that is over has recorded its ending if
and only if no turn overflowed; then no key is in flight once all attempts are over.  A time limit
overflows only if the time beyond the progress deadline leaves no room for the largest
deadline.** -/
theorem recorded_iff_not_overflows (s : Settings) {w : World} (hw : w.IsTyped) {moves : List Move}
    (hothers : ∀ v, .others v ∈ moves → v.IsTyped) :
    let sc := (idle w).run s moves
    let sound := AtEach (next s) (fun sc m => ¬ sc.Overflows s m) (idle w) moves
    sc.IsTyped ∧
      ((∀ a ∈ sc.attempts, a.isOver = true → ∃ e, a.ending? = some e) ↔ sound) ∧
      (sound → (∀ a ∈ sc.attempts, a.isOver = true) →
        ∀ key, sc.world.registry.isInFlight key = false) ∧
      (s.timings.stepSlack.millis / 1000 + 4294967296 ≤ Duration.wordBound →
        ∀ a ∈ sc.attempts, ¬ a.OverrunsLimit s sc.world) := by
  intro sc sound
  have htyped : sc.IsTyped := (isTyped_idle hw).run hothers
  have hunbroken : sc.Unbroken ↔ sound :=
    unbroken_run_iff (fun _ h => absurd h List.not_mem_nil) moves
  refine ⟨htyped, unbroken_iff_recorded.symm.trans hunbroken, fun hsound hover key => ?_, ?_⟩
  · refine Bool.eq_false_iff.2 fun hkey => ?_
    have htended : sc.Tended := (tended_idle w).run moves
    obtain ⟨a, ha, -⟩ := htended.exists_running (hunbroken.2 hsound) hkey
    obtain ⟨ha, hrunning⟩ := List.mem_filter.1 ha
    simp [hover a ha] at hrunning
  · intro hslack a ha
    exact Attempt.not_overrunsLimit hslack (htyped.attempts a ha).current.deadline

/-- A workload is moved from one replica to three in steps, and nothing overflows. -/
theorem recorded_iff_not_overflows_two_steps :
    let x : Workload :=
      { Workload.sample ⟨.deployment, "shop", "api"⟩ "3" with spec := 1, ready := 1 }
    let moves : List Move := .trigger (.cycle "shop") :: List.replicate 8 (.attempt 0)
    World.IsTyped (.holding [x]) ∧ (∀ v, .others v ∉ moves) ∧
      ((idle (.holding [x])).run (.standard .step) moves).attempts.map (·.ending?) =
        [some (.done (.scaled 3))] ∧
      AtEach (next (.standard .step)) (fun sc m => ¬ sc.Overflows (.standard .step) m)
        (idle (.holding [x])) moves ∧
      ((idle (.holding [x])).run (.standard .step) moves).IsTyped ∧
      ((idle (.holding [x])).run (.standard .step) moves).world.registry.isInFlight x.key =
        false := by
  intro x moves
  have hx : x.IsTyped := by
    constructor <;> decide +kernel
  have hw : World.IsTyped (.holding [x]) := by
    refine World.isTyped_holding fun y hy => ?_
    rw [List.mem_singleton.1 hy]
    exact hx
  have hothers : ∀ v, .others v ∉ moves := by
    intro v hv
    rcases List.mem_cons.1 hv with hv | hv
    · cases hv
    · cases List.eq_of_mem_replicate hv
  have hend : ((idle (.holding [x])).run (.standard .step) moves).attempts.map (·.ending?) =
      [some (.done (.scaled 3))] := by decide +kernel
  have hover : ∀ a ∈ ((idle (.holding [x])).run (.standard .step) moves).attempts,
      a.isOver = true := by decide +kernel
  obtain ⟨htyped, hiff, hmarks, -⟩ :=
    recorded_iff_not_overflows (.standard .step) hw fun v hv => absurd hv (hothers v)
  have hsound := hiff.1 fun a ha _ => by
    have hmem : a.ending? ∈ ((idle (.holding [x])).run (.standard .step) moves).attempts.map
        (·.ending?) := List.mem_map_of_mem ha
    rw [hend] at hmem
    exact ⟨_, List.mem_singleton.1 hmem⟩
  exact ⟨hw, hothers, hend, hsound, htyped, hmarks hsound hover x.key⟩

/-- With the largest time that a configuration can allow beyond the progress deadline the first
attempt in step mode breaks off, its key stays in flight, and the next cycle leaves the workload to
the attempt that is no more. -/
theorem not_recorded_largest_slack :
    let x : Workload :=
      { Workload.sample ⟨.deployment, "shop", "api"⟩ "3" with spec := 1, ready := 1 }
    let s : Settings :=
      { Settings.standard .step with
        config := { mode := .step, stepSlack := "18446744073709551615s" }
        timings :=
          { (Settings.standard .step).timings with stepSlack := ⟨18446744073709551615000⟩ } }
    let sc := (idle (.holding [x])).run s [.trigger (.cycle "shop"), .attempt 0, .attempt 0]
    s.config.timings = .ok s.timings ∧ x.IsTyped ∧
      sc.attempts.map (·.phase) = [.aborted] ∧
      sc.world.registry.isInFlight x.key = true ∧
      (Trigger.cycle "shop").decisions s sc.world = [(Decision.deferred 3 false).about x] := by
  intro x s sc
  have htimings : s.config.timings = .ok s.timings := by decide +kernel
  have hx : x.IsTyped := by
    constructor <;> decide +kernel
  exact ⟨htimings, hx, by decide +kernel, by decide +kernel, by decide +kernel⟩

end Scene

end ReplicaControl
