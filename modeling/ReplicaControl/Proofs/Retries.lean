import ReplicaControl.Proofs.Progress
import ReplicaControl.Proofs.SweepFates

/-!
# Retries

The attempt that a sweep launches for a failed entry, as long as nobody else touches its key.

* `World.bare`, `step_bare_fst` — a world without reactions to writes; an attempt does the same in
  it.
* `Attempt.Retrying` — what holds of a retry until it is over.  `step_retries`: a step keeps it, or
  leaves the entry of the key as the verdict on the ending says.
-/

namespace ReplicaControl

namespace World

/-! ## Worlds without reactions -/

/-- The world without the rules by which something happens after a write. -/
def bare (w : World) : World := { w with rules := [] }

theorem ask_bare {α : Type} (w : World) (r : Request) (refused : Fault → α)
    (answer : Cluster → α) :
    w.bare.ask r refused answer =
      ((w.ask r refused answer).1, (w.ask r refused answer).2.bare) := by
  have hi : w.bare.intercept r = ((w.intercept r).1, (w.intercept r).2.bare) := rfl
  unfold ask
  rw [hi]
  rcases w.intercept r with ⟨_ | f, w₁⟩ <;> rfl

theorem fetch_bare (w : World) (id : WorkloadId) :
    w.bare.fetch id = ((w.fetch id).1, (w.fetch id).2.bare) := w.ask_bare _ _ _

theorem admission_bare (w : World) (ns : String) (need : Option ResourceList) :
    w.bare.admission ns need = ((w.admission ns need).1, (w.admission ns need).2.bare) := by
  cases need with
  | none => rfl
  | some need =>
    simp only [admission, fetchQuotas, ask_bare]

/-- A write is answered in the same way without the rules, and nothing reacts to one that is
refused. -/
theorem store_bare (w : World) (x : Workload) :
    (w.bare.store x).1 = (w.store x).1 ∧
      ((∀ new, (w.store x).1 ≠ .stored new) → (w.bare.store x).2 = (w.store x).2.bare) := by
  have hi : w.bare.intercept .update =
      ((w.intercept .update).1, (w.intercept .update).2.bare) := rfl
  unfold store storeThrough
  rw [hi]
  rcases w.intercept .update with ⟨_ | f, w₁⟩
  · dsimp only
    rw [if_pos rfl, if_pos rfl, show w₁.bare.cluster = w₁.cluster from rfl]
    rcases w₁.cluster.write x with ⟨new | e | _, c⟩
    · exact ⟨rfl, fun h => absurd rfl (h new)⟩
    · exact ⟨rfl, fun _ => rfl⟩
    · exact ⟨rfl, fun _ => rfl⟩
  · exact ⟨rfl, fun _ => rfl⟩

end World

namespace Attempt

theorem poll_bare_fst (s : Settings) (a : Attempt) (w : World) (wait : Wait) :
    (a.poll s w.bare wait).1 = (a.poll s w wait).1 := by
  unfold poll
  rw [World.fetch_bare]
  rcases w.fetch a.item.id with ⟨e | live, w₁⟩
  · cases e <;> rfl
  · dsimp only
    split
    · rfl
    · split
      · rfl
      · rw [show w₁.bare.now = w₁.now from rfl]
        split
        · rfl
        · unfold sleepToPoll
          cases hticket : wait.ticket <;> rfl

theorem store_bare_fst (s : Settings) (a : Attempt) (w : World) (live : Workload) (n : Int)
    (k : Nat) : (a.store s w.bare live n k).1 = (a.store s w live n k).1 := by
  obtain ⟨hfst, hsnd⟩ := w.store_bare { live with spec := n }
  unfold store
  rcases hs : w.store { live with spec := n } with ⟨new | e | _, w₁⟩
  all_goals
    rcases hb : w.bare.store { live with spec := n } with ⟨r, w₂⟩
    rw [hs, hb] at hfst hsnd
    obtain rfl : r = _ := hfst
  · rfl
  · obtain rfl : w₂ = w₁.bare := hsnd fun new => by simp
    cases e with
    | conflict =>
      dsimp only
      unfold retry
      split <;> rfl
    | notFound => rfl
    | other => rfl
  · rfl

theorem write_bare_fst (s : Settings) (a : Attempt) (w : World) (n : Int) (k : Nat) :
    (a.write s w.bare n k).1 = (a.write s w n k).1 := by
  unfold write
  rw [World.fetch_bare]
  rcases w.fetch a.item.id with ⟨e | live, w₁⟩
  · cases e <;> rfl
  · dsimp only
    split
    · rw [World.admission_bare]
      rcases w₁.admission live.key.ns (Quota.itemNeed live n) with ⟨e | v, w₂⟩
      · rfl
      · cases v with
        | allowed => exact a.store_bare_fst s w₂ live n k
        | denied => rfl
    · rfl

/-- **An attempt does the same, whatever reacts to its writes.** -/
theorem step_bare_fst (s : Settings) (a : Attempt) (w : World) :
    (a.step s w.bare).1 = (a.step s w).1 := by
  have hnow : w.bare.now = w.now := rfl
  have hreg : w.bare.registry = w.registry := rfl
  unfold step
  split
  · unfold begin
    rw [hreg]
    split
    · rfl
    · dsimp only
      split <;> rfl
  · unfold decide
    rw [hreg]
    dsimp only
    split
    · rfl
    · split
      · rfl
      · split <;> rfl
  · exact a.poll_bare_fst s w _
  · rw [hnow]
    split
    · exact a.poll_bare_fst s w _
    · split <;> rfl
  · exact a.write_bare_fst s w _ _
  · rw [hnow]
    split
    · exact a.write_bare_fst s w _ _
    · rfl
  · rfl
  · rfl

/-! ## What holds of a retry -/

/-- The attempt is on its way, and nobody else touched its key. -/
structure Retrying (a : Attempt) (w : World) : Prop where
  entry : ∃ e, w.registry.get? a.key = some e ∧ e.failure = true ∧ e.scaling = true ∧
    e.desired = a.target.replicas
  unwritten : a.written = false → a.current.spec = a.item.spec
  chases : a.Chases a.target.replicas w

/-- The attempt is on its way, or left the entry of its key as the verdict on its ending says. -/
structure Retries (a : Attempt) (w : World) : Prop where
  running : a.isOver = false → a.Retrying w
  ended : ∀ e old, a.phase = .ended e →
    (Sweep.Verdict.ofEnding (some e)).Leaves old (w.registry.get? a.key)

variable {s : Settings} {a : Attempt} {w w' : World}

/-- Whoever does not touch the key does not concern a retry. -/
theorem Retries.of_spares (h : a.Retries w) (hs : w.Spares w' a.key) : a.Retries w' where
  running := fun ho =>
    have h := h.running ho
    ⟨hs.entry ▸ h.entry, h.unwritten, h.chases.of_spares hs⟩
  ended := fun e old hp => hs.entry ▸ h.ended e old hp

/-- An attempt that is not over yet is on its way. -/
theorem Retries.of_retrying (h : a.Retrying w) (ho : a.isOver = false) : a.Retries w where
  running := fun _ => h
  ended := fun e _ hp => by simp [isOver, hp] at ho

theorem Retries.of_aborted (h : a.phase = .aborted) : a.Retries w where
  running := fun ho => by simp [isOver, h] at ho
  ended := fun e _ hp => by simp [hp] at h

/-- An attempt that is over and did not break off has an ending. -/
theorem exists_ending (hover : a.isOver = true) (hphase : a.phase ≠ .aborted) :
    ∃ e, a.phase = .ended e := by
  unfold isOver at hover
  split at hover
  · exact ⟨_, ‹_›⟩
  · exact absurd ‹_› hphase
  · cases hover

/-- An attempt that was not ended and has its entry is on its way. -/
theorem Retries.of_chases (h : a.isOver = true ∨ a.Chases a.target.replicas w)
    (ho : a.isOver = false)
    (hentry : ∃ e, w.registry.get? a.key = some e ∧ e.failure = true ∧ e.scaling = true ∧
      e.desired = a.target.replicas)
    (hunwritten : a.written = false → a.current.spec = a.item.spec) : a.Retries w := by
  refine .of_retrying ⟨hentry, hunwritten, h.resolve_left fun hover => ?_⟩ ho
  exact absurd (hover.symm.trans ho) (by decide)

/-- The end of a retry leaves the entry of its key as the verdict on its ending says. -/
theorem Retries.conclude (hentry : ∃ e, w.registry.get? a.key = some e ∧ e.failure = true ∧
      e.desired = a.target.replicas) {e : Ending}
    (hreached : ∀ n, e = .done (.scaled n) → n = a.target.replicas)
    (hunchanged : e = .done .unchanged → a.item.spec = a.target.replicas) :
    (a.conclude w e).1.Retries (a.conclude w e).2 where
  running := fun ho => by cases ho
  ended := fun e' old hp => by
    obtain rfl : e = e' := Phase.ended.inj hp
    obtain ⟨x, hx, hf, hd⟩ := hentry
    rw [conclude_registry]
    show (Sweep.Verdict.ofEnding (some e)).Leaves old ((a.recorded w.registry e).get? a.key)
    cases e with
    | done o =>
      cases o with
      | scaled n =>
        show (w.registry.settle a.key n).2.get? a.key = none
        simp [Registry.settle, hx, hd.trans (hreached n rfl).symm]
      | unchanged =>
        show (w.registry.settle a.key a.item.spec).2.get? a.key = none
        simp [Registry.settle, hx, hd.trans (hunchanged rfl).symm]
      | removed => exact w.registry.get?_erase_self a.key
      | quotaDenied =>
        refine ⟨{ x with scaling := false }, ?_, hf, rfl⟩
        show (w.registry.release a.key).get? a.key = _
        simp [Registry.release, hx, hf, Table.get?_adjust]
    | failed err =>
      refine ⟨{ x with failure := true, failureMessage := err.message, scaling := false }, ?_, rfl,
        rfl⟩
      simp [recorded, Registry.get?_update, hx]

/-- **A step keeps what holds of a retry**, in a world without reactions. -/
theorem step_retries_bare (h : a.Retries w) (hw : w.rules = []) :
    (a.step s w).1.Retries (a.step s w).2 := by
  by_cases hover : a.isOver = true
  · rw [step_of_isOver s w hover]
    exact h
  have h := h.running (Bool.eq_false_iff.2 hover)
  obtain ⟨x, hx, hf, hs, hd⟩ := h.entry
  have hmark : ∀ r : Registry, r.get? a.key = some x →
      (r.update a.key ({ · with scaling := true })).get? a.key = some { x with scaling := true } :=
    fun r hr => by rw [Registry.get?_update, if_pos rfl, hr]; rfl
  have hmarked : (a.marked w.registry).get? a.key = some { x with scaling := true } := by
    unfold marked
    rw [if_pos (by simp [hx])]
    exact hmark w.registry hx
  have hdone : ∀ {w₁ : World} {o : Outcome}, w.Quiet w₁ → (∀ n, o ≠ .scaled n) → o ≠ .unchanged →
      (a.conclude w₁ (.done o)).1.Retries (a.conclude w₁ (.done o)).2 := fun hq hn hu =>
    Retries.conclude ⟨x, hq.registry ▸ hx, hf, hd⟩ (fun n he => absurd (Ending.done.inj he) (hn n))
      (fun he => absurd (Ending.done.inj he) hu)
  have hfail : ∀ {w₁ : World} {e : ScaleError}, w.Quiet w₁ →
      (a.fail w₁ e).1.Retries (a.fail w₁ e).2 := fun hq =>
    Retries.conclude ⟨x, hq.registry ▸ hx, hf, hd⟩ (fun n he => by cases he)
      (fun he => by cases he)
  have hchases := step_chases (s := s) h.chases hw
  have hc := a.step_case s w
  generalize a.step s w = r at hc hchases
  cases hc with
  | idle => exact .of_retrying h (Bool.eq_false_iff.2 hover)
  | content _ _ hr => exact absurd (hx.symm.trans hr) (by simp)
  | begun => exact .of_chases hchases rfl ⟨_, hmarked, hf, rfl, hd⟩ h.unwritten
  | unreachable =>
    exact .conclude (w := { w with registry := a.marked w.registry }) ⟨_, hmarked, hf, hd⟩
      (fun n he => by cases he) (fun he => by cases he)
  | decided hp hne hn =>
    have hentry := hmark w.registry hx
    cases hn with
    | write => exact .of_chases hchases rfl ⟨_, hentry, hf, rfl, hd⟩ h.unwritten
    | wait => exact .of_chases hchases rfl ⟨_, hentry, hf, rfl, hd⟩ h.unwritten
    | abort => exact .of_aborted rfl
  | arrived hp heq =>
    have hspec : a.current.spec = a.target.replicas := heq.trans h.chases.desired
    refine .conclude (w := { w with registry := _ }) ⟨_, hmark w.registry hx, hf, hd⟩
      (fun n he => ?_) (fun he => ?_)
    · split at he
      · cases he
        exact hspec
      · cases he
    · split at he
      · cases he
      · rename_i hwritten
        rw [← h.unwritten (Bool.eq_false_iff.2 hwritten)]
        exact hspec
  | @polled wait live w₁ hp hget hr ha =>
    have hlive := h.chases.counts live hget
    obtain ⟨hdesired, hfar⟩ := h.chases.aims.of_polls hp
    rw [if_neg (by rw [hlive, hdesired]; exact hfar)] at hchases ⊢
    exact .of_chases hchases rfl (ha.registry ▸ h.entry) fun hwritten =>
      hlive.trans (h.unwritten hwritten)
  | slept hp hd' hq => exact .of_chases hchases rfl (hq.registry ▸ h.entry) h.unwritten
  | @stored n k live new c w₁ hp hget ho had hcw ha =>
    have hrules : w₁.rules = [] := ha.quiet.rules.trans hw
    rw [World.afterWrite_of_bare (w := { w₁ with cluster := c }) hrules] at hchases ⊢
    exact .of_chases hchases rfl (ha.registry ▸ h.entry) fun hwritten => nomatch hwritten
  | retried hp hq => exact .of_chases hchases rfl (hq.registry ▸ h.entry) h.unwritten
  | exhausted => exact .of_aborted rfl
  | gone _ hq => exact hdone hq (fun _ => by simp) (by simp)
  | denied _ hq =>
    have hentry := (congrArg (Table.get? · a.key) hq.registry).trans hx
    exact Retries.conclude (w := a.tell _ _) (e := .done .quotaDenied) ⟨x, hentry, hf, hd⟩
      (fun n he => nomatch he) (fun he => nomatch he)
  | failed _ hq => exact hfail hq

/-- **A step keeps what holds of a retry**, unless reactions to its write touch the key. -/
theorem step_retries (h : a.Retries w) (hs : (a.step s w.bare).2.Spares (a.step s w).2 a.key) :
    (a.step s w).1.Retries (a.step s w).2 := by
  have hbare : a.Retries w.bare := h.of_spares ⟨rfl, fun _ x _ hx => ⟨x, hx, rfl⟩⟩
  have hstep : (a.step s w.bare).1.Retries (a.step s w.bare).2 := step_retries_bare hbare rfl
  rw [step_bare_fst] at hstep
  exact hstep.of_spares ((a.step_key s w).symm ▸ hs)

end Attempt

end ReplicaControl
