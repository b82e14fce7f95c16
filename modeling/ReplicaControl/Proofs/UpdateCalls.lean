import ReplicaControl.Proofs.Calm
import ReplicaControl.Proofs.Pursuit

/-!
# Update requests of an attempt

How many update requests an attempt makes, and how many turns it takes.

* `Attempt.updates` — the next step makes an update request: a count is to be written, and the
  workload was read, is under control and passed its quotas.
* `World.watched` — a world with a fault that lets a number of update requests pass.
  `Attempt.step_watched`: where nothing fails, that number goes down with these steps and no others,
  and nothing else is different.
* `Pursuit.requests`, `advances`, `total` — the update requests of a turn, the steps that the
  attempt can take, and their sums over a list of turns.
* `Pursuit.run_total` — what turns preserve together with the sums so far, a run preserves.
-/

namespace ReplicaControl

namespace Attempt

/-- The count that the attempt tries to write with its next step. -/
def pending? (a : Attempt) (now : Nat) : Option Int :=
  match a.phase with
  | .writing n _ => some n
  | .backingOff n _ wake => if wake.due ≤ now then some n else none
  | _ => none

/-- The write of a count gets as far as the update request. -/
def submits (a : Attempt) (w : World) (n : Int) : Bool :=
  match w.fetch a.item.id with
  | (.error _, _) => false
  | (.ok live, w) =>
    live.isOptedIn && (w.admission live.key.ns (Quota.itemNeed live n)).1 = .ok .allowed

/-- The next step of the attempt makes an update request. -/
def updates (a : Attempt) (w : World) : Bool := (a.pending? w.now).any (a.submits w)

variable {a : Attempt} {w : World}

theorem pending?_of_tries {n : Int} {k : Nat} (h : a.Tries w n k) : a.pending? w.now = some n := by
  rcases h with h | ⟨wake, h, hdue⟩
  · simp only [pending?, h]
  · simp only [pending?, h, if_pos hdue]

theorem updates_of_tries {n : Int} {k : Nat} (h : a.Tries w n k) :
    a.updates w = a.submits w n := by
  rw [updates, pending?_of_tries h]
  rfl

end Attempt

/-! ## Counting by a fault -/

namespace World

/-- The world with one fault, which lets a number of update requests pass. -/
def watched (w : World) (k : Nat) : World :=
  { w with faults := [{ request := .update, message := "", count := 1, skip := k }] }

variable {w : World}

theorem afterWrite_watched (w : World) (k : Nat) (x : Workload) :
    (w.watched k).afterWrite x = (w.afterWrite x).watched k := by
  unfold afterWrite
  show List.foldl (react x) (w.watched k)
    ((w.rules.filter (·.applies x)).flatMap (·.reactions)) = _
  generalize (w.rules.filter (·.applies x)).flatMap (·.reactions) = reactions
  induction reactions generalizing w with
  | nil => rfl
  | cons r rest ih =>
    rw [List.foldl_cons, List.foldl_cons, ← ih]
    cases r <;> rfl

/-- A write that meets no fault, in terms of the cluster's answer. -/
theorem store_of_intercept {v : World} (h : w.intercept .update = (none, v)) (x : Workload) :
    w.store x = ((v.cluster.write x).1,
      match (v.cluster.write x).1 with
      | .stored new => { v with cluster := (v.cluster.write x).2 }.afterWrite new
      | _ => { v with cluster := (v.cluster.write x).2 }) := by
  unfold store storeThrough
  rw [h]
  dsimp only
  rw [if_pos rfl]
  rcases v.cluster.write x with ⟨result, cluster⟩
  cases result <;> rfl

section

variable (hw : w.faults = []) (k : Nat)
include hw

theorem ask_watched {α : Type} {r : Request} (hr : r ≠ .update) (refused : Fault → α)
    (answer : Cluster → α) :
    (w.watched k).ask r refused answer = ((w.ask r refused answer).1, w.watched k) := by
  have hnext : (w.watched k).intercept r = (none, w.watched k) := by
    simp [intercept, watched, Fault.next, Ne.symm hr]
  rw [ask, hnext, ask_of_faults hw]
  rfl

theorem fetch_watched (id : WorkloadId) :
    (w.watched k).fetch id = ((w.fetch id).1, w.watched k) :=
  ask_watched hw k (by decide) _ _

theorem admission_watched (ns : String) (need : Option ResourceList) :
    (w.watched k).admission ns need = ((w.admission ns need).1, w.watched k) := by
  cases need with
  | none => rfl
  | some need =>
    simp only [admission, fetchQuotas]
    rw [ask_watched hw k (by decide)]

theorem store_watched (x : Workload) :
    (w.watched (k + 1)).store x = ((w.store x).1, (w.store x).2.watched k) := by
  have hnext : (w.watched (k + 1)).intercept .update = (none, w.watched k) := by
    simp [intercept, watched, Fault.next]
  rw [store_of_intercept hnext, store_of_intercept (intercept_of_faults hw .update)]
  show ((w.cluster.write x).1, _) = ((w.cluster.write x).1, _)
  congr 1
  show (match (w.cluster.write x).1 with
    | .stored new => ({ w with cluster := (w.cluster.write x).2 }.watched k).afterWrite new
    | _ => { w with cluster := (w.cluster.write x).2 }.watched k) = _
  cases (w.cluster.write x).1 with
  | stored new => exact afterWrite_watched _ k new
  | refused e => rfl
  | exhausted => rfl

end

end World

namespace Attempt

variable {s : Settings} {a : Attempt} {w : World}

theorem conclude_watched (a : Attempt) (w : World) (k : Nat) (e : Ending) :
    a.conclude (w.watched k) e = ((a.conclude w e).1, (a.conclude w e).2.watched k) := by
  cases e with
  | done o => cases o <;> rfl
  | failed e => rfl

theorem fail_watched (a : Attempt) (w : World) (k : Nat) (e : ScaleError) :
    a.fail (w.watched k) e = ((a.fail w e).1, (a.fail w e).2.watched k) :=
  conclude_watched a w k (.failed e)

theorem retry_watched (s : Settings) (a : Attempt) (w : World) (k : Nat) (n : Int) (c : Nat) :
    a.retry s (w.watched k) n c = ((a.retry s w n c).1, (a.retry s w n c).2.watched k) := by
  unfold retry
  split
  · rfl
  · exact fail_watched a w k _

theorem begin_watched (s : Settings) (a : Attempt) (w : World) (k : Nat) :
    a.begin s (w.watched k) = ((a.begin s w).1, (a.begin s w).2.watched k) := by
  unfold begin
  show (if a.item.spec = a.target.replicas ∧ ¬ a.item.failure ∧ ¬ w.registry.contains a.key then _
    else _) = _
  split
  · rfl
  · dsimp only
    split
    · rfl
    · exact fail_watched a { w with registry := a.marked w.registry } k _

theorem decide_watched (s : Settings) (a : Attempt) (w : World) (k : Nat) :
    a.decide s (w.watched k) = ((a.decide s w).1, (a.decide s w).2.watched k) := by
  have hregistry : (w.watched k).registry = w.registry := rfl
  simp only [decide, hregistry]
  split
  · exact conclude_watched a
      { w with registry := w.registry.update a.key ({ · with scaling := true }) } k _
  · split
    · rfl
    · split <;> rfl

theorem sleepToPoll_watched (s : Settings) (a : Attempt) (w : World) (k : Nat) (wait : Wait) :
    a.sleepToPoll s (w.watched k) wait =
      ((a.sleepToPoll s w wait).1, (a.sleepToPoll s w wait).2.watched k) := by
  unfold sleepToPoll
  dsimp only
  split <;> rfl

section

variable (hw : w.faults = []) (k : Nat)
include hw

theorem poll_watched (s : Settings) (a : Attempt) (wait : Wait) :
    a.poll s (w.watched k) wait = ((a.poll s w wait).1, (a.poll s w wait).2.watched k) := by
  have hfetch : w.fetch a.item.id = (w.cluster.read a.item.id, w) := World.ask_of_faults hw _ _ _
  unfold poll
  rw [World.fetch_watched hw, hfetch]
  cases w.cluster.read a.item.id with
  | error e => cases e <;> exact conclude_watched a w k _
  | ok live =>
    dsimp only
    split
    · rfl
    · split
      · exact fail_watched a w k _
      · show (if wait.deadline ≤ w.now then _ else _) = _
        split
        · exact fail_watched a w k _
        · exact sleepToPoll_watched s a w k wait

theorem store_watched (s : Settings) (a : Attempt) (live : Workload) (n : Int) (c : Nat) :
    a.store s (w.watched (k + 1)) live n c =
      ((a.store s w live n c).1, (a.store s w live n c).2.watched k) := by
  unfold store
  rw [World.store_watched hw]
  rcases w.store { live with spec := n } with ⟨result, v⟩
  cases result with
  | stored new => rfl
  | exhausted => rfl
  | refused e =>
    cases e with
    | conflict subject => exact retry_watched s a v k n (c + 1)
    | notFound subject => exact conclude_watched a v k _
    | other detail => exact fail_watched a v k _

theorem write_watched (s : Settings) (a : Attempt) (n : Int) (c : Nat) :
    a.write s (w.watched (k + 1)) n c =
      ((a.write s w n c).1,
        (a.write s w n c).2.watched (if a.submits w n then k else k + 1)) := by
  have hfetch : w.fetch a.item.id = (w.cluster.read a.item.id, w) := World.ask_of_faults hw _ _ _
  unfold write submits
  rw [World.fetch_watched hw, hfetch]
  cases w.cluster.read a.item.id with
  | error e => cases e <;> exact conclude_watched a w (k + 1) _
  | ok live =>
    dsimp only
    by_cases hin : live.isOptedIn = true
    · simp only [hin, if_true, Bool.true_and]
      rw [World.admission_watched hw, World.admission_of_faults hw]
      cases w.cluster.verdict live.key.ns (Quota.itemNeed live n) with
      | allowed => exact store_watched hw k s a live n c
      | denied quota shortfall =>
        exact conclude_watched a (a.tell w (.quotaExceeded n quota shortfall)) (k + 1) _
    · simp only [hin, Bool.false_and]
      exact fail_watched a w (k + 1) _

/-- **A fault that lets update requests pass counts the steps that make one**, and makes no other
difference. -/
theorem step_watched (s : Settings) (a : Attempt) :
    a.step s (w.watched (k + 1)) =
      ((a.step s w).1, (a.step s w).2.watched (if a.updates w then k else k + 1)) := by
  unfold step updates pending?
  cases a.phase with
  | starting => exact begin_watched s a w (k + 1)
  | deciding => exact decide_watched s a w (k + 1)
  | polling wait => exact poll_watched hw (k + 1) s a wait
  | waiting wait wake =>
    show (if wake.due ≤ w.now then _ else if wait.deadline ≤ w.now then _ else _) = _
    dsimp only
    split
    · exact poll_watched hw (k + 1) s a wait
    · split
      · exact fail_watched a w (k + 1) _
      · rfl
  | writing n c => exact write_watched hw k s a n c
  | backingOff n c wake =>
    show (if wake.due ≤ w.now then _ else _) = _
    dsimp only
    split
    · exact write_watched hw k s a n c
    · rfl
  | ended e => rfl
  | aborted => rfl

end

end Attempt

/-! ## Sums over turns -/

namespace Pursuit

/-- The update requests that the attempt makes in a turn. -/
def requests (p : Pursuit) : Turn → Nat
  | .step => if p.attempt.updates p.world then 1 else 0
  | .others _ => 0

/-- The steps that the attempt takes in a turn.  It takes none while it is suspended or over. -/
def advances (p : Pursuit) : Turn → Nat
  | .step => if p.attempt.canStep p.world.now then 1 else 0
  | .others _ => 0

/-- The sum of what each turn of a list contributes. -/
def total (s : Settings) (f : Pursuit → Turn → Nat) (p : Pursuit) : List Turn → Nat
  | [] => 0
  | t :: turns => f p t + total s f (p.next s t) turns

/-- **What every turn preserves together with the sums so far, a run preserves.** -/
theorem run_total {s : Settings} {P : Pursuit → Turn → Prop} {I : Pursuit → Nat → Nat → Prop}
    (hnext : ∀ q i j t, I q i j → P q t →
      I (q.next s t) (i + q.requests t) (j + q.advances t))
    {p : Pursuit} {i j : Nat} (hp : I p i j) {turns : List Turn}
    (hturns : AtEach (next s) P p turns) :
    I (p.run s turns) (i + p.total s requests turns) (j + p.total s advances turns) := by
  induction turns generalizing p i j with
  | nil => exact hp
  | cons t turns ih =>
    have hrest := ih (hnext p i j t hp hturns.1) hturns.2
    rw [run_cons, total, total, ← Nat.add_assoc, ← Nat.add_assoc]
    exact hrest

end Pursuit

end ReplicaControl
