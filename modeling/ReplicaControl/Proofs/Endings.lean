import ReplicaControl.Proofs.ActiveEntries
import ReplicaControl.Proofs.Pursuit
import ReplicaControl.Proofs.Sample

/-!
# What an attempt leaves behind

An attempt tells nothing and changes nothing but its own entry until it ends.  With its last step it
records its ending, in the registry and as at most one event.

* `Attempt.newEvents`, `Pursuit.told` — the events that a step emits, and all that the attempt of a
  pursuit emitted in a list of turns.
* `Attempt.Tells`, `Attempt.Leaves` — the events, and the entry of the registry, that go with an
  ending.  `Attempt.step_reports`: a step tells nothing, or ends the attempt with both.
* `Pursuit.Remembers` — an attempt takes its workload for written if and only if it wrote it.
* `Pursuit.Recorded` — what goes with an ending: the events, the counts written and the entry.
* `Pursuit.ending_recorded` — the main theorem.
-/

namespace ReplicaControl

theorem World.afterWrite_events (w : World) (x : Workload) :
    (w.afterWrite x).events = w.events := by
  refine afterWrite_induction (fun v => v.events = w.events) rfl ?_
  intro v r h
  cases r <;> exact h

/-- A release keeps a failed entry, no longer marked as running, and drops any other one. -/
theorem Registry.get?_release_self (r : Registry) (key : Key) :
    (r.release key).get? key =
      ((r.get? key).filter (·.failure)).map ({ · with scaling := false }) := by
  unfold release
  cases hget : r.get? key with
  | none => exact hget
  | some e =>
    cases hfailed : e.failure with
    | true => simp [Table.get?_adjust, hget, hfailed, Option.filter]
    | false => simp [hfailed, Option.filter]

namespace Attempt

variable {s : Settings} {a : Attempt} {w : World}

/-- The events that the next step of an attempt emits. -/
def newEvents (s : Settings) (a : Attempt) (w : World) : List Event :=
  (a.step s w).2.events.drop w.events.length

/-- What an attempt tells together with the record of its ending. -/
def lastWords (a : Attempt) : Ending → List Event
  | .failed e => [.about a.item (.failed e.message)]
  | .done (.scaled n) => [.about a.item (.scaled a.item.spec n a.target.state)]
  | .done _ => []

theorem conclude_events (a : Attempt) (w : World) (e : Ending) :
    (a.conclude w e).2.events = w.events ++ a.lastWords e := by
  cases e with
  | done o => cases o <;> simp [conclude, lastWords, tell, World.emit]
  | failed e => rfl

/-- The events that an attempt emits with the step that ends it. -/
inductive Tells (a : Attempt) (w : World) : Ending → List Event → Prop
  | failed (e : ScaleError) : Tells a w (.failed e) [.about a.item (.failed e.message)]
  | scaled (n : Int) :
      Tells a w (.done (.scaled n)) [.about a.item (.scaled a.item.spec n a.target.state)]
  /-- The count that was refused is the one that was to be written. -/
  | denied {n : Int} {k : Nat} (hp : a.Tries w n k) (quota : String) (shortfall : ResourceList) :
      Tells a w (.done .quotaDenied) [.about a.item (.quotaExceeded n quota shortfall)]
  | unchanged (h : a.phase = .starting ∨ a.written = false) : Tells a w (.done .unchanged) []
  | removed : Tells a w (.done .removed) []

/-- What the step that ends an attempt makes of the entry of its key. -/
def Leaves (a : Attempt) (r r' : Registry) : Ending → Prop
  | .failed e => ∃ x, r'.get? a.key = some x ∧ x.failure = true ∧ x.scaling = false ∧
      x.failureMessage = e.message ∧ x.desired = (r.target? a.key).getD a.target.replicas
  | .done .quotaDenied =>
      r'.get? a.key = ((r.get? a.key).filter (·.failure)).map ({ · with scaling := false })
  | .done .removed => r'.get? a.key = none
  | .done (.scaled _) => True
  | .done .unchanged => True

/-- A failure is recorded with its message, and keeps the target in force. -/
theorem recorded_failed (a : Attempt) (r : Registry) (e : ScaleError) :
    a.Leaves r (a.recorded r (.failed e)) (.failed e) := by
  unfold Leaves recorded
  dsimp only
  split
  · rename_i hc
    obtain ⟨x, hx⟩ := Option.isSome_iff_exists.1 hc
    rw [Registry.get?_update, if_pos rfl, hx]
    exact ⟨_, rfl, rfl, rfl, rfl, by rw [Registry.target?, hx]; rfl⟩
  · rename_i hc
    have hnone : r.get? a.key = none := by simpa using hc
    rw [Registry.get?_upsert, if_pos (show a.key = a.item.key from rfl)]
    exact ⟨_, rfl, rfl, rfl, rfl, by rw [Registry.target?, hnone]; rfl⟩

/-- An attempt that fails right after it marked its entry fails with the same record. -/
theorem leaves_marked (a : Attempt) (r : Registry) (e : ScaleError) :
    a.Leaves r (a.recorded (a.marked r) (.failed e)) (.failed e) := by
  obtain ⟨x, hx, hfailure, hscaling, hmessage, hdesired⟩ := a.recorded_failed (a.marked r) e
  refine ⟨x, hx, hfailure, hscaling, hmessage, hdesired.trans ?_⟩
  unfold marked
  split
  · rw [Registry.target?_update]
  · rename_i hc
    have hnone : r.get? a.key = none := by simpa using hc
    rw [Registry.target?, Registry.get?_upsert, if_pos (show a.key = a.item.key from rfl),
      Registry.target?, hnone]
    rfl

/-- A step that leads to `r` tells nothing and the attempt goes on, or it ends the attempt and
leaves what goes with the ending. -/
def Reports (a : Attempt) (w : World) (r : Attempt × World) : Prop :=
  ∃ told, r.2.events = w.events ++ told ∧
    ((r.1.ending? = none ∧ told = []) ∨
      ∃ e, r.1.ending? = some e ∧ a.Tells w e told ∧ a.Leaves w.registry r.2.registry e)

theorem reports_quiet {b : Attempt} {v : World} (hb : b.ending? = none)
    (hv : v.events = w.events) : a.Reports w (b, v) :=
  ⟨[], hv.trans (List.append_nil _).symm, .inl ⟨hb, rfl⟩⟩

theorem reports_conclude {v : World} {e : Ending} {told : List Event}
    (hv : v.events ++ a.lastWords e = w.events ++ told) (htells : a.Tells w e told)
    (hleaves : a.Leaves w.registry (a.recorded v.registry e) e) :
    a.Reports w (a.conclude v e) :=
  ⟨told, (conclude_events a v e).trans hv,
    .inr ⟨e, rfl, htells, (conclude_registry a v e).symm ▸ hleaves⟩⟩

theorem reports_fail {v : World} {e : ScaleError} (hv : v.events = w.events)
    (hleaves : a.Leaves w.registry (a.recorded v.registry (.failed e)) (.failed e)) :
    a.Reports w (a.fail v e) :=
  reports_conclude (congrArg (· ++ _) hv) (.failed e) hleaves

/-- **Every step of an attempt that has not ended goes on without a word, or ends the attempt and
leaves what goes with the ending.** -/
theorem step_reports (s : Settings) (hn : a.ending? = none) : a.Reports w (a.step s w) := by
  have hc := a.step_case s w
  generalize a.step s w = r at hc ⊢
  cases hc with
  | idle => exact reports_quiet hn rfl
  | content hp =>
    exact ⟨[], (List.append_nil _).symm, .inr ⟨_, rfl, .unchanged (.inl hp), trivial⟩⟩
  | begun => exact reports_quiet rfl rfl
  | unreachable => exact reports_fail rfl (a.leaves_marked _ _)
  | decided _ _ hd => cases hd <;> exact reports_quiet rfl rfl
  | arrived =>
    refine reports_conclude rfl ?_ ?_
    · cases hw : a.written with
      | true => exact .scaled _
      | false => exact .unchanged (.inr hw)
    · cases a.written <;> trivial
  | polled _ _ _ ha =>
    exact reports_quiet (ending?_of_ne_ended (by dsimp only; split <;> simp)) ha.quiet.events
  | slept _ _ hq => exact reports_quiet rfl hq.events
  | stored _ _ _ _ _ ha =>
    exact reports_quiet rfl ((World.afterWrite_events _ _).trans ha.quiet.events)
  | retried _ hq => exact reports_quiet rfl hq.events
  | exhausted _ _ _ ha => exact reports_quiet rfl ha.quiet.events
  | gone _ hq =>
    exact reports_conclude (congrArg (· ++ _) hq.events) .removed (Table.get?_erase_self _ _)
  | @denied _ _ quota shortfall _ hp hq =>
    refine reports_conclude ?_ (.denied hp quota shortfall) ?_
    · rw [tell, World.emit, hq.events]
      exact List.append_nil _
    · exact hq.registry ▸ Registry.get?_release_self _ _
  | failed _ hq => exact reports_fail hq.events (hq.registry ▸ a.recorded_failed _ _)

/-- An attempt has ended with a step, and has left what goes with the ending. -/
structure Ends (s : Settings) (a : Attempt) (w : World) (e : Ending) : Prop where
  ending : (a.step s w).1.ending? = some e
  tells : a.Tells w e (a.newEvents s w)
  leaves : a.Leaves w.registry (a.step s w).2.registry e

theorem newEvents_eq {told : List Event} (h : (a.step s w).2.events = w.events ++ told) :
    a.newEvents s w = told := by
  rw [newEvents, h, List.drop_left]

/-- The events after a step are the ones before it and the new ones. -/
theorem step_events (s : Settings) (a : Attempt) (w : World) :
    (a.step s w).2.events = w.events ++ a.newEvents s w := by
  cases hn : a.ending? with
  | none =>
    obtain ⟨told, htold, -⟩ := step_reports (w := w) s hn
    rwa [newEvents_eq htold]
  | some e => simp [newEvents, step_ending?_of_some hn]

theorem step_ends (s : Settings) (w : World) (hn : a.ending? = none) :
    ((a.step s w).1.ending? = none ∧ a.newEvents s w = []) ∨ ∃ e, a.Ends s w e := by
  obtain ⟨told, htold, ⟨hgoes, hnothing⟩ | ⟨e, he, htells, hleaves⟩⟩ :=
    step_reports (w := w) s hn
  · exact .inl ⟨hgoes, (newEvents_eq htold).trans hnothing⟩
  · exact .inr ⟨e, he, newEvents_eq htold ▸ htells, hleaves⟩

/-- A step that writes nothing and goes on leaves the attempt's knowledge about writes as it is. -/
theorem Moves.written {b : Attempt} (h : a.Moves s w b) : b.written = a.written := by
  cases h <;> rfl

/-- No step leads back to the start. -/
theorem Moves.eq_of_starting {b : Attempt} (h : a.Moves s w b) (hb : b.phase = .starting) :
    b = a := by
  cases h with
  | idle => rfl
  | decided _ _ hn => cases hn <;> cases hb
  | polled => dsimp only at hb; split at hb <;> cases hb
  | slept => cases hb
  | retried => cases hb
  | content | begun | unreachable | arrived | gaveUp => cases hb

end Attempt

namespace Pursuit

variable {s : Settings} {p : Pursuit}

/-- The events that the attempt of a pursuit emits. -/
def told (s : Settings) (p : Pursuit) : List Turn → List Event
  | [] => []
  | .step :: turns => p.attempt.newEvents s p.world ++ told s (p.next s .step) turns
  | .others w :: turns => told s (p.next s (.others w)) turns

theorem told_append (s : Settings) (p : Pursuit) (turns more : List Turn) :
    p.told s (turns ++ more) = p.told s turns ++ (p.run s turns).told s more := by
  induction turns generalizing p with
  | nil => rfl
  | cons t turns ih =>
    cases t with
    | step => rw [List.cons_append, told, told, run_cons, ih, List.append_assoc]
    | others w => rw [List.cons_append, told, told, run_cons, ih]

theorem next_ending?_of_some {e : Ending} (h : p.attempt.ending? = some e) (t : Turn) :
    (p.next s t).attempt.ending? = some e := by
  cases t with
  | step => exact (congrArg (·.1.ending?) (Attempt.step_ending?_of_some h)).trans h
  | others w =>
    unfold next
    dsimp only
    split <;> exact h

theorem run_ending?_of_some {e : Ending} (h : p.attempt.ending? = some e) (turns : List Turn) :
    (p.run s turns).attempt.ending? = some e := by
  induction turns generalizing p with
  | nil => exact h
  | cons t turns ih => exact ih (next_ending?_of_some h t)

/-- An attempt that has not ended has told nothing. -/
theorem told_eq_nil {turns : List Turn} (h : (p.run s turns).attempt.ending? = none) :
    p.told s turns = [] := by
  induction turns generalizing p with
  | nil => rfl
  | cons t turns ih =>
    have hnext : (p.next s t).attempt.ending? = none := by
      rw [Option.eq_none_iff_forall_ne_some]
      intro e he
      rw [run_cons, run_ending?_of_some he] at h
      cases h
    cases t with
    | others w => exact ih h
    | step =>
      have hn : p.attempt.ending? = none := by
        rw [Option.eq_none_iff_forall_ne_some]
        intro e he
        rw [next_ending?_of_some he] at hnext
        cases hnext
      rw [told, ih h, List.append_nil]
      rcases Attempt.step_ends s p.world hn with ⟨-, hnew⟩ | ⟨e, he⟩
      · exact hnew
      · cases hnext.symm.trans he.ending

/-- An attempt takes its workload for written if and only if it wrote it, which it has not at the
start. -/
structure Remembers (p : Pursuit) : Prop where
  starting : p.attempt.phase = .starting → p.wrote = []
  written : p.attempt.written = true ↔ p.wrote ≠ []

theorem Remembers.next (h : p.Remembers) (t : Turn) : (p.next s t).Remembers := by
  cases t with
  | others w =>
    unfold Pursuit.next
    dsimp only
    split <;> exact ⟨h.starting, h.written⟩
  | step =>
    rcases p.attempt.step_moves s p.world with ⟨n, new, v, hl⟩ | ⟨hh, -, hm⟩ | ⟨hh, -, hb⟩
    · rw [next_of_lands hl]
      exact ⟨nofun, by simp⟩
    · rw [next_of_history hh]
      exact ⟨fun hp => h.starting (hm.eq_of_starting hp ▸ hp), hm.written ▸ h.written⟩
    · rw [next_of_history hh, hb]
      exact ⟨nofun, h.written⟩

theorem Remembers.run (h : p.Remembers) (turns : List Turn) : (p.run s turns).Remembers := by
  induction turns generalizing p with
  | nil => exact h
  | cons t turns ih => exact ih (h.next t)

theorem remembers_launch (item : Workload) (target : Target) (w : World) :
    (launch item target w).Remembers :=
  ⟨fun _ => rfl, by simp [launch, Attempt.launch]⟩

/-- With its own steps an attempt adds to the events what it tells, and does not touch the entries
of other keys. -/
def Minds (s : Settings) (item : Workload) (p : Pursuit) (t : Turn) : Prop :=
  t = .step → (p.next s t).world.events = p.world.events ++ p.told s [t] ∧
    ∀ key ≠ item.key, (p.next s t).world.registry.get? key = p.world.registry.get? key

theorem minds_run {item : Workload} (h : p.attempt.item = item) (turns : List Turn) :
    AtEach (next s) (Minds s item) p turns := by
  induction turns generalizing p with
  | nil => trivial
  | cons t turns ih =>
    refine ⟨?_, ih ((next_item s p t).trans h)⟩
    rintro rfl
    refine ⟨?_, fun key hkey => p.attempt.step_get?_of_ne s p.world ?_⟩
    · rw [told, told, List.append_nil]
      exact p.attempt.step_events s p.world
    · rwa [Attempt.key, h]

/-- What goes with an ending: what the attempt told altogether and what it wrote, and what its last
step made of the registry. -/
def Recorded (item : Workload) (target : Target) (told : List Event) (wrote : List Int)
    (before after : Registry) : Ending → Prop
  | .failed e =>
    told = [.about item (.failed e.message)] ∧
      ∃ x, after.get? item.key = some x ∧ x.failure = true ∧ x.scaling = false ∧
        x.failureMessage = e.message ∧
        x.desired = (before.target? item.key).getD target.replicas
  | .done .quotaDenied =>
    (∃ n quota shortfall, told = [.about item (.quotaExceeded n quota shortfall)]) ∧
      after.get? item.key =
        ((before.get? item.key).filter (·.failure)).map ({ · with scaling := false })
  | .done (.scaled n) => told = [.about item (.scaled item.spec n target.state)]
  | .done .unchanged => told = [] ∧ wrote = []
  | .done .removed => told = [] ∧ after.get? item.key = none

/-- What the last step of an attempt leaves behind goes with its ending. -/
theorem recorded_of_ends {e : Ending} (hremembers : p.Remembers)
    (h : p.attempt.Ends s p.world e) :
    Recorded p.attempt.item p.attempt.target (p.attempt.newEvents s p.world)
      (p.next s .step).wrote p.world.registry (p.next s .step).world.registry e := by
  obtain ⟨hending, htells, hleaves⟩ := h
  generalize p.attempt.newEvents s p.world = told at htells
  cases htells with
  | failed err => exact ⟨rfl, hleaves⟩
  | scaled n => exact rfl
  | denied _ quota shortfall => exact ⟨⟨_, quota, shortfall, rfl⟩, hleaves⟩
  | removed => exact ⟨rfl, hleaves⟩
  | unchanged hw =>
    refine ⟨rfl, ?_⟩
    have hwrote : p.wrote = [] := by
      rcases hw with hp | hw
      · exact hremembers.starting hp
      · by_contra hne
        exact Bool.false_ne_true (hw.symm.trans (hremembers.written.2 hne))
    rcases p.attempt.step_moves s p.world with ⟨n, new, v, hl⟩ | ⟨hh, -⟩ | ⟨hh, -⟩
    · rw [hl.step] at hending
      cases hending
    · rw [next_of_history hh]
      exact hwrote
    · rw [next_of_history hh]
      exact hwrote

/-- **An attempt that returns leaves what goes with its ending, whatever others did meanwhile.**
After a failure there is one warning with the error, and an entry that is failed and not in flight,
with the error's text and the target in force; after a refusal there is one warning, and the entry
stays only if it was a failed one, which then is not in flight; after a scaling there is one normal
event; else there is no event, and either nothing was written or the entry is gone.  The attempt
told nothing before its last step, and no step touched the entry of another key. -/
theorem ending_recorded (s : Settings) (item : Workload) (target : Target) (w : World)
    (turns : List Turn) {e : Ending}
    (hnone : ((launch item target w).run s turns).attempt.ending? = none)
    (hend : (((launch item target w).run s turns).next s .step).attempt.ending? = some e) :
    let p := launch item target w
    let q := p.run s turns
    p.told s turns = [] ∧
      Recorded item target (p.told s (turns ++ [.step])) (q.next s .step).wrote
        q.world.registry (q.next s .step).world.registry e ∧
      AtEach (next s) (Minds s item) p (turns ++ [.step]) := by
  intro p q
  have hitem : q.attempt.item = item := run_item s p turns
  have htarget : q.attempt.target = target := run_target s p turns
  have hquiet : p.told s turns = [] := told_eq_nil hnone
  refine ⟨hquiet, ?_, minds_run (show p.attempt.item = item from rfl) _⟩
  have hends : q.attempt.Ends s q.world e := by
    rcases Attempt.step_ends s q.world hnone with ⟨hgoes, -⟩ | ⟨e', he⟩
    · cases hgoes.symm.trans hend
    · rwa [Option.some.inj (hend.symm.trans he.ending)]
  have htold : p.told s (turns ++ [.step]) = q.attempt.newEvents s q.world := by
    rw [told_append, hquiet]
    exact List.append_nil _
  have hrecorded := recorded_of_ends ((remembers_launch item target w).run turns) hends
  rwa [hitem, htarget, ← htold] at hrecorded

/-- Others give the workload another target while its attempt meets one conflict after the other. -/
theorem ending_recorded_revised :
    let x : Workload := .sample ⟨.deployment, "shop", "api"⟩ "3"
    let shop (desired : Int) (now : Nat) : World :=
      { cluster := { World.cluster (.holding [x]) with pendingConflicts := 1 }
        registry := (Registry.claim ∅ x desired).2, now }
    let p := launch x ⟨"up", 3⟩ (shop 3 0)
    let turns : List Turn := [.step, .step, .step, .others (shop 3 10), .step, .others (shop 5 20),
      .step, .others (shop 7 30), .step, .others (shop 7 40)]
    let e : ScaleError := .retriesExhausted x.key 5
    (p.run (.standard .rapid) turns).attempt.ending? = none ∧
      ((p.run (.standard .rapid) turns).next (.standard .rapid) .step).attempt.ending? =
        some (.failed e) ∧
      p.told (.standard .rapid) (turns ++ [.step]) = [.about x (.failed e.message)] ∧
      ∃ entry, ((p.run (.standard .rapid) turns).next (.standard .rapid) .step).world.registry.get?
          x.key = some entry ∧ entry.failure = true ∧ entry.scaling = false ∧
        entry.failureMessage = e.message ∧ entry.desired = 7 := by
  intro x shop p turns e
  have hnone : (p.run (.standard .rapid) turns).attempt.ending? = none := by decide +kernel
  have hend : ((p.run (.standard .rapid) turns).next (.standard .rapid) .step).attempt.ending? =
      some (.failed e) := by decide +kernel
  have htarget : (p.run (.standard .rapid) turns).world.registry.target? x.key = some 7 := by
    decide +kernel
  have h := ending_recorded (.standard .rapid) x ⟨"up", 3⟩ (shop 3 0) turns hnone hend
  clear_value turns
  obtain ⟨htold, entry, hget, hfailure, hscaling, hmessage, hdesired⟩ := h.2.1
  refine ⟨hnone, hend, htold, entry, hget, hfailure, hscaling, hmessage, hdesired.trans ?_⟩
  exact congrArg (·.getD 3) htarget

end Pursuit

end ReplicaControl
