import ReplicaControl.Proofs.Course
import ReplicaControl.Proofs.Pursuit
import ReplicaControl.Proofs.Ranges
import ReplicaControl.Proofs.Sample

/-!
# Unit walks

In step mode an attempt whose workload nobody else is at work on writes the counts on the way to its
target in order, each of them once.  Faults, conflicts, quotas, the end of a wait and the deletion
of the workload may end it at any of them.

* `Pursuit.due` — the count that the workload has, as far as the attempt is concerned.
* `Pursuit.Alone` — in a turn nobody else is at work on the workload.
* `Pursuit.Walks` — the invariant: what was written and what is left make the whole way, and where
  the attempt stands fits.  `Walks.run`: it holds after any such turns.
* `Pursuit.unit_walk` — the main theorem.
-/

namespace ReplicaControl

theorem Mode.path_step_eq_nil {start target : Int} :
    Mode.step.path start target = [] ↔ start = target := by
  refine ⟨fun h => ?_, fun h => by rw [h, path_self]⟩
  by_contra hne
  rw [path_step hne] at h
  cases h

namespace Pursuit

variable {s : Settings} {p : Pursuit}

/-- The count that was written last, and before that the one that the workload had. -/
def due (p : Pursuit) : Int := p.wrote.getLastD p.attempt.item.spec

/-- In a world the workload has a count, unless it was deleted, and its key has no other target. -/
def Undisturbed (p : Pursuit) (count : Option Int) (w : World) : Prop :=
  (w.count? p.attempt.item.id = none ∨ w.count? p.attempt.item.id = count) ∧
    ∀ n ∈ w.registry.target? p.attempt.key, n = p.attempt.target.replicas

instance (p : Pursuit) (count : Option Int) (w : World) : Decidable (p.Undisturbed count w) :=
  inferInstanceAs (Decidable (_ ∧ _))

/-- Nobody else is at work on the workload in a turn: neither when others have theirs, nor in
reaction to a write of the attempt. -/
def Alone (s : Settings) (p : Pursuit) : Turn → Prop
  | .step => ∀ n ∈ p.attempt.newCounts s p.world, p.Undisturbed (some n) (p.next s .step).world
  | .others w => p.Undisturbed (p.world.count? p.attempt.item.id) w

instance (s : Settings) (p : Pursuit) : ∀ t, Decidable (p.Alone s t)
  | .step => inferInstanceAs (Decidable (∀ n ∈ _, _))
  | .others _ => inferInstanceAs (Decidable (Undisturbed _ _ _))

/-- How a walk may end: as a success where all of it was written, as unchanged where there was
nothing to write, and otherwise on its way. -/
def EndsAs (p : Pursuit) (e : Ending) : Prop :=
  (∀ n, e = .done (.scaled n) ↔
    n = p.attempt.target.replicas ∧ p.due = p.attempt.target.replicas ∧ p.wrote ≠ []) ∧
  (e = .done .unchanged ↔ p.due = p.attempt.target.replicas ∧ p.wrote = [])

/-- Where an attempt stands that walks unit by unit. -/
def KeepsPace (p : Pursuit) : Prop :=
  match p.attempt.phase with
  | .starting => p.wrote = []
  | .deciding => True
  | .polling wait | .waiting wait _ =>
    p.due ≠ p.attempt.target.replicas ∧ wait.desired = p.attempt.target.replicas ∧
      wait.step = oneToward p.due p.attempt.target.replicas
  | .writing n _ | .backingOff n _ _ =>
    p.due ≠ p.attempt.target.replicas ∧ n = oneToward p.due p.attempt.target.replicas
  | .ended e => p.EndsAs e
  | .aborted => p.due ≠ p.attempt.target.replicas

/-- The attempt walks unit by unit. -/
structure Walks (p : Pursuit) : Prop where
  target : ∀ n ∈ p.world.registry.target? p.attempt.key, n = p.attempt.target.replicas
  /-- What was written and what is left make the whole way. -/
  way : Mode.step.path p.attempt.item.spec p.attempt.target.replicas =
    p.wrote ++ Mode.step.path p.due p.attempt.target.replicas
  written : p.attempt.written = true ↔ p.wrote ≠ []
  current : p.attempt.current.spec = p.due
  stored : p.attempt.phase ≠ .aborted →
    p.world.count? p.attempt.item.id = none ∨ p.world.count? p.attempt.item.id = some p.due
  pace : p.KeepsPace

namespace Walks

theorem of_polls (h : p.Walks) {wait : Wait} (hp : p.attempt.Polls p.world wait) :
    p.due ≠ p.attempt.target.replicas ∧ wait.desired = p.attempt.target.replicas ∧
      wait.step = oneToward p.due p.attempt.target.replicas := by
  have hpace := h.pace
  rcases hp with hp | ⟨wake, hp, -⟩ <;> rw [KeepsPace, hp] at hpace <;> exact hpace

theorem of_tries (h : p.Walks) {n : Int} {k : Nat} (hp : p.attempt.Tries p.world n k) :
    p.due ≠ p.attempt.target.replicas ∧ n = oneToward p.due p.attempt.target.replicas := by
  have hpace := h.pace
  rcases hp with hp | ⟨wake, hp, -⟩ <;> rw [KeepsPace, hp] at hpace <;> exact hpace

/-- In the middle of a wait or of a write there is a count left to write. -/
theorem of_isUnderway (h : p.Walks) (hp : p.attempt.IsUnderway) :
    p.due ≠ p.attempt.target.replicas := by
  have hpace := h.pace
  rcases hp with ⟨wait, hp | ⟨wake, hp⟩⟩ | ⟨n, k, hp | ⟨wake, hp⟩⟩
  all_goals
    rw [KeepsPace, hp] at hpace
    exact hpace.1

theorem of_starting (h : p.Walks) (hp : p.attempt.phase = .starting) : p.wrote = [] := by
  have hpace := h.pace
  rwa [KeepsPace, hp] at hpace

theorem due_of_nil (hnil : p.wrote = []) : p.due = p.attempt.item.spec := by
  rw [due, hnil]
  rfl

theorem not_written_iff (h : p.Walks) : p.attempt.written = false ↔ p.wrote = [] := by
  rw [← Bool.not_eq_true, h.written, not_not]

/-- At its target the attempt returns what it should. -/
theorem endsAs_of_due (h : p.Walks) (hdue : p.due = p.attempt.target.replicas) :
    p.EndsAs
      (.done (if p.attempt.written then .scaled p.attempt.current.spec else .unchanged)) := by
  cases hw : p.attempt.written with
  | true =>
    have hwrote := h.written.1 hw
    refine ⟨fun n => ?_, iff_of_false (by simp) fun hn => hwrote hn.2⟩
    rw [if_pos rfl, h.current.trans hdue]
    exact ⟨fun hn => ⟨by cases hn; rfl, hdue, hwrote⟩, fun hn => by rw [hn.1]⟩
  | false =>
    have hnil := h.not_written_iff.1 hw
    exact ⟨fun n => iff_of_false (by simp) fun hn => hn.2.2 hnil, iff_of_true rfl ⟨hdue, hnil⟩⟩

theorem desired (h : p.Walks) :
    p.attempt.desired p.world.registry = p.attempt.target.replicas := by
  rw [Attempt.desired_eq]
  cases htarget : p.world.registry.target? p.attempt.key with
  | none => rfl
  | some n => exact h.target n htarget

/-- A step that writes nothing. -/
theorem of_phase (h : p.Walks) {phase : Phase} {current : Workload} {w : World}
    (hcount : w.count? p.attempt.item.id = p.world.count? p.attempt.item.id)
    (htarget : ∀ n ∈ w.registry.target? p.attempt.key, n = p.attempt.target.replicas)
    (hlive : p.attempt.phase ≠ .aborted) (hcurrent : current.spec = p.due)
    (hpace : KeepsPace { p with attempt := { p.attempt with current, phase }, world := w }) :
    Walks { p with attempt := { p.attempt with current, phase }, world := w } where
  target := htarget
  way := h.way
  written := h.written
  current := hcurrent
  stored := fun _ => by
    show w.count? p.attempt.item.id = none ∨ w.count? p.attempt.item.id = some p.due
    rw [hcount]
    exact h.stored hlive
  pace := hpace

theorem moves (h : p.Walks) (hmode : s.config.mode = .step)
    (hkind : s.adapters.contains p.attempt.item.kind = true) {b : Attempt} {w : World}
    (hmoves : p.attempt.Moves s p.world b)
    (hinv : w.cluster.inventory = p.world.cluster.inventory)
    (htarget : ∀ n ∈ w.registry.target? p.attempt.key, n = p.attempt.target.replicas) :
    Walks { p with attempt := b, world := w } := by
  have hcount : w.count? p.attempt.item.id = p.world.count? p.attempt.item.id :=
    World.count?_of_inventory hinv _
  cases hmoves with
  | idle =>
    refine ⟨htarget, h.way, h.written, h.current, fun hp => ?_, h.pace⟩
    show w.count? p.attempt.item.id = none ∨ w.count? p.attempt.item.id = some p.due
    rw [hcount]
    exact h.stored hp
  | content hp hspec =>
    have hnil := h.of_starting hp
    refine h.of_phase hcount htarget (by simp [hp]) h.current ⟨fun n => ?_, ?_⟩
    · exact iff_of_false nofun fun hn => hn.2.2 hnil
    · exact iff_of_true rfl ⟨(due_of_nil hnil).trans hspec, hnil⟩
  | begun hp => exact h.of_phase hcount htarget (by simp [hp]) h.current trivial
  | unreachable hp hnone => exact absurd (hkind.symm.trans hnone) nofun
  | decided hp hne hn =>
    rw [h.current, h.desired] at hne
    cases hn with
    | write hrapid => cases hmode.symm.trans hrapid
    | wait =>
      refine h.of_phase hcount htarget (by simp [hp]) h.current ⟨hne, h.desired, ?_⟩
      dsimp only
      rw [h.current, h.desired]
      rfl
    | abort => exact h.of_phase hcount htarget (by simp [hp]) h.current hne
  | arrived hp heq =>
    rw [h.desired] at heq
    exact h.of_phase hcount htarget (by simp [hp]) h.current
      (h.endsAs_of_due (h.current.symm.trans heq))
  | @polled wait live hp hget =>
    obtain ⟨hne, hdesired, -⟩ := h.of_polls hp
    have hspec : live.spec = p.due := by
      have hstored := h.stored hp.isUnderway.ne_aborted
      rw [World.count?_of_get? hget] at hstored
      exact Option.some.inj (hstored.resolve_left nofun)
    refine h.of_phase hcount htarget hp.isUnderway.ne_aborted hspec ?_
    -- What was read is the count that is due, so a wait never ends in a decision.
    rw [hspec, hdesired, if_neg hne]
    exact ⟨hne, rfl⟩
  | slept hp hd hs =>
    obtain ⟨hne, hdesired, hstep⟩ := h.of_polls hp
    exact h.of_phase hcount htarget hp.isUnderway.ne_aborted h.current
      ⟨hne, hd.trans hdesired, hs.trans hstep⟩
  | retried hp => exact h.of_phase hcount htarget hp.isUnderway.ne_aborted h.current (h.of_tries hp)
  | gaveUp hp hs hu =>
    have hne := h.of_isUnderway hp
    refine h.of_phase hcount htarget hp.ne_aborted h.current ⟨fun n => ?_, ?_⟩
    · exact iff_of_false (hs n) fun hn => hne hn.2.1
    · exact iff_of_false hu fun hn => hne hn.1

/-- The next count of the walk is written. -/
theorem lands (h : p.Walks) {n : Int} {new : Workload} {v : World}
    (hl : p.attempt.Lands s p.world n new v) (halone : p.Alone s .step) :
    (p.next s .step).Walks := by
  obtain ⟨k, ht⟩ := hl.tries
  obtain ⟨hne, hn⟩ := h.of_tries ht
  have hund := halone n (by rw [hl.newCounts]; exact List.mem_singleton_self n)
  rw [next_of_lands hl] at hund ⊢
  refine ⟨hund.2, ?_, ?_, ?_, fun _ => ?_, trivial⟩
  · show Mode.step.path p.attempt.item.spec p.attempt.target.replicas =
      (p.wrote ++ [n]) ++ Mode.step.path ((p.wrote ++ [n]).getLastD _) p.attempt.target.replicas
    -- What was left starts with the count that is written now.
    rw [List.getLastD_concat, h.way, Mode.path_step hne, ← hn, List.append_assoc]
    rfl
  · exact iff_of_true rfl (List.append_ne_nil_of_right_ne_nil _ (List.cons_ne_nil n []))
  · show new.spec = (p.wrote ++ [n]).getLastD _
    rw [List.getLastD_concat, hl.spec]
  · show (v.afterWrite new).count? p.attempt.item.id = none ∨
      (v.afterWrite new).count? p.attempt.item.id = some ((p.wrote ++ [n]).getLastD _)
    rw [List.getLastD_concat]
    exact hund.1

theorem next_step (h : p.Walks) (hmode : s.config.mode = .step)
    (hkind : s.adapters.contains p.attempt.item.kind = true) (halone : p.Alone s .step) :
    (p.next s .step).Walks := by
  rcases p.attempt.step_moves s p.world with
    ⟨n, new, v, hl⟩ | ⟨hsame, hinv, hmoves⟩ | ⟨hsame, ⟨n, k, ht⟩, hstep⟩
  · exact h.lands hl halone
  all_goals
    have htarget : ∀ n ∈ (p.attempt.step s p.world).2.registry.target? p.attempt.key,
        n = p.attempt.target.replicas := by
      intro n hn
      rcases p.attempt.step_target? s (.inr hsame) hn with hn | ⟨-, hn⟩
      · exact h.target n hn
      · exact hn
    rw [next_of_history hsame]
  · exact h.moves hmode hkind hmoves hinv htarget
  · rw [hstep]
    exact ⟨htarget, h.way, h.written, h.current, fun hp => absurd rfl hp, (h.of_tries ht).1⟩

theorem next_others (h : p.Walks) {w : World} (halone : p.Alone s (.others w)) :
    (p.next s (.others w)).Walks := by
  by_cases hr : p.attempt.isAtRest = true
  · rw [Pursuit.next_others hr]
    refine ⟨halone.2, h.way, h.written, h.current, fun hp => ?_, h.pace⟩
    rcases halone.1 with hnone | hsame
    · exact .inl hnone
    · show w.count? p.attempt.item.id = none ∨ w.count? p.attempt.item.id = some p.due
      rw [hsame]
      exact h.stored hp
  · rw [next, if_neg hr]
    exact h

theorem next (h : p.Walks) (hmode : s.config.mode = .step)
    (hkind : s.adapters.contains p.attempt.item.kind = true) {t : Turn} (halone : p.Alone s t) :
    (p.next s t).Walks := by
  cases t with
  | step => exact h.next_step hmode hkind halone
  | others w => exact h.next_others halone

/-- **The walk goes on as long as nobody else is at work on the workload.** -/
theorem run (h : p.Walks) (hmode : s.config.mode = .step)
    (hkind : s.adapters.contains p.attempt.item.kind = true) {turns : List Turn}
    (halone : AtEach (Pursuit.next s) (Alone s) p turns) : (p.run s turns).Walks := by
  refine (AtEach.invariant (I := fun p : Pursuit => p.Walks ∧
    s.adapters.contains p.attempt.item.kind = true) ?_ ⟨h, hkind⟩ halone).1
  rintro q t ⟨hq, hkind⟩ halone
  rw [next_item]
  exact ⟨hq.next hmode hkind halone, hkind⟩

/-! ## Where a walk may be -/

theorem wrote_prefix (h : p.Walks) :
    p.wrote <+: Mode.step.path p.attempt.item.spec p.attempt.target.replicas :=
  ⟨_, h.way.symm⟩

/-- All of the way was written once the workload is due to be at the target. -/
theorem wrote_eq_path_iff (h : p.Walks) :
    p.wrote = Mode.step.path p.attempt.item.spec p.attempt.target.replicas ↔
      p.due = p.attempt.target.replicas := by
  rw [h.way, ← Mode.path_step_eq_nil]
  exact List.self_eq_append_right

theorem wrote_eq_nil_of_eq (h : p.Walks) (heq : p.attempt.item.spec = p.attempt.target.replicas) :
    p.wrote = [] := by
  have hway := h.way
  rw [Mode.path_step_eq_nil.2 heq] at hway
  exact (List.append_eq_nil_iff.1 hway.symm).1

/-- There was something to write, and all of it was written. -/
theorem written_iff (h : p.Walks) :
    p.due = p.attempt.target.replicas ∧ p.wrote ≠ [] ↔
      p.attempt.item.spec ≠ p.attempt.target.replicas ∧
        p.wrote = Mode.step.path p.attempt.item.spec p.attempt.target.replicas := by
  rw [h.wrote_eq_path_iff, and_comm]
  refine and_congr_left fun hdue => not_congr ⟨fun hnil => ?_, h.wrote_eq_nil_of_eq⟩
  rw [← due_of_nil hnil, hdue]

theorem nothing_iff (h : p.Walks) :
    p.due = p.attempt.target.replicas ∧ p.wrote = [] ↔
      p.attempt.item.spec = p.attempt.target.replicas := by
  refine ⟨fun ⟨hdue, hnil⟩ => (due_of_nil hnil).symm.trans hdue, fun heq => ?_⟩
  have hnil := h.wrote_eq_nil_of_eq heq
  exact ⟨(due_of_nil hnil).trans heq, hnil⟩

theorem endsAs (h : p.Walks) {e : Ending} (he : p.attempt.ending? = some e) : p.EndsAs e := by
  have hpace := h.pace
  rwa [KeepsPace, Attempt.ending?_eq_some_iff.1 he] at hpace

/-- At its target an attempt that has started returns with its turn. -/
theorem returns (h : p.Walks) (hnone : p.attempt.ending? = none)
    (hdue : p.due = p.attempt.target.replicas) (hstarted : p.attempt.phase ≠ .starting) :
    p.Returns s (if p.wrote = [] then .unchanged else .scaled p.attempt.target.replicas) := by
  have hp : p.attempt.phase = .deciding := by
    have hpace := h.pace
    cases hphase : p.attempt.phase with
    | starting => exact absurd hphase hstarted
    | deciding => rfl
    | ended e => exact absurd (hnone.symm.trans (Attempt.ending?_eq_some_iff.2 hphase)) nofun
    | polling | waiting | writing | backingOff =>
      rw [KeepsPace, hphase] at hpace
      exact absurd hdue hpace.1
    | aborted =>
      rw [KeepsPace, hphase] at hpace
      exact absurd hdue hpace
  have hspec : p.attempt.current.spec = p.attempt.target.replicas := h.current.trans hdue
  refine ⟨hnone, ?_⟩
  show (p.attempt.step s p.world).1.ending? = _
  simp only [Attempt.step, hp, Attempt.decide]
  rw [if_pos (hspec.trans h.desired.symm), Attempt.conclude_fst]
  by_cases hnil : p.wrote = []
  · simp [Attempt.ending?, h.not_written_iff.2 hnil, hnil]
  · simp [Attempt.ending?, h.written.2 hnil, hnil, hspec]

/-- Where there is nothing to write, the attempt returns with its first turn or its second one. -/
theorem returns_unchanged (h : p.Walks) (hmode : s.config.mode = .step)
    (hkind : s.adapters.contains p.attempt.item.kind = true) (hnone : p.attempt.ending? = none)
    (heq : p.attempt.item.spec = p.attempt.target.replicas) :
    p.Returns s .unchanged ∨ (p.next s .step).Returns s .unchanged := by
  obtain ⟨hdue, hnil⟩ := h.nothing_iff.2 heq
  by_cases hp : p.attempt.phase = .starting
  · have hstep : p.attempt.step s p.world = p.attempt.begin s p.world := by
      simp only [Attempt.step, hp]
    have hsame : (p.attempt.step s p.world).2.cluster.history = p.world.cluster.history := by
      rw [hstep, (Attempt.begin_moves hp).2]
    have hcases : (p.next s .step).attempt.ending? = some (.done .unchanged) ∨
        (p.next s .step).attempt.phase = .deciding := by
      show (p.attempt.step s p.world).1.ending? = _ ∨ (p.attempt.step s p.world).1.phase = _
      rw [hstep, Attempt.begin]
      split
      · exact .inl rfl
      · exact .inr rfl
    rcases hcases with hend | hdeciding
    · exact .inl ⟨hnone, hend⟩
    · have halone : p.Alone s .step := by
        intro n hn
        rw [Attempt.newCounts_of_history hsame] at hn
        cases hn
      have hnext := h.next_step hmode hkind halone
      obtain ⟨hdue', hnil'⟩ := hnext.nothing_iff.2 (by rw [next_item, next_target]; exact heq)
      have hreturns := hnext.returns (s := s)
        (by simp [Attempt.ending?, hdeciding]) hdue' (by simp [hdeciding])
      rw [if_pos hnil'] at hreturns
      exact .inr hreturns
  · have hreturns := h.returns (s := s) hnone hdue hp
    rw [if_pos hnil] at hreturns
    exact .inl hreturns

/-- The counts that the attempt computes are in range. -/
theorem isTyped (h : p.Walks) (hstart : IsCount p.attempt.item.spec)
    (htarget : IsCount p.attempt.target.replicas) : p.attempt.phase.IsTyped := by
  have hdue : IsCount p.due := by
    unfold due
    cases hlast : p.wrote.getLast? with
    | none =>
      rw [List.getLast?_eq_none_iff.1 hlast]
      exact hstart
    | some n =>
      have hmem : n ∈ Mode.step.path p.attempt.item.spec p.attempt.target.replicas :=
        h.wrote_prefix.subset (List.mem_of_getLast? hlast)
      have hn := Mode.mem_path hmem
      rw [List.getLastD_eq_getLast?, hlast]
      show IsCount n
      unfold IsCount at *
      omega
  have hpace := h.pace
  unfold KeepsPace at hpace
  unfold Phase.IsTyped
  cases hp : p.attempt.phase with
  | starting | deciding | ended | aborted => trivial
  | polling | waiting =>
    rw [hp] at hpace
    obtain ⟨hne, hdesired, hstep⟩ := hpace
    exact ⟨hdesired ▸ htarget, hstep ▸ hdue.oneToward htarget hne⟩
  | writing | backingOff =>
    rw [hp] at hpace
    obtain ⟨hne, rfl⟩ := hpace
    exact hdue.oneToward htarget hne

end Walks

/-- An attempt that knows the count of its workload begins a walk. -/
theorem walks_launch {item : Workload} {target : Target} {w : World}
    (hcount : w.count? item.id = some item.spec)
    (hentry : ∀ n ∈ w.registry.target? item.key, n = target.replicas) :
    (launch item target w).Walks where
  target := hentry
  way := rfl
  written := iff_of_false nofun fun h => h rfl
  current := rfl
  stored := fun _ => .inr hcount
  pace := rfl

/-- **Step mode walks unit by unit.**  As long as nobody else is at work on a workload that can be
reached, an attempt writes a first part of the counts on the way from its count to the target.  It
returns the target exactly if there was something to write and all of it was written, and then it
does return it; it returns that nothing changed exactly if there was nothing to write, and then its
second turn is its last.  Unless it broke off, a workload that still exists has the count that was
written last, or the one that it had.  No count that it computes is out of range. -/
theorem unit_walk (s : Settings) {item : Workload} {target : Target} {w : World}
    {turns : List Turn} (hmode : s.config.mode = .step)
    (hkind : s.adapters.contains item.kind = true) (hcount : w.count? item.id = some item.spec)
    (hentry : ∀ n ∈ w.registry.target? item.key, n = target.replicas)
    (halone : AtEach (next s) (Alone s) (launch item target w) turns) :
    let p := (launch item target w).run s turns
    let path := Mode.step.path item.spec target.replicas
    p.wrote <+: path ∧
      (∀ e, p.attempt.ending? = some e →
        (∀ n, e = .done (.scaled n) ↔
          n = target.replicas ∧ item.spec ≠ target.replicas ∧ p.wrote = path) ∧
        (e = .done .unchanged ↔ item.spec = target.replicas)) ∧
      (p.attempt.ending? = none → item.spec ≠ target.replicas → p.wrote = path →
        p.Returns s (.scaled target.replicas)) ∧
      (p.attempt.ending? = none → item.spec = target.replicas →
        p.Returns s .unchanged ∨ (p.next s .step).Returns s .unchanged) ∧
      (p.attempt.phase ≠ .aborted → p.world.count? item.id = none ∨
        p.world.count? item.id = some (p.wrote.getLastD item.spec)) ∧
      (IsCount item.spec → IsCount target.replicas → p.attempt.phase.IsTyped) := by
  have hitem : ((launch item target w).run s turns).attempt.item = item := run_item s _ turns
  have htarget : ((launch item target w).run s turns).attempt.target = target :=
    run_target s _ turns
  have hwalks := (walks_launch hcount hentry).run hmode hkind halone
  generalize (launch item target w).run s turns = p at *
  subst hitem htarget
  refine ⟨hwalks.wrote_prefix, fun e he => ?_, fun hnone hne hall => ?_,
    hwalks.returns_unchanged hmode hkind, hwalks.stored, hwalks.isTyped⟩
  · obtain ⟨hscaled, hunchanged⟩ := hwalks.endsAs he
    rw [hwalks.nothing_iff] at hunchanged
    simp only [hwalks.written_iff] at hscaled
    exact ⟨hscaled, hunchanged⟩
  · obtain ⟨hdue, hwrote⟩ := hwalks.written_iff.2 ⟨hne, hall⟩
    have hreturns := hwalks.returns (s := s) hnone hdue fun hp => hwrote (hwalks.of_starting hp)
    rwa [if_neg hwrote] at hreturns

/-- From 1 to 3, where the first write meets a conflict and the workload becomes ready only while
the attempt waits. -/
theorem unit_walk_one_conflict :
    let x : Workload :=
      { Workload.sample ⟨.deployment, "shop", "api"⟩ "3" with spec := 1, ready := 1 }
    let shop (count version conflicts now : Nat) : World :=
      { cluster :=
          { World.cluster (.holding [{ x with spec := count, ready := count, version }]) with
            autoReady := false, pendingConflicts := conflicts }
        registry := (Registry.claim ∅ x 3).2, now }
    let turns : List Turn :=
      .replicate 4 .step ++ .others (shop 1 0 0 5000) :: .replicate 3 .step ++
        .others (shop 2 1 0 9000) :: .replicate 3 .step
    (Settings.standard .step).adapters.contains x.kind = true ∧
      (shop 1 0 1 0).count? x.id = some x.spec ∧
      (∀ n ∈ (shop 1 0 1 0).registry.target? x.key, n = 3) ∧
      AtEach (next (.standard .step)) (Alone (.standard .step))
        (launch x ⟨"up", 3⟩ (shop 1 0 1 0)) turns ∧
      ((launch x ⟨"up", 3⟩ (shop 1 0 1 0)).run (.standard .step) turns).attempt.ending? =
        some (.done (.scaled 3)) ∧
      ((launch x ⟨"up", 3⟩ (shop 1 0 1 0)).run (.standard .step) turns).wrote =
        Mode.step.path 1 3 := by
  intro x shop turns
  have hkind : (Settings.standard .step).adapters.contains x.kind = true := by decide +kernel
  have hcount : (shop 1 0 1 0).count? x.id = some x.spec := by decide +kernel
  have hentry : ∀ n ∈ (shop 1 0 1 0).registry.target? x.key, n = 3 := by decide +kernel
  have halone : AtEach (next (.standard .step)) (Alone (.standard .step))
      (launch x ⟨"up", 3⟩ (shop 1 0 1 0)) turns := by decide +kernel
  have hend : ((launch x ⟨"up", 3⟩ (shop 1 0 1 0)).run (.standard .step) turns).attempt.ending? =
      some (.done (.scaled 3)) := by decide +kernel
  obtain ⟨-, hends, -⟩ := unit_walk (.standard .step) rfl hkind hcount hentry halone
  exact ⟨hkind, hcount, hentry, halone, hend, (((hends _ hend).1 3).1 rfl).2.2⟩

end Pursuit

end ReplicaControl
