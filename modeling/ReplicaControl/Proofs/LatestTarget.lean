import ReplicaControl.Proofs.ActiveEntries
import ReplicaControl.Proofs.Pursuit
import ReplicaControl.Proofs.RegistryCalls
import ReplicaControl.Proofs.Sample

/-!
# Success serves the latest target

An attempt compares what it knows of its workload with the target in force right before it returns,
in one step with the return, so that a revision is never lost.  What it knows is what it wrote last,
or what it read last in a wait for readiness.

* `Reaction.Spares`, `World.RulesSpare` — nobody reacts to a write by giving a workload another
  count.
* `Pursuit.Knows` — the invariant: what the attempt knows when it decides.  `Knows.run`: it holds
  after any turns.
* `Pursuit.scaled_latest_target` — the main theorem.
-/

namespace ReplicaControl

/-- The reaction does not give a workload another count. -/
def Reaction.Spares (id : WorkloadId) : Reaction → Prop
  | .change (.put x) => x.id ≠ id
  | .change (.delete other) => other ≠ id
  | .change _ | .claimWritten _ => True

/-- Nothing that happens after a write gives a workload another count. -/
def World.RulesSpare (w : World) (id : WorkloadId) : Prop :=
  ∀ rule ∈ w.rules, ∀ r ∈ rule.reactions, r.Spares id

theorem World.RulesSpare.of_rules {w w' : World} {id : WorkloadId} (h : w.RulesSpare id)
    (hr : w'.rules = w.rules) : w'.RulesSpare id := by
  unfold World.RulesSpare
  rw [hr]
  exact h

/-- Changes in place that keep the count of a workload keep all counts. -/
theorem Inventory.spec_adjust (inv : Inventory) (id other : WorkloadId) {f : Workload → Workload}
    (keeps : ∀ x, (f x).id = x.id) (hf : ∀ x, (f x).spec = x.spec) :
    ((inv.adjust other f keeps).get? id).map (·.spec) = (inv.get? id).map (·.spec) := by
  rw [Inventory.get?_adjust]
  split
  · subst id
    rw [Option.map_map]
    exact congrArg (Option.map · _) (funext hf)
  · rfl

theorem Reaction.Spares.count? {id : WorkloadId} {r : Reaction} (h : r.Spares id) (x : Workload)
    (w : World) : (World.react x w r).count? id = w.count? id := by
  unfold World.count?
  cases r with
  | claimWritten => rfl
  | change d =>
    cases d with
    | put y =>
      show ((w.cluster.inventory.put y).get? id).map (·.spec) = _
      rw [Inventory.get?_put, if_neg (Ne.symm h)]
    | delete other =>
      show ((w.cluster.inventory.erase other).get? id).map (·.spec) = _
      rw [Inventory.get?_erase, if_neg (Ne.symm h)]
    | setReady other | setCondition other | optIn other =>
      exact w.cluster.inventory.spec_adjust id other (by exact fun _ => rfl) (by exact fun _ => rfl)
    | setDefinitions | setClusterStates | setNamespaceStates | setQuota | setAutoReady
    | injectConflicts => rfl

theorem World.RulesSpare.count?_afterWrite {w : World} {id : WorkloadId} (h : w.RulesSpare id)
    (x : Workload) : (w.afterWrite x).count? id = w.count? id := by
  refine World.afterWrite_induction_of_mem (fun v => v.count? id = w.count? id) rfl ?_
  intro v rule hrule r hr hv
  exact ((h rule hrule r hr).count? x v).trans hv

namespace Pursuit

variable {s : Settings} {p : Pursuit}

/-- What an attempt knows of its workload. -/
structure Knows (s : Settings) (p : Pursuit) : Prop where
  fresh : p.attempt.phase = .starting → p.attempt.written = false
  written : p.attempt.written = true → p.wrote ≠ []
  direct : s.config.mode = .rapid → ¬ p.attempt.Waits
  /-- What was written last is stored, as long as nobody gives the workload another count. -/
  stored : p.attempt.phase ≠ .aborted → p.crossed = false → ∀ n, p.wrote.getLast? = some n →
    p.world.count? p.attempt.item.id = some n
  /-- An attempt that decides was the last to write, or read its workload just now. -/
  current : p.attempt.phase = .deciding → p.attempt.written = true →
    (p.wrote.getLast? = some p.attempt.current.spec ∧
      (p.world.RulesSpare p.attempt.item.id →
        p.world.count? p.attempt.item.id = some p.attempt.current.spec)) ∨
    (s.config.mode = .step ∧ p.world.count? p.attempt.item.id = some p.attempt.current.spec)

theorem knows_launch (s : Settings) (item : Workload) (target : Target) (w : World) :
    (launch item target w).Knows s where
  fresh := fun _ => rfl
  written := nofun
  direct := by
    rintro - ⟨wait, h | ⟨wake, h⟩⟩ <;> cases h
  stored := fun _ _ n h => by cases h
  current := nofun

/-- A step that writes nothing and leaves the workloads as they are, and the attempt in a phase in
which it knows enough. -/
theorem Knows.of_phase (h : p.Knows s) {phase : Phase} {current : Workload} {w : World}
    (hcount : w.count? p.attempt.item.id = p.world.count? p.attempt.item.id)
    (hlive : p.attempt.phase ≠ .aborted) (hstart : phase ≠ .starting)
    (hwaits : s.config.mode = .rapid →
      ¬ Attempt.Waits { p.attempt with current, phase })
    (hdecides : phase = .deciding → p.attempt.written = true →
      s.config.mode = .step ∧ w.count? p.attempt.item.id = some current.spec) :
    Knows s { p with attempt := { p.attempt with current, phase }, world := w } where
  fresh := fun hp => absurd hp hstart
  written := h.written
  direct := hwaits
  stored := fun _ hcrossed n hn => hcount.trans (h.stored hlive hcrossed n hn)
  current := fun hp hw => .inr (hdecides hp hw)

theorem not_waits {a : Attempt} (hpolling : ∀ wait, a.phase ≠ .polling wait)
    (hwaiting : ∀ wait wake, a.phase ≠ .waiting wait wake) : ¬ a.Waits := by
  rintro ⟨wait, hp | ⟨wake, hp⟩⟩
  · exact hpolling wait hp
  · exact hwaiting wait wake hp

theorem Knows.moves (h : p.Knows s) {b : Attempt} {w : World}
    (hmoves : p.attempt.Moves s p.world b)
    (hinv : w.cluster.inventory = p.world.cluster.inventory) (hrules : w.rules = p.world.rules) :
    Knows s { p with attempt := b, world := w } := by
  have hcount : w.count? p.attempt.item.id = p.world.count? p.attempt.item.id :=
    World.count?_of_inventory hinv _
  cases hmoves with
  | idle =>
    refine ⟨h.fresh, h.written, h.direct, ?_, fun hp hw => ?_⟩
    · exact fun hp hc n hn => hcount.trans (h.stored hp hc n hn)
    · rcases h.current hp hw with ⟨hlast, hspare⟩ | ⟨hmode, hc⟩
      · exact .inl ⟨hlast, fun hs => hcount.trans (hspare (hs.of_rules hrules.symm))⟩
      · exact .inr ⟨hmode, hcount.trans hc⟩
  | content hp =>
    exact h.of_phase hcount (by simp [hp]) nofun (fun _ => not_waits nofun nofun) nofun
  | begun hp =>
    refine h.of_phase hcount (by simp [hp]) nofun (fun _ => not_waits nofun nofun) fun _ hw => ?_
    rw [h.fresh hp] at hw
    cases hw
  | unreachable hp =>
    exact h.of_phase hcount (by simp [hp]) nofun (fun _ => not_waits nofun nofun) nofun
  | decided hp hne hn =>
    cases hn with
    | write => exact h.of_phase hcount (by simp [hp]) nofun (fun _ => not_waits nofun nofun) nofun
    | wait hmode =>
      refine h.of_phase hcount (by simp [hp]) nofun (fun hrapid => ?_) nofun
      rw [hmode] at hrapid
      cases hrapid
    | abort => exact h.of_phase hcount (by simp [hp]) nofun (fun _ => not_waits nofun nofun) nofun
  | arrived hp =>
    exact h.of_phase hcount (by simp [hp]) nofun (fun _ => not_waits nofun nofun) nofun
  | gaveUp hp =>
    exact h.of_phase hcount hp.ne_aborted nofun (fun _ => not_waits nofun nofun) nofun
  | @polled wait live hp hget =>
    have hmode : s.config.mode = .step := by
      cases hm : s.config.mode with
      | rapid => exact absurd hp.waits (h.direct hm)
      | step => rfl
    refine h.of_phase hcount hp.isUnderway.ne_aborted ?_ (fun hrapid => ?_) fun _ _ => ⟨hmode, ?_⟩
    · split <;> exact nofun
    · rw [hmode] at hrapid
      cases hrapid
    · exact hcount.trans (World.count?_of_get? hget)
  | slept hp =>
    exact h.of_phase hcount hp.isUnderway.ne_aborted nofun
      (fun hrapid => absurd hp.waits (h.direct hrapid)) nofun
  | retried hp =>
    exact h.of_phase hcount hp.isUnderway.ne_aborted nofun (fun _ => not_waits nofun nofun) nofun

theorem Knows.next_step (h : p.Knows s) : (p.next s .step).Knows s := by
  rcases p.attempt.step_moves s p.world with
    ⟨n, new, v, hl⟩ | ⟨hsame, hinv, hmoves⟩ | ⟨hsame, -, hstep⟩
  · rw [next_of_lands hl]
    refine ⟨nofun, fun _ => ?_, ?_, ?_, ?_⟩
    · exact List.append_ne_nil_of_right_ne_nil _ (List.cons_ne_nil n [])
    · exact fun _ => not_waits nofun nofun
    · intro _ hcrossed m hm
      rw [List.getLast?_concat] at hm
      obtain rfl := Option.some.inj hm
      simpa using hcrossed
    · refine fun _ _ => .inl ⟨?_, fun hspare => ?_⟩
      · rw [List.getLast?_concat, hl.spec]
      · have hv : v.RulesSpare p.attempt.item.id := hspare.of_rules (v.afterWrite_rules new).symm
        show (v.afterWrite new).count? p.attempt.item.id = some new.spec
        rw [hv.count?_afterWrite, hl.stored, hl.spec]
  · rw [next_of_history hsame]
    exact h.moves hmoves hinv (p.attempt.step_rules s p.world)
  · rw [next_of_history hsame, hstep]
    exact ⟨nofun, h.written, fun _ => not_waits nofun nofun, fun hp => absurd rfl hp, nofun⟩

theorem Knows.next_others (h : p.Knows s) (w : World) : (p.next s (.others w)).Knows s := by
  by_cases hr : p.attempt.isAtRest = true
  · rw [Pursuit.next_others hr]
    refine ⟨h.fresh, h.written, h.direct, fun hp hcrossed n hn => ?_, fun hp => ?_⟩
    · obtain ⟨hbefore, hsame⟩ : p.crossed = false ∧
          w.count? p.attempt.item.id = p.world.count? p.attempt.item.id := by
        simpa using hcrossed
      exact hsame.trans (h.stored hp hbefore n hn)
    · have hp : p.attempt.phase = .deciding := hp
      simp [Attempt.isAtRest, hp] at hr
  · rw [next, if_neg hr]
    exact h

theorem Knows.run (h : p.Knows s) (turns : List Turn) : (p.run s turns).Knows s := by
  induction turns generalizing p with
  | nil => exact h
  | cons t turns ih =>
    refine ih ?_
    cases t with
    | step => exact h.next_step
    | others w => exact h.next_others w

/-- An attempt that returns a success has written, and finds its workload at the target in force. -/
theorem Returns.scaled {n : Int} (h : p.Returns s (.scaled n)) :
    p.attempt.phase = .deciding ∧ p.attempt.written = true ∧ p.attempt.current.spec = n ∧
      n = p.attempt.desired p.world.registry ∧
      (p.attempt.step s p.world).2.cluster.history = p.world.cluster.history ∧
      (p.next s .step).world.count? p.attempt.item.id = p.world.count? p.attempt.item.id := by
  obtain ⟨hnone, hend⟩ := h
  rcases p.attempt.step_moves s p.world with
    ⟨m, new, v, hl⟩ | ⟨hsame, hinv, hmoves⟩ | ⟨hsame, -, hstep⟩
  · rw [next_of_lands hl] at hend
    cases hend
  · rw [next_of_history hsame] at hend ⊢
    have hcount : World.count? (p.attempt.step s p.world).2 p.attempt.item.id =
        p.world.count? p.attempt.item.id := World.count?_of_inventory hinv _
    dsimp only at hend
    generalize (p.attempt.step s p.world).1 = b at hmoves hend
    cases hmoves with
    | arrived hp heq =>
      cases hw : p.attempt.written with
      | true =>
        have hn : p.attempt.current.spec = n := by simpa [Attempt.ending?, hw] using hend
        exact ⟨hp, rfl, hn, hn ▸ heq, hsame, hcount⟩
      | false => simp [Attempt.ending?, hw] at hend
    | gaveUp _ hs => exact absurd (Option.some.inj hend) (hs n)
    | idle => rw [hnone] at hend; cases hend
    | content => cases hend
    | begun => cases hend
    | unreachable => cases hend
    | decided _ _ hn => cases hn <;> cases hend
    | polled =>
      rw [Attempt.ending?_of_ne_ended (by dsimp only; split <;> simp)] at hend
      cases hend
    | slept => cases hend
    | retried => cases hend
  · rw [next_of_history hsame, hstep] at hend
    cases hend

/-- What an attempt leaves behind that knows its workload and returns a success. -/
theorem Knows.returns (hk : p.Knows s) {n : Int}
    (hentry : p.world.registry.contains p.attempt.key = true) (h : p.Returns s (.scaled n)) :
    p.world.registry.target? p.attempt.key = some n ∧
      (p.next s .step).world.registry.get? p.attempt.key = none ∧
      (p.next s .step).wrote ≠ [] ∧
      (s.config.mode = .rapid ∨ (p.next s .step).crossed = false →
        (p.next s .step).wrote.getLast? = some n) ∧
      ((p.next s .step).world.count? p.attempt.item.id ≠ some n →
        (p.next s .step).wrote.getLast? = some n ∧ (p.next s .step).crossed = true ∧
          ¬ (p.next s .step).world.RulesSpare p.attempt.item.id) := by
  obtain ⟨hp, hwritten, rfl, htarget, hsame, hcount⟩ := h.scaled
  obtain ⟨e, he⟩ : ∃ e, p.world.registry.get? p.attempt.key = some e := by
    rw [Table.contains_eq_isSome] at hentry
    exact Option.isSome_iff_exists.1 hentry
  have hlive : p.attempt.phase ≠ .aborted := by simp [hp]
  have hrules : (p.next s .step).world.rules = p.world.rules := p.attempt.step_rules s p.world
  have hcrossed : (p.next s .step).crossed = p.crossed := by rw [next_of_history hsame]
  have hwrote : (p.next s .step).wrote = p.wrote := by rw [next_of_history hsame]
  rw [hcount, hcrossed, hwrote]
  -- The count that was written last, and what the workload has if nobody gave it another one.
  obtain ⟨m, hm⟩ : ∃ m, p.wrote.getLast? = some m := by
    rw [List.getLast?_eq_some_getLast (hk.written hwritten)]
    exact ⟨_, rfl⟩
  refine ⟨?_, ?_, hk.written hwritten, fun hlast => ?_, fun hlost => ?_⟩
  · rw [htarget, Attempt.desired_eq, Registry.target?, he]
    rfl
  · refine Attempt.get?_step_of_done h.1 (by simp) h.2 fun hs => ?_
    cases hs.2.1.symm.trans hwritten
  · rcases hk.current hp hwritten with ⟨hcurrent, -⟩ | ⟨hmode, hread⟩
    · exact hcurrent
    · rcases hlast with hrapid | hkept
      · cases hmode.symm.trans hrapid
      · rw [hm, ← hk.stored hlive hkept m hm, hread]
  · rcases hk.current hp hwritten with ⟨hcurrent, hspare⟩ | ⟨-, hread⟩
    · refine ⟨hcurrent, ?_, fun hspares => hlost (hspare (hspares.of_rules hrules.symm))⟩
      by_contra hkept
      exact hlost (hk.stored hlive (Bool.eq_false_iff.2 hkept) _ hcurrent)
    · exact absurd hread hlost

/-- **A success serves the latest target.**  If the registry has an entry for the key of an attempt
that returns a success, whatever went on while the attempt was suspended, then the count is the one
that the last claim or upsert of the key stored, and the entry is gone.  It is also the last count
that the attempt wrote, in step mode unless others gave the workload another count since then; and
it is the stored count, unless it was written last and others gave the workload another count in
reaction to that. -/
theorem scaled_latest_target (s : Settings) (item : Workload) (target : Target) (w : World)
    (turns : List Turn) {n : Int}
    (hentry : ((launch item target w).run s turns).world.registry.contains item.key = true)
    (h : ((launch item target w).run s turns).Returns s (.scaled n)) :
    let p := (launch item target w).run s turns
    let q := p.next s .step
    (∀ (r : Registry) calls, p.world.registry = r.applyAll calls →
      (Registry.latestIntent? item.key calls).or (r.target? item.key) = some n) ∧
      q.world.registry.get? item.key = none ∧
      q.wrote ≠ [] ∧
      (s.config.mode = .rapid ∨ q.crossed = false → q.wrote.getLast? = some n) ∧
      (q.world.count? item.id ≠ some n →
        q.wrote.getLast? = some n ∧ q.crossed = true ∧ ¬ q.world.RulesSpare item.id) := by
  have hitem : ((launch item target w).run s turns).attempt.item = item := run_item s _ turns
  have hknows := (knows_launch s item target w).run turns
  have hkey : ((launch item target w).run s turns).attempt.key = item.key :=
    congrArg Workload.key hitem
  generalize (launch item target w).run s turns = p at *
  rw [← hkey] at hentry ⊢
  rw [← hitem]
  obtain ⟨htarget, hrest⟩ := hknows.returns hentry h
  refine ⟨fun r calls hcalls => Registry.target?_of_applyAll ?_, hrest⟩
  rw [← hcalls]
  exact htarget

/-- The target is revised twice while the attempt waits for its next try to write 2; in the end it
is the count that the workload had in the beginning. -/
theorem scaled_latest_target_back_again :
    let x : Workload :=
      { Workload.sample ⟨.deployment, "shop", "api"⟩ "3" with spec := 1, ready := 1 }
    let shop (conflicts now : Nat) (calls : List Registry.Call) : World :=
      { cluster := { (World.holding [x]).cluster with pendingConflicts := conflicts }
        registry := .applyAll ∅ calls, now }
    let turns : List Turn :=
      List.replicate 4 .step ++ .others (shop 0 5000 [.claim x 3, .claim x 7, .claim x 1]) ::
        List.replicate 4 .step
    ((launch x ⟨"up", 3⟩ (shop 1 0 [.claim x 3])).run
        (.standard .step) turns).world.registry.contains x.key = true ∧
      ((launch x ⟨"up", 3⟩ (shop 1 0 [.claim x 3])).run
        (.standard .step) turns).Returns (.standard .step) (.scaled 1) ∧
      ((launch x ⟨"up", 3⟩ (shop 1 0 [.claim x 3])).run (.standard .step) turns).wrote = [2, 1] ∧
      ((launch x ⟨"up", 3⟩ (shop 1 0 [.claim x 3])).run
        (.standard .step) turns).world.registry.target? x.key = some 1 ∧
      (((launch x ⟨"up", 3⟩ (shop 1 0 [.claim x 3])).run
        (.standard .step) turns).next (.standard .step) .step).world.count? x.id = some 1 := by
  intro x shop turns
  have hentry : ((launch x ⟨"up", 3⟩ (shop 1 0 [.claim x 3])).run
      (.standard .step) turns).world.registry.contains x.key = true := by decide +kernel
  have hreturns : ((launch x ⟨"up", 3⟩ (shop 1 0 [.claim x 3])).run
      (.standard .step) turns).Returns (.standard .step) (.scaled 1) := by
    constructor <;> decide +kernel
  have hkept : (((launch x ⟨"up", 3⟩ (shop 1 0 [.claim x 3])).run
      (.standard .step) turns).next (.standard .step) .step).crossed = false := by decide +kernel
  obtain ⟨htarget, -, -, -, hstored⟩ := scaled_latest_target (.standard .step) x ⟨"up", 3⟩
    (shop 1 0 [.claim x 3]) turns hentry hreturns
  have hlatest := htarget _ [] rfl
  rw [show Registry.latestIntent? x.key [] = none from rfl, Option.none_or] at hlatest
  have hcount : (((launch x ⟨"up", 3⟩ (shop 1 0 [.claim x 3])).run
      (.standard .step) turns).next (.standard .step) .step).world.count? x.id = some 1 := by
    by_contra hlost
    exact absurd (hstored hlost).2.1 (by rw [hkept]; exact Bool.false_ne_true)
  exact ⟨hentry, hreturns, by decide +kernel, hlatest, hcount⟩

/-- In step mode others may put the workload at the target while the attempt waits after its first
write: it succeeds at a count that it never wrote.  In either mode another count may be stored right
after the write of the target. -/
theorem not_scaled_latest_target_others_write :
    let x : Workload :=
      { Workload.sample ⟨.deployment, "shop", "api"⟩ "3" with spec := 1, ready := 1 }
    let shop (count : Int) (now : Nat) (rules : List Rule) : World :=
      { cluster := { World.cluster (.holding [{ x with spec := count, ready := count }]) with
          autoReady := false }
        registry := .applyAll ∅ [.claim x 3], now, rules }
    let turns : List Turn := List.replicate 6 .step ++ [.others (shop 3 5000 []), .step]
    let met := launch x ⟨"up", 3⟩ (shop 1 0 [])
    let undone := launch x ⟨"up", 3⟩ (shop 1 0 [⟨some 3, none, [.change (.put x)]⟩])
    (∀ k ≤ turns.length,
      (met.run (.standard .step) (turns.take k)).world.registry.contains x.key = true) ∧
      (met.run (.standard .step) turns).Returns (.standard .step) (.scaled 3) ∧
      ((met.run (.standard .step) turns).next (.standard .step) .step).wrote = [2] ∧
      (∀ k ≤ 3, (undone.run (.standard .rapid) (.replicate k .step)).world.registry.contains x.key =
        true) ∧
      (undone.run (.standard .rapid) (.replicate 3 .step)).Returns (.standard .rapid) (.scaled 3) ∧
      ((undone.run (.standard .rapid) (.replicate 3 .step)).next (.standard .rapid)
        .step).world.count? x.id = some 1 := by
  intro x shop turns met undone
  refine ⟨by decide +kernel, ⟨by decide +kernel, by decide +kernel⟩, by decide +kernel,
    by decide +kernel, ⟨by decide +kernel, by decide +kernel⟩, by decide +kernel⟩

end Pursuit

end ReplicaControl
