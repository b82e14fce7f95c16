import ReplicaControl.Proofs.CycleSchedules

/-!
# Namespaces are isolated

* `Scene.noninterference` — what a cycle for a namespace does depends on the namespace only, and
  concerns nothing else; so cycles for two namespaces commute.  It is so in every order of turns of
  the attempts, and for the rounds that a schedule runs.
* `Scene.shopAlone`, `Scene.shopAndOffice` — two worlds with the same namespace.
-/

namespace ReplicaControl

namespace Scene

variable {w w' : World} {ns : String}

/-- **Reconciling a namespace does not interfere with other namespaces.**  For all configurations,
in calm worlds that have the same for a namespace, whatever else is in them:

* its cycles report the same, and when the attempts that they launch are over, the outcomes, the
  workloads, the entries and the events are the same;
* the attempts are over at some time, in every order of turns in which time goes on and each of them
  gets its turns;
* nothing of other namespaces is touched;
* cycles for two namespaces leave the same workloads and the same registry in either order.

Schedules do the same.  Idle ones in two such worlds report the same about a round for the namespace
and leave the same behind, and the order of two namespaces in a round does not matter, when the
attempts are over. -/
theorem noninterference (s : Settings) {order : Nat → Nat} (horder : order.Injective)
    (hw : w.IsCalm) (hw' : w'.IsCalm) (hagree : w.AgreesOn ns w') :
    (Cycle.ofNamespace s w' ns).1 = (Cycle.ofNamespace s w ns).1 ∧
      (∀ sc sc' : Scene, sc.Reconciling s order w ns → sc'.Reconciling s order w' ns →
        sc.IsOver → sc'.IsOver → Matches ns w w' sc sc') ∧
      (∀ turns, Prompt s order w ns turns → ∃ n,
        ((afterCycle s w ns).after s turns n).Reconciling s order w ns ∧
          ((afterCycle s w ns).after s turns n).IsOver) ∧
      (∀ sc : Scene, sc.Reconciling s order w ns →
        ∀ other, other ≠ ns → w.AgreesOn other sc.world) ∧
      (∀ other, other ≠ ns → ∀ order' : Nat → Nat, order'.Injective →
        ∀ first second first' second' : Scene,
          first.Reconciling s order w ns → first.IsOver →
          second.Reconciling s order' first.world other → second.IsOver →
          first'.Reconciling s order' w other → first'.IsOver →
          second'.Reconciling s order first'.world ns → second'.IsOver →
            second'.world.cluster.inventory = second.world.cluster.inventory ∧
              second'.world.registry = second.world.registry) ∧
      (∀ t t' : Schedule, t.Idle → t'.Idle → t.settings = s → t'.settings = s → t.world = w →
        t'.world = w' → (Simulation.runCycles t [ns]).2.scene.IsOver →
        (Simulation.runCycles t' [ns]).2.scene.IsOver →
          (Simulation.runCycles t' [ns]).1 = (Simulation.runCycles t [ns]).1 ∧
            ∃ sc sc', (Simulation.runCycles t [ns]).2.scene =
                { sc with attempts := t.scene.attempts ++ sc.attempts } ∧
              (Simulation.runCycles t' [ns]).2.scene =
                { sc' with attempts := t'.scene.attempts ++ sc'.attempts } ∧
              Matches ns w w' sc sc') ∧
      ∀ t : Schedule, t.Idle → t.settings = s → t.world = w → ∀ other, other ≠ ns →
        (Simulation.runCycles t [ns]).2.scene.IsOver →
        (Simulation.runCycles t [ns, other]).2.scene.IsOver →
        (Simulation.runCycles t [other]).2.scene.IsOver →
        (Simulation.runCycles t [other, ns]).2.scene.IsOver →
          (Simulation.runCycles t [other, ns]).2.world.cluster.inventory =
              (Simulation.runCycles t [ns, other]).2.world.cluster.inventory ∧
            (Simulation.runCycles t [other, ns]).2.world.registry =
              (Simulation.runCycles t [ns, other]).2.world.registry := by
  refine ⟨(view_afterCycle hw hw' hagree).1, ?_, ?_, ?_, ?_, ?_, ?_⟩
  · intro sc sc' h h' hover hover'
    exact h.matches horder hw hw' hagree h' hover hover'
  · intro turns hprompt
    obtain ⟨n, hover⟩ := hprompt.exists_isOver hw
    exact ⟨n, hprompt.reconciling n, hover⟩
  · intro sc h other hne
    exact h.agreesOn_of_ne hw hne
  · intro other hne order' horder' first second first' second' h₁ o₁ h₂ o₂ h₁' o₁' h₂' o₂'
    exact eq_of_agreesOn fun third =>
      agreesOn_of_order hne horder horder' hw h₁ o₁ h₂ o₂ h₁' o₁' h₂' o₂' third
  · rintro t t' ht ht' hset hset' rfl rfl hover hover'
    exact Schedule.runCycles_matches ht ht' (hset'.trans hset.symm) hw hw' hagree hover hover'
  · rintro t ht - rfl other hne hfirst hsecond hfirst' hsecond'
    exact Schedule.runCycles_comm ht hw hne hfirst hsecond hfirst' hsecond'

/-- A world with one workload, in the namespace `shop`. -/
def shopAlone : World := .holding [.sample ⟨.deployment, "shop", "api"⟩ "1"]

/-- A world with another namespace beside `shop`, which has a failed entry. -/
def shopAndOffice : World :=
  { World.holding
      [.sample ⟨.deployment, "shop", "api"⟩ "1", .sample ⟨.deployment, "office", "mail"⟩ "1"] with
    now := 7
    registry := Registry.upsert ∅ (.sample ⟨.deployment, "office", "old"⟩ "1") true "" 1 }

/-- The scene after a cycle and four turns of its first attempt. -/
def served (w : World) (ns : String) : Scene :=
  (afterCycle (.standard .rapid) w ns).after (.standard .rapid) (fun _ => .attempt 0) 4

/-- The first attempt has some turns, and then takes turns with the clock. -/
def patiently (w : World) (n : Nat) : Move :=
  if n < 4 ∨ n % 2 = 0 then .attempt 0
  else .others { (served w "shop").world with now := n }

theorem inTurn_first (sc : Scene) : sc.InTurn id (.attempt 0) :=
  fun _ _ _ j _ _ _ => Nat.zero_le j

theorem reconciling_served (w : World) (ns : String) :
    (served w ns).Reconciling (.standard .rapid) id w ns :=
  (((Reconciling.launched.next (inTurn_first _)).next (inTurn_first _)).next
    (inTurn_first _)).next (inTurn_first _)

/-- Where one attempt is over after four turns, only the clock goes on then. -/
theorem after_patiently {a : Attempt} (ha : (served w "shop").attempts = [a])
    (hover : a.isOver = true) {n : Nat} (hn : 4 ≤ n) :
    ∃ now, (afterCycle (.standard .rapid) w "shop").after (.standard .rapid) (patiently w) n =
        ⟨{ (served w "shop").world with now }, [a]⟩ ∧
      (n % 2 = 0 → n ≤ now + 5) := by
  have hrest : a.isAtRest = true := by
    unfold Attempt.isOver at hover
    unfold Attempt.isAtRest
    split at hover <;> simp_all
  induction n, hn using Nat.le_induction with
  | base =>
    have hfirst : (afterCycle (.standard .rapid) w "shop").after (.standard .rapid)
        (patiently w) 4 = served w "shop" := by
      simp [served, after, patiently]
    refine ⟨(served w "shop").world.now, ?_, fun _ => by omega⟩
    rw [hfirst, ← ha]
  | succ n hn ih =>
    obtain ⟨now, ih, -⟩ := ih
    rw [after, ih, patiently]
    split
    · refine ⟨now, ?_, fun _ => by omega⟩
      rw [next_attempt rfl rfl, Attempt.step_of_isOver _ _ hover]
      rfl
    · rw [next_others (by simp [isAtRest, hrest])]
      refine ⟨max now n, ?_, fun _ => by omega⟩
      simp only [World.changedTo, Nat.max_self]

/-- Patience lasts: time goes on, and the attempt gets its turns. -/
theorem prompt_patiently {a : Attempt} (ha : (served w "shop").attempts = [a])
    (hover : a.isOver = true) : Prompt (.standard .rapid) id w "shop" (patiently w) := by
  have hone : (afterCycle (.standard .rapid) w "shop").attempts.length = 1 := by
    rw [← (reconciling_served w "shop").length, ha]
    rfl
  refine ⟨fun n => ?_, fun t => ⟨2 * t + 6, ?_⟩, fun i hi n => ⟨2 * n + 4, by omega, ?_, ?_⟩⟩
  · by_cases hturn : n < 4 ∨ n % 2 = 0
    · rw [patiently, if_pos hturn]
      exact inTurn_first _
    · obtain ⟨now, h, -⟩ := after_patiently ha hover (n := n) (by omega)
      rw [patiently, if_neg hturn, h]
      exact ⟨n, rfl⟩
  · obtain ⟨now, h, hlate⟩ := after_patiently ha hover (n := 2 * t + 6) (by omega)
    rw [h]
    show t ≤ now
    have := hlate (by omega)
    omega
  · obtain rfl : i = 0 := by omega
    rw [patiently, if_pos (by omega)]
  · obtain rfl : i = 0 := by omega
    obtain ⟨now, h, -⟩ := after_patiently ha hover (n := 2 * n + 4) (by omega)
    rw [h]
    rfl

/-- A schedule without tasks. -/
def fresh (w : World) : Schedule := { settings := .standard .rapid, world := w }

/-- The schedule five steps after a cycle began. -/
def attended (t : Schedule) (ns : String) : Schedule := Schedule.flow^[5] (t.reconcile ns).2

/-- Five steps after a cycle began the wait for its attempts is over. -/
def Attends (t : Schedule) (ns : String) : Prop :=
  (attended t ns).ready = [] ∧
    (Schedule.launchedIds (t.reconcile ns).1).all (attended t ns).isOver = true ∧
    (∀ m < 5, (Schedule.flow^[m] (t.reconcile ns).2).ready ≠ []) ∧
    (Schedule.launchedIds (t.reconcile ns).1).all (t.reconcile ns).2.isOver = false

instance (t : Schedule) (ns : String) : Decidable (Attends t ns) :=
  inferInstanceAs (Decidable (_ ∧ _))

theorem runCycles_of_attends {t : Schedule} (h : Attends t ns) :
    (Simulation.runCycles t [ns]).2 = attended t ns := by
  obtain ⟨hready, hover, hbusy, hfirst⟩ := h
  rw [Schedule.runCycles_snd]
  refine Schedule.join_flow hready hover (fun m hm hnone => absurd hnone (hbusy m hm))
    fun hdone => ?_
  exact absurd (hfirst.symm.trans hdone) (by decide)

/-- The namespace `shop` is served alike without the other one, and before and after it. -/
theorem noninterference_shop_and_office :
    shopAndOffice.IsCalm ∧ shopAlone.IsCalm ∧ shopAndOffice.AgreesOn "shop" shopAlone ∧
      (∃ sc sc', sc.Reconciling (.standard .rapid) id shopAndOffice "shop" ∧ sc.IsOver ∧
        sc'.Reconciling (.standard .rapid) id shopAlone "shop" ∧ sc'.IsOver ∧
        Matches "shop" shopAndOffice shopAlone sc sc' ∧
        shopAndOffice.AgreesOn "office" sc.world) ∧
      (served (served shopAndOffice "office").world "shop").world.cluster.inventory =
        (served (served shopAndOffice "shop").world "office").world.cluster.inventory ∧
      (served (served shopAndOffice "office").world "shop").world.registry =
        (served (served shopAndOffice "shop").world "office").world.registry ∧
      (Simulation.runCycles (fresh shopAlone) ["shop"]).1 =
        (Simulation.runCycles (fresh shopAndOffice) ["shop"]).1 ∧
      (Simulation.runCycles (fresh shopAndOffice) ["office", "shop"]).2.world.registry =
        (Simulation.runCycles (fresh shopAndOffice) ["shop", "office"]).2.world.registry := by
  have hcalm : shopAndOffice.IsCalm := ⟨rfl, rfl, rfl⟩
  have hcalm' : shopAlone.IsCalm := ⟨rfl, rfl, rfl⟩
  have hagree : shopAndOffice.AgreesOn "shop" shopAlone := by
    refine ⟨⟨rfl, rfl, rfl, fun id hid => ?_, rfl, rfl⟩, fun key hkey => ?_⟩
    · show Inventory.get? (Inventory.put ∅ _) id =
        Inventory.get? (Inventory.put (Inventory.put ∅ _) _) id
      rw [Inventory.get?_put _ (.sample ⟨.deployment, "office", "mail"⟩ "1"), if_neg]
      rintro rfl
      exact absurd hid (by decide)
    · show none = Table.get?
        (Registry.upsert ∅ (.sample ⟨.deployment, "office", "old"⟩ "1") true "" 1) key
      rw [Registry.get?_upsert, if_neg]
      · rfl
      · rintro rfl
        exact absurd hkey (by decide)
  have hinjective : (id : Nat → Nat).Injective := Function.injective_id
  obtain ⟨-, hmatches, hends, hothers, hcommute, hround, horder⟩ :=
    noninterference (.standard .rapid) hinjective hcalm hcalm' hagree
  obtain ⟨-, -, hends', -⟩ :=
    noninterference (.standard .rapid) hinjective hcalm' hcalm hagree.symm
  have hattempts : ∀ w : World, (served w "shop").attempts.length = 1 → (served w "shop").IsOver →
      ∃ a, (served w "shop").attempts = [a] ∧ a.isOver = true := by
    intro w hlen hover
    obtain ⟨a, ha⟩ := List.length_eq_one_iff.1 hlen
    exact ⟨a, ha, hover a (ha ▸ List.mem_singleton_self a)⟩
  obtain ⟨a, ha, hover⟩ := hattempts shopAndOffice (by decide +kernel) (by decide +kernel)
  obtain ⟨a', ha', hover'⟩ := hattempts shopAlone (by decide +kernel) (by decide +kernel)
  obtain ⟨n, hn, hdone⟩ := hends _ (prompt_patiently ha hover)
  obtain ⟨n', hn', hdone'⟩ := hends' _ (prompt_patiently ha' hover')
  obtain ⟨hinventory, hregistry⟩ := hcommute "office" (by decide) id hinjective _ _ _ _
    (reconciling_served _ _) (by decide +kernel) (reconciling_served _ _) (by decide +kernel)
    (reconciling_served _ _) (by decide +kernel) (reconciling_served _ _) (by decide +kernel)
  -- the rounds of a schedule
  have hidle : ∀ w, (fresh w).Idle := fun w => Schedule.idle_of_no_tasks _ w
  have hover : ∀ {t : Schedule} {ns : String}, Attends t ns → (attended t ns).scene.IsOver →
      (Simulation.runCycles t [ns]).2.scene.IsOver := fun h ho => by
    rw [runCycles_of_attends h]
    exact ho
  have hover₂ : ∀ {t : Schedule} {ns other : String}, Attends t ns →
      Attends (attended t ns) other → (attended (attended t ns) other).scene.IsOver →
      (Simulation.runCycles t [ns, other]).2.scene.IsOver := fun h h' ho => by
    rw [Schedule.runCycles_cons, runCycles_of_attends h]
    exact hover h' ho
  have hreport := (hround (fresh shopAndOffice) (fresh shopAlone) (hidle _) (hidle _) rfl rfl rfl
    rfl (hover (by decide +kernel) (by decide +kernel))
    (hover (by decide +kernel) (by decide +kernel))).1
  have hsame := (horder (fresh shopAndOffice) (hidle _) rfl rfl "office" (by decide)
    (hover (by decide +kernel) (by decide +kernel))
    (hover₂ (by decide +kernel) (by decide +kernel) (by decide +kernel))
    (hover (by decide +kernel) (by decide +kernel))
    (hover₂ (by decide +kernel) (by decide +kernel) (by decide +kernel))).2
  exact ⟨hcalm, hcalm', hagree, ⟨_, _, hn, hdone, hn', hdone',
    hmatches _ _ hn hn' hdone hdone', hothers _ hn "office" (by decide)⟩, hinventory, hregistry,
    hreport, hsame⟩

end Scene

end ReplicaControl
