import ReplicaControl.Proofs.Batch
import ReplicaControl.Proofs.Sample

/-!
# Batches in step mode

In step mode an attempt asks for the whole need of its next count, and the usage at that time holds
what it has written before.  That a batch is allowed does not mean that every such count is.

* `Launch.steepest` — the step of a change for which a quota needs most room; `Launch.peak`: how
  much that is, if all other changes of the batch are where they need most.
* `Scene.roomy_of_fits` — no quota refuses a count, if the peaks of all changes fit;
  `fits_of_not_denied`: otherwise one of them is refused in some order of turns.
* `Scene.Walks` — what holds at any time, whether counts are refused or not.
* `step_batch_completes_iff` — exactly the batches whose peaks fit are completed in every order.
-/

namespace ReplicaControl

/-! ## Steps of a change -/

namespace Launch

/-- The most that a change adds to the need under a name on its way. -/
def rise (l : Launch) (name : String) : Int :=
  l.1.load (max l.1.spec l.2.replicas) name - l.1.load l.1.spec name

/-- The step of a change that asks for most room, by its two counts: the last one up, or the first
one down. -/
def steepest (l : Launch) : Int × Int :=
  if l.1.spec < l.2.replicas then (l.2.replicas - 1, l.2.replicas) else (l.1.spec, l.1.spec - 1)

/-- A count of a change that comes before its steepest step. -/
def IsAhead (l : Launch) (n : Int) : Prop :=
  if l.1.spec < l.2.replicas then n ≠ l.2.replicas else n = l.1.spec

/-- What the steepest step of a change comes to under a name, if all other changes of its batch have
added the most that they add: the need then, and the whole need of its count. -/
def peak (l : Launch) (c : Cluster) (ns : String) (changes : List Launch) (name : String) : Int :=
  min (c.total ns name + ((changes.map (rise · name)).sum - l.rise name) +
      (l.1.load l.steepest.1 name - l.1.load l.1.spec name)) Cluster.largest +
    l.1.load l.steepest.2 name

theorem isAhead_start {l : Launch} (h : l.1.spec ≠ l.2.replicas) : l.IsAhead l.1.spec := by
  unfold IsAhead
  split
  · exact h
  · rfl

theorem IsAhead.ne {l : Launch} {n : Int} (h : l.IsAhead n) (hne : l.1.spec ≠ l.2.replicas) :
    n ≠ l.2.replicas := by
  unfold IsAhead at h
  split at h
  · exact h
  · exact h ▸ hne

end Launch

/-- The peaks of all changes that are not exempt fit into the limits of a namespace. -/
def Cycle.Fits (c : Cluster) (ns : String) (changes : List Launch) : Prop :=
  ∀ l ∈ changes, l.1.isExempt l.2.replicas = false → ∀ name most, c.Caps ns name most →
    l.peak c ns changes name ≤ most.millis

instance (c : Cluster) (ns : String) (changes : List Launch) :
    Decidable (Cycle.Fits c ns changes) :=
  decidable_of_iff (∀ l ∈ changes, l.1.isExempt l.2.replicas = false →
      ∀ q ∈ (c.quotas.get? ns).getD [], ∀ e ∈ q.hard.entries,
        l.peak c ns changes e.1 ≤ e.2.millis)
    (forall₃_congr fun l _ _ =>
      (Cluster.forall_caps_iff (P := fun name most => l.peak c ns changes name ≤ most.millis)).symm)

/-- An attempt whose stored count is the highest of its change has added the most that it adds. -/
theorem Attempt.growth_eq_rise {a : Attempt}
    (h : a.current.spec = max a.item.spec a.target.replicas) (name : String) :
    a.growth name = Launch.rise (a.item, a.target) name := by
  rw [growth, h]
  rfl

namespace Attempt.OnWay

variable {a : Attempt} {done : List Int} {n : Int}

theorem growth_le_rise {mode : Mode} (h : a.OnWay mode done) (hl : a.item.HasLimits)
    (name : String) : a.growth name ≤ Launch.rise (a.item, a.target) name :=
  Int.sub_le_sub_right (Workload.load_mono hl h.between.2 name) _

/-- No step comes from a higher count, or leads to one, than the steepest one. -/
theorem le_steepest (h : a.OnWay .step done)
    (hn : Mode.step.path a.current.spec a.target.replicas =
      n :: Mode.step.path n a.target.replicas) :
    a.current.spec ≤ (Launch.steepest (a.item, a.target)).1 ∧
      n ≤ (Launch.steepest (a.item, a.target)).2 := by
  have hbetween := h.between
  have hne := Mode.ne_of_path_cons hn
  obtain rfl := Mode.eq_oneToward_of_path hn
  unfold Launch.steepest oneToward
  dsimp only
  split <;> split <;> dsimp only <;> omega

/-- Only the steepest step leaves the counts that come before it. -/
theorem eq_steepest (h : a.OnWay .step done)
    (hn : Mode.step.path a.current.spec a.target.replicas =
      n :: Mode.step.path n a.target.replicas)
    (hahead : Launch.IsAhead (a.item, a.target) a.current.spec)
    (hpassed : ¬Launch.IsAhead (a.item, a.target) n) :
    Launch.steepest (a.item, a.target) = (a.current.spec, n) := by
  have hbetween := h.between
  have hne := Mode.ne_of_path_cons hn
  obtain rfl := Mode.eq_oneToward_of_path hn
  by_cases hup : a.item.spec < a.target.replicas
  · -- on the way up only the target comes after it
    have hlt : a.current.spec < a.target.replicas := by omega
    have hlast : a.current.spec + 1 = a.target.replicas := by
      simpa only [Launch.IsAhead, oneToward, if_pos hup, if_pos hlt, not_not] using hpassed
    simp only [Launch.steepest, oneToward, if_pos hup, if_pos hlt, Prod.mk.injEq]
    omega
  · -- on the way down only the first count comes before it
    simp only [Launch.IsAhead, if_neg hup] at hahead
    simp only [Launch.steepest, oneToward, if_neg hup, hahead]

end Attempt.OnWay

namespace Scene

variable {s : Settings} {c : Cluster} {ns : String} {changes : List Launch}
  {records : List (WorkloadId × Int)} {sc : Scene}

/-- **In step mode no quota refuses a count, if the peaks of all changes fit.** -/
theorem roomy_of_fits (hmode : s.config.mode = .step) (hl : ∀ l ∈ changes, l.1.HasLimits)
    (hfits : Cycle.Fits c ns changes) : Roomy s c ns changes := by
  intro sc records a n k h ha hp
  rw [h.verdict_iff ha hp, or_iff_not_imp_left]
  intro hgated name most hcaps
  have hchange := h.mem_changes ha
  have hlimits : a.item.HasLimits := hl _ hchange
  have hway := h.ways a ha
  have hpath := (h.courses a ha).of_writing hp
  rw [hmode] at hway hpath
  obtain ⟨hfrom, hto⟩ := hway.le_steepest hpath
  have hfrom := Workload.load_mono hlimits hfrom name
  have hto := Workload.load_mono hlimits hto name
  obtain ⟨i, hi⟩ := List.getElem?_of_mem ha
  have htotal := h.total_le hi name (Launch.rise · name) fun b hb =>
    (h.ways b hb).growth_le_rise (hl _ (h.mem_changes hb)) name
  have hpeak := hfits _ hchange (eq_false_of_ne_true hgated) name most hcaps
  unfold Attempt.growth at htotal
  unfold Launch.peak at hpeak
  dsimp only at hpeak
  omega

namespace OnCourse

variable {a : Attempt} {i : Nat}

/-- Where all other changes have added the most that they add, the steepest step comes to the peak
of its change. -/
theorem peak_eq (h : sc.OnCourse s c ns changes records) (ha : sc.attempts[i]? = some a)
    {name : String}
    (hrisen : ∀ b ∈ sc.attempts.eraseIdx i, b.growth name = Launch.rise (b.item, b.target) name)
    {n : Int} (hsteepest : Launch.steepest (a.item, a.target) = (a.current.spec, n)) :
    min (sc.world.cluster.total ns name) Cluster.largest + a.item.load n name =
      Launch.peak (a.item, a.target) c ns changes name := by
  rw [h.total_eq ha, List.map_congr_left hrisen, h.sum_others ha (Launch.rise · name),
    Launch.peak, hsteepest]
  rfl

/-- If no attempt is ever refused, all changes but one can come to where they need most: those that
grow are made, one after the other, and the others have not started. -/
theorem exists_risen (h : sc.OnCourse s c ns changes [])
    (hstarting : ∀ a ∈ sc.attempts, a.phase = .starting)
    (hn : ∀ turns : List Nat, ∀ a ∈ (sc.run s (turns.map .attempt)).attempts,
      a.ending? ≠ some (.done .quotaDenied)) (i : Nat) :
    ∃ turns : List Nat, let sc' := sc.run s (turns.map .attempt)
      sc'.isAtRest ∧ sc'.attempts[i]? = sc.attempts[i]? ∧
        ∀ b ∈ sc'.attempts.eraseIdx i, b.current.spec = max b.item.spec b.target.replicas := by
  obtain ⟨k, hk⟩ := exists_turns s changes
  obtain ⟨order, horder⟩ : ∃ order : List Nat, ∀ j, j ∈ order ↔
      j ≠ i ∧ ∃ l, changes[j]? = some l ∧ l.1.spec < l.2.replicas := by
    refine ⟨(List.range changes.length).filter fun j =>
      j ≠ i && (changes[j]?).any fun l => l.1.spec < l.2.replicas, fun j => ?_⟩
    simp only [List.mem_filter, List.mem_range, Bool.and_eq_true, decide_eq_true_eq,
      Option.any_eq_true]
    refine and_iff_right_of_imp ?_
    rintro ⟨-, l, hl, -⟩
    exact (List.getElem?_eq_some_iff.1 hl).1
  obtain ⟨hrest, hended, hkept⟩ := h.finishAll (isAtRest_of_starting hstarting) order hk
  obtain ⟨records', h'⟩ := h.run (order.flatMap fun j => List.replicate k j)
  refine ⟨_, hrest, hkept i fun hi => ((horder i).1 hi).1 rfl, fun b hb => ?_⟩
  obtain ⟨j, hj, hbj⟩ := List.mem_eraseIdx_iff_getElem?.1 hb
  have hchange := h'.getElem?_changes hbj
  by_cases hup : b.item.spec < b.target.replicas
  · have hmem := List.mem_of_getElem? hbj
    rw [(h'.scaled_of_ended hmem (hended j ((horder j).2 ⟨hj, _, hchange, hup⟩) b hbj)
      (hn _ b hmem)).2.1]
    omega
  · have hnot : j ∉ order := by
      rw [horder]
      rintro ⟨-, l, hl, hlt⟩
      obtain rfl := Option.some.inj (hchange.symm.trans hl)
      exact hup hlt
    rw [hkept j hnot] at hbj
    have hmem := List.mem_of_getElem? hbj
    rw [((h.courses b hmem).of_starting (hstarting b hmem)).1]
    omega

/-- A steepest step whose peak does not fit is not taken where all other changes have added the most
that they add. -/
theorem isAhead_of_not_fits (hmode : s.config.mode = .step)
    (h : sc.OnCourse s c ns changes records) (ha : sc.attempts[i]? = some a)
    {name : String} {most : Quantity} (hcaps : c.Caps ns name most)
    (hgated : a.item.isExempt a.target.replicas = false)
    (hover : ¬Launch.peak (a.item, a.target) c ns changes name ≤ most.millis)
    (hrisen : ∀ b ∈ sc.attempts.eraseIdx i, b.current.spec = max b.item.spec b.target.replicas)
    {n : Int} {k : Nat} (hp : a.phase = .writing n k)
    (hv : a.verdict sc.world.cluster n = .allowed)
    (hahead : Launch.IsAhead (a.item, a.target) a.current.spec) :
    Launch.IsAhead (a.item, a.target) n := by
  by_contra hpassed
  have hmem := List.mem_of_getElem? ha
  have hway := h.ways a hmem
  have hpath := (h.courses a hmem).of_writing hp
  rw [hmode] at hway hpath
  have hpeak := h.peak_eq ha (fun b hb => Attempt.growth_eq_rise (hrisen b hb) name)
    (hway.eq_steepest hpath hahead hpassed)
  have hfits := ((h.verdict_iff hmem hp).1 hv).resolve_left (ne_true_of_eq_false hgated)
  exact hover (hpeak ▸ hfits name most hcaps)

/-- **If no attempt is ever refused, the peaks of all changes fit**: let all other changes come to
where they need most, and then one attempt alone.  It has to take its steepest step there. -/
theorem fits_of_not_denied (hmode : s.config.mode = .step)
    (h : sc.OnCourse s c ns changes []) (hstarting : ∀ a ∈ sc.attempts, a.phase = .starting)
    (hn : ∀ turns : List Nat, ∀ a ∈ (sc.run s (turns.map .attempt)).attempts,
      a.ending? ≠ some (.done .quotaDenied)) : Cycle.Fits c ns changes := by
  intro l hl hgated name most hcaps
  by_contra hover
  rw [← h.launched] at hl
  obtain ⟨a, ha, rfl⟩ := List.mem_map.1 hl
  obtain ⟨i, hi⟩ := List.getElem?_of_mem ha
  obtain ⟨hcurrent, hne⟩ := (h.courses a ha).of_starting (hstarting a ha)
  have hsame : ∀ {sc : Scene} {records : List (WorkloadId × Int)} {b : Attempt},
      sc.OnCourse s c ns changes records → sc.attempts[i]? = some b →
        (b.item, b.target) = (a.item, a.target) := fun h' hb =>
    Option.some.inj ((h'.getElem?_changes hb).symm.trans (h.getElem?_changes hi))
  obtain ⟨turns, hrest, hkept, hrisen⟩ := h.exists_risen hstarting hn i
  obtain ⟨records, hmiddle⟩ := h.run turns
  obtain ⟨k, hk⟩ := exists_turns s changes
  obtain ⟨-, hended, -⟩ := hmiddle.finishOne hrest i hk
  obtain ⟨records', hlast⟩ := hmiddle.run (List.replicate k i)
  have hahead : ∀ b, ((sc.run s (turns.map .attempt)).run s
      ((List.replicate k i).map .attempt)).attempts[i]? = some b →
        Launch.IsAhead (a.item, a.target) b.current.spec := by
    refine OnCourse.alone (fun h' hb hothers hp hv hahead => ?_) hmiddle rfl (fun b hb => ?_) k
    · rw [← hsame h' hb] at hgated hover hahead ⊢
      exact h'.isAhead_of_not_fits hmode hb hcaps hgated hover (hothers ▸ hrisen) hp hv hahead
    · obtain rfl := Option.some.inj (hi.symm.trans (hkept.symm.trans hb))
      rw [hcurrent]
      exact Launch.isAhead_start hne
  -- so the attempt ends before its target, with a refusal
  obtain ⟨b, hb⟩ : ∃ b, ((sc.run s (turns.map .attempt)).run s
      ((List.replicate k i).map .attempt)).attempts[i]? = some b := by
    refine ⟨_, List.getElem?_eq_getElem ?_⟩
    rw [hlast.length_attempts, ← h.length_attempts]
    exact (List.getElem?_eq_some_iff.1 hi).1
  have hmem := List.mem_of_getElem? hb
  have hdenied := hn (turns ++ List.replicate k i) b (by
    rw [List.map_append, run_append]
    exact hmem)
  have hspec := (hlast.scaled_of_ended hmem (hended b hb) hdenied).2.1
  refine (hahead b hb).ne hne ?_
  rw [hspec, (Prod.mk.inj (hsame hlast hb)).2]

end OnCourse

/-- Every change of a batch is on its way, in step mode.  What was written for it, followed by the
path from its stored count, is its whole path.  An attempt that has ended returned its target and
stored it, or was refused before; and it is refused in the very turn in which it asks for a count
that its quotas do not allow. -/
structure Walks (s : Settings) (w : World) (ns : String) (changes : List Launch) (sc : Scene) :
    Prop where
  launched : (sc.attempts.map fun a => (a.item, a.target)) = changes
  written : ∃ records, sc.world.cluster.history = w.cluster.history ++ records ∧
    (∀ r ∈ records, ∃ l ∈ changes, l.1.id = r.1) ∧
    ∀ l ∈ changes, ∃ live, sc.world.cluster.inventory.get? l.1.id = some live ∧
      Attempt.recordsOf l.1.id records ++ Mode.step.path live.spec l.2.replicas =
        Mode.step.path l.1.spec l.2.replicas
  ended : ∀ a ∈ sc.attempts, ∀ e, a.ending? = some e →
    ∃ live, sc.world.cluster.inventory.get? a.item.id = some live ∧
      ((e = .done (.scaled a.target.replicas) ∧ live.spec = a.target.replicas) ∨
        (e = .done .quotaDenied ∧ live.spec ≠ a.target.replicas))
  refused : ∀ a ∈ sc.attempts, a.ending? = none →
    ((a.step s sc.world).1.ending? = some (.done .quotaDenied) ↔
      ∃ n k live, a.Tries sc.world n k ∧
        sc.world.cluster.inventory.get? a.item.id = some live ∧
          (sc.world.admission ns (Quota.itemNeed live n)).1 ≠ .ok .allowed)

theorem OnCourse.walks {w : World} (hmode : s.config.mode = .step)
    (h : sc.OnCourse s w.cluster ns changes records) : sc.Walks s w ns changes where
  launched := h.launched
  written := by
    refine ⟨records, by rw [h.cluster], fun r hr => ?_, fun l hl => ?_⟩
    · obtain ⟨a, ha, hid⟩ := h.own r hr
      exact ⟨(a.item, a.target), h.mem_changes ha, hid⟩
    · rw [← h.launched] at hl
      obtain ⟨a, ha, rfl⟩ := List.mem_map.1 hl
      exact ⟨a.current, (h.courses a ha).stored, hmode ▸ (h.ways a ha).path⟩
  ended a ha e he :=
    ⟨a.current, (h.courses a ha).stored,
      (h.courses a ha).of_ended (Attempt.ending?_eq_some_iff.1 he)⟩
  refused a ha hnone := by
    have hcourse := h.courses a ha
    have hstep := hcourse.step_course h.calm
    constructor
    · intro hdenied
      generalize a.step s sc.world = r at hstep hdenied
      cases hstep with
      | finished => rw [hnone] at hdenied; cases hdenied
      | denied hp hv =>
        refine ⟨_, _, a.current, .inl hp, hcourse.stored, ?_⟩
        rw [h.calm.admission]
        rw [Attempt.verdict, hcourse.key_eq, h.home a ha] at hv
        exact fun hallowed => hv (Except.ok.inj hallowed)
      | decided _ _ hn => rcases hn with ⟨-, rfl⟩ | ⟨-, _, rfl, -⟩ <;> cases hdenied
      | begun | ready | wrote => cases hdenied
      | arrived => simp [Attempt.ending?] at hdenied
    · rintro ⟨n, k, live, ht, hget, hadmission⟩
      have hp := hcourse.of_tries ht
      have hv : a.verdict sc.world.cluster n ≠ .allowed := fun hv =>
        hadmission (h.admission_of_verdict ha hget hv)
      generalize a.step s sc.world = r at hstep
      cases hstep with
      | denied => rfl
      | wrote hp' hv' =>
        obtain ⟨rfl, -⟩ := Phase.writing.inj (hp.symm.trans hp')
        exact absurd hv' hv
      | finished hp' | begun hp' | decided hp' | ready hp' | arrived hp' =>
        cases hp.symm.trans hp'

/-- **In step mode the attempts of a batch that the quotas allow complete their changes in every
order if and only if the peaks of all changes fit**, too.  At any time every attempt is on its way
to its target or has ended, at the target or with the first count that is refused; and they have all
ended after each got enough turns, in any order. -/
theorem step_batch_completes_iff (s : Settings) (w : World) (ns : String)
    (hmode : s.config.mode = .step) (h : Cycle.Admitted s w ns)
    (hauto : w.cluster.autoReady = true)
    (hready : ∀ x ∈ w.cluster.workloadsOf ns, x.ready = x.spec)
    (hversion : ∀ l ∈ (Cycle.proposed s w ns).1,
      l.1.version + (l.2.replicas - l.1.spec).natAbs < versionBound)
    (hlimit : ∀ l ∈ (Cycle.proposed s w ns).1,
      Attempt.isTimeLimit ((Attempt.launch l.1 l.2).limit s) = true) :
    let changes := (Cycle.proposed s w ns).1
    let start := afterCycle s w ns
    (start.attempts = changes.map fun l => .launch l.1 l.2) ∧
    (∀ turns : List Nat,
      let sc := start.run s (turns.map .attempt)
      sc.Walks s w ns changes ∧
      (Cycle.Fits w.cluster ns changes → (∀ a ∈ sc.attempts, a.ending?.isSome = true) →
        sc.Completes s w changes)) ∧
    (∀ order : List Nat, order.Perm (List.range changes.length) →
      ∀ k, (∀ l ∈ changes, 3 * (l.2.replicas - l.1.spec).natAbs + 2 ≤ k) →
        ∀ a ∈ (start.run s ((order.flatMap fun i => List.replicate k i).map .attempt)).attempts,
          a.ending?.isSome = true) ∧
    ((∀ turns : List Nat, ∀ a ∈ (start.run s (turns.map .attempt)).attempts,
        a.ending? ≠ some (.done .quotaDenied)) ↔ Cycle.Fits w.cluster ns changes) := by
  intro changes start
  have hstart : start.OnCourse s w.cluster ns changes [] := by
    refine h.onCourse (fun l hl => ?_) fun _ =>
      ⟨hauto, fun l hl => ⟨hready _ (h.mem_workloadsOf hl), hlimit l hl⟩⟩
    rw [hmode, Mode.length_path_step]
    exact hversion l hl
  have hnever : Cycle.Fits w.cluster ns changes → ∀ turns : List Nat,
      ∀ a ∈ (start.run s (turns.map .attempt)).attempts,
        a.ending? ≠ some (.done .quotaDenied) := fun hfits =>
    hstart.not_denied (roomy_of_fits hmode (fun l hl => h.hasLimits hl) hfits)
      fun a ha => by simp [Attempt.ending?, starting_afterCycle ha]
  refine ⟨h.attempts_eq, fun turns => ?_, fun order horder k hk => ?_, ?_, hnever⟩
  · obtain ⟨records, hcourse⟩ := hstart.run turns
    exact ⟨hcourse.walks hmode, fun hfits hended => hcourse.completes hended (hnever hfits turns)⟩
  · refine hstart.ended_of_perm isAtRest_afterCycle horder fun l hl => ?_
    rw [hmode, Mode.length_path_step]
    exact hk l hl
  · exact hstart.fits_of_not_denied hmode fun a ha => starting_afterCycle ha

/-- One workload grows and another one, which may be scaled by others too, shrinks: the last step up
needs three on top of the seven that are used then. -/
theorem step_batch_completes_iff_two_workloads :
    let limits : ResourceList := Table.ofList [("cpu", .ofUnits 1)]
    let x : Workload :=
      { Workload.sample ⟨.deployment, "shop", "api"⟩ "3" with spec := 1, ready := 1, limits }
    let y : Workload :=
      { Workload.sample ⟨.deployment, "shop", "web"⟩ "2" with
        spec := 5
        ready := 5
        limits
        annotations := Table.ofList
          [("scaler/state-up-replicas", "2"), (Workload.autoscalingMark, "true")] }
    let quotas := Table.ofList [("shop", [⟨"compute", Table.ofList [("limits.cpu", .ofUnits 10)]⟩])]
    let w : World := { World.holding [x, y] with cluster.quotas := quotas }
    let s := Settings.standard .step
    let turns := [1, 0].flatMap fun i => List.replicate 11 i
    Cycle.Admitted s w "shop" ∧
      (Cycle.proposed s w "shop").1 = [(x, ⟨"up", 3⟩), (y, ⟨"up", 2⟩)] ∧
      Cycle.Fits w.cluster "shop" (Cycle.proposed s w "shop").1 ∧
      ((afterCycle s w "shop").run s (turns.map .attempt)).Completes s w
        (Cycle.proposed s w "shop").1 := by
  intro limits x y quotas w s turns
  have hadmitted : Cycle.Admitted s w "shop" :=
    ⟨⟨rfl, rfl, rfl⟩, by decide +kernel, by decide +kernel, by decide +kernel⟩
  have hproposed : (Cycle.proposed s w "shop").1 = [(x, ⟨"up", 3⟩), (y, ⟨"up", 2⟩)] := by
    decide +kernel
  have hfits : Cycle.Fits w.cluster "shop" (Cycle.proposed s w "shop").1 := by decide +kernel
  obtain ⟨-, hruns, horders, -⟩ := step_batch_completes_iff s w "shop" rfl hadmitted rfl
    (by decide +kernel) (by decide +kernel) (by decide +kernel)
  refine ⟨hadmitted, hproposed, hfits, (hruns turns).2 hfits ?_⟩
  refine horders [1, 0] ?_ 11 ?_
  · rw [hproposed]
    decide
  · rw [hproposed]
    decide

/-- A batch that the quotas allow, and one of its attempts is refused: to go from one replica to
three fits on top of the one that is used before, and the last step does not fit on top of two. -/
theorem not_step_batch_completes_last_step :
    let limits : ResourceList := Table.ofList [("cpu", .ofUnits 1)]
    let x : Workload :=
      { Workload.sample ⟨.deployment, "shop", "api"⟩ "3" with spec := 1, ready := 1, limits }
    let quotas := Table.ofList [("shop", [⟨"compute", Table.ofList [("limits.cpu", .ofUnits 4)]⟩])]
    let w : World := { World.holding [x] with cluster.quotas := quotas }
    let s := Settings.standard .step
    let sc := (afterCycle s w "shop").run s ((List.replicate 8 0).map .attempt)
    Cycle.Admitted s w "shop" ∧ w.cluster.autoReady = true ∧
      (∀ x ∈ w.cluster.workloadsOf "shop", x.ready = x.spec) ∧
      (Cycle.proposed s w "shop").1 = [(x, ⟨"up", 3⟩)] ∧
      sc.attempts.map (·.ending?) = [some (.done .quotaDenied)] ∧
      sc.world.cluster.history = [(x.id, 2)] := by
  intro limits x quotas w s sc
  exact ⟨⟨⟨rfl, rfl, rfl⟩, by decide +kernel, by decide +kernel, by decide +kernel⟩, rfl,
    by decide +kernel, by decide +kernel, by decide +kernel, by decide +kernel⟩

end Scene

end ReplicaControl
