import ReplicaControl.Proofs.Batch
import ReplicaControl.Proofs.Sample

/-!
# Batches in rapid mode

* `Cycle.Admitted.room` — a batch that is allowed fits into every limit on top of the usage before
  the cycle.
* `Scene.roomy_rapid` — so does what was written at any time with the count that is written next:
  the part of the batch that is written takes no more than its needs.
* `rapid_batch_completes` — every attempt of the batch passes its own check and writes its target,
  in whatever order the attempts run, and in the end no quota is exceeded.
-/

namespace ReplicaControl

/-- What a change needs that is put before the quotas. -/
def Launch.demand (l : Launch) (name : String) : Int :=
  if l.1.isExempt l.2.replicas then 0 else l.1.load l.2.replicas name

/-- The need of a batch adds up what its changes demand. -/
theorem sum_demand (changes : List Launch) (name : String) :
    (((changes.map fun c => (c.1, c.2.replicas)).filter fun c => !c.1.isExempt c.2).map
      fun c => c.1.load c.2 name).sum = (changes.map (Launch.demand · name)).sum := by
  induction changes with
  | nil => rfl
  | cons l rest ih =>
    simp only [List.map_cons, List.sum_cons, List.filter_cons]
    rw [← ih, Launch.demand]
    cases l.1.isExempt l.2.replicas <;> simp

namespace Cycle.Admitted

variable {s : Settings} {w : World} {ns : String}

/-- **A batch that is allowed fits into every limit**, unless its need has no name or the limit is
the largest amount. -/
theorem room (h : Admitted s w ns) (hneed : (needOf (proposed s w ns).1).isSome = true)
    {name : String} {most : Quantity} (hm : w.cluster.Caps ns name most)
    (hmost : most.millis ≠ Cluster.largest) :
    w.cluster.total ns name + ((proposed s w ns).1.map (Launch.demand · name)).sum ≤
      most.millis := by
  obtain ⟨⟨f, r, e, hworld⟩, hfaults, -, -⟩ := proposed_spec (s := s) h.calm h.distinct
  have hcluster : (proposed s w ns).2.cluster = w.cluster := by rw [hworld]
  have hcalm : (proposed s w ns).2.IsCalm :=
    ⟨hfaults, by rw [hworld]; exact h.calm.rules, by rw [hcluster]; exact h.calm.conflicts⟩
  obtain ⟨need, hneed⟩ := Option.isSome_iff_exists.1 hneed
  have hallowed := h.allowed
  rw [hcalm.admission, hcluster, hneed] at hallowed
  have hlimits : ∀ c ∈ (proposed s w ns).1.map fun c => (c.1, c.2.replicas), c.1.HasLimits := by
    intro c hc
    obtain ⟨l, hl, rfl⟩ := List.mem_map.1 hc
    exact h.hasLimits hl
  have hamount : ∀ name, (need.amount name).millis =
      min ((proposed s w ns).1.map (Launch.demand · name)).sum Cluster.largest := by
    intro name
    rw [Quota.amount_batchNeed hlimits hneed name, sum_demand]
  have hdemand : ∀ name, 0 ≤ ((proposed s w ns).1.map (Launch.demand · name)).sum := by
    refine fun name => List.sum_nonneg fun d hd => ?_
    obtain ⟨l, hl, rfl⟩ := List.mem_map.1 hd
    unfold Launch.demand
    split
    · exact Int.le_refl 0
    · exact Workload.load_nonneg (h.hasLimits hl) _ name
  have hneed : ∀ name, 0 ≤ (need.amount name).millis := by
    intro name
    have := hdemand name
    rw [hamount, Cluster.largest]
    omega
  have hfits := (Cluster.judge_allowed_iff h.limits hneed).1 (Except.ok.inj hallowed) name most hm
  have htotal := Cluster.total_nonneg h.limits name
  have hsum := hdemand name
  have hrange := most.inRange
  rw [hamount] at hfits
  unfold Quantity.InRange at hrange
  unfold Cluster.largest at hfits hmost
  omega

end Cycle.Admitted

namespace Scene

variable {s : Settings} {c : Cluster} {ns : String} {changes : List Launch}
  {records : List (WorkloadId × Int)} {sc : Scene}

/-- In rapid mode an attempt has added nothing yet, or no more than its change demands. -/
theorem OnCourse.growth_le_demand (h : sc.OnCourse s c ns changes records)
    (hmode : s.config.mode = .rapid) {a : Attempt} (ha : a ∈ sc.attempts)
    (hl : a.item.HasLimits) (name : String) :
    a.growth name ≤ Launch.demand (a.item, a.target) name := by
  have hway := h.ways a ha
  rw [hmode] at hway
  have htarget := Workload.load_nonneg hl a.target.replicas name
  have hstart := Workload.load_nonneg hl a.item.spec name
  unfold Attempt.growth Launch.demand
  dsimp only
  split
  · rename_i hexempt
    -- an exempt change adds nothing
    have hle : a.target.replicas ≤ a.item.spec :=
      of_decide_eq_true (Bool.and_eq_true_iff.1 hexempt).2
    have hmono := Workload.load_mono hl hle name
    rcases hway.of_rapid with hspec | hspec <;> rw [hspec] <;> omega
  · rcases hway.of_rapid with hspec | hspec <;> rw [hspec] <;> omega

/-- **In rapid mode no quota refuses a count, if all demands fit into every limit on top of the
usage.** -/
theorem roomy_rapid (hmode : s.config.mode = .rapid) (hl : ∀ l ∈ changes, l.1.HasLimits)
    (hroom : ∀ name most, c.Caps ns name most →
      c.total ns name + (changes.map (Launch.demand · name)).sum ≤ most.millis) :
    Roomy s c ns changes := by
  intro sc records a n k h ha hp
  rw [h.verdict_iff ha hp, or_iff_not_imp_left]
  intro hgated name most hcaps
  -- the count that is written next is the target, and none was written before
  have hway := h.ways a ha
  have hpath := (h.courses a ha).of_writing hp
  rw [hmode] at hway hpath
  have hne := Mode.ne_of_path_cons hpath
  have hspec := hway.of_rapid.resolve_right hne
  obtain rfl : a.target.replicas = n := by
    rw [Mode.path_rapid hne] at hpath
    exact (List.cons.inj hpath).1
  obtain ⟨i, hi⟩ := List.getElem?_of_mem ha
  have htotal := h.total_le hi name (Launch.demand · name) fun b hb =>
    h.growth_le_demand hmode hb (hl _ (h.mem_changes hb)) name
  have hfits := hroom name most hcaps
  rw [Attempt.growth, hspec, Launch.demand, if_neg hgated] at htotal
  dsimp only at htotal
  omega

/-- **In rapid mode every attempt of a batch that the quotas allow completes its change, in whatever
order the attempts run**: at any time all that have ended returned their targets, and a count that
is about to be written passes its own check.  Attempts that have all ended wrote their targets and
nothing else, and no quota is exceeded then.  They have all ended after each got five turns, in any
order. -/
theorem rapid_batch_completes (s : Settings) (w : World) (ns : String)
    (hmode : s.config.mode = .rapid) (h : Cycle.Admitted s w ns)
    (hneed : (Cycle.needOf (Cycle.proposed s w ns).1).isSome = true)
    (hhard : ∀ q ∈ w.cluster.quotaStatus ns, ∀ most ∈ q.hard.values,
      most.millis ≠ Cluster.largest)
    (hversion : ∀ x ∈ w.cluster.workloadsOf ns, x.version + 1 < versionBound) :
    let changes := (Cycle.proposed s w ns).1
    let start := afterCycle s w ns
    (start.attempts = changes.map fun l => .launch l.1 l.2) ∧
    (∀ turns : List Nat,
      let sc := start.run s (turns.map .attempt)
      (∀ a ∈ sc.attempts,
        a.ending? = none ∨ a.ending? = some (.done (.scaled a.target.replicas))) ∧
      (∀ a ∈ sc.attempts, ∀ n k live, a.Tries sc.world n k →
        sc.world.cluster.inventory.get? a.item.id = some live →
        (sc.world.admission ns (Quota.itemNeed live n)).1 = .ok .allowed) ∧
      ((∀ a ∈ sc.attempts, a.ending?.isSome = true) → sc.Completes s w changes ∧
        ∀ q ∈ sc.world.cluster.quotaStatus ns, ∀ name most, q.hard.get? name = some most →
          (q.used.amount name).millis ≤ most.millis)) ∧
    ∀ order : List Nat, order.Perm (List.range changes.length) → ∀ k, 5 ≤ k →
      ∀ a ∈ (start.run s ((order.flatMap fun i => List.replicate k i).map .attempt)).attempts,
        a.ending?.isSome = true := by
  intro changes start
  have hlength : ∀ l : Launch, (s.config.mode.path l.1.spec l.2.replicas).length ≤ 1 := by
    intro l
    rw [hmode, Mode.path]
    split <;> simp
  have hstart : start.OnCourse s w.cluster ns changes [] := by
    refine h.onCourse (fun c hc => ?_) fun hstep =>
      absurd (hmode.symm.trans hstep) (by decide)
    have := hversion _ (h.mem_workloadsOf hc)
    have := hlength c
    omega
  have hroom : ∀ name most, w.cluster.Caps ns name most →
      w.cluster.total ns name + (changes.map (Launch.demand · name)).sum ≤ most.millis := by
    rintro name most ⟨q, hq, hm⟩
    refine h.room hneed ⟨q, hq, hm⟩ (hhard _ (List.mem_map_of_mem hq) most ?_)
    exact List.mem_map.2 ⟨(name, most), (Table.mem_entries_iff _).2 hm, rfl⟩
  have hroomy : Roomy s w.cluster ns changes :=
    roomy_rapid hmode (fun l hl => h.hasLimits hl) hroom
  refine ⟨h.attempts_eq, fun turns => ?_, fun order horder k hk => ?_⟩
  · intro sc
    obtain ⟨records, hcourse⟩ : ∃ records, sc.OnCourse s w.cluster ns changes records :=
      hstart.run turns
    have hn := hstart.not_denied hroomy
      (fun a ha => by simp [Attempt.ending?, starting_afterCycle ha]) turns
    refine ⟨fun a ha => ?_, fun a ha n k live ht hget => ?_, fun hended => ⟨?_, ?_⟩⟩
    · exact (hcourse.ending_cases ha).imp id fun he => he.resolve_right (hn a ha)
    · have hp := (hcourse.courses a ha).of_tries ht
      exact hcourse.admission_of_verdict ha hget (hroomy hcourse ha hp)
    · exact hcourse.completes hended hn
    · intro q hq name most hm
      have hcaps : sc.world.cluster.Caps ns name most := by
        obtain ⟨object, hobject, rfl⟩ := List.mem_map.1 hq
        exact ⟨object, hobject, hm⟩
      have hfits := hroom name most (hcourse.caps_iff.1 hcaps)
      have hgrowth : (sc.attempts.map (·.growth name)).sum ≤
          (changes.map (Launch.demand · name)).sum := by
        rw [← hcourse.launched, List.map_map]
        exact List.sum_le_sum fun a ha =>
          hcourse.growth_le_demand hmode ha (h.hasLimits (hcourse.mem_changes ha)) name
      have htotal := hcourse.total name
      rw [Cluster.used_eq_total hcourse.limits hq hm]
      omega
  · refine hstart.ended_of_perm isAtRest_afterCycle horder fun l _ => ?_
    have := hlength l
    omega

/-- One workload grows and another one, which may be scaled by others too, shrinks. -/
theorem rapid_batch_completes_two_workloads :
    let limits : ResourceList := Table.ofList [("cpu", .ofUnits 1)]
    let x : Workload :=
      { Workload.sample ⟨.deployment, "shop", "api"⟩ "3" with spec := 1, limits }
    let y : Workload :=
      { Workload.sample ⟨.deployment, "shop", "web"⟩ "2" with
        spec := 5
        limits
        annotations := Table.ofList
          [("scaler/state-up-replicas", "2"), (Workload.autoscalingMark, "true")] }
    let quotas := Table.ofList [("shop", [⟨"compute", Table.ofList [("limits.cpu", .ofUnits 9)]⟩])]
    let w : World := { World.holding [x, y] with cluster.quotas := quotas }
    let s := Settings.standard .rapid
    let turns := [1, 0].flatMap fun i => List.replicate 5 i
    Cycle.Admitted s w "shop" ∧
      (Cycle.proposed s w "shop").1 = [(x, ⟨"up", 3⟩), (y, ⟨"up", 2⟩)] ∧
      ((afterCycle s w "shop").run s (turns.map .attempt)).Completes s w
        (Cycle.proposed s w "shop").1 := by
  intro limits x y quotas w s turns
  have hadmitted : Cycle.Admitted s w "shop" :=
    ⟨⟨rfl, rfl, rfl⟩, by decide +kernel, by decide +kernel, by decide +kernel⟩
  have hproposed : (Cycle.proposed s w "shop").1 = [(x, ⟨"up", 3⟩), (y, ⟨"up", 2⟩)] := by
    decide +kernel
  obtain ⟨-, hruns, horders⟩ := rapid_batch_completes s w "shop" rfl hadmitted (by decide +kernel)
    (by decide +kernel) (by decide +kernel)
  refine ⟨hadmitted, hproposed, ((hruns turns).2.2 ?_).1⟩
  refine horders [1, 0] ?_ 5 (Nat.le_refl 5)
  rw [hproposed]
  decide

end Scene

end ReplicaControl
