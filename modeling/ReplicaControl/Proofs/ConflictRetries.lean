import ReplicaControl.Proofs.WriteConflicts

/-!
# Retries after conflicts

A rapid attempt that is to move a workload to another count, meets a number of conflicts and nothing
else, and that nobody disturbs.

* `Attempt.SetsOut` — the attempt has something to do.  `step_start`, `step_scaled`: its first and
  its last step.
* `Pursuit.RapidCourse` — the attempt, by the update requests made and the steps taken so far.
  `RapidCourse.next`: one turn; `run`: the attempt from its launch; `exists_over`: it gets to its
  end.
* `Pursuit.conflict_retries` — the main theorem, of rapid attempts and of single writes.
* `Pursuit.not_conflict_retries_out_of_reach` — what it needs to know of the kind and the version.
-/

namespace ReplicaControl

namespace Attempt

variable {s : Settings} {a : Attempt} {w : World}

/-- In rapid mode an attempt at a workload, of a kind that can be reached, is to move it to another
count. -/
structure SetsOut (s : Settings) (a : Attempt) (w : World) (x : Workload) (n : Int) : Prop where
  mode : s.config.mode = .rapid
  reachable : s.adapters.contains a.item.kind = true
  id : a.item.id = x.id
  away : a.item.spec ≠ n
  desired : a.desired w.registry = n

/-- The first step of an attempt that has something to do. -/
theorem step_start (hp : a.phase = .starting) (hreach : s.adapters.contains a.item.kind = true)
    (haway : a.item.spec ≠ a.desired w.registry) :
    a.step s w = ({ a with phase := .deciding }, { w with registry := a.marked w.registry }) := by
  refine step_of_unsettled hp ?_ hreach
  rintro ⟨hspec, -, hnone⟩
  apply haway
  have hget : w.registry.get? a.key = none := by simpa using hnone
  rw [Attempt.desired, hget]
  exact hspec

/-- The last step of an attempt that wrote the count in force. -/
theorem step_scaled (s : Settings) (hp : a.phase = .deciding) (hwritten : a.written = true)
    (harrived : a.current.spec = a.desired w.registry) :
    a.step s w =
      a.conclude { w with registry := w.registry.update a.key ({ · with scaling := true }) }
        (.done (.scaled a.current.spec)) := by
  simp only [step, hp, decide, if_pos harrived, hwritten]
  rfl

end Attempt

namespace Pursuit

/-- Nobody disturbs the attempt, which is not over yet. -/
def RunsUndisturbed (x : Workload) (n : Int) (p : Pursuit) (t : Turn) : Prop :=
  p.attempt.isOver = false ∧ p.IsPeaceful x n t

instance (x : Workload) (n : Int) (p : Pursuit) (t : Turn) : Decidable (p.RunsUndisturbed x n t) :=
  inferInstanceAs (Decidable (_ ∧ _))

variable {s : Settings} {x : Workload} {n : Int} {c k : Nat} {p q : Pursuit} {w : World}

/-- The course of a rapid attempt, by the update requests made and the steps taken so far. -/
inductive RapidCourse (s : Settings) (x : Workload) (n : Int) (c : Nat) (p : Pursuit) :
    Nat → Nat → Pursuit → Prop
  | starting {q : Pursuit} (hkeeps : p.Keeps x.id q) (hattempt : q.attempt = p.attempt)
      (hnow : q.world.now = p.world.now) (hadmits : q.world.Admits x n c) :
      RapidCourse s x n c p 0 0 q
  | deciding {q : Pursuit} (hkeeps : p.Keeps x.id q)
      (hattempt : q.attempt = { p.attempt with phase := .deciding })
      (hnow : q.world.now = p.world.now) (hadmits : q.world.Admits x n c) :
      RapidCourse s x n c p 0 1 q
  | retrying {k : Nat} {q : Pursuit} (h : p.Retrying s x n c k q) :
      RapidCourse s x n c p k (k + 2) q
  | landed {q : Pursuit} (hc : c < s.config.writeTries) (h : p.Landed s x n c q) :
      RapidCourse s x n c p (c + 1) (c + 3) q
  | scaled {q : Pursuit} (hc : c < s.config.writeTries)
      (hending : q.attempt.ending? = some (.done (.scaled n))) (h : p.Stored s x n c q) :
      RapidCourse s x n c p (c + 1) (c + 4) q
  | gaveUp {q : Pursuit} (hc : s.config.writeTries ≤ c) (h : p.GaveUp s x c q) :
      RapidCourse s x n c p s.config.writeTries (s.config.writeTries + 2) q

/-- A step that an attempt can take and that is no try to write. -/
theorem counts_of_no_try (hover : q.attempt.isOver = false)
    (hawake : q.attempt.isSuspended q.world.now = false)
    (hnone : q.attempt.pending? q.world.now = none) :
    q.requests .step = 0 ∧ q.advances .step = 1 := by
  simp [requests, Attempt.updates, hnone, advances, Attempt.canStep, hover, hawake]

namespace RapidCourse

variable {item : Workload} {target : Target} {w₀ : World} {i j : Nat}

theorem next_starting {q : Pursuit} (hsets : (Attempt.launch item target).SetsOut s w₀ x n)
    (hkeeps : (launch item target w₀).Keeps x.id q)
    (hattempt : q.attempt = .launch item target) (hnow : q.world.now = w₀.now)
    (hadmits : q.world.Admits x n c) :
    (launch item target w₀).RapidCourse s x n c 0 1 (q.next s .step) := by
  have haway : q.attempt.item.spec ≠ q.attempt.desired q.world.registry := by
    rw [hkeeps.desired, hattempt]
    exact fun h => hsets.away (h.trans hsets.desired)
  have hstep := Attempt.step_start (s := s) (w := q.world) (by rw [hattempt]; rfl)
    (by rw [hattempt]; exact hsets.reachable) haway
  obtain ⟨hnext, hkeeps⟩ := hkeeps.step hstep rfl (Attempt.desired_marked _ _)
  rw [hnext]
  exact .deciding hkeeps (by rw [hattempt]; rfl) hnow (hadmits.of_cluster rfl rfl rfl)

theorem next_deciding {q : Pursuit} (hsets : (Attempt.launch item target).SetsOut s w₀ x n)
    (hkeeps : (launch item target w₀).Keeps x.id q)
    (hattempt : q.attempt = { Attempt.launch item target with phase := .deciding })
    (hnow : q.world.now = w₀.now) (hadmits : q.world.Admits x n c) :
    (launch item target w₀).RapidCourse s x n c 0 2 (q.next s .step) := by
  have hdesired : q.attempt.desired q.world.registry = n := hkeeps.desired.trans hsets.desired
  have haway : q.attempt.current.spec ≠ q.attempt.desired q.world.registry := by
    rw [hdesired, hattempt]
    exact hsets.away
  have hstep := Attempt.step_decide (w := q.world) hsets.mode (by rw [hattempt]) haway
  obtain ⟨hnext, hkeeps⟩ := hkeeps.step hstep rfl
    (Attempt.desired_eq_of_target? (Registry.target?_update ..))
  rw [hnext]
  refine .retrying ⟨hkeeps, Nat.lt_of_lt_of_le Nat.one_pos (Nat.le_max_right _ _),
    Nat.zero_le c, hadmits.of_cluster rfl rfl rfl, .inl ⟨?_, hnow⟩⟩
  rw [hdesired]

theorem next_landed {q : Pursuit} (hsets : (Attempt.launch item target).SetsOut s w₀ x n)
    (hc : c < s.config.writeTries) (h : (launch item target w₀).Landed s x n c q) :
    (launch item target w₀).RapidCourse s x n c (c + 1) (c + 4) (q.next s .step) := by
  have harrived : q.attempt.current.spec = q.attempt.desired q.world.registry := by
    rw [h.current, h.desired]
    exact hsets.desired.symm
  have hstep := Attempt.step_scaled s h.phase h.written harrived
  have hcluster : (q.attempt.step s q.world).2.cluster = q.world.cluster := by
    rw [hstep, Attempt.conclude_cluster]
  have hclock : (q.attempt.step s q.world).2.now = q.world.now := q.attempt.step_now s q.world
  rw [next_of_history (by rw [hcluster])]
  refine .scaled hc ?_ ⟨hclock.trans h.now, ?_, ?_, ?_, h.wrote⟩
  · rw [hstep, h.current]
    rfl
  · rw [hcluster]
    exact h.workload
  · rw [hcluster]
    exact h.conflicts
  · rw [hcluster]
    exact h.records

/-- **A turn of a rapid attempt that nobody disturbs.** -/
theorem next (hsets : (Attempt.launch item target).SetsOut s w₀ x n)
    (hv : c < s.config.writeTries → x.version + 1 < versionBound) {q : Pursuit}
    (h : (launch item target w₀).RapidCourse s x n c i j q) (hover : q.attempt.isOver = false)
    {t : Turn} (ht : q.IsPeaceful x n t) :
    (launch item target w₀).RapidCourse s x n c (i + q.requests t) (j + q.advances t)
      (q.next s t) := by
  cases h with
  | starting hkeeps hattempt hnow hadmits =>
    have hp : q.attempt.phase = .starting := by rw [hattempt]; rfl
    cases t with
    | step =>
      obtain ⟨hrequests, hadvances⟩ := counts_of_no_try hover
        (by simp [Attempt.isSuspended, hp]) (by simp [Attempt.pending?, hp])
      rw [hrequests, hadvances]
      exact next_starting hsets hkeeps hattempt hnow hadmits
    | others w =>
      have hkeeps := hkeeps.others (s := s) ht
      rw [next_others (by simp [Attempt.isAtRest, hp])] at hkeeps ⊢
      refine .starting hkeeps hattempt ?_ (hadmits.conflicts ▸ ht.admits)
      rcases ht.time with hsame | ⟨due, hsleep, -⟩
      · exact hsame.trans hnow
      · rw [Attempt.due?, hp] at hsleep
        cases hsleep
  | deciding hkeeps hattempt hnow hadmits =>
    have hp : q.attempt.phase = .deciding := by rw [hattempt]
    cases t with
    | step =>
      obtain ⟨hrequests, hadvances⟩ := counts_of_no_try hover
        (by simp [Attempt.isSuspended, hp]) (by simp [Attempt.pending?, hp])
      rw [hrequests, hadvances]
      exact next_deciding hsets hkeeps hattempt hnow hadmits
    | others w =>
      rw [Pursuit.next, if_neg (by simp [Attempt.isAtRest, hp])]
      exact .deciding hkeeps hattempt hnow hadmits
  | retrying h =>
    cases t with
    | step =>
      obtain ⟨hsame, hcourse⟩ := h.next_step (show item.id = x.id from hsets.id) hv
      rw [hsame]
      generalize q.next s .step = q' at hcourse ⊢
      generalize hi : i + q.requests .step = i' at hcourse
      rw [show i + 2 + q.requests .step = i' + 2 by omega]
      cases hcourse with
      | retrying h => exact .retrying h
      | landed hc h => exact .landed hc h
      | gaveUp hc h => exact .gaveUp hc h
    | others w => exact .retrying (h.others ht)
  | landed hc h =>
    cases t with
    | step =>
      obtain ⟨hrequests, hadvances⟩ := counts_of_no_try hover
        (by simp [Attempt.isSuspended, h.phase]) (by simp [Attempt.pending?, h.phase])
      rw [hrequests, hadvances]
      exact next_landed hsets hc h
    | others w =>
      rw [Pursuit.next, if_neg (by simp [Attempt.isAtRest, h.phase])]
      exact .landed hc h
  | scaled _ hending => simp [Attempt.isOver, Attempt.ending?_eq_some_iff.1 hending] at hover
  | gaveUp _ h => simp [Attempt.isOver, Attempt.ending?_eq_some_iff.1 h.ending] at hover

/-- The number of steps that a rapid attempt takes altogether. -/
def steps (s : Settings) (c : Nat) : Nat :=
  if c < s.config.writeTries then c + 4 else s.config.writeTries + 2

/-- The attempt is over with its last step, and not before. -/
theorem over_or_lt (hattempt : p.attempt.phase = .starting) (h : p.RapidCourse s x n c i j q) :
    (q.attempt.isOver = true ∧ j = steps s c) ∨ (q.attempt.isOver = false ∧ j < steps s c) := by
  unfold steps
  cases h with
  | starting _ hsame =>
    refine .inr ⟨by simp [Attempt.isOver, hsame, hattempt], ?_⟩
    split <;> omega
  | deciding _ hsame =>
    refine .inr ⟨by simp [Attempt.isOver, hsame], ?_⟩
    split <;> omega
  | retrying h =>
    have hmet := h.met
    have hsome := h.some_left
    refine .inr ⟨h.not_isOver, ?_⟩
    split <;> omega
  | landed hc h =>
    refine .inr ⟨by simp [Attempt.isOver, h.phase], ?_⟩
    rw [if_pos hc]
    exact Nat.lt_succ_self _
  | scaled hc hending =>
    refine .inl ⟨?_, (if_pos hc).symm⟩
    rw [Attempt.isOver, Attempt.ending?_eq_some_iff.1 hending]
  | gaveUp hc h =>
    refine .inl ⟨?_, (if_neg (Nat.not_lt.2 hc)).symm⟩
    rw [Attempt.isOver, Attempt.ending?_eq_some_iff.1 h.ending]

/-- The attempt is over once its steps are all taken. -/
theorem isOver_iff (hattempt : p.attempt.phase = .starting)
    (h : p.RapidCourse s x n c i j q) : q.attempt.isOver = true ↔ j = steps s c := by
  rcases h.over_or_lt hattempt with ⟨hover, hj⟩ | ⟨hover, hj⟩
  · exact iff_of_true hover hj
  · exact iff_of_false (by simp [hover]) (Nat.ne_of_lt hj)

theorem scaled_of_lt (h : p.RapidCourse s x n c i j q) (hj : j = steps s c)
    (hc : c < s.config.writeTries) :
    q.attempt.ending? = some (.done (.scaled n)) ∧ i = c + 1 ∧ p.Stored s x n c q := by
  rw [steps, if_pos hc] at hj
  cases h with
  | starting => omega
  | deciding => omega
  | retrying h =>
    have hmet := h.met
    omega
  | landed => omega
  | scaled _ hending h => exact ⟨hending, rfl, h⟩
  | gaveUp => omega

theorem gaveUp_of_le (h : p.RapidCourse s x n c i j q) (hj : j = steps s c)
    (hc : s.config.writeTries ≤ c) :
    i = s.config.writeTries ∧ p.GaveUp s x c q := by
  rw [steps, if_neg (Nat.not_lt.2 hc)] at hj
  cases h with
  | starting => omega
  | deciding => omega
  | retrying h =>
    have hsome := h.some_left
    omega
  | landed => omega
  | scaled => omega
  | gaveUp _ h => exact ⟨rfl, h⟩

/-- An attempt that is not over can take a step, if need be after the rest of its sleep. -/
theorem exists_awake (hattempt : p.attempt.phase = .starting) (h : p.RapidCourse s x n c i j q)
    (hover : q.attempt.isOver = false) :
    q.attempt.isSuspended q.world.now = false ∨
      ∃ w, q.LeftAlone x n w ∧ (q.next s (.others w)).attempt = q.attempt ∧
        (q.next s (.others w)).world = w ∧ q.attempt.isSuspended w.now = false := by
  cases h with
  | starting _ hsame => exact .inl (by simp [Attempt.isSuspended, hsame, hattempt])
  | deciding _ hsame => exact .inl (by simp [Attempt.isSuspended, hsame])
  | landed _ h => exact .inl (by simp [Attempt.isSuspended, h.phase])
  | scaled _ hending => simp [Attempt.isOver, Attempt.ending?_eq_some_iff.1 hending] at hover
  | gaveUp _ h => simp [Attempt.isOver, Attempt.ending?_eq_some_iff.1 h.ending] at hover
  | retrying h =>
    rcases h.phase with ⟨hp, -⟩ | ⟨wake, hp, -⟩
    · exact .inl (by simp [Attempt.isSuspended, hp])
    · by_cases hasleep : q.world.now < wake.due
      · refine .inr ⟨{ q.world with now := wake.due }, ⟨?_, rfl, rfl, .inr ?_⟩, ?_, ?_, ?_⟩
        · exact h.admits.conflicts ▸ h.admits.of_cluster rfl rfl rfl
        · exact ⟨wake.due, by simp [Attempt.due?, hp], Nat.le_of_lt hasleep, Nat.le_refl _⟩
        · rw [next_others (by simp [Attempt.isAtRest, hp])]
        · rw [next_others (by simp [Attempt.isAtRest, hp])]
        · simp [Attempt.isSuspended, hp]
      · exact .inl (by simp [Attempt.isSuspended, hp, hasleep])

/-- An attempt that is not over takes another step, if need be after the rest of its sleep. -/
theorem exists_advance (hsets : (Attempt.launch item target).SetsOut s w₀ x n)
    (hv : c < s.config.writeTries → x.version + 1 < versionBound)
    (h : (launch item target w₀).RapidCourse s x n c i j q) (hover : q.attempt.isOver = false) :
    ∃ turns i', AtEach (Pursuit.next s) (RunsUndisturbed x n) q turns ∧
      (launch item target w₀).RapidCourse s x n c i' (j + 1) (q.run s turns) := by
  have advance : ∀ {i q}, (launch item target w₀).RapidCourse s x n c i j q →
      q.attempt.isOver = false → q.attempt.isSuspended q.world.now = false →
      (launch item target w₀).RapidCourse s x n c (i + q.requests .step) (j + 1)
        (q.next s .step) := by
    intro i q h hover hawake
    have hadvances : q.advances .step = 1 := by simp [advances, Attempt.canStep, hover, hawake]
    exact hadvances ▸ h.next hsets hv hover (t := .step) trivial
  rcases h.exists_awake (s := s) rfl hover with hawake | ⟨w, hw, hattempt, hworld, hawake⟩
  · exact ⟨[.step], _, ⟨⟨hover, trivial⟩, trivial⟩, advance h hover hawake⟩
  · have hsame : (q.next s (.others w)).attempt.isOver = false := by rw [hattempt, hover]
    have hnext := h.next hsets hv hover (t := .others w) hw
    have hcourse := advance hnext hsame (by rw [hattempt, hworld, hawake])
    exact ⟨[.others w, .step], _, ⟨⟨hover, hw⟩, ⟨hsame, trivial⟩, trivial⟩, hcourse⟩

/-- **A rapid attempt that nobody disturbs gets to its end.** -/
theorem exists_over (hsets : (Attempt.launch item target).SetsOut s w₀ x n)
    (hv : c < s.config.writeTries → x.version + 1 < versionBound)
    (h : (launch item target w₀).RapidCourse s x n c i j q) :
    ∃ turns, AtEach (Pursuit.next s) (RunsUndisturbed x n) q turns ∧
      (q.run s turns).attempt.isOver = true := by
  -- each step leaves fewer to be taken
  induction hleft : steps s c - j generalizing i j q with
  | zero =>
    rcases h.over_or_lt rfl with ⟨hover, -⟩ | ⟨-, hj⟩
    · exact ⟨[], trivial, hover⟩
    · omega
  | succ left ih =>
    rcases h.over_or_lt rfl with ⟨hover, -⟩ | ⟨hover, -⟩
    · exact ⟨[], trivial, hover⟩
    · obtain ⟨turns, i', hturns, hcourse⟩ := h.exists_advance hsets hv hover
      obtain ⟨more, hmore, hend⟩ := ih hcourse (by omega)
      refine ⟨turns ++ more, AtEach.append.2 ⟨hturns, hmore⟩, ?_⟩
      rw [run_append]
      exact hend

/-- **A rapid attempt from its launch.** -/
theorem run (hsets : (Attempt.launch item target).SetsOut s w₀ x n)
    (hv : c < s.config.writeTries → x.version + 1 < versionBound) (hadmits : w₀.Admits x n c)
    {turns : List Turn}
    (hturns : AtEach (Pursuit.next s) (RunsUndisturbed x n) (launch item target w₀) turns) :
    (launch item target w₀).RapidCourse s x n c ((launch item target w₀).total s requests turns)
      ((launch item target w₀).total s advances turns) ((launch item target w₀).run s turns) := by
  have hstart : (launch item target w₀).RapidCourse s x n c 0 0 (launch item target w₀) :=
    .starting ⟨rfl, rfl, rfl, rfl, rfl⟩ rfl rfl hadmits
  have hrun := run_total (s := s) (I := fun q i j => RapidCourse s x n c _ i j q)
    (fun q i j t h ht => h.next hsets hv ht.1 ht.2) hstart hturns
  rwa [Nat.zero_add, Nat.zero_add] at hrun

end RapidCourse

/-- **Retries after conflicts are bounded and clean.**  A number of conflicts is to come, and
nothing else stands in the way of the count of a workload.

A rapid attempt that is to move the workload to that count, and that nobody disturbs, comes to its
end, which it has reached after a definite number of steps.  If the conflicts are fewer than the
tries, it makes one update request for each of them and one more, sleeps once for each, and returns
the count, which it wrote once.  Else it makes as many update requests as there are tries, sleeps
between them, and fails; then the workload is as it was and the entry is failed, with the target in
force.

The same goes for a single write in either mode, from its first try on.  Every write starts without
conflicts; in step mode each of them moves the workload by one replica.

Sleeps add up on a clock on which each of them lasts as long as it is asked to. -/
theorem conflict_retries (s : Settings) (x : Workload) (n : Int) (c : Nat)
    (hversion : c < s.config.writeTries → x.version + 1 < versionBound) :
    (∀ item target w, (Attempt.launch item target).SetsOut s w x n → w.Admits x n c →
      ∀ turns, AtEach (next s) (RunsUndisturbed x n) (launch item target w) turns →
        let p := launch item target w
        let q := p.run s turns
        (q.attempt.isOver = true ↔ p.total s advances turns =
          if c < s.config.writeTries then c + 4 else s.config.writeTries + 2) ∧
        (q.attempt.isOver = true → c < s.config.writeTries →
          q.attempt.ending? = some (.done (.scaled n)) ∧ p.total s requests turns = c + 1 ∧
            p.Stored s x n c q) ∧
        (q.attempt.isOver = true → s.config.writeTries ≤ c →
          p.total s requests turns = s.config.writeTries ∧ p.GaveUp s x c q) ∧
        ∃ more, AtEach (next s) (RunsUndisturbed x n) p (turns ++ more) ∧
          (p.run s (turns ++ more)).attempt.isOver = true) ∧
    (∀ p : Pursuit, p.attempt.item.id = x.id → p.attempt.phase = .writing n 0 →
      p.world.Admits x n c → ∀ turns, AtEach (next s) (WritesUndisturbed x n) p turns →
        let q := p.run s turns
        p.total s advances turns = p.total s requests turns ∧
        (q.attempt.isWriting = false ↔
          p.total s requests turns = min (c + 1) s.config.writeTries) ∧
        (q.attempt.isWriting = false → c < s.config.writeTries →
          q.attempt.phase = .deciding ∧ q.attempt.current.spec = n ∧ p.Stored s x n c q) ∧
        (q.attempt.isWriting = false → s.config.writeTries ≤ c → p.GaveUp s x c q)) ∧
    (∀ (a : Attempt) w, a.isWriting = false → (a.step s w).1.isWriting = true →
      ∃ m, (a.step s w).1.phase = .writing m 0 ∧ (s.config.mode = .step →
        ∃ live, w.cluster.inventory.get? a.item.id = some live ∧
          (m = live.spec + 1 ∨ m = live.spec - 1))) ∧
    (s.clock.IsPunctual → ∀ start k,
      s.clock.wakeAfter start s.timings.conflictBackoff k =
        start + k * s.timings.conflictBackoff.millis) := by
  refine ⟨?_, ?_, fun a w => Attempt.step_starts_writing,
    fun hclock start k => hclock.wakeAfter_eq start _ k⟩
  · intro item target w hsets hadmits turns hturns p q
    have hcourse := RapidCourse.run hsets hversion hadmits hturns
    have hover := hcourse.isOver_iff rfl
    refine ⟨hover, ?_, ?_, ?_⟩
    · intro hend hc
      exact hcourse.scaled_of_lt (hover.1 hend) hc
    · intro hend hc
      exact hcourse.gaveUp_of_le (hover.1 hend) hc
    · obtain ⟨more, hmore, hend⟩ := hcourse.exists_over hsets hversion
      refine ⟨more, AtEach.append.2 ⟨hturns, hmore⟩, ?_⟩
      rw [run_append]
      exact hend
  · intro p hid hphase hadmits turns hturns q
    obtain ⟨hsame, hcourse⟩ := WriteCourse.run hid hphase hadmits hversion hturns
    refine ⟨hsame, hcourse.isWriting_eq_false_iff, ?_, ?_⟩
    · intro hover hc
      have hlanded := hcourse.landed_of_lt hover hc
      exact ⟨hlanded.phase, hlanded.current, hlanded.toStored⟩
    · intro hover hc
      exact hcourse.gaveUp_of_le hover hc

/-- A workload that is to have three replicas, with a number of conflicts to come. -/
def conflicting (x : Workload) (conflicts now : Nat) : World where
  cluster := { World.cluster (.holding [x]) with pendingConflicts := conflicts }
  registry := (Registry.claim ∅ x 3).2
  now

/-- With three tries a write is taken after two conflicts and twice the sleep of 10 ms; with the one
try that there is for no retries it is given up after one conflict.  In step mode the write of the
first replica is taken after one conflict. -/
theorem conflict_retries_two_and_one :
    let x : Workload := .sample ⟨.deployment, "shop", "api"⟩ "3"
    let s : Settings := .standard .rapid
    let once : Settings := { s with config := { s.config with conflictRetries := 0 } }
    let step : Settings := .standard .step
    let turns : List Turn := [.step, .step, .step, .others (conflicting x 1 10), .step,
      .others (conflicting x 0 20), .step, .step]
    let short : List Turn := [.step, .step, .step]
    let walk : List Turn := [.step, .others (conflicting x 0 10), .step]
    let p := launch x ⟨"up", 3⟩ (conflicting x 2 0)
    let p₁ := launch x ⟨"up", 3⟩ (conflicting x 1 0)
    let q := p₁.run step short
    ((p.run s turns).attempt.ending? = some (.done (.scaled 3)) ∧ p.total s requests turns = 3 ∧
      (p.run s turns).world.now = 20) ∧
    ((p₁.run once short).attempt.ending? = some (.failed (.retriesExhausted x.key 1)) ∧
      p₁.total once requests short = 1 ∧
      (p₁.run once short).world.cluster.inventory.get? x.id = some x) ∧
    (q.attempt.phase = .writing 1 0 ∧ (q.run step walk).attempt.current.spec = 1 ∧
      q.total step requests walk = 2) := by
  intro x s once step turns short walk p p₁ q
  have hversion : x.version + 1 < versionBound := by decide +kernel
  refine ⟨?_, ?_, ?_⟩
  · have hsets : (Attempt.launch x ⟨"up", 3⟩).SetsOut s (conflicting x 2 0) x 3 :=
      ⟨rfl, by decide +kernel, rfl, by decide +kernel, by decide +kernel⟩
    have hadmits : (conflicting x 2 0).Admits x 3 2 := by decide +kernel
    have hturns : AtEach (next s) (RunsUndisturbed x 3) p turns := by decide +kernel
    have hover : (p.run s turns).attempt.isOver = true := by decide +kernel
    obtain ⟨hruns, -, -, hsleeps⟩ := conflict_retries s x 3 2 fun _ => hversion
    obtain ⟨-, hscaled, -⟩ := hruns x _ _ hsets hadmits turns hturns
    obtain ⟨hending, hrequests, hstored⟩ := hscaled hover (by decide)
    have hlater : s.clock.wakeAfter 0 ⟨10⟩ 2 = 20 := hsleeps Clock.isPunctual_punctual 0 2
    have hnow := hstored.now
    clear_value turns
    exact ⟨hending, hrequests, hnow.trans hlater⟩
  · have hsets : (Attempt.launch x ⟨"up", 3⟩).SetsOut once (conflicting x 1 0) x 3 :=
      ⟨rfl, by decide +kernel, rfl, by decide +kernel, by decide +kernel⟩
    have hadmits : (conflicting x 1 0).Admits x 3 1 := by decide +kernel
    have hturns : AtEach (next once) (RunsUndisturbed x 3) p₁ short := by decide +kernel
    have hover : (p₁.run once short).attempt.isOver = true := by decide +kernel
    obtain ⟨hruns, -⟩ := conflict_retries once x 3 1 fun _ => hversion
    obtain ⟨-, -, hfailed, -⟩ := hruns x _ _ hsets hadmits short hturns
    obtain ⟨hrequests, hgaveUp⟩ := hfailed hover (by decide)
    clear_value short
    exact ⟨hgaveUp.ending, hrequests, hgaveUp.workload⟩
  · have hphase : q.attempt.phase = .writing 1 0 := by decide +kernel
    have hadmits : q.world.Admits x 1 1 := by decide +kernel
    have hturns : AtEach (next step) (WritesUndisturbed x 1) q walk := by decide +kernel
    have hover : (q.run step walk).attempt.isWriting = false := by decide +kernel
    obtain ⟨-, hwrites, -⟩ := conflict_retries step x 1 1 fun _ => hversion
    obtain ⟨-, hrequests, hlanded, -⟩ :=
      hwrites q (by decide +kernel) hphase hadmits walk hturns
    exact ⟨hphase, (hlanded hover (by decide)).2.1, hrequests.1 hover⟩

/-- Without a single conflict, an attempt does not get to the write if the kind of the workload
cannot be reached, and it does not return from the write that exhausts the versions. -/
theorem not_conflict_retries_out_of_reach :
    let x : Workload := .sample ⟨.deployment, "shop", "api"⟩ "3"
    let far : Workload := .sample ⟨.deploymentConfig, "shop", "api"⟩ "3"
    let last : Workload := { x with version := versionBound - 1 }
    let s : Settings := .standard .rapid
    let short : List Turn := [.step, .step, .step]
    let unreached := launch far ⟨"up", 3⟩ (conflicting far 0 0)
    let exhausted := launch last ⟨"up", 3⟩ (conflicting last 0 0)
    (far.spec ≠ 3 ∧ unreached.world.Admits far 3 0 ∧
      (unreached.run s [.step]).attempt.ending? = some (.failed (.noAdapter .deploymentConfig)) ∧
      unreached.total s requests [.step] = 0) ∧
    ((Attempt.launch last ⟨"up", 3⟩).SetsOut s exhausted.world last 3 ∧
      exhausted.world.Admits last 3 0 ∧ (exhausted.run s short).attempt.phase = .aborted) := by
  intro x far last s short unreached exhausted
  refine ⟨by decide +kernel, ⟨rfl, ?_, rfl, ?_, ?_⟩, ?_⟩
  all_goals decide +kernel

end Pursuit

end ReplicaControl
