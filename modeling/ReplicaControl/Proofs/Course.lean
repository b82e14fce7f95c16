import ReplicaControl.Proofs.RegistryTargets
import ReplicaControl.Proofs.Totals

/-!
# Courses of attempts

What an attempt does that is left to itself: in a calm world, and as long as nobody else revises its
target or touches its workload.

* `Mode.path` — the counts on the way from one count to another one.
* `Attempt.OnCourse` — an attempt that knows its workload as it is stored, and has its own target in
  force.  `Attempt.CourseStep` — everything that its step can come to: it starts, decides, finds its
  workload ready, writes the next count of its path, arrives, or is refused by a quota.
* `CourseStep.turnsLeft_lt` — every step brings it closer to its end.
* `Attempt.OnWay` — what was written is the first part of its path.
-/

namespace ReplicaControl

/-! ## Paths -/

/-- The counts on the way from one count to another one, the first one excluded. -/
def Mode.path (mode : Mode) (start target : Int) : List Int :=
  match mode with
  | .rapid => if start = target then [] else [target]
  | .step =>
    (List.range (target - start).natAbs).map fun (i : Nat) =>
      if start < target then start + 1 + i else start - 1 - i

namespace Mode

variable {mode : Mode} {start target n : Int}

@[simp] theorem path_self (mode : Mode) (n : Int) : mode.path n n = [] := by
  cases mode <;> simp [path]

theorem path_rapid (h : start ≠ target) : rapid.path start target = [target] := if_neg h

/-- In step mode the first count is one replica closer to the target. -/
theorem path_step (h : start ≠ target) :
    step.path start target =
      oneToward start target :: step.path (oneToward start target) target := by
  have hlen : (target - start).natAbs = (target - oneToward start target).natAbs + 1 := by
    unfold oneToward
    split <;> omega
  unfold path
  simp only [hlen, List.range_succ_eq_map, List.map_cons, List.map_map]
  congr 1
  · unfold oneToward
    split <;> simp
  · refine List.map_congr_left fun i hi => ?_
    have hi := List.mem_range.1 hi
    simp only [Function.comp_apply]
    unfold oneToward at hi ⊢
    split at hi <;> split <;> split <;> omega

@[simp] theorem length_path_step (start target : Int) :
    (step.path start target).length = (target - start).natAbs := by
  simp [path]

example : rapid.path 1 4 = [4] ∧ step.path 1 4 = [2, 3, 4] ∧ step.path 4 2 = [3, 2] := by
  decide

/-- A path that is not at its end goes on. -/
theorem path_cons (h : start ≠ target) :
    ∃ n, mode.path start target = n :: mode.path n target := by
  cases mode with
  | rapid => exact ⟨target, by rw [path_rapid h, path_self]⟩
  | step => exact ⟨_, path_step h⟩

theorem ne_of_path_cons {rest : List Int} (h : mode.path start target = n :: rest) :
    start ≠ target := by
  rintro rfl
  simp at h

theorem eq_oneToward_of_path {rest : List Int} (h : step.path start target = n :: rest) :
    n = oneToward start target := by
  rw [path_step (ne_of_path_cons h)] at h
  exact (List.cons.inj h).1.symm

/-- A path leads straight to its end. -/
theorem lt_of_path_cons {rest : List Int} (h : mode.path start target = n :: rest) :
    (start < target → start < n ∧ n ≤ target) ∧ (target < start → target ≤ n ∧ n < start) := by
  have hne := ne_of_path_cons h
  cases mode with
  | rapid =>
    rw [path_rapid hne] at h
    obtain rfl := (List.cons.inj h).1
    omega
  | step =>
    rw [eq_oneToward_of_path h]
    unfold oneToward
    split <;> omega

/-- A path stays between its ends. -/
theorem mem_path (h : n ∈ mode.path start target) :
    min start target ≤ n ∧ n ≤ max start target := by
  cases mode with
  | rapid =>
    unfold path at h
    dsimp only at h
    split at h
    · cases h
    · obtain rfl := List.mem_singleton.1 h
      omega
  | step =>
    obtain ⟨i, hi, rfl⟩ := List.mem_map.1 h
    have hi := List.mem_range.1 hi
    split <;> omega

end Mode

/-! ## Attempts -/

namespace Attempt

variable {s : Settings} {a : Attempt} {w : World}

/-- Where an attempt stands that is left to itself. -/
def KeepsPhase (mode : Mode) (a : Attempt) : Prop :=
  match a.phase with
  | .starting => a.current = a.item ∧ a.item.spec ≠ a.target.replicas
  | .deciding => a.written = false → a.current.spec ≠ a.target.replicas
  | .polling wait =>
    mode = .step ∧ a.current.spec ≠ a.target.replicas ∧ wait.desired = a.target.replicas
  | .writing n _ =>
    mode.path a.current.spec a.target.replicas = n :: mode.path n a.target.replicas
  | .ended e =>
    (e = .done (.scaled a.target.replicas) ∧ a.current.spec = a.target.replicas) ∨
      (e = .done .quotaDenied ∧ a.current.spec ≠ a.target.replicas)
  | .waiting .. | .backingOff .. | .aborted => False

/-- The attempt knows its workload as it is stored, and its own target is in force. -/
structure OnCourse (s : Settings) (a : Attempt) (w : World) : Prop where
  stored : w.cluster.inventory.get? a.item.id = some a.current
  same : ∃ spec ready version, a.current = { a.item with spec, ready, version }
  optedIn : a.item.isOptedIn = true
  reachable : s.adapters.contains a.item.kind = true
  inForce : a.ending? = none → a.desired w.registry = a.target.replicas
  version : a.current.version +
    (s.config.mode.path a.current.spec a.target.replicas).length < versionBound
  steady : s.config.mode = .step →
    w.cluster.autoReady = true ∧ a.current.ready = a.current.spec ∧ isTimeLimit (a.limit s) = true
  phase : a.KeepsPhase s.config.mode

namespace OnCourse

theorem id_eq (h : a.OnCourse s w) : a.current.id = a.item.id := by
  obtain ⟨_, _, _, heq⟩ := h.same
  rw [heq]
  rfl

theorem key_eq (h : a.OnCourse s w) : a.current.key = a.key := congrArg WorkloadId.key h.id_eq

theorem isOptedIn_eq (h : a.OnCourse s w) : a.current.isOptedIn = true := by
  obtain ⟨_, _, _, heq⟩ := h.same
  rw [heq]
  exact h.optedIn

theorem load_eq (h : a.OnCourse s w) (n : Int) (name : String) :
    a.current.load n name = a.item.load n name := by
  obtain ⟨_, _, _, heq⟩ := h.same
  rw [heq]
  rfl

theorem allowsAutoscaling_eq (h : a.OnCourse s w) :
    a.current.allowsAutoscaling = a.item.allowsAutoscaling := by
  obtain ⟨_, _, _, heq⟩ := h.same
  rw [heq]
  rfl

theorem fetch (h : a.OnCourse s w) (hw : w.IsCalm) :
    w.fetch a.item.id = (.ok a.current, w) := by
  rw [← h.id_eq]
  exact hw.fetch (h.id_eq ▸ h.stored)

theorem of_starting (h : a.OnCourse s w) (hp : a.phase = .starting) :
    a.current = a.item ∧ a.item.spec ≠ a.target.replicas := by
  simpa only [KeepsPhase, hp] using h.phase

theorem of_deciding (h : a.OnCourse s w) (hp : a.phase = .deciding) (hw : a.written = false) :
    a.current.spec ≠ a.target.replicas := by
  have hk := h.phase
  rw [KeepsPhase, hp] at hk
  exact hk hw

theorem of_polling (h : a.OnCourse s w) {wait : Wait} (hp : a.phase = .polling wait) :
    s.config.mode = .step ∧ a.current.spec ≠ a.target.replicas ∧
      wait.desired = a.target.replicas := by
  simpa only [KeepsPhase, hp] using h.phase

theorem of_writing (h : a.OnCourse s w) {n : Int} {k : Nat} (hp : a.phase = .writing n k) :
    s.config.mode.path a.current.spec a.target.replicas =
      n :: s.config.mode.path n a.target.replicas := by
  simpa only [KeepsPhase, hp] using h.phase

theorem of_ended (h : a.OnCourse s w) {e : Ending} (hp : a.phase = .ended e) :
    (e = .done (.scaled a.target.replicas) ∧ a.current.spec = a.target.replicas) ∨
      (e = .done .quotaDenied ∧ a.current.spec ≠ a.target.replicas) := by
  simpa only [KeepsPhase, hp] using h.phase

/-- An attempt on course never waits for another try. -/
theorem of_tries (h : a.OnCourse s w) {n : Int} {k : Nat} (ht : a.Tries w n k) :
    a.phase = .writing n k := by
  rcases ht with hp | ⟨wake, hp, -⟩
  · exact hp
  · have hk := h.phase
    rw [KeepsPhase, hp] at hk
    exact hk.elim

/-- An attempt stays on course as long as its workload and its entry are left alone. -/
theorem frame {w' : World} (h : a.OnCourse s w)
    (hinv : w'.cluster.inventory.get? a.item.id = w.cluster.inventory.get? a.item.id)
    (hready : w'.cluster.autoReady = w.cluster.autoReady)
    (hreg : w'.registry.get? a.key = w.registry.get? a.key) : a.OnCourse s w' where
  stored := hinv.trans h.stored
  same := h.same
  optedIn := h.optedIn
  reachable := h.reachable
  inForce hn := by
    rw [desired_eq_of_target? (congrArg (Option.map Workload.desired) hreg)]
    exact h.inForce hn
  version := h.version
  steady hmode := by
    rw [hready]
    exact h.steady hmode
  phase := h.phase

end OnCourse

/-- The verdict on a count that the attempt is about to write. -/
def verdict (a : Attempt) (c : Cluster) (n : Int) : Admission :=
  c.verdict a.current.key.ns (Quota.itemNeed a.current n)

/-- What the step of an attempt on course comes to. -/
inductive CourseStep (s : Settings) (a : Attempt) (w : World) : Attempt × World → Prop
  | finished {e : Ending} (hp : a.phase = .ended e) : CourseStep s a w (a, w)
  | begun (hp : a.phase = .starting) :
      CourseStep s a w ({ a with phase := .deciding }, { w with registry := a.marked w.registry })
  /-- In rapid mode the target is to be written, in step mode the workload is to become ready. -/
  | decided {phase : Phase} (hp : a.phase = .deciding)
      (hne : a.current.spec ≠ a.target.replicas)
      (hn : (s.config.mode = .rapid ∧ phase = .writing a.target.replicas 0) ∨
        (s.config.mode = .step ∧
          ∃ wait, phase = .polling wait ∧ wait.desired = a.target.replicas)) :
      CourseStep s a w ({ a with phase },
        { w with registry := w.registry.update a.key ({ · with scaling := true }) })
  | ready {wait : Wait} (hp : a.phase = .polling wait) :
      CourseStep s a w
        ({ a with phase := .writing (oneToward a.current.spec a.target.replicas) 0 }, w)
  | wrote {n : Int} {k : Nat} (hp : a.phase = .writing n k)
      (hv : a.verdict w.cluster n = .allowed) :
      CourseStep s a w
        ({ a with
            current := w.cluster.updated a.current n
            written := true
            phase := .deciding },
          { w with cluster := w.cluster.update a.current n })
  | denied {n : Int} {k : Nat} {registry : Registry} {events : List Event}
      (hp : a.phase = .writing n k) (hv : a.verdict w.cluster n ≠ .allowed) :
      CourseStep s a w
        ({ a with phase := .ended (.done .quotaDenied) }, { w with registry, events })
  | arrived {registry : Registry} {events : List Event} (hp : a.phase = .deciding)
      (heq : a.current.spec = a.target.replicas) :
      CourseStep s a w
        ({ a with phase := .ended (.done (.scaled a.target.replicas)) },
          { w with registry, events })

namespace OnCourse

theorem decide_step (h : a.OnCourse s w) (hp : a.phase = .deciding) :
    CourseStep s a w (a.decide s w) := by
  have hin : a.desired w.registry = a.target.replicas := h.inForce (by simp [ending?, hp])
  unfold decide
  simp only [hin]
  split
  · rename_i heq
    have hwritten : a.written = true := by
      cases hw : a.written with
      | true => rfl
      | false => exact absurd heq (h.of_deciding hp hw)
    rw [hwritten, if_pos rfl, heq]
    exact .arrived hp heq
  · rename_i hne
    cases hmode : s.config.mode with
    | rapid => exact .decided hp hne (.inl ⟨hmode, rfl⟩)
    | step =>
      dsimp only
      rw [if_pos (h.steady hmode).2.2]
      exact .decided hp hne (.inr ⟨hmode, _, rfl, rfl⟩)

theorem poll_step (h : a.OnCourse s w) (hw : w.IsCalm) {wait : Wait}
    (hp : a.phase = .polling wait) : CourseStep s a w (a.poll s w wait) := by
  obtain ⟨hmode, hne, hdesired⟩ := h.of_polling hp
  have hready : isReady wait a.current = true := by
    simp [isReady, (h.steady hmode).2.1]
  have hpoll : a.poll s w wait =
      ({ a with phase := .writing (oneToward a.current.spec a.target.replicas) 0 }, w) := by
    simp only [poll, h.fetch hw, hready, if_true, hdesired, if_neg hne]
  rw [hpoll]
  exact .ready hp

theorem write_step (h : a.OnCourse s w) (hw : w.IsCalm) {n : Int} {k : Nat}
    (hp : a.phase = .writing n k) : CourseStep s a w (a.write s w n k) := by
  have hv : a.current.version + 1 < versionBound := by
    have := h.version
    rw [h.of_writing hp, List.length_cons] at this
    omega
  have hstored : w.cluster.inventory.get? a.current.id = some a.current := by
    rw [h.id_eq]
    exact h.stored
  simp only [write, h.fetch hw, h.isOptedIn_eq, if_true, hw.admission]
  cases hverdict : w.cluster.verdict a.current.key.ns (Quota.itemNeed a.current n) with
  | allowed =>
    simp only [store, hw.store hstored hv]
    exact .wrote hp hverdict
  | denied quota shortfall =>
    refine .denied hp ?_
    rw [verdict, hverdict]
    exact nofun

/-- **Every step of an attempt on course comes to one of the cases.** -/
theorem step_course (h : a.OnCourse s w) (hw : w.IsCalm) : CourseStep s a w (a.step s w) := by
  unfold step
  cases hp : a.phase with
  | starting =>
    show CourseStep s a w (a.begin s w)
    unfold begin
    rw [if_neg fun hstart => (h.of_starting hp).2 hstart.1, if_pos h.reachable]
    exact .begun hp
  | deciding => exact h.decide_step hp
  | polling wait => exact h.poll_step hw hp
  | writing n k => exact h.write_step hw hp
  | ended e => exact .finished hp
  | waiting | backingOff | aborted =>
    have hk := h.phase
    rw [KeepsPhase, hp] at hk
    exact hk.elim

end OnCourse

namespace CourseStep

variable {r : Attempt × World}

/-- An attempt on course stays on course. -/
theorem onCourse (hstep : CourseStep s a w r) (h : a.OnCourse s w) : r.1.OnCourse s r.2 := by
  cases hstep with
  | finished => exact h
  | begun hp =>
    obtain ⟨hcurrent, hne⟩ := h.of_starting hp
    exact { h with
      inForce := fun _ => (a.desired_marked w.registry).trans (h.inForce (by simp [ending?, hp]))
      phase := fun _ => hcurrent ▸ hne }
  | decided hp hne hn =>
    refine { h with
      inForce := fun _ => (desired_eq_of_target? (w.registry.target?_update a.key a.key _)).trans
        (h.inForce (by simp [ending?, hp]))
      phase := ?_ }
    rcases hn with ⟨hmode, rfl⟩ | ⟨hmode, wait, rfl, hwait⟩
    · show s.config.mode.path _ _ = _ :: _
      rw [hmode, Mode.path_rapid hne, Mode.path_self]
    · exact ⟨hmode, hne, hwait⟩
  | ready hp =>
    obtain ⟨hmode, hne, -⟩ := h.of_polling hp
    refine { h with inForce := fun _ => h.inForce (by simp [ending?, hp]), phase := ?_ }
    show s.config.mode.path _ _ = _ :: _
    rw [hmode]
    exact Mode.path_step hne
  | @wrote n k hp hv =>
    obtain ⟨spec, ready, version, heq⟩ := h.same
    refine ⟨?_, ⟨n, if w.cluster.autoReady then n else a.current.ready, a.current.version + 1, ?_⟩,
      h.optedIn, h.reachable, fun _ => h.inForce (by simp [ending?, hp]), ?_, fun hmode => ?_,
      nofun⟩
    · show (w.cluster.update a.current n).inventory.get? a.item.id = _
      rw [Cluster.get?_update, if_pos h.id_eq.symm]
    · show w.cluster.updated a.current n = _
      rw [heq]
      rfl
    · have hv := h.version
      rw [h.of_writing hp, List.length_cons] at hv
      show a.current.version + 1 + (s.config.mode.path n a.target.replicas).length < versionBound
      omega
    · obtain ⟨hauto, -, hlimit⟩ := h.steady hmode
      exact ⟨hauto, if_pos hauto, hlimit⟩
  | denied hp =>
    exact { h with
      inForce := nofun
      phase := .inr ⟨rfl, Mode.ne_of_path_cons (h.of_writing hp)⟩ }
  | arrived hp heq => exact { h with inForce := nofun, phase := .inl ⟨rfl, heq⟩ }

theorem isCalm (hstep : CourseStep s a w r) (hw : w.IsCalm) : r.2.IsCalm := by
  cases hstep with
  | wrote => exact hw.update _ _
  | _ => exact ⟨hw.faults, hw.rules, hw.conflicts⟩

/-- A step leaves the cluster alone, or writes the next count of the path. -/
theorem cluster (hstep : CourseStep s a w r) :
    (r.1.current = a.current ∧ r.2.cluster = w.cluster) ∨
      ∃ n k, a.phase = .writing n k ∧ a.verdict w.cluster n = .allowed ∧
        r.1.current = w.cluster.updated a.current n ∧
        r.2.cluster = w.cluster.update a.current n := by
  cases hstep with
  | wrote hp hv => exact .inr ⟨_, _, hp, hv, rfl, rfl⟩
  | _ => exact .inl ⟨rfl, rfl⟩

/-- An attempt whose next count is not refused does not end with a refusal. -/
theorem not_denied (hstep : CourseStep s a w r)
    (hv : ∀ {n k}, a.phase = .writing n k → a.verdict w.cluster n = .allowed)
    (h : a.ending? ≠ some (.done .quotaDenied)) : r.1.ending? ≠ some (.done .quotaDenied) := by
  cases hstep with
  | finished => exact h
  | denied hp hdenied => exact absurd (hv hp) hdenied
  | decided _ _ hn => rcases hn with ⟨-, rfl⟩ | ⟨-, _, rfl, -⟩ <;> exact nofun
  | begun | ready | wrote => exact nofun
  | arrived => simp [ending?]

end CourseStep

/-- How many turns an attempt on course needs at most until it ends. -/
def turnsLeft (mode : Mode) (a : Attempt) : Nat :=
  let left := (mode.path a.current.spec a.target.replicas).length
  match a.phase with
  | .starting => 3 * left + 2
  | .deciding => 3 * left + 1
  | .polling _ => 3 * left
  | .writing .. => 3 * left - 1
  | _ => 0

/-- An attempt on course comes closer to its end with every step. -/
theorem CourseStep.turnsLeft_lt {r : Attempt × World} (hstep : CourseStep s a w r)
    (h : a.OnCourse s w) (hn : a.ending? = none) :
    r.1.turnsLeft s.config.mode < a.turnsLeft s.config.mode := by
  -- the path of an attempt that waits or writes is not at its end
  have left : a.current.spec ≠ a.target.replicas →
      0 < (s.config.mode.path a.current.spec a.target.replicas).length := by
    intro hne
    obtain ⟨n, hcons⟩ : ∃ n, s.config.mode.path _ _ = n :: _ := Mode.path_cons hne
    simp [hcons]
  unfold turnsLeft
  cases hstep with
  | finished hp => simp [ending?, hp] at hn
  | begun hp => simp only [hp]; omega
  | decided hp hne hn =>
    have := left hne
    rcases hn with ⟨-, rfl⟩ | ⟨-, wait, rfl, -⟩ <;> simp only [hp] <;> omega
  | ready hp =>
    have := left (h.of_polling hp).2.1
    simp only [hp]
    omega
  | @wrote n k hp hv =>
    simp only [hp, h.of_writing hp, List.length_cons]
    show 3 * (s.config.mode.path n a.target.replicas).length + 1 < _
    omega
  | denied hp =>
    have := left (Mode.ne_of_path_cons (h.of_writing hp))
    simp only [hp]
    omega
  | arrived hp => simp only [hp]; omega

theorem ending?_eq_some_iff {e : Ending} : a.ending? = some e ↔ a.phase = .ended e := by
  unfold ending?
  split <;> simp_all

theorem turnsLeft_of_ended {mode : Mode} (h : a.ending?.isSome = true) : a.turnsLeft mode = 0 := by
  obtain ⟨e, he⟩ := Option.isSome_iff_exists.1 h
  simp only [turnsLeft, ending?_eq_some_iff.1 he]

/-- What an attempt has added to the need under a name. -/
def growth (a : Attempt) (name : String) : Int :=
  a.item.load a.current.spec name - a.item.load a.item.spec name

/-- The counts that were written to a workload, in order. -/
def recordsOf (id : WorkloadId) (records : List (WorkloadId × Int)) : List Int :=
  (records.filter (·.1 == id)).map (·.2)

/-- The counts that an attempt wrote, and the path that is left, make its whole path. -/
structure OnWay (mode : Mode) (a : Attempt) (done : List Int) : Prop where
  path : done ++ mode.path a.current.spec a.target.replicas =
    mode.path a.item.spec a.target.replicas
  count : a.current.spec = done.getLastD a.item.spec

namespace OnWay

variable {mode : Mode} {done : List Int}

theorem start_or_mem (h : a.OnWay mode done) : a.current.spec = a.item.spec ∨
    a.current.spec ∈ mode.path a.item.spec a.target.replicas := by
  rcases List.eq_nil_or_concat done with rfl | ⟨before, n, rfl⟩
  · exact .inl h.count
  · refine .inr ?_
    rw [← h.path, h.count]
    simp

/-- The stored count stays between the first count and the target. -/
theorem between (h : a.OnWay mode done) :
    min a.item.spec a.target.replicas ≤ a.current.spec ∧
      a.current.spec ≤ max a.item.spec a.target.replicas := by
  rcases h.start_or_mem with h | h
  · omega
  · exact Mode.mem_path h

theorem of_rapid (h : a.OnWay .rapid done) :
    a.current.spec = a.item.spec ∨ a.current.spec = a.target.replicas := by
  refine h.start_or_mem.imp id fun h => ?_
  unfold Mode.path at h
  dsimp only at h
  split at h
  · cases h
  · exact List.mem_singleton.1 h

theorem turnsLeft_le (h : a.OnWay mode done) :
    a.turnsLeft mode ≤ 3 * (mode.path a.item.spec a.target.replicas).length + 2 := by
  have hlen := congrArg List.length h.path
  rw [List.length_append] at hlen
  unfold turnsLeft
  dsimp only
  split <;> omega

/-- The next count is exempt if and only if the whole change is. -/
theorem isExempt_eq (h : a.OnWay mode done) {n : Int} {rest : List Int}
    (hn : mode.path a.current.spec a.target.replicas = n :: rest)
    (hauto : a.current.allowsAutoscaling = a.item.allowsAutoscaling) :
    a.current.isExempt n = a.item.isExempt a.target.replicas := by
  have hbetween := h.between
  have hne := Mode.ne_of_path_cons hn
  obtain ⟨hup, hdown⟩ := Mode.lt_of_path_cons hn
  have hiff : n ≤ a.current.spec ↔ a.target.replicas ≤ a.item.spec := by omega
  rw [Workload.isExempt, Workload.isExempt, hauto, decide_eq_decide.2 hiff]

/-- A written count is the next one of the path. -/
theorem wrote (h : a.OnWay mode done) {n : Int}
    (hn : mode.path a.current.spec a.target.replicas = n :: mode.path n a.target.replicas)
    {b : Attempt} (hitem : b.item = a.item) (htarget : b.target = a.target)
    (hcurrent : b.current.spec = n) : b.OnWay mode (done ++ [n]) where
  path := by
    rw [hitem, htarget, hcurrent, ← h.path, hn, List.append_assoc]
    rfl
  count := by simp [hcurrent]

end OnWay

end Attempt

end ReplicaControl
