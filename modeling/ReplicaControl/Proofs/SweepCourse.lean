import Mathlib.Data.Finset.Lattice.Fold
import ReplicaControl.Proofs.Retries

/-!
# The course of a sweep

A sweep launches its retries and waits for them.  Meanwhile they take turns with everybody else, in
whatever order.

* `Sweep.Course` — the world and the retries, turn by turn.
* `Course.Undisturbed` — in a turn nobody but the retries touches a key.
* `Course.Fair` — time goes on, and every retry gets one turn after the other.
* `Sweep.Accounts` — every failed entry has a fate, for a reason, and one verdict, which says what
  is left of it and under what it is counted.
* `Course.Ends` — a sweep is over, and accounts for every failed entry with what it reports.
* `Course.retries_of_undisturbed` — what holds of retries holds as long as nobody disturbs them.
  `Course.exists_swept`: then they are all over at some time.  `Course.ends`: then so is the sweep.
-/

namespace ReplicaControl.Sweep

/-- What happens from the launch of the retries of a sweep on. -/
structure Course (s : Settings) (w : World) where
  world : Nat → World
  retries : Nat → List Attempt
  /-- The place of the retry that has the turn, unless others have it. -/
  turn : Nat → Option Nat
  world_zero : world 0 = (survey s w).2
  retries_zero : retries 0 = (survey s w).1.2.map fun l => .launch l.1 l.2
  step : ∀ n j, turn n = some j → ∃ a, (retries n)[j]? = some a ∧
    world (n + 1) = (a.step s (world n)).2 ∧
    retries (n + 1) = (retries n).set j (a.step s (world n)).1
  others : ∀ n, turn n = none → retries (n + 1) = retries n

/-- A sweep that began in a world accounts for every failed entry, with the fates that it found, its
retries in the end, its report and the world then. -/
structure Accounts (s : Settings) (w : World) (fates : List Fate) (retries : List Attempt)
    (report : Report) (after : World) : Prop where
  explained : Explains s w fates
  /-- An attempt was launched for every fate that says so. -/
  launched : retries.map (fun a => (a.item, a.target)) = fates.filterMap Fate.launch?
  finished : ∀ a ∈ retries, a.isOver = true
  /-- No key is retried twice. -/
  once : (retries.map Attempt.key).Nodup
  retried : report.retried = retries.length
  /-- The retries, the entries whose object was gone and those without a target are counted. -/
  total : report.total =
    report.retried + fates.countP Fate.isGone + fates.countP Fate.isUntargeted
  counted : ∀ v, v ≠ .skipped →
    report.counted v = (verdicts fates (retries.map Attempt.ending?)).count v
  judged : (verdicts fates (retries.map Attempt.ending?)).length = w.registry.failures.length
  /-- What is left of an entry that no attempt was running for. -/
  left : ∀ p ∈ w.registry.failures.zip (verdicts fates (retries.map Attempt.ending?)),
    p.1.scaling = false → p.2.Leaves (some p.1) (after.registry.get? p.1.key)

/-- A retry is for a failed entry that no attempt was running for, and marks it as running. -/
theorem launch_entry {s : Settings} {w : World} (hfiled : w.registry.Filed) {l : Launch}
    (hl : l ∈ (survey s w).1.2) :
    ∃ e ∈ w.registry.failures, e.key = l.1.key ∧ e.scaling = false ∧
      (survey s w).2.registry.get? l.1.key =
        some { e with scaling := true, failure := true, desired := l.2.replicas } ∧
      ∃ live, w.cluster.inventory.get? l.1.id = some live ∧ l.1.spec = live.spec := by
  obtain ⟨e, hmem⟩ := exists_retried s hfiled hl
  obtain ⟨before, hfits⟩ := (explains_fatesOf s hfiled).of_mem_zip hmem
  obtain ⟨hid, live, hlive, hspec⟩ := hfits.stored
  have hkey : e.key = l.1.key := (congrArg WorkloadId.key hid).symm
  refine ⟨e, (List.of_mem_zip hmem).1, hkey, hfits.waiting nofun, ?_, live, hid ▸ hlive, hspec⟩
  rw [← hkey]
  exact (survey_spec s hfiled).2.2.1 _ hmem

/-- An attempt that a sweep launches is a retry. -/
theorem retries_launch {s : Settings} {w : World} (hfiled : w.registry.Filed) {l : Launch}
    (hl : l ∈ (survey s w).1.2) : (Attempt.launch l.1 l.2).Retries (survey s w).2 := by
  obtain ⟨e, -, hkey, -, hentry, live, hlive, hspec⟩ := launch_entry hfiled hl
  have hcounts : ∀ x, (survey s w).2.cluster.inventory.get? l.1.id = some x →
      x.spec = l.1.spec := by
    intro x hx
    rw [(survey_spec s hfiled).1, hlive] at hx
    exact (congrArg Workload.spec (Option.some.inj hx)).symm.trans hspec.symm
  have hdesired : (Attempt.launch l.1 l.2).desired (survey s w).2.registry = l.2.replicas := by
    unfold Attempt.desired
    rw [show (Attempt.launch l.1 l.2).key = l.1.key from rfl, hentry]
  exact .of_retrying ⟨⟨_, hentry, rfl, rfl, rfl⟩, fun _ => rfl, hdesired, hcounts, trivial⟩ rfl

namespace Course

variable {s : Settings} {w : World} (c : Course s w)

/-- The world after a turn in which only a retry did anything, without reactions to its write. -/
def quietly (n : Nat) : World :=
  match (c.turn n).bind ((c.retries n)[·]?) with
  | some a => (a.step s (c.world n).bare).2
  | none => c.world n

/-- In a turn nobody but the retries touches a key: nobody else, and no reaction to a write. -/
def Undisturbed (n : Nat) (key : Key) : Prop := (c.quietly n).Spares (c.world (n + 1)) key

/-- All retries are over. -/
def IsSwept (n : Nat) : Prop := ∀ a ∈ c.retries n, a.isOver = true

/-- What a sweep reports about its retries as they stand at some time. -/
def report (n : Nat) : Report :=
  ((c.retries n).map Attempt.ending?).foldl .record (survey s w).1.1

/-- The sweep is over some steps after it began: with this report it accounts for every failed
entry, and it left the others alone. -/
structure Ends (n : Nat) (report : Report) : Prop where
  swept : c.IsSwept n
  accounts : ∃ fates, Accounts s w fates (c.retries n) report (c.world n)
  /-- An entry that is not failed, or has a running attempt, is as it was, unless somebody else
  touched its key. -/
  others : ∀ key e, w.registry.get? key = some e → e.scaling = true ∨ e.failure = false →
    (∀ m < n, c.Undisturbed m key) → (c.world n).registry.get? key = some e

/-- Time goes on, and every retry gets one turn after the other unless it waits for time to pass. -/
def Fair : Prop :=
  ∀ j < (survey s w).1.2.length, ∀ t m, ∃ n, m ≤ n ∧ t ≤ (c.world n).now ∧
    (c.turn n = some j ∨ ∀ a, (c.retries n)[j]? = some a → a.canStep (c.world n).now = false)

variable {c}

theorem quietly_of_step {n j : Nat} {a : Attempt} (hturn : c.turn n = some j)
    (ha : (c.retries n)[j]? = some a) : c.quietly n = (a.step s (c.world n).bare).2 := by
  simp [quietly, hturn, ha]

/-- Without reactions to its write the turn of a retry disturbs nobody. -/
theorem undisturbed_of_turn {n j : Nat} (hturn : c.turn n = some j)
    (hrules : (c.world n).rules = []) (key : Key) : c.Undisturbed n key := by
  obtain ⟨a, ha, hworld, -⟩ := c.step n j hturn
  have hbare : (c.world n).bare = c.world n := by rw [World.bare, ← hrules]
  rw [Undisturbed, quietly_of_step hturn ha, hbare, hworld]
  exact .refl _ key

theorem quietly_of_others {n : Nat} (hturn : c.turn n = none) : c.quietly n = c.world n := by
  simp [quietly, hturn]

/-! ## The retries -/

/-- Every retry keeps its workload and its target. -/
theorem map_retries (n : Nat) :
    (c.retries n).map (fun a => (a.item, a.target)) = (survey s w).1.2 := by
  induction n with
  | zero =>
    rw [c.retries_zero, List.map_map]
    exact List.map_id _
  | succ n ih =>
    cases hturn : c.turn n with
    | none => rw [c.others n hturn, ih]
    | some j =>
      obtain ⟨a, ha, -, hnext⟩ := c.step n j hturn
      obtain ⟨hlt, rfl⟩ := List.getElem?_eq_some_iff.1 ha
      rw [hnext, List.map_set, Attempt.step_item, Attempt.step_target, ← ih]
      refine List.ext_getElem? fun k => ?_
      by_cases hk : j = k
      · subst hk
        rw [List.getElem?_set_self (by simpa using hlt), List.getElem?_map,
          List.getElem?_eq_getElem hlt]
        rfl
      · rw [List.getElem?_set_ne hk]

theorem length_retries (n : Nat) : (c.retries n).length = (survey s w).1.2.length := by
  rw [← c.map_retries n, List.length_map]

theorem exists_retry {j : Nat} {l : Launch} (hl : (survey s w).1.2[j]? = some l) (n : Nat) :
    ∃ a, (c.retries n)[j]? = some a := by
  have hlt := (List.getElem?_eq_some_iff.1 hl).1
  rw [← c.length_retries n] at hlt
  exact ⟨_, List.getElem?_eq_getElem hlt⟩

/-- The retries are the launches, in order. -/
theorem launch_of_getElem? {n j : Nat} {a : Attempt} (ha : (c.retries n)[j]? = some a) :
    (survey s w).1.2[j]? = some (a.item, a.target) := by
  rw [← c.map_retries n, List.getElem?_map, ha]
  rfl

theorem map_key_retries (n : Nat) :
    (c.retries n).map Attempt.key = (survey s w).1.2.map fun l => l.1.key := by
  rw [← c.map_retries n, List.map_map]
  rfl

/-- A retry stays where it is, or takes a step in its turn. -/
theorem getElem?_succ {n j : Nat} {a : Attempt} (ha : (c.retries n)[j]? = some a) :
    c.turn n ≠ some j ∧ (c.retries (n + 1))[j]? = some a ∨
      c.turn n = some j ∧ c.world (n + 1) = (a.step s (c.world n)).2 ∧
        (c.retries (n + 1))[j]? = some (a.step s (c.world n)).1 := by
  cases hturn : c.turn n with
  | none =>
    rw [c.others n hturn]
    exact .inl ⟨by simp, ha⟩
  | some k =>
    obtain ⟨x, hx, hworld, hnext⟩ := c.step n k hturn
    rw [hnext]
    by_cases hk : k = j
    · subst hk
      obtain rfl := Option.some.inj (hx.symm.trans ha)
      exact .inr ⟨rfl, hworld, List.getElem?_set_self (List.getElem?_eq_some_iff.1 hx).1⟩
    · rw [List.getElem?_set_ne hk]
      exact .inl ⟨by simpa using hk, ha⟩

section

variable (hfiled : w.registry.Filed)
include hfiled

/-- No key is retried twice. -/
theorem nodup_retries (n : Nat) : ((c.retries n).map Attempt.key).Nodup := by
  rw [map_key_retries]
  exact (survey_plan s hfiled).marks.nodup

theorem eq_of_key {n j k : Nat} {a b : Attempt} (ha : (c.retries n)[j]? = some a)
    (hb : (c.retries n)[k]? = some b) (hkey : a.key = b.key) : j = k := by
  have hlt := (List.getElem?_eq_some_iff.1 ha).1
  refine (List.getElem?_inj (by simpa using hlt) (c.nodup_retries hfiled n)).1 ?_
  rw [List.getElem?_map, List.getElem?_map, ha, hb]
  exact congrArg some hkey

/-- A retry is for a failed entry that no attempt was running for. -/
theorem exists_entry {n : Nat} {a : Attempt} (ha : a ∈ c.retries n) :
    ∃ e ∈ w.registry.failures, e.key = a.key ∧ e.scaling = false := by
  obtain ⟨j, hj⟩ := List.getElem?_of_mem ha
  obtain ⟨e, he, hkey, hs, -⟩ :=
    launch_entry hfiled (List.mem_of_getElem? (launch_of_getElem? hj))
  exact ⟨e, he, hkey, hs⟩

/-! ## Turns that do not disturb -/

omit hfiled in
/-- The turn of a retry does not touch the keys of others. -/
theorem spares_quietly {n : Nat} {key : Key}
    (h : ∀ j a, c.turn n = some j → (c.retries n)[j]? = some a → a.key ≠ key) :
    (c.world n).Spares (c.quietly n) key := by
  cases hturn : c.turn n with
  | none =>
    rw [quietly_of_others hturn]
    exact .refl _ _
  | some j =>
    obtain ⟨a, ha, -⟩ := c.step n j hturn
    rw [quietly_of_step hturn ha]
    have hbare : (c.world n).Spares (c.world n).bare key := ⟨rfl, fun _ x _ hx => ⟨x, hx, rfl⟩⟩
    exact hbare.trans (a.step_spares s rfl (h j a hturn ha).symm)

/-- **What holds of a retry stays so in a turn that does not disturb it.** -/
theorem Undisturbed.retries {n j : Nat} {a : Attempt} (ha : (c.retries n)[j]? = some a)
    (h : a.Retries (c.world n)) (hu : c.Undisturbed n a.key) :
    ∃ b, (c.retries (n + 1))[j]? = some b ∧ b.Retries (c.world (n + 1)) := by
  rcases getElem?_succ ha with ⟨hne, hstay⟩ | ⟨hturn, hworld, hnext⟩
  · refine ⟨a, hstay, h.of_spares ((spares_quietly fun k x hturn hx hkey => hne ?_).trans hu)⟩
    rw [hturn, eq_of_key hfiled hx ha hkey]
  · rw [Undisturbed, quietly_of_step hturn ha, hworld] at hu
    rw [hworld]
    exact ⟨_, hnext, Attempt.step_retries h hu⟩

variable {n : Nat} (hcalm : ∀ m < n, ∀ e ∈ w.registry.failures, e.scaling = false →
  c.Undisturbed m e.key)
include hcalm

/-- **What holds of retries holds as long as nobody disturbs them.** -/
theorem retries_of_undisturbed {j : Nat} {a : Attempt} (ha : (c.retries n)[j]? = some a) :
    a.Retries (c.world n) := by
  induction n generalizing a with
  | zero =>
    rw [c.retries_zero, List.getElem?_map] at ha
    obtain ⟨l, hl, rfl⟩ := Option.map_eq_some_iff.1 ha
    rw [c.world_zero]
    exact retries_launch hfiled (List.mem_of_getElem? hl)
  | succ n ih =>
    obtain ⟨b, hb⟩ := exists_retry (launch_of_getElem? ha) n
    obtain ⟨e, he, hkey, hs⟩ := c.exists_entry hfiled (List.mem_of_getElem? hb)
    have hu := hcalm n (Nat.lt_succ_self n) e he hs
    rw [hkey] at hu
    obtain ⟨b', hb', h⟩ :=
      hu.retries hfiled hb (ih (fun m hm => hcalm m (Nat.lt_succ_of_lt hm)) hb)
    obtain rfl := Option.some.inj (hb'.symm.trans ha)
    exact h

omit hfiled hcalm in
/-- The entry of a key that is not retried stays as the sweep left it, as long as nobody touches
it. -/
theorem entry_of_undisturbed {key : Key} (hkey : ∀ l ∈ (survey s w).1.2, l.1.key ≠ key)
    (hcalm : ∀ m < n, c.Undisturbed m key) :
    (c.world n).registry.get? key = (survey s w).2.registry.get? key := by
  induction n with
  | zero => rw [c.world_zero]
  | succ n ih =>
    have hspares : (c.world n).Spares (c.world (n + 1)) key :=
      (spares_quietly fun j a _ ha =>
        hkey (a.item, a.target) (List.mem_of_getElem? (launch_of_getElem? ha))).trans
          (hcalm n (Nat.lt_succ_self n))
    exact hspares.entry.trans (ih fun m hm => hcalm m (Nat.lt_succ_of_lt hm))

omit hcalm in
/-- An entry that is not failed, or has a running attempt, is left alone. -/
theorem left_alone {key : Key} {e : Workload} (hget : w.registry.get? key = some e)
    (hnot : e.scaling = true ∨ e.failure = false) (hcalm : ∀ m < n, c.Undisturbed m key) :
    (c.world n).registry.get? key = some e := by
  have hkey : ∀ l ∈ (survey s w).1.2, l.1.key ≠ key := by
    rintro l hl rfl
    obtain ⟨e', he', hkey, hs, -⟩ := launch_entry hfiled hl
    obtain ⟨hget', hf⟩ := (failures_spec hfiled).2 e' he'
    rw [hkey, hget] at hget'
    obtain rfl := Option.some.inj hget'
    simp [hf, hs] at hnot
  rw [c.entry_of_undisturbed hkey hcalm]
  exact survey_get?_of_not_waiting s hfiled hget hnot

end

/-! ## The end -/

/-- A retry that is over stays as it is. -/
theorem getElem?_of_isOver {n m j : Nat} {a : Attempt} (hover : a.isOver = true) (hnm : n ≤ m)
    (ha : (c.retries n)[j]? = some a) : (c.retries m)[j]? = some a := by
  induction hnm with
  | refl => exact ha
  | @step m _ ih =>
    rcases getElem?_succ ih with ⟨-, h⟩ | ⟨-, -, h⟩
    · exact h
    · rw [Attempt.step_of_isOver s _ hover] at h
      exact h

/-- **Retries that nobody disturbs are all over at some time.** -/
theorem exists_swept (hfiled : w.registry.Filed) (hfair : c.Fair)
    (hcalm : ∀ n, ∀ e ∈ w.registry.failures, e.scaling = false → c.Undisturbed n e.key) :
    ∃ n, c.IsSwept n := by
  have hone : ∀ j, ∃ n, j < (survey s w).1.2.length →
      ∃ a, (c.retries n)[j]? = some a ∧ a.isOver = true := by
    intro j
    by_cases hj : j < (survey s w).1.2.length
    swap
    · exact ⟨0, fun h => absurd h hj⟩
    choose a ha using c.exists_retry (List.getElem?_eq_getElem hj)
    have hover : ∃ n, (a n).isOver = true := by
      refine Attempt.exists_over (s := s) (w := c.world) (d := (a 0).target.replicas)
        (fun n => ?_) (fun t m => ?_) fun n hrunning => ?_
      · exact (getElem?_succ (ha n)).imp
          (fun h => Option.some.inj ((ha (n + 1)).symm.trans h.2))
          fun h => Option.some.inj ((ha (n + 1)).symm.trans h.2.2)
      · obtain ⟨n, hn, htime, hturn | hidle⟩ := hfair j hj t m
        · rcases getElem?_succ (ha n) with ⟨hne, -⟩ | ⟨-, -, h⟩
          · exact absurd hturn hne
          · exact ⟨n, hn, htime, .inl (Option.some.inj ((ha (n + 1)).symm.trans h))⟩
        · exact ⟨n, hn, htime, .inr (hidle _ (ha n))⟩
      · have htarget : (a n).target = (a 0).target := by
          have hsame := (launch_of_getElem? (ha n)).symm.trans (launch_of_getElem? (ha 0))
          exact congrArg (·.2) (Option.some.inj hsame)
        rw [← htarget]
        exact ((c.retries_of_undisturbed hfiled (fun m _ => hcalm m) (ha n)).running
          hrunning).chases
    exact hover.imp fun n hn _ => ⟨a n, ha n, hn⟩
  choose last hlast using hone
  refine ⟨(Finset.range (survey s w).1.2.length).sup last, fun a ha => ?_⟩
  obtain ⟨j, hj⟩ := List.getElem?_of_mem ha
  have hlt := (List.getElem?_eq_some_iff.1 (launch_of_getElem? hj)).1
  obtain ⟨b, hb, hover⟩ := hlast j hlt
  have hlater := getElem?_of_isOver hover (Finset.le_sup (Finset.mem_range.2 hlt)) hb
  obtain rfl := Option.some.inj (hlater.symm.trans hj)
  exact hover

/-- What a sweep counts when all its retries are over. -/
theorem counted_report (n : Nat) :
    (c.report n).retried = (c.retries n).length ∧
      (c.report n).total = (c.report n).retried + (fatesOf s w).countP Fate.isGone +
        (fatesOf s w).countP Fate.isUntargeted ∧
      ∀ v, v ≠ .skipped → (c.report n).counted v =
        (verdicts (fatesOf s w) ((c.retries n).map Attempt.ending?)).count v := by
  have hsurvey := congrArg (fun r => r.1.1) (survey_eq s w)
  have hlaunches : (survey s w).1.2 = (fatesOf s w).filterMap Fate.launch? :=
    congrArg (fun r => r.1.2) (survey_eq s w)
  have hlen : ((c.retries n).map Attempt.ending?).length = (survey s w).1.2.length := by
    rw [List.length_map, length_retries]
  have hretried : (c.report n).retried = (survey s w).1.2.length := by
    rw [report, Report.retried_foldl_record, hsurvey, hlaunches]
  refine ⟨hretried.trans (c.length_retries n).symm, ?_, fun v hv => ?_⟩
  · rw [hretried, report, Report.total_foldl_record, hlen, hsurvey]
    simp only [Report.total]
    omega
  · rw [report, Report.counted_foldl_record, hsurvey,
      count_verdicts hv (hlen.trans (congrArg _ hlaunches))]
    cases v <;> rfl

/-- **A sweep that nobody disturbs accounts for every failed entry**, when its retries are over. -/
theorem accounts (hfiled : w.registry.Filed) {n : Nat}
    (hcalm : ∀ m < n, ∀ e ∈ w.registry.failures, e.scaling = false → c.Undisturbed m e.key)
    (hswept : c.IsSwept n) (hsound : ∀ a ∈ c.retries n, a.phase ≠ .aborted) :
    Accounts s w (fatesOf s w) (c.retries n) (c.report n) (c.world n) := by
  obtain ⟨hretried, htotal, hcounted⟩ := c.counted_report n
  obtain ⟨-, hlen, hfates, -⟩ := survey_spec s hfiled
  have hlaunches : (survey s w).1.2 = (fatesOf s w).filterMap Fate.launch? :=
    congrArg (fun r => r.1.2) (survey_eq s w)
  refine ⟨explains_fatesOf s hfiled, (c.map_retries n).trans hlaunches, hswept,
    c.nodup_retries hfiled n, hretried, htotal, hcounted, (length_verdicts _ _).trans hlen, ?_⟩
  rintro ⟨e, v⟩ hp hs
  obtain ⟨hget, hf⟩ := (failures_spec hfiled).2 e (List.of_mem_zip hp).1
  obtain ⟨f, hmem, hcase⟩ := mem_zip_verdicts hp
  have hafter := hfates _ hmem
  rcases hcase with ⟨hlaunch, rfl⟩ | ⟨l, j, rfl, hj, rfl⟩
  · have hkey : ∀ l ∈ (survey s w).1.2, l.1.key ≠ e.key := by
      intro l hl hk
      obtain ⟨e', -, -, -, hx, -⟩ := launch_entry hfiled hl
      rw [hk] at hx
      exact Bool.noConfusion (Fate.scaling_of_remains hlaunch hs (hafter.symm.trans hx))
    rw [c.entry_of_undisturbed hkey fun m hm => hcalm m hm e (List.of_mem_zip hp).1 hs, hafter]
    exact Fate.leaves hlaunch hf hs
  · rw [← hlaunches] at hj
    obtain ⟨a, ha⟩ := c.exists_retry hj n
    obtain ⟨before, hfits⟩ := (explains_fatesOf s hfiled).of_mem_zip hmem
    have hitem := congrArg Prod.fst (Option.some.inj (hj.symm.trans (launch_of_getElem? ha)))
    have hkey : a.key = e.key :=
      (congrArg Workload.key hitem).symm.trans (congrArg WorkloadId.key hfits.stored.1)
    obtain ⟨ending, hended⟩ := Attempt.exists_ending (hswept a (List.mem_of_getElem? ha))
      (hsound a (List.mem_of_getElem? ha))
    have hending : ((c.retries n).map Attempt.ending?)[j]?.join = some ending := by
      rw [List.getElem?_map, ha]
      simp [Attempt.ending?, hended]
    rw [hending, ← hkey]
    exact (c.retries_of_undisturbed hfiled hcalm ha).ended ending _ hended

/-- **A sweep that nobody disturbs ends** with all its retries. -/
theorem ends (hfiled : w.registry.Filed) {n : Nat}
    (hcalm : ∀ m < n, ∀ e ∈ w.registry.failures, e.scaling = false → c.Undisturbed m e.key)
    (hswept : c.IsSwept n) (hsound : ∀ a ∈ c.retries n, a.phase ≠ .aborted) :
    c.Ends n (c.report n) where
  swept := hswept
  accounts := ⟨_, c.accounts hfiled hcalm hswept hsound⟩
  others := fun _ _ hget hnot hcalm => left_alone hfiled hget hnot hcalm

end Course

end ReplicaControl.Sweep
