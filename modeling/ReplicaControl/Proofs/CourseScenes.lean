import Mathlib.Algebra.Order.Group.Nat
import Mathlib.Data.List.Nodup
import ReplicaControl.Proofs.Course

/-!
# Scenes of attempts on course

* `Scene.UnderWay` — a scene of attempts on course, each for a workload of its own.
  `Scene.OnCourse`: besides, no limit is negative, and what the workloads need is accounted for.
  `UnderWay.next`, `OnCourse.next`: a scene stays one, whoever has its turn when.
* `OnCourse.verdict_iff` — when the quotas allow the next count of an attempt, and `total_le`: what
  the others may have added by then.
* `UnderWay.finish`, `finishAll` — an attempt that gets enough turns ends, and so do all of them,
  one after the other in any order.
* `Scene.Completes` — every change was made; `UnderWay.completes`: so it is if no attempt is
  refused.
-/

namespace ReplicaControl

namespace Scene

variable {s : Settings} {c : Cluster} {ns : String} {changes : List Launch}
  {records : List (WorkloadId × Int)} {sc : Scene}

/-- Attempts on course, each for a workload of its own in one namespace, in a calm world.  Nothing
but their workloads and the record of writes differs from a cluster. -/
structure UnderWay (s : Settings) (c : Cluster) (ns : String) (changes : List Launch)
    (records : List (WorkloadId × Int)) (sc : Scene) : Prop where
  calm : sc.world.IsCalm
  cluster : sc.world.cluster =
    { c with inventory := sc.world.cluster.inventory, history := c.history ++ records }
  launched : (sc.attempts.map fun a => (a.item, a.target)) = changes
  distinct : (sc.attempts.map Attempt.key).Nodup
  home : ∀ a ∈ sc.attempts, a.key.ns = ns
  courses : ∀ a ∈ sc.attempts, a.OnCourse s sc.world
  ways : ∀ a ∈ sc.attempts, a.OnWay s.config.mode (Attempt.recordsOf a.item.id records)
  own : ∀ r ∈ records, ∃ a ∈ sc.attempts, a.item.id = r.1
  others : ∀ id, (∀ a ∈ sc.attempts, a.item.id ≠ id) →
    sc.world.cluster.inventory.get? id = c.inventory.get? id

/-- Attempts under way in a namespace without negative limits.  What its workloads need has grown by
what the attempts added. -/
structure OnCourse (s : Settings) (c : Cluster) (ns : String) (changes : List Launch)
    (records : List (WorkloadId × Int)) (sc : Scene) : Prop
    extends sc.UnderWay s c ns changes records where
  limits : sc.world.cluster.HasLimits ns
  total : ∀ name,
    sc.world.cluster.total ns name = c.total ns name + (sc.attempts.map (·.growth name)).sum

/-- Every change of a batch was made: its attempt returned its target, and what was written are the
counts on the way there, and nothing else. -/
structure Completes (s : Settings) (w : World) (changes : List Launch) (sc : Scene) : Prop where
  scaled : (sc.attempts.map fun a => (a.item, a.target, a.ending?)) =
    changes.map fun l => (l.1, l.2, some (.done (.scaled l.2.replicas)))
  written : ∃ records, sc.world.cluster.history = w.cluster.history ++ records ∧
    (∀ l ∈ changes, Attempt.recordsOf l.1.id records =
      s.config.mode.path l.1.spec l.2.replicas) ∧
    ∀ r ∈ records, ∃ l ∈ changes, l.1.id = r.1

/-- Whatever attempts on course have written so far, no quota refuses the next count. -/
def Roomy (s : Settings) (c : Cluster) (ns : String) (changes : List Launch) : Prop :=
  ∀ {sc : Scene} {records : List (WorkloadId × Int)} {a : Attempt} {n : Int} {k : Nat},
    sc.OnCourse s c ns changes records → a ∈ sc.attempts → a.phase = .writing n k →
    a.verdict sc.world.cluster n = .allowed

theorem isAtRest_of_starting (h : ∀ a ∈ sc.attempts, a.phase = .starting) : sc.isAtRest :=
  List.all_eq_true.2 fun a ha => by simp only [Attempt.isAtRest, h a ha]

/-- Some number of turns is enough for each change. -/
theorem exists_turns (s : Settings) (changes : List Launch) :
    ∃ k, ∀ l ∈ changes, 3 * (s.config.mode.path l.1.spec l.2.replicas).length + 2 ≤ k := by
  refine ⟨(changes.map fun l =>
    3 * (s.config.mode.path l.1.spec l.2.replicas).length + 2).sum, fun l hl => ?_⟩
  exact List.single_le_sum (fun n _ => n.zero_le) _ (List.mem_map_of_mem hl)

/-- Turns of an attempt that does not exist change nothing. -/
theorem run_of_getElem?_none {i : Nat} (h : sc.attempts[i]? = none) (k : Nat) :
    sc.run s ((List.replicate k i).map .attempt) = sc := by
  induction k with
  | zero => rfl
  | succ k ih =>
    have hsame : sc.next s (.attempt i) = sc := by simp [Scene.next, h]
    rw [List.replicate_succ, List.map_cons, run_cons, hsame, ih]

/-- A sum over attempts adds up what belongs to one of them and to the others. -/
theorem sum_eq_add_eraseIdx {as : List Attempt} {i : Nat} {a : Attempt} (h : as[i]? = some a)
    (f : Attempt → Int) : (as.map f).sum = f a + ((as.eraseIdx i).map f).sum := by
  obtain ⟨before, after, hsplit, herase, -⟩ := exists_around h
  rw [herase, hsplit]
  simp only [List.map_append, List.map_cons, List.sum_append, List.sum_cons]
  omega

namespace UnderWay

variable {a b : Attempt} {before after : List Attempt}

theorem key_ne (h : sc.UnderWay s c ns changes records)
    (hsplit : sc.attempts = before ++ a :: after) (hb : b ∈ before ++ after) : b.key ≠ a.key := by
  have hnodup := h.distinct
  rw [hsplit, List.map_append, List.map_cons, List.nodup_middle, List.nodup_cons] at hnodup
  intro hk
  refine hnodup.1 ?_
  rw [← hk, ← List.map_append]
  exact List.mem_map_of_mem hb

/-- One attempt goes on, and the others are left alone. -/
theorem replace (h : sc.UnderWay s c ns changes records)
    (hsplit : sc.attempts = before ++ a :: after) {w : World}
    {records' : List (WorkloadId × Int)} (hitem : b.item = a.item) (htarget : b.target = a.target)
    (hcalm : w.IsCalm) (hb : b.OnCourse s w)
    (hregistry : ∀ key, key ≠ a.key → w.registry.get? key = sc.world.registry.get? key)
    (hinventory : ∀ id, id ≠ a.item.id →
      w.cluster.inventory.get? id = sc.world.cluster.inventory.get? id)
    (hcluster : w.cluster =
      { c with inventory := w.cluster.inventory, history := c.history ++ records' })
    (hway : b.OnWay s.config.mode (Attempt.recordsOf a.item.id records'))
    (hrecords : ∀ id, id ≠ a.item.id →
      Attempt.recordsOf id records' = Attempt.recordsOf id records)
    (hown : ∀ r ∈ records', r ∈ records ∨ r.1 = a.item.id) :
    ({ world := w, attempts := before ++ b :: after } : Scene).UnderWay s c ns changes
      records' := by
  have hkey : b.key = a.key := congrArg Workload.key hitem
  have hmem : ∀ x ∈ before ++ b :: after, x = b ∨ (x ∈ sc.attempts ∧ x.key ≠ a.key) := by
    intro x hx
    simp only [List.mem_append, List.mem_cons] at hx
    rcases hx with hx | rfl | hx
    · exact .inr ⟨by simp [hsplit, hx], h.key_ne hsplit (List.mem_append_left after hx)⟩
    · exact .inl rfl
    · exact .inr ⟨by simp [hsplit, hx], h.key_ne hsplit (List.mem_append_right before hx)⟩
  have hid : ∀ {x : Attempt}, x.key ≠ a.key → x.item.id ≠ a.item.id := fun hne he =>
    hne (congrArg WorkloadId.key he)
  have ha : a ∈ sc.attempts := by rw [hsplit]; simp
  -- every workload that had an attempt has one
  have hkept : ∀ x ∈ sc.attempts, ∃ y ∈ before ++ b :: after, y.item.id = x.item.id := by
    intro x hx
    rw [hsplit] at hx
    simp only [List.mem_append, List.mem_cons] at hx
    rcases hx with hx | rfl | hx
    · exact ⟨x, by simp [hx], rfl⟩
    · exact ⟨b, by simp, by rw [hitem]⟩
    · exact ⟨x, by simp [hx], rfl⟩
  refine ⟨hcalm, hcluster, ?_, ?_, fun x hx => ?_, fun x hx => ?_, fun x hx => ?_,
    fun r hr => ?_, fun id hno => ?_⟩
  · rw [← h.launched, hsplit]
    simp [hitem, htarget]
  · have hnodup := h.distinct
    rw [hsplit] at hnodup
    simpa [hkey] using hnodup
  · rcases hmem x hx with rfl | ⟨hx, -⟩
    · rw [hkey]
      exact h.home a ha
    · exact h.home x hx
  · rcases hmem x hx with rfl | ⟨hx, hne⟩
    · exact hb
    · refine (h.courses x hx).frame (hinventory _ (hid hne)) ?_ (hregistry _ hne)
      show w.cluster.autoReady = sc.world.cluster.autoReady
      rw [hcluster, h.cluster]
  · rcases hmem x hx with rfl | ⟨hx, hne⟩
    · rw [hitem]
      exact hway
    · rw [hrecords _ (hid hne)]
      exact h.ways x hx
  · have howner : ∃ x ∈ sc.attempts, x.item.id = r.1 := by
      rcases hown r hr with hr | hr
      · exact h.own r hr
      · exact ⟨a, ha, hr.symm⟩
    obtain ⟨x, hx, hxr⟩ := howner
    obtain ⟨y, hy, hyx⟩ := hkept x hx
    exact ⟨y, hy, hyx.trans hxr⟩
  · have hno' : ∀ x ∈ sc.attempts, x.item.id ≠ id := by
      intro x hx hxid
      obtain ⟨y, hy, hyx⟩ := hkept x hx
      exact hno y hy (hyx.trans hxid)
    exact (hinventory id (hno' a ha).symm).trans (h.others id hno')

/-- **A turn of an attempt keeps all attempts under way.** -/
theorem next (h : sc.UnderWay s c ns changes records) (i : Nat) :
    ∃ records', (sc.next s (.attempt i)).UnderWay s c ns changes records' := by
  rcases sc.next_attempt_cases s i with ⟨a, ha, -, hn⟩ | hn
  · have hmem := List.mem_of_getElem? ha
    have hcourse := h.courses a hmem
    have hstep := hcourse.step_course h.calm
    have hitem := a.step_item s sc.world
    have htarget := a.step_target s sc.world
    have hregistry : ∀ key, key ≠ a.key →
        (a.step s sc.world).2.registry.get? key = sc.world.registry.get? key := fun _ =>
      a.step_get?_of_ne s sc.world
    obtain ⟨before, after, hsplit, -, hset⟩ := exists_around ha
    rw [hn, hset]
    generalize a.step s sc.world = r at hstep hitem htarget hregistry ⊢
    rcases hstep.cluster with ⟨hcurrent, hcluster⟩ | ⟨n, k, hp, -, hcurrent, hcluster⟩
    · refine ⟨records, h.replace hsplit hitem htarget (hstep.isCalm h.calm) (hstep.onCourse hcourse)
        hregistry (fun id _ => by rw [hcluster]) (hcluster ▸ h.cluster) ?_ (fun _ _ => rfl)
        fun r hr => .inl hr⟩
      have hway := h.ways a hmem
      exact ⟨by rw [hcurrent, hitem, htarget]; exact hway.path,
        by rw [hcurrent, hitem]; exact hway.count⟩
    · have hid := hcourse.id_eq
      refine ⟨records ++ [(a.item.id, n)], h.replace hsplit hitem htarget (hstep.isCalm h.calm)
        (hstep.onCourse hcourse) hregistry (fun id hne => ?_) ?_ ?_ (fun id hne => ?_)
        fun r hr => ?_⟩
      · rw [hcluster, Cluster.get?_update, if_neg (hid ▸ hne)]
      · rw [hcluster, Cluster.update, h.cluster, hid, List.append_assoc]
      · have hway := (h.ways a hmem).wrote (hcourse.of_writing hp) hitem htarget
          (by rw [hcurrent]; rfl)
        simpa [Attempt.recordsOf] using hway
      · simp [Attempt.recordsOf, Ne.symm hne]
      · exact (List.mem_append.1 hr).imp id fun hr => by rw [List.mem_singleton.1 hr]
  · rw [hn]
    exact ⟨records, h⟩

theorem run (h : sc.UnderWay s c ns changes records) (turns : List Nat) :
    ∃ records', (sc.run s (turns.map .attempt)).UnderWay s c ns changes records' := by
  induction turns generalizing sc records with
  | nil => exact ⟨records, h⟩
  | cons i turns ih =>
    obtain ⟨records', h'⟩ := h.next i
    exact ih h'

theorem caps_iff (h : sc.UnderWay s c ns changes records) {name : String} {most : Quantity} :
    sc.world.cluster.Caps ns name most ↔ c.Caps ns name most := by
  rw [h.cluster]
  exact Iff.rfl

theorem mem_changes (h : sc.UnderWay s c ns changes records) (ha : a ∈ sc.attempts) :
    (a.item, a.target) ∈ changes :=
  h.launched ▸ List.mem_map_of_mem ha

theorem getElem?_changes (h : sc.UnderWay s c ns changes records) {i : Nat}
    (ha : sc.attempts[i]? = some a) : changes[i]? = some (a.item, a.target) := by
  rw [← h.launched, List.getElem?_map, ha]
  rfl

theorem length_attempts (h : sc.UnderWay s c ns changes records) :
    sc.attempts.length = changes.length := by
  rw [← h.launched, List.length_map]

/-- A count that the verdict allows passes the check of the attempt. -/
theorem admission_of_verdict (h : sc.UnderWay s c ns changes records) (ha : a ∈ sc.attempts)
    {n : Int} {live : Workload} (hget : sc.world.cluster.inventory.get? a.item.id = some live)
    (hv : a.verdict sc.world.cluster n = .allowed) :
    (sc.world.admission ns (Quota.itemNeed live n)).1 = .ok .allowed := by
  have hcourse := h.courses a ha
  obtain rfl : a.current = live := Option.some.inj (hcourse.stored.symm.trans hget)
  rw [Attempt.verdict, hcourse.key_eq, h.home a ha] at hv
  rw [h.calm.admission, hv]

theorem sum_others (h : sc.UnderWay s c ns changes records) {i : Nat}
    (ha : sc.attempts[i]? = some a) (f : Launch → Int) :
    ((sc.attempts.eraseIdx i).map fun b => f (b.item, b.target)).sum =
      (changes.map f).sum - f (a.item, a.target) := by
  have hsum := sum_eq_add_eraseIdx ha fun b => f (b.item, b.target)
  rw [← h.launched, List.map_map]
  exact eq_sub_of_add_eq' hsum.symm

theorem step_course {i : Nat} (h : sc.UnderWay s c ns changes records)
    (ha : sc.attempts[i]? = some a) : Attempt.CourseStep s a sc.world (a.step s sc.world) :=
  (h.courses a (List.mem_of_getElem? ha)).step_course h.calm

/-- **An attempt that gets enough turns ends**, and leaves the other attempts as they are. -/
theorem finish {i : Nat} (h : sc.UnderWay s c ns changes records)
    (ha : sc.attempts[i]? = some a) (hfree : sc.isFreeFor i) {k : Nat}
    (hk : a.turnsLeft s.config.mode ≤ k) :
    ∃ b, (sc.run s ((List.replicate k i).map .attempt)).attempts = sc.attempts.set i b ∧
      b.ending?.isSome = true := by
  induction k generalizing sc a records with
  | zero =>
    have hended : a.ending?.isSome = true := by
      rw [← Option.ne_none_iff_isSome]
      intro hn
      have := (h.step_course ha).turnsLeft_lt (h.courses a (List.mem_of_getElem? ha)) hn
      omega
    obtain ⟨before, after, hsplit, -, hset⟩ := exists_around ha
    exact ⟨a, by rw [hset]; exact hsplit, hended⟩
  | succ k ih =>
    have hcourse := h.courses a (List.mem_of_getElem? ha)
    have hstep := h.step_course ha
    obtain ⟨hself, hfree', -⟩ := next_attempt_self (s := s) ha hfree
    obtain ⟨records', h'⟩ := h.next i
    have hk' : (a.step s sc.world).1.turnsLeft s.config.mode ≤ k := by
      cases hn : a.ending? with
      | none =>
        have := hstep.turnsLeft_lt hcourse hn
        omega
      | some e =>
        have hsame : (a.step s sc.world).1 = a := by
          simp only [Attempt.step, Attempt.ending?_eq_some_iff.1 hn]
        rw [hsame, Attempt.turnsLeft_of_ended (by rw [hn]; rfl)]
        exact Nat.zero_le k
    obtain ⟨b, hb, hended⟩ := ih h' hself hfree' hk'
    refine ⟨b, ?_, hended⟩
    rw [List.replicate_succ, List.map_cons, run_cons, hb, next_attempt ha hfree]
    exact List.set_set ..

/-- A scene at rest is at rest again after an attempt got enough turns, and that one has ended. -/
theorem finishOne (h : sc.UnderWay s c ns changes records) (hrest : sc.isAtRest) (i : Nat) {k : Nat}
    (hk : ∀ l ∈ changes, 3 * (s.config.mode.path l.1.spec l.2.replicas).length + 2 ≤ k) :
    let sc' := sc.run s ((List.replicate k i).map .attempt)
    sc'.isAtRest ∧ (∀ b, sc'.attempts[i]? = some b → b.ending?.isSome = true) ∧
      ∀ j, j ≠ i → sc'.attempts[j]? = sc.attempts[j]? := by
  cases ha : sc.attempts[i]? with
  | none =>
    rw [run_of_getElem?_none ha]
    refine ⟨hrest, fun b hb => ?_, fun _ _ => rfl⟩
    rw [ha] at hb
    cases hb
  | some a =>
    have hmem := List.mem_of_getElem? ha
    have hle := (h.ways a hmem).turnsLeft_le.trans
      (hk (a.item, a.target) (h.mem_changes hmem))
    obtain ⟨b, hb, hended⟩ := h.finish ha (isFreeFor_of_isAtRest hrest i) hle
    refine ⟨?_, fun x hx => ?_, fun j hj => ?_⟩
    · unfold Scene.isAtRest
      rw [hb, List.all_eq_true]
      intro x hx
      rcases List.mem_or_eq_of_mem_set hx with hx | rfl
      · exact List.all_eq_true.1 hrest x hx
      · obtain ⟨e, he⟩ := Option.isSome_iff_exists.1 hended
        simp only [Attempt.isAtRest, Attempt.ending?_eq_some_iff.1 he]
    · rw [hb, List.getElem?_set_self (List.getElem?_eq_some_iff.1 ha).1] at hx
      cases hx
      exact hended
    · rw [hb, List.getElem?_set_ne (Ne.symm hj)]

/-- **Attempts that get enough turns one after the other, in any order, all end**, and the others
are left as they are. -/
theorem finishAll (h : sc.UnderWay s c ns changes records) (hrest : sc.isAtRest) (order : List Nat)
    {k : Nat}
    (hk : ∀ l ∈ changes, 3 * (s.config.mode.path l.1.spec l.2.replicas).length + 2 ≤ k) :
    let sc' := sc.run s ((order.flatMap fun i => List.replicate k i).map .attempt)
    sc'.isAtRest ∧ (∀ i ∈ order, ∀ b, sc'.attempts[i]? = some b → b.ending?.isSome = true) ∧
      ∀ i, i ∉ order → sc'.attempts[i]? = sc.attempts[i]? := by
  induction order generalizing sc records with
  | nil => exact ⟨hrest, (fun _ hi => nomatch hi), fun _ _ => rfl⟩
  | cons i rest ih =>
    obtain ⟨records', h'⟩ := h.run (List.replicate k i)
    obtain ⟨hrest', hended, hothers⟩ := h.finishOne hrest i hk
    obtain ⟨hfinal, hall, hkept⟩ := ih h' hrest'
    rw [List.flatMap_cons, List.map_append, run_append]
    refine ⟨hfinal, fun j hj b hb => ?_, fun j hj => ?_⟩
    · by_cases hjr : j ∈ rest
      · exact hall j hjr b hb
      · obtain rfl := (List.mem_cons.1 hj).resolve_right hjr
        rw [hkept j hjr] at hb
        exact hended b hb
    · simp only [List.mem_cons, not_or] at hj
      rw [hkept j hj.2, hothers j hj.1]

/-- An attempt that has ended, and not with a refusal, has written its whole path. -/
theorem scaled_of_ended (h : sc.UnderWay s c ns changes records) (ha : a ∈ sc.attempts)
    (hended : a.ending?.isSome = true) (hn : a.ending? ≠ some (.done .quotaDenied)) :
    a.ending? = some (.done (.scaled a.target.replicas)) ∧
      a.current.spec = a.target.replicas ∧
      Attempt.recordsOf a.item.id records =
        s.config.mode.path a.item.spec a.target.replicas := by
  obtain ⟨e, he⟩ := Option.isSome_iff_exists.1 hended
  rcases (h.courses a ha).of_ended (Attempt.ending?_eq_some_iff.1 he) with ⟨rfl, hspec⟩ | ⟨rfl, -⟩
  · refine ⟨he, hspec, ?_⟩
    have hpath := (h.ways a ha).path
    rwa [hspec, Mode.path_self, List.append_nil] at hpath
  · exact absurd he hn

/-- **Attempts on course that have all ended, none with a refusal, have made their changes.** -/
theorem completes {w : World} (h : sc.UnderWay s w.cluster ns changes records)
    (hended : ∀ a ∈ sc.attempts, a.ending?.isSome = true)
    (hn : ∀ a ∈ sc.attempts, a.ending? ≠ some (.done .quotaDenied)) :
    sc.Completes s w changes := by
  have hall := fun a ha => h.scaled_of_ended ha (hended a ha) (hn a ha)
  refine ⟨?_, records, by rw [h.cluster], fun l hl => ?_, fun r hr => ?_⟩
  · rw [← h.launched, List.map_map]
    refine List.map_congr_left fun a ha => ?_
    rw [(hall a ha).1]
    rfl
  · rw [← h.launched] at hl
    obtain ⟨a, ha, rfl⟩ := List.mem_map.1 hl
    exact (hall a ha).2.2
  · obtain ⟨a, ha, hid⟩ := h.own r hr
    exact ⟨(a.item, a.target), h.mem_changes ha, hid⟩

/-- Attempts that get enough turns one after the other, each of them, have all ended. -/
theorem ended_of_perm (h : sc.UnderWay s c ns changes records) (hrest : sc.isAtRest)
    {order : List Nat} (horder : order.Perm (List.range changes.length)) {k : Nat}
    (hk : ∀ l ∈ changes, 3 * (s.config.mode.path l.1.spec l.2.replicas).length + 2 ≤ k) :
    ∀ a ∈ (sc.run s ((order.flatMap fun i => List.replicate k i).map .attempt)).attempts,
      a.ending?.isSome = true := by
  intro a ha
  obtain ⟨records', h'⟩ := h.run (order.flatMap fun i => List.replicate k i)
  obtain ⟨i, hi⟩ := List.getElem?_of_mem ha
  have hlt := (List.getElem?_eq_some_iff.1 hi).1
  rw [h'.length_attempts] at hlt
  exact (h.finishAll hrest order hk).2.1 i (horder.mem_iff.2 (List.mem_range.2 hlt)) a hi

/-- **An attempt that has ended returned its target, or was refused.** -/
theorem ending_cases (h : sc.UnderWay s c ns changes records) (ha : a ∈ sc.attempts) :
    a.ending? = none ∨ a.ending? = some (.done (.scaled a.target.replicas)) ∨
      a.ending? = some (.done .quotaDenied) := by
  cases he : a.ending? with
  | none => exact .inl rfl
  | some e =>
    rcases (h.courses a ha).of_ended (Attempt.ending?_eq_some_iff.1 he) with ⟨rfl, -⟩ | ⟨rfl, -⟩
    · exact .inr (.inl rfl)
    · exact .inr (.inr rfl)

/-- What the steps of attempts on course preserve holds of all attempts after a turn. -/
theorem forall_next {P : Attempt → Prop} (h : sc.UnderWay s c ns changes records) (i : Nat)
    (hP : ∀ a ∈ sc.attempts, ∀ r, Attempt.CourseStep s a sc.world r → P a → P r.1)
    (hstart : ∀ a ∈ sc.attempts, P a) : ∀ b ∈ (sc.next s (.attempt i)).attempts, P b := by
  intro b hb
  rcases sc.next_attempt_cases s i with ⟨a, ha, -, hn⟩ | hn
  · have hmem := List.mem_of_getElem? ha
    rw [hn] at hb
    rcases List.mem_or_eq_of_mem_set hb with hb | rfl
    · exact hstart b hb
    · exact hP a hmem _ (h.step_course ha) (hstart a hmem)
  · rw [hn] at hb
    exact hstart b hb

end UnderWay

namespace OnCourse

variable {a b : Attempt}

/-- What the workloads of the namespace need changes by what the attempt that has its turn adds. -/
theorem demand_step (h : sc.OnCourse s c ns changes records) (ha : a ∈ sc.attempts)
    {r : Attempt × World} (hstep : Attempt.CourseStep s a sc.world r) (hitem : r.1.item = a.item) :
    r.2.cluster.HasLimits ns ∧ ∀ name,
      r.2.cluster.total ns name = sc.world.cluster.total ns name - a.growth name +
        r.1.growth name := by
  have hcourse := h.courses a ha
  rcases hstep.cluster with ⟨hcurrent, hcluster⟩ | ⟨n, k, -, -, hcurrent, hcluster⟩
  · refine ⟨hcluster ▸ h.limits, fun name => ?_⟩
    rw [hcluster, Attempt.growth, Attempt.growth, hcurrent, hitem]
    omega
  · have hstored : sc.world.cluster.inventory.get? a.current.id = some a.current := by
      rw [hcourse.id_eq]
      exact hcourse.stored
    obtain rfl : a.current.key.ns = ns := by
      rw [hcourse.key_eq]
      exact h.home a ha
    refine ⟨hcluster ▸ h.limits.update hstored n, fun name => ?_⟩
    rw [hcluster, Cluster.total_update hstored, hcourse.load_eq, hcourse.load_eq,
      Attempt.growth, Attempt.growth, hcurrent, hitem]
    show _ = _ - _ + (a.item.load n name - _)
    omega

/-- **A turn of an attempt keeps all attempts on course.** -/
theorem next (h : sc.OnCourse s c ns changes records) (i : Nat) :
    ∃ records', (sc.next s (.attempt i)).OnCourse s c ns changes records' := by
  rcases sc.next_attempt_cases s i with ⟨a, ha, -, hn⟩ | hn
  · obtain ⟨records', h'⟩ := h.toUnderWay.next i
    obtain ⟨hlimits, htotal⟩ := h.demand_step (List.mem_of_getElem? ha) (h.step_course ha)
      (a.step_item s sc.world)
    obtain ⟨before, after, hsplit, -, hset⟩ := exists_around ha
    rw [hn, hset] at h' ⊢
    refine ⟨records', h', hlimits, fun name => ?_⟩
    have hold := h.total name
    rw [hsplit] at hold
    simp only [List.map_append, List.map_cons, List.sum_append, List.sum_cons] at hold ⊢
    rw [htotal, hold]
    omega
  · rw [hn]
    exact ⟨records, h⟩

theorem run (h : sc.OnCourse s c ns changes records) (turns : List Nat) :
    ∃ records', (sc.run s (turns.map .attempt)).OnCourse s c ns changes records' := by
  induction turns generalizing sc records with
  | nil => exact ⟨records, h⟩
  | cons i turns ih =>
    obtain ⟨records', h'⟩ := h.next i
    exact ih h'

/-- A count that is about to be written is allowed if its change is exempt, or else if and only if
the whole need of that count, on top of what all workloads need now, fits into every limit. -/
theorem verdict_iff (h : sc.OnCourse s c ns changes records) (ha : a ∈ sc.attempts) {n : Int}
    {k : Nat} (hp : a.phase = .writing n k) :
    a.verdict sc.world.cluster n = .allowed ↔
      a.item.isExempt a.target.replicas = true ∨ ∀ name most, c.Caps ns name most →
        min (sc.world.cluster.total ns name) Cluster.largest + a.item.load n name ≤
          most.millis := by
  have hcourse := h.courses a ha
  have hns : a.current.key.ns = ns := by
    rw [hcourse.key_eq]
    exact h.home a ha
  have hlimits : a.current.HasLimits :=
    h.limits _ (hns ▸ Cluster.mem_workloadsOf (hcourse.id_eq ▸ hcourse.stored))
  rw [Attempt.verdict, hns, Cluster.verdict_allowed_iff h.limits hlimits,
    (h.ways a ha).isExempt_eq (hcourse.of_writing hp) hcourse.allowsAutoscaling_eq]
  simp only [h.caps_iff, hcourse.load_eq]

theorem total_eq (h : sc.OnCourse s c ns changes records) {i : Nat} (ha : sc.attempts[i]? = some a)
    (name : String) :
    sc.world.cluster.total ns name =
      c.total ns name + ((sc.attempts.eraseIdx i).map (·.growth name)).sum + a.growth name := by
  rw [h.total name, sum_eq_add_eraseIdx ha]
  omega

/-- What all workloads need grows by at most what the other changes may add. -/
theorem total_le (h : sc.OnCourse s c ns changes records) {i : Nat} (ha : sc.attempts[i]? = some a)
    (name : String) (f : Launch → Int)
    (hf : ∀ b ∈ sc.attempts, b.growth name ≤ f (b.item, b.target)) :
    sc.world.cluster.total ns name ≤
      c.total ns name + ((changes.map f).sum - f (a.item, a.target)) + a.growth name := by
  have hothers := List.sum_le_sum fun b (hb : b ∈ sc.attempts.eraseIdx i) =>
    hf b (List.mem_of_mem_eraseIdx hb)
  rw [h.sum_others ha] at hothers
  rw [h.total_eq ha]
  omega

/-- What every count that an attempt may write preserves, it preserves as long as only that attempt
has turns. -/
theorem alone {P : Int → Prop} {others : List Attempt} {i : Nat}
    (hP : ∀ {sc : Scene} {records : List (WorkloadId × Int)} {a : Attempt} {n : Int} {k : Nat},
      sc.OnCourse s c ns changes records → sc.attempts[i]? = some a →
      sc.attempts.eraseIdx i = others → a.phase = .writing n k →
      a.verdict sc.world.cluster n = .allowed → P a.current.spec → P n)
    (h : sc.OnCourse s c ns changes records) (hothers : sc.attempts.eraseIdx i = others)
    (hstart : ∀ a, sc.attempts[i]? = some a → P a.current.spec) (k : Nat) :
    ∀ a, (sc.run s ((List.replicate k i).map .attempt)).attempts[i]? = some a →
      P a.current.spec := by
  induction k generalizing sc records with
  | zero => exact hstart
  | succ k ih =>
    obtain ⟨records', h'⟩ := h.next i
    rw [List.replicate_succ, List.map_cons, run_cons]
    rcases sc.next_attempt_cases s i with ⟨a, ha, hfree, hn⟩ | hn
    · refine ih h' ?_ fun b hb => ?_
      · rw [hn]
        exact (List.eraseIdx_set_eq ..).trans hothers
      · obtain ⟨hself, -, -⟩ := next_attempt_self (s := s) ha hfree
        obtain rfl := Option.some.inj (hself.symm.trans hb)
        rcases (h.step_course ha).cluster with ⟨hcurrent, -⟩ | ⟨n, k, hp, hv, hcurrent, -⟩
        · rw [hcurrent]
          exact hstart a ha
        · rw [hcurrent]
          exact hP h ha hothers hp hv (hstart a ha)
    · rw [hn] at h' ⊢
      exact ih h' hothers hstart

/-- Where no count is refused, no attempt ends with a refusal. -/
theorem not_denied (h : sc.OnCourse s c ns changes records) (hroom : Roomy s c ns changes)
    (hstart : ∀ a ∈ sc.attempts, a.ending? ≠ some (.done .quotaDenied)) (turns : List Nat) :
    ∀ a ∈ (sc.run s (turns.map .attempt)).attempts, a.ending? ≠ some (.done .quotaDenied) := by
  induction turns generalizing sc records with
  | nil => exact hstart
  | cons i turns ih =>
    obtain ⟨records', h'⟩ := h.next i
    refine ih h' (h.toUnderWay.forall_next i (fun a ha r hstep => ?_) hstart)
    exact hstep.not_denied fun hp => hroom h ha hp

end OnCourse

end Scene

end ReplicaControl
