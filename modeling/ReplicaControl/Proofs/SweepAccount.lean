import Mathlib.Data.Nat.Find
import ReplicaControl.Proofs.SweepCourse

/-!
# Sweeps of scenes

A sweep begins while every attempt leaves the turn to others.  Then its retries take turns with
everybody else, and it reports when all of them are over.

* `Scene.sweeping` — the scene some turns after a sweep began; `Scene.retries`, `Scene.report` — the
  attempts that it launched, and what it reports about them.
* `Scene.course` — the course of the sweep, in whatever order the turns come.
* `ends_of_fair` — in fair turns that do not disturb it a sweep ends and accounts for every failed
  entry.
* `Scene.parked`, `Scene.alternately` — a scene with failed entries, and fair turns.
-/

namespace ReplicaControl

namespace Scene

/-! ## Sweeps -/

variable {s : Settings} {sc : Scene}

/-- The scene some turns after a sweep began. -/
def sweeping (s : Settings) (sc : Scene) (turns : Nat → Move) (n : Nat) : Scene :=
  (sc.next s (.trigger .sweep)).after s turns n

theorem sweeping_succ (s : Settings) (sc : Scene) (turns : Nat → Move) (n : Nat) :
    sc.sweeping s turns (n + 1) = (sc.sweeping s turns n).next s (turns n) := rfl

/-- The attempts that a sweep launches. -/
def launches (s : Settings) (sc : Scene) : List Launch := (Sweep.survey s sc.world).1.2

/-- An attempt is one of those that a sweep launches. -/
def IsRetry (s : Settings) (sc : Scene) (i : Nat) : Prop :=
  sc.attempts.length ≤ i ∧ i < sc.attempts.length + (sc.launches s).length

instance (i : Nat) : Decidable (sc.IsRetry s i) := inferInstanceAs (Decidable (_ ∧ _))

/-- The attempts that a sweep launched, as they stand in a later scene. -/
def retries (s : Settings) (sc now : Scene) : List Attempt :=
  (now.attempts.drop sc.attempts.length).take (sc.launches s).length

/-- What a sweep reports about the attempts that it launched, as they stand in a later scene. -/
def report (s : Settings) (sc now : Scene) : Sweep.Report :=
  ((sc.retries s now).map Attempt.ending?).foldl .record (Sweep.survey s sc.world).1.1

/-- The place among the retries of the one that has this turn. -/
def retryOf (s : Settings) (sc now : Scene) : Move → Option Nat
  | .attempt i =>
    if sc.IsRetry s i ∧ now.isFreeFor i then some (i - sc.attempts.length) else none
  | _ => none

theorem retryOf_eq_some {now : Scene} {m : Move} {j : Nat} :
    sc.retryOf s now m = some j ↔
      j < (sc.launches s).length ∧ m = .attempt (sc.attempts.length + j) ∧
        now.isFreeFor (sc.attempts.length + j) := by
  cases m with
  | trigger t => simp [retryOf]
  | others w => simp [retryOf]
  | attempt i =>
    rw [retryOf, Move.attempt.injEq]
    constructor
    · intro h
      split at h
      · rename_i hi
        obtain ⟨k, rfl⟩ := Nat.exists_eq_add_of_le hi.1.1
        rw [Nat.add_sub_cancel_left] at h
        obtain rfl := Option.some.inj h
        exact ⟨Nat.lt_of_add_lt_add_left hi.1.2, rfl, hi.2⟩
      · cases h
    · rintro ⟨hj, rfl, hfree⟩
      rw [if_pos ⟨⟨Nat.le_add_right _ _, Nat.add_lt_add_left hj _⟩, hfree⟩,
        Nat.add_sub_cancel_left]

theorem getElem?_retries {j : Nat} (hj : j < (sc.launches s).length) (now : Scene) :
    (sc.retries s now)[j]? = now.attempts[sc.attempts.length + j]? := by
  rw [retries, List.getElem?_take_of_lt hj, List.getElem?_drop]

theorem retries_set {now : Scene} {i : Nat} {a : Attempt} (w : World) :
    sc.retries s { world := w, attempts := now.attempts.set (sc.attempts.length + i) a } =
      (sc.retries s now).set i a := by
  rw [retries, List.drop_set, if_neg (Nat.not_lt_of_le (Nat.le_add_right _ _)),
    Nat.add_sub_cancel_left, List.take_set]
  rfl

/-- No attempt is taken away. -/
theorem length_attempts_next (s : Settings) (now : Scene) (m : Move) :
    now.attempts.length ≤ (now.next s m).attempts.length := by
  refine Nat.le_of_not_lt fun hlt => ?_
  have hi := List.getElem?_eq_getElem hlt
  rcases getElem?_next (s := s) hi m with h | ⟨-, -, h⟩
  all_goals exact absurd (List.getElem?_eq_some_iff.1 h).1 (Nat.lt_irrefl _)

section

variable (hrest : sc.isAtRest) (turns : Nat → Move)
include hrest

/-- Right after a sweep began. -/
theorem sweeping_zero :
    (sc.sweeping s turns 0).world = (Sweep.survey s sc.world).2 ∧
      (sc.sweeping s turns 0).attempts =
        sc.attempts ++ (sc.launches s).map fun l => .launch l.1 l.2 := by
  have h := next_trigger (s := s) hrest .sweep
  exact ⟨congrArg Scene.world h, congrArg Scene.attempts h⟩

theorem length_sweeping (n : Nat) :
    sc.attempts.length + (sc.launches s).length ≤ (sc.sweeping s turns n).attempts.length := by
  induction n with
  | zero => rw [(sweeping_zero hrest turns).2, List.length_append, List.length_map]
  | succ n ih => exact Nat.le_trans ih (length_attempts_next s _ _)

/-- The turns of others leave the retries as they are. -/
theorem retries_next_of_others {n : Nat}
    (h : sc.retryOf s (sc.sweeping s turns n) (turns n) = none) :
    sc.retries s (sc.sweeping s turns (n + 1)) = sc.retries s (sc.sweeping s turns n) := by
  refine List.ext_getElem? fun j => ?_
  by_cases hj : j < (sc.launches s).length
  · have hlt : sc.attempts.length + j < (sc.sweeping s turns n).attempts.length :=
      Nat.lt_of_lt_of_le (Nat.add_lt_add_left hj _) (length_sweeping hrest turns n)
    have ha := List.getElem?_eq_getElem hlt
    rw [getElem?_retries hj, getElem?_retries hj, ha]
    rcases getElem?_next (s := s) ha (turns n) with hstay | ⟨hm, hfree, -⟩
    · exact hstay
    · rw [retryOf_eq_some.2 ⟨hj, hm, hfree⟩] at h
      cases h
  · have hnone : ∀ now, (sc.retries s now)[j]? = none := fun now =>
      List.getElem?_eq_none (Nat.le_trans (List.length_take_le _ _) (Nat.le_of_not_lt hj))
    rw [hnone, hnone]

end

/-- The course of a sweep that begins in a scene. -/
def course (s : Settings) {sc : Scene} (hrest : sc.isAtRest) (turns : Nat → Move) :
    Sweep.Course s sc.world where
  world n := (sc.sweeping s turns n).world
  retries n := sc.retries s (sc.sweeping s turns n)
  turn n := sc.retryOf s (sc.sweeping s turns n) (turns n)
  world_zero := (sweeping_zero hrest turns).1
  retries_zero := by
    rw [retries, (sweeping_zero hrest turns).2, List.drop_left, List.take_of_length_le]
    · rfl
    · rw [List.length_map]
  step := by
    intro n j hturn
    obtain ⟨hj, hm, hfree⟩ := retryOf_eq_some.1 hturn
    have hlt : sc.attempts.length + j < (sc.sweeping s turns n).attempts.length :=
      Nat.lt_of_lt_of_le (Nat.add_lt_add_left hj _) (length_sweeping hrest turns n)
    have ha := List.getElem?_eq_getElem hlt
    refine ⟨_, (getElem?_retries hj _).trans ha, ?_, ?_⟩
    · rw [sweeping_succ, hm, next_attempt ha hfree]
    · rw [sweeping_succ, hm, next_attempt ha hfree, retries_set]
  others := fun n => retries_next_of_others hrest turns

/-! ## The account -/

section

variable (hrest : sc.isAtRest) (turns : Nat → Move)

/-- **A sweep of a scene accounts for every failed entry.**  For all faults, changes by others and
reactions to writes, in every order of turns in which time goes on and the retries get theirs: if
nobody else touches the keys of the entries that are failed and have no running attempt, and no
retry breaks off, the sweep ends.  Its report adds up, every entry has one fate and one verdict and
is left as it says, and the other entries are left alone by the sweep. -/
theorem ends_of_fair (hfiled : sc.world.registry.Filed) (hfair : (course s hrest turns).Fair)
    (hcalm : ∀ n, ¬ (course s hrest turns).IsSwept n →
      ∀ e ∈ sc.world.registry.failures, e.scaling = false →
        (course s hrest turns).Undisturbed n e.key)
    (hsound : ∀ n, ∀ a ∈ (course s hrest turns).retries n, a.phase ≠ .aborted) :
    ∃ n, (∀ m < n, ¬ (course s hrest turns).IsSwept m) ∧
      (course s hrest turns).Ends n (sc.report s (sc.sweeping s turns n)) := by
  classical
  have hex : ∃ n, (course s hrest turns).IsSwept n := by
    by_contra hnone
    exact hnone ((course s hrest turns).exists_swept hfiled hfair fun n =>
      hcalm n fun h => hnone ⟨n, h⟩)
  have hfirst : ∀ m < Nat.find hex, ¬ (course s hrest turns).IsSwept m := fun m hm =>
    Nat.find_min hex hm
  exact ⟨Nat.find hex, hfirst, (course s hrest turns).ends hfiled
    (fun m hm => hcalm m (hfirst m hm)) (Nat.find_spec hex) (hsound _)⟩

end

/-! ## Fair turns -/

/-- Without reactions to writes the turn of a retry disturbs nobody, whether it may take it or
not. -/
theorem undisturbed_of_no_rules (hrest : sc.isAtRest) {turns : Nat → Move} {n i : Nat}
    (hi : sc.IsRetry s i) (hm : turns n = .attempt i)
    (hw : (sc.sweeping s turns n).world.rules = []) (key : Key) :
    (course s hrest turns).Undisturbed n key := by
  by_cases hfree : (sc.sweeping s turns n).isFreeFor i
  · refine Sweep.Course.undisturbed_of_turn (j := i - sc.attempts.length) ?_ hw key
    show sc.retryOf s _ (turns n) = _
    rw [hm, retryOf, if_pos ⟨hi, hfree⟩]
  · have hturn : (course s hrest turns).turn n = none := by
      show sc.retryOf s _ (turns n) = _
      rw [hm, retryOf, if_neg fun h => hfree h.2]
    have hsame : sc.sweeping s turns (n + 1) = sc.sweeping s turns n := by
      rw [sweeping_succ, hm, next]
      split
      · rw [if_neg hfree]
      · rfl
    rw [Sweep.Course.Undisturbed, Sweep.Course.quietly_of_others hturn]
    show (sc.sweeping s turns n).world.Spares (sc.sweeping s turns (n + 1)).world key
    rw [hsame]
    exact .refl _ key

/-- A failed entry whose workload can be scaled, and one whose workload is gone. -/
def parked : Scene where
  world :=
    { World.holding [.sample ⟨.deployment, "shop", "api"⟩ "1"] with
      registry := (Registry.upsert ∅ (.sample ⟨.deployment, "shop", "api"⟩ "1") true "" 1).upsert
        (.sample ⟨.deployment, "shop", "gone"⟩ "1") true "" 1 }
  attempts := []

theorem parked_filed : parked.world.registry.Filed :=
  (Registry.filed_empty.upsert _ _ _ _).upsert _ _ _ _

theorem parked_isAtRest : parked.isAtRest := rfl

/-- The first attempt has some turns, and then takes turns with the clock. -/
def alternately (n : Nat) : Move :=
  if n < 4 ∨ n % 2 = 0 then .attempt 0 else .others { parked.world with now := n }

theorem alternately_cases (n : Nat) :
    alternately n = .attempt 0 ∨
      4 ≤ n ∧ alternately n = .others { parked.world with now := n } := by
  unfold alternately
  split
  · exact .inl rfl
  · rename_i h
    exact .inr ⟨Nat.le_of_not_lt fun hn => h (.inl hn), rfl⟩

theorem parked_sweeping (n : Nat) :
    (∃ a, (parked.sweeping (.standard .rapid) alternately n).attempts = [a]) ∧
      (parked.sweeping (.standard .rapid) alternately n).world.rules = [] := by
  induction n with
  | zero => exact ⟨⟨_, rfl⟩, rfl⟩
  | succ n ih =>
    obtain ⟨⟨a, ha⟩, hrules⟩ := ih
    rw [sweeping_succ]
    rcases alternately_cases n with hm | ⟨-, hm⟩
    · rw [hm]
      rcases next_attempt_cases (.standard .rapid) (parked.sweeping _ alternately n) 0 with
        ⟨b, -, -, hn⟩ | hn
      · rw [hn, ha]
        exact ⟨⟨_, rfl⟩, (b.step_rules _ _).trans hrules⟩
      · rw [hn]
        exact ⟨⟨a, ha⟩, hrules⟩
    · rw [hm]
      simp only [next]
      split
      · exact ⟨⟨a, ha⟩, rfl⟩
      · exact ⟨⟨a, ha⟩, hrules⟩

/-- After four turns the retry is over for good. -/
theorem parked_over {n : Nat} (h : 4 ≤ n) :
    ∃ a e, (parked.sweeping (.standard .rapid) alternately n).attempts = [a] ∧
      a.phase = .ended e := by
  have hfour : ((parked.sweeping (.standard .rapid) alternately 4).attempts[0]?).map
      Attempt.phase = some (.ended (.done (.scaled 1))) := by decide +kernel
  obtain ⟨a, ha, hphase⟩ := Option.map_eq_some_iff.1 hfour
  obtain ⟨b, hb⟩ := (parked_sweeping n).1
  have hsame : (parked.sweeping (.standard .rapid) alternately n).attempts[0]? = some a :=
    getElem?_of_isOver (by rw [Attempt.isOver, hphase]) h ha
  rw [hb] at hsame
  exact ⟨b, _, hb, Option.some.inj hsame ▸ hphase⟩

theorem mem_parked_retries {n : Nat} {a : Attempt}
    (ha : a ∈ (course (.standard .rapid) parked_isAtRest alternately).retries n) :
    a ∈ (parked.sweeping (.standard .rapid) alternately n).attempts :=
  List.mem_of_mem_drop (List.mem_of_mem_take ha)

/-- After four turns all retries have an ending. -/
theorem parked_ended {n : Nat} (h : 4 ≤ n) {a : Attempt}
    (ha : a ∈ (course (.standard .rapid) parked_isAtRest alternately).retries n) :
    ∃ e, a.phase = .ended e := by
  obtain ⟨b, e, hb, hphase⟩ := parked_over h
  have hmem := mem_parked_retries ha
  rw [hb, List.mem_singleton] at hmem
  exact ⟨e, hmem ▸ hphase⟩

/-- Time goes on, and the retry needs four turns. -/
theorem parked_fair : (course (.standard .rapid) parked_isAtRest alternately).Fair := by
  intro j _ t m
  refine ⟨2 * (t + m) + 6, by omega, ?_, .inr fun a ha => ?_⟩
  · obtain ⟨a, e, ha, hphase⟩ := parked_over (show 4 ≤ 2 * (t + m) + 5 by omega)
    have hrest : (parked.sweeping (.standard .rapid) alternately (2 * (t + m) + 5)).isAtRest := by
      simp [isAtRest, ha, Attempt.isAtRest, hphase]
    have hm : alternately (2 * (t + m) + 5) =
        .others { parked.world with now := 2 * (t + m) + 5 } := by
      unfold alternately
      rw [if_neg (by omega)]
    show t ≤ (parked.sweeping (.standard .rapid) alternately (2 * (t + m) + 6)).world.now
    rw [sweeping_succ, hm, next_others hrest]
    show t ≤ max _ (2 * (t + m) + 5)
    omega
  · obtain ⟨e, hphase⟩ := parked_ended (by omega) (List.mem_of_getElem? ha)
    simp [Attempt.canStep, Attempt.isOver, hphase]

/-- Nobody disturbs the retry before it is over. -/
theorem parked_undisturbed {n : Nat}
    (hn : ¬ (course (.standard .rapid) parked_isAtRest alternately).IsSwept n) (key : Key) :
    (course (.standard .rapid) parked_isAtRest alternately).Undisturbed n key := by
  rcases alternately_cases n with hm | ⟨hfour, -⟩
  · refine undisturbed_of_no_rules parked_isAtRest ?_ hm (parked_sweeping n).2 key
    have hone : (parked.launches (.standard .rapid)).length = 1 := by decide +kernel
    rw [IsRetry, hone]
    exact ⟨Nat.le_refl 0, Nat.zero_lt_one⟩
  · refine absurd (fun a ha => ?_) hn
    obtain ⟨e, hphase⟩ := parked_ended hfour ha
    rw [Attempt.isOver, hphase]

/-- The retry does not break off. -/
theorem parked_sound (n : Nat) :
    ∀ a ∈ (course (.standard .rapid) parked_isAtRest alternately).retries n,
      a.phase ≠ .aborted := by
  intro a ha
  by_cases hn : n < 4
  · have hfirst : ∀ m < 4, ∀ a ∈ (parked.sweeping (.standard .rapid) alternately m).attempts,
        a.phase ≠ .aborted := by decide +kernel
    exact hfirst n hn a (mem_parked_retries ha)
  · obtain ⟨e, hphase⟩ := parked_ended (Nat.le_of_not_lt hn) ha
    simp [hphase]

end Scene

end ReplicaControl
