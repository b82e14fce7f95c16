import Mathlib.Data.List.Induction
import ReplicaControl.Sweep

/-!
# Scenes

Cycles, sweeps, attempts and everyone else take turns.  An attempt gives up its turn only where it
waits for time to pass, and before its first step.

* `Trigger`, `Trigger.fire` — the calls that launch attempts: a cycle for a namespace, a cycle for
  one workload, a sweep.
* `Scene` — a world with all attempts that were ever launched in it.
* `Move`, `Scene.next` — one turn: a trigger, a step of an attempt, or others who change whatever
  they like except what is the controller's own (`World.changedTo`), while time goes on.  A turn
  that nobody may take now changes nothing.
* `Scene.run` — the scene after a list of turns.  Every list is allowed, so that a statement about
  all lists is one about every order of triggers, suspensions and changes by others.
* `Scene.Throughout` — what holds of every turn of a list and the turns before it.
* `Scene.idle`, `Scene.staged` — the scenes a run starts from: an empty registry and no attempt, or
  any world with attempts that are about to start.
* `Scene.Writes` — a turn that writes a count, as the record of written counts shows it.
-/

namespace ReplicaControl

/-- A call that may launch attempts. -/
inductive Trigger where
  | cycle (ns : String)
  | item (id : WorkloadId)
  | sweep
deriving DecidableEq

/-- The attempts that a cycle launches; none if it gave up. -/
def Cycle.launchesOf : Except CycleError Cycle → List Launch
  | .ok c => c.launches
  | .error _ => []

/-- The attempts that a trigger launches, in order, and the world then. -/
def Trigger.fire (s : Settings) (w : World) : Trigger → List Launch × World
  | .cycle ns => (Cycle.launchesOf (Cycle.ofNamespace s w ns).1, (Cycle.ofNamespace s w ns).2)
  | .item id => (Cycle.launchesOf (Cycle.ofItem s w id).1, (Cycle.ofItem s w id).2)
  | .sweep => ((Sweep.survey s w).1.2, (Sweep.survey s w).2)

/-- Whether an attempt leaves the turn to others. -/
def Attempt.isAtRest (a : Attempt) : Bool :=
  match a.phase with
  | .starting => true
  | .waiting .. => true
  | .backingOff .. => true
  | .ended _ => true
  | .aborted => true
  | _ => false

/-- A world with the attempts that were launched in it, in order. -/
structure Scene where
  world : World
  /-- The attempts, those that are over included. -/
  attempts : List Attempt

/-- The world after others made another one of it.  The registry, the events and the record of
writes are not theirs, time does not go back, and no ticket of an alarm is given out twice. -/
def World.changedTo (w new : World) : World :=
  { new with
    now := max w.now new.now
    tickets := max w.tickets new.tickets
    cluster := { new.cluster with history := w.cluster.history }
    registry := w.registry
    events := w.events }

/-- A turn. -/
inductive Move where
  | trigger (t : Trigger)
  | attempt (i : Nat)
  /-- Others make this of the world, as far as they can. -/
  | others (w : World)

namespace Scene

/-- Whether every attempt leaves the turn to others. -/
def isAtRest (sc : Scene) : Bool := sc.attempts.all (·.isAtRest)

/-- Whether every attempt but one leaves the turn to others. -/
def isFreeFor (sc : Scene) (i : Nat) : Bool := (sc.attempts.eraseIdx i).all (·.isAtRest)

/-- The scene after a turn. -/
def next (s : Settings) (sc : Scene) : Move → Scene
  | .trigger t =>
    if sc.isAtRest then
      { world := (t.fire s sc.world).2
        attempts := sc.attempts ++ (t.fire s sc.world).1.map fun l => .launch l.1 l.2 }
    else sc
  | .attempt i =>
    match sc.attempts[i]? with
    | some a =>
      if sc.isFreeFor i then
        { world := (a.step s sc.world).2, attempts := sc.attempts.set i (a.step s sc.world).1 }
      else sc
    | none => sc
  | .others w =>
    if sc.isAtRest then { sc with world := sc.world.changedTo w } else sc

/-- The scene after a list of turns. -/
def run (s : Settings) (sc : Scene) (moves : List Move) : Scene := moves.foldl (next s) sc

/-- Nothing was launched yet, and the registry is empty. -/
def idle (w : World) : Scene := { world := { w with registry := ∅ }, attempts := [] }

/-- Attempts are about to start in a world. -/
def staged (w : World) (launches : List Launch) : Scene :=
  { world := w, attempts := launches.map fun l => .launch l.1 l.2 }

/-- The step that the attempt with a number takes writes a count to a workload. -/
def Writes (s : Settings) (sc : Scene) (i : Nat) (id : WorkloadId) (n : Int) : Prop :=
  (sc.next s (.attempt i)).world.cluster.history = sc.world.cluster.history ++ [(id, n)]

@[simp] theorem run_nil (s : Settings) (sc : Scene) : sc.run s [] = sc := rfl

@[simp] theorem run_cons (s : Settings) (sc : Scene) (m : Move) (moves : List Move) :
    sc.run s (m :: moves) = (sc.next s m).run s moves := rfl

theorem run_append (s : Settings) (sc : Scene) (moves more : List Move) :
    sc.run s (moves ++ more) = (sc.run s moves).run s more :=
  List.foldl_append

theorem run_concat (s : Settings) (sc : Scene) (moves : List Move) (m : Move) :
    sc.run s (moves ++ [m]) = (sc.run s moves).next s m := by
  rw [run_append]
  rfl

theorem next_trigger {s : Settings} {sc : Scene} (h : sc.isAtRest) (t : Trigger) :
    sc.next s (.trigger t) =
      { world := (t.fire s sc.world).2
        attempts := sc.attempts ++ (t.fire s sc.world).1.map fun l => .launch l.1 l.2 } := by
  simp [next, h]

theorem next_others {s : Settings} {sc : Scene} (h : sc.isAtRest) (w : World) :
    sc.next s (.others w) = { sc with world := sc.world.changedTo w } := by
  simp [next, h]

theorem next_attempt {s : Settings} {sc : Scene} {i : Nat} {a : Attempt}
    (ha : sc.attempts[i]? = some a) (h : sc.isFreeFor i) :
    sc.next s (.attempt i) =
      { world := (a.step s sc.world).2, attempts := sc.attempts.set i (a.step s sc.world).1 } := by
  simp [next, ha, h]

/-- After a turn the attempt stands where its step left it, and may take the next turn. -/
theorem next_attempt_self {s : Settings} {sc : Scene} {i : Nat} {a : Attempt}
    (ha : sc.attempts[i]? = some a) (h : sc.isFreeFor i) :
    (sc.next s (.attempt i)).attempts[i]? = some (a.step s sc.world).1 ∧
      (sc.next s (.attempt i)).isFreeFor i ∧
      (sc.next s (.attempt i)).world = (a.step s sc.world).2 := by
  have hlen := (List.getElem?_eq_some_iff.1 ha).1
  rw [next_attempt ha h]
  refine ⟨List.getElem?_set_self hlen, ?_, rfl⟩
  show List.all (List.eraseIdx (List.set _ _ _) i) _ = true
  rw [List.eraseIdx_set_eq]
  exact h

/-- The turn of an attempt leaves the other attempts as they are. -/
theorem mem_next_of_ne {s : Settings} {sc : Scene} {i : Nat} {a b : Attempt}
    (ha : sc.attempts[i]? = some a) (h : sc.isFreeFor i) (hb : b ∈ sc.attempts) (hne : b ≠ a) :
    b ∈ (sc.next s (.attempt i)).attempts := by
  obtain ⟨j, hj⟩ := List.getElem?_of_mem hb
  have hji : i ≠ j := by
    rintro rfl
    exact hne (Option.some.inj (hj.symm.trans ha))
  rw [next_attempt ha h]
  refine List.mem_of_getElem? (i := j) ?_
  rw [List.getElem?_set_ne hji]
  exact hj

/-- A turn of an attempt is a step of an attempt that may take it, or nothing. -/
theorem next_attempt_cases (s : Settings) (sc : Scene) (i : Nat) :
    (∃ a, sc.attempts[i]? = some a ∧ sc.isFreeFor i ∧ sc.next s (.attempt i) =
      { world := (a.step s sc.world).2, attempts := sc.attempts.set i (a.step s sc.world).1 }) ∨
    sc.next s (.attempt i) = sc := by
  simp only [next]
  split
  · rename_i a ha
    split
    · exact .inl ⟨a, ha, ‹_›, rfl⟩
    · exact .inr rfl
  · exact .inr rfl

/-- The attempts before and after one of them. -/
theorem exists_around {as : List Attempt} {i : Nat} {a : Attempt} (h : as[i]? = some a) :
    ∃ before after, as = before ++ a :: after ∧ as.eraseIdx i = before ++ after ∧
      ∀ a', as.set i a' = before ++ a' :: after := by
  obtain ⟨hi, rfl⟩ := List.getElem?_eq_some_iff.1 h
  refine ⟨as.take i, as.drop (i + 1), ?_, List.eraseIdx_eq_take_drop_succ as i, fun a' => ?_⟩
  · rw [List.getElem_cons_drop, List.take_append_drop]
  · rw [List.set_eq_take_append_cons_drop, if_pos hi]

/-- A list of attempts leaves the turn to others if one of them does, and the others do. -/
theorem isAtRest_of_isFreeFor {sc : Scene} {i : Nat} {a : Attempt} (ha : sc.attempts[i]? = some a)
    (h : sc.isFreeFor i) (hr : a.isAtRest) : sc.isAtRest := by
  obtain ⟨before, after, hsplit, herase, -⟩ := exists_around ha
  simp only [isFreeFor, herase, List.all_append, Bool.and_eq_true] at h
  simp only [isAtRest, hsplit, List.all_append, List.all_cons, Bool.and_eq_true]
  exact ⟨h.1, hr, h.2⟩

theorem isAtRest_withWorld {sc : Scene} (h : sc.isAtRest) (w : World) :
    ({ sc with world := w } : Scene).isAtRest :=
  h

theorem isFreeFor_of_isAtRest {sc : Scene} (h : sc.isAtRest) (i : Nat) : sc.isFreeFor i :=
  List.all_eq_true.2 fun a ha => List.all_eq_true.1 h a (List.mem_of_mem_eraseIdx ha)

/-! ## What holds throughout a run -/

/-- Something holds of every turn of a list and the turns before it. -/
def Throughout (P : List Move → Move → Prop) (moves : List Move) : Prop :=
  ∀ before m after, moves = before ++ m :: after → P before m

theorem throughout_nil (P : List Move → Move → Prop) : Throughout P [] := by
  intro before m after h
  cases before <;> cases h

theorem throughout_concat {P : List Move → Move → Prop} {moves : List Move} {m : Move} :
    Throughout P (moves ++ [m]) ↔ Throughout P moves ∧ P moves m := by
  constructor
  · intro h
    refine ⟨fun before m' after hm => h before m' (after ++ [m]) ?_, h moves m [] rfl⟩
    rw [hm, List.append_assoc, List.cons_append]
  · rintro ⟨h, hlast⟩ before m' after hm
    rcases List.eq_nil_or_concat after with rfl | ⟨after, m'', rfl⟩
    · obtain ⟨rfl, rfl⟩ := List.append_singleton_inj.1 hm
      exact hlast
    · rw [List.concat_eq_append, ← List.cons_append, ← List.append_assoc] at hm
      exact h before m' after (List.append_singleton_inj.1 hm).1

end Scene

end ReplicaControl
