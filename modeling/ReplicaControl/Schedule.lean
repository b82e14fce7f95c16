import ReplicaControl.Sweep

/-!
# Schedules

* `Schedule` — the world with the tasks that run in it: attempts, and loops that start a cycle or a
  sweep at regular intervals.  Tasks take turns; one that is ready runs until it has to wait.
* `Schedule.move` — one step of the first task that is ready.  `Schedule.tick` — when no task is
  ready, the clock jumps to the next alarm, and the tasks whose alarms ring get ready in the order
  in which the alarms were set.
* `Schedule.run` — lets the caller wait, for a time, for tasks or through an attempt of its own.
  The caller goes on before any task that gets ready at the same instant, and else only when no
  task is ready.
* `Schedule.sleep`, `join`, `scale`, `reconcile`, `sweep`, `start`, `stop` — what a caller can do.
-/

namespace ReplicaControl

/-- The number of a task. -/
abbrev TaskId := Nat

/-- What a loop does in each pass. -/
inductive LoopJob where
  /-- One cycle for each namespace. -/
  | cycles (namespaces : List String)
  /-- One sweep, up to the end of all its attempts. -/
  | sweeps
deriving DecidableEq

/-- Where a loop stands. -/
inductive LoopPhase where
  /-- Between two passes. -/
  | idle
  /-- Suspended until the next pass. -/
  | sleeping (wake : Alarm)
  /-- Suspended until attempts are over. -/
  | joining (retries : List TaskId)
  | ended
deriving DecidableEq

/-- A loop. -/
structure Loop where
  job : LoopJob
  phase : LoopPhase := .idle
  stopping : Bool := false

/-- Something that runs in the world. -/
inductive Task where
  | attempt (a : Attempt)
  | loop (l : Loop)

namespace Task

/-- Whether a task is over. -/
def isOver : Task → Bool
  | attempt a => a.isOver
  | loop l => l.phase == .ended

/-- The alarms that wake a task. -/
def alarms : Task → List Alarm
  | attempt a => a.alarms
  | loop l => match l.phase with | .sleeping wake => [wake] | _ => []

/-- Whether a task waits for another one to be over. -/
def isJoining (id : TaskId) : Task → Bool
  | attempt _ => false
  | loop l => match l.phase with | .joining retries => retries.contains id | _ => false

end Task

/-- The world with the tasks that run in it. -/
structure Schedule where
  settings : Settings
  world : World
  tasks : Table TaskId Task := ∅
  /-- The tasks that are ready, in their order. -/
  ready : List TaskId := []
  nextId : TaskId := 0

namespace Schedule

/-- Whether a task is over. -/
def isOver (s : Schedule) (id : TaskId) : Bool := (s.tasks.get? id).all (·.isOver)

/-- How an attempt ended, if it did. -/
def ending? (s : Schedule) (id : TaskId) : Option Ending :=
  match s.tasks.get? id with
  | some (.attempt a) => a.ending?
  | _ => none

/-- Adds a task behind those that are ready. -/
def spawn (s : Schedule) (t : Task) : TaskId × Schedule :=
  (s.nextId, { s with
    tasks := s.tasks.insert s.nextId t, ready := s.ready ++ [s.nextId], nextId := s.nextId + 1 })

/-- Adds attempts in order. -/
def launchAll (s : Schedule) : List Launch → List TaskId × Schedule
  | [] => ([], s)
  | (item, target) :: rest =>
    match s.spawn (.attempt (.launch item target)) with
    | (id, s) =>
      match launchAll s rest with
      | (ids, s) => (id :: ids, s)

/-- Lets a cycle run, and launches its attempts. -/
def launchCycle (s : Schedule) (result : Except CycleError Cycle × World) :
    Except CycleError (Cycle × List (Key × TaskId)) × Schedule :=
  match result with
  | (.error e, world) => (.error e, { s with world })
  | (.ok cycle, world) =>
    match launchAll { s with world } cycle.launches with
    | (ids, s) => (.ok (cycle, (cycle.launches.map (·.1.key)).zip ids), s)

/-- A cycle for a namespace. -/
def reconcile (s : Schedule) (ns : String) :
    Except CycleError (Cycle × List (Key × TaskId)) × Schedule :=
  s.launchCycle (Cycle.ofNamespace s.settings s.world ns)

/-- A cycle for one workload. -/
def reconcileItem (s : Schedule) (id : WorkloadId) :
    Except CycleError (Cycle × List (Key × TaskId)) × Schedule :=
  s.launchCycle (Cycle.ofItem s.settings s.world id)

/-- The first half of a sweep: up to the launch of its attempts. -/
def beginSweep (s : Schedule) : (Sweep.Report × List TaskId) × Schedule :=
  match Sweep.survey s.settings s.world with
  | ((report, launches), world) =>
    match launchAll { s with world } launches with
    | (ids, s) => ((report, ids), s)

/-! ## Steps of tasks -/

/-- Puts a task in place of the one with its number. -/
def setTask (s : Schedule) (id : TaskId) (t : Task) : Schedule :=
  { s with tasks := s.tasks.insert id t }

/-- Gets the tasks ready that wait for a task, unless they are. -/
def wakeJoiners (s : Schedule) (id : TaskId) : Schedule :=
  let joiners := (s.tasks.filter fun other t => t.isJoining id && !s.ready.contains other).keys
  { s with ready := s.ready ++ joiners }

/-- One step of an attempt. -/
def stepAttempt (s : Schedule) (id : TaskId) (a : Attempt) : Schedule :=
  match a.step s.settings s.world with
  | (a, world) =>
    let s := { s with world }.setTask id (.attempt a)
    if a.isOver then s.wakeJoiners id else s

/-- The time between two passes of a loop. -/
def interval (s : Schedule) : LoopJob → Duration
  | .cycles _ => s.settings.timings.reconcileInterval
  | .sweeps => s.settings.timings.rectifyInterval

/-- One pass of a loop, and where it stands then. -/
def pass (s : Schedule) : LoopJob → LoopPhase × Schedule
  | .cycles namespaces => (.idle, namespaces.foldl (fun s ns => (s.reconcile ns).2) s)
  | .sweeps =>
    match s.beginSweep with
    | ((_, ids), s) => (.joining ids, s)

/-- One step of a loop. -/
def stepLoop (s : Schedule) (id : TaskId) (l : Loop) : Schedule :=
  match l.phase with
  | .idle =>
    if l.stopping then s.setTask id (.loop { l with phase := .ended })
    else
      match s.world.alarmAfter s.settings.clock (s.interval l.job) with
      | (wake, world) => { s with world }.setTask id (.loop { l with phase := .sleeping wake })
  | .sleeping wake =>
    if wake.due ≤ s.world.now then
      match s.pass l.job with
      | (phase, s) => s.setTask id (.loop { l with phase })
    else s.setTask id (.loop { l with phase := .ended })
  | .joining _ => s.setTask id (.loop { l with phase := .idle })
  | .ended => s

/-- Whether a task can take a step. -/
def canStep (s : Schedule) : Task → Bool
  | .attempt a => a.canStep s.world.now
  | .loop l =>
    match l.phase with
    | .idle => true
    | .sleeping wake => wake.due ≤ s.world.now || l.stopping
    | .joining retries => retries.all s.isOver
    | .ended => false

/-- One step of the first task that is ready.  If it has to wait, the next one has its turn. -/
def move (s : Schedule) : Schedule :=
  match s.ready with
  | [] => s
  | id :: rest =>
    match s.tasks.get? id with
    | none => { s with ready := rest }
    | some t =>
      if s.canStep t then
        match t with
        | .attempt a => s.stepAttempt id a
        | .loop l => s.stepLoop id l
      else { s with ready := rest }

/-- Moves until no task is ready.  There is no answer if some task always is. -/
def drain (s : Schedule) : Option Schedule :=
  if s.ready = [] then some s else s.move |>.drain
partial_fixpoint

/-! ## Time -/

/-- The alarms of all tasks. -/
def alarms (s : Schedule) : List Alarm := s.tasks.values.flatMap Task.alarms

/-- The tickets of the alarms that ring at an instant, with their tasks. -/
def ringing (s : Schedule) (now : Nat) : List (Nat × TaskId) :=
  s.tasks.entries.filterMap fun e =>
    ((e.2.alarms.filter fun a => a.due ≤ now).map (·.ticket)).min?.map fun ticket => (ticket, e.1)

/-- Lets the clock jump to the next alarm of a task or of the caller, if there is one. -/
def tick (s : Schedule) (callers : List Alarm) : Option Schedule :=
  match ((callers ++ s.alarms).map (·.due)).min? with
  | none => none
  | some due =>
    let now := max s.world.now due
    let woken := ((s.ringing now).mergeSort fun a b => a.1 ≤ b.1).map (·.2)
    some { s with world := { s.world with now }, ready := s.ready ++ woken }

/-! ## The caller -/

/-- What the caller waits for. -/
inductive Caller where
  | sleeping (wake : Alarm)
  /-- For the end of an attempt of its own. -/
  | scaling (a : Attempt)
  | joining (ids : List TaskId)

/-- Whether the caller need not wait any longer. -/
def Caller.isDone (s : Schedule) : Caller → Bool
  | .sleeping wake => wake.due ≤ s.world.now
  | .scaling a => a.isOver
  | .joining ids => ids.all s.isOver

/-- The alarms that wake the caller. -/
def Caller.alarms : Caller → List Alarm
  | .sleeping wake => [wake]
  | .scaling a => a.alarms
  | .joining _ => []

/-- One step of the caller itself, if it can take one. -/
def Caller.step? (s : Schedule) : Caller → Option (Caller × Schedule)
  | .scaling a =>
    if a.canStep s.world.now then
      match a.step s.settings s.world with
      | (a, world) => some (.scaling a, { s with world })
    else none
  | _ => none

/-- Lets the caller wait.  There is no answer if the wait has no end. -/
def await (c : Caller) (s : Schedule) : Option (Caller × Schedule) :=
  if c.isDone s then some (c, s)
  else
    match c.step? s with
    | some (c, s) => s |>.await c
    | none =>
      if s.ready = [] then
        match s.tick c.alarms with
        | some s => s |>.await c
        | none => some (c, s)
      else
        match drain s with
        | some s => s |>.await c
        | none => none
partial_fixpoint

/-- Lets the caller wait.  After a wait without an end nothing happens any more. -/
def run (s : Schedule) (c : Caller) : Caller × Schedule := (await c s).getD (c, s)

/-- Waits for a time.  A sleep of no length does not let any task run. -/
def sleep (s : Schedule) (d : Duration) : Schedule :=
  if d.millis = 0 then s
  else
    match s.world.alarmAfter s.settings.clock d with
    | (wake, world) => ({ s with world }.run (.sleeping wake)).2

/-- Waits for tasks to be over. -/
def join (s : Schedule) (ids : List TaskId) : Schedule := (s.run (.joining ids)).2

/-- Moves a workload to a target, and waits for the end of the attempt. -/
def scale (s : Schedule) (item : Workload) (target : Target) : Option Ending × Schedule :=
  match s.run (.scaling (.launch item target)) with
  | (.scaling a, s) => (a.ending?, s)
  | (_, s) => (none, s)

/-- Sweeps over the failures, and waits for the end of all attempts. -/
def sweep (s : Schedule) : Sweep.Report × Schedule :=
  match s.beginSweep with
  | ((report, ids), s) =>
    let s := s.join ids
    (ids.foldl (fun r id => r.record (s.ending? id)) report, s)

/-- Starts a loop. -/
def start (s : Schedule) (job : LoopJob) : TaskId × Schedule := s.spawn (.loop { job })

/-- Tells a loop to stop. -/
def tellToStop (s : Schedule) (id : TaskId) : Schedule :=
  match s.tasks.get? id with
  | some (.loop l) =>
    let s := s.setTask id (.loop { l with stopping := true })
    match l.phase with
    | .sleeping _ => if s.ready.contains id then s else { s with ready := s.ready ++ [id] }
    | _ => s
  | _ => s

/-- Tells a loop to stop, and waits until it is over. -/
def stop (s : Schedule) (id : TaskId) : Schedule := (s.tellToStop id).join [id]

end Schedule

end ReplicaControl
