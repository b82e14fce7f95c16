import ReplicaControl.Config
import ReplicaControl.Target
import ReplicaControl.World

/-!
# Scaling attempts

* `Attempt` — the run that moves one workload to its target, suspended wherever it waits for time.
* `Attempt.step` — one step of an attempt in the world.  Steps of other attempts, other actors and
  time come between two steps only before the first one and where the attempt waits for an alarm.
* `Attempt.begin`, `decide`, `poll`, `write` — the steps.  A round decides on the next count, in
  step mode polls until the workload is ready, and writes it.  Every round reads the target from
  the registry again; every write reads the workload again and passes its quotas.
* `Attempt.conclude` — records how an attempt ended, in the registry and as an event.
-/

namespace ReplicaControl

/-- What attempts and cycles are configured with. -/
structure Settings where
  config : Config
  timings : Timings
  /-- The kinds of workloads that can be reached. -/
  adapters : List Kind
  clock : Clock := .punctual
deriving Inhabited

/-- The kinds of the platform that can be reached, in order. -/
def Settings.enabledKinds (s : Settings) : List Kind :=
  s.config.platform.kinds.filter fun kind => s.adapters.contains kind

/-- How an attempt ends that does not fail. -/
inductive Outcome where
  | unchanged
  | scaled (replicas : Int)
  | quotaDenied
  | removed
deriving DecidableEq, Inhabited

/-- Why an attempt fails. -/
inductive ScaleError where
  | optedOut (item : Key) (state : String)
  | retriesExhausted (item : Key) (attempts : Nat)
  /-- The cluster reports that the rollout took too long. -/
  | deadlineExceeded (item : Key)
  | stepTimeout (item : Key) (step : Int) (waited : Duration)
  /-- Workloads of the kind cannot be reached. -/
  | noAdapter (kind : Kind)
  | adapter (e : AdapterError)
  | quota (e : QuotaError)
deriving DecidableEq

/-- The error in words. -/
def ScaleError.message : ScaleError → String
  | .optedOut item state =>
    item.text ++ " is no longer opted in; refusing to scale it to state " ++ Text.quote state
  | .retriesExhausted item attempts =>
    "gave up updating " ++ item.text ++ " after " ++ Text.decimal attempts ++ " conflicting writes"
  | .deadlineExceeded item => item.text ++ " rollout exceeded its progress deadline"
  | .stepTimeout item step waited =>
    item.text ++ " not ready for step to " ++ Text.decimal step ++ " replicas after " ++ waited.text
  | .noAdapter kind => "no adapter registered for " ++ kind.text
  | .adapter e => e.message
  | .quota e => e.message

/-- How an attempt ends. -/
inductive Ending where
  | done (outcome : Outcome)
  | failed (e : ScaleError)
deriving DecidableEq

/-- A wait for a workload to become ready. -/
structure Wait where
  /-- The target when the wait began. -/
  desired : Int
  /-- The next count when the wait began. -/
  step : Int
  limit : Duration
  deadline : Nat
  /-- The ticket of the alarm for the deadline, once it is set. -/
  ticket : Option Nat := none
deriving DecidableEq

/-- Where an attempt stands. -/
inductive Phase where
  | starting
  | deciding
  | polling (wait : Wait)
  /-- Suspended until the next poll or the end of the wait. -/
  | waiting (wait : Wait) (wake : Alarm)
  /-- A count has to be written, after a number of conflicts. -/
  | writing (replicas : Int) (conflicts : Nat)
  /-- Suspended until the next try to write a count. -/
  | backingOff (replicas : Int) (conflicts : Nat) (wake : Alarm)
  /-- The attempt is over and has recorded its ending. -/
  | ended (ending : Ending)
  /-- The attempt broke off without a record. -/
  | aborted
deriving DecidableEq

/-- A scaling attempt. -/
structure Attempt where
  /-- The workload as it was when the attempt was launched. -/
  item : Workload
  target : Target
  /-- The workload as it was last seen. -/
  current : Workload
  written : Bool
  phase : Phase

/-- One replica from a count towards another one. -/
def oneToward (current desired : Int) : Int :=
  if current < desired then current + 1 else current - 1

namespace Attempt

/-- The attempt to move a workload to a target, before its first step. -/
def launch (item : Workload) (target : Target) : Attempt :=
  { item, target, current := item, written := false, phase := .starting }

/-- The key of the attempt's workload. -/
def key (a : Attempt) : Key := a.item.key

/-- Whether the attempt is over. -/
def isOver (a : Attempt) : Bool :=
  match a.phase with
  | .ended _ => true
  | .aborted => true
  | _ => false

/-- The alarms that wake a suspended attempt. -/
def alarms (a : Attempt) : List Alarm :=
  match a.phase with
  | .waiting wait wake => wake :: (wait.ticket.map fun t => ⟨wait.deadline, t⟩).toList
  | .backingOff _ _ wake => [wake]
  | _ => []

/-- Whether the attempt waits for time to pass. -/
def isSuspended (a : Attempt) (now : Nat) : Bool :=
  match a.phase with
  | .waiting wait wake => now < wake.due && now < wait.deadline
  | .backingOff _ _ wake => now < wake.due
  | _ => false

/-- Whether the attempt can take a step. -/
def canStep (a : Attempt) (now : Nat) : Bool := !a.isOver && !a.isSuspended now

/-! ## The end of an attempt -/

/-- Emits an event about the workload that the attempt was launched for. -/
def tell (a : Attempt) (w : World) (cause : Event.Cause) : World := w.emit (.about a.item cause)

/-- The registry after an attempt ended. -/
def recorded (a : Attempt) (r : Registry) : Ending → Registry
  | .done (.scaled n) => (r.settle a.key n).2
  | .done .unchanged => (r.settle a.key a.item.spec).2
  | .done .quotaDenied => r.release a.key
  | .done .removed => r.erase a.key
  | .failed e =>
    if r.contains a.key then
      r.update a.key fun x =>
        { x with failure := true, failureMessage := e.message, scaling := false }
    else r.upsert { a.item with scaling := false } true e.message a.target.replicas

/-- Records how the attempt ended. -/
def conclude (a : Attempt) (w : World) (ending : Ending) : Attempt × World :=
  let w := { w with registry := a.recorded w.registry ending }
  let w :=
    match ending with
    | .done (.scaled n) => a.tell w (.scaled a.item.spec n a.target.state)
    | .done _ => w
    | .failed e => a.tell w (.failed e.message)
  ({ a with phase := .ended ending }, w)

/-- Records that the attempt failed. -/
def fail (a : Attempt) (w : World) (e : ScaleError) : Attempt × World := a.conclude w (.failed e)

/-! ## The steps of an attempt -/

/-- The first step.  A workload at its target that nobody else is at work on is left alone; else the
registry shows the attempt, and keeps the target that it has. -/
def begin (s : Settings) (a : Attempt) (w : World) : Attempt × World :=
  if a.item.spec = a.target.replicas ∧ ¬ a.item.failure ∧ ¬ w.registry.contains a.key then
    ({ a with phase := .ended (.done .unchanged) }, w)
  else
    let registry :=
      if w.registry.contains a.key then w.registry.update a.key ({ · with scaling := true })
      else
        w.registry.upsert { a.item with scaling := true } a.item.failure a.item.failureMessage
          a.target.replicas
    let w := { w with registry }
    if s.adapters.contains a.item.kind then ({ a with phase := .deciding }, w)
    else a.fail w (.noAdapter a.item.kind)

/-- The target in force: the one in the registry, else the one that the attempt was launched for. -/
def desired (a : Attempt) (r : Registry) : Int :=
  match r.get? a.key with
  | some e => e.desired
  | none => a.target.replicas

/-- How long the attempt may wait for its workload to become ready. -/
def limit (s : Settings) (a : Attempt) : Duration :=
  ⟨(Duration.ofSeconds a.current.progressDeadline).millis + s.timings.stepSlack.millis⟩

/-- Whether a length of time has a number of seconds that fits an unsigned 64 bit word. -/
def isTimeLimit (d : Duration) : Bool := d.millis / 1000 < Duration.wordBound

/-- Decides on the next count, and marks the attempt as running. -/
def decide (s : Settings) (a : Attempt) (w : World) : Attempt × World :=
  let desired := a.desired w.registry
  let w := { w with registry := w.registry.update a.key ({ · with scaling := true }) }
  if a.current.spec = desired then
    a.conclude w (.done (if a.written then .scaled a.current.spec else .unchanged))
  else
    match s.config.mode with
    | .rapid => ({ a with phase := .writing desired 0 }, w)
    | .step =>
      let limit := a.limit s
      if isTimeLimit limit then
        let wait : Wait :=
          { desired, step := oneToward a.current.spec desired, limit,
            deadline := s.clock.wake w.now limit }
        ({ a with phase := .polling wait }, w)
      else ({ a with phase := .aborted }, w)

/-- Ends a wait that took too long. -/
def timeOut (a : Attempt) (w : World) (wait : Wait) : Attempt × World :=
  a.fail w (.stepTimeout a.key wait.step wait.limit)

/-- Whether a workload is ready for the next step. -/
def isReady (wait : Wait) (live : Workload) : Bool :=
  live.ready == wait.step || live.spec == live.ready

/-- Sleeps until the next poll.  The first sleep of a wait also sets the alarm for its end.  Others
may have a turn even if the sleep is of no length; then its alarm is due at once. -/
def sleepToPoll (s : Settings) (a : Attempt) (w : World) (wait : Wait) : Attempt × World :=
  let (wake, w) := w.alarmAfter s.clock s.timings.pollInterval
  match wait.ticket with
  | some _ => ({ a with phase := .waiting wait wake }, w)
  | none =>
    let (expiry, w) := w.setAlarm wait.deadline
    ({ a with phase := .waiting { wait with ticket := some expiry.ticket } wake }, w)

/-- Polls the workload of a wait. -/
def poll (s : Settings) (a : Attempt) (w : World) (wait : Wait) : Attempt × World :=
  match w.fetch a.item.id with
  | (.error (.notFound _), w) => a.conclude w (.done .removed)
  | (.error e, w) => a.fail w (.adapter e)
  | (.ok live, w) =>
    if isReady wait live then
      let phase :=
        if live.spec = wait.desired then .deciding
        else .writing (oneToward live.spec wait.desired) 0
      ({ a with current := live, phase }, w)
    else if live.exceededDeadline then a.fail w (.deadlineExceeded a.key)
    else if wait.deadline ≤ w.now then a.timeOut w wait
    else a.sleepToPoll s w wait

/-- Goes on after a conflict: another try after the backoff, or none if there were too many.  Others
may have a turn during the backoff, also if it is of no length. -/
def retry (s : Settings) (a : Attempt) (w : World) (replicas : Int) (conflicts : Nat) :
    Attempt × World :=
  if conflicts < s.config.writeTries then
    let (wake, w) := w.alarmAfter s.clock s.timings.conflictBackoff
    ({ a with phase := .backingOff replicas conflicts wake }, w)
  else a.fail w (.retriesExhausted a.key s.config.writeTries)

/-- Writes a count to a workload that was read just now and passed its quotas. -/
def store (s : Settings) (a : Attempt) (w : World) (live : Workload) (replicas : Int)
    (conflicts : Nat) : Attempt × World :=
  match w.store { live with spec := replicas } with
  | (.stored new, w) => ({ a with current := new, written := true, phase := .deciding }, w)
  | (.refused (.conflict _), w) => a.retry s w replicas (conflicts + 1)
  | (.refused (.notFound _), w) => a.conclude w (.done .removed)
  | (.refused e, w) => a.fail w (.adapter e)
  | (.exhausted, w) => ({ a with phase := .aborted }, w)

/-- Tries to write a count, if the workload is still under control and its quotas have room. -/
def write (s : Settings) (a : Attempt) (w : World) (replicas : Int) (conflicts : Nat) :
    Attempt × World :=
  match w.fetch a.item.id with
  | (.error (.notFound _), w) => a.conclude w (.done .removed)
  | (.error e, w) => a.fail w (.adapter e)
  | (.ok live, w) =>
    if live.isOptedIn then
      match w.admission live.key.ns (Quota.itemNeed live replicas) with
      | (.error e, w) => a.fail w (.quota e)
      | (.ok (.denied quota shortfall), w) =>
        a.conclude (a.tell w (.quotaExceeded replicas quota shortfall)) (.done .quotaDenied)
      | (.ok .allowed, w) => a.store s w live replicas conflicts
    else a.fail w (.optedOut a.key a.target.state)

/-- One step of an attempt.  An attempt that is over or suspended stays as it is. -/
def step (s : Settings) (a : Attempt) (w : World) : Attempt × World :=
  match a.phase with
  | .starting => a.begin s w
  | .deciding => a.decide s w
  | .polling wait => a.poll s w wait
  | .waiting wait wake =>
    if wake.due ≤ w.now then a.poll s w wait
    else if wait.deadline ≤ w.now then a.timeOut w wait
    else (a, w)
  | .writing replicas conflicts => a.write s w replicas conflicts
  | .backingOff replicas conflicts wake =>
    if wake.due ≤ w.now then a.write s w replicas conflicts else (a, w)
  | .ended _ => (a, w)
  | .aborted => (a, w)

/-- How an attempt ended, if it did. -/
def ending? (a : Attempt) : Option Ending :=
  match a.phase with
  | .ended e => some e
  | _ => none

end Attempt

end ReplicaControl
