import ReplicaControl.Proofs.Polls
import ReplicaControl.Proofs.Sample

/-!
# The wait for readiness

A wait ends with the first poll whose answer decides it, or at its limit.

* `Pursuit.BeginsToWait` — the start of a wait.
* `Pursuit.Punctual` — polls at the start and after each interval, up to the limit;
  `Punctual.length_le`: how many there can be.
* `Pursuit.Asleep`, `Returned`, `Expired` — where a wait stands: between two polls, or at one of its
  two ends.
* `Pursuit.WaitCourse` — the wait by the polls made so far.  `WaitCourse.next`: one turn; `run`: the
  wait from its start; `exists_over`: it gets to its end, whatever becomes of the world.
* `Pursuit.readiness_wait` — the main theorem.  `Pursuit.not_readiness_wait_largest_slack`: with a
  limit that cannot be computed there is no wait at all.
-/

namespace ReplicaControl

namespace Pursuit

/-- The attempt is about to make the first poll of a wait, whose limit counts from now. -/
structure BeginsToWait (s : Settings) (p : Pursuit) (wait : Wait) : Prop where
  phase : p.attempt.phase = .polling wait
  deadline : wait.deadline = s.clock.wake p.world.now wait.limit

/-- The polls were made at the start of a wait and after each interval, up to the limit. -/
structure Punctual (s : Settings) (p : Pursuit) (wait : Wait) (polls : List Poll) : Prop where
  instants : polls.map (·.instant) =
    (List.range polls.length).map fun k => p.world.now + k * s.timings.pollInterval.millis
  inTime : ∀ poll ∈ polls, poll.instant ≤ p.world.now + wait.limit.millis

/-- No answer to the polls decides the wait. -/
def Undecided (p : Pursuit) (wait : Wait) (polls : List Poll) : Prop :=
  ∀ poll ∈ polls, p.attempt.verdict? wait poll.answer = none

/-- Between two polls of a wait. -/
structure Asleep (s : Settings) (p : Pursuit) (wait : Wait) (polls : List Poll) (wake : Alarm)
    (q : Pursuit) : Prop where
  attempt : ∃ ticket, q.attempt =
    { p.attempt with phase := .waiting { wait with ticket := some ticket } wake }
  punctual : p.Punctual s wait polls
  undecided : p.Undecided wait polls
  /-- The next poll is due an interval after the last one, if that is within the limit. -/
  due : polls.length * s.timings.pollInterval.millis ≤ wait.limit.millis →
    wake.due = p.world.now + polls.length * s.timings.pollInterval.millis
  late : wait.limit.millis < polls.length * s.timings.pollInterval.millis →
    p.world.now + wait.limit.millis < wake.due
  awake : q.world.now ≤ wake.due
  inTime : q.world.now ≤ p.world.now + wait.limit.millis

/-- The last poll decided the wait, and none before it. -/
structure Returned (s : Settings) (p : Pursuit) (wait : Wait) (polls : List Poll) (q : Pursuit) :
    Prop where
  punctual : p.Punctual s wait polls
  decided : ∃ earlier answer r, polls = earlier ++ [⟨q.world.now, answer⟩] ∧
    p.Undecided wait earlier ∧ p.attempt.verdict? wait answer = some r ∧
    q.attempt = p.attempt.afterWait wait r

/-- No poll up to the limit decided the wait, which is over right then. -/
structure Expired (s : Settings) (p : Pursuit) (wait : Wait) (polls : List Poll) (q : Pursuit) :
    Prop where
  punctual : p.Punctual s wait polls
  undecided : p.Undecided wait polls
  all : wait.limit.millis < polls.length * s.timings.pollInterval.millis
  now : q.world.now = p.world.now + wait.limit.millis
  attempt : q.attempt = p.attempt.afterWait wait (p.attempt.expired wait)

/-- The course of a wait, by the polls made so far. -/
inductive WaitCourse (s : Settings) (p : Pursuit) (wait : Wait) : List Poll → Pursuit → Prop
  | begun {q : Pursuit} (hattempt : q.attempt = p.attempt) (hnow : q.world.now = p.world.now) :
      WaitCourse s p wait [] q
  | asleep {polls : List Poll} {wake : Alarm} {q : Pursuit} (h : p.Asleep s wait polls wake q) :
      WaitCourse s p wait polls q
  | returned {polls : List Poll} {q : Pursuit} (h : p.Returned s wait polls q) :
      WaitCourse s p wait polls q
  | expired {polls : List Poll} {q : Pursuit} (h : p.Expired s wait polls q) :
      WaitCourse s p wait polls q

variable {s : Settings} {p q : Pursuit} {wait : Wait} {polls : List Poll} {wake : Alarm}

namespace Punctual

theorem nil (s : Settings) (p : Pursuit) (wait : Wait) : p.Punctual s wait [] :=
  ⟨rfl, nofun⟩

/-- One more poll, an interval after the last one. -/
theorem concat (h : p.Punctual s wait polls) {poll : Poll}
    (hat : poll.instant = p.world.now + polls.length * s.timings.pollInterval.millis)
    (hin : poll.instant ≤ p.world.now + wait.limit.millis) :
    p.Punctual s wait (polls ++ [poll]) where
  instants := by
    rw [List.map_append, h.instants, List.length_append, List.length_singleton, List.range_succ,
      List.map_append]
    simp [hat]
  inTime := by
    intro other hother
    rcases List.mem_append.1 hother with hother | hother
    · exact h.inTime other hother
    · rw [List.mem_singleton.1 hother]
      exact hin

/-- **At most one poll per interval, and one more.** -/
theorem length_le (h : p.Punctual s wait polls) (hpos : 0 < s.timings.pollInterval.millis) :
    polls.length ≤ wait.limit.millis / s.timings.pollInterval.millis + 1 := by
  rcases List.eq_nil_or_concat polls with rfl | ⟨earlier, last, rfl⟩
  · exact Nat.zero_le _
  · have hinstants := h.instants
    have hlast := h.inTime last (by simp)
    rw [List.length_concat, List.range_succ, List.concat_eq_append, List.map_append,
      List.map_append] at hinstants
    have hat := (List.append_inj' hinstants rfl).2
    simp only [List.map_cons, List.map_nil, List.cons.injEq, and_true] at hat
    have hle : earlier.length * s.timings.pollInterval.millis ≤ wait.limit.millis := by omega
    rw [List.length_concat]
    exact Nat.succ_le_succ ((Nat.le_div_iff_mul_le hpos).2 hle)

end Punctual

theorem Undecided.concat (h : p.Undecided wait polls) {poll : Poll}
    (hpoll : p.attempt.verdict? wait poll.answer = none) : p.Undecided wait (polls ++ [poll]) := by
  intro other hother
  rcases List.mem_append.1 hother with hother | hother
  · exact h other hother
  · rw [List.mem_singleton.1 hother]
    exact hpoll

theorem BeginsToWait.deadline_eq (h : p.BeginsToWait s wait) (hclock : s.clock.IsPunctual) :
    wait.deadline = p.world.now + wait.limit.millis :=
  h.deadline.trans (hclock _ _)

theorem next_step_now (s : Settings) (q : Pursuit) : (q.next s .step).world.now = q.world.now :=
  q.attempt.step_now s q.world

/-! ## One poll -/

/-- The attempt is to make the next poll of a wait, at its time. -/
structure AtPoll (s : Settings) (p : Pursuit) (wait : Wait) (polls : List Poll) (q : Pursuit) :
    Prop where
  attempt : ∃ phase, q.attempt = { p.attempt with phase }
  turn : ∃ ticket, q.attempt.Polls q.world { wait with ticket }
  punctual : p.Punctual s wait polls
  undecided : p.Undecided wait polls
  now : q.world.now = p.world.now + polls.length * s.timings.pollInterval.millis
  inTime : q.world.now ≤ p.world.now + wait.limit.millis

namespace AtPoll

variable (h : p.AtPoll s wait polls q)
include h

theorem punctual_concat : p.Punctual s wait (polls ++ [q.attempt.pollIn q.world]) :=
  h.punctual.concat h.now h.inTime

theorem polled_eq : q.polled .step = [q.attempt.pollIn q.world] := by
  obtain ⟨ticket, hpolls⟩ := h.turn
  rw [polled, Attempt.polled?_of_polls hpolls]
  rfl

/-- The answers mean the same as at the start. -/
theorem verdict?_eq (ticket : Option Nat) :
    q.attempt.verdict? { wait with ticket } = p.attempt.verdict? wait := by
  obtain ⟨phase, hattempt⟩ := h.attempt
  rw [hattempt]
  rfl

/-- The poll decides the wait. -/
theorem returned {r : Except ScaleError (Option Workload)}
    (hv : p.attempt.verdict? wait (q.attempt.pollIn q.world).answer = some r) :
    p.Returned s wait (polls ++ [q.attempt.pollIn q.world]) (q.next s .step) := by
  obtain ⟨phase, hattempt⟩ := h.attempt
  obtain ⟨ticket, hpolls⟩ := h.turn
  have hstep : (q.next s .step).attempt = (q.attempt.poll s q.world { wait with ticket }).1 :=
    congrArg Prod.fst (Attempt.step_of_polls hpolls)
  refine ⟨h.punctual_concat, polls, _, r, ?_, h.undecided, hv, ?_⟩
  · rw [next_step_now]
    rfl
  · rw [hstep, Attempt.poll_of_verdict (h.verdict?_eq ticket ▸ hv), hattempt]
    rcases r with e | (_ | live) <;> rfl

variable (hv : p.attempt.verdict? wait (q.attempt.pollIn q.world).answer = none)
include hv

/-- The step of a poll that does not decide the wait. -/
theorem step_of_undecided : ∃ ticket, (q.next s .step).attempt =
    (if wait.deadline ≤ q.world.now then
      q.attempt.timeOut (q.world.fetch q.attempt.item.id).2 { wait with ticket }
    else q.attempt.sleepToPoll s (q.world.fetch q.attempt.item.id).2 { wait with ticket }).1 := by
  obtain ⟨ticket, hpolls⟩ := h.turn
  have hstep := (Attempt.step_of_polls hpolls).trans
    (Attempt.poll_of_undecided (s := s) (h.verdict?_eq ticket ▸ hv))
  exact ⟨ticket, congrArg Prod.fst hstep⟩

/-- The poll was the last one, right at the limit. -/
theorem expired (hpos : 0 < s.timings.pollInterval.millis)
    (hend : wait.deadline = p.world.now + wait.limit.millis)
    (hlate : wait.deadline ≤ q.world.now) :
    p.Expired s wait (polls ++ [q.attempt.pollIn q.world]) (q.next s .step) := by
  obtain ⟨phase, hattempt⟩ := h.attempt
  obtain ⟨ticket, hstep⟩ := h.step_of_undecided hv
  have hnow := h.now
  have hin := h.inTime
  refine ⟨h.punctual_concat, h.undecided.concat hv, ?_, ?_, ?_⟩
  · rw [List.length_append, List.length_singleton, Nat.succ_mul]
    omega
  · rw [next_step_now]
    omega
  · rw [hstep, if_pos hlate, hattempt]
    rfl

/-- The attempt sleeps up to the next poll. -/
theorem asleep (hclock : s.clock.IsPunctual) (hearly : ¬ wait.deadline ≤ q.world.now) :
    ∃ wake, p.Asleep s wait (polls ++ [q.attempt.pollIn q.world]) wake (q.next s .step) := by
  obtain ⟨phase, hattempt⟩ := h.attempt
  obtain ⟨ticket, hstep⟩ := h.step_of_undecided hv
  rw [if_neg hearly] at hstep
  have hfetch := (q.world.fetch_asked q.attempt.item.id).quiet.now
  obtain ⟨ticket', wake, hdue, hsleep⟩ := q.attempt.sleepToPoll_waiting s
    (q.world.fetch q.attempt.item.id).2 { wait with ticket }
  rw [hfetch, hclock] at hdue
  have hnow := h.now
  have hin := h.inTime
  have hlength : (polls ++ [q.attempt.pollIn q.world]).length * s.timings.pollInterval.millis =
      polls.length * s.timings.pollInterval.millis + s.timings.pollInterval.millis := by
    rw [List.length_append, List.length_singleton, Nat.succ_mul]
  refine ⟨wake, ⟨ticket', ?_⟩, h.punctual_concat, h.undecided.concat hv, ?_, ?_, ?_, ?_⟩
  · rw [hstep, hsleep, hattempt]
  · intro hle
    omega
  · intro hlt
    omega
  · rw [next_step_now]
    omega
  · rw [next_step_now]
    exact hin

end AtPoll

/-- **A poll at its time** decides the wait, or is the last one, or the attempt sleeps up to the
next one. -/
theorem AtPoll.next (h : p.AtPoll s wait polls q) (hbegins : p.BeginsToWait s wait)
    (hclock : s.clock.IsPunctual) (hpos : 0 < s.timings.pollInterval.millis) :
    p.WaitCourse s wait (polls ++ q.polled .step) (q.next s .step) := by
  rw [h.polled_eq]
  rcases hv : p.attempt.verdict? wait (q.attempt.pollIn q.world).answer with _ | r
  · by_cases hlate : wait.deadline ≤ q.world.now
    · exact .expired (h.expired hv hpos (hbegins.deadline_eq hclock) hlate)
    · obtain ⟨wake, hasleep⟩ := h.asleep hv hclock hlate
      exact .asleep hasleep
  · exact .returned (h.returned hv)

/-! ## One turn -/

namespace Asleep

variable (h : p.Asleep s wait polls wake q)
include h

theorem alarms_eq : ∃ ticket, q.attempt.alarms = [wake, ⟨wait.deadline, ticket⟩] := by
  obtain ⟨ticket, hattempt⟩ := h.attempt
  refine ⟨ticket, ?_⟩
  rw [hattempt]
  rfl

/-- Others have a turn while the attempt sleeps. -/
theorem others (hend : wait.deadline = p.world.now + wait.limit.millis) {w : World}
    (hw : q.Awaits (.others w)) : p.Asleep s wait polls wake (q.next s (.others w)) := by
  obtain ⟨ticket, hattempt⟩ := h.attempt
  obtain ⟨ticket', halarms⟩ := h.alarms_eq
  obtain ⟨-, -, htime⟩ := hw
  rw [halarms] at htime
  have hwake : w.now ≤ wake.due := htime wake (by simp)
  have hdeadline : w.now ≤ wait.deadline := htime ⟨wait.deadline, ticket'⟩ (by simp)
  rw [next_others (by rw [hattempt]; rfl)]
  exact ⟨h.attempt, h.punctual, h.undecided, h.due, h.late, hwake, hend ▸ hdeadline⟩

/-- Time can pass up to the alarm that rings first. -/
theorem awaits_first_alarm (hend : wait.deadline = p.world.now + wait.limit.millis) {w : World}
    (hw : w.now = min wake.due wait.deadline) :
    q.Awaits (.others w) ∧ (q.next s (.others w)).attempt.isAwaiting = true ∧
      (q.next s (.others w)).world = w := by
  obtain ⟨ticket, hattempt⟩ := h.attempt
  obtain ⟨ticket', halarms⟩ := h.alarms_eq
  have hawake := h.awake
  have hin := h.inTime
  have hawaits : q.attempt.isAwaiting = true := by rw [hattempt]; rfl
  have hleft : q.attempt.isAtRest = true := by rw [hattempt]; rfl
  rw [next_others hleft]
  refine ⟨⟨hawaits, by omega, ?_⟩, hawaits, rfl⟩
  intro alarm halarm
  simp only [halarms, List.mem_cons, List.not_mem_nil, or_false] at halarm
  rcases halarm with rfl | rfl
  · omega
  · show w.now ≤ wait.deadline
    omega

/-- The sleep is over. -/
theorem atPoll (hdue : wake.due ≤ q.world.now) : p.AtPoll s wait polls q := by
  obtain ⟨ticket, hattempt⟩ := h.attempt
  have hawake := h.awake
  have hin := h.inTime
  have hle : polls.length * s.timings.pollInterval.millis ≤ wait.limit.millis := by
    by_contra hlt
    have hlate := h.late (Nat.lt_of_not_le hlt)
    omega
  have hat := h.due hle
  refine ⟨⟨_, hattempt⟩, ⟨some ticket, .inr ⟨wake, ?_, hdue⟩⟩, h.punctual, h.undecided, ?_, hin⟩
  · rw [hattempt]
  · omega

theorem polled_eq_nil (hearly : ¬ wake.due ≤ q.world.now) : q.polled .step = [] := by
  obtain ⟨ticket, hattempt⟩ := h.attempt
  simp [polled, Attempt.polled?, hattempt, hearly]

/-- The wait is over before the sleep is. -/
theorem expired (hend : wait.deadline = p.world.now + wait.limit.millis)
    (hearly : ¬ wake.due ≤ q.world.now) (hlate : wait.deadline ≤ q.world.now) :
    p.Expired s wait polls (q.next s .step) := by
  obtain ⟨ticket, hattempt⟩ := h.attempt
  have hin := h.inTime
  have hstep : (q.next s .step).attempt =
      (q.attempt.timeOut q.world { wait with ticket := some ticket }).1 := by
    simp [Pursuit.next, Attempt.step, hattempt, hearly, hlate]
  refine ⟨h.punctual, h.undecided, ?_, ?_, ?_⟩
  · by_contra hlt
    have hat := h.due (Nat.le_of_not_lt hlt)
    omega
  · rw [next_step_now]
    omega
  · rw [hstep, hattempt]
    rfl

/-- Neither the sleep nor the wait is over. -/
theorem stays (hearly : ¬ wake.due ≤ q.world.now) (hlate : ¬ wait.deadline ≤ q.world.now) :
    p.Asleep s wait polls wake (q.next s .step) := by
  obtain ⟨ticket, hattempt⟩ := h.attempt
  have hstep : (q.next s .step).attempt = q.attempt := by
    simp [Pursuit.next, Attempt.step, hattempt, hearly, hlate]
  refine ⟨⟨ticket, hstep.trans hattempt⟩, h.punctual, h.undecided, h.due, h.late, ?_, ?_⟩
  · rw [next_step_now]
    exact h.awake
  · rw [next_step_now]
    exact h.inTime

/-- The attempt goes on when its sleep is over, and when the wait is. -/
theorem step (hbegins : p.BeginsToWait s wait) (hclock : s.clock.IsPunctual)
    (hpos : 0 < s.timings.pollInterval.millis) :
    p.WaitCourse s wait (polls ++ q.polled .step) (q.next s .step) := by
  by_cases hdue : wake.due ≤ q.world.now
  · exact (h.atPoll hdue).next hbegins hclock hpos
  · rw [h.polled_eq_nil hdue, List.append_nil]
    by_cases hlate : wait.deadline ≤ q.world.now
    · exact .expired (h.expired (hbegins.deadline_eq hclock) hdue hlate)
    · exact .asleep (h.stays hdue hlate)

end Asleep

namespace WaitCourse

theorem atPoll_of_begun (hbegins : p.BeginsToWait s wait) (hattempt : q.attempt = p.attempt)
    (hnow : q.world.now = p.world.now) : p.AtPoll s wait [] q :=
  ⟨⟨p.attempt.phase, hattempt⟩, ⟨wait.ticket, .inl (hattempt ▸ hbegins.phase)⟩, .nil s p wait,
    nofun, by simp [hnow], by omega⟩

/-- A wait is over when it returned or expired. -/
theorem over_of_not_isAwaiting (h : p.WaitCourse s wait polls q) (hbegins : p.BeginsToWait s wait)
    (hover : q.attempt.isAwaiting = false) :
    p.Returned s wait polls q ∨ p.Expired s wait polls q := by
  cases h with
  | begun hattempt =>
    rw [hattempt, Attempt.isAwaiting, hbegins.phase] at hover
    cases hover
  | asleep h =>
    obtain ⟨ticket, hattempt⟩ := h.attempt
    rw [hattempt] at hover
    cases hover
  | returned h => exact .inl h
  | expired h => exact .inr h

/-- A wait that goes on is not decided and within its limit. -/
theorem undecided_of_isAwaiting (h : p.WaitCourse s wait polls q)
    (hawaits : q.attempt.isAwaiting = true) :
    p.Undecided wait polls ∧ q.world.now ≤ p.world.now + wait.limit.millis := by
  cases h with
  | begun _ hnow => exact ⟨nofun, by omega⟩
  | asleep h => exact ⟨h.undecided, h.inTime⟩
  | returned h =>
    obtain ⟨_, _, _, _, _, _, hattempt⟩ := h.decided
    rw [hattempt, Attempt.isAwaiting_afterWait] at hawaits
    cases hawaits
  | expired h =>
    rw [h.attempt, Attempt.isAwaiting_afterWait] at hawaits
    cases hawaits

theorem punctual (h : p.WaitCourse s wait polls q) : p.Punctual s wait polls := by
  cases h with
  | begun => exact .nil s p wait
  | asleep h => exact h.punctual
  | returned h => exact h.punctual
  | expired h => exact h.punctual

section

variable (hbegins : p.BeginsToWait s wait) (hclock : s.clock.IsPunctual)
  (hpos : 0 < s.timings.pollInterval.millis)
include hbegins hclock hpos

/-- **A turn in the middle of a wait.** -/
theorem next (h : p.WaitCourse s wait polls q) {t : Turn} (ht : q.Awaits t) :
    p.WaitCourse s wait (polls ++ q.polled t) (q.next s t) := by
  cases h with
  | begun hattempt hnow =>
    cases t with
    | step => exact (atPoll_of_begun hbegins hattempt hnow).next hbegins hclock hpos
    | others w =>
      have hrest : q.attempt.isAtRest = false := by
        rw [hattempt, Attempt.isAtRest, hbegins.phase]
      rw [Pursuit.next, if_neg (by simp [hrest])]
      exact .begun hattempt hnow
  | asleep h =>
    cases t with
    | step => exact h.step hbegins hclock hpos
    | others w =>
      rw [polled, List.append_nil]
      exact .asleep (h.others (hbegins.deadline_eq hclock) ht)
  | returned h =>
    obtain ⟨_, _, _, _, _, _, hattempt⟩ := h.decided
    have hawaits := ht.1
    rw [hattempt, Attempt.isAwaiting_afterWait] at hawaits
    cases hawaits
  | expired h =>
    have hawaits := ht.1
    rw [h.attempt, Attempt.isAwaiting_afterWait] at hawaits
    cases hawaits

/-- **The wait from where it stands**: its polls add up. -/
theorem run (h : p.WaitCourse s wait polls q) {turns : List Turn}
    (hturns : AtEach (Pursuit.next s) Awaits q turns) :
    p.WaitCourse s wait (polls ++ q.polls s turns) (q.run s turns) := by
  induction turns generalizing polls q with
  | nil =>
    rw [Pursuit.polls, List.append_nil]
    exact h
  | cons t turns ih =>
    have hrest := ih (h.next hbegins hclock hpos hturns.1) hturns.2
    rw [Pursuit.polls, ← List.append_assoc]
    exact hrest

/-- A wait that is not over makes another poll or gets to its end, if need be after the rest of its
sleep, whatever becomes of the world meanwhile. -/
theorem exists_advance (h : p.WaitCourse s wait polls q) (hawaits : q.attempt.isAwaiting = true)
    {e : Nat → World} (he : ∀ t, (e t).now = t) :
    ∃ turns polls', (∀ t ∈ turns, t = .step ∨ ∃ i, t = .others (e i)) ∧
      AtEach (Pursuit.next s) Awaits q turns ∧ p.WaitCourse s wait polls' (q.run s turns) ∧
      ((q.run s turns).attempt.isAwaiting = false ∨ polls.length < polls'.length) := by
  cases h with
  | begun hattempt hnow =>
    have hpoll := atPoll_of_begun (s := s) hbegins hattempt hnow
    refine ⟨[.step], _, by simp, ⟨⟨hawaits, trivial⟩, trivial⟩, hpoll.next hbegins hclock hpos, ?_⟩
    simp [hpoll.polled_eq]
  | @asleep _ wake _ h =>
    have hend := hbegins.deadline_eq hclock
    let rings := min wake.due wait.deadline
    obtain ⟨hothers, hsame, hworld⟩ := h.awaits_first_alarm (s := s) hend (he rings)
    have hasleep := h.others hend hothers
    have hnow : (q.next s (.others (e rings))).world.now = rings := by rw [hworld, he]
    have hturns : AtEach (Pursuit.next s) Awaits q [.others (e rings), .step] :=
      ⟨hothers, ⟨hsame, trivial⟩, trivial⟩
    by_cases hfirst : wake.due ≤ wait.deadline
    · have hpoll := hasleep.atPoll (by omega)
      refine ⟨_, _, by simp, hturns, hpoll.next hbegins hclock hpos, .inr ?_⟩
      simp [hpoll.polled_eq]
    · have hexpired := hasleep.expired hend (by omega) (by omega)
      refine ⟨_, _, by simp, hturns, .expired hexpired, .inl ?_⟩
      rw [run_cons, run_cons, run_nil, hexpired.attempt, Attempt.isAwaiting_afterWait]
  | returned h =>
    obtain ⟨_, _, _, _, _, _, hattempt⟩ := h.decided
    rw [hattempt, Attempt.isAwaiting_afterWait] at hawaits
    cases hawaits
  | expired h =>
    rw [h.attempt, Attempt.isAwaiting_afterWait] at hawaits
    cases hawaits

/-- **The wait gets to its end**, whatever becomes of the world. -/
theorem exists_over (h : p.WaitCourse s wait polls q) {e : Nat → World}
    (he : ∀ t, (e t).now = t) :
    ∃ turns, (∀ t ∈ turns, t = .step ∨ ∃ i, t = .others (e i)) ∧
      AtEach (Pursuit.next s) Awaits q turns ∧ (q.run s turns).attempt.isAwaiting = false := by
  -- each poll leaves fewer to be made
  induction hleft : wait.limit.millis / s.timings.pollInterval.millis + 1 - polls.length
    using Nat.strongRecOn generalizing polls q with
  | _ left ih =>
    cases hawaits : q.attempt.isAwaiting with
    | false => exact ⟨[], nofun, trivial, hawaits⟩
    | true =>
      obtain ⟨turns, polls', honly, hturns, hcourse, hadvance⟩ :=
        h.exists_advance hbegins hclock hpos hawaits he
      rcases hadvance with hover | hmore
      · exact ⟨turns, honly, hturns, hover⟩
      · have hbound := hcourse.punctual.length_le hpos
        obtain ⟨more, honly', hmore, hover⟩ := ih _ (by omega) hcourse rfl
        refine ⟨turns ++ more, ?_, AtEach.append.2 ⟨hturns, hmore⟩, ?_⟩
        · intro t ht
          exact (List.mem_append.1 ht).elim (honly t) (honly' t)
        · rw [run_append]
          exact hover

end

end WaitCourse

/-! ## Main theorem -/

/-- In its turns the attempt makes no update request and leaves the cluster as it is. -/
def WritesNothing (s : Settings) (q : Pursuit) (t : Turn) : Prop :=
  q.requests t = 0 ∧ (t = .step → (q.next s t).world.cluster = q.world.cluster)

theorem writesNothing_of_awaits (h : q.attempt.isAwaiting = true) (t : Turn) :
    q.WritesNothing s t := by
  refine ⟨?_, ?_⟩
  · cases t with
    | step => rw [requests, Attempt.updates_of_isAwaiting h]; rfl
    | others w => rfl
  · rintro rfl
    exact Attempt.step_cluster_of_isAwaiting h

/-- A step towards another count begins with a wait, whose limit is the progress deadline of the
workload and the slack. -/
theorem beginsToWait_of_deciding (hdeciding : p.attempt.phase = .deciding)
    (hphase : (p.next s .step).attempt.phase = .polling wait) :
    (p.next s .step).BeginsToWait s wait ∧
      wait.limit.millis =
        p.attempt.current.progressDeadline * 1000 + s.timings.stepSlack.millis ∧
      wait.step = oneToward p.attempt.current.spec wait.desired := by
  have hstep : p.attempt.step s p.world = p.attempt.decide s p.world := by
    simp only [Attempt.step, hdeciding]
  have hdecide : (p.attempt.decide s p.world).1.phase = .polling wait := by
    rw [← hstep]
    exact hphase
  have hwait : wait.limit = p.attempt.limit s ∧
      wait.deadline = s.clock.wake p.world.now wait.limit ∧
      wait.step = oneToward p.attempt.current.spec wait.desired := by
    unfold Attempt.decide at hdecide
    dsimp only at hdecide
    split at hdecide
    · cases hdecide
    · split at hdecide
      · cases hdecide
      · split at hdecide
        · cases hdecide
          exact ⟨rfl, rfl, rfl⟩
        · cases hdecide
  obtain ⟨hlimit, hdeadline, hcount⟩ := hwait
  refine ⟨⟨hphase, ?_⟩, ?_, hcount⟩
  · rw [hdeadline, next_step_now]
  · rw [hlimit]
    rfl

/-- In step mode an attempt that has a step to take begins to wait, if the limit of the wait can be
computed; else it breaks off. -/
theorem begins_or_breaks_off (hdeciding : p.attempt.phase = .deciding)
    (hmode : s.config.mode = .step)
    (hne : p.attempt.current.spec ≠ p.attempt.desired p.world.registry) :
    if Attempt.isTimeLimit (p.attempt.limit s) then
      ∃ wait, (p.next s .step).attempt.phase = .polling wait
    else (p.next s .step).attempt.phase = .aborted := by
  have hstep : (p.next s .step).attempt = (p.attempt.decide s p.world).1 := by
    simp only [next, Attempt.step, hdeciding]
  rw [hstep, Attempt.decide]
  dsimp only
  rw [if_neg hne]
  simp only [hmode]
  split
  · exact ⟨_, rfl⟩
  · rfl

/-- **The wait for readiness ends in time, with the first poll that decides it.**  In step mode an
attempt that is to move its workload by one replica waits until the workload is ready, at most for
its progress deadline and the slack, unless their sum in seconds does not fit an unsigned 64 bit
word; then it breaks off.

On a clock on which every sleep lasts as long as it is asked to, it polls at the start of the wait
and after each interval, up to the limit, and so no more often than intervals fit the limit, and
once more.  It writes nothing.  It waits as long as no poll decides the wait and the limit is not
reached.  If it waits no longer, then the last poll decided the wait right now, and none before it;
or no poll up to the limit did, which is reached right now.  Whatever becomes of the world as time
goes on, the wait gets to its end. -/
theorem readiness_wait (s : Settings) (hclock : s.clock.IsPunctual)
    (hpos : 0 < s.timings.pollInterval.millis) :
    (∀ p : Pursuit, p.attempt.phase = .deciding → s.config.mode = .step →
      p.attempt.current.spec ≠ p.attempt.desired p.world.registry →
      if Attempt.isTimeLimit (p.attempt.limit s) then
        ∃ wait, (p.next s .step).attempt.phase = .polling wait
      else (p.next s .step).attempt.phase = .aborted) ∧
    (∀ (p : Pursuit) wait, p.attempt.phase = .deciding →
      (p.next s .step).attempt.phase = .polling wait →
      (p.next s .step).BeginsToWait s wait ∧
        wait.limit.millis =
          p.attempt.current.progressDeadline * 1000 + s.timings.stepSlack.millis ∧
        wait.step = oneToward p.attempt.current.spec wait.desired) ∧
    (∀ (p : Pursuit) wait, p.BeginsToWait s wait →
      ∀ turns, AtEach (next s) Awaits p turns →
        let q := p.run s turns
        let polls := p.polls s turns
        p.Punctual s wait polls ∧
        polls.length ≤ wait.limit.millis / s.timings.pollInterval.millis + 1 ∧
        AtEach (next s) (WritesNothing s) p turns ∧
        (q.attempt.isAwaiting = true →
          p.Undecided wait polls ∧ q.world.now ≤ p.world.now + wait.limit.millis) ∧
        (q.attempt.isAwaiting = false →
          p.Returned s wait polls q ∨ p.Expired s wait polls q) ∧
        ∀ e : Nat → World, (∀ t, (e t).now = t) →
          ∃ more, (∀ t ∈ more, t = .step ∨ ∃ i, t = .others (e i)) ∧
            AtEach (next s) Awaits p (turns ++ more) ∧
            (p.run s (turns ++ more)).attempt.isAwaiting = false) := by
  refine ⟨fun p => begins_or_breaks_off, fun p wait => beginsToWait_of_deciding, ?_⟩
  intro p wait hbegins turns hturns q polls
  have hcourse : p.WaitCourse s wait polls q :=
    (WaitCourse.begun rfl rfl).run hbegins hclock hpos hturns
  refine ⟨hcourse.punctual, hcourse.punctual.length_le hpos, ?_, hcourse.undecided_of_isAwaiting,
    hcourse.over_of_not_isAwaiting hbegins, ?_⟩
  · exact hturns.imp fun q t ht => writesNothing_of_awaits ht.1 t
  · intro e he
    obtain ⟨more, honly, hmore, hover⟩ := hcourse.exists_over hbegins hclock hpos he
    refine ⟨more, honly, AtEach.append.2 ⟨hturns, hmore⟩, ?_⟩
    rw [run_append]
    exact hover

/-- A workload with one replica, of which none is ready, and a target of three. -/
def stalled : Workload := { Workload.sample ⟨.deployment, "shop", "api"⟩ "3" with spec := 1 }

/-- Polls for a workload that never becomes ready, every 400 s up to the limit of 660 s, are two.
The wait for one that becomes ready meanwhile returns at the second poll. -/
theorem readiness_wait_stalled_and_ready :
    let s : Settings := .standard .step
    let slow : Settings := { s with timings := { s.timings with pollInterval := ⟨400000⟩ } }
    let wait : Wait := { desired := 3, step := 2, limit := ⟨660000⟩, deadline := 660000 }
    let p := (launch stalled ⟨"up", 3⟩ (.holding [stalled])).run slow [.step, .step]
    let ready := [Turn.step,
      .others { World.holding [{ stalled with ready := 1 }] with now := 400000 }, .step]
    let never := [Turn.step, .others { World.holding [stalled] with now := 400000 }, .step,
      .others { World.holding [stalled] with now := 660000 }, .step]
    (p.Returned slow wait (p.polls slow ready) (p.run slow ready) ∧
      (p.run slow ready).world.now = 400000 ∧
      (p.run slow ready).attempt.phase = .writing 2 0) ∧
    (p.Expired slow wait (p.polls slow never) (p.run slow never) ∧
      (p.polls slow never).length = 2 ∧
      (p.run slow never).attempt.ending? =
        some (.failed (.stepTimeout stalled.key 2 ⟨660000⟩))) := by
  intro s slow wait p ready never
  have hpos : 0 < slow.timings.pollInterval.millis := by decide
  obtain ⟨-, hbegins, hwaits⟩ := readiness_wait slow Clock.isPunctual_punctual hpos
  have hbegin : p.BeginsToWait slow wait :=
    (hbegins ((launch stalled ⟨"up", 3⟩ (.holding [stalled])).run slow [.step]) wait
      (by decide +kernel) (by decide +kernel)).1
  refine ⟨⟨?_, by decide +kernel, by decide +kernel⟩, ?_, by decide +kernel, by decide +kernel⟩
  · have hturns : AtEach (next slow) Awaits p ready := by decide +kernel
    have hover : (p.run slow ready).attempt.isAwaiting = false := by decide +kernel
    have hearly : (p.run slow ready).world.now ≠ p.world.now + wait.limit.millis := by
      decide +kernel
    obtain ⟨-, -, -, -, hends, -⟩ := hwaits p wait hbegin ready hturns
    exact (hends hover).resolve_right fun h => hearly h.now
  · have hturns : AtEach (next slow) Awaits p never := by decide +kernel
    have hover : (p.run slow never).attempt.isAwaiting = false := by decide +kernel
    have hundecided : ∀ poll ∈ p.polls slow never,
        (p.attempt.verdict? wait poll.answer).isNone = true := by decide +kernel
    obtain ⟨-, -, -, -, hends, -⟩ := hwaits p wait hbegin never hturns
    refine (hends hover).resolve_left ?_
    rintro ⟨-, earlier, answer, r, hpolls, -, hr, -⟩
    have hnone := hundecided _ (hpolls ▸ List.mem_append_right _ (List.mem_singleton.2 rfl))
    rw [hr] at hnone
    cases hnone

/-- With the largest time that a configuration can allow beyond the progress deadline, the limit of
the wait cannot be computed: the attempt breaks off without a poll, although its workload is
ready. -/
theorem not_readiness_wait_largest_slack :
    let x : Workload :=
      { Workload.sample ⟨.deployment, "shop", "api"⟩ "3" with spec := 1, ready := 1 }
    let s : Settings :=
      { Settings.standard .step with
        config := { mode := .step, stepSlack := "18446744073709551615s" }
        timings :=
          { (Settings.standard .step).timings with stepSlack := ⟨18446744073709551615000⟩ } }
    let p := (launch x ⟨"up", 3⟩ (.holding [x])).run s [.step]
    s.config.timings = .ok s.timings ∧ 0 < s.timings.pollInterval.millis ∧
      p.attempt.phase = .deciding ∧ p.attempt.current.spec = 1 ∧
      p.attempt.desired p.world.registry = 3 ∧ p.polls s [.step] = [] ∧
      (p.run s [.step]).attempt.phase = .aborted := by
  intro x s p
  have htimings : s.config.timings = .ok s.timings := by decide +kernel
  exact ⟨htimings, by decide, by decide +kernel, by decide +kernel, by decide +kernel, rfl,
    by decide +kernel⟩

end Pursuit

end ReplicaControl
