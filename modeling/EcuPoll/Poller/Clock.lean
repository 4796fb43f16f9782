import EcuPoll.Poller.Basic

/-!
# The poller in time

Time moves from one `Alarm` to the next: a caller's deadline, the end of the work in progress, the
timer, a delayed chained poll. Timer and chained polls have to wait while there is work.
-/

namespace EcuPoll

inductive Alarm
  | deadline
  | workDone
  | tick
  | chainedPoll
deriving DecidableEq, Repr

namespace Poller

/-- The alarms to come and their times. At the same time the one named first goes first. -/
def alarms (p : Poller) : List (Nat × Alarm) :=
  p.callers.map (fun c => (c.deadline, .deadline)) ++
    if !p.running then []
    else
      match p.work with
      | some w => [(w.outcome.finish, .workDone)]
      | none =>
        (p.nextTick.map fun t => (t, Alarm.tick)).toList ++
          p.engines.filterMap fun e => e.successDue.map fun t => (t, .chainedPoll)

/-- The alarm that goes off first, not before now. -/
def nextAlarm? (p : Poller) : Option (Nat × Alarm) :=
  (p.alarms.map fun a => (max p.now a.1, a.2)).foldl
    (fun first a => match first with
      | none => some a
      | some b => if a.1 < b.1 then some a else some b)
    none

/-- A tick that is late by more than this many ms moves all later ones. -/
def tickTolerance : Nat := 5

/-- When the timer ticks after a tick that was due at `due` and came at `now`. -/
def tickAfter (period due now : Nat) : Nat :=
  if due + tickTolerance < now then now + period else due + period

/-- The timer ticks. -/
def timerTick (p : Poller) : Poller :=
  let primary := p.ticks % max 1 p.settings.secondaryTicks.toNat = 0
  let nextTick := p.nextTick.map fun due => tickAfter p.settings.tickMs due p.now
  { p with nextTick, ticks := p.ticks + 1 }.begin (.operate none (.tick primary))

/-- What an alarm does at its time. -/
def ring (p : Poller) : Alarm → Poller
  | .deadline => p
  | .workDone => p.complete.proceed
  | .tick => p.timerTick
  | .chainedPoll => p.begin (.operate none .sendSuccess)

/-- The time comes to `time`. -/
def moveTo (p : Poller) (time : Nat) : Poller :=
  { p.reveal time with now := time }.expire.reveal (time + 1)

/-- Lets alarms go off in order, at most `fuel` of them and none after `limit`, until `done`. -/
def runUntil (done : Poller → Bool) (limit : Option Nat) : Nat → Poller → Poller
  | 0, p => p
  | fuel + 1, p =>
    if done p then p
    else
      match p.nextAlarm? with
      | none => p
      | some (time, alarm) =>
        if limit.any (· < time) then p else runUntil done limit fuel ((p.moveTo time).ring alarm)

/-- More alarms than can go off in `ms`: each caller's, the end of each command, and in each
millisecond one chained poll and a few late ticks, with the ends of their work. -/
def alarmBound (p : Poller) (ms : Nat) : Nat :=
  p.callers.length + p.pending.length + 1 + 4 * (tickTolerance + 2) * (ms + 1)

/-- Time passes. -/
def advance (p : Poller) (ms : Nat) : Poller :=
  (runUntil (fun _ => false) (some (p.now + ms)) (p.alarmBound ms) p).moveTo (p.now + ms)

/-- Lets time pass until `done`, which only waits for callers and commands. -/
def await (p : Poller) (done : Poller → Bool) : Poller :=
  runUntil done none (p.callers.length + p.pending.length + 1) p

end Poller

end EcuPoll
