import EcuPoll.Poller.Command
import EcuPoll.Settings.Poller

/-!
# The running poller

One task owns all engines and carries out one command after the other. A command may take time: it
then is `Work` in progress, whose events become known as their time comes. What changes from outside
in the meantime, a bus or a caller that gives up, counts from the next millisecond on, so the work is
carried out again from its start with the change in it; all that has already happened stays as it was.

Commands are taken in order. The queue has room for so many; those behind have not been sent yet.
-/

namespace EcuPoll

/-- A command in progress. -/
structure Work where
  command : Command
  /-- When it began, in ms. -/
  start : Nat
  /-- The engines when it began. -/
  before : List Engine
  outcome : Outcome
  /-- The number of its events that are known. -/
  shown : Nat

namespace Work

def begin (command : Command) (start : Nat) (engines : List Engine) : Work :=
  ⟨command, start, engines, command.carryOut start engines, 0⟩

/-- The same command with something changed from the outside. -/
def again (w : Work) (change : Engine → Engine) (changeCommand : Command → Command) : Work :=
  { begin (changeCommand w.command) w.start (w.before.map change) with shown := w.shown }

/-- The events before time `limit` that are not known yet. -/
def news (w : Work) (limit : Nat) : List Stamped :=
  (w.outcome.events.drop w.shown).takeWhile (·.time < limit)

end Work

/-- Somebody who waits for the result of a single request. -/
structure Caller where
  ticket : Nat
  deadline : Nat
deriving DecidableEq, Repr

/-- The result of a single request as its caller saw it. -/
structure Finished where
  ticket : Nat
  /-- In ms. -/
  time : Nat
  result : SingleResult

structure Poller where
  settings : PollerSettings
  /-- The time in ms. -/
  now : Nat
  /-- By bus number, as the last finished command left them. -/
  engines : List Engine
  running : Bool
  /-- Commands not yet begun, the oldest first. -/
  pending : List Command
  work : Option Work
  callers : List Caller
  /-- By how many ms callers are late to notice that they have waited long enough. -/
  grace : Nat
  /-- The ticket of the next single request. -/
  nextTicket : Nat
  /-- When the timer ticks next. -/
  nextTick : Option Nat
  /-- Ticks of the timer so far. -/
  ticks : Nat
  /-- The answer to a status command. -/
  reply : Option (List Status)
  /-- Events that nobody has taken yet, the newest first. -/
  log : List Stamped
  /-- Results that nobody has taken yet, the newest first. -/
  finished : List Finished

namespace Poller

/-- Puts an engine in its place by bus number; one that is there for the bus already is replaced. -/
def insertEngine (e : Engine) : List Engine → List Engine
  | [] => [e]
  | f :: fs =>
    if e.bus.number < f.bus.number then e :: f :: fs
    else if e.bus = f.bus then e :: fs
    else f :: insertEngine e fs

/-- A poller at time 0, with an engine for each bus. -/
def new (settings : PollerSettings) (engines : List Engine) : Poller where
  settings
  now := 0
  engines := engines.foldl (fun es e => insertEngine e es) []
  running := true
  pending := []
  work := none
  callers := []
  grace := 0
  nextTicket := 0
  nextTick := settings.tickPeriod
  ticks := 0
  reply := none
  log := []
  finished := []

/-! ### Results of single requests -/

/-- A caller who still waits gets a result. -/
def resolve (p : Poller) (ticket time : Nat) (result : SingleResult) : Poller :=
  if p.callers.any (·.ticket = ticket) then
    { p with
      callers := p.callers.filter (·.ticket ≠ ticket)
      finished := ⟨ticket, time, result⟩ :: p.finished }
  else p

/-- An event becomes known. -/
def note (p : Poller) (s : Stamped) : Poller :=
  let p := { p with log := s :: p.log }
  match s.event with
  | .singleResolved ticket result => p.resolve ticket s.time result
  | .singleDropped ticket => p.resolve ticket s.time (.error .unavailable)
  | _ => p

/-- The events before time `limit` become known. -/
def reveal (p : Poller) (limit : Nat) : Poller :=
  match p.work with
  | none => p
  | some w =>
    let news := w.news limit
    news.foldl note { p with work := some { w with shown := w.shown + news.length } }

/-- A single request that has not been sent yet is not sent any more. -/
def withdraw (p : Poller) (ticket : Nat) : Poller :=
  let queue := p.settings.commandQueue
  { p with pending :=
      p.pending.take queue ++ (p.pending.drop queue).filter (!·.isSingle ticket) }

/-- Callers who have waited long enough time out. -/
def expire (p : Poller) : Poller :=
  (p.callers.filter (·.deadline ≤ p.now)).foldl
    (fun p c => (p.resolve c.ticket c.deadline (.error .timeout)).withdraw c.ticket) p

/-! ### Carrying out commands -/

/-- The poller has stopped: commands that were not begun are lost. -/
def stop (p : Poller) : Poller :=
  p.pending.foldl
    (fun p c => match c with
      | .single _ request => p.resolve request.ticket p.now (.error .unavailable)
      | _ => p)
    { p with running := false, pending := [] }

/-- The work in progress is done. -/
def complete (p : Poller) : Poller :=
  match p.work with
  | none => p
  | some w =>
    let p := (w.outcome.events.drop w.shown).foldl note
      { p with work := none, engines := w.outcome.engines }
    match w.command with
    | .status => { p with reply := some (p.engines.map Engine.status) }
    | .shutdown => p.stop
    | _ => p

/-- Begins a command, and completes it if it takes no time. -/
def begin (p : Poller) (command : Command) : Poller :=
  let w := Work.begin command p.now p.engines
  let p := { p with work := some w }
  if w.outcome.finish ≤ p.now then p.complete else p.reveal (p.now + 1)

/-- Begins commands in order until one takes time. -/
def serve : List Command → Poller → Poller
  | [], p => p
  | c :: cs, p =>
    if p.work.isSome || !p.running then p else serve cs ({ p with pending := cs }.begin c)

/-- Carries on as far as it goes without time passing. -/
def proceed (p : Poller) : Poller :=
  serve p.pending p

end Poller

end EcuPoll
