import EcuPoll.Poller.Clock

/-!
# Using a poller

The calls of a running poller: operations of its engines, single requests, status and shutdown. A
call waits as long as the queue is full. After a shutdown every call fails.
-/

namespace EcuPoll.Poller

/-- The queue has room for all commands. -/
def hasRoom (p : Poller) : Bool :=
  p.pending.length ≤ p.settings.commandQueue

/-- Puts a command behind all others. -/
def push (p : Poller) (command : Command) : Poller :=
  { p with pending := p.pending ++ [command] }.proceed

/-- Sends a command, and waits until it is in the queue. -/
def send (p : Poller) (command : Command) : Except PollerError Unit × Poller :=
  if p.running then (.ok (), (p.push command).await hasRoom) else (.error .notRunning, p)

/-- An operation of one engine or of all. Separation times are checked before anything is sent. -/
def operate (p : Poller) (bus : Option BusId) (operation : Operation) :
    Except PollerError Unit × Poller :=
  match operation with
  | .setSeptime septime =>
    match PollerSettings.checkSeptime septime with
    | .ok () => p.send (.operate bus operation)
    | .error fault => (.error (.config fault), p)
  | _ => p.send (.operate bus operation)

/-- The status of all engines, once all that was sent before is done. -/
def status (p : Poller) : Except PollerError (List Status) × Poller :=
  let answered := fun (p : Poller) => p.reply.isSome || !p.running
  let p := ({ p with reply := none }.send .status).2.await answered
  match p.reply with
  | some reply => (.ok reply, p)
  | none => (.error .notRunning, p)

/-- Stops the poller, once all that was sent before is done. -/
def shutdown (p : Poller) : Except PollerError Unit × Poller :=
  match p.send .shutdown with
  | (.ok (), p) => (.ok (), p.await (!·.running))
  | r => r

/-- Nobody can reach the poller any more: it stops when it has done what was sent. -/
def hangUp (p : Poller) : Poller :=
  p.push .shutdown

/-! ### Single requests -/

/-- Asks a module for one response. The result is found under the request's ticket later on; a request
that cannot be sent has its result at once. -/
def request (p : Poller) (bus : BusId) (tx rx : UInt32) (request : List UInt8)
    (timeout : Option Nat) (protocol : Protocol) : Poller :=
  let ticket := p.nextTicket
  let deadline := p.now + timeout.getD p.settings.singleTimeoutMs
  let caller : Caller := ⟨ticket, deadline + p.grace⟩
  let p := { p with nextTicket := ticket + 1, callers := p.callers ++ [caller] }
  match singleEntry tx rx request protocol with
  | .error fault => p.resolve ticket p.now (.error (.invalidRequest fault))
  | .ok entry =>
    if p.running then p.expire.push (.single bus ⟨ticket, entry, deadline, none⟩)
    else p.resolve ticket p.now (.error .unavailable)

/-- Asks for a PID without any data. -/
def requestPid (p : Poller) (bus : BusId) (tx rx : UInt32) (service : UInt8) (pid : UInt16)
    (timeout : Option Nat) (protocol : Protocol) : Poller :=
  p.request bus tx rx (requestHeader service pid) timeout protocol

/-- Something outside the poller changes. While there is work it counts from the next millisecond
on. -/
def change (p : Poller) (engine : Nat → Engine → Engine) (command : Nat → Command → Command) :
    Poller :=
  let pending := p.pending.map (command p.now)
  match p.work with
  | none => { p with pending, engines := p.engines.map (engine p.now) }
  | some w =>
    { p with pending, work := some (w.again (engine (p.now + 1)) (command (p.now + 1))) }

/-- The caller of a single request gives up, and never learns its result. -/
def cancel (p : Poller) (ticket : Nat) : Poller :=
  if p.callers.any (·.ticket = ticket) then
    let p := { p with callers := p.callers.filter (·.ticket ≠ ticket) }.withdraw ticket
    p.change (fun start e => e.abandon ticket start) (fun start c => c.abandon ticket start)
  else p

/-- A bus takes so many more writes. -/
def setRoom (p : Poller) (bus : BusId) (room : Room) : Poller :=
  p.change (fun start e => if e.bus = bus then e.changeRoom start room else e) (fun _ c => c)

/-- The result of a single request, if its caller has it. -/
def result? (p : Poller) (ticket : Nat) : Option SingleResult :=
  (p.finished.find? (·.ticket = ticket)).map (·.result)

/-- What has become known since it was last taken: events in order and results by ticket. -/
def take (p : Poller) : List Stamped × List Finished × Poller :=
  (p.log.reverse, p.finished.mergeSort (fun a b => a.ticket ≤ b.ticket),
    { p with log := [], finished := [] })

end EcuPoll.Poller
