import EcuPoll.Engine.Operation

/-!
# Commands

What reaches the poller through its queue. A command is carried out on the engines one after the
other; `Outcome` is what comes of it, and when.
-/

namespace EcuPoll

inductive Command
  /-- An operation of the engine of one bus, or of all engines. -/
  | operate (bus : Option BusId) (operation : Operation)
  | single (bus : BusId) (request : SingleRequest)
  | status
  | shutdown
deriving Repr

/-- What a command has brought about. -/
structure Outcome where
  engines : List Engine
  /-- When the last engine was done, in ms. -/
  finish : Nat
  /-- In the order in which they happened. -/
  events : List Stamped

/-- Carries out an operation from time `now` on. Each engine begins when the one before it is done. -/
def operateOn (bus : Option BusId) (operation : Operation) (now : Nat) : List Engine → Outcome
  | [] => ⟨[], now, []⟩
  | e :: es =>
    if bus.all (· = e.bus) then
      let (events, e) := ({ e with now }.step operation).takeLog
      let rest := operateOn bus operation e.now es
      ⟨e :: rest.engines, rest.finish, events ++ rest.events⟩
    else
      let rest := operateOn bus operation now es
      ⟨e :: rest.engines, rest.finish, rest.events⟩

namespace Command

/-- Carries out a command from time `now` on. A single request needs an engine for its bus. -/
def carryOut (now : Nat) (engines : List Engine) : Command → Outcome
  | .operate bus operation => operateOn bus operation now engines
  | .single bus request =>
    if engines.any (·.bus = bus) then operateOn (some bus) (.submit request) now engines
    else ⟨engines, now, [⟨now, .singleResolved request.ticket (.error .unavailable)⟩]⟩
  | .status => ⟨engines, now, []⟩
  | .shutdown => operateOn none .shutdown now engines

/-- The caller of a single request gives up at time `start`. -/
def abandon (ticket start : Nat) : Command → Command
  | .single bus request =>
    .single bus (if request.ticket = ticket then request.abandon start else request)
  | c => c

/-- The command asks for this single request. -/
def isSingle (ticket : Nat) : Command → Bool
  | .single _ request => request.ticket == ticket
  | _ => false

end Command

namespace Engine

/-- The caller of a single request gives up at time `start`. -/
def abandon (e : Engine) (ticket start : Nat) : Engine :=
  let give := fun (r : SingleRequest) => if r.ticket = ticket then r.abandon start else r
  { e with
    single := e.single.map fun c => { c with request := give c.request }
    queued := e.queued.map give }

/-- The line of the engine has this room from time `start` on. -/
def changeRoom (e : Engine) (start : Nat) (room : Room) : Engine :=
  { e with line := e.line.change start room }

end Engine

end EcuPoll
