import EcuPoll.CommandLine.Failure
import EcuPoll.CommandLine.Invocation
import EcuPoll.Poller.Handle
import EcuPoll.Settings.Read

/-!
# Running the program

What an invocation does, given the text of its settings file. All buses are mock buses, on which nobody
answers; a CAN interface of the system cannot be opened. `Invocation.run` sends a single request and
waits for its result, `Invocation.start` makes a poller that polls the table of the settings.
-/

namespace EcuPoll

/-- The engine of a bus. -/
def BusSettings.open? (settings : EngineSettings) (b : BusSettings) : Except RunFailure Engine :=
  match BusId.ofNat? b.number.toNat, b.kind with
  | none, _ => .error (.busNumber b.number.toNat)
  | some id, .mock name => .ok (.new id name false settings)
  | some _, .socketCan interface =>
    .error (.bus (.openFailed
      ("Failed to open raw CAN socket on " ++ interface ++ ": No such device (os error 19)")))

namespace DaemonSettings

/-- A poller with all buses. Its callers run beside it, so they notice the end of their time only when
the poller has done what is due at the same time. -/
def newPoller (s : DaemonSettings) : Except RunFailure Poller := do
  let engines ← s.allBuses.mapM (·.open? s.poller.engine)
  return { Poller.new s.poller engines with grace := 1 }

/-- A poller with the poll table installed and the poll state set. -/
def start (s : DaemonSettings) : Except RunFailure Poller := do
  let p ← s.newPoller
  match s.pollList, s.defaultBusId with
  | .ok list, .ok defaultBus =>
    let p :=
      if list.isEmpty then p else (p.operate none (.setList (some list) (some defaultBus))).2
    return (p.operate none (.setState s.state.toNat)).2
  | .error fault, _ | _, .error fault => .error (.argument fault)

end DaemonSettings

namespace RequestArgs

/-- Sends the request and lets time pass until its caller knows the result. -/
def send (r : RequestArgs) (p : Poller) : Except RunFailure (List UInt8) := do
  let some bus := BusId.ofNat? r.bus | .error (.busNumber r.bus)
  let tx ← (Field.number r.txId).mapError .argument
  let rx ← (Field.number r.rxId).mapError .argument
  let request ← (Field.bytes r.request).mapError .argument
  let ticket := p.nextTicket
  let known := fun (p : Poller) => (p.result? ticket).isSome
  let ms := r.timeoutMs.getD p.settings.singleTimeoutMs + p.grace
  let p := p.request bus (.ofNat tx) (.ofNat rx) request r.timeoutMs r.protocol
  match (p.runUntil known none (p.alarmBound ms)).result? ticket with
  | some (.ok response) => .ok response
  | some (.error error) => .error (.request error)
  | none => .error (.request .timeout)

end RequestArgs

namespace Invocation

/-- The settings to use: those in the file of which this is the text, or the defaults if no file is
named. -/
def settings (i : Invocation) (file : Option String) : Except RunFailure DaemonSettings :=
  match i.config, file with
  | none, _ => .ok {}
  | some path, none => .error (.noSettings path)
  | some path, some text => (DaemonSettings.ofText text).mapError (.badSettings path)

/-- The response to a single request. -/
def run (i : Invocation) (request : RequestArgs) (file : Option String) :
    Except RunFailure (List UInt8) := do
  request.send (← (← i.settings file).newPoller)

/-- The poller that works on when there is no single request. -/
def start (i : Invocation) (file : Option String) : Except RunFailure Poller := do
  (← i.settings file).start

end Invocation

/-- What is printed for a response. -/
def responseLine (response : List UInt8) : String :=
  Hex.encode response ++ "\n"

end EcuPoll
