import EcuPoll.Settings.Poll
import EcuPoll.Settings.Poller

/-!
# Settings of the daemon

Everything that a settings file holds: the poller, the buses, the poll state to begin with and the poll
table. Without any bus there is one mock bus, on the default bus number. `DaemonSettings.validate`
judges the poller first, then the bus numbers in order, the default bus and at last the poll table.
-/

namespace EcuPoll

/-- What is behind a bus. -/
inductive BusKind
  /-- A CAN interface of the system. -/
  | socketCan (interface : String)
  /-- A bus without any wire. -/
  | mock (name : String)
deriving DecidableEq, Repr

namespace BusKind

def defaultMockName : String := "mock"

/-- The word for the kind in a settings file. -/
def word : BusKind → String
  | .socketCan _ => "socketcan"
  | .mock _ => "mock"

/-- The name of a mock bus. -/
def mockName? : BusKind → Option String
  | .socketCan _ => none
  | .mock name => some name

/-- What the bus is called: its interface or its name. -/
def name : BusKind → String
  | .socketCan name | .mock name => name

end BusKind

structure BusSettings where
  number : UInt8
  kind : BusKind
deriving DecidableEq, Repr

structure DaemonSettings where
  poller : PollerSettings := {}
  buses : List BusSettings := []
  /-- The bus of polls that name none. -/
  defaultBus : UInt8 := 1
  /-- The poll state to begin with. -/
  state : UInt8 := 0
  polls : List PollSettings := []
deriving DecidableEq, Repr

namespace DaemonSettings

/-- The buses there are. -/
def allBuses (s : DaemonSettings) : List BusSettings :=
  if s.buses.isEmpty then [⟨s.defaultBus, .mock BusKind.defaultMockName⟩] else s.buses

/-- Bus numbers are in range and differ from each other and from those in `taken`. -/
def checkBuses (taken : List UInt8) : List BusSettings → Except SettingFault Unit
  | [] => .ok ()
  | b :: bs =>
    if (BusId.ofNat? b.number.toNat).isNone then .error (.busRange b.number.toNat)
    else if b.number ∈ taken then .error (.busTwice b.number.toNat)
    else checkBuses (b.number :: taken) bs

def defaultBusId (s : DaemonSettings) : Except SettingFault BusId :=
  match BusId.ofNat? s.defaultBus.toNat with
  | some b => .ok b
  | none => .error (.defaultBusRange s.defaultBus.toNat)

def pollList (s : DaemonSettings) : Except SettingFault (List PollEntry) :=
  s.polls.mapM PollSettings.entry

def validate (s : DaemonSettings) : Except SettingFault Unit := do
  s.poller.validate
  checkBuses [] s.buses
  let defaultBus ← s.defaultBusId
  if !s.allBuses.any (·.number.toNat = defaultBus.number) then
    .error (.defaultBusMissing s.defaultBus.toNat)
  let _ ← s.pollList

end DaemonSettings

end EcuPoll
