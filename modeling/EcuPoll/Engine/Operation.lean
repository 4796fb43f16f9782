import EcuPoll.Engine.Response

/-!
# The operations of an engine

`Operation` lists all that can happen to an engine and `Engine.step` says what it does; a run is a
list of operations. `Engine.status` is the summary for the outside.
-/

namespace EcuPoll

/-- What an engine takes from the settings of the poller. -/
structure EngineSettings where
  sequenceMax : UInt8
  septime : UInt8
  policy : SequencePolicy
  /-- In ms. -/
  keepalive : Nat
  /-- In ms. -/
  between : Nat
deriving DecidableEq, Repr

inductive Operation
  | frame (frame : Frame)
  | tick (primary : Bool)
  /-- The bus says what became of an accepted frame. -/
  | txComplete (frame : Frame) (success : Bool)
  /-- The delay of a chained poll may be over. -/
  | sendSuccess
  | submit (request : SingleRequest)
  | setList (list : Option (List PollEntry)) (defaultBus : Option BusId)
  | setState (state : Nat)
  | setPaused (paused : Bool)
  | setSequenceMax (sequenceMax : UInt8)
  | setSeptime (septime : UInt8)
  /-- In seconds. -/
  | setKeepalive (seconds : Nat)
  /-- In ms. -/
  | setBetween (ms : Nat)
  | shutdown
  /-- Time passes, in ms. -/
  | elapse (ms : Nat)
  /-- The bus goes online or offline. -/
  | setRoom (room : Room)
deriving Repr

namespace Engine

def new (bus : BusId) (name : String) (reports : Bool) (settings : EngineSettings) : Engine where
  bus
  name
  line := .free
  reports
  now := 0
  schedule := .new bus settings.sequenceMax
  job := .idle bus
  active := false
  wait := 0
  paused := false
  septime := settings.septime
  policy := settings.policy
  keepalive := settings.keepalive
  between := settings.between
  successDue := none
  out := .empty
  channel := .shut
  single := none
  queued := []
  results := []
  log := []

/-- A frame was received. -/
def handleFrame (e : Engine) (frame : Frame) : Engine :=
  if frame.bus ≠ e.bus then e
  else if e.isChannelFrame frame then (e.receiveVwtp frame).settle
  else (e.receiveOther frame).settle

/-- The timer ticks. A primary tick counts waits down and begins passes; any tick lifts throttling. -/
def tick (e : Engine) (primary : Bool) : Engine :=
  let e := if primary then e.emit (.stateTicker e.bus) else e
  ({ e with schedule := e.schedule.resetSequence }.pollSend primary).settle

def txComplete (e : Engine) (frame : Frame) (success : Bool) : Engine :=
  (e.judgeResult frame success).settle

/-- Sends the chained poll whose delay is over, if there is one. -/
def sendSuccess (e : Engine) : Engine :=
  if e.successDue.any (· ≤ e.now) then
    let e := { e with successDue := none }
    (if e.mayChain then e.pollSend false else e).settle
  else e

/-- Queues a single request; it starts as soon as no other has the bus. -/
def submit (e : Engine) (request : SingleRequest) : Engine :=
  { e with queued := e.queued ++ [request] }.settle

/-- Installs a list, which takes effect after the single request that has the bus. -/
def setList (e : Engine) (list : Option (List PollEntry)) (defaultBus : Option BusId) : Engine :=
  match e.single with
  | some capture =>
    let saved := Schedule.Snapshot.atStart list defaultBus e.schedule.state
    { e with single := some { capture with saved } }
  | none => { e with schedule := e.schedule.setList list defaultBus, wait := 0 }

theorem setList_single {e : Engine} {capture : Capture} (h : e.single = some capture)
    (list : Option (List PollEntry)) (defaultBus : Option BusId) : e.setList list defaultBus =
      { e with single := some { capture with saved := .atStart list defaultBus e.schedule.state } } := by
  rw [setList, h]

theorem setList_periodic {e : Engine} (h : e.single = none) (list : Option (List PollEntry))
    (defaultBus : Option BusId) :
    e.setList list defaultBus = { e with schedule := e.schedule.setList list defaultBus, wait := 0 } := by
  rw [setList, h]

/-- Selects the poll state; a change gives up the periodic poll in flight. -/
def setState (e : Engine) (state : Nat) : Engine :=
  let changed := Schedule.clampState state ≠ e.schedule.state
  let e := { e with schedule := e.schedule.setState state }
  if changed ∧ e.single.isNone then { e with wait := 0 } else e

/-- Fails all queued single requests. -/
def refuseQueued (e : Engine) : Engine :=
  e.queued.foldl (fun e r => e.emit (.singleResolved r.ticket (.error .unavailable)))
    { e with queued := [] }

/-- Fails all single requests and closes the channel. -/
def shutdown (e : Engine) : Engine :=
  let e := (e.finishSingle (.error .unavailable)).refuseQueued
  let e := if e.channel.isOpen then e.requestClose.shutChannel else e
  { e with results := [], successDue := none, active := false }

def step (e : Engine) : Operation → Engine
  | .frame frame => e.handleFrame frame
  | .tick primary => e.tick primary
  | .txComplete frame success => e.txComplete frame success
  | .sendSuccess => e.sendSuccess
  | .submit request => e.submit request
  | .setList list defaultBus => e.setList list defaultBus
  | .setState state => e.setState state
  | .setPaused paused => { e with paused }
  | .setSequenceMax sequenceMax => { e with schedule := e.schedule.setSequenceMax sequenceMax }
  | .setSeptime septime => { e with septime }
  | .setKeepalive seconds => { e with keepalive := seconds * 1000 }
  | .setBetween ms => { e with between := ms }
  | .shutdown => e.shutdown
  | .elapse ms => { e with now := e.now + ms }
  | .setRoom room => { e with line := e.line.change e.now room }

/-- The engine after a run. -/
def run (e : Engine) (operations : List Operation) : Engine :=
  operations.foldl step e

theorem run_append (e : Engine) (xs ys : List Operation) :
    e.run (xs ++ ys) = (e.run xs).run ys :=
  List.foldl_append

/-- The events so far, oldest first, and the engine without them. -/
def takeLog (e : Engine) : List Stamped × Engine :=
  (e.log.reverse, { e with log := [] })

end Engine

/-- The state of an engine for the outside. -/
structure Status where
  bus : BusId
  name : String
  state : Nat
  ticker : Nat
  wait : Nat
  paused : Bool
  listLength : Nat
  sequenceMax : UInt8
  channel : ChannelState
  singleActive : Bool
  singleQueued : Nat
deriving DecidableEq, Repr

def Engine.status (e : Engine) : Status where
  bus := e.bus
  name := e.name
  state := e.schedule.state
  ticker := e.schedule.ticker
  wait := e.wait
  paused := e.paused
  listLength := e.schedule.length
  sequenceMax := e.schedule.sequenceMax
  channel := e.channel.state
  singleActive := e.single.isSome
  singleQueued := e.queued.length

end EcuPoll
