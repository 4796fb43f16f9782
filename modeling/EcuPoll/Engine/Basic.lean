import EcuPoll.Engine.Event
import EcuPoll.IsoTp.Outbound
import EcuPoll.Poll.Schedule
import EcuPoll.Vwtp.Channel

/-!
# The engine of one bus

An `Engine` owns all that is live on one bus: the place in the poll list, the poll in flight and its
wait counter, the rest of its request, the TP 2.0 channel, and the single requests. Its operations
are functions from engine to engine. An operation may take time: `pause` moves the engine's own
clock. What it did is in `log`, the newest event first.
-/

namespace EcuPoll

/-- How strictly the numbers of consecutive frames are checked. -/
inductive SequencePolicy
  /-- A number at or below the expected one is taken, so that a device may count from zero. -/
  | lenient
  | strict
deriving DecidableEq, Repr

namespace SequencePolicy

def word : SequencePolicy → String
  | .lenient => "lenient"
  | .strict => "strict"

def ofWord? (s : String) : Option SequencePolicy :=
  [lenient, strict].find? (·.word == s)

end SequencePolicy

/-- The single request that has the bus, and where the periodic list stood when it began. -/
structure Capture where
  request : SingleRequest
  /-- The response bytes so far. -/
  response : List UInt8
  saved : Schedule.Snapshot
deriving DecidableEq, Repr

structure Engine where
  bus : BusId
  name : String
  line : Line
  /-- The bus tells later whether an accepted frame was sent. -/
  reports : Bool
  /-- The time in ms. -/
  now : Nat
  schedule : Schedule
  job : PollJob
  /-- A poll has been dispatched and has not ended. -/
  active : Bool
  /-- The ticks that a response may still take, zero when none is expected. -/
  wait : Nat
  paused : Bool
  /-- The separation time asked of others. -/
  septime : UInt8
  policy : SequencePolicy
  /-- How long an unused channel stays open, in ms, zero for ever. -/
  keepalive : Nat
  /-- The delay in ms between a response and the poll chained to it. -/
  between : Nat
  /-- When the delayed chained poll is due. -/
  successDue : Option Nat
  out : Outbound
  channel : Channel
  single : Option Capture
  queued : List SingleRequest
  /-- Results of writes that have not been looked at. -/
  results : List (Frame × Bool)
  log : List Stamped

namespace Engine

/-! ### Time and events -/

/-- Lets `us` microseconds pass; a pause ends at a whole millisecond. -/
def pause (e : Engine) (us : Nat) : Engine :=
  { e with now := e.now + (us + 999) / 1000 }

def emit (e : Engine) (event : Event) : Engine :=
  { e with log := ⟨e.now, event⟩ :: e.log }

/-- Hands a frame to the bus. A refusal is a failed transmission; an accepted frame is a successful
one unless the bus is to report that later. -/
def transmit (e : Engine) (kind : FrameKind) (frame : Frame) : Engine :=
  let (accepted, line) := e.line.write e.now
  let e := { e with line }.emit (.wrote kind frame accepted)
  if accepted && e.reports then e else { e with results := e.results ++ [(frame, accepted)] }

theorem transmit_eq (e : Engine) (kind : FrameKind) (frame : Frame) :
    e.transmit kind frame = { e with
      line := (e.line.write e.now).2
      results := if (e.line.write e.now).1 && e.reports then e.results
        else e.results ++ [(frame, (e.line.write e.now).1)]
      log := ⟨e.now, .wrote kind frame (e.line.write e.now).1⟩ :: e.log } := by
  unfold transmit
  simp only [emit]
  split <;> simp_all

/-! ### Results -/

/-- Ends the single request and puts the periodic list back. -/
def finishSingle (e : Engine) (result : SingleResult) : Engine :=
  match e.single with
  | none => e
  | some capture =>
    { e with single := none, schedule := e.schedule.restore capture.saved, wait := 0 }.emit
      (.singleResolved capture.request.ticket result)

/-- One frame's worth of payload of the poll in flight; its `mlRemain` bytes are still to come. A
single request collects the payload and ends with the last of it. -/
def deliverReply (e : Engine) (data : List UInt8) : Engine :=
  match e.single with
  | none => e.emit (.reply e.job data e.job.mlRemain)
  | some capture =>
    let response := capture.response ++ data
    if e.job.mlRemain = 0 then e.finishSingle (.ok response)
    else { e with single := some { capture with response } }

/-- The poll in flight has failed. A channel that goes away ends a single request with what it has. -/
def deliverFailure (e : Engine) (failure : PollFailure) : Engine :=
  match e.single with
  | none => e.emit (.failed e.job failure)
  | some capture =>
    e.finishSingle <| match failure with
      | .negative code => .error (.negative code)
      | .transmitFailed => .error .txFailure
      | .channelClosed => .ok capture.response

/-- No single request is in the way of the periodic list, and one more poll may be sent. -/
def mayChain (e : Engine) : Bool :=
  e.wait == 0 && (e.schedule.canPoll || !e.queued.isEmpty)

end Engine

end EcuPoll
