import EcuPoll.Can.Frame
import EcuPoll.Poll.Failure
import EcuPoll.Poll.Job

/-!
# What an engine reports

`Event` is everything that an engine does to the outside: frames written, callbacks to the receiver
of poll results, and the fate of single requests. The dispatch of a poll is reported as well, so that
a run can be judged by its events alone.
-/

namespace EcuPoll

/-- How a single request ended. -/
abbrev SingleResult := Except SingleError (List UInt8)

/-- A single request that waits for its turn or has it. -/
structure SingleRequest where
  /-- Tells requests apart. -/
  ticket : Nat
  entry : PollEntry
  /-- The time in ms at which its caller stops waiting. -/
  deadline : Nat
  /-- The time in ms from which its caller has given up, if it has. -/
  abandoned : Option Nat
deriving DecidableEq, Repr

namespace SingleRequest

/-- Nobody waits for the result any more. -/
def isGone (r : SingleRequest) (now : Nat) : Bool :=
  r.deadline ≤ now || r.abandoned.any (· ≤ now)

/-- The caller gives up at time `start`, unless it has before. -/
def abandon (r : SingleRequest) (start : Nat) : SingleRequest :=
  { r with abandoned := some (min start (r.abandoned.getD start)) }

end SingleRequest

/-- What a frame is written for. -/
inductive FrameKind
  /-- The start of an ISO-TP request: its single or first frame. -/
  | opening
  | consecutive
  | flowControl
  /-- Asks the module of these ids for a channel. -/
  | setup (baseId moduleId : UInt32)
  | params
  | close
  /-- The data frame of this number in its message, counted from 0. -/
  | data (number : UInt16)
  /-- Ends a transfer before its time. -/
  | abort
  | ack
  /-- Turns down data that nobody asked for. -/
  | refusal
  | pong
deriving DecidableEq, Repr

inductive Event
  /-- A frame was handed to the bus, which took it or not. -/
  | wrote (kind : FrameKind) (frame : Frame) (accepted : Bool)
  /-- One frame's worth of response payload; `remain` bytes are still to come. -/
  | reply (job : PollJob) (data : List UInt8) (remain : UInt16)
  /-- A poll ended without a reply. -/
  | failed (job : PollJob) (failure : PollFailure)
  /-- A frame sent for a poll is on the bus, or is not. -/
  | sent (job : PollJob) (success : Bool)
  /-- Every due entry of the list has been sent in this pass. -/
  | passFinished (bus : BusId)
  /-- A primary tick begins. -/
  | stateTicker (bus : BusId)
  /-- An entry was handed to its transport, for the single request of this ticket if there is one. -/
  | dispatched (entry : PollEntry) (ticker : Nat) (single : Option Nat)
  | singleStarted (ticket : Nat)
  /-- The caller had gone before the request's turn came. -/
  | singleDropped (ticket : Nat)
  | singleResolved (ticket : Nat) (result : SingleResult)
deriving Repr

/-- An event and the time in ms at which it happened. -/
structure Stamped where
  time : Nat
  event : Event
deriving Repr

end EcuPoll
