import EcuPoll.Engine.Event
import EcuPoll.Text.Hex

/-!
# The log of responses

A response comes in pieces, one for each frame. `ResponseLog` collects the pieces of each response and
logs it once nothing is to come any more. A piece at offset 0 begins anew, and a failure drops what was
collected so far.
-/

namespace EcuPoll

/-- What tells responses apart: the bus, the module that responds, the service and the PID. -/
structure ResponseKey where
  bus : BusId
  sender : UInt32
  service : UInt8
  pid : UInt16
deriving DecidableEq, Repr

def PollJob.responseKey (j : PollJob) : ResponseKey :=
  ⟨j.bus, j.received, j.service, j.pid⟩

inductive LogLevel
  | info
  | warn
  | debug
deriving DecidableEq, Repr

def LogLevel.word : LogLevel → String
  | .info => "INFO"
  | .warn => "WARN"
  | .debug => "DEBUG"

inductive LogEntry
  /-- A complete response. -/
  | response (key : ResponseKey) (data : List UInt8)
  | failed (key : ResponseKey) (failure : PollFailure)
  /-- A frame for this id did not come onto the bus. -/
  | notSent (bus : BusId) (tx : UInt32)
deriving DecidableEq, Repr

namespace LogEntry

def level : LogEntry → LogLevel
  | .response .. => .info
  | .failed .. => .warn
  | .notSent .. => .debug

def message : LogEntry → String
  | .response .. => "Poll response"
  | .failed .. => "Poll failed"
  | .notSent .. => "Poll request not sent"

/-- A number with the mark of hexadecimal numbers. -/
def marked (width n : Nat) : String :=
  "0x" ++ Hex.upper width n

def keyFields (key : ResponseKey) : List (String × String) :=
  [("bus", key.bus.label), ("module", marked 1 key.sender.toNat),
    ("service", marked 2 key.service.toNat), ("pid", marked 1 key.pid.toNat)]

/-- The named parts of an entry, the message apart. -/
def fields : LogEntry → List (String × String)
  | .response key data =>
    keyFields key ++ [("len", toString data.length), ("data", Hex.encode data)]
  | .failed key failure => keyFields key ++ [("failure", failure.text)]
  | .notSent bus tx => [("bus", bus.label), ("tx_id", marked 1 tx.toNat)]

end LogEntry

/-- What has been collected of each response. -/
structure ResponseLog where
  collected : ResponseKey → List UInt8

namespace ResponseLog

def empty : ResponseLog where
  collected _ := []

/-- The log with this much of a response. -/
def set (l : ResponseLog) (key : ResponseKey) (data : List UInt8) : ResponseLog where
  collected k := if k = key then data else l.collected k

/-- A piece of a response, with `remain` bytes still to come. -/
def reply (l : ResponseLog) (job : PollJob) (data : List UInt8) (remain : UInt16) :
    List LogEntry × ResponseLog :=
  let key := job.responseKey
  let response := (if job.mlOffset = 0 then [] else l.collected key) ++ data
  if remain = 0 then ([.response key response], l.set key [])
  else ([], l.set key response)

/-- Takes note of an event; what it logs and the log after it. -/
def record (l : ResponseLog) : Event → List LogEntry × ResponseLog
  | .reply job data remain => l.reply job data remain
  | .failed job failure =>
    ([.failed job.responseKey failure], l.set job.responseKey [])
  | .sent job false => ([.notSent job.bus job.txId], l)
  | _ => ([], l)

/-- What a sequence of events logs. -/
def recordAll (l : ResponseLog) : List Event → List LogEntry × ResponseLog
  | [] => ([], l)
  | e :: es =>
    let (entries, l) := l.record e
    let (more, l) := l.recordAll es
    (entries ++ more, l)

theorem collected_set (l : ResponseLog) (key k : ResponseKey) (data : List UInt8) :
    (l.set key data).collected k = if k = key then data else l.collected k := by
  rw [set]

end ResponseLog

end EcuPoll
