import EcuPoll.Settings.Field

/-!
# Settings of a poll

A poll entry as it stands in a settings file, with its numbers still as texts. `PollSettings.entry` turns
it into an entry; of several faults it reports that of the first field, in the order tx id, rx id,
service, PID, intervals, data, bus.
-/

namespace EcuPoll

structure PollSettings where
  txId : String
  /-- Zero polls by broadcast. -/
  rxId : String := "0"
  service : String
  pid : String := "0"
  /-- Further bytes of the request. -/
  data : Option String := none
  /-- The intervals of the first poll states; in the others nothing is polled. -/
  intervals : List UInt16 := []
  /-- Zero for the default bus. -/
  bus : UInt8 := 0
  protocol : Protocol := .isoTp
deriving DecidableEq, Repr

namespace PollSettings

/-- The intervals of all poll states. -/
def allIntervals (intervals : List UInt16) : Vector UInt16 pollStates :=
  Vector.ofFn fun state => intervals.getD state 0

/-- A number which must be below `bound`, or else has a fault of its own. -/
def bounded (bound : Nat) (fault : String → SettingFault) (text : String) :
    Except SettingFault Nat := do
  let n ← Field.number text
  if n < bound then .ok n else .error (fault text)

def payload : Option String → Except SettingFault (List UInt8)
  | none => .ok []
  | some text => Field.bytes text

/-- The entry of the poll table. -/
def entry (s : PollSettings) : Except SettingFault PollEntry := do
  let tx ← Field.number s.txId
  if tx = 0 then .error .noTarget
  let rx ← Field.number s.rxId
  let service ← bounded UInt8.size .service s.service
  let pid ← bounded UInt16.size .pid s.pid
  if pollStates < s.intervals.length then .error .tooManyIntervals
  let payload ← payload s.data
  if BusId.max < s.bus.toNat then .error (.entryBus s.bus.toNat)
  return {
    tx := .ofNat tx
    rx := .ofNat rx
    service := .ofNat service
    pid := .ofNat pid
    payload
    intervals := allIntervals s.intervals
    bus := s.bus.toNat
    protocol := s.protocol }

end PollSettings

end EcuPoll
