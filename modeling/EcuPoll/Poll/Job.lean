import EcuPoll.Poll.Entry

/-!
# The poll in flight

`PollJob` is the request that was sent last on one bus and how far its response has come.
-/

namespace EcuPoll

/-- The id of an OBD broadcast request. -/
def broadcastTx : UInt32 := 0x7df

/-- The ids that may answer an OBD broadcast, lowest and highest. -/
def broadcastRx : UInt32 × UInt32 := (0x7e8, 0x7ef)

structure PollJob where
  bus : BusId
  protocol : Protocol
  service : UInt8
  pid : UInt16
  /-- The id that the request was sent to. -/
  sent : UInt32
  /-- The lowest id that may answer. -/
  low : UInt32
  /-- The highest id that may answer. -/
  high : UInt32
  /-- The id that the current response came from. -/
  received : UInt32
  /-- The response frames taken so far. -/
  mlFrame : UInt16
  /-- Where the current frame's payload lies in the response. -/
  mlOffset : UInt16
  /-- The response bytes still to come. -/
  mlRemain : UInt16
  entry : Option PollEntry
  /-- The ticker when the poll was dispatched. -/
  ticker : Nat
  /-- The id of the last frame sent for this poll. -/
  txId : UInt32
deriving DecidableEq, Repr

namespace PollJob

/-- Nothing in flight yet. -/
def idle (bus : BusId) : PollJob where
  bus
  protocol := .isoTp
  service := 0
  pid := 0
  sent := 0
  low := 0
  high := 0
  received := 0
  mlFrame := 0
  mlOffset := 0
  mlRemain := 0
  entry := none
  ticker := 0
  txId := 0

/-- No part of a response has been taken. -/
def resetMultiframe (j : PollJob) : PollJob :=
  { j with mlFrame := 0, mlOffset := 0, mlRemain := 0 }

/-- A fresh poll of `entry`. The ids of the poll before stay until the transport sets them. -/
def start (j : PollJob) (entry : PollEntry) (ticker : Nat) : PollJob :=
  { j with
    protocol := entry.protocol
    service := entry.service
    pid := entry.pid
    entry := some entry
    ticker
    received := 0 }.resetMultiframe

/-- The id lies in the range that may answer. -/
def accepts (j : PollJob) (id : UInt32) : Bool :=
  j.low ≤ id && id ≤ j.high

/-- Any OBD module may answer. -/
def isBroadcast (j : PollJob) : Bool :=
  j.sent == broadcastTx

/-- The poll runs over TP 2.0. -/
def isVwtp (j : PollJob) : Bool :=
  j.protocol == .vwtp20

end PollJob

end EcuPoll
