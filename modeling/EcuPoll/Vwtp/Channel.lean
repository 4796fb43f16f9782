/-!
# TP 2.0 channels

TP 2.0 is connection oriented. A channel to a logical module is set up through its base id, its
parameters are negotiated, and then requests and responses travel as numbered data frames that are
acknowledged block by block. The channel stays open between polls.

The high nibble of a data frame says whether it ends the message and whether it wants an
acknowledgement; the low nibble is its number.
-/

namespace EcuPoll

inductive ChannelState
  | closed
  | closing
  | setup
  | params
  | idle
  | startPoll
  | transmit
  | receive
  | abort
deriving DecidableEq, Repr

namespace ChannelState

def all : List ChannelState :=
  [.closed, .closing, .setup, .params, .idle, .startPoll, .transmit, .receive, .abort]

def label : ChannelState → String
  | .closed => "closed"
  | .closing => "closing"
  | .setup => "setup"
  | .params => "params"
  | .idle => "idle"
  | .startPoll => "start-poll"
  | .transmit => "transmit"
  | .receive => "receive"
  | .abort => "abort"

/-- The channel is not yet, or no longer, fit for data. -/
def isHalfOpen : ChannelState → Bool
  | .closed | .closing | .setup | .params => true
  | _ => false

end ChannelState

/-- What a data frame says of itself. -/
inductive DataKind
  | more
  | moreWantsAck
  | last
  | lastWantsAck
deriving DecidableEq, Repr

namespace DataKind

/-- The high nibble. -/
def opcode : DataKind → UInt8
  | .moreWantsAck => 0x00
  | .lastWantsAck => 0x10
  | .more => 0x20
  | .last => 0x30

end DataKind

namespace Opcode

def setupRequest : UInt8 := 0xc0
def setupAccept : UInt8 := 0xd0
def setupRejectMax : UInt8 := 0xd8
def paramsRequest : UInt8 := 0xa0
def paramsResponse : UInt8 := 0xa1
def ping : UInt8 := 0xa3
def disconnect : UInt8 := 0xa8
def ackNotReady : UInt8 := 0x90
def ackReady : UInt8 := 0xb0

/-- The high nibble of a first byte. -/
def high (b : UInt8) : UInt8 := b &&& 0xf0

/-- A first byte of this kind that carries the low nibble of `number`. -/
def numbered (kind number : UInt8) : UInt8 := kind ||| (number &&& 0x0f)

end Opcode

/-- The parameters offered to a module: blocks of 15, 100 ms for an acknowledgement, 1 ms between
frames. -/
def channelParams : List UInt8 := [0x0f, 0x8a, 0xff, 0x0a, 0xff]

/-- The time in µs that a parameter byte stands for: the high two bits choose the unit, the others
count it. -/
def decodeTiming (value : UInt8) : Nat :=
  (value &&& 0x3f).toNat * 100 * Nat.pow 10 (value >>> 6).toNat

/-- The channel of a bus, open or being opened. -/
structure Channel where
  state : ChannelState
  /-- The ids below belong to a module. -/
  bound : Bool
  baseId : UInt32
  moduleId : UInt32
  txId : UInt32
  rxId : UInt32
  /-- Frames between two acknowledgements. -/
  blockSize : UInt8
  /-- In µs. -/
  ackTime : Nat
  /-- The least time between two data frames, in µs. -/
  sepTime : Nat
  txSeq : UInt8
  rxSeq : UInt8
  /-- When the channel was used last, in ms. -/
  lastUsed : Option Nat
deriving DecidableEq, Repr

namespace Channel

def shut : Channel where
  state := .closed
  bound := false
  baseId := 0
  moduleId := 0
  txId := 0
  rxId := 0
  blockSize := 0
  ackTime := 0
  sepTime := 0
  txSeq := 0
  rxSeq := 0
  lastUsed := none

def isOpen (c : Channel) : Bool :=
  c.state != .closed

def touch (c : Channel) (now : Nat) : Channel :=
  { c with lastUsed := some now }

/-- The channel has been used less than `span` ms ago. -/
def usedWithin (c : Channel) (now span : Nat) : Bool :=
  c.lastUsed.any fun t => now - t < span

/-- The channel has not been used for more than `span` ms. -/
def unusedFor (c : Channel) (now span : Nat) : Bool :=
  c.lastUsed.any fun t => span < now - t

/-- The channel belongs to the module of these ids. -/
def isFor (c : Channel) (baseId moduleId : UInt32) : Bool :=
  c.bound && c.baseId == baseId && c.moduleId == moduleId

/-- The ids before a module has assigned its own. -/
def request (c : Channel) (baseId moduleId : UInt32) : Channel :=
  { c with bound := true, baseId, moduleId, txId := baseId, rxId := baseId + moduleId }

/-- The setup request for a module: it is offered an id of its own above the base id. -/
def setupRequest (baseId moduleId : UInt32) : List UInt8 :=
  let offer := baseId + 0x100
  [moduleId.toUInt8, Opcode.setupRequest, 0x00, 0x10, offer.toUInt8, (offer >>> 8).toUInt8, 0x01]

end Channel

end EcuPoll
