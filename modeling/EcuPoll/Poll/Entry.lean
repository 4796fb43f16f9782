import EcuPoll.Can.Bus
import EcuPoll.Diag.Service

/-!
# Poll entries

One row of the poll table: which module to ask, for what, over which transport, and how often in each
poll state.
-/

namespace EcuPoll

/-- The transport of a poll. -/
inductive Protocol
  /-- ISO-TP with 11 bit identifiers. -/
  | isoTp
  /-- ISO-TP with the low byte of the module id in the first data byte. -/
  | isoTpExtAddr
  /-- ISO-TP with 29 bit identifiers. -/
  | isoTpExtFrame
  /-- VW TP 2.0. -/
  | vwtp20
deriving DecidableEq, Repr

namespace Protocol

def all : List Protocol := [.isoTp, .isoTpExtAddr, .isoTpExtFrame, .vwtp20]

/-- The word for a protocol in a poll table. -/
def word : Protocol → String
  | .isoTp => "iso_tp"
  | .isoTpExtAddr => "iso_tp_ext_addr"
  | .isoTpExtFrame => "iso_tp_ext_frame"
  | .vwtp20 => "vwtp20"

def ofWord? (s : String) : Option Protocol :=
  all.find? (·.word == s)

def code : Protocol → Nat
  | .isoTp => 0
  | .isoTpExtAddr => 1
  | .isoTpExtFrame => 2
  | .vwtp20 => 20

def label : Protocol → String
  | .isoTp => "ISOTP-STD"
  | .isoTpExtAddr => "ISOTP-EXTADR"
  | .isoTpExtFrame => "ISOTP-EXTFRAME"
  | .vwtp20 => "VWTP-20"

def isIsoTp (p : Protocol) : Bool :=
  p != .vwtp20

end Protocol

/-- The number of poll states. -/
def pollStates : Nat := 4

/-- The longest payload that is kept in the entry itself. -/
def inlinePayloadMax : Nat := 6

/-- The payload is short enough to be kept in the entry itself. -/
def fitsInline (payload : List UInt8) : Bool :=
  payload.length ≤ inlinePayloadMax

structure PollEntry where
  /-- The request id; for TP 2.0 the base id of the channel. Zero ends a list. -/
  tx : UInt32
  /-- The response id, zero for a broadcast; for TP 2.0 the logical module id. -/
  rx : UInt32
  service : UInt8
  pid : UInt16
  payload : List UInt8
  /-- The interval in ticks for each poll state, zero for never. -/
  intervals : Vector UInt16 4
  /-- The bus number, zero for the default bus of the list. -/
  bus : Nat
  protocol : Protocol
deriving DecidableEq, Repr

namespace PollEntry

/-- The entry ends the list it stands in. -/
def isTerminator (e : PollEntry) : Bool :=
  e.tx == 0

/-- The interval of a poll state; states beyond the table are never polled. -/
def interval (e : PollEntry) (state : Nat) : Nat :=
  (e.intervals[state]?.map (·.toNat)).getD 0

/-- The interval for `state` divides `ticker`. -/
def isDue (e : PollEntry) (state ticker : Nat) : Bool :=
  0 < e.interval state && ticker % e.interval state == 0

/-- The bus of an entry in a list with this default bus. -/
def busIn (e : PollEntry) (defaultBus : Option BusId) : Option BusId :=
  if e.bus = 0 then defaultBus else BusId.ofNat? e.bus

/-- The request header of the entry. -/
def header (e : PollEntry) : List UInt8 :=
  requestHeader e.service e.pid

end PollEntry

end EcuPoll
