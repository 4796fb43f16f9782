import EcuPoll.Engine.Basic
import EcuPoll.IsoTp.Segment

/-!
# Requests over ISO-TP

A request goes out as a single frame if it fits, else as a first frame that announces its length;
the rest follows in consecutive frames once the receiver's flow control allows it. With extended
addressing the low byte of the module id takes the first data byte of every frame.
-/

namespace EcuPoll

namespace Protocol

/-- The bytes of a frame that are left for protocol data. -/
def isoTpRoom (p : Protocol) : Nat :=
  if p = .isoTpExtAddr then 7 else 8

/-- A frame to `target` in this addressing mode. -/
def isoTpFrame (p : Protocol) (bus : BusId) (target : UInt32) (bytes : List UInt8) : Frame :=
  match p with
  | .isoTpExtAddr => Frame.padded bus (target >>> 8) false (target.toUInt8 :: bytes)
  | .isoTpExtFrame => Frame.padded bus target true bytes
  | _ => Frame.padded bus target false bytes

/-- The id that a received frame carries in this addressing mode. -/
def isoTpSender (p : Protocol) (frame : Frame) : UInt32 :=
  if p = .isoTpExtAddr then frame.id <<< 8 ||| (Frame.leadByte frame.data).toUInt32 else frame.id

/-- The protocol data of a received frame. -/
def isoTpData (p : Protocol) (frame : Frame) : List UInt8 :=
  frame.data.toList.drop (8 - p.isoTpRoom)

end Protocol

namespace Engine

def isoTpRoom (e : Engine) : Nat :=
  e.job.protocol.isoTpRoom

/-- A frame to `target` in the addressing mode of the poll in flight. -/
def isoTpFrame (e : Engine) (target : UInt32) (bytes : List UInt8) : Frame :=
  e.job.protocol.isoTpFrame e.bus target bytes

/-- Where flow control and consecutive frames go after a frame from `id`. A broadcast is answered
from the request id plus 8. -/
def isoTpTarget (e : Engine) (id : UInt32) : UInt32 :=
  if e.job.isBroadcast then id - 8 else e.job.sent

/-- The ids of a poll: those of its entry, or the broadcast ids. -/
def isoTpIds (job : PollJob) (entry : PollEntry) : PollJob :=
  if entry.rx ≠ 0 then { job with sent := entry.tx, low := entry.rx, high := entry.rx }
  else { job with sent := broadcastTx, low := broadcastRx.1, high := broadcastRx.2 }

/-- The first frame's protocol data for a request, in `room` bytes. -/
def isoTpOpening (header payload : List UInt8) (room : Nat) : List UInt8 :=
  let length := header.length + payload.length
  let lead := if length < room then Segment.singleHeader length else Segment.firstHeader length
  lead ++ header ++ payload.take (room - lead.length - header.length)

/-- The payload bytes that the first frame carries. -/
def isoTpOpeningCount (header payload : List UInt8) (room : Nat) : Nat :=
  let length := header.length + payload.length
  min payload.length (room - (if length < room then 1 else 2) - header.length)

/-- Sends the first frame of the request in flight. -/
def startIsoTp (e : Engine) : Engine :=
  match e.job.entry with
  | none => e
  | some entry =>
    let e := { e with job := isoTpIds e.job entry }
    let limit := payloadLimit entry.header
    let payload := entry.payload.take limit
    let frame := e.isoTpFrame e.job.sent (isoTpOpening entry.header payload e.isoTpRoom)
    let sent := isoTpOpeningCount entry.header payload e.isoTpRoom
    { e with
      out := .load entry.payload sent limit
      job := { e.job with txId := frame.id }.resetMultiframe
      wait := 2 }.transmit .opening frame

/-- Sends the next consecutive frame to `target`. -/
def sendConsecutive (e : Engine) (target : UInt32) : Engine :=
  let room := e.isoTpRoom - 1
  let frame := e.isoTpFrame target
    (Segment.consecutiveHeader (e.out.frame + 1) ++ e.out.chunk room)
  { e with out := (e.out.advance room).countFrame }.transmit .consecutive frame

/-- Sends at most `count` consecutive frames, `delay` µs apart. -/
def burst (target : UInt32) (delay : Nat) : Nat → Engine → Engine
  | 0, e => e
  | count + 1, e =>
    if e.out.remaining = 0 then e
    else
      let e := e.sendConsecutive target
      if e.out.remaining = 0 ∨ count = 0 then e
      else burst target delay count (e.pause delay)

/-- The consecutive frames that a block size allows. Zero allows all the rest of the request, which
never needs more frames than it has bytes. -/
def allowedFrames (e : Engine) (blockSize : UInt8) : Nat :=
  if blockSize = 0 then e.out.remaining else blockSize.toNat

/-- The receiver of our request from `id` says what to do. -/
def isoTpFlow (e : Engine) (id : UInt32) (command blockSize septime : UInt8) : Engine :=
  if e.out.remaining = 0 then e
  else
    match FlowCommand.ofByte? command with
    | none => e
    | some .wait => { e with wait := min 255 (e.wait + 1) }
    | some .abort => { e with out := e.out.clear }
    | some .goOn =>
      let e := burst (e.isoTpTarget id) (separationDelay septime) (e.allowedFrames blockSize) e
      if 0 < e.out.remaining then { e with wait := 2 } else e

/-- Allows the responder all remaining frames of its response. -/
def sendFlowControl (e : Engine) (id : UInt32) : Engine :=
  e.transmit .flowControl (e.isoTpFrame (e.isoTpTarget id) (Segment.flowGoOn e.septime))

end Engine

end EcuPoll
