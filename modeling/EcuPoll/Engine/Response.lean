import EcuPoll.Diag.Envelope
import EcuPoll.Engine.Polling

/-!
# Received frames

`receiveIsoTp` takes a frame from an id that may answer the poll in flight, `receiveVwtp` a frame on
the channel. Both read the envelope of a response's first segment, deliver the payload frame by
frame, and chain the next poll to a complete response.
-/

namespace EcuPoll.Engine

/-- What the envelope of a response says about the poll in flight. -/
inductive Verdict
  /-- The answer, and its payload. -/
  | answer (payload : List UInt8)
  | refused (code : NegativeCode)
  /-- No answer to this poll. -/
  | foreign
deriving DecidableEq, Repr

/-- Judges the first segment of a response. -/
def judge (e : Engine) (segment : List UInt8) : Verdict :=
  match Envelope.ofSegment? e.job.pid segment with
  | none => .foreign
  | some (.negative service code) => if service = e.job.service then .refused code else .foreign
  | some envelope =>
    if envelope.answers e.job.service e.job.pid then .answer (segment.drop envelope.headerLength)
    else .foreign

/-- What is left of an announced length. -/
def lessLength (remain : UInt16) (segment : List UInt8) : UInt16 :=
  if segment.length ≤ remain.toNat then remain - UInt16.ofNat segment.length else 0

/-! ### ISO-TP -/

/-- The number of a consecutive frame is acceptable. -/
def isNumberOk (e : Engine) (index : UInt8) : Bool :=
  let expected := (e.job.mlFrame &&& 0x0f).toUInt8
  e.job.mlRemain != 0 && match e.policy with
    | .lenient => index ≤ expected
    | .strict => index == expected

/-- Ends the poll of a response that lost a frame: nothing is accepted any more. -/
def rejectResponse (e : Engine) : Engine :=
  { e with job := { e.job with low := 0, high := 0 }, wait := 2 }

/-- After a frame's payload of `length` bytes: waits for more of the response, or has it complete.
More answers to a broadcast may come from other modules. -/
def afterSegment (e : Engine) (id : UInt32) (first : Bool) (length : Nat) : Engine :=
  if e.job.mlRemain = 0 then
    let e := { e with wait := 0 }
    if e.job.isBroadcast then e else e.pollNext
  else
    let e := if first then e.sendFlowControl id else e
    let frame := if first then 1 else e.job.mlFrame + 1
    { e with
      job := { e.job with mlFrame := frame, mlOffset := e.job.mlOffset + UInt16.ofNat length }
      wait := 2 }

/-- Delivers the payload of a frame whose segment leaves `remain` bytes to come. -/
def deliverSegment (e : Engine) (id : UInt32) (payload : List UInt8) (remain : UInt16) : Engine :=
  { e with job := { e.job with received := id, mlRemain := remain } }.deliverReply payload

/-- The first segment of a response, in a single or first frame that announces `total` bytes. -/
def receiveOpening (e : Engine) (id : UInt32) (total : UInt16) (segment : List UInt8)
    (first : Bool) : Engine :=
  match e.judge segment with
  | .foreign => e
  | .refused code =>
    if code.isPending then { e with wait := min 255 (e.wait + 1) }
    else
      let e := { e with job := { e.job with received := id }.resetMultiframe }
      (e.deliverFailure (.negative code)).afterSegment id first 0
  | .answer payload =>
    (e.deliverSegment id payload (lessLength total segment)).afterSegment id first payload.length

/-- A further segment of a response. -/
def receiveConsecutive (e : Engine) (id : UInt32) (index : UInt8) (data : List UInt8) : Engine :=
  if !e.isNumberOk index then e.rejectResponse
  else
    let segment := data.take e.job.mlRemain.toNat
    (e.deliverSegment id segment (lessLength e.job.mlRemain segment)).afterSegment id false
      segment.length

/-- A frame from `id`, which may answer the poll in flight. -/
def receiveIsoTp (e : Engine) (frame : Frame) (id : UInt32) : Engine :=
  match Segment.ofBytes? (e.job.protocol.isoTpData frame) with
  | none => e
  | some (.flow command blockSize septime) => e.isoTpFlow id command blockSize septime
  | some (.single data) => e.receiveOpening id (UInt16.ofNat data.length) data false
  | some (.first total data) => e.receiveOpening id total data true
  | some (.consecutive index data) => e.receiveConsecutive id index data

/-! ### TP 2.0 -/

/-- After a frame on the channel: chain the next poll if nothing is awaited, or leave all as it is. -/
inductive AfterFrame
  | chain
  | stay
deriving DecidableEq, Repr

/-- Acknowledges a data frame that asks for it. -/
def acknowledge (e : Engine) (opcode : UInt8) : Engine :=
  if Opcode.high opcode ≤ DataKind.lastWantsAck.opcode then e.sendAck else e

/-- A data frame has come in. -/
def countData (e : Engine) : Engine :=
  { e with channel := { e.channel with rxSeq := e.channel.rxSeq + 1 }.touch e.now }

/-- After a data frame's payload of `length` bytes: the response is complete, or more of it is to
come. -/
def afterData (e : Engine) (length : Nat) : Engine :=
  if e.job.mlRemain = 0 then e.goIdle
  else
    { e with
      job := { e.job with
        mlFrame := e.job.mlFrame + 1
        mlOffset := e.job.mlOffset + UInt16.ofNat length }
      wait := 2 }

/-- Delivers the payload of a data frame with this segment of the response. -/
def deliverData (e : Engine) (opcode : UInt8) (segment payload : List UInt8) : Engine :=
  let e := e.acknowledge opcode
  (e.deliverSegment e.channel.rxId payload (lessLength e.job.mlRemain segment)).afterData
    payload.length

/-- The first data frame of a response, of which `total` bytes are announced. -/
def receiveFirstData (e : Engine) (opcode : UInt8) (total : UInt16) (segment : List UInt8) :
    AfterFrame × Engine :=
  let e := { e with job := { e.job with mlRemain := total } }
  match e.judge segment with
  | .foreign => (.stay, e.abortTransfer)
  | .answer payload => (.chain, e.deliverData opcode segment payload)
  | .refused code =>
    let e := e.acknowledge opcode
    if code.isPending then (.stay, { e with job := e.job.resetMultiframe, wait := 2 })
    else
      let e := { e with job := { e.job with received := e.job.sent, mlRemain := 0 } }
      (.chain, (e.deliverFailure (.negative code)).goIdle)

/-- A data frame of the response, of which `data` holds the bytes its length code covers. -/
def receiveData (e : Engine) (opcode : UInt8) (data : List UInt8) : AfterFrame × Engine :=
  if opcode &&& 0x0f ≠ e.channel.rxSeq &&& 0x0f then (.stay, e.countData.abortTransfer)
  else if e.job.mlFrame ≠ 0 then
    (.chain, e.countData.deliverData opcode (data.drop 1) (data.drop 1))
  else
    let total := Envelope.word (data.getD 1 0 &&& 0x0f) (data.getD 2 0)
    e.countData.receiveFirstData opcode total (data.drop 3)

/-- A frame on a channel that is being set up: the module assigns the ids, or refuses. -/
def receiveSetup (e : Engine) (length : Nat) (d : Vector UInt8 8) : AfterFrame × Engine :=
  if length ≠ 7 ∨ d[1] < Opcode.setupAccept ∨ Opcode.setupRejectMax < d[1] then (.stay, e)
  else if d[1] ≠ Opcode.setupAccept then
    (.chain, e.loseChannel.deliverFailure .channelClosed)
  else
    let word := fun (hi lo : UInt8) => (Envelope.word hi lo).toUInt32
    let channel := { e.channel with rxId := word d[3] d[2], txId := word d[5] d[4] }
    (.chain, { e with channel }.requestParams)

/-- A frame on a channel whose parameters have been offered. -/
def receiveParams (e : Engine) (length : Nat) (d : Vector UInt8 8) : AfterFrame × Engine :=
  if length = 0 then (.stay, e)
  else if Frame.leadByte d = Opcode.paramsResponse then
    let channel := { e.channel with
      blockSize := d[1]
      ackTime := decodeTiming d[2]
      sepTime := decodeTiming d[4] }
    (.chain, { e with channel }.sendRequest)
  else if Frame.leadByte d = Opcode.disconnect then (.chain, e.peerClose)
  else (.stay, e)

/-- A frame on a channel that is being closed. A poll that waited for this is now set up. -/
def receiveClosing (e : Engine) (length : Nat) (d : Vector UInt8 8) : AfterFrame × Engine :=
  if length ≠ 1 ∨ Frame.leadByte d ≠ Opcode.disconnect then (.stay, e)
  else
    let e := e.shutChannel
    if !e.isOnChannel then (.chain, e)
    else if e.job.entry.any (·.rx ≠ 0) then (.chain, e.requestSetup)
    else (.chain, e.deliverFailure .channelClosed)

/-- A frame on a channel that has nothing to do. -/
def receiveIdle (e : Engine) (opcode : UInt8) : Engine :=
  if opcode = Opcode.ping then e.sendPong
  else if opcode = Opcode.disconnect then e.peerClose
  else if Opcode.high opcode ≤ DataKind.last.opcode then e.refuseData
  else e

/-- A frame on a channel whose module owes an acknowledgement. -/
def receiveAck (e : Engine) (opcode : UInt8) : Engine :=
  if Opcode.high opcode = Opcode.ackReady then
    if 0 < e.out.remaining then e.sendBlock else e.awaitResponse
  else if Opcode.high opcode = Opcode.ackNotReady then { e with out := e.out.clear }.goIdle
  else if opcode = Opcode.ping then e.sendPong
  else if opcode = Opcode.disconnect then e.peerClose
  else e

/-- A frame on a channel whose module owes a response. -/
def receiveResponse (e : Engine) (opcode : UInt8) (data : List UInt8) : AfterFrame × Engine :=
  if opcode = Opcode.ping then (.chain, e.sendPong)
  else if opcode = Opcode.disconnect then (.chain, e.peerClose)
  else if opcode < 0x40 then e.receiveData opcode data
  else (.chain, e)

/-- What a frame on the channel does in the channel's state. -/
def channelStep (e : Engine) (frame : Frame) : AfterFrame × Engine :=
  let length := min frame.dlc 8
  let d := frame.data
  match e.channel.state with
  | .setup => e.receiveSetup length d
  | .params => e.receiveParams length d
  | .closing => e.receiveClosing length d
  | .idle => (.chain, e.receiveIdle (Frame.leadByte d))
  | .transmit => (.chain, e.receiveAck (if length = 1 then Frame.leadByte d else 0))
  | .receive => e.receiveResponse (Frame.leadByte d) frame.payload
  | .closed | .startPoll | .abort => (.chain, e)

/-- A frame on the channel's id. -/
def receiveVwtp (e : Engine) (frame : Frame) : Engine :=
  if !e.channel.bound then e
  else
    match e.channelStep frame with
    | (.chain, e) => if e.wait = 0 then e.pollNext else e
    | (.stay, e) => e

/-- The id that a received frame carries in the addressing mode of the poll in flight. -/
def responseId (e : Engine) (frame : Frame) : UInt32 :=
  e.job.protocol.isoTpSender frame

/-- A frame that is not on the channel answers the poll in flight, or is nothing to this engine. -/
def receiveOther (e : Engine) (frame : Frame) : Engine :=
  if !e.job.isVwtp && 0 < e.wait && e.job.entry.isSome && e.job.accepts (e.responseId frame) then
    e.receiveIsoTp frame (e.responseId frame)
  else e

/-- The frame is on the channel. -/
def isChannelFrame (e : Engine) (frame : Frame) : Bool :=
  e.channel.isOpen && !frame.extended && frame.id == e.channel.rxId

end EcuPoll.Engine
