import EcuPoll.Engine.Basic

/-!
# Requests over a TP 2.0 channel

The transitions of the channel. `startVwtp` brings the request in flight onto a channel to its
module: a channel to another module is closed first, a missing one is set up, and a transfer that is
still going on is aborted. `keepChannel` is what a primary tick does for the channel.
-/

namespace EcuPoll.Engine

/-- A frame on the channel. -/
def channelFrame (e : Engine) (bytes : List UInt8) : Frame :=
  Frame.cut e.bus e.channel.txId false bytes

/-- The poll in flight is answered on the channel, if it runs over one. -/
def expectOnChannel (e : Engine) : Engine :=
  if e.job.isVwtp then
    { e with job := { e.job with
        txId := e.channel.txId
        sent := e.channel.txId
        low := e.channel.rxId
        high := e.channel.rxId } }
  else e

/-- The channel is in use. -/
def touchChannel (e : Engine) : Engine :=
  { e with channel := e.channel.touch e.now }

/-- The channel is gone. -/
def loseChannel (e : Engine) : Engine :=
  { e with channel := .shut, wait := 0 }

/-- The channel is gone, if there was one. -/
def shutChannel (e : Engine) : Engine :=
  if e.channel.state = .closed then e else e.loseChannel

/-- Asks the module of the poll in flight for a channel. -/
def requestSetup (e : Engine) : Engine :=
  match e.job.entry with
  | none => e
  | some entry =>
    if e.channel.state = .setup || !e.job.isVwtp then e
    else
      let e := { e with channel := e.channel.request entry.tx entry.rx }.expectOnChannel
      { e with
        wait := 2
        channel := { e.channel with state := .setup }.touch e.now }.transmit
        (.setup entry.tx entry.rx) (e.channelFrame (Channel.setupRequest entry.tx entry.rx))

/-- Offers the parameters of the channel. -/
def requestParams (e : Engine) : Engine :=
  if e.channel.state = .params then e
  else
    let e := e.expectOnChannel
    { e with wait := 2, channel := { e.channel with state := .params } }.transmit .params
      (e.channelFrame (Opcode.paramsRequest :: channelParams))

/-- Asks the module to close the channel. -/
def requestClose (e : Engine) : Engine :=
  if e.channel.state = .closing then e
  else
    let e := e.expectOnChannel
    { e with wait := 2, channel := { e.channel with state := .closing } }.transmit .close
      (e.channelFrame [Opcode.disconnect])

/-- The channel is open and has nothing to do. -/
def goIdle (e : Engine) : Engine :=
  if e.channel.state = .idle then e
  else { e with channel := { e.channel with state := .idle }.touch e.now, wait := 0 }

/-- The request is out, a response is to come. -/
def awaitResponse (e : Engine) : Engine :=
  if e.channel.state = .receive then e
  else { e with channel := { e.channel with state := .receive }.touch e.now, wait := 2 }

/-! ### Data frames -/

/-- What stands between the first byte of a message's first frame and its payload: the length of the
message and the request header. -/
def messageLead (header : List UInt8) (length : Nat) : List UInt8 :=
  [UInt8.ofNat (length / 256), UInt8.ofNat length] ++ header

/-- What the next data frame of a request with this header carries before its payload. -/
def dataLead (e : Engine) (header : List UInt8) : List UInt8 :=
  if e.out.frame = 0 then messageLead header (header.length + e.out.remaining) else []

/-- The kind of the next data frame, after which the block may hold `left` more. The last frame of the
request and the last of a block want an acknowledgement. -/
def dataKind (e : Engine) (header : List UInt8) (left : Nat) : DataKind :=
  if (e.out.advance (7 - (e.dataLead header).length)).remaining = 0 then .lastWantsAck
  else if left = 0 then .moreWantsAck
  else .more

/-- Sends the next data frame of a request with this header. -/
def sendFrame (header : List UInt8) (left : Nat) (e : Engine) : Engine :=
  let lead := e.dataLead header
  let room := 7 - lead.length
  let first := Opcode.numbered (e.dataKind header left).opcode e.channel.txSeq
  let frame := e.channelFrame (first :: lead ++ e.out.chunk room)
  let now := (if 0 < e.channel.txSeq then e.pause e.channel.sepTime else e).now
  { e with
    now
    out := (e.out.advance room).countFrame
    channel := { e.channel with txSeq := e.channel.txSeq + 1 } }.transmit (.data e.out.frame) frame

/-- Sends the next data frames of a request with this header, at most as many as a block may still
hold. -/
def sendFrames (header : List UInt8) : Nat → Engine → Engine
  | 0, e => e
  | left + 1, e =>
    let e := e.sendFrame header left
    if e.out.remaining = 0 then e else sendFrames header left e

/-- A block has been sent and is to be acknowledged. -/
def awaitAck (e : Engine) : Engine :=
  let e := e.expectOnChannel
  { e with wait := 2, channel := { e.channel with state := .transmit }.touch e.now }

/-- Sends a block of the request in flight. -/
def sendBlock (e : Engine) : Engine :=
  match e.job.entry with
  | none => e
  | some entry => (sendFrames entry.header (max 1 e.channel.blockSize.toNat) e).awaitAck

/-- Sends the first block of the request in flight. -/
def sendRequest (e : Engine) : Engine :=
  match e.job.entry with
  | none => e
  | some entry =>
    { e with
      out := .load entry.payload 0 (payloadLimit entry.header)
      job := e.job.resetMultiframe }.sendBlock

/-- Stops the transfer that is going on: a response by refusing more, a request by an empty last
frame. -/
def abortTransfer (e : Engine) : Engine :=
  let (first, channel) :=
    if e.channel.state = .receive then
      (Opcode.numbered Opcode.ackNotReady e.channel.rxSeq, e.channel)
    else
      (Opcode.numbered DataKind.last.opcode e.channel.txSeq,
        { e.channel with txSeq := e.channel.txSeq + 1 })
  let e := { e with channel }.expectOnChannel
  { e with
    out := e.out.clear
    job := { e.job with mlRemain := 0 }
    channel := { e.channel with state := .idle }.touch e.now
    wait := 0 }.transmit .abort (e.channelFrame [first])

/-- Answers a channel test. -/
def sendPong (e : Engine) : Engine :=
  e.transmit .pong (e.channelFrame (Opcode.paramsResponse :: channelParams))

/-- Acknowledges the data frames so far. -/
def sendAck (e : Engine) : Engine :=
  e.transmit .ack (e.channelFrame [Opcode.numbered Opcode.ackReady e.channel.rxSeq])

/-- Refuses data that nobody asked for. -/
def refuseData (e : Engine) : Engine :=
  let e := { e with channel := { e.channel with rxSeq := e.channel.rxSeq + 1 } }
  e.transmit .refusal (e.channelFrame [Opcode.numbered Opcode.ackNotReady e.channel.rxSeq])

/-! ### Starting, losing and keeping a channel -/

/-- Ends what the channel is doing. After an aborted response the module may still send a block. -/
def interrupt (e : Engine) : Engine :=
  match e.channel.state with
  | .transmit => e.abortTransfer
  | .receive =>
    let e := e.abortTransfer
    e.pause (e.channel.sepTime * e.channel.blockSize.toNat)
  | _ => e

/-- Starts the request in flight on a channel to its module. Module 0 stands for no module: such a
request only closes the channel. -/
def startVwtp (e : Engine) : Engine :=
  match e.job.entry with
  | none => e
  | some entry =>
    let e := e.touchChannel
    if e.channel.isFor entry.tx entry.rx then
      if e.channel.state.isHalfOpen then e.requestSetup else e.interrupt.sendRequest
    else if e.channel.isOpen then e.requestClose
    else if entry.rx ≠ 0 then e.requestSetup
    else e.deliverFailure .channelClosed

/-- The poll in flight runs over the channel. -/
def isOnChannel (e : Engine) : Bool :=
  e.active && e.job.isVwtp

/-- The module closes the channel; it is told so and the poll in flight fails. -/
def peerClose (e : Engine) : Engine :=
  let e := e.requestClose.shutChannel
  if e.isOnChannel then e.deliverFailure .channelClosed else e

/-- A wait that began less than this many ms ago does not run out. -/
def waitGrace : Nat := 200

/-- Moves the channel on when its wait has run out. A poll that waited for another channel to close is
brought onto its own. -/
def timeOutChannel (e : Engine) : Engine :=
  if 0 < e.wait then
    match e.channel.state with
    | .setup | .params => e.shutChannel
    | .closing => if e.shutChannel.isOnChannel then e.shutChannel.startVwtp else e.shutChannel
    | _ => e
  else if e.channel.state ≠ .closed ∧ e.channel.state ≠ .idle then e.requestClose
  else e

/-- Closes a channel that has not been used for long. -/
def closeUnused (e : Engine) : Engine :=
  if e.channel.state = .idle && e.wait = 0 && e.keepalive ≠ 0 &&
      e.channel.unusedFor e.now e.keepalive then e.requestClose
  else e

/-- Looks after the channel. A wait that began just now gets one more tick. -/
def keepChannel (e : Engine) : Engine :=
  if e.wait = 1 && e.channel.usedWithin e.now waitGrace then { e with wait := 2 }
  else e.timeOutChannel.closeUnused

end EcuPoll.Engine
