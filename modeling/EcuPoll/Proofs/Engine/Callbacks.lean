import EcuPoll.Proofs.Engine.Rounds
import EcuPoll.Proofs.Vwtp.Beside

/-!
# When the receiver of results is called

An operation makes an engine do its own work first (`attended`): it takes the frame, or counts the wait
down and looks after the channel. Only then are the results of writes looked at and is the next poll chosen.
`Tells` lists the operations whose work hands on a piece of news of the poll in flight, `Resends` those that
send data of its request. Work that tells calls the receiver of results once, or serves the single request that
has the bus (`Informs`); all other work calls nobody (`attended_attends`).
-/

namespace EcuPoll

/-- A frame of this kind carries data of a request. -/
def FrameKind.isRequest : FrameKind → Bool
  | .opening | .consecutive | .data _ => true
  | _ => false

namespace Event

/-- The receiver of results is called with a part of a response, or because a poll failed. -/
def isOutcome : Event → Bool
  | .reply _ _ _ | .failed _ _ => true
  | _ => false

/-- The receiver of results is called: with an outcome, or because a frame was sent or was not. -/
def isCallback : Event → Bool
  | .reply _ _ _ | .failed _ _ | .sent _ _ => true
  | _ => false

/-- The last outcome of a poll: the end of its response, or its failure. -/
def isFinal : Event → Bool
  | .reply _ _ remain => remain == 0
  | .failed _ _ => true
  | _ => false

/-- Request data goes out. -/
def isRequestData : Event → Bool
  | .wrote kind _ _ => kind.isRequest
  | _ => false

/-- No poll begins, and the receiver of results is not called. -/
def IsSilent (event : Event) : Prop :=
  event.isDispatch = false ∧ event.isCallback = false

theorem IsWrite.isSilent {event : Event} (h : event.IsWrite) : event.IsSilent := by
  cases event <;> first | exact h.elim | exact ⟨rfl, rfl⟩

theorem IsWork.isWrite {event : Event} (h : event.IsWork) : event.IsWrite := by
  cases event <;> first | exact h.elim | trivial

theorem IsWork.isSilent {event : Event} (h : event.IsWork) : event.IsSilent := h.isWrite.isSilent

end Event

namespace Engine
variable {sends : Prop} {e e' e'' : Engine} {frame : Frame}

/-! ### What an operation brings -/

/-- The segment is the answer to the poll in flight or turns it down for good. -/
def Settles (e : Engine) (segment : List UInt8) : Prop :=
  match e.judge segment with
  | .answer _ => True
  | .refused code => code.isPending = false
  | .foreign => False

/-- The piece of an ISO-TP message brings news of the poll in flight. -/
def SegmentTells (e : Engine) : Segment → Prop
  | .single data | .first _ data => e.Settles data
  | .consecutive index _ => e.isNumberOk index = true
  | .flow _ _ _ => False

/-- The frame may answer the poll in flight over ISO-TP. -/
def MayAnswer (e : Engine) (frame : Frame) : Prop :=
  e.job.isVwtp = false ∧ 0 < e.wait ∧ e.job.entry.isSome = true ∧ e.job.accepts (e.responseId frame) = true

/-- The frame on the channel brings news of the poll in flight. -/
inductive ChannelTells (e : Engine) (frame : Frame) : Prop
  /-- The module turns the channel down. -/
  | rejected (hs : e.channel.state = .setup) (hl : frame.dlc = 7) (hd : Opcode.setupAccept < frame.data[1])
    (hm : frame.data[1] ≤ Opcode.setupRejectMax)
  /-- The module closes the channel of the poll. -/
  | closes (hs : e.channel.state = .params ∧ frame.dlc ≠ 0 ∨ e.channel.state = .transmit ∧ frame.dlc = 1 ∨
      e.channel.state = .idle ∨ e.channel.state = .receive)
    (hd : Frame.leadByte frame.data = Opcode.disconnect) (hv : e.isOnChannel = true)
  /-- The channel is closed, as the poll asked for. -/
  | closed (hs : e.channel.state = .closing) (hl : frame.dlc = 1)
    (hd : Frame.leadByte frame.data = Opcode.disconnect) (hv : e.isOnChannel = true)
    (hr : e.job.entry.any (·.rx ≠ 0) = false)
  /-- The module sends data of the response. -/
  | data (hs : e.channel.state = .receive) (ho : Frame.leadByte frame.data < 0x40)
    (hn : Frame.leadByte frame.data &&& 0x0f = e.channel.rxSeq &&& 0x0f)
    (ht : e.job.mlFrame ≠ 0 ∨ e.Settles (frame.payload.drop 3))

/-- The frame on the channel makes the engine send request data. -/
inductive ChannelResends (e : Engine) (frame : Frame) : Prop
  /-- The module answers with its parameters. -/
  | agreed (hs : e.channel.state = .params) (hl : frame.dlc ≠ 0)
    (hd : Frame.leadByte frame.data = Opcode.paramsResponse)
  /-- The module is ready for the next block. -/
  | ready (hs : e.channel.state = .transmit) (hl : frame.dlc = 1)
    (hd : Opcode.high (Frame.leadByte frame.data) = Opcode.ackReady) (ho : 0 < e.out.remaining)

/-- A primary tick begins: the wait counter runs down. -/
def begin (e : Engine) : Engine :=
  { e.emit (.stateTicker e.bus) with schedule := e.schedule.resetSequence, wait := e.wait - 1 }

/-- What the engine makes of an operation before the results of writes are looked at. -/
def attended (e : Engine) : Operation → Engine
  | .frame frame =>
    if frame.bus ≠ e.bus then e
    else if e.isChannelFrame frame then (e.channelStep frame).2
    else e.receiveOther frame
  | .tick true => e.begin.keepChannel.expireSingle
  | .tick false => { e with schedule := e.schedule.resetSequence }
  | .sendSuccess => if e.successDue.any (· ≤ e.now) then { e with successDue := none } else e
  | _ => e

/-- The wait for the channel to close has run out, and the poll in flight asked for nothing else. -/
def ClosesFor (e : Engine) : Prop :=
  0 < e.wait ∧ ¬ (e.wait = 1 ∧ e.channel.usedWithin e.now waitGrace = true) ∧ e.channel.state = .closing ∧
    e.isOnChannel = true ∧ ∃ entry, e.job.entry = some entry ∧ entry.rx = 0

/-- The operation brings news of the poll in flight. -/
inductive Tells (e : Engine) : Operation → Prop
  | segment {frame : Frame} {segment : Segment} (hb : frame.bus = e.bus) (hc : e.isChannelFrame frame = false)
    (hf : e.MayAnswer frame) (hs : Segment.ofBytes? (e.job.protocol.isoTpData frame) = some segment)
    (ht : e.SegmentTells segment) : Tells e (.frame frame)
  | channel {frame : Frame} (hb : frame.bus = e.bus) (hc : e.isChannelFrame frame = true)
    (ht : e.ChannelTells frame) : Tells e (.frame frame)
  | timeOut (hc : e.begin.ClosesFor) : Tells e (.tick true)

/-- The operation makes the engine send data of the request in flight. -/
inductive Resends (e : Engine) : Operation → Prop
  | flow {frame : Frame} {command blockSize septime : UInt8} (hb : frame.bus = e.bus)
    (hc : e.isChannelFrame frame = false) (hf : e.MayAnswer frame)
    (hs : Segment.ofBytes? (e.job.protocol.isoTpData frame) = some (.flow command blockSize septime))
    (hg : FlowCommand.ofByte? command = some .goOn) (ho : 0 < e.out.remaining) : Resends e (.frame frame)
  | channel {frame : Frame} (hb : frame.bus = e.bus) (hc : e.isChannelFrame frame = true)
    (ht : e.ChannelResends frame) : Resends e (.frame frame)

/-! ### Work that calls nobody -/

theorem isOnChannel_shutChannel_eq (e : Engine) : e.shutChannel.isOnChannel = e.isOnChannel := by
  unfold shutChannel
  split <;> rfl

theorem job_shutChannel (e : Engine) : e.shutChannel.job = e.job := by
  unfold shutChannel
  split <;> rfl

theorem isOnChannel_requestClose (e : Engine) : e.requestClose.isOnChannel = e.isOnChannel := by
  unfold requestClose
  split
  · rfl
  · obtain ⟨_, _, _, _, heq⟩ := expectOnChannel_eq_update e
    rw [transmit_eq, heq]
    rfl

/-- No poll begins and the receiver of results is not called. Request data goes out only if `sends` holds. -/
structure Attends (sends : Prop) (e e' : Engine) : Prop where
  single : e'.single = e.single
  queued : e'.queued = e.queued
  log : Adds Event.IsSilent e e'
  plain : ¬ sends → Adds (·.isRequestData = false) e e'

namespace Attends

theorem of_eq (hs : e'.single = e.single) (hq : e'.queued = e.queued) (hl : e'.log = e.log) :
    Attends sends e e' :=
  ⟨hs, hq, .of_log hl, fun _ => .of_log hl⟩

theorem refl (e : Engine) : Attends sends e e := .of_eq rfl rfl rfl

theorem trans (h : Attends sends e e') (h' : Attends sends e' e'') : Attends sends e e'' where
  single := h'.single.trans h.single
  queued := h'.queued.trans h.queued
  log := h.log.trans h'.log
  plain hn := (h.plain hn).trans (h'.plain hn)

theorem mono {sends' : Prop} (h : Attends sends e e') (hs : sends → sends') : Attends sends' e e' :=
  ⟨h.single, h.queued, h.log, fun hn => h.plain fun hs' => hn (hs hs')⟩

/-- Request data goes out, if there was a reason for it. -/
theorem send (hw : Works e e') (hs : sends) : Attends sends e e' :=
  ⟨hw.single, hw.queued, hw.log.mono fun _ => Event.IsWork.isSilent, absurd hs⟩

/-- The poll in flight, its request, the clock and the channel move on. -/
theorem update (h : Attends sends e e') (now : Nat) (job : PollJob) (wait : Nat) (out : Outbound)
    (channel : Channel) : Attends sends e { e' with now, job, wait, out, channel } :=
  h.trans (.of_eq rfl rfl rfl)

theorem emit (h : Attends sends e e') {event : Event} (hev : event.IsSilent)
    (hr : event.isRequestData = false) : Attends sends e (e'.emit event) :=
  h.trans ⟨rfl, rfl, (Adds.refl _).emit hev, fun _ => (Adds.refl _).emit hr⟩

theorem transmit (h : Attends sends e e') {kind : FrameKind} (hk : kind.isRequest = false) (frame : Frame) :
    Attends sends e (e'.transmit kind frame) := by
  refine h.trans ?_
  rw [transmit_eq]
  exact ⟨rfl, rfl, ⟨[_], rfl, List.forall_mem_singleton.2 ⟨rfl, rfl⟩⟩,
    fun _ => ⟨[_], rfl, List.forall_mem_singleton.2 hk⟩⟩

theorem expectOnChannel (h : Attends sends e e') : Attends sends e e'.expectOnChannel := by
  unfold Engine.expectOnChannel
  split
  · exact h.update ..
  · exact h

theorem shutChannel (h : Attends sends e e') : Attends sends e e'.shutChannel := by
  unfold Engine.shutChannel
  split
  · exact h
  · exact h.update ..

theorem requestSetup (h : Attends sends e e') : Attends sends e e'.requestSetup := by
  unfold Engine.requestSetup
  split
  · exact h
  · split
    · exact h
    · exact ((h.update ..).expectOnChannel.update ..).transmit rfl _

theorem requestParams (h : Attends sends e e') : Attends sends e e'.requestParams := by
  unfold Engine.requestParams
  split
  · exact h
  · exact (h.expectOnChannel.update ..).transmit rfl _

theorem requestClose (h : Attends sends e e') : Attends sends e e'.requestClose := by
  unfold Engine.requestClose
  split
  · exact h
  · exact (h.expectOnChannel.update ..).transmit rfl _

theorem goIdle (h : Attends sends e e') : Attends sends e e'.goIdle := by
  unfold Engine.goIdle
  split
  · exact h
  · exact h.update ..

theorem awaitResponse (h : Attends sends e e') : Attends sends e e'.awaitResponse := by
  unfold Engine.awaitResponse
  split
  · exact h
  · exact h.update ..

theorem abortTransfer (h : Attends sends e e') : Attends sends e e'.abortTransfer := by
  unfold Engine.abortTransfer
  exact ((h.update ..).expectOnChannel.update ..).transmit rfl _

theorem sendPong (h : Attends sends e e') : Attends sends e e'.sendPong := h.transmit rfl _

theorem acknowledge (h : Attends sends e e') (opcode : UInt8) : Attends sends e (e'.acknowledge opcode) := by
  unfold Engine.acknowledge
  split
  · exact h.transmit rfl _
  · exact h

theorem refuseData (h : Attends sends e e') : Attends sends e e'.refuseData :=
  (h.update ..).transmit rfl _

theorem peerClose (h : Attends sends e e') (hv : e'.isOnChannel = false) : Attends sends e e'.peerClose := by
  unfold Engine.peerClose
  dsimp only
  rw [isOnChannel_shutChannel_eq, isOnChannel_requestClose, hv]
  exact h.requestClose.shutChannel

end Attends

theorem receiveData_attends (ht : Frame.leadByte frame.data &&& 0x0f = e.channel.rxSeq &&& 0x0f →
    ¬ (e.job.mlFrame ≠ 0 ∨ e.Settles (frame.payload.drop 3))) :
    Attends sends e (e.receiveData (Frame.leadByte frame.data) frame.payload).2 := by
  have hc : Attends sends e e.countData := (Attends.refl e).update ..
  unfold receiveData
  by_cases hn : Frame.leadByte frame.data &&& 0x0f ≠ e.channel.rxSeq &&& 0x0f
  · rw [if_pos hn]
    exact hc.abortTransfer
  · rw [if_neg hn]
    have hno := ht (Decidable.not_not.1 hn)
    rw [not_or] at hno
    rw [if_neg hno.1]
    unfold receiveFirstData
    dsimp only
    generalize Envelope.word _ _ = total
    have ht : Attends sends e { e.countData with job := { e.countData.job with mlRemain := total } } :=
      hc.update ..
    have hjudge : Engine.judge { e.countData with job := { e.countData.job with mlRemain := total } }
        (frame.payload.drop 3) = e.judge (frame.payload.drop 3) := rfl
    have hsettles := hno.2
    unfold Settles at hsettles
    rw [hjudge]
    rcases hv : e.judge (frame.payload.drop 3) with payload | code | _ <;> rw [hv] at hsettles
    · exact absurd trivial hsettles
    · dsimp only at hsettles ⊢
      rw [if_pos (by simpa using hsettles)]
      exact (ht.acknowledge _).update ..
    · exact ht.abortTransfer

theorem receiveSetup_attends (hs : e.channel.state = .setup) (ht : ¬ e.ChannelTells frame) :
    Attends sends e (e.receiveSetup (min frame.dlc 8) frame.data).2 := by
  have hr := @Attends.refl sends e
  unfold receiveSetup
  by_cases hl : min frame.dlc 8 ≠ 7 ∨ frame.data[1] < Opcode.setupAccept ∨ Opcode.setupRejectMax < frame.data[1]
  · rw [if_pos hl]
    exact hr
  · rw [if_neg hl]
    simp only [not_or, Decidable.not_not, UInt8.not_lt] at hl
    by_cases hne : frame.data[1] ≠ Opcode.setupAccept
    · rw [if_pos hne]
      exact absurd (.rejected hs (by omega) (UInt8.lt_of_le_of_ne hl.2.1 (Ne.symm hne)) hl.2.2) ht
    · rw [if_neg hne]
      exact (hr.update ..).requestParams

theorem receiveParams_attends (hs : e.channel.state = .params) (ht : ¬ e.ChannelTells frame) :
    Attends (e.ChannelResends frame) e (e.receiveParams (min frame.dlc 8) frame.data).2 := by
  have hr := @Attends.refl (e.ChannelResends frame) e
  unfold receiveParams
  by_cases hl : min frame.dlc 8 = 0
  · rw [if_pos hl]
    exact hr
  · rw [if_neg hl]
    have hlen : frame.dlc ≠ 0 := by omega
    by_cases ha : Frame.leadByte frame.data = Opcode.paramsResponse
    · rw [if_pos ha]
      exact .send ((Works.refl e).update ..).sendRequest (.agreed hs hlen ha)
    · rw [if_neg ha]
      by_cases hc : Frame.leadByte frame.data = Opcode.disconnect
      · rw [if_pos hc]
        exact hr.peerClose (Bool.eq_false_iff.2 fun hv => ht (.closes (.inl ⟨hs, hlen⟩) hc hv))
      · rw [if_neg hc]
        exact hr

theorem receiveClosing_attends (hs : e.channel.state = .closing) (ht : ¬ e.ChannelTells frame) :
    Attends sends e (e.receiveClosing (min frame.dlc 8) frame.data).2 := by
  have hr := @Attends.refl sends e
  unfold receiveClosing
  by_cases hl : min frame.dlc 8 ≠ 1 ∨ Frame.leadByte frame.data ≠ Opcode.disconnect
  · rw [if_pos hl]
    exact hr
  · rw [if_neg hl]
    simp only [not_or, Decidable.not_not] at hl
    dsimp only
    rw [isOnChannel_shutChannel_eq]
    by_cases hv : (!e.isOnChannel) = true
    · rw [if_pos hv]
      exact hr.shutChannel
    · rw [if_neg hv]
      by_cases hrx : e.shutChannel.job.entry.any (·.rx ≠ 0) = true
      · rw [if_pos hrx]
        exact hr.shutChannel.requestSetup
      · rw [if_neg hrx]
        rw [job_shutChannel] at hrx
        exact absurd (.closed hs (by omega) hl.2 (by simpa using hv) (by simpa using hrx)) ht

theorem receiveIdle_attends (hs : e.channel.state = .idle) (ht : ¬ e.ChannelTells frame) :
    Attends sends e (e.receiveIdle (Frame.leadByte frame.data)) := by
  have hr := @Attends.refl sends e
  unfold receiveIdle
  split
  · exact hr.sendPong
  · by_cases hc : Frame.leadByte frame.data = Opcode.disconnect
    · rw [if_pos hc]
      exact hr.peerClose (Bool.eq_false_iff.2 fun hv => ht (.closes (.inr (.inr (.inl hs))) hc hv))
    · rw [if_neg hc]
      split
      · exact hr.refuseData
      · exact hr

theorem receiveAck_attends (hs : e.channel.state = .transmit) (hl : frame.dlc = 1)
    (ht : ¬ e.ChannelTells frame) :
    Attends (e.ChannelResends frame) e (e.receiveAck (Frame.leadByte frame.data)) := by
  have hr := @Attends.refl (e.ChannelResends frame) e
  unfold receiveAck
  by_cases ha : Opcode.high (Frame.leadByte frame.data) = Opcode.ackReady
  · rw [if_pos ha]
    by_cases ho : 0 < e.out.remaining
    · rw [if_pos ho]
      exact .send (Works.refl e).sendBlock (.ready hs hl ha ho)
    · rw [if_neg ho]
      exact hr.awaitResponse
  · rw [if_neg ha]
    split
    · exact (hr.update ..).goIdle
    · split
      · exact hr.sendPong
      · by_cases hc : Frame.leadByte frame.data = Opcode.disconnect
        · rw [if_pos hc]
          exact hr.peerClose (Bool.eq_false_iff.2 fun hv => ht (.closes (.inr (.inl ⟨hs, hl⟩)) hc hv))
        · rw [if_neg hc]
          exact hr

theorem receiveResponse_attends (hs : e.channel.state = .receive) (ht : ¬ e.ChannelTells frame) :
    Attends sends e (e.receiveResponse (Frame.leadByte frame.data) frame.payload).2 := by
  have hr := @Attends.refl sends e
  unfold receiveResponse
  split
  · exact hr.sendPong
  · by_cases hc : Frame.leadByte frame.data = Opcode.disconnect
    · rw [if_pos hc]
      exact hr.peerClose (Bool.eq_false_iff.2 fun hv => ht (.closes (.inr (.inr (.inr hs))) hc hv))
    · rw [if_neg hc]
      by_cases ho : Frame.leadByte frame.data < 0x40
      · rw [if_pos ho]
        exact receiveData_attends fun hn hd => ht (.data hs ho hn hd)
      · rw [if_neg ho]
        exact hr

/-- A frame on the channel that brings no news. -/
theorem channelStep_attends (ht : ¬ e.ChannelTells frame) :
    Attends (e.ChannelResends frame) e (e.channelStep frame).2 := by
  have hr := @Attends.refl (e.ChannelResends frame) e
  unfold channelStep
  dsimp only
  cases hs : e.channel.state with
  | setup => exact receiveSetup_attends hs ht
  | params => exact receiveParams_attends hs ht
  | closing => exact receiveClosing_attends hs ht
  | idle => exact receiveIdle_attends hs ht
  | transmit =>
    -- a frame of another length stands for an acknowledgement of no kind
    by_cases hl : frame.dlc = 1
    · rw [if_pos (by omega)]
      exact receiveAck_attends hs hl ht
    · rw [if_neg (by omega)]
      exact hr
  | receive => exact receiveResponse_attends hs ht
  | closed | startPoll | abort => exact hr

theorem receiveOpening_attends {id : UInt32} {total : UInt16} {segment : List UInt8} {first : Bool}
    (hno : ¬ e.Settles segment) : Attends sends e (e.receiveOpening id total segment first) := by
  have hr := @Attends.refl sends e
  unfold receiveOpening
  unfold Settles at hno
  cases hv : e.judge segment with
  | foreign => exact hr
  | refused code =>
    rw [hv] at hno
    dsimp only
    rw [if_pos (by simpa using hno)]
    exact hr.update ..
  | answer payload =>
    rw [hv] at hno
    exact absurd trivial hno

theorem isoTpFlow_attends {id : UInt32} {command blockSize septime : UInt8}
    (hs : FlowCommand.ofByte? command = some .goOn → 0 < e.out.remaining → sends) :
    Attends sends e (e.isoTpFlow id command blockSize septime) := by
  have hr := @Attends.refl sends e
  by_cases hg : FlowCommand.ofByte? command = some .goOn ∧ 0 < e.out.remaining
  · exact .send ((Works.refl e).isoTpFlow ..) (hs hg.1 hg.2)
  · unfold isoTpFlow
    by_cases ho : e.out.remaining = 0
    · rw [if_pos ho]
      exact hr
    · rw [if_neg ho]
      cases hc : FlowCommand.ofByte? command with
      | none => exact hr
      | some flow =>
        cases flow with
        | goOn => exact absurd ⟨hc, by omega⟩ hg
        | wait => exact hr.update ..
        | abort => exact hr.update ..

/-- A frame beside the channel that brings no news. -/
theorem receiveOther_attends (ht : e.MayAnswer frame → ∀ segment,
      Segment.ofBytes? (e.job.protocol.isoTpData frame) = some segment → ¬ e.SegmentTells segment)
    (hs : e.MayAnswer frame → ∀ command blockSize septime,
      Segment.ofBytes? (e.job.protocol.isoTpData frame) = some (.flow command blockSize septime) →
      FlowCommand.ofByte? command = some .goOn → 0 < e.out.remaining → sends) :
    Attends sends e (e.receiveOther frame) := by
  have hr := @Attends.refl sends e
  unfold receiveOther
  by_cases hf : (!e.job.isVwtp && 0 < e.wait && e.job.entry.isSome && e.job.accepts (e.responseId frame)) = true
  · rw [if_pos hf]
    have hf : e.MayAnswer frame := by simpa [MayAnswer, and_assoc] using hf
    have ht := ht hf
    unfold receiveIsoTp
    cases hseg : Segment.ofBytes? (e.job.protocol.isoTpData frame) with
    | none => exact hr
    | some segment =>
      cases segment with
      | flow => exact isoTpFlow_attends fun hgo hout => hs hf _ _ _ hseg hgo hout
      | single => exact receiveOpening_attends (ht _ hseg)
      | first => exact receiveOpening_attends (ht _ hseg)
      | consecutive =>
        dsimp only
        unfold receiveConsecutive
        rw [if_pos (by simpa [SegmentTells] using ht _ hseg)]
        exact hr.update ..
  · rw [if_neg hf]
    exact hr

theorem channel_shutChannel_eq (hs : e.channel.state ≠ .closed) : e.shutChannel.channel = .shut := by
  unfold shutChannel
  rw [if_neg hs]
  rfl

/-- A poll whose channel has been shut asks for it anew. -/
theorem startVwtp_shut (hc : e.channel = .shut) {entry : PollEntry} (he : e.job.entry = some entry) :
    e.startVwtp = if entry.rx ≠ 0 then e.touchChannel.requestSetup
      else e.touchChannel.deliverFailure .channelClosed := by
  have hfor : e.touchChannel.channel.isFor entry.tx entry.rx = false := by
    simp [touchChannel, hc, Channel.touch, Channel.isFor, Channel.shut]
  have hopen : e.touchChannel.channel.isOpen = false := by
    simp [touchChannel, hc, Channel.touch, Channel.isOpen, Channel.shut]
  simp only [startVwtp, he, hfor, hopen, Bool.false_eq_true, if_false]

theorem closeUnused_attends (h : Attends sends e e') : Attends sends e e'.closeUnused := by
  unfold closeUnused
  split
  · exact h.requestClose
  · exact h

theorem keepChannel_attends (ht : ¬ e.ClosesFor) : Attends sends e e.keepChannel := by
  have hr := @Attends.refl sends e
  unfold keepChannel
  by_cases hg : (e.wait = 1 && e.channel.usedWithin e.now waitGrace) = true
  · rw [if_pos hg]
    exact hr.update ..
  · rw [if_neg hg]
    refine closeUnused_attends ?_
    unfold timeOutChannel
    by_cases hw : 0 < e.wait
    · rw [if_pos hw]
      cases hs : e.channel.state with
      | setup => exact hr.shutChannel
      | params => exact hr.shutChannel
      | closing =>
        rw [isOnChannel_shutChannel_eq]
        by_cases hv : e.isOnChannel = true
        · rw [if_pos hv]
          cases he : e.job.entry with
          | none =>
            have heq : e.shutChannel.startVwtp = e.shutChannel := by simp [startVwtp, job_shutChannel, he]
            rw [heq]
            exact hr.shutChannel
          | some entry =>
            rw [startVwtp_shut (channel_shutChannel_eq (by simp [hs])) (by rw [job_shutChannel, he])]
            -- a poll that asks for a module is set up anew, whatever the wait was for
            have hrx : entry.rx ≠ 0 := fun hrx => ht ⟨hw, by simpa using hg, hs, hv, entry, he, hrx⟩
            rw [if_pos hrx]
            exact Attends.requestSetup (hr.shutChannel.update ..)
        · rw [if_neg hv]
          exact hr.shutChannel
      | _ => exact hr
    · rw [if_neg hw]
      split
      · exact hr.requestClose
      · exact hr

theorem begin_attends (e : Engine) : Attends sends e e.begin :=
  ((Attends.refl e).emit ⟨rfl, rfl⟩ rfl).trans (.of_eq rfl rfl rfl)

/-- Work that brings no news of the poll in flight calls nobody. -/
theorem attended_attends {op : Operation} (hs : e.single = none) (ht : ¬ e.Tells op) :
    Attends (e.Resends op) e (e.attended op) := by
  unfold attended
  cases op with
  | frame frame =>
    dsimp only
    by_cases hb : frame.bus ≠ e.bus
    · rw [if_pos hb]
      exact .refl e
    · rw [if_neg hb]
      have hb : frame.bus = e.bus := by simpa using hb
      by_cases hc : e.isChannelFrame frame = true
      · rw [if_pos hc]
        exact (channelStep_attends fun h => ht (.channel hb hc h)).mono (.channel hb hc)
      · rw [if_neg hc]
        have hc : e.isChannelFrame frame = false := by simpa using hc
        exact receiveOther_attends (fun hf _ hseg h => ht (.segment hb hc hf hseg h))
          fun hf _ _ _ hseg hg ho => .flow hb hc hf hseg hg ho
  | tick primary =>
    cases primary with
    | true =>
      have hno : ¬ e.begin.ClosesFor := fun hc => ht (.timeOut hc)
      have hk := (@begin_attends (e.Resends (.tick true)) e).trans (keepChannel_attends hno)
      dsimp only
      unfold expireSingle
      rw [hk.single, hs]
      exact hk
    | false => exact .of_eq rfl rfl rfl
  | sendSuccess =>
    dsimp only
    split
    · exact .of_eq rfl rfl rfl
    · exact .refl e
  | _ => exact .refl e

/-! ### Work that hands on news -/

/-- A piece of news of the poll in flight is handed on, to the single request that has the bus or else to the
receiver of results. The flag says whether it is the last. -/
inductive Relays (e : Engine) : Bool → Engine → Prop
  | reply (data : List UInt8) : Relays e (e.job.mlRemain == 0) (e.deliverReply data)
  | failure (failure : PollFailure) : Relays e true (e.deliverFailure failure)

namespace Relays
variable {last : Bool}

theorem delivers (h : Relays e last e') : Delivers e e' := by
  cases h with
  | reply data => exact .deliverReply ..
  | failure failure => exact .deliverFailure ..

theorem told (h : Relays e last e') (hs : e.single = none) :
    ∃ event : Event, event.isOutcome = true ∧ event.isFinal = last ∧ e' = e.emit event := by
  cases h with
  | reply data =>
    simp only [deliverReply, hs]
    exact ⟨_, rfl, rfl, rfl⟩
  | failure failure =>
    simp only [deliverFailure, hs]
    exact ⟨_, rfl, rfl, rfl⟩

theorem finishSingle_ends (e : Engine) (result : SingleResult) (hs : e.single.isSome = true) :
    Adds Event.IsSilent e (e.finishSingle result) ∧ (e.finishSingle result).wait = 0 := by
  unfold Engine.finishSingle
  cases hn : e.single with
  | none =>
    rw [hn] at hs
    cases hs
  | some _ => exact ⟨⟨[_], rfl, List.forall_mem_singleton.2 ⟨rfl, rfl⟩⟩, rfl⟩

/-- The single request takes the news. It keeps the bus, or nothing is awaited any more. -/
theorem served (h : Relays e last e') (hs : e.single.isSome = true) :
    Adds Event.IsSilent e e' ∧ (e'.single.isSome = true ∨ last = true) := by
  obtain ⟨capture, hc⟩ := Option.isSome_iff_exists.1 hs
  cases h with
  | reply data =>
    simp only [deliverReply, hc]
    by_cases hr : e.job.mlRemain = 0
    · rw [if_pos hr]
      exact ⟨(finishSingle_ends e _ hs).1, .inr (by simp [hr])⟩
    · rw [if_neg hr]
      exact ⟨.of_log rfl, .inl rfl⟩
  | failure failure =>
    simp only [deliverFailure, hc]
    exact ⟨(finishSingle_ends e _ hs).1, .inr trivial⟩

theorem wait (h : Relays e last e') (hw : e.wait = 0) : e'.wait = 0 := by
  have hfinish : ∀ result, (e.finishSingle result).wait = 0 := fun result => by
    unfold Engine.finishSingle
    split
    · exact hw
    · rfl
  cases h with
  | reply data =>
    have hd := deliverReply_delivered e data
    generalize e.deliverReply data = e' at hd ⊢
    cases hd with
    | report => exact hw
    | whole => exact hfinish _
    | part => exact hw
  | failure failure =>
    unfold deliverFailure
    split
    · exact hw
    · exact hfinish _

end Relays

/-- One piece of news is handed on, and nothing is awaited after the last. -/
inductive Informs (e e' : Engine) : Prop
  | intro {last : Bool} {e₁ e₂ : Engine} (before : Attends True e e₁) (relays : Relays e₁ last e₂)
    (after : Attends True e₂ e') (hw : last = true → e'.wait = 0) : Informs e e'

namespace Informs

theorem of_attends (h : Informs e' e'') (ha : Attends True e e') : Informs e e'' := by
  cases h with
  | intro before relays after hw => exact ⟨ha.trans before, relays, after, hw⟩

/-- The receiver of results is called once. -/
theorem told (h : Informs e e') (hs : e.single = none) : e'.single = none ∧
    ∃ e₁, ∃ event : Event, Adds Event.IsSilent e e₁ ∧ event.isOutcome = true ∧
      Adds Event.IsSilent (e₁.emit event) e' ∧ (event.isFinal = true → e'.wait = 0) := by
  cases h with
  | @intro last e₁ e₂ before relays after hw =>
    have hs₁ := before.single.trans hs
    obtain ⟨event, ho, hf, rfl⟩ := relays.told hs₁
    exact ⟨after.single.trans hs₁, e₁, event, before.log, ho, after.log, fun h => hw (hf ▸ h)⟩

theorem served (h : Informs e e') (hs : e.single.isSome = true) :
    Adds Event.IsSilent e e' ∧ (e'.single.isSome = true ∨ e'.wait = 0) := by
  cases h with
  | intro before relays after hw =>
    obtain ⟨hlog, hend⟩ := relays.served (before.single ▸ hs)
    exact ⟨(before.log.trans hlog).trans after.log, hend.imp (after.single ▸ ·) hw⟩

/-- The poll in flight has failed, and nothing is awaited. -/
theorem failure (hw : e.wait = 0) (failure : PollFailure) : Informs e (e.deliverFailure failure) :=
  have relays := Relays.failure failure
  ⟨.refl e, relays, .refl _, fun _ => relays.wait hw⟩

end Informs

theorem chains_chained (e : Engine) (after : AfterFrame) : Chains e (e.chained after) := by
  cases after with
  | stay => exact .inl rfl
  | chain =>
    by_cases hw : e.wait = 0
    · exact .inr ⟨hw, if_pos hw⟩
    · exact .inl (if_neg hw)

theorem afterSegment_chains (e : Engine) (id : UInt32) (first : Bool) (length : Nat) :
    ∃ e', Attends True e e' ∧ (e.job.mlRemain = 0 → e'.wait = 0) ∧ Chains e' (e.afterSegment id first length) := by
  unfold afterSegment
  by_cases hr : e.job.mlRemain = 0
  · rw [if_pos hr]
    refine ⟨{ e with wait := 0 }, .of_eq rfl rfl rfl, fun _ => rfl, ?_⟩
    dsimp only
    split
    · exact .inl rfl
    · exact .inr ⟨rfl, rfl⟩
  · rw [if_neg hr]
    refine ⟨_, ?_, fun h => absurd h hr, .inl rfl⟩
    cases first with
    | true => exact ((Attends.refl e).transmit rfl _).update ..
    | false => exact (Attends.refl e).update ..

theorem deliverSegment_informs (id : UInt32) (payload : List UInt8) (remain : UInt16) (first : Bool) :
    ∃ e', Informs e e' ∧
      Chains e' ((e.deliverSegment id payload remain).afterSegment id first payload.length) := by
  unfold deliverSegment
  have relays := @Relays.reply { e with job := { e.job with received := id, mlRemain := remain } } payload
  obtain ⟨e', hafter, hw, hchain⟩ := afterSegment_chains
    (Engine.deliverReply { e with job := { e.job with received := id, mlRemain := remain } } payload)
    id first payload.length
  have hlast : (remain == 0) = true → e'.wait = 0 := fun hlast => hw (by
    rw [relays.delivers.job]
    simpa using hlast)
  exact ⟨e', (Informs.intro (.refl _) relays hafter hlast).of_attends (.of_eq rfl rfl rfl), hchain⟩

theorem receiveOpening_informs (id : UInt32) (total : UInt16) (segment : List UInt8) (first : Bool)
    (ht : e.Settles segment) :
    ∃ e', Informs e e' ∧ Chains e' (e.receiveOpening id total segment first) := by
  unfold receiveOpening
  unfold Settles at ht
  cases hv : e.judge segment with
  | foreign =>
    rw [hv] at ht
    exact ht.elim
  | answer payload => exact deliverSegment_informs ..
  | refused code =>
    rw [hv] at ht
    dsimp only
    rw [if_neg (by simpa using ht)]
    have relays := @Relays.failure { e with job := { e.job with received := id }.resetMultiframe } (.negative code)
    obtain ⟨e', hafter, hw, hchain⟩ := afterSegment_chains
      (Engine.deliverFailure { e with job := { e.job with received := id }.resetMultiframe } (.negative code))
      id first 0
    have hlast : e'.wait = 0 := hw (by
      rw [relays.delivers.job]
      rfl)
    exact ⟨e', (Informs.intro (.refl _) relays hafter fun _ => hlast).of_attends (.of_eq rfl rfl rfl), hchain⟩

/-- A frame beside the channel that brings news of the poll in flight. -/
theorem receiveOther_informs {segment : Segment} (hf : e.MayAnswer frame)
    (hs : Segment.ofBytes? (e.job.protocol.isoTpData frame) = some segment) (ht : e.SegmentTells segment) :
    ∃ e', Informs e e' ∧ Chains e' (e.receiveOther frame) := by
  unfold receiveOther
  rw [if_pos (by simpa [MayAnswer, and_assoc] using hf)]
  unfold receiveIsoTp
  rw [hs]
  cases segment with
  | flow => exact ht.elim
  | single data => exact receiveOpening_informs _ _ _ _ ht
  | first total data => exact receiveOpening_informs _ _ _ _ ht
  | consecutive index data =>
    dsimp only
    unfold receiveConsecutive
    rw [if_neg (by simpa [SegmentTells] using ht)]
    exact deliverSegment_informs ..

theorem wait_goIdle (hs : e.channel.state ≠ .idle) : e.goIdle.wait = 0 := by
  unfold goIdle
  rw [if_neg hs]

theorem deliverData_informs (hs : e.channel.state = .receive) (opcode : UInt8) (segment payload : List UInt8) :
    Informs e (e.deliverData opcode segment payload) := by
  have hack : Attends True e (e.acknowledge opcode) := (Attends.refl e).acknowledge opcode
  have hs' : (e.acknowledge opcode).channel.state ≠ .idle := by
    rw [channel_acknowledge, hs]
    nofun
  unfold deliverData deliverSegment
  dsimp only
  generalize lessLength _ _ = remain
  generalize e.acknowledge opcode = e₁ at hack hs'
  have relays :=
    @Relays.reply { e₁ with job := { e₁.job with received := e₁.channel.rxId, mlRemain := remain } } payload
  refine (Informs.intro (.refl _) relays ?_ fun hlast => ?_).of_attends (hack.trans (.of_eq rfl rfl rfl))
  · unfold afterData
    split
    · exact (Attends.refl _).goIdle
    · exact (Attends.refl _).update ..
  · -- after the last piece the channel goes idle, which ends the wait
    unfold afterData
    rw [relays.delivers.job, if_pos (by simpa using hlast)]
    refine wait_goIdle ?_
    rw [relays.delivers.channel]
    exact hs'

theorem peerClose_informs (hv : e.isOnChannel = true) : Informs e e.peerClose := by
  unfold peerClose
  dsimp only
  rw [isOnChannel_shutChannel_eq, isOnChannel_requestClose, hv]
  have hw : e.requestClose.shutChannel.wait = 0 := wait_shutChannel (by rw [state_requestClose]; nofun)
  exact (Informs.failure hw _).of_attends ((Attends.refl e).requestClose.shutChannel)

theorem receiveData_informs (hs : e.channel.state = .receive)
    (hn : Frame.leadByte frame.data &&& 0x0f = e.channel.rxSeq &&& 0x0f)
    (ht : e.job.mlFrame ≠ 0 ∨ e.Settles (frame.payload.drop 3)) :
    Informs e (e.receiveData (Frame.leadByte frame.data) frame.payload).2 := by
  have hc : Attends True e e.countData := (Attends.refl e).update ..
  have hsc : e.countData.channel.state = .receive := hs
  unfold receiveData
  rw [if_neg (not_not_intro hn)]
  by_cases hml : e.job.mlFrame ≠ 0
  · rw [if_pos hml]
    exact (deliverData_informs hsc _ _ _).of_attends hc
  · rw [if_neg hml]
    have hsettles := ht.resolve_left hml
    unfold receiveFirstData
    dsimp only
    generalize Envelope.word _ _ = total
    have ht : Attends True e { e.countData with job := { e.countData.job with mlRemain := total } } :=
      hc.update ..
    have hjudge : Engine.judge { e.countData with job := { e.countData.job with mlRemain := total } }
        (frame.payload.drop 3) = e.judge (frame.payload.drop 3) := rfl
    unfold Settles at hsettles
    rw [hjudge]
    rcases hv : e.judge (frame.payload.drop 3) with payload | code | _ <;> rw [hv] at hsettles
    · exact (@deliverData_informs { e.countData with job := { e.countData.job with mlRemain := total } }
        hs _ _ _).of_attends ht
    · dsimp only at hsettles ⊢
      rw [if_neg (by simpa using hsettles)]
      have hack := ht.acknowledge (Frame.leadByte frame.data)
      have hsa : (Engine.acknowledge { e.countData with job := { e.countData.job with mlRemain := total } }
          (Frame.leadByte frame.data)).channel.state ≠ .idle := by
        rw [channel_acknowledge]
        rw [show Engine.channel { e.countData with job := { e.countData.job with mlRemain := total } } =
          e.countData.channel from rfl, hsc]
        nofun
      generalize Engine.acknowledge _ _ = e₁ at hack hsa
      have relays := @Relays.failure { e₁ with job := { e₁.job with received := e₁.job.sent, mlRemain := 0 } }
        (.negative code)
      refine (Informs.intro (.refl _) relays ((Attends.refl _).goIdle) fun _ => wait_goIdle ?_).of_attends
        (hack.trans (.of_eq rfl rfl rfl))
      rw [relays.delivers.channel]
      exact hsa
    · exact hsettles.elim

/-- A frame on the channel that brings news. -/
theorem channelStep_informs (ht : e.ChannelTells frame) : Informs e (e.channelStep frame).2 := by
  unfold channelStep
  dsimp only
  cases ht with
  | rejected hs hl hd hm =>
    rw [hs]
    dsimp only
    unfold receiveSetup
    rw [if_neg (by simp only [not_or, UInt8.not_lt]; exact ⟨by omega, UInt8.le_of_lt hd, hm⟩),
      if_pos (Ne.symm (UInt8.ne_of_lt hd))]
    exact (Informs.failure (e := e.loseChannel) rfl _).of_attends (.of_eq rfl rfl rfl)
  | closes hs hd hv =>
    have hclose := peerClose_informs hv
    obtain ⟨hs, hl⟩ | ⟨hs, hl⟩ | hs | hs := hs <;> rw [hs] <;> dsimp only
    · unfold receiveParams
      rw [if_neg (by omega), hd]
      exact hclose
    · unfold receiveAck
      rw [if_pos (by omega : min frame.dlc 8 = 1), hd]
      exact hclose
    · rw [hd]
      exact hclose
    · rw [hd]
      exact hclose
  | closed hs hl hd hv hr =>
    rw [hs]
    dsimp only
    unfold receiveClosing
    rw [if_neg (not_or.2 ⟨by omega, not_not_intro hd⟩)]
    dsimp only
    rw [isOnChannel_shutChannel_eq, hv, job_shutChannel, if_neg (by simp), hr, if_neg (by simp)]
    exact (Informs.failure (wait_shutChannel (by rw [hs]; nofun)) _).of_attends (Attends.refl e).shutChannel
  | data hs ho hn ht =>
    rw [hs]
    dsimp only
    unfold receiveResponse
    -- the opcodes of pings and disconnects are above those of data
    have hping : Frame.leadByte frame.data ≠ Opcode.ping := fun h => by rw [h] at ho; exact absurd ho (by decide)
    have hdis : Frame.leadByte frame.data ≠ Opcode.disconnect := fun h => by
      rw [h] at ho; exact absurd ho (by decide)
    rw [if_neg hping, if_neg hdis, if_pos ho]
    exact receiveData_informs hs hn ht

/-- The poll without a module fails when its channel is closed. -/
theorem keepChannel_informs (ht : e.ClosesFor) : Informs e e.keepChannel ∧ e.keepChannel.wait = 0 := by
  obtain ⟨hw, hg, hs, hv, entry, he, hr⟩ := ht
  have hstart : e.shutChannel.startVwtp = e.shutChannel.touchChannel.deliverFailure .channelClosed := by
    rw [startVwtp_shut (channel_shutChannel_eq (by rw [hs]; nofun)) (by rw [job_shutChannel, he]),
      if_neg (not_not_intro hr)]
  have hshut : e.shutChannel.touchChannel.wait = 0 := wait_shutChannel (by rw [hs]; nofun)
  have heq : e.keepChannel = e.shutChannel.touchChannel.deliverFailure .channelClosed := by
    unfold keepChannel
    rw [if_neg (by simpa using hg)]
    unfold timeOutChannel
    rw [if_pos hw, hs]
    dsimp only
    rw [isOnChannel_shutChannel_eq, hv, if_pos rfl, hstart]
    unfold closeUnused
    have hstate : (e.shutChannel.touchChannel.deliverFailure .channelClosed).channel.state = .closed := by
      rw [(Delivers.deliverFailure ..).channel]
      exact channel_shutChannel e
    rw [hstate]
    rfl
  rw [heq]
  exact ⟨(Informs.failure hshut _).of_attends ((Attends.refl e).shutChannel.update ..),
    (Relays.failure _).wait hshut⟩

end Engine

end EcuPoll
