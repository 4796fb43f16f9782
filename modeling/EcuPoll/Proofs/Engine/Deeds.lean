import EcuPoll.Proofs.Engine.Quiet
import EcuPoll.Proofs.Poll.Passes

/-!
# The deeds of an engine

A turn or a move of an engine is made of smaller deeds: a frame is written, an event is noted, a single request
takes the bus or ends, an entry of the list is handed out. `Deed` lists them, each with what is known when it is
done. Between two deeds nothing happens that matters to the list, the throttle or the results of writes, so that
a claim about one of these needs one case for each deed.

The results of writes are taken to be judged only if `takes` holds. The beginning of a pass is no deed; it comes
at most once in an operation (`Spans`).
-/

namespace EcuPoll

/-- No frame that is written, and nothing that begins or ends in the list or on behalf of a single request. -/
def Event.IsNote : Event → Prop
  | .wrote _ _ _ | .dispatched _ _ _ | .passFinished _ | .singleStarted _ => False
  | _ => True

namespace Engine
variable {takes passes : Prop} {e e' e'' : Engine}

/-- One deed of an engine. -/
inductive Deed (takes : Prop) (e : Engine) : Engine → Prop
  /-- The poll in flight, its request, the channel, the clock and the settings move on. -/
  | adjust (line : Line) (now : Nat) (job : PollJob) (active : Bool) (wait : Nat) (paused : Bool)
    (septime : UInt8) (keepalive between : Nat) (successDue : Option Nat) (out : Outbound) (channel : Channel) :
    Deed takes e { e with
      line, now, job, active, wait, paused, septime, keepalive, between, successDue, out, channel }
  | queue (queued : List SingleRequest) : Deed takes e { e with queued }
  | write (kind : FrameKind) (frame : Frame) : Deed takes e (e.transmit kind frame)
  | note {event : Event} (h : event.IsNote) : Deed takes e (e.emit event)
  | take (ht : takes) : Deed takes e { e with results := [] }
  -- single requests
  | call (hs : e.single = none) {request : SingleRequest} {entry : PollEntry}
    (hn : (e.capture request).schedule.next.1 = .due entry) :
    Deed takes e ((e.capture request).advance.assign entry)
  /-- The entry of a single request is not due. -/
  | turnDown (hs : e.single = none) {request : SingleRequest}
    (hn : ∀ entry, (e.capture request).schedule.next.1 ≠ .due entry) : Deed takes e (e.capture request).advance
  | collect {capture : Capture} (hs : e.single = some capture) (response : List UInt8) :
    Deed takes e { e with single := some { capture with response } }
  | finish (result : SingleResult) : Deed takes e (e.finishSingle result)
  -- the list
  | poll (hs : e.single = none) {entry : PollEntry} (hn : e.schedule.next.1 = .due entry)
    (hc : e.schedule.canPoll = true) : Deed takes e (e.advance.assign entry)
  | conclude (hs : e.single = none) (hn : e.schedule.next.1 = .passComplete)
    (hp : e.schedule.passComplete = false) : Deed takes e (e.advance.emit (.passFinished e.bus))

/-- A sequence of deeds. -/
abbrev Deeds (takes : Prop) : Engine → Engine → Prop := Relation.ReflTransGen (Deed takes)

namespace Deeds

theorem refl (e : Engine) : Deeds takes e e := Relation.ReflTransGen.refl

theorem deed (h : Deeds takes e e') (h' : Deed takes e' e'') : Deeds takes e e'' :=
  Relation.ReflTransGen.tail h h'

theorem adjust (h : Deeds takes e e') (line : Line) (now : Nat) (job : PollJob) (active : Bool) (wait : Nat)
    (paused : Bool) (septime : UInt8) (keepalive between : Nat) (successDue : Option Nat) (out : Outbound)
    (channel : Channel) : Deeds takes e { e' with
      line, now, job, active, wait, paused, septime, keepalive, between, successDue, out, channel } :=
  h.deed (.adjust ..)

theorem write (h : Deeds takes e e') (kind : FrameKind) (frame : Frame) :
    Deeds takes e (e'.transmit kind frame) :=
  h.deed (.write ..)

theorem note (h : Deeds takes e e') {event : Event} (hev : event.IsNote) : Deeds takes e (e'.emit event) :=
  h.deed (.note hev)

theorem pause (h : Deeds takes e e') (us : Nat) : Deeds takes e (e'.pause us) := h.adjust ..

/-! ### Results -/

theorem finishSingle (h : Deeds takes e e') (result : SingleResult) : Deeds takes e (e'.finishSingle result) :=
  h.deed (.finish result)

theorem deliverReply (h : Deeds takes e e') (data : List UInt8) : Deeds takes e (e'.deliverReply data) := by
  have hd := deliverReply_delivered e' data
  generalize e'.deliverReply data = e'' at hd ⊢
  cases hd with
  | report => exact h.note trivial
  | whole => exact h.finishSingle _
  | part hs => exact h.deed (.collect hs _)

theorem deliverFailure (h : Deeds takes e e') (failure : PollFailure) :
    Deeds takes e (e'.deliverFailure failure) := by
  unfold Engine.deliverFailure
  split
  · exact h.note trivial
  · exact h.finishSingle _

theorem expireSingle (h : Deeds takes e e') : Deeds takes e e'.expireSingle := by
  unfold Engine.expireSingle
  split
  · exact h
  · split
    · exact h.finishSingle _
    · exact h

/-! ### The channel -/

theorem expectOnChannel (h : Deeds takes e e') : Deeds takes e e'.expectOnChannel := by
  unfold Engine.expectOnChannel
  split
  · exact h.adjust ..
  · exact h

theorem touchChannel (h : Deeds takes e e') : Deeds takes e e'.touchChannel := h.adjust ..

theorem loseChannel (h : Deeds takes e e') : Deeds takes e e'.loseChannel := h.adjust ..

theorem shutChannel (h : Deeds takes e e') : Deeds takes e e'.shutChannel := by
  unfold Engine.shutChannel
  split
  · exact h
  · exact h.loseChannel

theorem requestSetup (h : Deeds takes e e') : Deeds takes e e'.requestSetup := by
  unfold Engine.requestSetup
  split
  · exact h
  · split
    · exact h
    · exact ((h.adjust ..).expectOnChannel.adjust ..).write ..

theorem requestParams (h : Deeds takes e e') : Deeds takes e e'.requestParams := by
  unfold Engine.requestParams
  split
  · exact h
  · exact (h.expectOnChannel.adjust ..).write ..

theorem requestClose (h : Deeds takes e e') : Deeds takes e e'.requestClose := by
  unfold Engine.requestClose
  split
  · exact h
  · exact (h.expectOnChannel.adjust ..).write ..

theorem goIdle (h : Deeds takes e e') : Deeds takes e e'.goIdle := by
  unfold Engine.goIdle
  split
  · exact h
  · exact h.adjust ..

theorem awaitResponse (h : Deeds takes e e') : Deeds takes e e'.awaitResponse := by
  unfold Engine.awaitResponse
  split
  · exact h
  · exact h.adjust ..

theorem sendFrame (header : List UInt8) (left : Nat) (h : Deeds takes e e') :
    Deeds takes e (e'.sendFrame header left) :=
  (h.adjust ..).write ..

theorem sendFrames (header : List UInt8) (left : Nat) (h : Deeds takes e e') :
    Deeds takes e (Engine.sendFrames header left e') := by
  induction left generalizing e' with
  | zero => exact h
  | succ left ih =>
    unfold Engine.sendFrames
    dsimp only
    split
    · exact h.sendFrame header left
    · exact ih (h.sendFrame header left)

theorem awaitAck (h : Deeds takes e e') : Deeds takes e e'.awaitAck := h.expectOnChannel.adjust ..

theorem sendBlock (h : Deeds takes e e') : Deeds takes e e'.sendBlock := by
  unfold Engine.sendBlock
  split
  · exact h
  · exact (h.sendFrames _ _).awaitAck

theorem sendRequest (h : Deeds takes e e') : Deeds takes e e'.sendRequest := by
  unfold Engine.sendRequest
  split
  · exact h
  · exact (h.adjust ..).sendBlock

theorem abortTransfer (h : Deeds takes e e') : Deeds takes e e'.abortTransfer := by
  unfold Engine.abortTransfer
  exact (((h.adjust ..).expectOnChannel).adjust ..).write ..

theorem sendPong (h : Deeds takes e e') : Deeds takes e e'.sendPong := h.write ..

theorem refuseData (h : Deeds takes e e') : Deeds takes e e'.refuseData := (h.adjust ..).write ..

theorem interrupt (h : Deeds takes e e') : Deeds takes e e'.interrupt := by
  unfold Engine.interrupt
  split
  · exact h.abortTransfer
  · exact h.abortTransfer.pause _
  · exact h

theorem startVwtp (h : Deeds takes e e') : Deeds takes e e'.startVwtp := by
  rcases hj : e'.job.entry with _ | entry
  · simp only [Engine.startVwtp, hj]
    exact h
  · have hst := startVwtp_start e' hj
    have ht := h.touchChannel
    generalize e'.startVwtp = e'' at hst ⊢
    cases hst with
    | again => exact ht.requestSetup
    | request => exact ht.interrupt.sendRequest
    | close => exact ht.requestClose
    | setup => exact ht.requestSetup
    | nothing => exact ht.deliverFailure _

theorem timeOutChannel (h : Deeds takes e e') : Deeds takes e e'.timeOutChannel := by
  unfold Engine.timeOutChannel
  split
  · split
    · exact h.shutChannel
    · exact h.shutChannel
    · split
      · exact h.shutChannel.startVwtp
      · exact h.shutChannel
    · exact h
  · split
    · exact h.requestClose
    · exact h

theorem keepChannel (h : Deeds takes e e') : Deeds takes e e'.keepChannel := by
  unfold Engine.keepChannel
  split
  · exact h.adjust ..
  · unfold Engine.closeUnused
    split
    · exact h.timeOutChannel.requestClose
    · exact h.timeOutChannel

/-! ### ISO-TP -/

theorem startIsoTp (h : Deeds takes e e') : Deeds takes e e'.startIsoTp := by
  unfold Engine.startIsoTp
  split
  · exact h
  · exact (h.adjust ..).write ..

theorem burst (target : UInt32) (delay count : Nat) (h : Deeds takes e e') :
    Deeds takes e (Engine.burst target delay count e') := by
  induction count generalizing e' with
  | zero => exact h
  | succ count ih =>
    have hone : Deeds takes e (e'.sendConsecutive target) := (h.adjust ..).write ..
    unfold Engine.burst
    split
    · exact h
    · dsimp only
      split
      · exact hone
      · exact ih (hone.pause delay)

theorem isoTpFlow (h : Deeds takes e e') (id : UInt32) (command blockSize septime : UInt8) :
    Deeds takes e (e'.isoTpFlow id command blockSize septime) := by
  unfold Engine.isoTpFlow
  split
  · exact h
  · split
    · exact h
    · exact h.adjust ..
    · exact h.adjust ..
    · dsimp only
      split
      · exact (h.burst ..).adjust ..
      · exact h.burst ..

/-! ### Sending -/

/-- The transport of an entry that has been handed out. -/
theorem transport {entry : PollEntry} (h : Deeds takes e (e'.assign entry)) :
    Deeds takes e (e'.dispatch entry) := by
  unfold Engine.dispatch
  split
  · exact h.startVwtp
  · exact h.startIsoTp

theorem startSingle (h : Deeds takes e e') (hs : e'.single = none) (request : SingleRequest) :
    Deeds takes e (e'.startSingle request) := by
  unfold Engine.startSingle
  split
  · exact h.note trivial
  · dsimp only
    cases hn : (e'.capture request).schedule.next.1 with
    | due entry => exact (h.deed (.call hs hn)).transport
    | _ => exact (h.deed (.turnDown hs (by rw [hn]; nofun))).finishSingle _

theorem pollList (h : Deeds takes e e') (hs : e'.single = none) (hc : e'.schedule.canPoll = true) :
    Deeds takes e e'.pollList := by
  have hout := Schedule.next_handout e'.schedule
  -- a list that has nothing to hand out stays where it is
  have hstay : e'.schedule.next.2 = e'.schedule → Deeds takes e e'.advance := fun heq => by
    unfold advance
    rw [heq]
    exact h
  unfold Engine.pollList
  cases hn : e'.schedule.next.1 with
  | due entry => exact (h.deed (.poll hs hn hc)).transport
  | passComplete =>
    dsimp only
    by_cases hp : e'.schedule.passComplete = true
    · rw [if_pos hp]
      refine hstay ?_
      generalize e'.schedule.next = next at hn hout ⊢
      cases hout with
      | complete => rfl
      | last hno => rw [hno] at hp; cases hp
      | _ => cases hn
    · rw [if_neg hp]
      exact h.deed (.conclude hs hn (by simpa using hp))
  | empty =>
    refine hstay ?_
    generalize e'.schedule.next = next at hn hout ⊢
    cases hout <;> first | rfl | cases hn

end Deeds

/-! ### The beginning of a pass -/

/-- Deeds, among which at most one pass begins, if `passes` holds. -/
def Spans (takes passes : Prop) (e e' : Engine) : Prop :=
  ∃ e₁ e₂, Deeds takes e e₁ ∧ (e₂ = e₁ ∨ passes ∧ e₁.single = none ∧ e₂ = e₁.startPass) ∧ Deeds takes e₂ e'

namespace Spans

theorem of_deeds (h : Deeds takes e e') : Spans takes passes e e' := ⟨e', e', h, .inl rfl, .refl e'⟩

theorem deeds (h : Spans takes False e e') : Deeds takes e e' := by
  obtain ⟨e₁, e₂, h, hp, h'⟩ := h
  obtain rfl := hp.resolve_right fun hp => hp.1
  exact h.trans h'

theorem mono {passes' : Prop} (h : Spans takes passes e e') (hp : passes → passes') : Spans takes passes' e e' :=
  let ⟨e₁, e₂, hbefore, hpass, hafter⟩ := h
  ⟨e₁, e₂, hbefore, hpass.imp_right fun hpass => ⟨hp hpass.1, hpass.2⟩, hafter⟩

theorem trans_deeds (h : Spans takes passes e e') (h' : Deeds takes e' e'') : Spans takes passes e e'' :=
  let ⟨e₁, e₂, hbefore, hp, hafter⟩ := h
  ⟨e₁, e₂, hbefore, hp, hafter.trans h'⟩

theorem of_deeds_trans (h : Deeds takes e e') (h' : Spans takes passes e' e'') : Spans takes passes e e'' :=
  let ⟨e₁, e₂, hbefore, hp, hafter⟩ := h'
  ⟨e₁, e₂, h.trans hbefore, hp, hafter⟩

end Spans

theorem sendNext_spans (e : Engine) (primary : Bool) : Spans takes (primary = true) e (e.sendNext primary) := by
  have hlist : ∀ {e' : Engine}, e'.single = none →
      Deeds takes e' (if e'.paused || !e'.schedule.canPoll then e' else e'.pollList) := by
    intro e' hs
    by_cases hc : (e'.paused || !e'.schedule.canPoll) = true
    · rw [if_pos hc]
    · rw [if_neg hc]
      refine (Deeds.refl e').pollList hs ?_
      simp only [Bool.or_eq_true, Bool.not_eq_true', not_or, Bool.not_eq_false] at hc
      exact hc.2
  have hr : Deeds takes e { e with active := false } := (Deeds.refl e).adjust ..
  have hsent := sendNext_sent e primary
  generalize e.sendNext primary = e' at hsent ⊢
  cases hsent with
  | waits => exact .of_deeds (.refl e)
  | held => exact .of_deeds hr
  | @single request queued _ hs => exact .of_deeds ((hr.deed (.queue queued)).startSingle hs request)
  | list _ hs _ hp =>
    rcases hp with rfl | ⟨hprimary, rfl⟩
    · exact .of_deeds (hr.trans (hlist hs))
    · refine ⟨_, _, hr, .inr ⟨hprimary, hs, rfl⟩, hlist ?_⟩
      unfold startPass
      dsimp only
      split <;> exact hs

theorem pollSend_spans (e : Engine) (primary : Bool) : Spans takes (primary = true) e (e.pollSend primary) := by
  unfold pollSend
  split
  · have hcount : Deeds takes e { e with wait := e.wait - 1 } := (Deeds.refl e).adjust ..
    exact .of_deeds_trans hcount.keepChannel.expireSingle (sendNext_spans ..)
  · exact sendNext_spans ..

namespace Deeds

theorem pollSend (h : Deeds takes e e') : Deeds takes e (e'.pollSend false) :=
  h.trans ((pollSend_spans e' false).mono (by nofun)).deeds

theorem pollNext (h : Deeds takes e e') : Deeds takes e e'.pollNext := by
  have hr : Deeds takes e { e' with active := false } := h.adjust ..
  unfold Engine.pollNext
  dsimp only
  split
  · exact hr
  · split
    · exact hr.pollSend
    · exact hr.adjust ..

/-! ### Results of writes -/

theorem failTransmission (h : Deeds takes e e') : Deeds takes e e'.failTransmission := by
  unfold Engine.failTransmission
  split
  · exact (h.loseChannel.adjust ..).deliverFailure _
  · exact (h.adjust ..).deliverFailure _

theorem judgeResult (h : Deeds takes e e') (frame : Frame) (success : Bool) :
    Deeds takes e (e'.judgeResult frame success) := by
  have hsent : ∀ {e''}, Deeds takes e e'' → Deeds takes e (e''.reportSent success) := fun h =>
    (h.adjust ..).note trivial
  unfold Engine.judgeResult
  split
  · exact h
  · dsimp only
    split <;> split <;>
      first | exact hsent h | exact hsent h.failTransmission | exact h | exact h.failTransmission

theorem judgeEach (h : Deeds takes e e') (results : List (Frame × Bool)) :
    Deeds takes e (results.foldl (fun e r => e.judgeResult r.1 r.2) e') := by
  induction results generalizing e' with
  | nil => exact h
  | cons r results ih => exact ih (h.judgeResult ..)

theorem judgeResults (h : Deeds takes e e') (ht : takes) : Deeds takes e e'.judgeResults :=
  (h.deed (.take ht)).judgeEach _

theorem settle (h : Deeds takes e e') (ht : takes) : Deeds takes e e'.settle := by
  have hqueue : ∀ (queued : List SingleRequest) (e'' : Engine), Deeds takes e e'' →
      Deeds takes e (startQueued queued e'') := by
    intro queued
    induction queued with
    | nil => exact fun _ h => h.judgeResults ht
    | cons request queued ih =>
      intro e'' h
      unfold startQueued
      dsimp only
      by_cases hs : e''.judgeResults.single.isSome = true
      · rw [if_pos hs]
        exact h.judgeResults ht
      · rw [if_neg hs]
        exact ih _ (((h.judgeResults ht).deed (.queue queued)).startSingle (by simpa using hs) request)
  exact hqueue _ _ h

/-! ### Received frames -/

theorem deliverSegment (h : Deeds takes e e') (id : UInt32) (payload : List UInt8) (remain : UInt16) :
    Deeds takes e (e'.deliverSegment id payload remain) :=
  (h.adjust ..).deliverReply payload

theorem afterSegment (h : Deeds takes e e') (id : UInt32) (first : Bool) (length : Nat) :
    Deeds takes e (e'.afterSegment id first length) := by
  unfold Engine.afterSegment
  split
  · have hw : Deeds takes e { e' with wait := 0 } := h.adjust ..
    dsimp only
    split
    · exact hw
    · exact hw.pollNext
  · cases first with
    | true => exact (h.write ..).adjust ..
    | false => exact h.adjust ..

theorem receiveOpening (h : Deeds takes e e') (id : UInt32) (total : UInt16) (segment : List UInt8)
    (first : Bool) : Deeds takes e (e'.receiveOpening id total segment first) := by
  unfold Engine.receiveOpening
  split
  · exact h
  · split
    · exact h.adjust ..
    · exact ((h.adjust ..).deliverFailure _).afterSegment ..
  · exact (h.deliverSegment ..).afterSegment ..

theorem receiveOther (h : Deeds takes e e') (frame : Frame) : Deeds takes e (e'.receiveOther frame) := by
  unfold Engine.receiveOther
  split
  · unfold Engine.receiveIsoTp
    split
    · exact h
    · exact h.isoTpFlow ..
    · exact h.receiveOpening ..
    · exact h.receiveOpening ..
    · unfold Engine.receiveConsecutive
      split
      · exact h.adjust ..
      · exact (h.deliverSegment ..).afterSegment ..
  · exact h

theorem acknowledge (h : Deeds takes e e') (opcode : UInt8) : Deeds takes e (e'.acknowledge opcode) := by
  unfold Engine.acknowledge
  split
  · exact h.write ..
  · exact h

theorem deliverData (h : Deeds takes e e') (opcode : UInt8) (segment payload : List UInt8) :
    Deeds takes e (e'.deliverData opcode segment payload) := by
  have hd : ∀ {id remain}, Deeds takes e ((e'.acknowledge opcode).deliverSegment id payload remain) :=
    (h.acknowledge opcode).deliverSegment ..
  unfold Engine.deliverData Engine.afterData
  dsimp only
  split
  · exact hd.goIdle
  · exact hd.adjust ..

theorem receiveData (h : Deeds takes e e') (opcode : UInt8) (data : List UInt8) :
    Deeds takes e (e'.receiveData opcode data).2 := by
  have hc : Deeds takes e e'.countData := h.adjust ..
  unfold Engine.receiveData
  split
  · exact hc.abortTransfer
  · split
    · exact hc.deliverData ..
    · unfold Engine.receiveFirstData
      dsimp only
      generalize Envelope.word _ _ = total
      have ht : Deeds takes e { e'.countData with job := { e'.countData.job with mlRemain := total } } :=
        hc.adjust ..
      split
      · exact ht.abortTransfer
      · exact ht.deliverData ..
      · split
        · exact (ht.acknowledge opcode).adjust ..
        · exact (((ht.acknowledge opcode).adjust ..).deliverFailure _).goIdle

theorem peerClose (h : Deeds takes e e') : Deeds takes e e'.peerClose := by
  unfold Engine.peerClose
  dsimp only
  split
  · exact h.requestClose.shutChannel.deliverFailure _
  · exact h.requestClose.shutChannel

theorem receiveSetup (h : Deeds takes e e') (length : Nat) (d : Vector UInt8 8) :
    Deeds takes e (e'.receiveSetup length d).2 := by
  unfold Engine.receiveSetup
  split
  · exact h
  · split
    · exact h.loseChannel.deliverFailure _
    · exact (h.adjust ..).requestParams

theorem receiveParams (h : Deeds takes e e') (length : Nat) (d : Vector UInt8 8) :
    Deeds takes e (e'.receiveParams length d).2 := by
  unfold Engine.receiveParams
  split
  · exact h
  · split
    · exact (h.adjust ..).sendRequest
    · split
      · exact h.peerClose
      · exact h

theorem receiveClosing (h : Deeds takes e e') (length : Nat) (d : Vector UInt8 8) :
    Deeds takes e (e'.receiveClosing length d).2 := by
  unfold Engine.receiveClosing
  split
  · exact h
  · dsimp only
    split
    · exact h.shutChannel
    · split
      · exact h.shutChannel.requestSetup
      · exact h.shutChannel.deliverFailure _

theorem receiveIdle (h : Deeds takes e e') (opcode : UInt8) : Deeds takes e (e'.receiveIdle opcode) := by
  unfold Engine.receiveIdle
  split
  · exact h.sendPong
  · split
    · exact h.peerClose
    · split
      · exact h.refuseData
      · exact h

theorem receiveAck (h : Deeds takes e e') (opcode : UInt8) : Deeds takes e (e'.receiveAck opcode) := by
  unfold Engine.receiveAck
  split
  · split
    · exact h.sendBlock
    · exact h.awaitResponse
  · split
    · have hc : Deeds takes e { e' with out := e'.out.clear } := h.adjust ..
      exact hc.goIdle
    · split
      · exact h.sendPong
      · split
        · exact h.peerClose
        · exact h

theorem receiveResponse (h : Deeds takes e e') (opcode : UInt8) (data : List UInt8) :
    Deeds takes e (e'.receiveResponse opcode data).2 := by
  unfold Engine.receiveResponse
  split
  · exact h.sendPong
  · split
    · exact h.peerClose
    · split
      · exact h.receiveData ..
      · exact h

theorem channelStep (h : Deeds takes e e') (frame : Frame) : Deeds takes e (e'.channelStep frame).2 := by
  unfold Engine.channelStep
  dsimp only
  split
  · exact h.receiveSetup ..
  · exact h.receiveParams ..
  · exact h.receiveClosing ..
  · exact h.receiveIdle _
  · exact h.receiveAck _
  · exact h.receiveResponse ..
  all_goals exact h

theorem receiveVwtp (h : Deeds takes e e') (frame : Frame) : Deeds takes e (e'.receiveVwtp frame) := by
  have hc := h.channelStep frame
  unfold Engine.receiveVwtp
  split
  · exact h
  · rcases hstep : e'.channelStep frame with ⟨after, e₁⟩
    rw [hstep] at hc
    cases after with
    | chain =>
      dsimp only
      split
      · exact hc.pollNext
      · exact hc
    | stay => exact hc

/-! ### Operations -/

theorem refuseQueued (h : Deeds takes e e') : Deeds takes e e'.refuseQueued :=
  refuseQueued_keeps (P := Deeds takes e) (h.deed (.queue [])) fun _ _ h => h.note trivial

theorem shutdown (h : Deeds takes e e') (ht : takes) : Deeds takes e e'.shutdown := by
  have hq := (h.finishSingle (.error .unavailable)).refuseQueued
  unfold Engine.shutdown
  dsimp only
  split
  · exact (hq.requestClose.shutChannel.deed (.take ht)).adjust ..
  · exact (hq.deed (.take ht)).adjust ..

end Deeds

/-- A tick lifts throttling. -/
def readied (e : Engine) : Operation → Engine
  | .tick _ => { e with schedule := e.schedule.resetSequence }
  | _ => e

/-- What the engine makes of an operation before the results of writes are looked at and queued single requests
start. -/
def worked (e : Engine) : Operation → Engine
  | .frame frame =>
    if frame.bus ≠ e.bus then e
    else if e.isChannelFrame frame then e.receiveVwtp frame
    else e.receiveOther frame
  | .tick primary => ((if primary then (e.readied (.tick primary)).emit (.stateTicker e.bus)
      else e.readied (.tick primary)).pollSend primary)
  | .txComplete frame success => e.judgeResult frame success
  | .sendSuccess =>
    if e.successDue.any (· ≤ e.now) then
      let e := { e with successDue := none }
      if e.mayChain then e.pollSend false else e
    else e
  | .submit request => { e with queued := e.queued ++ [request] }
  | op => e.step op

theorem settle_atRest (h : e.AtRest) : e.settle = e := by
  have hj : e.judgeResults = e := by
    unfold judgeResults
    rw [h.results]
    show { e with results := [] } = e
    rw [← h.results]
  rw [settle_eq_judgeResults (by rw [hj]) h.queue, hj]

theorem step_eq_settle (h : e.AtRest) (op : Operation) : e.step op = (e.worked op).settle := by
  cases op with
  | frame frame =>
    show e.handleFrame frame = _
    unfold handleFrame worked
    dsimp only
    split
    · exact (settle_atRest h).symm
    · split <;> rfl
  | tick primary => cases primary <;> rfl
  | sendSuccess =>
    show e.sendSuccess = _
    unfold sendSuccess worked
    dsimp only
    split
    · rfl
    · exact (settle_atRest h).symm
  | txComplete | submit => rfl
  | _ => exact (settle_atRest (h.step _)).symm

/-- Every operation but those that change the list, the poll state or the throttle is made of deeds, and of the
beginning of a pass if it is a primary tick. -/
theorem worked_spans (e : Engine) {op : Operation} (hl : ∀ list bus, op ≠ .setList list bus)
    (hs : ∀ state, op ≠ .setState state) (hm : ∀ sequenceMax, op ≠ .setSequenceMax sequenceMax)
    (ht : op = .shutdown → takes) : Spans takes (op = .tick true) (e.readied op) (e.worked op) := by
  have hr : Deeds takes e e := .refl e
  cases op with
  | setList list bus => exact absurd rfl (hl list bus)
  | setState state => exact absurd rfl (hs state)
  | setSequenceMax sequenceMax => exact absurd rfl (hm sequenceMax)
  | tick primary =>
    have hr : Deeds takes (e.readied (.tick primary)) (e.readied (.tick primary)) := .refl _
    cases primary with
    | false => exact .of_deeds hr.pollSend
    | true =>
      have hb : Deeds takes (e.readied (.tick true)) ((e.readied (.tick true)).emit (.stateTicker e.bus)) :=
        hr.note trivial
      exact (Spans.of_deeds_trans hb (pollSend_spans _ true)).mono fun _ => rfl
  | frame frame =>
    refine .of_deeds ?_
    unfold worked
    dsimp only
    split
    · exact hr
    · split
      · exact hr.receiveVwtp frame
      · exact hr.receiveOther frame
  | txComplete frame success => exact .of_deeds (hr.judgeResult frame success)
  | sendSuccess =>
    have hd : Deeds takes e { e with successDue := none } := hr.adjust ..
    refine .of_deeds ?_
    unfold worked
    dsimp only
    split
    · split
      · exact hd.pollSend
      · exact hd
    · exact hr
  | submit request => exact .of_deeds (hr.deed (.queue _))
  | shutdown => exact .of_deeds (hr.shutdown (ht rfl))
  | setPaused | setSeptime | setKeepalive | setBetween | elapse | setRoom => exact .of_deeds (hr.adjust ..)

theorem step_spans (h : e.AtRest) {op : Operation} (hl : ∀ list bus, op ≠ .setList list bus)
    (hs : ∀ state, op ≠ .setState state) (hm : ∀ sequenceMax, op ≠ .setSequenceMax sequenceMax) :
    Spans True (op = .tick true) (e.readied op) (e.step op) := by
  rw [step_eq_settle h]
  exact (worked_spans e hl hs hm fun _ => trivial).trans_deeds ((Deeds.refl _).settle trivial)

/-- Between two ticks no pass begins. -/
theorem step_deeds (h : e.AtRest) {op : Operation} (hl : ∀ list bus, op ≠ .setList list bus)
    (hs : ∀ state, op ≠ .setState state) (hm : ∀ sequenceMax, op ≠ .setSequenceMax sequenceMax)
    (ht : ∀ primary, op ≠ .tick primary) : Deeds True e (e.step op) := by
  have hsp := (step_spans h hl hs hm).mono fun hp => ht true hp
  have hready : e.readied op = e := by
    cases op with
    | tick primary => exact absurd rfl (ht primary)
    | _ => rfl
  rw [hready] at hsp
  exact hsp.deeds

/-! ### What stays -/

theorem Deed.policy_eq (h : Deed takes e e') : e'.policy = e.policy := by
  cases h with
  | write => rw [transmit_eq]
  | finish =>
    unfold finishSingle
    split <;> rfl
  | _ => rfl

theorem Spans.policy_eq (h : Spans takes passes e e') : e'.policy = e.policy := by
  have hdeeds : ∀ {e e' : Engine}, Deeds takes e e' → e'.policy = e.policy := by
    intro e e' h
    induction h with
    | refl => rfl
    | tail _ hd ih => exact hd.policy_eq.trans ih
  obtain ⟨e₁, e₂, hbefore, hp, hafter⟩ := h
  have hpass : e₂.policy = e₁.policy := by
    rcases hp with rfl | ⟨-, -, rfl⟩
    · rfl
    · unfold startPass
      dsimp only
      split <;> rfl
  exact (hdeeds hafter).trans (hpass.trans (hdeeds hbefore))

/-- Nothing that happens to an engine changes how strictly it checks numbers. -/
theorem policy_step (h : e.AtRest) (op : Operation) : (e.step op).policy = e.policy := by
  have hspans (hl : ∀ list bus, op ≠ .setList list bus) (hs : ∀ state, op ≠ .setState state)
      (hm : ∀ sequenceMax, op ≠ .setSequenceMax sequenceMax) : (e.step op).policy = e.policy := by
    refine (step_spans h hl hs hm).policy_eq.trans ?_
    cases op <;> rfl
  cases op with
  | setList list bus =>
    show (e.setList list bus).policy = _
    unfold setList
    split <;> rfl
  | setState state =>
    show (e.setState state).policy = _
    unfold setState
    dsimp only
    split <;> rfl
  | setSequenceMax => rfl
  | _ => exact hspans nofun nofun nofun

theorem policy_run (h : e.AtRest) (ops : List Operation) : (e.run ops).policy = e.policy := by
  induction ops generalizing e with
  | nil => rfl
  | cons op ops ih => exact (ih (h.step op)).trans (policy_step h op)

end Engine

end EcuPoll
