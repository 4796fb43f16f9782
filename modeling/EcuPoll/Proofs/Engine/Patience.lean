import EcuPoll.Proofs.Engine.Refusals

/-!
# How long a wait can be

A request is waited for until the second tick, and a poll over the channel never longer. Over ISO-TP the responder may
ask for more time as often as it likes, but the wait counter stays within a byte. `Curbs` is work that makes no wait
longer than two ticks; what else the engine does keeps it `Curbed`.
-/

namespace EcuPoll.Engine
variable {e e' e'' : Engine}

/-- The wait is not longer than it was, or it lasts two ticks at most, and the poll in flight runs over the same
transport. -/
structure Curbs (e e' : Engine) : Prop where
  isVwtp : e'.job.isVwtp = e.job.isVwtp
  wait : e'.wait ≤ max 2 e.wait

namespace Curbs

theorem refl (e : Engine) : Curbs e e := ⟨rfl, Nat.le_max_right ..⟩

theorem trans (h : Curbs e e') (h' : Curbs e' e'') : Curbs e e'' where
  isVwtp := h'.isVwtp.trans h.isVwtp
  wait := by
    have := h.wait
    have := h'.wait
    omega

theorem of_eq (h : Curbs e e') (hj : e''.job.protocol = e'.job.protocol) (hw : e''.wait = e'.wait) : Curbs e e'' :=
  h.trans ⟨by rw [PollJob.isVwtp, hj, PollJob.isVwtp], hw ▸ Nat.le_max_right ..⟩

/-- The poll in flight, its request and the channel move on. -/
theorem update (h : Curbs e e') (now : Nat) (job : PollJob) (wait : Nat) (out : Outbound) (channel : Channel)
    (hj : job.protocol = e'.job.protocol) (hw : wait ≤ max 2 e'.wait) :
    Curbs e { e' with now, job, wait, out, channel } :=
  h.trans ⟨by rw [PollJob.isVwtp, hj, PollJob.isVwtp], hw⟩

/-- The wait begins anew, or is over. -/
theorem rearm (h : Curbs e e') (hj : e''.job.protocol = e'.job.protocol) (hw : e''.wait ≤ 2) : Curbs e e'' :=
  h.trans ⟨by rw [PollJob.isVwtp, hj, PollJob.isVwtp], hw.trans (Nat.le_max_left ..)⟩

theorem transmit (h : Curbs e e') (kind : FrameKind) (frame : Frame) : Curbs e (e'.transmit kind frame) := by
  rw [transmit_eq]
  exact h.of_eq rfl rfl

/-! ### Results -/

theorem finishSingle (h : Curbs e e') (result : SingleResult) : Curbs e (e'.finishSingle result) := by
  unfold Engine.finishSingle
  split
  · exact h
  · exact h.rearm rfl (Nat.zero_le 2)

theorem deliverReply (h : Curbs e e') (data : List UInt8) : Curbs e (e'.deliverReply data) := by
  have hd := deliverReply_delivered e' data
  generalize e'.deliverReply data = e'' at hd ⊢
  cases hd with
  | report => exact h.of_eq rfl rfl
  | whole => exact h.finishSingle _
  | part => exact h.of_eq rfl rfl

theorem deliverFailure (h : Curbs e e') (failure : PollFailure) : Curbs e (e'.deliverFailure failure) := by
  unfold Engine.deliverFailure
  split
  · exact h.of_eq rfl rfl
  · exact h.finishSingle _

theorem expireSingle (h : Curbs e e') : Curbs e e'.expireSingle := by
  unfold Engine.expireSingle
  split
  · exact h
  · split
    · exact h.finishSingle _
    · exact h

/-! ### The channel -/

theorem expectOnChannel (h : Curbs e e') : Curbs e e'.expectOnChannel := by
  unfold Engine.expectOnChannel
  split
  · exact h.of_eq rfl rfl
  · exact h

theorem touchChannel (h : Curbs e e') : Curbs e e'.touchChannel := h.of_eq rfl rfl

theorem loseChannel (h : Curbs e e') : Curbs e e'.loseChannel := h.rearm rfl (Nat.zero_le 2)

theorem shutChannel (h : Curbs e e') : Curbs e e'.shutChannel := by
  unfold Engine.shutChannel
  split
  · exact h
  · exact h.loseChannel

theorem requestSetup (h : Curbs e e') : Curbs e e'.requestSetup := by
  unfold Engine.requestSetup
  split
  · exact h
  · split
    · exact h
    · exact ((h.update _ _ _ _ _ (by rfl) (by omega)).expectOnChannel.update _ _ _ _ _ (by rfl)
        (by omega)).transmit _ _

theorem requestParams (h : Curbs e e') : Curbs e e'.requestParams := by
  unfold Engine.requestParams
  split
  · exact h
  · exact (h.expectOnChannel.update _ _ _ _ _ (by rfl) (by omega)).transmit _ _

theorem requestClose (h : Curbs e e') : Curbs e e'.requestClose := by
  unfold Engine.requestClose
  split
  · exact h
  · exact (h.expectOnChannel.update _ _ _ _ _ (by rfl) (by omega)).transmit _ _

theorem peerClose (h : Curbs e e') : Curbs e e'.peerClose := by
  unfold Engine.peerClose
  dsimp only
  split
  · exact h.requestClose.shutChannel.deliverFailure _
  · exact h.requestClose.shutChannel

theorem goIdle (h : Curbs e e') : Curbs e e'.goIdle := by
  unfold Engine.goIdle
  split
  · exact h
  · exact h.rearm rfl (Nat.zero_le 2)

theorem awaitResponse (h : Curbs e e') : Curbs e e'.awaitResponse := by
  unfold Engine.awaitResponse
  split
  · exact h
  · exact h.rearm rfl (Nat.le_refl 2)

theorem sendFrame (header : List UInt8) (left : Nat) (h : Curbs e e') : Curbs e (e'.sendFrame header left) := by
  unfold Engine.sendFrame
  exact (h.update _ _ _ _ _ (by rfl) (by omega)).transmit _ _

theorem sendFrames (header : List UInt8) (left : Nat) (h : Curbs e e') :
    Curbs e (Engine.sendFrames header left e') := by
  induction left generalizing e' with
  | zero => exact h
  | succ left ih =>
    unfold Engine.sendFrames
    dsimp only
    split
    · exact h.sendFrame header left
    · exact ih (h.sendFrame header left)

theorem sendBlock (h : Curbs e e') : Curbs e e'.sendBlock := by
  unfold Engine.sendBlock
  split
  · exact h
  · exact (h.sendFrames _ _).expectOnChannel.update _ _ _ _ _ (by rfl) (by omega)

theorem sendRequest (h : Curbs e e') : Curbs e e'.sendRequest := by
  unfold Engine.sendRequest
  split
  · exact h
  · exact (h.update _ _ _ _ _ (by rfl) (by omega)).sendBlock

theorem abortTransfer (h : Curbs e e') : Curbs e e'.abortTransfer := by
  unfold Engine.abortTransfer
  dsimp only
  exact ((h.update _ _ _ _ _ (by rfl) (by omega)).expectOnChannel.update _ _ _ _ _ (by rfl) (by omega)).transmit _ _

theorem refuseData (h : Curbs e e') : Curbs e e'.refuseData := by
  unfold Engine.refuseData
  exact (h.update _ _ _ _ _ (by rfl) (by omega)).transmit _ _

theorem interrupt (h : Curbs e e') : Curbs e e'.interrupt := by
  unfold Engine.interrupt
  split
  · exact h.abortTransfer
  · exact h.abortTransfer.of_eq rfl rfl
  · exact h

theorem startVwtp (h : Curbs e e') : Curbs e e'.startVwtp := by
  have ht := h.touchChannel
  rcases hj : e'.job.entry with _ | entry
  · simp only [Engine.startVwtp, hj]
    exact h
  · have hst := startVwtp_start e' hj
    generalize e'.startVwtp = e'' at hst ⊢
    cases hst with
    | again => exact ht.requestSetup
    | request => exact ht.interrupt.sendRequest
    | close => exact ht.requestClose
    | setup => exact ht.requestSetup
    | nothing => exact ht.deliverFailure _

/-! ### Frames on the channel -/

theorem acknowledge (h : Curbs e e') (opcode : UInt8) : Curbs e (e'.acknowledge opcode) := by
  unfold Engine.acknowledge
  split
  · exact h.transmit _ _
  · exact h

theorem countData (h : Curbs e e') : Curbs e e'.countData := h.of_eq rfl rfl

theorem deliverSegment (h : Curbs e e') (id : UInt32) (payload : List UInt8) (remain : UInt16) :
    Curbs e (e'.deliverSegment id payload remain) := by
  unfold Engine.deliverSegment
  exact (h.update _ _ _ _ _ (by rfl) (by omega)).deliverReply payload

theorem deliverData (h : Curbs e e') (opcode : UInt8) (segment payload : List UInt8) :
    Curbs e (e'.deliverData opcode segment payload) := by
  have hd := (h.acknowledge opcode).deliverSegment (e'.acknowledge opcode).channel.rxId payload
    (lessLength (e'.acknowledge opcode).job.mlRemain segment)
  unfold Engine.deliverData afterData
  dsimp only
  split
  · exact hd.goIdle
  · exact hd.rearm rfl (Nat.le_refl 2)

theorem receiveFirstData (h : Curbs e e') (opcode : UInt8) (total : UInt16) (segment : List UInt8) :
    Curbs e (e'.receiveFirstData opcode total segment).2 := by
  have ht : Curbs e { e' with job := { e'.job with mlRemain := total } } := h.of_eq rfl rfl
  unfold Engine.receiveFirstData
  dsimp only
  split
  · exact ht.abortTransfer
  · exact ht.deliverData ..
  · split
    · exact (ht.acknowledge opcode).rearm rfl (Nat.le_refl 2)
    · exact (((ht.acknowledge opcode).update _ _ _ _ _ (by rfl) (Nat.le_max_right ..)).deliverFailure _).goIdle

theorem receiveResponse (h : Curbs e e') (opcode : UInt8) (data : List UInt8) :
    Curbs e (e'.receiveResponse opcode data).2 := by
  unfold Engine.receiveResponse receiveData
  split
  · exact h.transmit _ _
  · split
    · exact h.peerClose
    · split
      · split
        · exact h.countData.abortTransfer
        · split
          · exact h.countData.deliverData ..
          · exact h.countData.receiveFirstData ..
      · exact h

theorem receiveIdle (h : Curbs e e') (opcode : UInt8) : Curbs e (e'.receiveIdle opcode) := by
  unfold Engine.receiveIdle
  split
  · exact h.transmit _ _
  · split
    · exact h.peerClose
    · split
      · exact h.refuseData
      · exact h

theorem receiveAck (h : Curbs e e') (opcode : UInt8) : Curbs e (e'.receiveAck opcode) := by
  have hc : Curbs e { e' with out := e'.out.clear } := h.of_eq rfl rfl
  unfold Engine.receiveAck
  split
  · split
    · exact h.sendBlock
    · exact h.awaitResponse
  · split
    · exact hc.goIdle
    · split
      · exact h.transmit _ _
      · split
        · exact h.peerClose
        · exact h

theorem receiveSetup (h : Curbs e e') (length : Nat) (d : Vector UInt8 8) :
    Curbs e (e'.receiveSetup length d).2 := by
  unfold Engine.receiveSetup
  split
  · exact h
  · split
    · exact h.loseChannel.deliverFailure _
    · exact (h.update _ _ _ _ _ (by rfl) (by omega)).requestParams

theorem receiveParams (h : Curbs e e') (length : Nat) (d : Vector UInt8 8) :
    Curbs e (e'.receiveParams length d).2 := by
  unfold Engine.receiveParams
  split
  · exact h
  · split
    · exact (h.update _ _ _ _ _ (by rfl) (by omega)).sendRequest
    · split
      · exact h.peerClose
      · exact h

theorem receiveClosing (h : Curbs e e') (length : Nat) (d : Vector UInt8 8) :
    Curbs e (e'.receiveClosing length d).2 := by
  unfold Engine.receiveClosing
  split
  · exact h
  · dsimp only
    split
    · exact h.shutChannel
    · split
      · exact h.shutChannel.requestSetup
      · exact h.shutChannel.deliverFailure _

theorem channelStep (h : Curbs e e') (frame : Frame) : Curbs e (e'.channelStep frame).2 := by
  unfold Engine.channelStep
  dsimp only
  cases e'.channel.state with
  | setup => exact h.receiveSetup ..
  | params => exact h.receiveParams ..
  | closing => exact h.receiveClosing ..
  | idle => exact h.receiveIdle _
  | transmit => exact h.receiveAck _
  | receive => exact h.receiveResponse ..
  | closed | startPoll | abort => exact h

/-! ### ISO-TP -/

theorem startIsoTp (h : Curbs e e') : Curbs e e'.startIsoTp := by
  unfold Engine.startIsoTp
  cases e'.job.entry with
  | none => exact h
  | some entry =>
    have hids : (isoTpIds e'.job entry).protocol = e'.job.protocol := by
      unfold isoTpIds
      split <;> rfl
    exact (h.update _ _ _ _ _ (by exact hids) (by omega)).transmit _ _

theorem burst (target : UInt32) (delay count : Nat) (h : Curbs e e') :
    Curbs e (Engine.burst target delay count e') := by
  induction count generalizing e' with
  | zero => exact h
  | succ count ih =>
    have hone : Curbs e (e'.sendConsecutive target) :=
      (h.update _ _ _ _ _ (by rfl) (by omega)).transmit _ _
    unfold Engine.burst
    split
    · exact h
    · dsimp only
      split
      · exact hone
      · exact ih (hone.update _ _ _ _ _ (by rfl) (by omega))

end Curbs

/-! ### Every run -/

/-- The wait counter is within a byte, and a poll over the channel waits for two ticks at most. -/
structure Curbed (e : Engine) : Prop where
  wait_le : e.wait ≤ 255
  vwtp : e.job.isVwtp = true → e.wait ≤ 2

namespace Curbed

theorem curbs (h : Curbed e) (hc : Curbs e e') : Curbed e' where
  wait_le := by
    have := h.wait_le
    have := hc.wait
    omega
  vwtp hv := by
    have := h.vwtp (hc.isVwtp.symm.trans hv)
    have := hc.wait
    omega

theorem of_le (hw : e.wait ≤ 2) : Curbed e := ⟨by omega, fun _ => hw⟩

theorem of_eq (h : Curbed e) (hj : e'.job.protocol = e.job.protocol) (hw : e'.wait = e.wait) : Curbed e' :=
  h.curbs ((Curbs.refl e).of_eq hj hw)

/-- The responder asks for more time. -/
theorem longer (h : e.job.isVwtp = false) : Curbed { e with wait := min 255 (e.wait + 1) } :=
  ⟨Nat.min_le_left .., fun hv => absurd hv (by simp [h])⟩

/-! ### Polls -/

theorem dispatch (hw : e.wait = 0) (entry : PollEntry) : Curbed (e.dispatch entry) := by
  have ha : Curbed (e.assign entry) := .of_le (by show e.wait ≤ 2; omega)
  unfold Engine.dispatch
  split
  · exact ha.curbs (Curbs.refl _).startVwtp
  · exact ha.curbs (Curbs.refl _).startIsoTp

theorem startSingle (h : Curbed e) (request : SingleRequest) : Curbed (e.startSingle request) := by
  have hc : Curbed (e.capture request).advance := .of_le (Nat.zero_le 2)
  unfold Engine.startSingle
  split
  · exact h.of_eq rfl rfl
  · dsimp only
    split
    · exact .dispatch rfl _
    · exact hc.curbs ((Curbs.refl _).finishSingle _)

theorem pollList (h : Curbed e) (hw : e.wait = 0) : Curbed e.pollList := by
  have ha : Curbed e.advance := h.of_eq rfl rfl
  unfold Engine.pollList
  split
  · exact .dispatch (e := e.advance) hw _
  · split
    · exact ha
    · exact ha.of_eq rfl rfl
  · exact ha

theorem turn (h : Curbed e) (ht : Turn e e') : Curbed e' := by
  have hc := Curbs.refl e
  cases ht with
  | count => exact h.curbs ⟨rfl, by show e.wait - 1 ≤ _; omega⟩
  | grace => exact .of_le (Nat.le_refl 2)
  | shut => exact h.curbs hc.shutChannel
  | reopen => exact h.curbs hc.startVwtp
  | close => exact h.curbs hc.requestClose
  | expire => exact h.curbs hc.expireSingle
  | @single request queued =>
    have hq : Curbed { e with queued } := h.of_eq rfl rfl
    exact hq.startSingle request
  | pass =>
    unfold startPass
    dsimp only
    split <;> exact h.of_eq rfl rfl
  | poll hw => exact h.pollList hw
  | fail =>
    refine .of_le ?_
    rw [wait_failTransmission]
    exact Nat.zero_le 2
  | release | arm | take | sent => exact h.of_eq rfl rfl

theorem turns (h : Curbed e) (ht : Turns e e') : Curbed e' := by
  induction ht with
  | refl => exact h
  | tail _ ht ih => exact ih.turn ht

/-! ### Frames beside the channel -/

theorem afterSegment (e : Engine) (id : UInt32) (first : Bool) (length : Nat) :
    Curbed (e.afterSegment id first length) := by
  have hw : Curbed { e with wait := 0 } := .of_le (Nat.zero_le 2)
  unfold Engine.afterSegment
  split
  · dsimp only
    split
    · exact hw
    · exact hw.turns ((Turns.refl _).pollNext rfl)
  · exact .of_le (Nat.le_refl 2)

theorem receiveOpening (h : Curbed e) (hv : e.job.isVwtp = false) (id : UInt32) (total : UInt16)
    (segment : List UInt8) (first : Bool) : Curbed (e.receiveOpening id total segment first) := by
  unfold Engine.receiveOpening
  split
  · exact h
  · split
    · exact longer hv
    · exact afterSegment ..
  · exact afterSegment ..

theorem receiveConsecutive (e : Engine) (id : UInt32) (index : UInt8) (data : List UInt8) :
    Curbed (e.receiveConsecutive id index data) := by
  unfold Engine.receiveConsecutive
  split
  · exact .of_le (Nat.le_refl 2)
  · exact afterSegment ..

theorem isoTpFlow (h : Curbed e) (hv : e.job.isVwtp = false) (id : UInt32) (command blockSize septime : UInt8) :
    Curbed (e.isoTpFlow id command blockSize septime) := by
  unfold Engine.isoTpFlow
  split
  · exact h
  · split
    · exact h
    · exact longer hv
    · exact h.of_eq rfl rfl
    · dsimp only
      split
      · exact .of_le (Nat.le_refl 2)
      · exact h.curbs ((Curbs.refl e).burst ..)

theorem receiveOther (h : Curbed e) (frame : Frame) : Curbed (e.receiveOther frame) := by
  unfold Engine.receiveOther
  by_cases hf : (!e.job.isVwtp && 0 < e.wait && e.job.entry.isSome && e.job.accepts (e.responseId frame)) = true
  · rw [if_pos hf]
    have hv : e.job.isVwtp = false := by
      cases hv : e.job.isVwtp with
      | false => rfl
      | true => simp [hv] at hf
    unfold receiveIsoTp
    split
    · exact h
    · exact h.isoTpFlow hv ..
    · exact h.receiveOpening hv ..
    · exact h.receiveOpening hv ..
    · exact receiveConsecutive ..
  · rw [if_neg hf]
    exact h

/-! ### Operations -/

theorem receiveVwtp (h : Curbed e) (frame : Frame) : Curbed (e.receiveVwtp frame) := by
  have hs := h.curbs ((Curbs.refl e).channelStep frame)
  unfold Engine.receiveVwtp
  split
  · exact h
  · generalize e.channelStep frame = next at hs
    obtain ⟨after, e₁⟩ := next
    cases after with
    | chain => exact hs.turns (turns_chained e₁ .chain)
    | stay => exact hs

theorem refuseQueued (h : Curbed e) : Curbed e.refuseQueued :=
  refuseQueued_keeps (h.of_eq rfl rfl) fun _ _ h => h.of_eq rfl rfl

theorem step (h : Curbed e) (hr : e.AtRest) (op : Operation) : Curbed (e.step op) := by
  have hworked : Curbed (e.worked op) := by
    cases op with
    | frame frame =>
      unfold worked
      dsimp only
      split
      · exact h
      · split
        · exact h.receiveVwtp frame
        · exact h.receiveOther frame
    | tick primary =>
      have hready : Curbed (e.readied (.tick primary)) := h.of_eq rfl rfl
      have hbegun : Curbed ((e.readied (.tick primary)).emit (.stateTicker e.bus)) := hready.of_eq rfl rfl
      cases primary with
      | false => exact hready.turns ((Turns.refl _).pollSend false)
      | true => exact hbegun.turns ((Turns.refl _).pollSend true)
    | txComplete frame success => exact h.turns ((Turns.refl e).judgeResult ..)
    | sendSuccess =>
      have hdue : Curbed { e with successDue := none } := h.of_eq rfl rfl
      unfold worked
      dsimp only
      split
      · split
        · exact hdue.turns ((Turns.refl _).pollSend false)
        · exact hdue
      · exact h
    | setList list bus =>
      show Curbed (e.setList list bus)
      unfold setList
      split
      · exact h.of_eq rfl rfl
      · exact .of_le (Nat.zero_le 2)
    | setState state =>
      show Curbed (e.setState state)
      unfold setState
      dsimp only
      split
      · exact .of_le (Nat.zero_le 2)
      · exact h.of_eq rfl rfl
    | shutdown =>
      have hq := (h.curbs ((Curbs.refl e).finishSingle (.error .unavailable))).refuseQueued
      show Curbed e.shutdown
      unfold shutdown
      dsimp only
      split
      · exact (hq.curbs (Curbs.refl _).requestClose.shutChannel).of_eq rfl rfl
      · exact hq.of_eq rfl rfl
    | _ => exact h.of_eq rfl rfl
  rw [step_eq_settle hr]
  exact hworked.turns (Turns.refl _).settle

theorem run (h : Curbed e) (hr : e.AtRest) (ops : List Operation) : Curbed (e.run ops) := by
  induction ops generalizing e with
  | nil => exact h
  | cons op ops ih => exact ih (h.step hr op) (hr.step op)

end Curbed

theorem Reached.curbed (hr : e.Reached) : Curbed e := by
  obtain ⟨bus, name, reports, settings, ops, rfl⟩ := hr
  exact Curbed.run (.of_le (Nat.zero_le 2)) ⟨rfl, .inr rfl⟩ ops

end EcuPoll.Engine
