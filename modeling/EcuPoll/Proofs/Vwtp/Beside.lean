import EcuPoll.Proofs.Engine.Addressing
import EcuPoll.Proofs.Engine.Ownership
import EcuPoll.Proofs.Engine.Quiet

/-!
# A channel beside an ISO-TP poll

A channel stays open when the poll that opened it is over, so that frames may come in on it while an
ISO-TP poll is in flight. `Untouched` says that handling such a frame leaves that poll alone. Most frames do,
but the state machine of the channel shares the wait counter, the buffer and the place in the response with
ISO-TP and does not always ask whose they are: `Disturbs` lists the frames that get in the way of the
poll. A frame leaves the poll alone just when it is none of these and its answer does not fail the poll:
`untouched_iff`.
-/

namespace EcuPoll

/-- A poll or a single request begins, is answered or fails, or request data goes out on a channel. -/
def Event.IsTouch : Event → Prop
  | .reply _ _ _ | .failed _ _ | .dispatched _ _ _ | .singleStarted _ | .singleResolved _ _ => True
  | .wrote (.data _) _ _ => True
  | _ => False

namespace Engine
variable {e e' e'' : Engine} {frame : Frame}

/-- The poll in flight goes on as if nothing had happened. The id that its response came from is set back
when a frame of it is reported as sent. -/
structure Untouched (e e' : Engine) : Prop where
  wait : e'.wait = e.wait
  job : e'.job = { e.job with received := e'.job.received }
  out : e'.out = e.out
  single : e'.single = e.single
  log : Adds (fun event => ¬ event.IsTouch) e e'

/-- The frame begins a response that tells the poll in flight to wait longer, and there is nothing to wait
longer for. -/
def IsPending (e : Engine) (frame : Frame) : Prop :=
  Frame.leadByte frame.data &&& 0x0f = e.channel.rxSeq &&& 0x0f ∧ e.job.resetMultiframe = e.job ∧ e.wait = 2 ∧
    ∃ code, code.isPending = true ∧ e.judge (frame.payload.drop 3) = .refused code

/-- The frame on the channel gets in the way of the ISO-TP poll in flight. -/
inductive Disturbs (e : Engine) (frame : Frame) : Prop
  /-- The module turns the channel down: this fails the poll. -/
  | rejected (hs : e.channel.state = .setup) (hl : frame.dlc = 7)
    (hd : Opcode.setupAccept < frame.data.toList.getD 1 0)
    (hm : frame.data.toList.getD 1 0 ≤ Opcode.setupRejectMax)
  /-- The module accepts the channel: the wait begins anew. -/
  | accepted (hs : e.channel.state = .setup) (hl : frame.dlc = 7)
    (hd : frame.data.toList.getD 1 0 = Opcode.setupAccept) (hw : e.wait ≠ 2)
  /-- The module answers with its parameters: the request of the poll goes out on the channel. -/
  | agreed (hs : e.channel.state = .params) (hl : frame.dlc ≠ 0)
    (hd : Frame.leadByte frame.data = Opcode.paramsResponse)
  /-- The module is ready for more: the rest of the request goes out on the channel, or the wait begins
  anew. -/
  | ready (hs : e.channel.state = .transmit) (hl : frame.dlc = 1)
    (hd : Opcode.high (Frame.leadByte frame.data) = Opcode.ackReady)
    (hw : 0 < e.out.remaining ∨ e.wait ≠ 2)
  /-- The module is not ready: the rest of the request is given up. -/
  | notReady (hs : e.channel.state = .transmit) (hl : frame.dlc = 1)
    (hd : Opcode.high (Frame.leadByte frame.data) = Opcode.ackNotReady)
  /-- The module closes the channel: the wait ends. -/
  | closes (hs : (e.channel.state = .closing ∨ e.channel.state = .transmit) ∧ frame.dlc = 1 ∨
      e.channel.state = .params ∧ frame.dlc ≠ 0 ∨ e.channel.state = .idle ∨ e.channel.state = .receive)
    (hd : Frame.leadByte frame.data = Opcode.disconnect)
  /-- The module sends data: it is taken for a response to the poll. -/
  | data (hs : e.channel.state = .receive) (hd : Frame.leadByte frame.data < 0x40)
    (hp : ¬ e.IsPending frame)

/-- The bus refuses what the engine answers on the channel, and that has the id of the request in flight. -/
def AnswerFails (e : Engine) (frame : Frame) : Prop :=
  ¬ (e.channelStep frame).2.NoneFailed

/-! ### Frames that do no harm -/

/-- Only the channel has moved on, and frames without request data were written. -/
def Beside (e e' : Engine) : Prop :=
  ∃ line channel results new, e' = { e with line, channel, results, log := new ++ e.log } ∧
    ∀ s ∈ new, ¬ s.event.IsTouch

namespace Beside

theorem refl (e : Engine) : Beside e e := ⟨e.line, e.channel, e.results, [], rfl, by simp⟩

theorem update (h : Beside e e') (channel : Channel) {wait : Nat} (hw : e.wait = wait) :
    Beside e { e' with channel, wait } := by
  obtain ⟨line, _, results, new, rfl, hnew⟩ := h
  subst hw
  exact ⟨line, channel, results, new, rfl, hnew⟩

theorem transmit (h : Beside e e') {kind : FrameKind} (hk : ∀ number, kind ≠ .data number) (frame : Frame) :
    Beside e (e'.transmit kind frame) := by
  obtain ⟨line, channel, results, new, rfl, hnew⟩ := h
  rw [transmit_eq]
  refine ⟨_, channel, _, _ :: new, rfl, List.forall_mem_cons.2 ⟨?_, hnew⟩⟩
  cases kind with
  | data number => exact absurd rfl (hk number)
  | _ => exact id

theorem wait (h : Beside e e') : e'.wait = e.wait := by
  obtain ⟨line, channel, results, new, rfl, -⟩ := h
  rfl

theorem active (h : Beside e e') : e'.active = e.active := by
  obtain ⟨line, channel, results, new, rfl, -⟩ := h
  rfl

theorem acknowledge (h : Beside e e') (opcode : UInt8) : Beside e (e'.acknowledge opcode) := by
  unfold Engine.acknowledge
  split
  · exact h.transmit (fun number hn => by cases hn) _
  · exact h

end Beside

theorem expectOnChannel_eq (hj : e.job.isVwtp = false) : e.expectOnChannel = e := by
  simp [expectOnChannel, hj]

/-- The byte of a setup frame that says whether the module agrees. -/
theorem getD_one (d : Vector UInt8 8) : d.toList.getD 1 0 = d.get 1 := by
  show _ = d.toArray[1]
  simp [List.getD_eq_getElem?_getD]

/-- A response that tells the poll to wait longer. -/
theorem receiveData_pending (hp : e.IsPending frame) :
    Beside e (e.receiveData (Frame.leadByte frame.data) frame.payload).2 := by
  obtain ⟨hseq, hfresh, hw, code, hcode, hjudge⟩ := hp
  have hml : e.job.mlFrame = 0 := by
    rw [← hfresh]
    rfl
  unfold receiveData
  rw [if_neg (not_not_intro hseq), if_neg (not_not_intro hml)]
  unfold receiveFirstData
  dsimp only
  generalize Envelope.word _ _ = total
  have hverdict : Engine.judge { e.countData with job := { e.countData.job with mlRemain := total } }
      (frame.payload.drop 3) = .refused code := hjudge
  rw [hverdict]
  dsimp only
  rw [if_pos hcode]
  have hack : Beside { e.countData with job := { e.countData.job with mlRemain := total } }
      (Engine.acknowledge { e.countData with job := { e.countData.job with mlRemain := total } }
        (Frame.leadByte frame.data)) := (Beside.refl _).acknowledge _
  generalize Engine.acknowledge _ _ = e' at hack ⊢
  obtain ⟨line, channel, results, new, rfl, hnew⟩ := hack
  have hjob : PollJob.resetMultiframe { e.job with mlRemain := total } = e.job := hfresh
  refine ⟨line, channel, results, new, ?_, hnew⟩
  simp only [countData, hjob, ← hw]

theorem beside_sendPong (e : Engine) : Beside e e.sendPong :=
  (Beside.refl e).transmit (fun number hn => by cases hn) _

theorem receiveSetup_beside (hj : e.job.isVwtp = false) (hd : ¬ e.Disturbs frame) (hs : e.channel.state = .setup) :
    Beside e (e.receiveSetup (min frame.dlc 8) frame.data).2 := by
  have hr := Beside.refl e
  unfold receiveSetup
  by_cases hl : min frame.dlc 8 ≠ 7 ∨ frame.data[1] < Opcode.setupAccept ∨ Opcode.setupRejectMax < frame.data[1]
  · rw [if_pos hl]
    exact hr
  · rw [if_neg hl]
    simp only [not_or, Decidable.not_not, UInt8.not_lt] at hl
    have hlen : frame.dlc = 7 := by omega
    by_cases hne : frame.data[1] ≠ Opcode.setupAccept
    · rw [if_pos hne]
      refine absurd (.rejected hs hlen ?_ ?_) hd
      · rw [getD_one]
        exact UInt8.lt_of_le_of_ne hl.2.1 (Ne.symm hne)
      · rw [getD_one]
        exact hl.2.2
    · rw [if_neg hne]
      have hw : e.wait = 2 := Decidable.not_not.1 fun hw =>
        hd (.accepted hs hlen (by rw [getD_one]; exact Decidable.not_not.1 hne) hw)
      dsimp only
      unfold requestParams
      rw [if_neg (by rw [hs]; decide), expectOnChannel_eq (by exact hj)]
      exact (hr.update _ hw).transmit (fun number hn => by cases hn) _

theorem receiveParams_beside (hd : ¬ e.Disturbs frame) (hs : e.channel.state = .params) :
    Beside e (e.receiveParams (min frame.dlc 8) frame.data).2 := by
  have hr := Beside.refl e
  unfold receiveParams
  by_cases hl : min frame.dlc 8 = 0
  · rw [if_pos hl]
    exact hr
  · rw [if_neg hl]
    have hlen : frame.dlc ≠ 0 := by omega
    by_cases ha : Frame.leadByte frame.data = Opcode.paramsResponse
    · rw [if_pos ha]
      exact absurd (.agreed hs hlen ha) hd
    · rw [if_neg ha]
      by_cases hc : Frame.leadByte frame.data = Opcode.disconnect
      · rw [if_pos hc]
        exact absurd (.closes (.inr (.inl ⟨hs, hlen⟩)) hc) hd
      · rw [if_neg hc]
        exact hr

theorem receiveClosing_beside (hd : ¬ e.Disturbs frame) (hs : e.channel.state = .closing) :
    Beside e (e.receiveClosing (min frame.dlc 8) frame.data).2 := by
  unfold receiveClosing
  by_cases hl : min frame.dlc 8 ≠ 1 ∨ Frame.leadByte frame.data ≠ Opcode.disconnect
  · rw [if_pos hl]
    exact .refl e
  · rw [if_neg hl]
    simp only [not_or, Decidable.not_not] at hl
    exact absurd (.closes (.inl ⟨.inl hs, by omega⟩) hl.2) hd

theorem receiveIdle_beside (hd : ¬ e.Disturbs frame) (hs : e.channel.state = .idle) :
    Beside e (e.receiveIdle (Frame.leadByte frame.data)) := by
  unfold receiveIdle
  split
  · exact beside_sendPong e
  · by_cases hc : Frame.leadByte frame.data = Opcode.disconnect
    · rw [if_pos hc]
      exact absurd (.closes (.inr (.inr (.inl hs))) hc) hd
    · rw [if_neg hc]
      split
      · exact ((Beside.refl e).update _ rfl).transmit (fun number hn => by cases hn) _
      · exact .refl e

theorem receiveAck_beside (hd : ¬ e.Disturbs frame) (hs : e.channel.state = .transmit) (hl : frame.dlc = 1) :
    Beside e (e.receiveAck (Frame.leadByte frame.data)) := by
  have hr := Beside.refl e
  unfold receiveAck
  by_cases ha : Opcode.high (Frame.leadByte frame.data) = Opcode.ackReady
  · rw [if_pos ha]
    have hno : ¬ (0 < e.out.remaining ∨ e.wait ≠ 2) := fun hw => hd (.ready hs hl ha hw)
    rw [if_neg fun h => hno (.inl h)]
    unfold awaitResponse
    rw [if_neg (by rw [hs]; decide)]
    have hw : e.wait = 2 := by omega
    exact hr.update _ hw
  · rw [if_neg ha]
    by_cases hn : Opcode.high (Frame.leadByte frame.data) = Opcode.ackNotReady
    · rw [if_pos hn]
      exact absurd (.notReady hs hl hn) hd
    · rw [if_neg hn]
      split
      · exact beside_sendPong e
      · by_cases hc : Frame.leadByte frame.data = Opcode.disconnect
        · rw [if_pos hc]
          exact absurd (.closes (.inl ⟨.inr hs, hl⟩) hc) hd
        · rw [if_neg hc]
          exact hr

theorem receiveResponse_beside (hd : ¬ e.Disturbs frame) (hs : e.channel.state = .receive) :
    Beside e (e.receiveResponse (Frame.leadByte frame.data) frame.payload).2 := by
  unfold receiveResponse
  split
  · exact beside_sendPong e
  · by_cases hc : Frame.leadByte frame.data = Opcode.disconnect
    · rw [if_pos hc]
      exact absurd (.closes (.inr (.inr (.inr hs))) hc) hd
    · rw [if_neg hc]
      by_cases ho : Frame.leadByte frame.data < 0x40
      · rw [if_pos ho]
        exact receiveData_pending (Classical.not_not.1 fun hp => hd (.data hs ho hp))
      · rw [if_neg ho]
        exact .refl e

/-- A frame on the channel that is none of those listed changes nothing but the channel. -/
theorem channelStep_beside (hj : e.job.isVwtp = false) (hd : ¬ e.Disturbs frame) :
    Beside e (e.channelStep frame).2 := by
  unfold channelStep
  dsimp only
  cases hs : e.channel.state with
  | setup => exact receiveSetup_beside hj hd hs
  | params => exact receiveParams_beside hd hs
  | closing => exact receiveClosing_beside hd hs
  | idle => exact receiveIdle_beside hd hs
  | transmit =>
    dsimp only
    by_cases hl : frame.dlc = 1
    · rw [if_pos (by omega)]
      exact receiveAck_beside hd hs hl
    · rw [if_neg (by omega)]
      exact .refl e
  | receive => exact receiveResponse_beside hd hs
  | closed | startPoll | abort => exact .refl e

/-! ### Frames that get in the way -/

/-- The poll in flight has been answered or has failed, or something else has begun. -/
def Touched : Engine → Engine → Prop := Shows Event.IsTouch

namespace Touched

theorem grows (h : Touched e e') (hg : Grows e' e'') : Touched e e'' := Shows.grows h hg.log

theorem of_grows (hg : Grows e e') (h : Touched e' e'') : Touched e e'' := Shows.of_grows hg.log h

theorem not_untouched (h : Touched e e') : ¬ Untouched e e' := fun hu =>
  Shows.not_adds h (fun _ => not_not_intro) hu.log

theorem finishSingle (hs : e.single ≠ none) (result : SingleResult) :
    Touched e (e.finishSingle result) := by
  unfold Engine.finishSingle
  cases h : e.single with
  | none => exact absurd h hs
  | some _ => exact ⟨[_], rfl, _, List.mem_singleton.2 rfl, trivial⟩

theorem deliverFailure (e : Engine) (failure : PollFailure) : Touched e (e.deliverFailure failure) := by
  unfold Engine.deliverFailure
  cases hs : e.single with
  | none => exact Shows.emit e trivial
  | some _ =>
    exact finishSingle (by rw [hs]; nofun) _

theorem failTransmission (e : Engine) : Touched e e.failTransmission := by
  have hg : Grows e { (if e.job.isVwtp then e.loseChannel else e) with wait := 0 } := by
    split <;> exact ⟨rfl, List.suffix_refl _⟩
  exact of_grows hg (deliverFailure ..)

end Touched

theorem judgeResult_ended (h : e.wait = 0 ∨ e.active = false) (frame : Frame) (success : Bool) :
    e.judgeResult frame success = e := by
  unfold judgeResult
  rw [if_pos (by rcases h with h | h <;> simp [h])]

theorem judgeResults_ended (h : e.wait = 0 ∨ e.active = false) :
    e.judgeResults = { e with results := [] } := by
  have hfold : ∀ results : List (Frame × Bool), ∀ e : Engine, e.wait = 0 ∨ e.active = false →
      results.foldl (fun e r => e.judgeResult r.1 r.2) e = e := by
    intro results
    induction results with
    | nil => exact fun e _ => rfl
    | cons r results ih =>
      intro e h
      rw [List.foldl_cons, judgeResult_ended h]
      exact ih e h
  exact hfold e.results _ h

theorem judgeResult_failed (hw : e.wait ≠ 0) (ha : e.active = true) {frame : Frame}
    (hi : frame.id = e.job.txId) : Touched e (e.judgeResult frame false) := by
  have hf := Touched.failTransmission e
  unfold judgeResult
  rw [if_neg (by simp [hw, ha, hi])]
  show Touched e (if e.single.isNone then e.failTransmission.reportSent false else e.failTransmission)
  split
  · exact hf.grows ⟨rfl, List.suffix_cons ..⟩
  · exact hf

/-- A failed write fails the poll in flight. -/
theorem judgeResults_failed (hw : e.wait ≠ 0) (ha : e.active = true) (hf : ¬ e.NoneFailed) :
    Touched e e.judgeResults := by
  have hfold : ∀ results : List (Frame × Bool), ∀ e : Engine, e.wait ≠ 0 → e.active = true →
      ¬ (∀ r ∈ results, r.2 = true ∨ r.1.id ≠ e.job.txId) →
      Touched e (results.foldl (fun e r => e.judgeResult r.1 r.2) e) := by
    intro results
    induction results with
    | nil => exact fun e _ _ hf => absurd (by simp) hf
    | cons r results ih =>
      intro e hw ha hf
      have hg : Grows (e.judgeResult r.1 r.2)
          (results.foldl (fun e r => e.judgeResult r.1 r.2) (e.judgeResult r.1 r.2)) :=
        .turns ((Turns.refl _).judgeEach results)
      rw [List.foldl_cons]
      rw [List.forall_mem_cons, not_and] at hf
      by_cases hr : r.2 = true ∨ r.1.id ≠ e.job.txId
      · rcases hr with hsent | hother
        · obtain ⟨received, new, heq, -⟩ := judgeResult_good e r.1
          rw [hsent] at hg ⊢
          have := ih (e.judgeResult r.1 true) (by rw [heq]; exact hw) (by rw [heq]; exact ha)
            (by rw [heq]; exact hf (.inl hsent))
          exact this.of_grows ⟨by rw [heq], by rw [heq]; exact List.suffix_append ..⟩
        · rw [judgeResult_other hother]
          exact ih e hw ha (hf (.inr hother))
      · simp only [not_or, Bool.not_eq_true, Decidable.not_not] at hr
        rw [hr.1] at hg ⊢
        exact (judgeResult_failed hw ha hr.2).grows hg
  exact hfold e.results { e with results := [] } hw ha hf

/-- The results of writes fail the poll in flight or leave it alone. -/
theorem judgeResults_cases (e : Engine) : Touched e e.judgeResults ∨ ∃ received new, e.judgeResults =
    { e with job := { e.job with received }, results := [], log := new ++ e.log } := by
  by_cases hs : e.NoneFailed
  · obtain ⟨received, new, heq, -⟩ := judgeResults_noneFailed hs
    exact .inr ⟨received, new, heq⟩
  · by_cases h : e.wait = 0 ∨ e.active = false
    · exact .inr ⟨e.job.received, [], judgeResults_ended h⟩
    · simp only [not_or, Bool.not_eq_false] at h
      exact .inl (judgeResults_failed h.1 h.2 hs)

theorem settle_cases (hq : e.single.isSome = true ∨ e.queued = []) :
    Touched e e.settle ∨ ∃ received new, e.settle =
      { e with job := { e.job with received }, results := [], log := new ++ e.log } := by
  rcases judgeResults_cases e with ht | ⟨received, new, heq⟩
  · exact .inl (ht.grows (.turns (Turns.judged_settle e)))
  · exact .inr ⟨received, new, (settle_eq_judgeResults (by rw [heq]) hq).trans heq⟩

/-- No response is awaited any more, unless something has begun since. -/
def Ended (e e' : Engine) : Prop := e'.wait = 0 ∨ Touched e e'

namespace Ended

theorem of_grows (hg : Grows e e') (h : Ended e' e'') : Ended e e'' :=
  h.imp id (.of_grows hg)

theorem startSingle (hw : e.wait = 0) (request : SingleRequest) : Ended e (e.startSingle request) := by
  unfold Engine.startSingle
  split
  · exact .inl hw
  · have hc : Touched e (e.capture request).advance := ⟨[_], rfl, _, List.mem_singleton.2 rfl, trivial⟩
    refine .inr ?_
    dsimp only
    cases (e.capture request).schedule.next.1 with
    | due entry =>
      have ha : Grows (e.capture request).advance ((e.capture request).advance.assign entry) :=
        ⟨rfl, List.suffix_cons ..⟩
      exact hc.grows (ha.trans (.of_stays (Stays.dispatch entry (.refl _))))
    | _ => exact hc.grows (.of_stays ((Stays.refl _).finishSingle _))

theorem pollList (hw : e.wait = 0) : Ended e e.pollList := by
  unfold Engine.pollList
  cases e.schedule.next.1 with
  | due entry =>
    have ha : Touched e (e.advance.assign entry) := ⟨[_], rfl, _, List.mem_singleton.2 rfl, trivial⟩
    exact .inr (ha.grows (.of_stays (Stays.dispatch entry (.refl _))))
  | passComplete =>
    dsimp only
    split <;> exact .inl hw
  | empty => exact .inl hw

theorem sendNext (hw : e.wait = 0) : Ended e (e.sendNext false) := by
  have hsent := sendNext_sent e false
  generalize e.sendNext false = e' at hsent ⊢
  cases hsent with
  | waits hwait => omega
  | held => exact .inl hw
  | @single request queued => exact startSingle (e := { e with active := false, queued }) hw request
  | list _ _ _ hp =>
    obtain rfl := hp.resolve_right (by simp)
    split
    · exact .inl hw
    · exact pollList (e := { e with active := false }) hw

theorem pollNext (hw : e.wait = 0) : Ended e e.pollNext := by
  unfold Engine.pollNext
  dsimp only
  split
  · exact .inl hw
  · split
    · exact sendNext (e := { e with active := false }) hw
    · exact .inl hw

theorem settle (hw : e.wait = 0) : Ended e e.settle := by
  have h : ∀ (queued : List SingleRequest) (e : Engine), e.wait = 0 → e.queued = queued →
      Ended e (startQueued queued e) := by
    intro queued
    induction queued with
    | nil =>
      intro e hw _
      refine .inl ?_
      unfold startQueued
      rw [judgeResults_ended (.inl hw)]
      exact hw
    | cons request queued ih =>
      intro e hw hq
      unfold startQueued
      dsimp only
      rw [judgeResults_ended (.inl hw)]
      by_cases hs : e.single.isSome = true
      · rw [if_pos hs]
        exact .inl hw
      · rw [if_neg hs]
        have hq' : ({ e with results := [], queued }.startSingle request).queued = queued :=
          queued_startSingle ..
        have hg : Grows e ({ e with results := [], queued }.startSingle request) :=
          .turns (((Turns.refl e).turn .take).turn (.single (by simpa using hs) hq))
        rcases @startSingle { e with results := [], queued } hw request with hw' | ht
        · exact .of_grows hg (ih _ hw' hq')
        · have hrest := Turns.startQueued queued (Turns.refl _).judgeResults hq'
          exact .inr (ht.grows (.turns hrest))
  exact h e.queued e hw rfl

end Ended

/-- The poll in flight waits on, but it is not what it was. -/
structure Altered (e e' : Engine) : Prop where
  queue : e'.single.isSome = true ∨ e'.queued = []
  wait_ne : e'.wait ≠ 0
  differs : e'.wait = e.wait → e'.job ≠ { e.job with received := e'.job.received }

theorem Altered.of_frame (hq : e'.single.isSome = true ∨ e'.queued = []) (hw : e'.wait ≠ 0)
    (hm : e'.job.mlFrame = e.job.mlFrame + 1) : Altered e e' := by
  refine ⟨hq, hw, fun _ hj => ?_⟩
  have hsame : e'.job.mlFrame = e.job.mlFrame := by rw [hj]
  rw [hm] at hsame
  have h1 := congrArg UInt16.toNat hsame
  rw [UInt16.toNat_add] at h1
  have := e.job.mlFrame.toNat_lt
  have h2 : (1 : UInt16).toNat = 1 := rfl
  omega

theorem grows_goIdle (e : Engine) : Grows e e.goIdle := by
  unfold goIdle
  split <;> exact ⟨rfl, List.suffix_refl _⟩

theorem grows_afterData (e : Engine) (length : Nat) : Grows e (e.afterData length) := by
  unfold afterData
  split
  · exact grows_goIdle e
  · exact ⟨rfl, List.suffix_refl _⟩

theorem deliverData_alters (e : Engine) (opcode : UInt8) (segment payload : List UInt8) :
    Touched e (e.deliverData opcode segment payload) ∨
      (e.deliverData opcode segment payload).single.isSome = true ∧
        (e.deliverData opcode segment payload).wait ≠ 0 ∧
        (e.deliverData opcode segment payload).job.mlFrame = e.job.mlFrame + 1 := by
  obtain ⟨line, channel, results, new, heq, -⟩ := (Beside.refl e).acknowledge opcode
  have hg : Grows e (e.acknowledge opcode) := by
    rw [heq]
    exact ⟨rfl, List.suffix_append ..⟩
  have hjob : (e.acknowledge opcode).job = e.job := by rw [heq]
  unfold deliverData deliverSegment
  dsimp only
  generalize lessLength _ _ = remain
  generalize e.acknowledge opcode = e₁ at hg hjob ⊢
  have hd := deliverReply_delivered { e₁ with job := { e₁.job with received := e₁.channel.rxId, mlRemain := remain } }
    payload
  generalize Engine.deliverReply _ payload = e₂ at hd ⊢
  cases hd with
  | report =>
    refine .inl (.of_grows hg (.grows ⟨[_], rfl, _, List.mem_singleton.2 rfl, ?_⟩ (grows_afterData ..)))
    exact trivial
  | whole hs =>
    refine .inl (.of_grows hg (.grows ?_ (grows_afterData ..)))
    exact @Touched.finishSingle { e₁ with job := { e₁.job with received := _, mlRemain := remain } }
      (by rw [hs]; nofun) _
  | part _ hrem =>
    refine .inr ?_
    unfold afterData
    rw [if_neg hrem]
    exact ⟨rfl, by simp, by rw [← hjob]⟩

theorem touched_sendBlock {entry : PollEntry} (he : e.job.entry = some entry) : Touched e e.sendBlock := by
  obtain ⟨time, frame, accepted, new, hnew⟩ := exists_data_sendBlock he
  refine ⟨new ++ [⟨time, .wrote (.data e.out.frame) frame accepted⟩], ?_,
    ⟨time, .wrote (.data e.out.frame) frame accepted⟩, ?_, trivial⟩
  · rw [← hnew, List.append_assoc]
    rfl
  · exact List.mem_append_right _ (List.mem_singleton.2 rfl)

theorem wait_shutChannel (hs : e.channel.state ≠ .closed) : e.shutChannel.wait = 0 := by
  unfold shutChannel
  rw [if_neg hs]
  rfl

theorem isOnChannel_shutChannel (hj : e.job.isVwtp = false) : e.shutChannel.isOnChannel = false := by
  unfold shutChannel isOnChannel
  split <;> simp [loseChannel, hj]

theorem wait_peerClose (hj : e.job.isVwtp = false) : e.peerClose.wait = 0 := by
  have hjob : e.requestClose.job.isVwtp = false := by
    unfold requestClose
    rw [expectOnChannel_eq hj]
    split
    · exact hj
    · rw [transmit_eq]
      exact hj
  have hstate := state_requestClose e
  unfold peerClose
  dsimp only
  rw [isOnChannel_shutChannel hjob]
  exact wait_shutChannel (by rw [hstate]; decide)

theorem receiveData_spoils (hq : e.single.isSome = true ∨ e.queued = []) (hp : ¬ e.IsPending frame) :
    Touched e (e.receiveData (Frame.leadByte frame.data) frame.payload).2 ∨
      (e.receiveData (Frame.leadByte frame.data) frame.payload).2.wait = 0 ∨
      Altered e (e.receiveData (Frame.leadByte frame.data) frame.payload).2 := by
  have hab (e : Engine) : e.abortTransfer.wait = 0 := by
    unfold abortTransfer
    dsimp only
    rw [transmit_eq]
  unfold receiveData
  by_cases hseq : Frame.leadByte frame.data &&& 0x0f ≠ e.channel.rxSeq &&& 0x0f
  · rw [if_pos hseq]
    exact .inr (.inl (hab _))
  · rw [if_neg hseq]
    by_cases hml : e.job.mlFrame ≠ 0
    · rw [if_pos hml]
      rcases deliverData_alters e.countData (Frame.leadByte frame.data) (frame.payload.drop 1)
        (frame.payload.drop 1) with ht | ⟨hsome, hw, hframe⟩
      · exact .inl ht
      · exact .inr (.inr (.of_frame (.inl hsome) hw hframe))
    · rw [if_neg hml]
      unfold receiveFirstData
      dsimp only
      generalize Envelope.word _ _ = total
      have hjudge : Engine.judge { e.countData with job := { e.countData.job with mlRemain := total } }
          (frame.payload.drop 3) = e.judge (frame.payload.drop 3) := rfl
      rw [hjudge]
      rcases hv : e.judge (frame.payload.drop 3) with payload | code | _
      · rcases deliverData_alters { e.countData with job := { e.countData.job with mlRemain := total } }
          (Frame.leadByte frame.data) (frame.payload.drop 3) payload with ht | ⟨hsome, hw, hframe⟩
        · exact .inl ht
        · exact .inr (.inr (.of_frame (.inl hsome) hw hframe))
      · dsimp only
        obtain ⟨line, channel, results, new, heq, -⟩ :=
          (Beside.refl { e.countData with job := { e.countData.job with mlRemain := total } }).acknowledge
            (Frame.leadByte frame.data)
        rw [heq]
        by_cases hcode : code.isPending = true
        · rw [if_pos hcode]
          refine .inr (.inr ⟨hq, by simp, fun hw hjob => hp ?_⟩)
          exact ⟨Decidable.not_not.1 hseq, hjob, hw.symm, code, hcode, hv⟩
        · rw [if_neg hcode]
          refine .inl (.of_grows ?_ (.grows (.deliverFailure ..) (grows_goIdle _)))
          exact ⟨rfl, List.suffix_append ..⟩
      · exact .inr (.inl (hab _))

/-- A channel that the module closes is waited for no longer. -/
theorem wait_disconnect (hj : e.job.isVwtp = false)
    (hs : (e.channel.state = .closing ∨ e.channel.state = .transmit) ∧ frame.dlc = 1 ∨
      e.channel.state = .params ∧ frame.dlc ≠ 0 ∨ e.channel.state = .idle ∨ e.channel.state = .receive)
    (hd : Frame.leadByte frame.data = Opcode.disconnect) : (e.channelStep frame).2.wait = 0 := by
  unfold channelStep
  obtain ⟨hs | hs, hl⟩ | ⟨hs, hl⟩ | hs | hs := hs <;> rw [hs] <;> dsimp only
  · unfold receiveClosing
    rw [if_neg (not_or.2 ⟨by omega, not_not_intro hd⟩)]
    dsimp only
    rw [isOnChannel_shutChannel hj]
    exact wait_shutChannel (by rw [hs]; decide)
  · unfold receiveAck
    rw [if_pos (by omega : min frame.dlc 8 = 1), hd]
    exact wait_peerClose hj
  · unfold receiveParams
    rw [if_neg (by omega), hd]
    exact wait_peerClose hj
  · rw [hd]
    exact wait_peerClose hj
  · rw [hd]
    exact wait_peerClose hj

/-- The module accepts the channel, and the wait begins anew. -/
theorem receiveSetup_alters (hj : e.job.isVwtp = false) (hq : e.single.isSome = true ∨ e.queued = [])
    (hs : e.channel.state = .setup) (hl : frame.dlc = 7)
    (hd : frame.data.toList.getD 1 0 = Opcode.setupAccept) (hw : e.wait ≠ 2) :
    Altered e (e.receiveSetup (min frame.dlc 8) frame.data).2 := by
  unfold receiveSetup
  rw [getD_one] at hd
  change frame.data[1] = Opcode.setupAccept at hd
  rw [if_neg (by rw [hd]; simp only [not_or]; exact ⟨by omega, by decide, by decide⟩), if_neg (by simp [hd])]
  dsimp only
  unfold requestParams
  rw [if_neg (by rw [hs]; decide), expectOnChannel_eq (by exact hj), transmit_eq]
  exact ⟨hq, by simp, fun h => absurd h.symm hw⟩

/-- The module is ready for more: it gets the rest of the request, or the wait begins anew. -/
theorem receiveAck_spoils (hq : e.single.isSome = true ∨ e.queued = []) (hs : e.channel.state = .transmit)
    (he : e.job.entry.isSome = true) {opcode : UInt8} (hd : Opcode.high opcode = Opcode.ackReady)
    (hw : 0 < e.out.remaining ∨ e.wait ≠ 2) : Touched e (e.receiveAck opcode) ∨ Altered e (e.receiveAck opcode) := by
  unfold receiveAck
  rw [if_pos hd]
  by_cases ho : 0 < e.out.remaining
  · obtain ⟨entry, he⟩ := Option.isSome_iff_exists.1 he
    rw [if_pos ho]
    exact .inl (touched_sendBlock he)
  · rw [if_neg ho]
    unfold awaitResponse
    rw [if_neg (by rw [hs]; decide)]
    exact .inr ⟨hq, by simp, fun h => absurd h.symm (hw.resolve_left ho)⟩

/-- What the listed frames do. -/
theorem Disturbs.spoils (hj : e.job.isVwtp = false)
    (he : e.channel.state.isLive = true → e.job.entry.isSome = true)
    (hq : e.single.isSome = true ∨ e.queued = []) (hd : e.Disturbs frame) :
    Touched e (e.channelStep frame).2 ∨ (e.channelStep frame).2.wait = 0 ∨
      Altered e (e.channelStep frame).2 := by
  cases hd with
  | closes hs hd => exact .inr (.inl (wait_disconnect hj hs hd))
  | rejected hs hl hd hm =>
    unfold channelStep
    rw [hs]
    dsimp only
    unfold receiveSetup
    rw [getD_one] at hd hm
    change Opcode.setupAccept < frame.data[1] at hd
    rw [if_neg (by simp only [not_or, UInt8.not_lt]; exact ⟨by omega, UInt8.le_of_lt hd, hm⟩),
      if_pos (Ne.symm (UInt8.ne_of_lt hd))]
    have hg : Grows e e.loseChannel := ⟨rfl, List.suffix_refl _⟩
    exact .inl (.of_grows hg (.deliverFailure ..))
  | accepted hs hl hd hw =>
    unfold channelStep
    rw [hs]
    exact .inr (.inr (receiveSetup_alters hj hq hs hl hd hw))
  | agreed hs hl hd =>
    unfold channelStep
    rw [hs]
    dsimp only
    unfold receiveParams
    rw [if_neg (by omega), if_pos hd]
    obtain ⟨entry, he⟩ := Option.isSome_iff_exists.1 (he (by rw [hs]; rfl))
    simp only [sendRequest, he]
    refine .inl (.of_grows ?_ (touched_sendBlock he))
    exact ⟨rfl, List.suffix_refl _⟩
  | ready hs hl hd hw =>
    unfold channelStep
    rw [hs]
    dsimp only
    rw [if_pos (by omega : min frame.dlc 8 = 1)]
    exact (receiveAck_spoils hq hs (he (by rw [hs]; rfl)) hd hw).imp_right .inr
  | notReady hs hl hd =>
    unfold channelStep
    rw [hs]
    dsimp only
    unfold receiveAck
    rw [if_pos (by omega : min frame.dlc 8 = 1), if_neg (by rw [hd]; decide), if_pos hd]
    unfold goIdle
    rw [if_neg (by rw [hs]; decide)]
    exact .inr (.inl rfl)
  | data hs hd hp =>
    unfold channelStep
    rw [hs]
    dsimp only
    unfold receiveResponse
    have hping : Frame.leadByte frame.data ≠ Opcode.ping := fun h => by rw [h] at hd; exact absurd hd (by decide)
    have hdis : Frame.leadByte frame.data ≠ Opcode.disconnect := fun h => by
      rw [h] at hd; exact absurd hd (by decide)
    rw [if_neg hping, if_neg hdis, if_pos hd]
    exact receiveData_spoils hq hp

/-! ### Every run -/

/-- What follows the step of the channel. -/
def chained (e : Engine) : AfterFrame → Engine
  | .chain => if e.wait = 0 then e.pollNext else e
  | .stay => e

theorem chained_of_waits (hw : e.wait ≠ 0) (after : AfterFrame) : e.chained after = e := by
  cases after with
  | chain => exact if_neg hw
  | stay => rfl

theorem turns_chained (e : Engine) (after : AfterFrame) : Turns e (e.chained after) := by
  cases after with
  | chain =>
    by_cases hw : e.wait = 0
    · rw [show e.chained .chain = e.pollNext from if_pos hw]
      exact (Turns.refl e).pollNext hw
    · rw [chained_of_waits hw]
  | stay => exact .refl e

theorem Ended.chained (hw : e.wait = 0) (after : AfterFrame) : Ended e (e.chained after) := by
  cases after with
  | chain =>
    unfold Engine.chained
    rw [if_pos hw]
    exact .pollNext hw
  | stay => exact .inl hw

theorem step_frame_channel (hb : frame.bus = e.bus) (hc : e.isChannelFrame frame = true)
    (hbound : e.channel.bound = true) :
    e.step (.frame frame) = ((e.channelStep frame).2.chained (e.channelStep frame).1).settle := by
  have hreceive : e.receiveVwtp frame = (e.channelStep frame).2.chained (e.channelStep frame).1 := by
    unfold receiveVwtp
    rw [hbound]
    rcases e.channelStep frame with ⟨after, e₁⟩
    cases after <;> rfl
  show e.handleFrame frame = _
  unfold handleFrame
  rw [if_neg (not_not_intro hb), if_pos hc, hreceive]

theorem Disturbs.not_untouched (hb : frame.bus = e.bus) (hc : e.isChannelFrame frame = true)
    (hbound : e.channel.bound = true) (hj : e.job.isVwtp = false)
    (he : e.channel.state.isLive = true → e.job.entry.isSome = true) (hw : 0 < e.wait)
    (hq : e.single.isSome = true ∨ e.queued = []) (hd : e.Disturbs frame) :
    ¬ Untouched e (e.step (.frame frame)) := by
  have hgrows : Grows e (e.channelStep frame).2 := .moves (channelStep_moves e hb hc)
  have hspoils := hd.spoils hj he hq
  rw [step_frame_channel hb hc hbound]
  generalize (e.channelStep frame).1 = after
  generalize (e.channelStep frame).2 = e₁ at hgrows hspoils ⊢
  have hrest : Grows (e₁.chained after) (e₁.chained after).settle := .turns (Turns.refl _).settle
  rcases hspoils with ht | hend | halt
  · exact ((ht.grows (.turns (turns_chained e₁ after))).grows hrest).not_untouched
  · rcases Ended.chained hend after with hend | ht
    · have hg := hgrows.trans (.turns (turns_chained e₁ after))
      rcases Ended.of_grows hg (.settle hend) with hend | ht
      · intro hu
        have := hu.wait
        omega
      · exact ht.not_untouched
    · exact ((Touched.of_grows hgrows ht).grows hrest).not_untouched
  · rw [chained_of_waits halt.wait_ne]
    rcases settle_cases halt.queue with ht | ⟨received, new, heq⟩
    · exact (Touched.of_grows hgrows ht).not_untouched
    · intro hu
      rw [heq] at hu
      exact halt.differs hu.wait
        (congrArg (fun job : PollJob => { job with received := e₁.job.received }) hu.job)

/-- A run leads to this state. -/
def Reached (e : Engine) : Prop :=
  ∃ bus name reports settings ops, e = (Engine.new bus name reports settings).run ops

namespace Reached

theorem step (hr : e.Reached) (op : Operation) : (e.step op).Reached := by
  obtain ⟨bus, name, reports, settings, ops, rfl⟩ := hr
  exact ⟨bus, name, reports, settings, ops ++ [op], (run_append _ ops [op]).symm⟩

theorem atRest (hr : e.Reached) : e.AtRest := by
  obtain ⟨bus, name, reports, settings, ops, rfl⟩ := hr
  exact AtRest.run ⟨rfl, .inr rfl⟩ ops

theorem owned (hr : e.Reached) : e.channel.Owned := by
  obtain ⟨bus, name, reports, settings, ops, rfl⟩ := hr
  exact owned_run Channel.owned_shut ops

theorem entry_isSome (hr : e.Reached) (hl : e.channel.state.isLive = true) : e.job.entry.isSome = true := by
  obtain ⟨bus, name, reports, settings, ops, rfl⟩ := hr
  exact (((routes_new bus name reports settings).run ops).ids hl).2.1

theorem asks (hr : e.Reached) {entry : PollEntry} (he : e.job.entry = some entry) : e.job.Asks entry := by
  obtain ⟨bus, name, reports, settings, ops, rfl⟩ := hr
  exact ((routes_new bus name reports settings).run ops).asks entry he

end Reached

/-- While an ISO-TP poll is in flight, a frame on the channel leaves it alone unless it is one of those
that get in the way or its answer fails the poll; such frames never leave it alone. -/
theorem untouched_iff (hr : e.Reached) (ha : e.active = true) (hw : 0 < e.wait) (hj : e.job.isVwtp = false)
    (hb : frame.bus = e.bus) (hc : e.isChannelFrame frame = true) :
    Untouched e (e.step (.frame frame)) ↔ ¬ e.Disturbs frame ∧ ¬ e.AnswerFails frame := by
  obtain ⟨bus, name, reports, settings, ops, hrun⟩ := hr
  have hrest : e.AtRest := hrun ▸ AtRest.run ⟨rfl, .inr rfl⟩ ops
  have hopen : e.channel.state ≠ .closed := by
    simp only [isChannelFrame, Channel.isOpen, Bool.and_eq_true] at hc
    simpa using hc.1.1
  have howned : e.channel.Owned := hrun ▸ owned_run Channel.owned_shut ops
  have hbound := howned.bound hopen
  have he : e.channel.state.isLive = true → e.job.entry.isSome = true := fun hl => by
    have hroutes := (routes_new bus name reports settings).run ops
    rw [← hrun] at hroutes
    exact (hroutes.ids hl).2.1
  have hgrows : Grows e (e.channelStep frame).2 := .moves (channelStep_moves e hb hc)
  constructor
  · intro hu
    have hno : ¬ e.Disturbs frame := fun hd => hd.not_untouched hb hc hbound hj he hw hrest.queue hu
    have hbeside := channelStep_beside hj hno
    have hwait : (e.channelStep frame).2.wait ≠ 0 := by
      rw [hbeside.wait]
      exact Nat.ne_of_gt hw
    refine ⟨hno, fun hf => ?_⟩
    have ht := Touched.of_grows hgrows (judgeResults_failed hwait (hbeside.active.trans ha) hf)
    rw [step_frame_channel hb hc hbound, chained_of_waits hwait] at hu
    exact (ht.grows (.turns (Turns.judged_settle _))).not_untouched hu
  · rintro ⟨hno, hf⟩
    have hbeside := channelStep_beside hj hno
    have hwait : (e.channelStep frame).2.wait ≠ 0 := by
      rw [hbeside.wait]
      exact Nat.ne_of_gt hw
    have hgood : (e.channelStep frame).2.NoneFailed := Classical.not_not.1 hf
    rw [step_frame_channel hb hc hbound, chained_of_waits hwait]
    obtain ⟨line, channel, results, new, heq, hnew⟩ := hbeside
    rw [heq] at hgood ⊢
    obtain ⟨received, new', heq', hsent⟩ := settle_noneFailed hgood hrest.queue
    rw [heq']
    refine ⟨rfl, rfl, rfl, rfl, new' ++ new, (List.append_assoc ..).symm, fun s hs => ?_⟩
    rcases List.mem_append.1 hs with hs | hs
    · have hev := hsent s hs
      cases hevent : s.event <;> rw [hevent] at hev <;> first | exact hev.elim | exact id
    · exact hnew s hs

/-- A channel that opens while the wait is fresh does no harm. -/
theorem not_disturbs_accept (hs : e.channel.state = .setup) (hw : e.wait = 2)
    (hd : frame.data.toList.getD 1 0 = Opcode.setupAccept) : ¬ e.Disturbs frame := by
  intro h
  cases h with
  | rejected _ _ hd' _ =>
    rw [hd] at hd'
    exact absurd hd' (by decide)
  | accepted _ _ _ hw' => exact hw' hw
  | agreed hs' | ready hs' | notReady hs' | data hs' =>
    rw [hs] at hs'
    cases hs'
  | closes hs' => simp [hs] at hs'

/-- A channel is being opened when the list is replaced and an ISO-TP request is dispatched; then the module
accepts the channel. -/
theorem untouched_example :
    let bus : BusId := ⟨1, by decide⟩
    let read : PollEntry := ⟨0x200, 1, 0x22, 0xf190, [], #v[1, 1, 1, 1], 1, .vwtp20⟩
    let ident : PollEntry := ⟨0x7e0, 0x7e8, 0x22, 0xf187, [], #v[1, 1, 1, 1], 1, .isoTp⟩
    let accept := EcuFrame.channel bus 0x201 [0x00, 0xd0, 0x00, 0x03, 0x40, 0x07, 0x01]
    let e := (Engine.new bus "ecu" false ⟨0, 25, .strict, 0, 0⟩).run
      [.setList (some [read]) none, .tick true, .setList (some [ident]) none, .tick false]
    (e.active = true ∧ 0 < e.wait ∧ e.job.isVwtp = false ∧ accept.bus = e.bus ∧
      e.isChannelFrame accept = true) ∧ Untouched e (e.step (.frame accept)) := by
  intro bus read ident accept e
  have hat : e.active = true ∧ 0 < e.wait ∧ e.job.isVwtp = false ∧ accept.bus = e.bus ∧
      e.isChannelFrame accept = true := by decide
  obtain ⟨ha, hw, hj, hb, hc⟩ := hat
  have hs : e.channel.state = .setup := by decide
  have hfresh : e.wait = 2 := by decide
  have hgood : (e.channelStep accept).2.NoneFailed := by
    unfold NoneFailed
    decide
  have hr : e.Reached := ⟨bus, "ecu", false, ⟨0, 25, .strict, 0, 0⟩, _, rfl⟩
  clear_value e
  exact ⟨⟨ha, hw, hj, hb, hc⟩, (untouched_iff hr ha hw hj hb hc).2
    ⟨not_disturbs_accept hs hfresh (by decide), not_not_intro hgood⟩⟩

/-- The module turns the channel down instead: this ends the wait of the ISO-TP poll. -/
theorem not_untouched_example :
    let bus : BusId := ⟨1, by decide⟩
    let read : PollEntry := ⟨0x200, 1, 0x22, 0xf190, [], #v[1, 1, 1, 1], 1, .vwtp20⟩
    let ident : PollEntry := ⟨0x7e0, 0x7e8, 0x22, 0xf187, [], #v[1, 1, 1, 1], 1, .isoTp⟩
    let reject := EcuFrame.channel bus 0x201 [0x00, 0xd5, 0x00, 0x03, 0x40, 0x07, 0x01]
    let e := (Engine.new bus "ecu" false ⟨0, 25, .strict, 0, 0⟩).run
      [.setList (some [read]) none, .tick true, .setList (some [ident]) none, .tick false]
    e.active = true ∧ 0 < e.wait ∧ e.job.isVwtp = false ∧ e.channel.state ≠ .closed ∧
      reject.bus = e.bus ∧ e.isChannelFrame reject = true ∧ e.job.accepts reject.id = false ∧
      ¬ Untouched e (e.step (.frame reject)) := by
  intro bus read ident reject e
  refine ⟨by decide, by decide, by decide, by decide, by decide, by decide, by decide, fun hu => ?_⟩
  exact absurd hu.wait (by decide)

end Engine

end EcuPoll
