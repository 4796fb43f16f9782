import EcuPoll.Proofs.Engine.Refusals

/-!
# What arms the wait

A frame that moves a request on has the engine wait for an answer, for two ticks at least, unless the poll ends in the
same operation. `Unsent` is work that moves no request on; `Arms` is work after which no such frame is left unattended:
the wait is armed, or nothing was sent since the poll before ended. Every operation is the one and then the other. Only
leave to go on with an ISO-TP request does not arm the wait when the request is completed by it (`Lapses`).
-/

namespace EcuPoll

/-- A frame of this kind moves a request on: it carries a part of it, or opens the channel for it. -/
def FrameKind.movesOn : FrameKind → Bool
  | .opening | .consecutive | .setup _ _ | .params | .data _ => true
  | _ => false

namespace Event

/-- A frame is written that moves a request on. -/
def movesOn : Event → Bool
  | .wrote kind _ _ => kind.movesOn
  | _ => false

/-- The poll in flight ends here, or has ended when another begins. -/
def endsPoll : Event → Bool
  | .reply _ _ remain => remain == 0
  | .failed _ _ | .dispatched _ _ _ | .singleStarted _ | .singleResolved _ _ => true
  | _ => false

theorem IsReport.movesOn {event : Event} (h : event.IsReport) : event.movesOn = false := by
  cases event <;> first | rfl | exact h.elim

end Event

namespace Engine
variable {e e' e'' : Engine}

/-! ### Work that moves no request on -/

/-- No request is moved on. -/
abbrev Unsent : Engine → Engine → Prop := Adds (·.movesOn = false)

namespace Unsent

/-- The poll in flight, its request, the channel and the single request move on. -/
theorem update (h : Unsent e e') (job : PollJob) (active : Bool) (wait : Nat) (out : Outbound) (channel : Channel) :
    Unsent e { e' with job, active, wait, out, channel } := h.trans (.of_log rfl)

theorem transmit (h : Unsent e e') {kind : FrameKind} (hk : kind.movesOn = false) (frame : Frame) :
    Unsent e (e'.transmit kind frame) := by
  refine h.trans ?_
  rw [transmit_eq]
  exact ⟨[_], rfl, List.forall_mem_singleton.2 hk⟩

theorem delivers (h : Unsent e e') (hd : Delivers e' e'') : Unsent e e'' :=
  h.trans (hd.log.mono fun _ => Event.IsReport.movesOn)

theorem expectOnChannel (h : Unsent e e') : Unsent e e'.expectOnChannel :=
  h.trans (.of_log (log_expectOnChannel e'))

theorem shutChannel (h : Unsent e e') : Unsent e e'.shutChannel := by
  unfold Engine.shutChannel
  split
  · exact h
  · exact h.update ..

theorem requestClose (h : Unsent e e') : Unsent e e'.requestClose := by
  unfold Engine.requestClose
  split
  · exact h
  · exact (h.expectOnChannel.update ..).transmit rfl _

theorem peerClose (h : Unsent e e') : Unsent e e'.peerClose := by
  unfold Engine.peerClose
  dsimp only
  split
  · exact h.requestClose.shutChannel.delivers (.deliverFailure ..)
  · exact h.requestClose.shutChannel

theorem goIdle (h : Unsent e e') : Unsent e e'.goIdle := by
  unfold Engine.goIdle
  split
  · exact h
  · exact h.update ..

theorem awaitResponse (h : Unsent e e') : Unsent e e'.awaitResponse := by
  unfold Engine.awaitResponse
  split
  · exact h
  · exact h.update ..

theorem abortTransfer (h : Unsent e e') : Unsent e e'.abortTransfer := by
  unfold Engine.abortTransfer
  dsimp only
  refine ((Unsent.expectOnChannel ?_).update ..).transmit rfl _
  exact h.update ..

theorem acknowledge (h : Unsent e e') (opcode : UInt8) : Unsent e (e'.acknowledge opcode) := by
  unfold Engine.acknowledge
  split
  · exact h.transmit rfl _
  · exact h

theorem deliverSegment (h : Unsent e e') (id : UInt32) (payload : List UInt8) (remain : UInt16) :
    Unsent e (e'.deliverSegment id payload remain) := by
  unfold Engine.deliverSegment
  exact (h.update ..).delivers (.deliverReply ..)

theorem deliverData (h : Unsent e e') (opcode : UInt8) (segment payload : List UInt8) :
    Unsent e (e'.deliverData opcode segment payload) := by
  have hd := (h.acknowledge opcode).deliverSegment (e'.acknowledge opcode).channel.rxId payload
    (lessLength (e'.acknowledge opcode).job.mlRemain segment)
  unfold Engine.deliverData afterData
  dsimp only
  split
  · exact hd.goIdle
  · exact hd.update ..

theorem receiveFirstData (h : Unsent e e') (opcode : UInt8) (total : UInt16) (segment : List UInt8) :
    Unsent e (e'.receiveFirstData opcode total segment).2 := by
  have ht : Unsent e { e' with job := { e'.job with mlRemain := total } } := h.update ..
  unfold Engine.receiveFirstData
  dsimp only
  split
  · exact ht.abortTransfer
  · exact ht.deliverData ..
  · split
    · exact (ht.acknowledge opcode).update ..
    · exact (((ht.acknowledge opcode).update ..).delivers (.deliverFailure ..)).goIdle

theorem receiveResponse (h : Unsent e e') (opcode : UInt8) (data : List UInt8) :
    Unsent e (e'.receiveResponse opcode data).2 := by
  have hc : Unsent e e'.countData := h.update ..
  unfold Engine.receiveResponse receiveData
  split
  · exact h.transmit rfl _
  · split
    · exact h.peerClose
    · split
      · split
        · exact hc.abortTransfer
        · split
          · exact hc.deliverData ..
          · exact hc.receiveFirstData ..
      · exact h

theorem receiveIdle (h : Unsent e e') (opcode : UInt8) : Unsent e (e'.receiveIdle opcode) := by
  unfold Engine.receiveIdle
  split
  · exact h.transmit rfl _
  · split
    · exact h.peerClose
    · split
      · unfold refuseData
        exact (h.update ..).transmit rfl _
      · exact h

theorem shutdown (h : Unsent e e') : Unsent e e'.shutdown := by
  have hq : Unsent e (e'.finishSingle (.error .unavailable)).refuseQueued :=
    refuseQueued_keeps (P := Unsent e) ((h.delivers (.finishSingle ..)).trans (.of_log rfl)) fun _ _ h' => h'.emit rfl
  unfold Engine.shutdown
  dsimp only
  split
  · exact hq.requestClose.shutChannel.trans (.of_log rfl)
  · exact hq.trans (.of_log rfl)

end Unsent

/-! ### Work that arms the wait -/

/-- No frame that moves a request on is left without a wait: see the head of this module. -/
inductive Arms (e e' : Engine) : Prop
  | armed (hw : 2 ≤ e'.wait) (hg : e.log <:+ e'.log)
  | idle (hw : e.wait ≤ e'.wait) (hl : Unsent e e')
  | ended {new old : List Stamped} {s : Stamped} (hlog : e'.log = new ++ s :: old) (hg : e.log <:+ old)
    (hs : s.event.endsPoll = true) (hl : ∀ r ∈ new, r.event.movesOn = false)

theorem not_endsPoll_of_movesOn {event : Event} (h : event.movesOn = true) : event.endsPoll = false := by
  cases event <;> first | rfl | cases h

/-- A request is moved on, and its poll does not end: then the wait is armed. -/
theorem Arms.two_le_wait {before after : List Stamped} {s : Stamped} (hu : Unsent e e') (h : Arms e' e'')
    (hlog : e''.log = after ++ s :: before) (hbefore : e.log <:+ before) (hs : s.event.movesOn = true)
    (hafter : ∀ c ∈ after, c.event.endsPoll = false) : 2 ≤ e''.wait := by
  cases h with
  | armed hw => exact hw
  | idle _ hl =>
    obtain ⟨new, hnew, hnone⟩ := hu.trans hl
    obtain ⟨between, rfl⟩ := hbefore
    have heq : new = after ++ s :: between := by
      refine List.append_cancel_right (hnew.symm.trans (hlog.trans ?_))
      rw [List.append_assoc]
      rfl
    rw [hnone s (heq ▸ List.mem_append_right _ (List.mem_cons_self ..))] at hs
    cases hs
  | @ended new old c hlog' _ hc hl =>
    rw [hlog] at hlog'
    exfalso
    rcases List.append_eq_append_iff.1 hlog' with ⟨mid, hmid, hrest⟩ | ⟨mid, hmid, hrest⟩
    · cases mid with
      | nil =>
        obtain ⟨rfl, -⟩ := List.cons.inj hrest
        rw [not_endsPoll_of_movesOn hs] at hc
        cases hc
      | cons r mid =>
        -- the frame was written after the poll had ended
        obtain ⟨rfl, -⟩ := List.cons.inj hrest
        rw [hl s (hmid ▸ List.mem_append_right _ (List.mem_cons_self ..))] at hs
        cases hs
    · cases mid with
      | nil =>
        obtain ⟨rfl, -⟩ := List.cons.inj hrest
        rw [not_endsPoll_of_movesOn hs] at hc
        cases hc
      | cons r mid =>
        obtain ⟨rfl, -⟩ := List.cons.inj hrest
        rw [hafter c (hmid ▸ List.mem_append_right _ (List.mem_cons_self ..))] at hc
        cases hc

/-- The poll that has failed is over, or the single request is. -/
theorem exists_endsPoll_deliverFailure (e : Engine) (failure : PollFailure) :
    ∃ s, s.event.endsPoll = true ∧ (e.deliverFailure failure).log = s :: e.log := by
  unfold deliverFailure
  cases hs : e.single with
  | none => exact ⟨_, rfl, rfl⟩
  | some capture =>
    unfold finishSingle
    rw [hs]
    exact ⟨⟨e.now, .singleResolved capture.request.ticket _⟩, rfl, rfl⟩

namespace Arms

theorem refl (e : Engine) : Arms e e := .idle (Nat.le_refl _) (.refl e)

theorem suffix (h : Arms e e') : e.log <:+ e'.log := by
  cases h with
  | armed _ hg => exact hg
  | idle _ hl => exact hl.suffix
  | ended hlog hg => exact hlog ▸ hg.trans ((List.suffix_cons ..).trans (List.suffix_append ..))

theorem trans (h : Arms e e') (h' : Arms e' e'') : Arms e e'' := by
  have hg := h.suffix
  cases h' with
  | armed hw' hg' => exact .armed hw' (hg.trans hg')
  | ended hlog hg' hs hl => exact .ended hlog (hg.trans hg') hs hl
  | idle hw' hl' =>
    obtain ⟨new', hnew', hnone'⟩ := hl'
    cases h with
    | armed hw => exact .armed (hw.trans hw') (hg.trans ⟨new', hnew'.symm⟩)
    | idle hw hl => exact .idle (hw.trans hw') (hl.trans ⟨new', hnew', hnone'⟩)
    | @ended new old s hlog hg hs hl =>
      have hadded : e''.log = (new' ++ new) ++ s :: old := by rw [hnew', hlog, List.append_assoc]
      exact .ended hadded hg hs (List.forall_mem_append.2 ⟨hnone', hl⟩)

/-- Work on the line that leaves the wait armed. -/
theorem works (h : Arms e e') (hw : Works e' e'') (hwait : 2 ≤ e''.wait) : Arms e e'' :=
  h.trans (.armed hwait hw.log.suffix)

/-- Nothing is reported, and the wait does not run down. -/
theorem of_log (h : Arms e e') (hl : e''.log = e'.log) (hw : e'.wait ≤ e''.wait) : Arms e e'' :=
  h.trans (.idle hw (.of_log hl))

theorem emit (h : Arms e e') {event : Event} (hev : event.movesOn = false) : Arms e (e'.emit event) :=
  h.trans (.idle (Nat.le_refl _) ((Adds.refl e').emit hev))

/-- The poll in flight ends. -/
theorem ends (h : Arms e e') {s : Stamped} (hs : s.event.endsPoll = true) (hl : e''.log = s :: e'.log) : Arms e e'' :=
  have hlast : e''.log = [] ++ s :: e'.log := hl
  h.trans (.ended hlast (List.suffix_refl _) hs (List.forall_mem_nil _))

theorem finishSingle (h : Arms e e') (result : SingleResult) : Arms e (e'.finishSingle result) := by
  unfold Engine.finishSingle
  cases e'.single with
  | none => exact h
  | some capture =>
    exact h.ends (s := ⟨e'.now, .singleResolved capture.request.ticket result⟩) rfl rfl

theorem deliverFailure (h : Arms e e') (failure : PollFailure) : Arms e (e'.deliverFailure failure) := by
  obtain ⟨s, hs, hl⟩ := exists_endsPoll_deliverFailure e' failure
  exact h.ends hs hl

theorem expireSingle (h : Arms e e') : Arms e e'.expireSingle := by
  unfold Engine.expireSingle
  split
  · exact h
  · split
    · exact h.finishSingle _
    · exact h

/-! ### Requests -/

theorem requestSetup (h : Arms e e') : Arms e e'.requestSetup := by
  have hw := (Works.refl e').requestSetup
  rcases hj : e'.job.entry with _ | entry
  · simp only [Engine.requestSetup, hj]
    exact h
  · by_cases hc : (e'.channel.state = .setup || !e'.job.isVwtp) = true
    · simp only [Engine.requestSetup, hj, if_pos hc]
      exact h
    · refine h.works hw ?_
      simp only [Engine.requestSetup, hj, if_neg hc, transmit_eq]
      exact Nat.le_refl 2

theorem requestClose (h : Arms e e') : Arms e e'.requestClose := by
  have hw := (Works.refl e').requestClose
  by_cases hc : e'.channel.state = .closing
  · simp only [Engine.requestClose, if_pos hc]
    exact h
  · refine h.works hw ?_
    simp only [Engine.requestClose, if_neg hc, transmit_eq]
    exact Nat.le_refl 2

theorem sendBlock (h : Arms e e') : Arms e e'.sendBlock := by
  rcases hj : e'.job.entry with _ | entry
  · simp only [Engine.sendBlock, hj]
    exact h
  · exact h.works (Works.refl e').sendBlock (wait_sendBlock hj).ge

theorem sendRequest (h : Arms e e') : Arms e e'.sendRequest := by
  unfold Engine.sendRequest
  cases e'.job.entry with
  | none => exact h
  | some entry =>
    have hready : Arms e { e' with
        out := .load entry.payload 0 (payloadLimit entry.header)
        job := e'.job.resetMultiframe } := h.of_log rfl (Nat.le_refl _)
    exact hready.sendBlock

theorem startIsoTp (h : Arms e e') : Arms e e'.startIsoTp := by
  have hw := (Works.refl e').startIsoTp
  rcases hj : e'.job.entry with _ | entry
  · simp only [Engine.startIsoTp, hj]
    exact h
  · refine h.works hw ?_
    simp only [Engine.startIsoTp, hj, transmit_eq]
    exact Nat.le_refl 2

theorem startVwtp (h : Arms e e') : Arms e e'.startVwtp := by
  have ht : Arms e e'.touchChannel := h.of_log rfl (Nat.le_refl _)
  rcases hj : e'.job.entry with _ | entry
  · simp only [Engine.startVwtp, hj]
    exact h
  · have hst := startVwtp_start e' hj
    generalize e'.startVwtp = e'' at hst ⊢
    cases hst with
    | again => exact ht.requestSetup
    | request =>
      -- What is interrupted ends the wait, but the new request arms it again.
      have hentry : e'.touchChannel.interrupt.job.entry = some entry :=
        (Keeps.refl e'.touchChannel).interrupt.entry.trans hj
      refine ht.works (Works.refl _).interrupt.sendRequest ?_
      simp only [Engine.sendRequest, hentry]
      exact (wait_sendBlock (by exact hentry)).ge
    | close => exact ht.requestClose
    | setup => exact ht.requestSetup
    | nothing => exact ht.deliverFailure _

theorem dispatch (h : Arms e e') (entry : PollEntry) : Arms e (e'.dispatch entry) := by
  have ha : Arms e (e'.assign entry) :=
    h.ends (s := ⟨e'.now, .dispatched entry e'.schedule.ticker e'.singleTicket⟩) rfl rfl
  unfold Engine.dispatch
  split
  · exact ha.startVwtp
  · exact ha.startIsoTp

theorem startSingle (h : Arms e e') (request : SingleRequest) : Arms e (e'.startSingle request) := by
  have hc : Arms e (e'.capture request).advance :=
    h.ends (s := ⟨e'.now, .singleStarted request.ticket⟩) rfl rfl
  unfold Engine.startSingle
  split
  · exact h.emit rfl
  · dsimp only
    split
    · exact hc.dispatch _
    · exact hc.finishSingle _

/-! ### Choosing the next poll -/

theorem startPass (h : Arms e e') : Arms e e'.startPass := by
  have hs : Arms e { e' with schedule := e'.schedule.startNextPass } := h.of_log rfl (Nat.le_refl _)
  unfold Engine.startPass
  dsimp only
  split
  · exact hs.emit rfl
  · exact hs

theorem pollList (h : Arms e e') : Arms e e'.pollList := by
  have ha : Arms e e'.advance := h.of_log rfl (Nat.le_refl _)
  unfold Engine.pollList
  split
  · exact ha.dispatch _
  · split
    · exact ha
    · exact ha.emit rfl
  · exact ha

theorem sendNext (h : Arms e e') (primary : Bool) : Arms e (e'.sendNext primary) := by
  have hr : Arms e { e' with active := false } := h.of_log rfl (Nat.le_refl _)
  have hlist {passed : Engine} (h : Arms e passed) :
      Arms e (if passed.paused || !passed.schedule.canPoll then passed else passed.pollList) := by
    split
    · exact h
    · exact h.pollList
  have hsent := sendNext_sent e' primary
  generalize e'.sendNext primary = e'' at hsent ⊢
  cases hsent with
  | waits => exact h
  | held => exact hr
  | @single request queued =>
    have hq : Arms e { e' with active := false, queued } := hr.of_log rfl (Nat.le_refl _)
    exact hq.startSingle request
  | list _ _ _ hp =>
    rcases hp with rfl | ⟨-, rfl⟩
    · exact hlist hr
    · exact hlist hr.startPass

theorem pollNext (h : Arms e e') : Arms e e'.pollNext := by
  have hr : Arms e { e' with active := false } := h.of_log rfl (Nat.le_refl _)
  unfold Engine.pollNext
  dsimp only
  split
  · exact hr
  · split
    · exact hr.sendNext false
    · exact hr.of_log rfl (Nat.le_refl _)

theorem chained (h : Arms e e') (after : AfterFrame) : Arms e (e'.chained after) := by
  unfold Engine.chained
  split
  · split
    · exact h.pollNext
    · exact h
  · exact h

/-! ### Results of writes -/

theorem failTransmission (h : Arms e e') : Arms e e'.failTransmission := by
  have hfail (e'' : Engine) (hl : e''.log = e'.log) : Arms e (e''.deliverFailure .transmitFailed) := by
    obtain ⟨s, hs, hlog⟩ := exists_endsPoll_deliverFailure e'' .transmitFailed
    exact h.ends hs (hlog.trans (by rw [hl]))
  unfold Engine.failTransmission
  split <;> exact hfail _ rfl

theorem reportSent (h : Arms e e') (success : Bool) : Arms e (e'.reportSent success) := by
  have hjob : Arms e { e' with job := { e'.job with received := 0 } } := h.of_log rfl (Nat.le_refl _)
  exact hjob.emit rfl

theorem judgeResult (h : Arms e e') (frame : Frame) (success : Bool) : Arms e (e'.judgeResult frame success) := by
  have hjudged : Arms e (if success then e' else e'.failTransmission) := by
    split
    · exact h
    · exact h.failTransmission
  unfold Engine.judgeResult
  split
  · exact h
  · dsimp only
    split
    · exact hjudged.reportSent success
    · exact hjudged

theorem judgeResults (h : Arms e e') : Arms e e'.judgeResults := by
  have heach : ∀ (results : List (Frame × Bool)) (e'' : Engine), Arms e e'' →
      Arms e (results.foldl (fun e r => e.judgeResult r.1 r.2) e'') := by
    intro results
    induction results with
    | nil => exact fun _ h'' => h''
    | cons r results ih => exact fun _ h'' => ih _ (h''.judgeResult ..)
  exact heach _ _ (h.of_log rfl (Nat.le_refl _))

theorem settle (h : Arms e e') : Arms e e'.settle := by
  have hqueue : ∀ (queued : List SingleRequest) (e'' : Engine), Arms e e'' → Arms e (startQueued queued e'') := by
    intro queued
    induction queued with
    | nil => exact fun _ h'' => h''.judgeResults
    | cons request queued ih =>
      intro e'' h''
      unfold startQueued
      dsimp only
      split
      · exact h''.judgeResults
      · have hq : Arms e { e''.judgeResults with queued } := h''.judgeResults.of_log rfl (Nat.le_refl _)
        exact ih _ (hq.startSingle request)
  exact hqueue _ _ h

end Arms

/-! ### Operations -/

/-- The next request, or the rest of one, after work that moves no request on. -/
def Sends (e e' : Engine) : Prop :=
  ∃ e₁, Unsent e e₁ ∧ Arms e₁ e'

namespace Sends

theorem of_unsent (h : Unsent e e') : Sends e e' := ⟨e', h, .refl e'⟩

theorem of_arms (h : Arms e e') : Sends e e' := ⟨e, .refl e, h⟩

theorem arms (h : Sends e e') (h' : Arms e' e'') : Sends e e'' :=
  let ⟨e₁, hu, ha⟩ := h
  ⟨e₁, hu, ha.trans h'⟩

theorem settle (h : Sends e e') : Sends e e'.settle := h.arms (Arms.refl e').settle

/-! ### Frames on the channel -/

theorem receiveSetup (hs : e.channel.state = .setup) (length : Nat) (d : Vector UInt8 8) :
    Sends e (e.receiveSetup length d).2 := by
  have hr : Unsent e e := .refl e
  unfold Engine.receiveSetup
  split
  · exact of_unsent hr
  · split
    · exact of_unsent ((hr.update ..).delivers (.deliverFailure ..))
    · dsimp only
      refine ⟨_, hr.update .., (Arms.refl _).works (Works.refl _).requestParams ?_⟩
      unfold requestParams
      rw [if_neg (by rw [hs]; nofun), transmit_eq]

theorem receiveParams (length : Nat) (d : Vector UInt8 8) : Sends e (e.receiveParams length d).2 := by
  have hr : Unsent e e := .refl e
  unfold Engine.receiveParams
  split
  · exact of_unsent hr
  · split
    · exact ⟨_, hr.update .., (Arms.refl _).sendRequest⟩
    · split
      · exact of_unsent hr.peerClose
      · exact of_unsent hr

theorem receiveClosing (length : Nat) (d : Vector UInt8 8) : Sends e (e.receiveClosing length d).2 := by
  have hc : Unsent e e.shutChannel := Unsent.shutChannel (.refl e)
  unfold Engine.receiveClosing
  split
  · exact of_unsent (.refl e)
  · dsimp only
    split
    · exact of_unsent hc
    · split
      · exact ⟨_, hc, (Arms.refl _).requestSetup⟩
      · exact of_unsent (hc.delivers (.deliverFailure ..))

theorem receiveAck (opcode : UInt8) : Sends e (e.receiveAck opcode) := by
  have hr : Unsent e e := .refl e
  unfold Engine.receiveAck
  split
  · split
    · exact of_arms (Arms.refl e).sendBlock
    · exact of_unsent hr.awaitResponse
  · split
    · exact of_unsent (hr.update ..).goIdle
    · split
      · exact of_unsent (hr.transmit rfl _)
      · split
        · exact of_unsent hr.peerClose
        · exact of_unsent hr

theorem channelStep (e : Engine) (frame : Frame) : Sends e (e.channelStep frame).2 := by
  have hr : Unsent e e := .refl e
  unfold Engine.channelStep
  dsimp only
  cases hs : e.channel.state with
  | setup => exact receiveSetup hs ..
  | params => exact receiveParams ..
  | closing => exact receiveClosing ..
  | idle => exact of_unsent (hr.receiveIdle _)
  | transmit => exact receiveAck _
  | receive => exact of_unsent (hr.receiveResponse ..)
  | closed | startPoll | abort => exact of_unsent hr

theorem receiveVwtp (e : Engine) (frame : Frame) : Sends e (e.receiveVwtp frame) := by
  have hs := channelStep e frame
  unfold Engine.receiveVwtp
  split
  · exact of_unsent (.refl e)
  · generalize e.channelStep frame = next at hs
    obtain ⟨after, e₁⟩ := next
    cases after with
    | chain => exact hs.arms ((Arms.refl e₁).chained .chain)
    | stay => exact hs

/-! ### Frames beside the channel -/

theorem afterSegment (h : Unsent e e') (id : UInt32) (first : Bool) (length : Nat) :
    Sends e (e'.afterSegment id first length) := by
  have hw : Unsent e { e' with wait := 0 } := h.update ..
  have hf : Unsent e (if first then e'.sendFlowControl id else e') := by
    split
    · exact h.transmit rfl _
    · exact h
  unfold Engine.afterSegment
  dsimp only
  split
  · split
    · exact of_unsent hw
    · exact ⟨_, hw, (Arms.refl _).pollNext⟩
  · exact of_unsent (hf.update ..)

theorem receiveOpening (id : UInt32) (total : UInt16) (segment : List UInt8) (first : Bool) :
    Sends e (e.receiveOpening id total segment first) := by
  have hr : Unsent e e := .refl e
  unfold Engine.receiveOpening
  split
  · exact of_unsent hr
  · split
    · exact of_unsent (hr.update ..)
    · exact afterSegment ((hr.update ..).delivers (.deliverFailure ..)) ..
  · exact afterSegment (hr.deliverSegment ..) ..

theorem receiveConsecutive (id : UInt32) (index : UInt8) (data : List UInt8) :
    Sends e (e.receiveConsecutive id index data) := by
  have hr : Unsent e e := .refl e
  unfold Engine.receiveConsecutive
  split
  · unfold rejectResponse
    exact of_unsent (hr.update ..)
  · exact afterSegment (hr.deliverSegment ..) ..

end Sends

/-! ### Leave to go on -/

theorem wait_burst (target : UInt32) (delay count : Nat) (e : Engine) :
    (burst target delay count e).wait = e.wait := by
  induction count generalizing e with
  | zero => rfl
  | succ count ih =>
    have hone : (e.sendConsecutive target).wait = e.wait := by
      unfold sendConsecutive
      rw [transmit_eq]
    unfold burst
    split
    · rfl
    · dsimp only
      split
      · exact hone
      · rw [ih, pause]
        exact hone

theorem remaining_burst (target : UInt32) (delay count : Nat) (e : Engine) :
    (burst target delay count e).out.remaining = e.out.remaining - (e.isoTpRoom - 1) * count := by
  induction count generalizing e with
  | zero => rfl
  | succ count ih =>
    have hone : (e.sendConsecutive target).out.remaining = e.out.remaining - (e.isoTpRoom - 1) := by
      unfold sendConsecutive
      rw [transmit_eq]
      show (e.out.advance (e.isoTpRoom - 1)).remaining = _
      exact Outbound.remaining_advance ..
    have hroom : (e.sendConsecutive target).isoTpRoom = e.isoTpRoom := by
      unfold sendConsecutive
      rw [transmit_eq]
      rfl
    rw [Nat.mul_succ]
    unfold burst
    split
    · omega
    · dsimp only
      by_cases hend : (e.sendConsecutive target).out.remaining = 0 ∨ count = 0
      · rw [if_pos hend]
        rcases hend with hend | rfl <;> omega
      · rw [if_neg hend]
        rw [ih]
        show (e.sendConsecutive target).out.remaining - ((e.sendConsecutive target).isoTpRoom - 1) * count = _
        rw [hone, hroom]
        omega

/-- No write of the burst is refused, so that no failed result is left. -/
theorem AllSent.burst {target : UInt32} {delay count : Nat} (hs : e.AllSent)
    (hall : Adds (·.refused? = none) e (Engine.burst target delay count e)) :
    (Engine.burst target delay count e).AllSent := by
  induction count generalizing e with
  | zero => exact hs
  | succ count ih =>
    have hone : Adds (·.refused? = none) e (e.sendConsecutive target) → (e.sendConsecutive target).AllSent :=
      AllSent.transmit_unrefused (e := { e with out := _ }) hs
    unfold Engine.burst at hall ⊢
    by_cases ho : e.out.remaining = 0
    · rw [if_pos ho]
      exact hs
    · rw [if_neg ho] at hall ⊢
      dsimp only at hall ⊢
      by_cases hend : (e.sendConsecutive target).out.remaining = 0 ∨ count = 0
      · rw [if_pos hend] at hall ⊢
        exact hone hall
      · rw [if_neg hend] at hall ⊢
        have hfirst : e.log <:+ (e.sendConsecutive target).log := ((Works.refl e).sendConsecutive target).log.suffix
        have hrest : (e.sendConsecutive target).log <:+
            (Engine.burst target delay count ((e.sendConsecutive target).pause delay)).log :=
          (((Works.refl _).pause delay).burst target delay count).log.suffix
        have hsplit := hall.split hfirst hrest
        exact ih (e := (e.sendConsecutive target).pause delay) (hone hsplit.1) hsplit.2

/-- Leave to go on completes the request on the last tick of the wait. -/
inductive Lapses (e : Engine) : Operation → Prop
  | flow {frame : Frame} {command blockSize septime : UInt8} (hb : frame.bus = e.bus)
    (hc : e.isChannelFrame frame = false) (hf : e.MayAnswer frame)
    (hs : Segment.ofBytes? (e.job.protocol.isoTpData frame) = some (.flow command blockSize septime))
    (hg : FlowCommand.ofByte? command = some .goOn) (ho : 0 < e.out.remaining) (hw : e.wait = 1)
    (hall : e.out.remaining ≤ (e.isoTpRoom - 1) * e.allowedFrames blockSize) : Lapses e (.frame frame)

theorem wait_isoTpFlow {command blockSize : UInt8} (hg : FlowCommand.ofByte? command = some .goOn)
    (ho : 0 < e.out.remaining) (id : UInt32) (septime : UInt8) :
    (e.isoTpFlow id command blockSize septime).wait =
      if e.out.remaining ≤ (e.isoTpRoom - 1) * e.allowedFrames blockSize then e.wait else 2 := by
  have hrest := remaining_burst (e.isoTpTarget id) (separationDelay septime) (e.allowedFrames blockSize) e
  unfold isoTpFlow
  rw [if_neg (by omega), hg]
  dsimp only
  by_cases hall : e.out.remaining ≤ (e.isoTpRoom - 1) * e.allowedFrames blockSize
  · rw [if_pos hall, if_neg (by omega), wait_burst]
  · rw [if_neg hall, if_pos (by omega)]

namespace Sends

theorem isoTpFlow {command blockSize septime : UInt8} (hw : 0 < e.wait) (hno : ¬ (e.wait = 1 ∧
      FlowCommand.ofByte? command = some .goOn ∧ 0 < e.out.remaining ∧
      e.out.remaining ≤ (e.isoTpRoom - 1) * e.allowedFrames blockSize)) (id : UInt32) :
    Sends e (e.isoTpFlow id command blockSize septime) := by
  have hr : Unsent e e := .refl e
  by_cases hg : FlowCommand.ofByte? command = some .goOn ∧ 0 < e.out.remaining
  · refine of_arms (.armed ?_ ((Works.refl e).isoTpFlow ..).log.suffix)
    rw [wait_isoTpFlow hg.1 hg.2]
    by_cases hall : e.out.remaining ≤ (e.isoTpRoom - 1) * e.allowedFrames blockSize
    · rw [if_pos hall]
      have : e.wait ≠ 1 := fun hone => hno ⟨hone, hg.1, hg.2, hall⟩
      omega
    · rw [if_neg hall]
  · unfold Engine.isoTpFlow
    by_cases ho : e.out.remaining = 0
    · rw [if_pos ho]
      exact of_unsent hr
    · rw [if_neg ho]
      cases hc : FlowCommand.ofByte? command with
      | none => exact of_unsent hr
      | some flow =>
        cases flow with
        | goOn => exact absurd ⟨hc, by omega⟩ hg
        | wait => exact of_unsent (hr.update ..)
        | abort => exact of_unsent (hr.update ..)

/-- A frame beside the channel. -/
theorem receiveOther {frame : Frame} (hb : frame.bus = e.bus) (hc : e.isChannelFrame frame = false)
    (hno : ¬ e.Lapses (.frame frame)) : Sends e (e.receiveOther frame) := by
  unfold Engine.receiveOther
  by_cases hf : (!e.job.isVwtp && 0 < e.wait && e.job.entry.isSome && e.job.accepts (e.responseId frame)) = true
  · rw [if_pos hf]
    have hf : e.MayAnswer frame := by simpa [MayAnswer, and_assoc] using hf
    unfold receiveIsoTp
    cases hs : Segment.ofBytes? (e.job.protocol.isoTpData frame) with
    | none => exact of_unsent (.refl e)
    | some segment =>
      cases segment with
      | flow command blockSize septime =>
        refine isoTpFlow hf.2.1 ?_ _
        rintro ⟨hw, hg, ho, hall⟩
        exact hno (.flow hb hc hf hs hg ho hw hall)
      | single => exact receiveOpening ..
      | first => exact receiveOpening ..
      | consecutive => exact receiveConsecutive ..
  · rw [if_neg hf]
    exact of_unsent (.refl e)

/-! ### Ticks -/

theorem timeOutChannel (h : Unsent e e') : Sends e e'.timeOutChannel := by
  unfold Engine.timeOutChannel
  split
  · split
    · exact of_unsent h.shutChannel
    · exact of_unsent h.shutChannel
    · split
      · exact ⟨_, h.shutChannel, (Arms.refl _).startVwtp⟩
      · exact of_unsent h.shutChannel
    · exact of_unsent h
  · split
    · exact ⟨_, h, (Arms.refl _).requestClose⟩
    · exact of_unsent h

theorem keepChannel (h : Unsent e e') : Sends e e'.keepChannel := by
  unfold Engine.keepChannel
  split
  · exact of_unsent (h.update ..)
  · unfold closeUnused
    split
    · exact (timeOutChannel h).arms (Arms.refl _).requestClose
    · exact timeOutChannel h

theorem pollSend (h : Unsent e e') (primary : Bool) : Sends e (e'.pollSend primary) := by
  unfold Engine.pollSend
  cases primary with
  | false => exact ⟨_, h, (Arms.refl _).sendNext false⟩
  | true =>
    have hcount : Sends e e'.countDown := (keepChannel (h.update ..)).arms (Arms.refl _).expireSingle
    exact hcount.arms ((Arms.refl _).sendNext true)

/-! ### All operations -/

theorem worked {op : Operation} (hno : ¬ e.Lapses op) : Sends e (e.worked op) := by
  have hrefl : Unsent e e := .refl e
  cases op with
  | frame frame =>
    unfold Engine.worked
    dsimp only
    by_cases hb : frame.bus ≠ e.bus
    · rw [if_pos hb]
      exact of_unsent hrefl
    · rw [if_neg hb]
      by_cases hc : e.isChannelFrame frame = true
      · rw [if_pos hc]
        exact receiveVwtp e frame
      · rw [if_neg hc]
        exact receiveOther (by simpa using hb) (by simpa using hc) hno
  | tick primary =>
    have hready : Unsent e (e.readied (.tick primary)) := .of_log rfl
    cases primary with
    | false => exact pollSend hready false
    | true => exact pollSend (hready.emit rfl) true
  | txComplete frame success => exact of_arms ((Arms.refl e).judgeResult ..)
  | sendSuccess =>
    unfold Engine.worked
    dsimp only
    split
    · have hdue : Unsent e { e with successDue := none } := .of_log rfl
      split
      · exact pollSend hdue false
      · exact of_unsent hdue
    · exact of_unsent hrefl
  | setList list bus =>
    show Sends e (e.setList list bus)
    unfold setList
    split <;> exact of_unsent (.of_log rfl)
  | setState state =>
    show Sends e (e.setState state)
    unfold setState
    dsimp only
    split <;> exact of_unsent (.of_log rfl)
  | shutdown => exact of_unsent hrefl.shutdown
  | _ => exact of_unsent (.of_log rfl)

end Sends

/-- The wait is left at its last tick. -/
theorem Lapses.wait_step {op : Operation} (hr : e.Reached) (h : e.Lapses op)
    (hall : Adds (·.refused? = none) e (e.step op)) : (e.step op).wait = 1 := by
  obtain @⟨frame, command, blockSize, septime, hb, hc, hf, hs, hg, ho, hw, hrest⟩ := h
  have hother : e.receiveOther frame = e.isoTpFlow (e.responseId frame) command blockSize septime := by
    unfold receiveOther receiveIsoTp
    rw [if_pos (by simpa [MayAnswer, and_assoc] using hf), hs]
  have hwait : (e.isoTpFlow (e.responseId frame) command blockSize septime).wait = 1 := by
    rw [wait_isoTpFlow hg ho, if_pos hrest, hw]
  have hworks : Works e (e.isoTpFlow (e.responseId frame) command blockSize septime) := (Works.refl e).isoTpFlow ..
  rw [step_frame_other hb hc, hother] at hall ⊢
  have hburst := (hall.split hworks.log.suffix (Grows.turns (Turns.refl _).settle).log).1
  have hsent : (e.isoTpFlow (e.responseId frame) command blockSize septime).AllSent := by
    unfold isoTpFlow at hburst ⊢
    rw [if_neg (by omega), hg] at hburst ⊢
    dsimp only at hburst ⊢
    by_cases hleft : 0 < (burst (e.isoTpTarget (e.responseId frame)) (separationDelay septime)
        (e.allowedFrames blockSize) e).out.remaining
    · rw [if_pos hleft] at hburst ⊢
      exact AllSent.burst (.of_nil hr.atRest.results) hburst
    · rw [if_neg hleft] at hburst ⊢
      exact AllSent.burst (.of_nil hr.atRest.results) hburst
  have hqueue := hr.atRest.queue
  rw [← hworks.single, ← hworks.queued] at hqueue
  obtain ⟨received, new, heq, -⟩ := settle_good hsent hqueue
  rw [heq]
  exact hwait

/-- An operation moves a request on, no write is refused, and the poll does not end: then the wait is armed for two
ticks at least, unless leave to go on came on the last tick of the wait and completed the request. -/
theorem armed_iff_not_lapses (hr : e.Reached) (op : Operation) {before after : List Stamped} {s : Stamped}
    (hlog : (e.step op).log = after ++ s :: before) (hbefore : e.log <:+ before) (hs : s.event.movesOn = true)
    (hafter : ∀ c ∈ after, c.event.endsPoll = false) (hall : Adds (·.refused? = none) e (e.step op)) :
    2 ≤ (e.step op).wait ↔ ¬ e.Lapses op := by
  refine ⟨fun hw hl => ?_, fun hno => ?_⟩
  · rw [hl.wait_step hr hall] at hw
    exact absurd hw (by decide)
  · rw [step_eq_settle hr.atRest] at hlog ⊢
    obtain ⟨e₁, hu, ha⟩ := (Sends.worked hno).settle
    exact ha.two_le_wait hu hlog hbefore hs hafter

/-- The module lets a request go on before the first tick, and the rest of it goes out. -/
theorem armed_iff_not_lapses_example :
    let bus : BusId := ⟨1, by decide⟩
    let entry : PollEntry := ⟨0x7e0, 0x7e8, 0x2e, 0xf190, [1, 2, 3, 4, 5, 6, 7], #v[1, 1, 1, 1], 1, .isoTp⟩
    let e := (Engine.new bus "ecu" false ⟨0, 25, .strict, 0, 0⟩).run [.setList (some [entry]) none, .tick true]
    let op : Operation := .frame (EcuFrame.padded bus 0x7e8 [0x30, 0, 0])
    e.wait = 2 ∧ (writes (e.step op).log).map (·.kind) = [.opening, .consecutive] ∧ 2 ≤ (e.step op).wait := by
  intro bus entry e op
  have hr : e.Reached := ⟨bus, "ecu", false, _, _, rfl⟩
  have hwait : e.wait = 2 := by decide
  have hno : ¬ e.Lapses op := by
    generalize op = op'
    rintro ⟨-, -, -, -, -, -, hw, -⟩
    rw [hwait] at hw
    cases hw
  -- the frame, and the report that it was sent
  have hsecond : (e.step op).log[1]?.any (·.event.movesOn) = true := by decide
  obtain ⟨s, hs, hmoves⟩ := (Option.any_eq_true _ _).1 hsecond
  have hlog : (e.step op).log = (e.step op).log.take 1 ++ s :: (e.step op).log.drop 2 := by
    obtain ⟨hlength, rfl⟩ := List.getElem?_eq_some_iff.1 hs
    rw [← List.drop_eq_getElem_cons hlength, List.take_append_drop]
  have hbefore : e.log <:+ (e.step op).log.drop 2 :=
    List.suffix_of_suffix_length_le (Grows.step e op).log (List.drop_suffix ..) (by decide)
  have hall : Adds (·.refused? = none) e (e.step op) := by
    obtain ⟨new, hnew⟩ := (Grows.step e op).log
    have hnone : ∀ s ∈ (e.step op).log, s.event.refused? = none := by decide
    exact ⟨new, hnew.symm, fun s hs => hnone s (hnew ▸ List.mem_append_left _ hs)⟩
  exact ⟨hwait, by decide, (armed_iff_not_lapses hr op hlog hbefore hmoves (by decide) hall).2 hno⟩

/-- The same after a tick: the rest of the request goes out, but the wait runs out at the next tick, and the request
begins anew. -/
theorem not_armed_example :
    let bus : BusId := ⟨1, by decide⟩
    let entry : PollEntry := ⟨0x7e0, 0x7e8, 0x2e, 0xf190, [1, 2, 3, 4, 5, 6, 7], #v[1, 1, 1, 1], 1, .isoTp⟩
    let e := (Engine.new bus "ecu" false ⟨0, 25, .strict, 0, 0⟩).run
      [.setList (some [entry]) none, .tick true, .tick true]
    let op : Operation := .frame (EcuFrame.padded bus 0x7e8 [0x30, 0, 0])
    (writes e.log).map (·.kind) = [.opening] ∧ (writes (e.step op).log).map (·.kind) = [.opening, .consecutive] ∧
      (e.step op).wait = 1 ∧
      (writes ((e.step op).step (.tick true)).log).map (·.kind) = [.opening, .consecutive, .opening] := by
  decide

end Engine

end EcuPoll
