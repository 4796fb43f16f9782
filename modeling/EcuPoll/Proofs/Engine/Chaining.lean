import Mathlib.Data.List.Induction
import EcuPoll.Poller.Clock
import EcuPoll.Proofs.Engine.Course

/-!
# Chained polls that have to wait

A delay may be set between a complete response and the next poll of the list. The response then only arms that
poll; whether it is due is asked for from outside (`sendSuccess`). Nothing else that an engine does arms a poll,
puts off the time of one that is armed, or turns back its clock: `Idles`. So in a run every poll of the list is
dispatched in a tick, or the delay after the frame that armed it, and once: `chained_polls`.
-/

namespace EcuPoll

/-- A poll of the list is dispatched. -/
def Event.isPeriodic (event : Event) : Bool :=
  event.periodic?.isSome

/-- The delay between a response and the next poll is this one after the operation, if it was before. -/
def Operation.KeepsBetween (delay : Nat) : Operation → Prop
  | .setBetween ms => ms = delay
  | _ => True

namespace Engine
variable {polls : Prop} {e e' e'' : Engine}

/-- The armed poll stays what it is and time does not go back. A poll of the list is dispatched only if `polls`
holds. -/
structure Idles (polls : Prop) (e e' : Engine) : Prop where
  between : e'.between = e.between
  successDue : e'.successDue = e.successDue
  now_le : e.now ≤ e'.now
  log : Adds (fun event => event.isPeriodic = true → polls) e e'

namespace Idles

theorem of_log (hb : e'.between = e.between) (hd : e'.successDue = e.successDue) (hn : e'.now = e.now)
    (hl : e'.log = e.log) : Idles polls e e' :=
  ⟨hb, hd, hn.ge, .of_log hl⟩

theorem refl (e : Engine) : Idles polls e e := of_log rfl rfl rfl rfl

theorem trans (h : Idles polls e e') (h' : Idles polls e' e'') : Idles polls e e'' where
  between := h'.between.trans h.between
  successDue := h'.successDue.trans h.successDue
  now_le := h.now_le.trans h'.now_le
  log := h.log.trans h'.log

theorem update (h : Idles polls e e') (line : Line) (schedule : Schedule) (job : PollJob) (active : Bool)
    (wait : Nat) (out : Outbound) (channel : Channel) (single : Option Capture) (queued : List SingleRequest)
    (results : List (Frame × Bool)) : Idles polls e { e' with
      line, schedule, job, active, wait, out, channel, single, queued, results } :=
  h.trans (of_log rfl rfl rfl rfl)

theorem emit (h : Idles polls e e') {event : Event} (hev : event.isPeriodic = true → polls) :
    Idles polls e (e'.emit event) :=
  h.trans ⟨rfl, rfl, le_rfl, (Adds.refl e').emit hev⟩

theorem transmit (h : Idles polls e e') (kind : FrameKind) (frame : Frame) :
    Idles polls e (e'.transmit kind frame) := by
  refine h.trans ?_
  rw [transmit_eq]
  exact ⟨rfl, rfl, le_rfl, [_], rfl, by simp [Event.isPeriodic, Event.periodic?]⟩

theorem pause (h : Idles polls e e') (us : Nat) : Idles polls e (e'.pause us) :=
  h.trans ⟨rfl, rfl, Nat.le_add_right .., .of_log rfl⟩

/-! ### The channel -/

theorem expectOnChannel (h : Idles polls e e') : Idles polls e e'.expectOnChannel := by
  unfold Engine.expectOnChannel
  split
  · exact h.update ..
  · exact h

theorem touchChannel (h : Idles polls e e') : Idles polls e e'.touchChannel := h.update ..

theorem loseChannel (h : Idles polls e e') : Idles polls e e'.loseChannel := h.update ..

theorem shutChannel (h : Idles polls e e') : Idles polls e e'.shutChannel := by
  unfold Engine.shutChannel
  split
  · exact h
  · exact h.loseChannel

theorem requestSetup (h : Idles polls e e') : Idles polls e e'.requestSetup := by
  unfold Engine.requestSetup
  split
  · exact h
  · split
    · exact h
    · exact ((h.update ..).expectOnChannel.update ..).transmit ..

theorem requestParams (h : Idles polls e e') : Idles polls e e'.requestParams := by
  unfold Engine.requestParams
  split
  · exact h
  · exact (h.expectOnChannel.update ..).transmit ..

theorem requestClose (h : Idles polls e e') : Idles polls e e'.requestClose := by
  unfold Engine.requestClose
  split
  · exact h
  · exact (h.expectOnChannel.update ..).transmit ..

theorem goIdle (h : Idles polls e e') : Idles polls e e'.goIdle := by
  unfold Engine.goIdle
  split
  · exact h
  · exact h.update ..

theorem awaitResponse (h : Idles polls e e') : Idles polls e e'.awaitResponse := by
  unfold Engine.awaitResponse
  split
  · exact h
  · exact h.update ..

theorem sendFrame (header : List UInt8) (left : Nat) (h : Idles polls e e') :
    Idles polls e (e'.sendFrame header left) := by
  have hp : Idles polls e (if 0 < e'.channel.txSeq then e'.pause e'.channel.sepTime else e') := by
    split
    · exact h.pause _
    · exact h
  unfold Engine.sendFrame
  dsimp only
  refine transmit ?_ ..
  exact ⟨h.between, h.successDue, hp.now_le, h.log⟩

theorem sendFrames (header : List UInt8) (left : Nat) (h : Idles polls e e') :
    Idles polls e (Engine.sendFrames header left e') := by
  induction left generalizing e' with
  | zero => exact h
  | succ left ih =>
    unfold Engine.sendFrames
    dsimp only
    split
    · exact h.sendFrame header left
    · exact ih (h.sendFrame header left)

theorem sendBlock (h : Idles polls e e') : Idles polls e e'.sendBlock := by
  unfold Engine.sendBlock
  split
  · exact h
  · exact (h.sendFrames _ _).expectOnChannel.update ..

theorem sendRequest (h : Idles polls e e') : Idles polls e e'.sendRequest := by
  unfold Engine.sendRequest
  split
  · exact h
  · exact (h.update ..).sendBlock

theorem abortTransfer (h : Idles polls e e') : Idles polls e e'.abortTransfer := by
  unfold Engine.abortTransfer
  exact (((h.update ..).expectOnChannel).update ..).transmit ..

theorem refuseData (h : Idles polls e e') : Idles polls e e'.refuseData := (h.update ..).transmit ..

theorem interrupt (h : Idles polls e e') : Idles polls e e'.interrupt := by
  unfold Engine.interrupt
  split
  · exact h.abortTransfer
  · exact h.abortTransfer.pause _
  · exact h

/-! ### ISO-TP -/

theorem startIsoTp (h : Idles polls e e') : Idles polls e e'.startIsoTp := by
  unfold Engine.startIsoTp
  split
  · exact h
  · exact (h.update ..).transmit ..

theorem burst (target : UInt32) (delay count : Nat) (h : Idles polls e e') :
    Idles polls e (Engine.burst target delay count e') := by
  induction count generalizing e' with
  | zero => exact h
  | succ count ih =>
    have hone : Idles polls e (e'.sendConsecutive target) := (h.update ..).transmit ..
    unfold Engine.burst
    split
    · exact h
    · dsimp only
      split
      · exact hone
      · exact ih (hone.pause delay)

theorem isoTpFlow (id : UInt32) (command blockSize septime : UInt8) (h : Idles polls e e') :
    Idles polls e (e'.isoTpFlow id command blockSize septime) := by
  unfold Engine.isoTpFlow
  split
  · exact h
  · split
    · exact h
    · exact h.update ..
    · exact h.update ..
    · dsimp only
      split
      · exact (h.burst ..).update ..
      · exact h.burst ..

/-! ### Results -/

theorem finishSingle (h : Idles polls e e') (result : SingleResult) : Idles polls e (e'.finishSingle result) := by
  unfold Engine.finishSingle
  split
  · exact h
  · exact (h.update ..).emit nofun

theorem deliverReply (h : Idles polls e e') (data : List UInt8) : Idles polls e (e'.deliverReply data) := by
  have hd := deliverReply_delivered e' data
  generalize e'.deliverReply data = e'' at hd ⊢
  cases hd with
  | report => exact h.emit nofun
  | whole => exact h.finishSingle _
  | part => exact h.update ..

theorem deliverFailure (h : Idles polls e e') (failure : PollFailure) :
    Idles polls e (e'.deliverFailure failure) := by
  unfold Engine.deliverFailure
  split
  · exact h.emit nofun
  · exact h.finishSingle _

theorem expireSingle (h : Idles polls e e') : Idles polls e e'.expireSingle := by
  unfold Engine.expireSingle
  split
  · exact h
  · split
    · exact h.finishSingle _
    · exact h

end Idles

/-- What a frame does leaves the armed poll alone. -/
theorem Effect.idles {stray lifts : Prop} (h : Effect stray lifts e e') : Idles polls e e' := by
  have hr := @Idles.refl polls e
  cases h with
  | reply data => exact hr.deliverReply data
  | failure failure => exact hr.deliverFailure failure
  | allow => exact hr.transmit ..
  | flow => exact hr.isoTpFlow ..
  | lose => exact hr.loseChannel
  | shut => exact hr.shutChannel
  | close => exact hr.requestClose
  | params => exact hr.requestParams
  | request => exact hr.sendRequest
  | setup => exact hr.requestSetup
  | block => exact hr.sendBlock
  | await => exact hr.awaitResponse
  | abort => exact hr.abortTransfer
  | idle => exact hr.goIdle
  | ack => exact hr.transmit ..
  | pong => exact hr.transmit ..
  | refuseData => exact hr.refuseData
  | progress | reject | assignIds | agree | drop | receive => exact hr.update ..

theorem Effects.idles {stray lifts : Prop} (h : Effects stray lifts e e') : Idles polls e e' := by
  induction h with
  | refl => exact .refl e
  | tail _ he ih => exact ih.trans he.idles

namespace Idles

/-! ### Sending -/

theorem startVwtp (h : Idles polls e e') : Idles polls e e'.startVwtp := by
  have ht := h.touchChannel
  rcases hj : e'.job.entry with _ | entry
  · simp only [Engine.startVwtp, hj]
    exact h
  · have hst := startVwtp_start e' hj
    generalize e'.startVwtp = e'' at hst ⊢
    cases hst with
    | again => exact ht.requestSetup
    | request => exact ht.interrupt.sendRequest
    | close => exact ht.requestClose
    | setup => exact ht.requestSetup
    | nothing => exact ht.deliverFailure _

/-- The transport of an entry that has become the poll in flight. -/
theorem dispatch {entry : PollEntry} (h : Idles polls e (e'.assign entry)) :
    Idles polls e (e'.dispatch entry) := by
  unfold Engine.dispatch
  split
  · exact h.startVwtp
  · exact h.startIsoTp

theorem startSingle (h : Idles polls e e') (request : SingleRequest) :
    Idles polls e (e'.startSingle request) := by
  have hc : Idles polls e (e'.capture request).advance := by
    have hs : Idles polls e (e'.emit (.singleStarted request.ticket)) := h.emit nofun
    exact hs.update ..
  unfold Engine.startSingle
  split
  · exact h.emit nofun
  · dsimp only
    split
    · -- on behalf of a single request, so no poll of the list
      refine Idles.dispatch ((hc.update ..).emit ?_)
      simp [Event.isPeriodic, Event.periodic?, singleTicket, advance, capture, Engine.emit]
    · exact hc.finishSingle _

theorem failTransmission (h : Idles polls e e') : Idles polls e e'.failTransmission := by
  unfold Engine.failTransmission
  dsimp only
  split
  · exact (h.loseChannel.update ..).deliverFailure _
  · exact (h.update ..).deliverFailure _

theorem reportSent (h : Idles polls e e') (success : Bool) : Idles polls e (e'.reportSent success) :=
  (h.update ..).emit nofun

theorem judgeResult (h : Idles polls e e') (frame : Frame) (success : Bool) :
    Idles polls e (e'.judgeResult frame success) := by
  unfold Engine.judgeResult
  split
  · exact h
  · cases success with
    | true =>
      dsimp only
      split
      · exact h.reportSent _
      · exact h
    | false =>
      dsimp only
      split
      · exact h.failTransmission.reportSent _
      · exact h.failTransmission

theorem judgeResults (h : Idles polls e e') : Idles polls e e'.judgeResults := by
  have heach : ∀ (results : List (Frame × Bool)) (e' : Engine), Idles polls e e' →
      Idles polls e (results.foldl (fun e r => e.judgeResult r.1 r.2) e') := by
    intro results
    induction results with
    | nil => exact fun _ h => h
    | cons r results ih => exact fun e' h => ih _ (h.judgeResult ..)
  exact heach _ _ (h.update ..)

theorem startQueued (queued : List SingleRequest) (h : Idles polls e e') :
    Idles polls e (Engine.startQueued queued e') := by
  induction queued generalizing e' with
  | nil => exact h.judgeResults
  | cons request queued ih =>
    unfold Engine.startQueued
    dsimp only
    split
    · exact h.judgeResults
    · exact ih ((h.judgeResults.update ..).startSingle request)

theorem settle (h : Idles polls e e') : Idles polls e e'.settle := h.startQueued _

theorem keepChannel (h : Idles polls e e') : Idles polls e e'.keepChannel := by
  have hout : Idles polls e e'.timeOutChannel := by
    unfold timeOutChannel
    split
    · split
      · exact h.shutChannel
      · exact h.shutChannel
      · split
        · exact h.shutChannel.startVwtp
        · exact h.shutChannel
      · exact h
    · split
      · exact h.requestClose
      · exact h
  unfold Engine.keepChannel
  split
  · exact h.update ..
  · unfold closeUnused
    split
    · exact hout.requestClose
    · exact hout

theorem countDown (h : Idles polls e e') : Idles polls e e'.countDown := by
  have hw : Idles polls e { e' with wait := e'.wait - 1 } := h.update ..
  exact hw.keepChannel.expireSingle

theorem startPass (h : Idles polls e e') : Idles polls e e'.startPass := by
  unfold Engine.startPass
  dsimp only
  split
  · exact (h.update ..).emit nofun
  · exact h.update ..

theorem pollList (h : Idles True e e') : Idles True e e'.pollList := by
  have ha : Idles True e e'.advance := h.update ..
  unfold Engine.pollList
  split
  · exact Idles.dispatch ((ha.update ..).emit fun _ => trivial)
  · split
    · exact ha
    · exact ha.emit nofun
  · exact ha

theorem sendNext (h : Idles True e e') (primary : Bool) : Idles True e (e'.sendNext primary) := by
  have hr : Idles True e { e' with active := false } := h.update ..
  have hlist {passed : Engine} (h : Idles True e passed) :
      Idles True e (if passed.paused || !passed.schedule.canPoll then passed else passed.pollList) := by
    split
    · exact h
    · exact h.pollList
  have hsent := sendNext_sent e' primary
  generalize e'.sendNext primary = e'' at hsent ⊢
  cases hsent with
  | waits => exact h
  | held => exact hr
  | single => exact Idles.startSingle (hr.update ..) _
  | list _ _ _ hp =>
    rcases hp with rfl | ⟨-, rfl⟩
    · exact hlist hr
    · exact hlist hr.startPass

theorem tick (e : Engine) (primary : Bool) : Idles True e (e.tick primary) := by
  have hr := @Idles.refl True e
  unfold Engine.tick
  cases primary with
  | true =>
    have hb : Idles True e (e.emit (.stateTicker e.bus)) := hr.emit nofun
    exact ((hb.update ..).countDown.sendNext true).settle
  | false => exact ((hr.update ..).sendNext false).settle

theorem refuseQueued (h : Idles polls e e') : Idles polls e e'.refuseQueued :=
  refuseQueued_keeps (P := Idles polls e) (h.update ..) fun _ _ h => h.emit nofun

end Idles

/-! ### Arming and firing -/

/-- A poll has been armed at some time in between, to be dispatched the delay later. -/
structure Delays (e e' : Engine) : Prop where
  between : e'.between = e.between
  armed : ∃ armed, e.now ≤ armed ∧ armed ≤ e'.now ∧ e'.successDue = some (armed + e.between)
  log : Adds (fun event => event.isPeriodic = true → False) e e'

/-- One poll of the list has been dispatched at once. -/
def Polled (e e' : Engine) : Prop :=
  ∃ later s, e'.log = later ++ s :: e.log ∧ s.event.isPeriodic = true ∧ s.time = e.now ∧
    ∀ s' ∈ later, s'.event.isPeriodic = false

theorem Idles.none_periodic (h : Idles False e e') :
    ∃ new, e'.log = new ++ e.log ∧ ∀ s ∈ new, s.event.isPeriodic = false := by
  obtain ⟨new, hnew, hno⟩ := h.log
  exact ⟨new, hnew, fun s hs => Bool.eq_false_iff.2 (hno s hs)⟩

/-- A complete response arms the next poll, or nothing is to be chained. -/
theorem pollNext_delays (hb : e.between ≠ 0) : Idles False e e.pollNext ∨ Delays e e.pollNext := by
  unfold pollNext
  dsimp only
  split
  · exact .inl ((Idles.refl e).update ..)
  · exact .inr ⟨rfl, ⟨e.now, le_rfl, le_rfl, rfl⟩, .of_log rfl⟩

theorem Reacts.delays {stray lifts : Prop} (h : Reacts stray lifts e e') (hb : e.between ≠ 0) :
    Idles False e e'.settle ∨ Delays e e'.settle := by
  obtain ⟨acted, heffects, hchains⟩ := h
  have hi : Idles False e acted := heffects.idles
  rcases hchains with rfl | ⟨-, rfl⟩
  · exact .inl hi.settle
  · have hrest := (@Idles.refl False acted.pollNext).settle
    rcases pollNext_delays (hi.between.symm ▸ hb) with hn | ⟨hbetween, ⟨armed, hfrom, hto, hdue⟩, hlog⟩
    · exact .inl ((hi.trans hn).trans hrest)
    · refine .inr ⟨hrest.between.trans (hbetween.trans hi.between),
        ⟨armed, hi.now_le.trans hfrom, hto.trans hrest.now_le, ?_⟩, (hi.log.trans hlog).trans hrest.log⟩
      rw [hrest.successDue, hdue, hi.between]

theorem handleFrame_delays (hb : e.between ≠ 0) (frame : Frame) :
    Idles False e (e.handleFrame frame) ∨ Delays e (e.handleFrame frame) := by
  unfold handleFrame
  by_cases hbus : frame.bus ≠ e.bus
  · rw [if_pos hbus]
    exact .inl (.refl e)
  · rw [if_neg hbus]
    by_cases hc : e.isChannelFrame frame = true
    · rw [if_pos hc]
      exact (receiveVwtp_reacts e (by simpa using hbus) hc).delays hb
    · rw [if_neg hc]
      exact (@receiveOther_reacts False False e frame).delays hb

theorem Polled.idles (h : Polled e e') (hi : Idles False e' e'') : Polled e e'' := by
  obtain ⟨later, s, hlog, hs, ht, hno⟩ := h
  obtain ⟨new, hnew, hno'⟩ := hi.none_periodic
  refine ⟨new ++ later, s, by rw [hnew, hlog, List.append_assoc], hs, ht, ?_⟩
  exact List.forall_mem_append.2 ⟨hno', hno⟩

theorem pollList_polled (hs : e.single = none) : Idles False e e.pollList ∨ Polled e e.pollList := by
  have ha : Idles False e e.advance := (Idles.refl e).update ..
  unfold pollList
  cases e.schedule.next.1 with
  | due entry =>
    have hp : Polled e (e.advance.assign entry) := by
      refine ⟨[], ⟨e.now, .dispatched entry e.advance.schedule.ticker none⟩, ?_, rfl, rfl,
        List.forall_mem_nil _⟩
      simp [assign, emit, singleTicket, advance, hs]
    exact .inr (hp.idles (Idles.dispatch (.refl _)))
  | passComplete =>
    dsimp only
    split
    · exact .inl ha
    · exact .inl (ha.emit fun h => absurd h Bool.false_ne_true)
  | empty => exact .inl ha

/-- Between two ticks a poll of the list is dispatched only if none is in flight and the throttle is open. -/
theorem sendNext_polled (e : Engine) : Idles False e (e.sendNext false) ∨
    Polled e (e.sendNext false) ∧ e.wait = 0 ∧ e.schedule.canPoll = true := by
  have hr : Idles False e { e with active := false } := (Idles.refl e).update ..
  have hsent := sendNext_sent e false
  generalize e.sendNext false = e' at hsent ⊢
  cases hsent with
  | waits => exact .inl (.refl e)
  | held => exact .inl hr
  | single => exact .inl (Idles.startSingle (hr.update ..) _)
  | list hw hs _ hp =>
    obtain rfl := hp.resolve_right (by simp)
    by_cases hc : (e.paused || !e.schedule.canPoll) = true
    · rw [if_pos hc]
      exact .inl hr
    · rw [if_neg hc]
      have hopen : e.schedule.canPoll = true := by simp_all
      rcases pollList_polled (e := { e with active := false }) hs with hi | hp
      · exact .inl (hr.trans hi)
      · exact .inr ⟨hp, hw, hopen⟩

/-- The armed poll is due, and is armed no more. -/
structure Fires (e e' : Engine) : Prop where
  between : e'.between = e.between
  due : ∃ due, e.successDue = some due ∧ due ≤ e.now
  disarmed : e'.successDue = none
  now_le : e.now ≤ e'.now
  log : Adds (fun event => event.isPeriodic = true → False) e e' ∨
    Polled e e' ∧ e.wait = 0 ∧ e.schedule.canPoll = true

theorem sendSuccess_fires (e : Engine) :
    e.sendSuccess = e ∧ (∀ due, e.successDue = some due → e.now < due) ∨ Fires e e.sendSuccess := by
  unfold sendSuccess
  by_cases hdue : e.successDue.any (· ≤ e.now) = true
  · rw [if_pos hdue]
    obtain ⟨due, hsome, hle⟩ := (Option.any_eq_true _ _).1 hdue
    have hdue : ∃ due, e.successDue = some due ∧ due ≤ e.now := ⟨due, hsome, by simpa using hle⟩
    have hsettled {e' : Engine} (h : Idles False { e with successDue := none } e') : Fires e e'.settle :=
      ⟨h.settle.between, hdue, h.settle.successDue, h.settle.now_le, .inl h.settle.log⟩
    refine .inr ?_
    dsimp only
    split
    · show Fires e (sendNext { e with successDue := none } false).settle
      rcases sendNext_polled { e with successDue := none } with hi | ⟨hp, hw, hc⟩
      · exact hsettled hi
      · have hsent := ((Idles.refl { e with successDue := none }).sendNext false).settle
        exact ⟨hsent.between, hdue, hsent.successDue, hsent.now_le,
          .inr ⟨hp.idles (Idles.refl _).settle, hw, hc⟩⟩
    · exact hsettled (.refl _)
  · rw [if_neg hdue]
    refine .inl ⟨rfl, fun due hsome => ?_⟩
    rw [hsome] at hdue
    simpa using hdue

/-- A shutdown disarms. -/
structure Stops (e e' : Engine) : Prop where
  between : e'.between = e.between
  disarmed : e'.successDue = none
  log : Adds (fun event => event.isPeriodic = true → False) e e'

theorem shutdown_stops (e : Engine) : Stops e e.shutdown := by
  have hstop {e' : Engine} (h : Idles False e e') :
      Stops e { e' with results := [], successDue := none, active := false } :=
    ⟨h.between, rfl, h.log.trans (.of_log rfl)⟩
  have hq := ((@Idles.refl False e).finishSingle (.error .unavailable)).refuseQueued
  unfold shutdown
  dsimp only
  split
  · exact hstop hq.requestClose.shutChannel
  · exact hstop hq

/-- What an operation does to the poll that is armed, and to the list. -/
inductive Chaining (e : Engine) : Operation → Engine → Prop
  | tick {e' : Engine} (primary : Bool) (h : Idles True e e') : Chaining e (.tick primary) e'
  | arm {e' : Engine} (frame : Frame) (h : Delays e e') : Chaining e (.frame frame) e'
  | fire {e' : Engine} (h : Fires e e') : Chaining e .sendSuccess e'
  | stop {e' : Engine} (h : Stops e e') : Chaining e .shutdown e'
  | idle {op : Operation} {e' : Engine} (h : Idles False e e') : Chaining e op e'

theorem step_chaining (hb : e.between ≠ 0) {op : Operation} (hop : op.KeepsBetween e.between) :
    Chaining e op (e.step op) := by
  have hr := @Idles.refl False e
  cases op with
  | frame frame => exact (handleFrame_delays hb frame).elim .idle (.arm frame)
  | tick primary => exact .tick primary (.tick e primary)
  | txComplete frame success => exact .idle (hr.judgeResult ..).settle
  | sendSuccess =>
    rcases sendSuccess_fires e with ⟨heq, -⟩ | hfires
    · exact .idle ((show e.step .sendSuccess = e from heq).symm ▸ hr)
    · exact .fire hfires
  | submit request => exact .idle (hr.update ..).settle
  | setList list defaultBus =>
    refine .idle ?_
    show Idles False e (e.setList list defaultBus)
    unfold setList
    split <;> exact hr.update ..
  | setState state =>
    refine .idle ?_
    show Idles False e (e.setState state)
    unfold setState
    dsimp only
    split <;> exact hr.update ..
  | setBetween ms => exact .idle (.of_log hop rfl rfl rfl)
  | setPaused | setSeptime | setKeepalive => exact .idle (.of_log rfl rfl rfl rfl)
  | setSequenceMax | setRoom => exact .idle (hr.update ..)
  | shutdown => exact .stop (shutdown_stops e)
  | elapse ms => exact .idle ⟨rfl, rfl, Nat.le_add_right .., .of_log rfl⟩

theorem Chaining.between_eq {op : Operation} (h : Chaining e op e') : e'.between = e.between := by
  cases h with
  | tick _ h => exact h.between
  | arm _ h => exact h.between
  | fire h => exact h.between
  | stop h => exact h.between
  | idle h => exact h.between

/-- An operation that dispatches a poll of the list is a tick, or fires one that was armed. -/
theorem Chaining.polled {op : Operation} (h : Chaining e op e') (hs : Shows (·.isPeriodic = true) e e') :
    (∃ primary, op = .tick primary) ∨ op = .sendSuccess ∧ Fires e e' ∧ Polled e e' ∧ e.wait = 0 ∧
      e.schedule.canPoll = true := by
  have hnone (hl : Adds (fun event => event.isPeriodic = true → False) e e') : False :=
    hs.not_adds (fun _ hper hno => hno hper) hl
  cases h with
  | tick primary => exact .inl ⟨primary, rfl⟩
  | arm _ h => exact (hnone h.log).elim
  | fire h => exact .inr ⟨rfl, h, (h.log.resolve_left hnone)⟩
  | stop h => exact (hnone h.log).elim
  | idle h => exact (hnone h.log).elim

/-! ### Runs -/

/-- The frame armed a poll at this time, to be dispatched the delay later, and it is armed ever since. -/
structure ArmedBy (start : Engine) (delay : Nat) (earlier : List Operation) (frame : Frame)
    (later : List Operation) (time : Nat) : Prop where
  from_le : (start.run earlier).now ≤ time
  le_until : time ≤ (start.run (earlier ++ [.frame frame])).now
  since : ∀ part, part <+: later →
    (start.run (earlier ++ .frame frame :: part)).successDue = some (time + delay)

section
variable {start : Engine} {ops : List Operation} (hb : start.between ≠ 0)
  (hops : ∀ op ∈ ops, op.KeepsBetween start.between)
include hb hops

theorem between_run : (start.run ops).between = start.between := by
  induction ops using List.reverseRecOn with
  | nil => rfl
  | append_singleton ops op ih =>
    have hbetween := ih fun op hop => hops op (by simp [hop])
    rw [run_append]
    refine (step_chaining (hbetween.symm ▸ hb) ?_).between_eq.trans hbetween
    rw [hbetween]
    exact hops op (by simp)

/-- The next operation of a run. -/
theorem chaining_next {before after : List Operation} {op : Operation} (h : ops = before ++ op :: after) :
    Chaining (start.run before) op (start.run (before ++ [op])) := by
  have hbetween := @between_run start before hb fun op hop => hops op (by simp [h, hop])
  rw [run_append]
  refine step_chaining (hbetween.symm ▸ hb) ?_
  rw [hbetween]
  exact hops op (by simp [h])

/-- A poll that is armed was armed by a frame. -/
theorem exists_armedBy (hd : start.successDue = none) {due : Nat} (h : (start.run ops).successDue = some due) :
    ∃ earlier frame later time, ops = earlier ++ .frame frame :: later ∧
      ArmedBy start start.between earlier frame later time ∧ due = time + start.between := by
  induction ops using List.reverseRecOn generalizing due with
  | nil =>
    rw [show (start.run []).successDue = none from hd] at h
    cases h
  | append_singleton ops op ih =>
    have hops' : ∀ op ∈ ops, op.KeepsBetween start.between := fun op hop => hops op (by simp [hop])
    have hlast := between_run hb hops'
    -- an operation that leaves the armed poll alone goes behind the frame that armed it
    have hkept (heq : (start.run (ops ++ [op])).successDue = (start.run ops).successDue) :
        ∃ earlier frame later time, ops ++ [op] = earlier ++ .frame frame :: later ∧
          ArmedBy start start.between earlier frame later time ∧ due = time + start.between := by
      obtain ⟨earlier, frame, later, time, rfl, harmed, rfl⟩ := ih hops' (heq.symm.trans h)
      refine ⟨earlier, frame, later ++ [op], time, by simp, ⟨harmed.from_le, harmed.le_until, ?_⟩, rfl⟩
      intro part hpart
      rcases List.prefix_concat_iff.1 hpart with rfl | hpart
      · rw [← List.cons_append, ← List.append_assoc]
        exact h
      · exact harmed.since part hpart
    have hnone (heq : (start.run (ops ++ [op])).successDue = none) : False := by
      rw [heq] at h
      cases h
    have hnext := @chaining_next start _ hb hops ops [] op rfl
    generalize hrun : start.run (ops ++ [op]) = e' at hnext
    cases hnext with
    | tick _ h' => exact hkept (by rw [hrun]; exact h'.successDue)
    | arm frame h' =>
      obtain ⟨time, hfrom, hto, hdue⟩ := h'.armed
      rw [hlast] at hdue
      refine ⟨ops, frame, [], time, rfl, ⟨hfrom, by rw [hrun]; exact hto, fun part hpart => ?_⟩, ?_⟩
      · rw [List.prefix_nil.1 hpart, hrun]
        exact hdue
      · rw [hrun, hdue] at h
        exact (Option.some.inj h).symm
    | fire h' => exact (hnone (by rw [hrun]; exact h'.disarmed)).elim
    | stop h' => exact (hnone (by rw [hrun]; exact h'.disarmed)).elim
    | idle h' => exact hkept (by rw [hrun]; exact h'.successDue)

/-- Two polls of the list that were armed by the same frame are dispatched by the same operation, as the first of
them is armed no more. -/
theorem armedBy_once {earlier later later' after after' : List Operation} {frame : Frame} {time time' : Nat}
    (h : ops = earlier ++ .frame frame :: (later ++ .sendSuccess :: after))
    (h' : ops = earlier ++ .frame frame :: (later' ++ .sendSuccess :: after'))
    (harmed : ArmedBy start start.between earlier frame later time)
    (hs : Shows (·.isPeriodic = true) (start.run (earlier ++ .frame frame :: later))
      (start.run (earlier ++ .frame frame :: (later ++ [.sendSuccess]))))
    (harmed' : ArmedBy start start.between earlier frame later' time') (hle : later.length ≤ later'.length) :
    later = later' := by
  have heq : later ++ .sendSuccess :: after = later' ++ .sendSuccess :: after' := by
    have hrest := List.append_cancel_left (h.symm.trans h')
    exact (List.cons.inj hrest).2
  have hfires := @chaining_next start ops hb hops (earlier ++ .frame frame :: later) after .sendSuccess
    (by rw [h]; simp)
  rw [List.append_assoc, List.cons_append] at hfires
  have hdisarmed : (start.run (earlier ++ .frame frame :: (later ++ [.sendSuccess]))).successDue = none := by
    rcases hfires.polled hs with ⟨_, htick⟩ | ⟨-, hf, -⟩
    · cases htick
    · exact hf.disarmed
  rcases List.append_eq_append_iff.1 heq with ⟨rest, rfl, hrest⟩ | ⟨rest, rfl, -⟩
  · rcases rest with _ | ⟨op, rest⟩
    · simp
    · -- the later one was still armed when the first had been dispatched
      obtain ⟨rfl, -⟩ := List.cons.inj hrest
      have hstill := harmed'.since (later ++ [.sendSuccess]) (by simp)
      rw [hdisarmed] at hstill
      cases hstill
  · obtain rfl : rest = [] := by
      rw [List.length_append] at hle
      exact List.length_eq_zero_iff.1 (by omega)
    simp

end

end Engine

/-! ### The running poller -/

/-- Once the armed polls that were due are dispatched, those that are armed were so before, and are due later than
this began. -/
theorem successDue_operateOn {start : Nat} {engines : List Engine} {now : Nat} (hn : start ≤ now) :
    ∀ e ∈ (operateOn none .sendSuccess now engines).engines, ∀ due, e.successDue = some due →
      start < due ∧ ∃ e ∈ engines, e.successDue = some due := by
  induction engines generalizing now with
  | nil => simp [operateOn]
  | cons e engines ih =>
    have hfires := Engine.sendSuccess_fires { e with now }
    have hlater : now ≤ (Engine.sendSuccess { e with now }).now := by
      rcases hfires with ⟨heq, -⟩ | hfires
      · rw [heq]
      · exact hfires.now_le
    have hrest := ih (hn.trans hlater)
    intro e' he' due hdue
    change e' ∈ (Engine.sendSuccess { e with now }).takeLog.2 ::
      (operateOn none .sendSuccess (Engine.sendSuccess { e with now }).now engines).engines at he'
    rcases List.mem_cons.1 he' with rfl | he'
    · have hdue : (Engine.sendSuccess { e with now }).successDue = some due := hdue
      rcases hfires with ⟨heq, hlt⟩ | hfires
      · rw [heq] at hdue
        exact ⟨hn.trans_lt (hlt due hdue), e, List.mem_cons_self, hdue⟩
      · rw [hfires.disarmed] at hdue
        cases hdue
    · obtain ⟨hlt, e₀, he₀, hdue₀⟩ := hrest e' he' due hdue
      exact ⟨hlt, e₀, List.mem_cons_of_mem _ he₀, hdue₀⟩

namespace Poller

theorem engines_resolve (p : Poller) (ticket time : Nat) (result : SingleResult) :
    (p.resolve ticket time result).engines = p.engines := by
  unfold resolve
  split <;> rfl

theorem engines_notes (events : List Stamped) (p : Poller) : (events.foldl note p).engines = p.engines := by
  induction events generalizing p with
  | nil => rfl
  | cons s events ih =>
    rw [List.foldl_cons, ih]
    unfold note
    dsimp only
    split
    · exact engines_resolve ..
    · exact engines_resolve ..
    · rfl

theorem engines_complete {p : Poller} {w : Work} {bus : Option BusId} {operation : Operation}
    (hw : p.work = some w) (hc : w.command = .operate bus operation) :
    p.complete.engines = w.outcome.engines := by
  unfold complete
  simp only [hw, hc]
  exact engines_notes ..

/-- A chained poll that the loop waits for is armed on one of the engines. -/
theorem successDue_of_mem_alarms {p : Poller} {time : Nat} (h : (time, Alarm.chainedPoll) ∈ p.alarms) :
    ∃ e ∈ p.engines, e.successDue = some time := by
  unfold alarms at h
  rcases List.mem_append.1 h with h | h
  · simp at h
  · split at h
    · cases h
    · split at h
      · simp at h
      · rcases List.mem_append.1 h with h | h
        · simp at h
        · obtain ⟨e, he, hdue⟩ := List.mem_filterMap.1 h
          exact ⟨e, he, by simpa using hdue⟩

end Poller

/-! ### Every run -/

namespace Engine

/-- Where a delay is set and stays as it is, a poll of the list is dispatched only in a tick, or when the engine is
asked for the armed poll. Then it is the only one, nothing is awaited and the throttle is open; a frame has armed it,
the delay before or earlier, and it has been armed ever since. What one frame has armed is dispatched once. A poll
that is still armed after the engine was asked for it is not due, and nothing has happened; so when a running poller
has asked its engines, it waits for no poll that was due when it began. -/
theorem chained_polls (bus : BusId) (name : String) (reports : Bool) (settings : EngineSettings)
    (hd : settings.between ≠ 0) {ops : List Operation} (hops : ∀ op ∈ ops, op.KeepsBetween settings.between) :
    let start := Engine.new bus name reports settings
    let delay := settings.between
    (∀ before op after new, ops = before ++ op :: after →
      (start.run (before ++ [op])).log = new ++ (start.run before).log →
      (∃ s ∈ new, s.event.isPeriodic = true) →
        (∃ primary, op = .tick primary) ∨
        op = .sendSuccess ∧ (start.run before).wait = 0 ∧ (start.run before).schedule.canPoll = true ∧
          ∃ s, new.filter (·.event.isPeriodic) = [s] ∧
            ∃ earlier frame later time, before = earlier ++ .frame frame :: later ∧
              ArmedBy start delay earlier frame later time ∧ time + delay ≤ s.time) ∧
    (∀ earlier frame later after later' after' time time',
      ops = earlier ++ .frame frame :: (later ++ .sendSuccess :: after) →
      ops = earlier ++ .frame frame :: (later' ++ .sendSuccess :: after') →
      ArmedBy start delay earlier frame later time → ArmedBy start delay earlier frame later' time' →
      Shows (·.isPeriodic = true) (start.run (earlier ++ .frame frame :: later))
        (start.run (earlier ++ .frame frame :: (later ++ [.sendSuccess]))) →
      Shows (·.isPeriodic = true) (start.run (earlier ++ .frame frame :: later'))
        (start.run (earlier ++ .frame frame :: (later' ++ [.sendSuccess]))) → later = later') ∧
    (∀ (e : Engine) (due : Nat), (e.step .sendSuccess).successDue = some due →
      e.step .sendSuccess = e ∧ e.now < due) ∧
    ∀ (p : Poller) (begun : Nat) (engines : List Engine) (shown : Nat),
      p.work = some { Work.begin (.operate none .sendSuccess) begun engines with shown } →
      ∀ time, (time, Alarm.chainedPoll) ∈ p.complete.alarms →
        begun < time ∧ ∃ e ∈ engines, e.successDue = some time := by
  intro start delay
  refine ⟨?_, ?_, ?_, ?_⟩
  · intro before op after new hsplit hnew hper
    have hnext := @chaining_next start ops hd hops _ _ _ hsplit
    rcases hnext.polled ⟨new, hnew, hper⟩ with htick | ⟨rfl, hfires, hpolled, hw, hc⟩
    · exact .inl htick
    · obtain ⟨due, hdue, hle⟩ := hfires.due
      obtain ⟨later, s, hlog, hs, htime, hno⟩ := hpolled
      obtain rfl : new = later ++ [s] := by
        refine List.append_cancel_right (hnew.symm.trans (hlog.trans ?_))
        simp
      obtain ⟨earlier, frame, later', time, hbefore, harmed, rfl⟩ := @exists_armedBy start before hd
        (fun op hop => hops op (by simp [hsplit, hop])) rfl _ hdue
      refine .inr ⟨rfl, hw, hc, s, ?_, earlier, frame, later', time, hbefore, harmed, htime ▸ hle⟩
      rw [List.filter_append, List.filter_eq_nil_iff.2 (fun s' hs' => by simp [hno s' hs']), List.nil_append]
      simp [hs]
  · intro earlier frame later after later' after' time time' h h' harmed harmed' hs hs'
    rcases Nat.le_total later.length later'.length with hle | hle
    · exact @armedBy_once start ops hd hops _ _ _ _ _ _ _ _ h h' harmed hs harmed' hle
    · exact (@armedBy_once start ops hd hops _ _ _ _ _ _ _ _ h' h harmed' hs' harmed hle).symm
  · intro e due hdue
    rcases sendSuccess_fires e with ⟨heq, hlt⟩ | hfires
    · exact ⟨heq, hlt due ((congrArg Engine.successDue heq).symm.trans hdue)⟩
    · rw [show (e.step .sendSuccess).successDue = none from hfires.disarmed] at hdue
      cases hdue
  · intro p begun engines shown hw time htime
    obtain ⟨e, he, hdue⟩ := Poller.successDue_of_mem_alarms htime
    rw [Poller.engines_complete hw rfl] at he
    exact successDue_operateOn le_rfl e he time hdue

/-- The speed is asked for in a tick. Its answer arms the poll of the voltage, which is dispatched 100 ms later. -/
theorem chained_polls_example :
    let bus : BusId := ⟨1, by decide⟩
    let speed : PollEntry := ⟨0x7e0, 0x7e8, 0x22, 0xf40d, [], #v[1, 1, 1, 1], 1, .isoTp⟩
    let voltage : PollEntry := ⟨0x7e0, 0x7e8, 0x22, 0xf442, [], #v[1, 1, 1, 1], 1, .isoTp⟩
    let start := Engine.new bus "ecu" false ⟨0, 25, .strict, 0, 100⟩
    let before : List Operation := [.setList (some [speed, voltage]) none, .tick true,
      .frame (EcuFrame.single bus 0x7e8 [0x62, 0xf4, 0x0d, 0x30]), .elapse 100]
    periodicPolls (start.run (before ++ [.sendSuccess])).log = [(0, speed), (0, voltage)] ∧
      (start.run before).wait = 0 ∧
      ∃ earlier frame later time, before = earlier ++ .frame frame :: later ∧
        ArmedBy start 100 earlier frame later time := by
  intro bus speed voltage start before
  obtain ⟨new, hnew⟩ := (Grows.run (start.run before) [.sendSuccess]).log
  rw [← run_append] at hnew
  have hone : new.countP (·.event.isPeriodic) = 1 := by
    have hall : (start.run (before ++ [.sendSuccess])).log.countP (·.event.isPeriodic) =
        1 + (start.run before).log.countP (·.event.isPeriodic) := by decide
    rw [← hnew, List.countP_append] at hall
    exact Nat.add_right_cancel hall
  obtain ⟨hdispatch, -⟩ := @chained_polls bus "ecu" false ⟨0, 25, .strict, 0, 100⟩ (by decide)
    (before ++ [.sendSuccess]) (by simp [before, Operation.KeepsBetween])
  rcases hdispatch before .sendSuccess [] new rfl hnew.symm (List.countP_pos_iff.1 (by omega)) with
    ⟨_, htick⟩ | ⟨-, hw, -, s, -, earlier, frame, later, time, hbefore, harmed, -⟩
  · cases htick
  · exact ⟨by decide, hw, earlier, frame, later, time, hbefore, harmed⟩

end Engine

end EcuPoll
