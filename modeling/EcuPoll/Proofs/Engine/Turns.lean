import EcuPoll.Proofs.Engine.Works
import Mathlib.Logic.Relation

/-!
# Turns of an engine

What an engine does on its own account falls into turns: it counts a wait down, looks after the
channel, judges the result of a write, ends a single request, begins a pass, sends the next poll.
`Turn` lists them with what is known when each is taken. `pollSend`, `pollNext` and `settle` are
sequences of turns, so that what every turn keeps, they keep.
-/

namespace EcuPoll.Engine
variable {e e' e'' : Engine}

/-! ### Results -/

/-- Delivering a result touches the single request with its place in the list and the wait counter,
and reports something. -/
structure Delivers (e e' : Engine) : Prop where
  bus : e'.bus = e.bus
  now : e'.now = e.now
  job : e'.job = e.job
  active : e'.active = e.active
  out : e'.out = e.out
  channel : e'.channel = e.channel
  queued : e'.queued = e.queued
  results : e'.results = e.results
  log : Adds Event.IsReport e e'

theorem Delivers.refl (e : Engine) : Delivers e e :=
  ⟨rfl, rfl, rfl, rfl, rfl, rfl, rfl, rfl, .refl e⟩

theorem Delivers.emit (e : Engine) {event : Event} (hev : event.IsReport) :
    Delivers e (e.emit event) :=
  ⟨rfl, rfl, rfl, rfl, rfl, rfl, rfl, rfl, (Adds.refl e).emit hev⟩

theorem Delivers.finishSingle (e : Engine) (result : SingleResult) :
    Delivers e (e.finishSingle result) := by
  unfold Engine.finishSingle
  split
  · exact .refl e
  · exact ⟨rfl, rfl, rfl, rfl, rfl, rfl, rfl, rfl, [_], rfl, by simp [Event.IsReport]⟩

/-- What `deliverReply` does with a piece of a response: it reports it, or a single request gathers it until the
response is whole. -/
inductive Delivered (e : Engine) (data : List UInt8) : Engine → Prop
  | report (hs : e.single = none) : Delivered e data (e.emit (.reply e.job data e.job.mlRemain))
  | whole {capture : Capture} (hs : e.single = some capture) (hr : e.job.mlRemain = 0) :
    Delivered e data (e.finishSingle (.ok (capture.response ++ data)))
  | part {capture : Capture} (hs : e.single = some capture) (hr : e.job.mlRemain ≠ 0) :
    Delivered e data { e with single := some { capture with response := capture.response ++ data } }

theorem deliverReply_delivered (e : Engine) (data : List UInt8) : Delivered e data (e.deliverReply data) := by
  unfold deliverReply
  cases hs : e.single with
  | none => exact .report hs
  | some capture =>
    dsimp only
    by_cases hr : e.job.mlRemain = 0
    · rw [if_pos hr]
      exact .whole hs hr
    · rw [if_neg hr]
      exact .part hs hr

theorem Delivers.deliverReply (e : Engine) (data : List UInt8) :
    Delivers e (e.deliverReply data) := by
  have hd := deliverReply_delivered e data
  generalize e.deliverReply data = e' at hd ⊢
  cases hd with
  | report => exact .emit e trivial
  | whole => exact .finishSingle ..
  | part => exact ⟨rfl, rfl, rfl, rfl, rfl, rfl, rfl, rfl, .of_log rfl⟩

theorem Delivers.deliverFailure (e : Engine) (failure : PollFailure) :
    Delivers e (e.deliverFailure failure) := by
  unfold Engine.deliverFailure
  split
  · exact .emit e trivial
  · exact .finishSingle ..

theorem Delivers.expireSingle (e : Engine) : Delivers e e.expireSingle := by
  unfold Engine.expireSingle
  split
  · exact .refl e
  · split
    · exact .finishSingle ..
    · exact .refl e

/-! ### Requests over the channel -/

/-- How `startVwtp` begins: what the channel, just touched, is found to be, and what becomes of it. -/
inductive ChannelStart (e : Engine) (entry : PollEntry) : Engine → Prop
  | again (hc : e.channel.isFor entry.tx entry.rx = true) (hs : e.channel.state.isHalfOpen = true) :
    ChannelStart e entry e.requestSetup
  | request (hc : e.channel.isFor entry.tx entry.rx = true) (hs : e.channel.state.isHalfOpen = false) :
    ChannelStart e entry e.interrupt.sendRequest
  | close (hc : e.channel.isFor entry.tx entry.rx = false) (hs : e.channel.state ≠ .closed) :
    ChannelStart e entry e.requestClose
  | setup (hs : e.channel.state = .closed) (hr : entry.rx ≠ 0) :
    ChannelStart e entry e.requestSetup
  | nothing (hs : e.channel.state = .closed) (hr : entry.rx = 0) :
    ChannelStart e entry (e.deliverFailure .channelClosed)

theorem startVwtp_start (e : Engine) {entry : PollEntry} (hj : e.job.entry = some entry) :
    ChannelStart e.touchChannel entry e.startVwtp := by
  simp only [startVwtp, hj]
  by_cases hc : e.touchChannel.channel.isFor entry.tx entry.rx = true
  · rw [if_pos hc]
    by_cases hs : e.touchChannel.channel.state.isHalfOpen = true
    · rw [if_pos hs]
      exact .again hc hs
    · rw [if_neg hs]
      exact .request hc (by simpa using hs)
  · rw [if_neg hc]
    by_cases hs : e.touchChannel.channel.isOpen = true
    · rw [if_pos hs]
      exact .close (by simpa using hc) (by simpa [Channel.isOpen] using hs)
    · rw [if_neg hs]
      have hs : e.touchChannel.channel.state = .closed := by simpa [Channel.isOpen] using hs
      by_cases hr : entry.rx ≠ 0
      · rw [if_pos hr]
        exact .setup hs hr
      · rw [if_neg hr]
        exact .nothing hs (by simpa using hr)

/-! ### The next request -/

/-- What `sendNext` comes to: nothing while a response is awaited or a single request has the bus, else the single
request that is next in the queue, or the list, in which a primary tick may begin a pass. -/
inductive NextSent (e : Engine) (primary : Bool) : Engine → Prop
  | waits (hw : 0 < e.wait) : NextSent e primary e
  | held (hw : e.wait = 0) (hs : e.single.isSome = true) : NextSent e primary { e with active := false }
  | single {request : SingleRequest} {queued : List SingleRequest} (hw : e.wait = 0) (hs : e.single = none)
    (hq : e.queued = request :: queued) :
    NextSent e primary ({ e with active := false, queued }.startSingle request)
  | list {passed : Engine} (hw : e.wait = 0) (hs : e.single = none) (hq : e.queued = [])
    (hp : passed = { e with active := false } ∨ primary = true ∧ passed = { e with active := false }.startPass) :
    NextSent e primary (if passed.paused || !passed.schedule.canPoll then passed else passed.pollList)

theorem sendNext_sent (e : Engine) (primary : Bool) : NextSent e primary (e.sendNext primary) := by
  unfold sendNext
  by_cases hw : 0 < e.wait
  · rw [if_pos hw]
    exact .waits hw
  · rw [if_neg hw]
    have hw : e.wait = 0 := by omega
    dsimp only
    by_cases hs : e.single.isSome = true
    · rw [if_pos hs]
      exact .held hw hs
    · rw [if_neg hs]
      have hs : e.single = none := by simpa using hs
      split
      · exact .single hw hs ‹e.queued = _ :: _›
      · cases primary with
        | false => exact .list hw hs ‹e.queued = []› (.inl rfl)
        | true => exact .list hw hs ‹e.queued = []› (.inr ⟨rfl, rfl⟩)

/-! ### The queue of single requests -/

theorem queued_startVwtp (e : Engine) : e.startVwtp.queued = e.queued := by
  have h := (Works.refl e).touchChannel
  rcases hj : e.job.entry with _ | entry
  · simp only [startVwtp, hj]
  · have hst := startVwtp_start e hj
    generalize e.startVwtp = e' at hst ⊢
    cases hst with
    | again => exact h.requestSetup.queued
    | request => exact h.interrupt.sendRequest.queued
    | close => exact h.requestClose.queued
    | setup => exact h.requestSetup.queued
    | nothing => exact (Delivers.deliverFailure ..).queued.trans h.queued

theorem queued_dispatch (e : Engine) (entry : PollEntry) : (e.dispatch entry).queued = e.queued := by
  unfold dispatch
  split
  · exact queued_startVwtp _
  · exact (Works.refl _).startIsoTp.queued

theorem queued_startSingle (e : Engine) (request : SingleRequest) :
    (e.startSingle request).queued = e.queued := by
  unfold startSingle
  split
  · rfl
  · dsimp only
    split
    · exact queued_dispatch ..
    · exact (Delivers.finishSingle ..).queued

theorem queued_judgeResult (e : Engine) (frame : Frame) (success : Bool) :
    (e.judgeResult frame success).queued = e.queued := by
  have hf : e.failTransmission.queued = e.queued := by
    unfold failTransmission
    refine (Delivers.deliverFailure ..).queued.trans ?_
    dsimp only
    split <;> rfl
  unfold judgeResult
  split
  · rfl
  · dsimp only [reportSent, emit]
    split <;> split <;> first | rfl | exact hf

theorem queued_judgeResults (e : Engine) : e.judgeResults.queued = e.queued := by
  have h : ∀ (results : List (Frame × Bool)) (e : Engine),
      (results.foldl (fun e r => e.judgeResult r.1 r.2) e).queued = e.queued := by
    intro results
    induction results with
    | nil => intro e; rfl
    | cons r results ih => intro e; exact (ih _).trans (queued_judgeResult ..)
  exact h e.results _

/-- What the report of each refused request keeps is kept when all are refused. -/
theorem refuseQueued_keeps {P : Engine → Prop} (hq : P { e with queued := [] })
    (hemit : ∀ e' ticket, P e' → P (e'.emit (.singleResolved ticket (.error .unavailable)))) : P e.refuseQueued := by
  have hfold : ∀ (queued : List SingleRequest) (e' : Engine), P e' →
      P (queued.foldl (fun e r => e.emit (.singleResolved r.ticket (.error .unavailable))) e') := by
    intro queued
    induction queued with
    | nil => exact fun _ h => h
    | cons r queued ih => exact fun _ h => ih _ (hemit _ _ h)
  exact hfold e.queued _ hq

/-! ### Turns -/

/-- One turn of an engine, with what is known when it is taken. -/
inductive Turn (e : Engine) : Engine → Prop
  /-- A primary tick counts the wait down. -/
  | count : Turn e { e with wait := e.wait - 1 }
  /-- A wait that began just now does not run out. -/
  | grace (hw : e.wait = 1) : Turn e { e with wait := 2 }
  | shut (hw : 0 < e.wait) (hs : e.channel.state.isHalfOpen = true) : Turn e e.shutChannel
  /-- The channel that had to be closed first is gone, and the poll is brought onto its own. -/
  | reopen (hs : e.channel.state = .closed) (hj : e.isOnChannel = true) : Turn e e.startVwtp
  | close (hw : e.wait = 0) (hs : e.channel.state ≠ .closed) : Turn e e.requestClose
  | expire : Turn e e.expireSingle
  | release (hw : e.wait = 0) : Turn e { e with active := false }
  | single {request : SingleRequest} {queued : List SingleRequest} (hs : e.single = none)
      (hq : e.queued = request :: queued) : Turn e ({ e with queued }.startSingle request)
  | pass (hw : e.wait = 0) (hs : e.single = none) (hq : e.queued = []) : Turn e e.startPass
  | poll (hw : e.wait = 0) (hs : e.single = none) (hq : e.queued = []) (hp : e.paused = false)
      (hc : e.schedule.canPoll = true) : Turn e e.pollList
  /-- The delay before the poll that follows a response begins. -/
  | arm (due : Nat) : Turn e { e with successDue := some due }
  /-- The results of writes are taken to be judged. -/
  | take : Turn e { e with results := [] }
  | fail (hw : 0 < e.wait) (ha : e.active = true) : Turn e e.failTransmission
  | sent (success : Bool) (ha : e.active = true) (hs : e.single = none) :
    Turn e (e.reportSent success)

/-- A sequence of turns. -/
abbrev Turns : Engine → Engine → Prop := Relation.ReflTransGen Turn

theorem channel_shutChannel (e : Engine) : e.shutChannel.channel.state = .closed := by
  unfold shutChannel
  split
  · assumption
  · rfl

theorem state_requestClose (e : Engine) : e.requestClose.channel.state = .closing := by
  unfold requestClose
  split
  · assumption
  · rw [transmit_eq]

theorem single_failTransmission (hs : e.single = none) : e.failTransmission.single = none := by
  unfold failTransmission
  split <;> simp [deliverFailure, loseChannel, emit, hs]

theorem active_failTransmission (e : Engine) : e.failTransmission.active = e.active := by
  unfold failTransmission
  refine (Delivers.deliverFailure ..).active.trans ?_
  dsimp only
  split <;> rfl

namespace Turns

theorem refl (e : Engine) : Turns e e := Relation.ReflTransGen.refl

theorem turn (h : Turns e e') (h' : Turn e' e'') : Turns e e'' := Relation.ReflTransGen.tail h h'

theorem timeOutChannel (h : Turns e e') : Turns e e'.timeOutChannel := by
  have hshut : 0 < e'.wait → e'.channel.state.isHalfOpen = true → Turns e e'.shutChannel :=
    fun hw hs => h.turn (.shut hw hs)
  unfold Engine.timeOutChannel
  by_cases hw : 0 < e'.wait
  · rw [if_pos hw]
    cases hs : e'.channel.state with
    | setup | params => exact hshut hw (by rw [hs]; rfl)
    | closing =>
      have hshut := hshut hw (by rw [hs]; rfl)
      dsimp only
      by_cases hj : e'.shutChannel.isOnChannel = true
      · rw [if_pos hj]
        exact hshut.turn (.reopen (channel_shutChannel e') hj)
      · rw [if_neg hj]
        exact hshut
    | _ => exact h
  · rw [if_neg hw]
    by_cases hs : e'.channel.state ≠ .closed ∧ e'.channel.state ≠ .idle
    · rw [if_pos hs]
      exact h.turn (.close (by omega) hs.1)
    · rw [if_neg hs]
      exact h

theorem closeUnused (h : Turns e e') : Turns e e'.closeUnused := by
  unfold Engine.closeUnused
  by_cases hc : (e'.channel.state = .idle && e'.wait = 0 && e'.keepalive ≠ 0 &&
      e'.channel.unusedFor e'.now e'.keepalive) = true
  · rw [if_pos hc]
    exact h.turn (.close (by simp_all) (by simp_all))
  · rw [if_neg hc]
    exact h

theorem keepChannel (h : Turns e e') : Turns e e'.keepChannel := by
  unfold Engine.keepChannel
  by_cases hw : (e'.wait = 1 && e'.channel.usedWithin e'.now waitGrace) = true
  · rw [if_pos hw]
    exact h.turn (.grace (by simp_all))
  · rw [if_neg hw]
    exact h.timeOutChannel.closeUnused

theorem countDown (h : Turns e e') : Turns e e'.countDown :=
  (h.turn .count).keepChannel.turn .expire

theorem pollList (h : Turns e e') (hw : e'.wait = 0) (hs : e'.single = none) (hq : e'.queued = []) :
    Turns e (if e'.paused || !e'.schedule.canPoll then e' else e'.pollList) := by
  by_cases hc : (e'.paused || !e'.schedule.canPoll) = true
  · rw [if_pos hc]
    exact h
  · rw [if_neg hc]
    simp only [Bool.or_eq_true, Bool.not_eq_true', not_or, Bool.not_eq_true, Bool.not_eq_false] at hc
    exact h.turn (.poll hw hs hq hc.1 hc.2)

theorem sendNext (h : Turns e e') (primary : Bool) : Turns e (e'.sendNext primary) := by
  have hsent := sendNext_sent e' primary
  generalize e'.sendNext primary = e'' at hsent ⊢
  cases hsent with
  | waits => exact h
  | held hw => exact h.turn (.release hw)
  | single hw hs hq => exact (h.turn (.release hw)).turn (.single hs hq)
  | list hw hs hq hp =>
    have hr := h.turn (.release hw)
    rcases hp with rfl | ⟨-, rfl⟩
    · exact hr.pollList hw hs hq
    · refine (hr.turn (.pass hw hs hq)).pollList ?_ ?_ ?_ <;>
        (unfold Engine.startPass; dsimp only; split <;> assumption)

theorem pollSend (h : Turns e e') (primary : Bool) : Turns e (e'.pollSend primary) := by
  unfold Engine.pollSend
  split
  · exact h.countDown.sendNext primary
  · exact h.sendNext primary

theorem pollNext (h : Turns e e') (hw : e'.wait = 0) : Turns e e'.pollNext := by
  have hr := h.turn (.release hw)
  unfold Engine.pollNext
  dsimp only
  split
  · exact hr
  · split
    · exact hr.pollSend false
    · exact hr.turn (.arm _)

theorem judgeResult (h : Turns e e') (frame : Frame) (success : Bool) :
    Turns e (e'.judgeResult frame success) := by
  unfold Engine.judgeResult
  by_cases hc : (e'.wait = 0 || !e'.active || frame.id != e'.job.txId) = true
  · rw [if_pos hc]
    exact h
  · rw [if_neg hc]
    have hw : 0 < e'.wait := by simp at hc; omega
    have ha : e'.active = true := by simp_all
    have hsent : ∀ e'', Turns e e'' → e''.active = true → (e'.single = none → e''.single = none) →
        Turns e (if e'.single.isNone then e''.reportSent success else e'') := by
      intro e'' h'' ha'' hs''
      by_cases hs : e'.single.isNone = true
      · rw [if_pos hs]
        exact h''.turn (.sent success ha'' (hs'' (by simpa using hs)))
      · rw [if_neg hs]
        exact h''
    cases success with
    | true => exact hsent e' h ha id
    | false =>
      exact hsent _ (h.turn (.fail hw ha)) ((active_failTransmission e').trans ha)
        single_failTransmission

theorem judgeEach (h : Turns e e') (results : List (Frame × Bool)) :
    Turns e (results.foldl (fun e r => e.judgeResult r.1 r.2) e') := by
  induction results generalizing e' with
  | nil => exact h
  | cons r results ih => exact ih (h.judgeResult ..)

theorem judgeResults (h : Turns e e') : Turns e e'.judgeResults :=
  (h.turn .take).judgeEach _

theorem startQueued (queued : List SingleRequest) (h : Turns e e'.judgeResults)
    (hq : e'.queued = queued) : Turns e (Engine.startQueued queued e') := by
  induction queued generalizing e' with
  | nil => exact h
  | cons request queued ih =>
    unfold Engine.startQueued
    dsimp only
    by_cases hs : e'.judgeResults.single.isSome = true
    · rw [if_pos hs]
      exact h
    · rw [if_neg hs]
      refine ih (h.turn (.single (by simpa using hs) ?_)).judgeResults ?_
      · exact (queued_judgeResults e').trans hq
      · exact queued_startSingle ..

/-- First of all the results of writes are judged. -/
theorem judged_settle (e : Engine) : Turns e.judgeResults e.settle := startQueued _ (refl _) rfl

theorem settle (h : Turns e e') : Turns e e'.settle :=
  Relation.ReflTransGen.trans h.judgeResults (judged_settle e')

end Turns

end EcuPoll.Engine
