import EcuPoll.Proofs.Engine.Conclusions
import EcuPoll.Proofs.Engine.Expiry

/-!
# A channel that is neither open nor closed

A channel that is being set up or closed is given up by a primary tick once it has not been used for
`waitGrace`: `timeOutChannel` closes it when its wait runs out, and asks for that when there is no wait. But a
channel that is being closed is not asked to close again. If its wait has been taken away, by a new list or
by another poll, the channel is `Stuck`: the tick leaves it as it is, and polls for other modules wait for it
without a request for a channel of their own, unless a poll of the channel's own module comes first and opens it
anew (`Redials`). All other channels leave their state in the tick: `leaves_iff`.
-/

namespace EcuPoll

/-- The channel is on its way from closed to open, or back. -/
def ChannelState.isPassing : ChannelState → Bool
  | .setup | .params | .closing => true
  | _ => false

/-- A poll of the module of this channel begins. -/
def Event.Redials (c : Channel) : Event → Prop
  | .dispatched entry _ _ => entry.protocol = .vwtp20 ∧ c.isFor entry.tx entry.rx = true
  | _ => False

theorem Event.IsReport.not_redials {c : Channel} {event : Event} (h : event.IsReport) : ¬ event.Redials c := by
  cases event <;> first | exact id | exact h.elim

theorem Event.IsWork.not_redials {c : Channel} {event : Event} (h : event.IsWork) : ¬ event.Redials c := by
  cases event <;> first | exact id | exact h.elim

namespace Engine
variable {e e' e'' : Engine}

/-- The channel is being closed, and nothing counts down to the end of that. -/
def Stuck (e : Engine) : Prop :=
  e.channel.state = .closing ∧ e.wait ≤ 1

instance (e : Engine) : Decidable e.Stuck :=
  inferInstanceAs (Decidable (_ ∧ _))

/-- The engine in the course of a primary tick: the wait has been counted down, the channel has been looked
after, a single request may have expired, the next poll may have been sent, and all results of writes have
been looked at. -/
def tickPoints (e : Engine) : List Engine :=
  [e.begin, e.begin.keepChannel, e.begin.keepChannel.expireSingle,
    e.begin.keepChannel.expireSingle.sendNext true, e.step (.tick true)]

/-- At some point of a primary tick the channel is not in its state any more. -/
def LeavesState (e : Engine) : Prop :=
  ∃ p ∈ e.tickPoints, p.channel.state ≠ e.channel.state

/-- In a primary tick, a poll of the channel's own module begins. -/
def RedialsInTick (e : Engine) : Prop :=
  Shows (Event.Redials e.channel) e (e.step (.tick true))

/-! ### What looking after the channel does -/

/-- A channel that has not been used just now gets no more time. -/
theorem keepChannel_unused (hu : e.channel.usedWithin e.now waitGrace = false) :
    e.keepChannel = e.timeOutChannel.closeUnused := by
  unfold keepChannel
  rw [if_neg (by simp [hu])]

theorem closeUnused_passing (hs : e.channel.state ≠ .idle) : e.closeUnused = e := by
  unfold closeUnused
  rw [if_neg (by simp [hs])]

/-- A channel that is being set up is given up, or asked to close. -/
theorem keepChannel_coming (hs : e.channel.state = .setup ∨ e.channel.state = .params)
    (hu : e.channel.usedWithin e.now waitGrace = false) :
    e.keepChannel = if 0 < e.wait then e.shutChannel else e.requestClose := by
  have htime : e.timeOutChannel = if 0 < e.wait then e.shutChannel else e.requestClose := by
    unfold timeOutChannel
    rcases hs with hs | hs <;> simp [hs]
  rw [keepChannel_unused hu, htime]
  split
  · exact closeUnused_passing (by simp [channel_shutChannel])
  · exact closeUnused_passing (by simp [state_requestClose])

theorem state_requestSetup {entry : PollEntry} (he : e.job.entry = some entry) (hj : e.job.isVwtp = true) :
    e.requestSetup.channel.state = .setup := by
  unfold requestSetup
  rw [he]
  dsimp only
  by_cases hs : (e.channel.state = .setup || !e.job.isVwtp) = true
  · rw [if_pos hs]
    exact (by simpa [hj] using hs)
  · rw [if_neg hs]
    rw [channel_transmit]
    rfl

theorem isVwtp_requestSetup (e : Engine) : e.requestSetup.job.isVwtp = e.job.isVwtp := by
  unfold requestSetup
  cases e.job.entry with
  | none => rfl
  | some entry =>
    dsimp only
    split
    · rfl
    · obtain ⟨_, _, _, _, heq⟩ :=
        expectOnChannel_eq_update { e with channel := e.channel.request entry.tx entry.rx }
      rw [transmit_eq, heq]
      rfl

/-- A poll whose channel has been shut asks for it anew, or ends. -/
theorem state_startVwtp_shut (hc : e.channel = .shut) (hj : e.job.isVwtp = true) :
    e.startVwtp.channel.state = .closed ∨ e.startVwtp.channel.state = .setup := by
  have hclosed : e.touchChannel.channel.state = .closed := by
    simp [touchChannel, hc, Channel.touch, Channel.shut]
  cases he : e.job.entry with
  | none =>
    have heq : e.startVwtp = e := by simp only [startVwtp, he]
    rw [heq, hc]
    exact .inl rfl
  | some entry =>
    rw [startVwtp_shut hc he]
    split
    · exact .inr (state_requestSetup (e := e.touchChannel) he hj)
    · rw [(Delivers.deliverFailure ..).channel]
      exact .inl hclosed

/-- A channel whose time to close has run out is gone, and the poll that waited for that is brought onto its
own. -/
theorem keepChannel_closing (hs : e.channel.state = .closing) (hw : 0 < e.wait)
    (hu : e.channel.usedWithin e.now waitGrace = false) :
    e.keepChannel = (if e.isOnChannel then e.shutChannel.startVwtp else e.shutChannel) ∧
      (e.keepChannel.channel.state = .closed ∨ e.keepChannel.channel.state = .setup) := by
  have htime : e.timeOutChannel = if e.isOnChannel then e.shutChannel.startVwtp else e.shutChannel := by
    unfold timeOutChannel
    rw [if_pos hw, hs]
    dsimp only
    rw [isOnChannel_shutChannel_eq]
  have hstate : e.timeOutChannel.channel.state = .closed ∨ e.timeOutChannel.channel.state = .setup := by
    rw [htime]
    by_cases hj : e.isOnChannel = true
    · rw [if_pos hj]
      refine state_startVwtp_shut (channel_shutChannel_eq (by simp [hs])) ?_
      rw [job_shutChannel]
      exact (Bool.and_eq_true_iff.1 hj).2
    · rw [if_neg hj]
      exact .inl (channel_shutChannel e)
  have hkeep : e.keepChannel = e.timeOutChannel := by
    rw [keepChannel_unused hu]
    exact closeUnused_passing (by rcases hstate with h | h <;> simp [h])
  rw [hkeep]
  exact ⟨htime, hstate⟩

/-- Without a wait, a channel that is being closed is left alone. -/
theorem keepChannel_stuck (hs : e.channel.state = .closing) (hw : e.wait = 0) : e.keepChannel = e :=
  keepChannel_not_rearms hw (by simp [Rearms, hs])

/-! ### What a poll makes of a closed channel -/

theorem channel_startIsoTp (e : Engine) : e.startIsoTp.channel = e.channel := by
  unfold startIsoTp
  split
  · rfl
  · dsimp only
    rw [channel_transmit]

theorem isVwtp_startIsoTp (e : Engine) : e.startIsoTp.job.isVwtp = e.job.isVwtp := by
  unfold startIsoTp
  split
  · rfl
  · dsimp only
    rw [transmit_eq]
    unfold isoTpIds
    split <;> rfl

theorem isVwtp_assign (e : Engine) (entry : PollEntry) :
    (e.assign entry).job.isVwtp = (entry.protocol == .vwtp20) := rfl

/-- The channel is gone, or it has been asked for by the poll in flight, which no single request waits
behind. -/
def Renewed (e : Engine) : Prop :=
  e.channel.state = .closed ∨
    e.channel.state = .setup ∧ e.job.isVwtp = true ∧ (e.single.isSome = true ∨ e.queued = [])

namespace Renewed

theorem state_ne (h : e.Renewed) : e.channel.state ≠ .closing := by
  rcases h with hs | ⟨hs, -⟩ <;> simp [hs]

theorem requestSetup {entry : PollEntry} (he : e.job.entry = some entry) (hj : e.job.isVwtp = true)
    (hq : e.single.isSome = true ∨ e.queued = []) : e.requestSetup.Renewed := by
  have hw := (Works.refl e).requestSetup
  refine .inr ⟨state_requestSetup he hj, ?_, ?_⟩
  · rw [isVwtp_requestSetup]
    exact hj
  · rw [hw.single, hw.queued]
    exact hq

theorem dispatch (hs : e.channel.state = .closed) (hq : e.single.isSome = true ∨ e.queued = [])
    (entry : PollEntry) : (e.dispatch entry).Renewed := by
  unfold Engine.dispatch
  cases hp : entry.protocol with
  | vwtp20 =>
    have he : (e.assign entry).touchChannel.job.entry = some entry := rfl
    have hv : (e.assign entry).touchChannel.job.isVwtp = true := by
      show (e.assign entry).job.isVwtp = true
      rw [isVwtp_assign, hp]
      rfl
    have hst := startVwtp_start (e.assign entry) he
    have hsc : (e.assign entry).touchChannel.channel.state = .closed := hs
    generalize (e.assign entry).startVwtp = e' at hst ⊢
    cases hst with
    | again => exact requestSetup he hv hq
    | request _ hopen =>
      rw [hsc] at hopen
      cases hopen
    | close _ hopen => exact absurd hsc hopen
    | setup => exact requestSetup he hv hq
    | nothing =>
      refine .inl ?_
      rw [(Delivers.deliverFailure ..).channel]
      exact hsc
  | _ =>
    refine .inl ?_
    rw [channel_startIsoTp]
    exact hs

theorem startSingle (hs : e.channel.state = .closed) (request : SingleRequest) :
    (e.startSingle request).Renewed := by
  unfold Engine.startSingle
  split
  · exact .inl hs
  · dsimp only
    split
    · exact dispatch (e := (e.capture request).advance) hs (.inl rfl) _
    · refine .inl ?_
      rw [(Delivers.finishSingle ..).channel]
      exact hs

/-- If the write of a poll that has asked for the channel fails, the channel is gone. -/
theorem judgeResult (h : e.Renewed) (frame : Frame) (success : Bool) : (e.judgeResult frame success).Renewed := by
  have hfail : e.failTransmission.Renewed := by
    refine .inl ?_
    unfold failTransmission
    rw [(Delivers.deliverFailure ..).channel]
    rcases h with hs | ⟨-, hv, -⟩
    · split
      · rfl
      · exact hs
    · rw [if_pos hv]
      rfl
  unfold Engine.judgeResult
  split
  · exact h
  · dsimp only
    split <;> split <;> first | exact h | exact hfail

end Renewed

/-! ### While the channel is stuck -/

/-- The channel `c` is still being closed, no poll of its module has begun since `e`, and nothing will end it: no
wait runs, or one that is not the channel's. -/
structure Jams (c : Channel) (e e' : Engine) : Prop where
  state : e'.channel.state = .closing
  isFor : ∀ baseId moduleId, e'.channel.isFor baseId moduleId = c.isFor baseId moduleId
  wait : e'.wait = 0 ∨ e'.job.isVwtp = false
  log : Adds (¬ Event.Redials c ·) e e'

/-- The channel is jammed, or a poll of its module has begun and it is renewed. -/
def Wedged (c : Channel) (e e' : Engine) : Prop :=
  Jams c e e' ∨ Shows (Event.Redials c) e e' ∧ e'.Renewed

section Wedged
variable {c : Channel}

namespace Jams

theorem congr (h : Jams c e e') (hc : e''.channel = e'.channel)
    (hw : e''.wait = 0 ∨ e''.wait = e'.wait ∧ e''.job.isVwtp = e'.job.isVwtp)
    (hl : Adds (¬ Event.Redials c ·) e' e'') : Jams c e e'' where
  state := by rw [hc]; exact h.state
  isFor := by rw [hc]; exact h.isFor
  wait := by
    rcases hw with hw | ⟨hw, hj⟩
    · exact .inl hw
    · rw [hw, hj]; exact h.wait
  log := h.log.trans hl

theorem delivers (h : Jams c e e') (hd : Delivers e' e'') (hw : e''.wait = 0) : Jams c e e'' :=
  h.congr hd.channel (.inl hw) (hd.log.mono fun _ => Event.IsReport.not_redials)

theorem expireSingle (h : Jams c e e') : Jams c e e'.expireSingle := by
  unfold Engine.expireSingle
  cases hs : e'.single with
  | none => exact h
  | some _ =>
    dsimp only
    split
    · refine h.delivers (.finishSingle ..) ?_
      exact (Relays.finishSingle_ends e' _ (by rw [hs]; rfl)).2
    · exact h

/-- A write fails only for a poll that has nothing to do with the channel. -/
theorem judgeResult (h : Jams c e e') (frame : Frame) (success : Bool) :
    Jams c e (e'.judgeResult frame success) := by
  by_cases hj : e'.Judges frame
  · have hv : e'.job.isVwtp = false := h.wait.resolve_left (Nat.ne_of_gt hj.1)
    have hfail : Jams c e e'.failTransmission := by
      unfold failTransmission
      rw [if_neg (by simp [hv])]
      have hzero : Jams c e { e' with wait := 0 } := h.congr rfl (.inl rfl) (.of_log rfl)
      exact hzero.delivers (.deliverFailure ..) ((Relays.failure _).wait rfl)
    have hjudged : Jams c e (if success then e' else e'.failTransmission) := by
      split
      · exact h
      · exact hfail
    unfold Engine.judgeResult
    rw [if_neg (by simp [hj.2.1, hj.2.2]; exact Nat.ne_of_gt hj.1)]
    dsimp only
    split
    · exact hjudged.congr rfl (.inr ⟨rfl, rfl⟩) ⟨[_], rfl, List.forall_mem_singleton.2 id⟩
    · exact hjudged
  · rw [judgeResult_unjudged hj]
    exact h

end Jams

namespace Wedged

theorem shows_iff (h : Wedged c e e') : Shows (Event.Redials c) e e' ↔ e'.channel.state ≠ .closing := by
  rcases h with h | ⟨hs, hr⟩
  · exact iff_of_false (fun hs => hs.not_adds (fun _ => not_not_intro) h.log) (not_not_intro h.state)
  · exact iff_of_true hs hr.state_ne

theorem judgeResults (h : Wedged c e e') : Wedged c e e'.judgeResults := by
  have hfold : ∀ (results : List (Frame × Bool)) (e'' : Engine), Wedged c e e'' →
      Wedged c e (results.foldl (fun e r => e.judgeResult r.1 r.2) e'') := by
    intro results
    induction results with
    | nil => exact fun _ h => h
    | cons r results ih =>
      intro e'' h
      refine ih _ (h.imp (·.judgeResult ..) fun ⟨hs, hr⟩ => ⟨hs.grows ?_, hr.judgeResult ..⟩)
      exact (Grows.turns ((Turns.refl e'').judgeResult ..)).log
  refine hfold _ _ (h.imp (·.congr rfl (.inr ⟨rfl, rfl⟩) (.of_log rfl)) id)

end Wedged

/-- A poll begins while the channel is jammed. -/
theorem Jams.dispatch (h : Jams c e e') (hw : e'.wait = 0) (hq : e'.single.isSome = true ∨ e'.queued = [])
    (entry : PollEntry) : Wedged c e (e'.dispatch entry) := by
  by_cases hp : entry.protocol = .vwtp20
  · rw [dispatch_vwtp hp]
    have he : (e'.assign entry).touchChannel.job.entry = some entry := rfl
    have hv : (e'.assign entry).touchChannel.job.isVwtp = true := by
      show (e'.assign entry).job.isVwtp = true
      rw [isVwtp_assign, hp]
      rfl
    have hst := startVwtp_start (e'.assign entry) he
    have hsc : (e'.assign entry).touchChannel.channel.state = .closing := h.state
    have hfor : (e'.assign entry).touchChannel.channel.isFor entry.tx entry.rx = c.isFor entry.tx entry.rx :=
      h.isFor ..
    generalize (e'.assign entry).startVwtp = e'' at hst ⊢
    cases hst with
    | again hagain =>
      obtain ⟨new, hnew, -⟩ := (Works.refl (e'.assign entry).touchChannel).requestSetup.log
      have hredials : Event.Redials c (.dispatched entry e'.schedule.ticker e'.singleTicket) :=
        ⟨hp, hfor.symm.trans hagain⟩
      obtain ⟨old, hold, -⟩ := h.log
      refine .inr ⟨.of_grows ⟨old, hold.symm⟩ ((Shows.emit e' hredials).grows ⟨new, hnew.symm⟩), ?_⟩
      exact .requestSetup he hv hq
    | request _ hopen =>
      rw [hsc] at hopen
      cases hopen
    | close hother =>
      -- asked to close once more, the channel does not notice
      rw [requestClose_closing hsc]
      have hno : ¬ Event.Redials c (.dispatched entry e'.schedule.ticker e'.singleTicket) := fun hr => by
        rw [hfor, hr.2] at hother
        cases hother
      exact .inl ⟨hsc, h.isFor, .inl hw, (h.log.trans (.of_log rfl)).emit hno⟩
    | setup hs => exact absurd (hsc.symm.trans hs) (by nofun)
    | nothing hs => exact absurd (hsc.symm.trans hs) (by nofun)
  · rw [dispatch_isoTp hp]
    have hchannel : (e'.assign entry).startIsoTp.channel = e'.channel := channel_startIsoTp _
    have hv : (e'.assign entry).startIsoTp.job.isVwtp = false := by
      rw [isVwtp_startIsoTp, isVwtp_assign]
      simpa using hp
    have hno : ¬ Event.Redials c (.dispatched entry e'.schedule.ticker e'.singleTicket) := fun hr => hp hr.1
    have hlog := (Works.refl (e'.assign entry)).startIsoTp.log.mono (Q := (¬ Event.Redials c ·))
      fun _ => Event.IsWork.not_redials
    refine .inl ⟨?_, ?_, .inr hv, ((h.log.trans (.of_log rfl)).emit hno).trans hlog⟩ <;> rw [hchannel]
    · exact h.state
    · exact h.isFor

theorem Jams.startSingle (h : Jams c e e') (request : SingleRequest) : Wedged c e (e'.startSingle request) := by
  unfold Engine.startSingle
  split
  · exact .inl (h.congr rfl (.inr ⟨rfl, rfl⟩) ((Adds.refl e').emit id))
  · have hc : Jams c e (e'.capture request).advance :=
      h.congr rfl (.inl rfl) (((Adds.of_log rfl).emit id).trans (.of_log rfl))
    dsimp only
    split
    · exact hc.dispatch rfl (.inl rfl) _
    · exact .inl (hc.delivers (.finishSingle ..) rfl)

theorem Jams.pollList (h : Jams c e e') (hw : e'.wait = 0) (hq : e'.queued = []) : Wedged c e e'.pollList := by
  have ha : Jams c e e'.advance := h.congr rfl (.inl hw) (.of_log rfl)
  unfold Engine.pollList
  split
  · exact ha.dispatch hw (.inr hq) _
  · split
    · exact .inl ha
    · exact .inl (ha.congr rfl (.inl hw) ((Adds.refl _).emit id))
  · exact .inl ha

theorem Jams.startPass (h : Jams c e e') (hw : e'.wait = 0) : Jams c e e'.startPass := by
  unfold Engine.startPass
  dsimp only
  split
  · exact h.congr rfl (.inl hw) ⟨[_], rfl, List.forall_mem_singleton.2 id⟩
  · exact h.congr rfl (.inl hw) (.of_log rfl)

theorem queued_startPass (e : Engine) : e.startPass.queued = e.queued := by
  unfold startPass
  dsimp only
  split <;> rfl

/-- The next poll. -/
theorem Jams.sendNext (h : Jams c e e') (primary : Bool) : Wedged c e (e'.sendNext primary) := by
  have hlist : ∀ e'', Jams c e e'' → e''.wait = 0 → e''.queued = [] →
      Wedged c e (if e''.paused || !e''.schedule.canPoll then e'' else e''.pollList) := by
    intro e'' h hw hq
    split
    · exact .inl h
    · exact h.pollList hw hq
  have hr (hw : e'.wait = 0) : Jams c e { e' with active := false } := h.congr rfl (.inl hw) (.of_log rfl)
  have hsent := sendNext_sent e' primary
  generalize e'.sendNext primary = e'' at hsent ⊢
  cases hsent with
  | waits => exact .inl h
  | held hw => exact .inl (hr hw)
  | @single request queued hw =>
    have htake : Jams c e { e' with active := false, queued } := (hr hw).congr rfl (.inl hw) (.of_log rfl)
    exact htake.startSingle request
  | list hw _ hq hp =>
    rcases hp with rfl | ⟨-, rfl⟩
    · exact hlist _ (hr hw) hw hq
    · exact hlist _ ((hr hw).startPass hw) ((wait_startPass _).trans hw) ((queued_startPass _).trans hq)

theorem Wedged.settle (h : Wedged c e e') : Wedged c e e'.settle := by
  have hqueue : ∀ (queued : List SingleRequest) (e'' : Engine), Wedged c e e'' → e''.queued = queued →
      Wedged c e (startQueued queued e'') := by
    intro queued
    induction queued with
    | nil => exact fun e'' h _ => h.judgeResults
    | cons request queued ih =>
      intro e'' h hq
      have hj := h.judgeResults
      have hq' : e''.judgeResults.queued = request :: queued := (queued_judgeResults e'').trans hq
      unfold startQueued
      dsimp only
      by_cases hs : e''.judgeResults.single.isSome = true
      · rw [if_pos hs]
        exact hj
      · rw [if_neg hs]
        have hs : e''.judgeResults.single = none := by simpa using hs
        refine ih _ ?_ (queued_startSingle ..)
        rcases hj with hj | ⟨hshows, hr⟩
        · exact (show Jams c e { e''.judgeResults with queued } from
            hj.congr rfl (.inr ⟨rfl, rfl⟩) (.of_log rfl)).startSingle request
        · -- a poll that asks for the channel would have the bus
          have hc : e''.judgeResults.channel.state = .closed := hr.resolve_right fun h => by
            simp [hs, hq'] at h
          have hg := (Grows.turns ((Turns.refl e''.judgeResults).turn (.single hs hq'))).log
          exact .inr ⟨hshows.grows hg, .startSingle (e := { e''.judgeResults with queued }) hc request⟩
  exact hqueue _ _ h rfl

end Wedged

/-! ### A primary tick -/

theorem begin_jams (h : e.Stuck) : Jams e.channel e e.begin where
  state := h.1
  isFor _ _ := rfl
  wait := .inl (Nat.sub_eq_zero_of_le h.2)
  log := ⟨[_], rfl, List.forall_mem_singleton.2 id⟩

/-- A channel that is not stuck is in another state once it has been looked after. -/
theorem not_stuck_leaves (hs : e.channel.state.isPassing = true)
    (hu : e.channel.usedWithin e.now waitGrace = false) (hn : ¬ e.Stuck) :
    e.begin.keepChannel.channel.state ≠ e.channel.state := by
  have hu : e.begin.channel.usedWithin e.begin.now waitGrace = false := hu
  by_cases hc : e.channel.state = .closing
  · have hw : 0 < e.begin.wait := by
      have : ¬ e.wait ≤ 1 := fun hw => hn ⟨hc, hw⟩
      show 0 < e.wait - 1
      omega
    rw [hc]
    rcases (keepChannel_closing (e := e.begin) hc hw hu).2 with h | h <;> simp [h]
  · have hcoming : e.begin.channel.state = .setup ∨ e.begin.channel.state = .params := by
      show e.channel.state = _ ∨ e.channel.state = _
      cases hstate : e.channel.state <;> simp_all [ChannelState.isPassing]
    have hne : e.channel.state ≠ .closed := by
      show e.begin.channel.state ≠ .closed
      rcases hcoming with h | h <;> simp [h]
    rw [keepChannel_coming hcoming hu]
    split
    · rw [channel_shutChannel]
      exact hne.symm
    · rw [state_requestClose]
      exact Ne.symm hc

/-- A channel that is being set up or closed and has not been used for `waitGrace` leaves its state in a primary
tick, unless it is stuck and no poll of its own module comes. If its time to close has run out it is shut, and a poll
that waited for that asks for its own channel. -/
theorem leaves_iff (hs : e.channel.state.isPassing = true)
    (hu : e.channel.usedWithin e.now waitGrace = false) :
    (e.LeavesState ↔ ¬ e.Stuck ∨ e.RedialsInTick) ∧
      (e.channel.state = .closing → ¬ e.Stuck → e.begin.keepChannel =
        if e.isOnChannel then e.begin.shutChannel.startVwtp else e.begin.shutChannel) := by
  have hstep : e.step (.tick true) = (e.begin.keepChannel.expireSingle.sendNext true).settle := rfl
  refine ⟨?_, fun hc hn => ?_⟩
  · by_cases hn : e.Stuck
    · have hbegin := begin_jams hn
      have hkeep : Jams e.channel e e.begin.keepChannel := by
        rw [keepChannel_stuck (e := e.begin) hn.1 (Nat.sub_eq_zero_of_le hn.2)]
        exact hbegin
      have hsend := hkeep.expireSingle.sendNext true
      have hend : Wedged e.channel e (e.step (.tick true)) := hstep ▸ hsend.settle
      have hgrows : (e.begin.keepChannel.expireSingle.sendNext true).log <:+ (e.step (.tick true)).log :=
        hstep ▸ (Grows.turns (Turns.refl _).settle).log
      rw [or_iff_right (not_not_intro hn)]
      refine ⟨fun ⟨p, hp, hne⟩ => ?_, fun hr => ⟨e.step (.tick true), by simp [tickPoints], ?_⟩⟩
      · rw [hn.1] at hne
        simp only [tickPoints, List.mem_cons, List.not_mem_nil, or_false] at hp
        rcases hp with rfl | rfl | rfl | rfl | rfl
        · exact absurd hbegin.state hne
        · exact absurd hkeep.state hne
        · exact absurd hkeep.expireSingle.state hne
        · exact (hsend.shows_iff.2 hne).grows hgrows
        · exact hend.shows_iff.2 hne
      · rw [hn.1]
        exact hend.shows_iff.1 hr
    · exact iff_of_true ⟨e.begin.keepChannel, by simp [tickPoints], not_stuck_leaves hs hu hn⟩ (.inl hn)
  · have hw : 0 < e.begin.wait := by
      have : ¬ e.wait ≤ 1 := fun hw => hn ⟨hc, hw⟩
      show 0 < e.wait - 1
      omega
    exact (keepChannel_closing (e := e.begin) hc hw hu).1

/-- A channel is being opened when a poll of another module asks for it to close. Both its wait and the answer of
its module are slow in coming. -/
theorem leaves_example :
    let bus : BusId := ⟨1, by decide⟩
    let first : PollEntry := ⟨0x200, 1, 0x22, 0xf190, [], #v[1, 1, 1, 1], 1, .vwtp20⟩
    let second : PollEntry := ⟨0x200, 2, 0x22, 0xf191, [], #v[1, 1, 1, 1], 1, .vwtp20⟩
    let e := (Engine.new bus "ecu" false ⟨0, 25, .strict, 0, 0⟩).run
      [.setList (some [first]) none, .tick true, .setList (some [second]) none, .tick false, .elapse 1000]
    (e.channel.state.isPassing = true ∧ e.channel.usedWithin e.now waitGrace = false) ∧ e.LeavesState ∧
      (e.step (.tick true)).channel.state = .setup := by
  intro bus first second e
  have hs : e.channel.state.isPassing = true := by decide
  have hu : e.channel.usedWithin e.now waitGrace = false := by decide
  exact ⟨⟨hs, hu⟩, (leaves_iff hs hu).1.2 (.inl (by decide)), by decide⟩

/-- The list is installed once more, which ends the wait for the channel to close. From then on every tick chooses
the poll of the other module, and no frame is written for it. -/
theorem not_leaves_example :
    let bus : BusId := ⟨1, by decide⟩
    let first : PollEntry := ⟨0x200, 1, 0x22, 0xf190, [], #v[1, 1, 1, 1], 1, .vwtp20⟩
    let second : PollEntry := ⟨0x200, 2, 0x22, 0xf191, [], #v[1, 1, 1, 1], 1, .vwtp20⟩
    let e := (Engine.new bus "ecu" false ⟨0, 25, .strict, 0, 0⟩).run
      [.setList (some [first]) none, .tick true, .setList (some [second]) none, .tick false,
        .setList (some [second]) none, .elapse 1000]
    let later := e.run [.tick true, .elapse 1000, .tick true, .elapse 1000, .tick true]
    e.channel.state = .closing ∧ e.channel.usedWithin e.now waitGrace = false ∧
      (∀ p ∈ e.tickPoints, p.channel.state = .closing) ∧ later.channel.state = .closing ∧
      writes later.log = writes e.log ∧ (later.takeLog.1.countP (·.event.isDispatch)) = 5 := by
  decide

end Engine

end EcuPoll
