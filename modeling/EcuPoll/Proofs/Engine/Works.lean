import EcuPoll.Engine.Operation

/-!
# Work on the line

Most of what an engine does is work on the line: frames are written, time passes, and the poll in
flight, its request and the channel move on. Such work leaves the poll list, the single requests and
the settings alone, and all it reports is the frames that it writes. `Works e e'` says this of an
engine before and after; the lemmas below say it of each function of the transports. Leave to go on with
a response (`sendFlowControl`) is no work of this kind.
-/

namespace EcuPoll

/-- A frame handed to the bus. -/
def Event.IsWrite : Event → Prop
  | .wrote _ _ _ => True
  | _ => False

/-- A frame handed to the bus, other than leave to go on with a response. -/
def Event.IsWork : Event → Prop
  | .wrote kind _ _ => kind ≠ .flowControl
  | _ => False

/-- Neither a write nor the dispatch of a poll. -/
def Event.IsReport : Event → Prop
  | .wrote _ _ _ | .dispatched _ _ _ => False
  | _ => True

namespace Engine
variable {P Q : Event → Prop} {e e' e'' : Engine}

/-- All events of `e` are in the log of `e'`, and the later ones satisfy `P`. -/
def Adds (P : Event → Prop) (e e' : Engine) : Prop :=
  ∃ new, e'.log = new ++ e.log ∧ ∀ s ∈ new, P s.event

theorem Adds.of_log (h : e'.log = e.log) : Adds P e e' := ⟨[], by simp [h]⟩

theorem Adds.refl (e : Engine) : Adds P e e := .of_log rfl

theorem Adds.trans (h : Adds P e e') (h' : Adds P e' e'') : Adds P e e'' := by
  obtain ⟨new, hnew, hP⟩ := h
  obtain ⟨new', hnew', hP'⟩ := h'
  refine ⟨new' ++ new, by rw [hnew', hnew, List.append_assoc], fun s hs => ?_⟩
  rcases List.mem_append.1 hs with hs | hs
  · exact hP' s hs
  · exact hP s hs

theorem Adds.split (h : Adds P e e'') (hg : e.log <:+ e'.log) (hg' : e'.log <:+ e''.log) :
    Adds P e e' ∧ Adds P e' e'' := by
  obtain ⟨new, hnew, hall⟩ := h
  obtain ⟨first, hfirst⟩ := hg
  obtain ⟨second, hsecond⟩ := hg'
  have heq : new = second ++ first := by
    refine List.append_cancel_right (hnew.symm.trans ?_)
    rw [← hsecond, ← hfirst, List.append_assoc]
  rw [heq, List.forall_mem_append] at hall
  exact ⟨⟨first, hfirst.symm, hall.2⟩, second, hsecond.symm, hall.1⟩

theorem Adds.suffix (h : Adds P e e') : e.log <:+ e'.log :=
  let ⟨new, hnew, _⟩ := h
  ⟨new, hnew.symm⟩

theorem Adds.mono (h : Adds P e e') (hPQ : ∀ event, P event → Q event) : Adds Q e e' :=
  let ⟨new, hnew, hP⟩ := h
  ⟨new, hnew, fun s hs => hPQ _ (hP s hs)⟩

theorem Adds.emit {event : Event} (h : Adds P e e') (hev : P event) : Adds P e (e'.emit event) :=
  h.trans ⟨[⟨e'.now, event⟩], rfl, by simpa using hev⟩

/-- Only the ids of the poll in flight change. -/
theorem expectOnChannel_eq_update (e : Engine) : ∃ txId sent low high,
    e.expectOnChannel = { e with job := { e.job with txId, sent, low, high } } := by
  unfold expectOnChannel
  split <;> exact ⟨_, _, _, _, rfl⟩

theorem channel_expectOnChannel (e : Engine) : e.expectOnChannel.channel = e.channel := by
  obtain ⟨_, _, _, _, heq⟩ := expectOnChannel_eq_update e
  rw [heq]

theorem out_expectOnChannel (e : Engine) : e.expectOnChannel.out = e.out := by
  obtain ⟨_, _, _, _, heq⟩ := expectOnChannel_eq_update e
  rw [heq]

theorem log_expectOnChannel (e : Engine) : e.expectOnChannel.log = e.log := by
  obtain ⟨_, _, _, _, heq⟩ := expectOnChannel_eq_update e
  rw [heq]

/-- Work on the line: see the head of this module. -/
structure Works (e e' : Engine) : Prop where
  bus : e'.bus = e.bus
  reports : e'.reports = e.reports
  schedule : e'.schedule = e.schedule
  single : e'.single = e.single
  queued : e'.queued = e.queued
  paused : e'.paused = e.paused
  policy : e'.policy = e.policy
  septime : e'.septime = e.septime
  keepalive : e'.keepalive = e.keepalive
  between : e'.between = e.between
  successDue : e'.successDue = e.successDue
  log : Adds Event.IsWork e e'

namespace Works

theorem refl (e : Engine) : Works e e :=
  ⟨rfl, rfl, rfl, rfl, rfl, rfl, rfl, rfl, rfl, rfl, rfl, .refl e⟩

theorem trans (h : Works e e') (h' : Works e' e'') : Works e e'' where
  bus := h'.bus.trans h.bus
  reports := h'.reports.trans h.reports
  schedule := h'.schedule.trans h.schedule
  single := h'.single.trans h.single
  queued := h'.queued.trans h.queued
  paused := h'.paused.trans h.paused
  policy := h'.policy.trans h.policy
  septime := h'.septime.trans h.septime
  keepalive := h'.keepalive.trans h.keepalive
  between := h'.between.trans h.between
  successDue := h'.successDue.trans h.successDue
  log := h.log.trans h'.log

/-- The poll in flight, its request, the channel, the clock and the wire move on. -/
theorem update (h : Works e e') (now : Nat) (line : Line) (job : PollJob) (active : Bool) (wait : Nat)
    (out : Outbound) (channel : Channel) (results : List (Frame × Bool)) :
    Works e { e' with now, line, job, active, wait, out, channel, results } :=
  h.trans ⟨rfl, rfl, rfl, rfl, rfl, rfl, rfl, rfl, rfl, rfl, rfl, .of_log rfl⟩

theorem transmit (h : Works e e') {kind : FrameKind} (hk : kind ≠ .flowControl) (frame : Frame) :
    Works e (e'.transmit kind frame) := by
  refine h.trans ?_
  rw [transmit_eq]
  exact ⟨rfl, rfl, rfl, rfl, rfl, rfl, rfl, rfl, rfl, rfl, rfl,
    ⟨[_], rfl, by simpa [Event.IsWork] using hk⟩⟩

theorem pause (h : Works e e') (us : Nat) : Works e (e'.pause us) :=
  h.update (e'.now + (us + 999) / 1000) e'.line e'.job e'.active e'.wait e'.out e'.channel e'.results

/-! ### The channel -/

theorem expectOnChannel (h : Works e e') : Works e e'.expectOnChannel := by
  unfold Engine.expectOnChannel
  split
  · exact h.update ..
  · exact h

theorem touchChannel (h : Works e e') : Works e e'.touchChannel := h.update ..

theorem loseChannel (h : Works e e') : Works e e'.loseChannel := h.update ..

theorem shutChannel (h : Works e e') : Works e e'.shutChannel := by
  unfold Engine.shutChannel
  split
  · exact h
  · exact h.loseChannel

theorem requestSetup (h : Works e e') : Works e e'.requestSetup := by
  unfold Engine.requestSetup
  split
  · exact h
  · split
    · exact h
    · exact ((h.update ..).expectOnChannel.update ..).transmit (by nofun) _

theorem requestParams (h : Works e e') : Works e e'.requestParams := by
  unfold Engine.requestParams
  split
  · exact h
  · exact (h.expectOnChannel.update ..).transmit (by nofun) _

theorem requestClose (h : Works e e') : Works e e'.requestClose := by
  unfold Engine.requestClose
  split
  · exact h
  · exact (h.expectOnChannel.update ..).transmit (by nofun) _

theorem goIdle (h : Works e e') : Works e e'.goIdle := by
  unfold Engine.goIdle
  split
  · exact h
  · exact h.update ..

theorem awaitResponse (h : Works e e') : Works e e'.awaitResponse := by
  unfold Engine.awaitResponse
  split
  · exact h
  · exact h.update ..

theorem sendFrame (header : List UInt8) (left : Nat) (h : Works e e') :
    Works e (e'.sendFrame header left) :=
  (h.update ..).transmit (by nofun) _

theorem sendFrames (header : List UInt8) (left : Nat) (h : Works e e') :
    Works e (Engine.sendFrames header left e') := by
  induction left generalizing e' with
  | zero => exact h
  | succ left ih =>
    unfold Engine.sendFrames
    dsimp only
    split
    · exact h.sendFrame header left
    · exact ih (h.sendFrame header left)

theorem awaitAck (h : Works e e') : Works e e'.awaitAck := h.expectOnChannel.update ..

theorem sendBlock (h : Works e e') : Works e e'.sendBlock := by
  unfold Engine.sendBlock
  split
  · exact h
  · exact (h.sendFrames _ _).awaitAck

theorem sendRequest (h : Works e e') : Works e e'.sendRequest := by
  unfold Engine.sendRequest
  split
  · exact h
  · exact (h.update ..).sendBlock

theorem abortTransfer (h : Works e e') : Works e e'.abortTransfer := by
  unfold Engine.abortTransfer
  exact (((h.update ..).expectOnChannel).update ..).transmit (by nofun) _

theorem sendPong (h : Works e e') : Works e e'.sendPong := h.transmit (by nofun) _

theorem sendAck (h : Works e e') : Works e e'.sendAck := h.transmit (by nofun) _

theorem refuseData (h : Works e e') : Works e e'.refuseData := (h.update ..).transmit (by nofun) _

theorem interrupt (h : Works e e') : Works e e'.interrupt := by
  unfold Engine.interrupt
  split
  · exact h.abortTransfer
  · exact h.abortTransfer.pause _
  · exact h

/-! ### ISO-TP -/

theorem startIsoTp (h : Works e e') : Works e e'.startIsoTp := by
  unfold Engine.startIsoTp
  split
  · exact h
  · exact (h.update ..).transmit (by nofun) _

theorem sendConsecutive (target : UInt32) (h : Works e e') : Works e (e'.sendConsecutive target) :=
  (h.update ..).transmit (by nofun) _

theorem burst (target : UInt32) (delay count : Nat) (h : Works e e') :
    Works e (Engine.burst target delay count e') := by
  induction count generalizing e' with
  | zero => exact h
  | succ count ih =>
    unfold Engine.burst
    split
    · exact h
    · dsimp only
      split
      · exact h.sendConsecutive target
      · exact ih ((h.sendConsecutive target).pause delay)

theorem isoTpFlow (id : UInt32) (command blockSize septime : UInt8) (h : Works e e') :
    Works e (e'.isoTpFlow id command blockSize septime) := by
  unfold Engine.isoTpFlow
  split
  · exact h
  · split
    · exact h
    · exact h.update ..
    · exact h.update ..
    · dsimp only
      split
      · exact (h.burst ..).update ..
      · exact h.burst ..

theorem rejectResponse (h : Works e e') : Works e e'.rejectResponse := h.update ..

end Works

end Engine

end EcuPoll
