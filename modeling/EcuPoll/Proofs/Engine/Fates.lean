import EcuPoll.Proofs.Engine.Course
import EcuPoll.Proofs.Engine.Ownership
import EcuPoll.Proofs.Engine.Routes

/-!
# The single request that has the bus

What an engine does on its own account may end the single request that has the bus and start another, but
it takes nothing for a response. `Same` says that a response in progress stays as it is or breaks off; every
function of the transports but those that take a frame of a response is of this kind. `Fate` says what becomes
of the single request over any number of turns (`Turns.fate`).
-/

namespace EcuPoll

/-- The entry names no module, so that all it does is to close the channel. -/
def PollEntry.ClosesOnly (entry : PollEntry) : Prop :=
  entry.protocol = .vwtp20 ∧ entry.rx = 0

/-- A request or its response is under way on the channel. -/
def ChannelState.isTransfer : ChannelState → Bool
  | .transmit | .receive => true
  | _ => false

/-- Which poll is in flight, and where its response stands. -/
def PollJob.place (j : PollJob) : (Option PollEntry × Protocol × UInt8 × UInt16) × UInt32 × UInt16 × UInt16 :=
  (j.asked, j.received, j.mlFrame, j.mlRemain)

/-- The single request that the event answers, and the data. -/
def Event.answer? : Event → Option (Nat × List UInt8)
  | .singleResolved ticket (.ok data) => some (ticket, data)
  | _ => none

theorem Event.eq_of_answer? {event : Event} {ticket : Nat} {data : List UInt8}
    (h : event.answer? = some (ticket, data)) : event = .singleResolved ticket (.ok data) := by
  cases event with
  | singleResolved _ result =>
    cases result with
    | ok =>
      cases h
      rfl
    | error => cases h
  | _ => cases h

/-- Of a list of one entry no other is handed out. -/
theorem Schedule.eq_of_due {s : Schedule} {entry entry' : PollEntry} {defaultBus : Option BusId}
    (h : (s.setList (some [entry]) defaultBus).next.1 = .due entry') : entry' = entry := by
  have hout := next_handout (s.setList (some [entry]) defaultBus)
  rcases hn : (s.setList (some [entry]) defaultBus).next with ⟨poll, s'⟩
  rw [hn] at hout h
  cases h
  cases hout with
  | due hd =>
    have hdrop : entry' ∈ (s.setList (some [entry]) defaultBus).entries.drop
        (s.setList (some [entry]) defaultBus).cursor := by
      rw [hd]
      exact List.mem_append_right _ (List.mem_cons_self ..)
    have hmem : entry' ∈ trimList [entry] := List.mem_of_mem_drop hdrop
    exact List.mem_singleton.1 ((List.takeWhile_sublist _).subset hmem)

namespace Engine
variable {e e' e'' : Engine}

/-- A part of the response to the poll in flight has come in, and more of it would be taken. -/
def ExpectsMore (e : Engine) : Prop :=
  if e.job.isVwtp then e.channel.state.isTransfer = true ∧ e.job.mlFrame ≠ 0 else e.job.mlRemain ≠ 0

theorem expectsMore_isoTp (hj : e.job.isVwtp = false) : e.ExpectsMore ↔ e.job.mlRemain ≠ 0 := by
  unfold ExpectsMore
  rw [if_neg (by rw [hj]; decide)]

theorem expectsMore_vwtp (hj : e.job.isVwtp = true) :
    e.ExpectsMore ↔ e.channel.state.isTransfer = true ∧ e.job.mlFrame ≠ 0 := by
  unfold ExpectsMore
  rw [if_pos hj]

theorem not_expectsMore (hf : e.job.mlFrame = 0) (hr : e.job.mlRemain = 0) : ¬ e.ExpectsMore := by
  unfold ExpectsMore
  split
  · exact fun h => h.2 hf
  · exact not_not_intro hr

theorem isVwtp_of_asked (h : e'.job.asked = e.job.asked) : e'.job.isVwtp = e.job.isVwtp :=
  congrArg (·.2.1 == .vwtp20) h

/-- The number of the frame with which a response is to go on. -/
def nextNumber (e : Engine) : Nat :=
  if e.job.isVwtp then e.channel.rxSeq.toNat % 16 else e.job.mlFrame.toNat % 16

theorem nextNumber_isoTp (hj : e.job.isVwtp = false) : e.nextNumber = e.job.mlFrame.toNat % 16 := by
  unfold nextNumber
  rw [if_neg (by rw [hj]; decide)]

theorem nextNumber_vwtp (hj : e.job.isVwtp = true) : e.nextNumber = e.channel.rxSeq.toNat % 16 := by
  unfold nextNumber
  rw [if_pos hj]

/-! ### What takes no part of a response -/

/-- Without a transfer there is nothing to end. -/
theorem interrupt_still (hs : e.channel.state.isTransfer = false) : e.interrupt = e := by
  unfold interrupt
  split <;> simp_all [ChannelState.isTransfer]

/-- A response was in progress, and it is where it was. -/
structure Continues (e e' : Engine) : Prop where
  more : e.ExpectsMore
  mlRemain : e'.job.mlRemain = e.job.mlRemain
  received : e'.job.received = e.job.received
  number : e'.nextNumber = e.nextNumber

theorem Continues.trans (h : Continues e e') (h' : Continues e' e'') : Continues e e'' where
  more := h.more
  mlRemain := h'.mlRemain.trans h.mlRemain
  received := h'.received.trans h.received
  number := h'.number.trans h.number

/-- The poll in flight stays, and a response that goes on is where it was. -/
structure Same (e e' : Engine) : Prop where
  single : e'.single = e.single
  queued : e'.queued = e.queued
  asked : e'.job.asked = e.job.asked
  more : e'.ExpectsMore → Continues e e'
  log : Adds (fun event => event.isSingle = false) e e'

theorem place_sendFrames (header : List UInt8) (left : Nat) (e : Engine) :
    (Engine.sendFrames header left e).job.place = e.job.place := by
  induction left generalizing e with
  | zero => rfl
  | succ left ih =>
    have hone : (e.sendFrame header left).job = e.job := by
      unfold sendFrame
      rw [transmit_eq]
    unfold Engine.sendFrames
    dsimp only
    split
    · rw [hone]
    · rw [ih, hone]

theorem place_expectOnChannel (e : Engine) : e.expectOnChannel.job.place = e.job.place := by
  obtain ⟨_, _, _, _, heq⟩ := expectOnChannel_eq_update e
  rw [heq]
  rfl

theorem place_sendBlock (e : Engine) : e.sendBlock.job.place = e.job.place := by
  unfold sendBlock
  split
  · rfl
  · exact (place_expectOnChannel _).trans (place_sendFrames ..)

theorem rxSeq_sendFrames (header : List UInt8) (left : Nat) (e : Engine) :
    (Engine.sendFrames header left e).channel.rxSeq = e.channel.rxSeq := by
  induction left generalizing e with
  | zero => rfl
  | succ left ih =>
    have hone : (e.sendFrame header left).channel.rxSeq = e.channel.rxSeq := by
      unfold sendFrame
      rw [transmit_eq]
    unfold Engine.sendFrames
    dsimp only
    split
    · exact hone
    · exact (ih _).trans hone

theorem rxSeq_sendBlock (e : Engine) : e.sendBlock.channel.rxSeq = e.channel.rxSeq := by
  unfold sendBlock
  split
  · rfl
  · exact (congrArg Channel.rxSeq (channel_expectOnChannel _)).trans (rxSeq_sendFrames ..)

theorem job_burst (target : UInt32) (delay count : Nat) (e : Engine) :
    (Engine.burst target delay count e).job = e.job := by
  induction count generalizing e with
  | zero => rfl
  | succ count ih =>
    have hone : (e.sendConsecutive target).job = e.job := by
      unfold sendConsecutive
      rw [transmit_eq]
    unfold Engine.burst
    split
    · rfl
    · dsimp only
      split
      · exact hone
      · rw [ih, pause]
        exact hone

theorem job_isoTpFlow (e : Engine) (id : UInt32) (command blockSize septime : UInt8) :
    (e.isoTpFlow id command blockSize septime).job = e.job := by
  have hb := job_burst (e.isoTpTarget id) (separationDelay septime) (e.allowedFrames blockSize) e
  unfold isoTpFlow
  split
  · rfl
  · split
    · rfl
    · rfl
    · rfl
    · dsimp only
      split <;> exact hb

theorem asked_abortTransfer (e : Engine) : e.abortTransfer.job.asked = e.job.asked := by
  unfold abortTransfer
  dsimp only
  rw [transmit_eq]
  exact congrArg (·.1) (place_expectOnChannel _)

theorem not_more_abortTransfer (e : Engine) : ¬ e.abortTransfer.ExpectsMore := by
  have hrem : e.abortTransfer.job.mlRemain = 0 := by
    unfold abortTransfer
    dsimp only
    rw [transmit_eq]
  unfold ExpectsMore
  split
  · rw [state_abortTransfer]
    exact fun h => absurd h.1 (by decide)
  · exact not_not_intro hrem

namespace Same

theorem refl (e : Engine) : Same e e := ⟨rfl, rfl, rfl, fun hm => ⟨hm, rfl, rfl, rfl⟩, .refl e⟩

theorem trans (h : Same e e') (h' : Same e' e'') : Same e e'' where
  single := h'.single.trans h.single
  queued := h'.queued.trans h.queued
  asked := h'.asked.trans h.asked
  more hm := (h.more (h'.more hm).more).trans (h'.more hm)
  log := h.log.trans h'.log

theorem isVwtp (h : Same e e') : e'.job.isVwtp = e.job.isVwtp := isVwtp_of_asked h.asked

/-- Work on the line that breaks a response off. -/
theorem of_done (hw : Works e e') (ha : e'.job.asked = e.job.asked) (hm : ¬ e'.ExpectsMore) : Same e e' :=
  ⟨hw.single, hw.queued, ha, fun h => absurd h hm,
    hw.log.mono fun event hev => by cases event <;> first | rfl | exact hev.elim⟩

/-- Work on the line that leaves the place in the response alone. -/
theorem of_place (hw : Works e e') (hp : e'.job.place = e.job.place)
    (ht : e'.channel.state.isTransfer = true →
      e.channel.state.isTransfer = true ∧ e'.channel.rxSeq = e.channel.rxSeq) : Same e e' := by
  obtain ⟨ha, hrest⟩ := Prod.mk.inj hp
  obtain ⟨hrec, hrest⟩ := Prod.mk.inj hrest
  obtain ⟨hframe, hrem⟩ := Prod.mk.inj hrest
  refine ⟨hw.single, hw.queued, ha, fun hm => ?_,
    hw.log.mono fun event hev => by cases event <;> first | rfl | exact hev.elim⟩
  have hv' := isVwtp_of_asked ha
  cases hv : e.job.isVwtp with
  | true =>
    rw [expectsMore_vwtp (hv'.trans hv), hframe] at hm
    refine ⟨(expectsMore_vwtp hv).2 ⟨(ht hm.1).1, hm.2⟩, hrem, hrec, ?_⟩
    rw [nextNumber_vwtp (hv'.trans hv), nextNumber_vwtp hv, (ht hm.1).2]
  | false =>
    rw [expectsMore_isoTp (hv'.trans hv), hrem] at hm
    refine ⟨(expectsMore_isoTp hv).2 hm, hrem, hrec, ?_⟩
    rw [nextNumber_isoTp (hv'.trans hv), nextNumber_isoTp hv, hframe]

theorem of_eq (hs : e'.single = e.single) (hq : e'.queued = e.queued) (hj : e'.job = e.job)
    (hc : e'.channel = e.channel) (hl : e'.log = e.log) : Same e e' := by
  have hnumber : e'.nextNumber = e.nextNumber := by rw [nextNumber, hj, hc, nextNumber]
  refine ⟨hs, hq, by rw [hj], fun hm => ⟨?_, by rw [hj], by rw [hj], hnumber⟩, .of_log hl⟩
  unfold ExpectsMore at hm ⊢
  rwa [hj, hc] at hm

theorem update (h : Same e e') (now : Nat) (line : Line) (active : Bool) (wait : Nat) (out : Outbound)
    (results : List (Frame × Bool)) : Same e { e' with now, line, active, wait, out, results } :=
  h.trans (.of_eq rfl rfl rfl rfl rfl)

/-! ### The channel -/

theorem touchChannel (e : Engine) : Same e e.touchChannel :=
  of_place (Works.refl e).touchChannel rfl fun h => ⟨h, rfl⟩

theorem loseChannel (e : Engine) : Same e e.loseChannel :=
  of_place (Works.refl e).loseChannel rfl fun h => by cases h

theorem shutChannel (e : Engine) : Same e e.shutChannel := by
  unfold Engine.shutChannel
  split
  · exact refl e
  · exact loseChannel e

theorem requestSetup (e : Engine) : Same e e.requestSetup := by
  have hw := (Works.refl e).requestSetup
  unfold Engine.requestSetup at hw ⊢
  cases he : e.job.entry with
  | none => exact refl e
  | some entry =>
    rw [he] at hw
    by_cases hs : (e.channel.state = .setup || !e.job.isVwtp) = true
    · simp only [if_pos hs]
      exact refl e
    · simp only [if_neg hs]
      simp only [if_neg hs] at hw
      rw [transmit_eq] at hw ⊢
      exact of_place hw (place_expectOnChannel _) fun h => by cases h

theorem requestParams (e : Engine) : Same e e.requestParams := by
  have hw := (Works.refl e).requestParams
  unfold Engine.requestParams at hw ⊢
  by_cases hs : e.channel.state = .params
  · rw [if_pos hs]
    exact refl e
  · rw [if_neg hs]
    rw [if_neg hs] at hw
    rw [transmit_eq] at hw ⊢
    exact of_place hw (place_expectOnChannel e) fun h => by cases h

theorem requestClose (e : Engine) : Same e e.requestClose := by
  have hw := (Works.refl e).requestClose
  unfold Engine.requestClose at hw ⊢
  by_cases hs : e.channel.state = .closing
  · rw [if_pos hs]
    exact refl e
  · rw [if_neg hs]
    rw [if_neg hs] at hw
    rw [transmit_eq] at hw ⊢
    exact of_place hw (place_expectOnChannel e) fun h => by cases h

theorem goIdle (e : Engine) : Same e e.goIdle := by
  have hw := (Works.refl e).goIdle
  unfold Engine.goIdle at hw ⊢
  by_cases hs : e.channel.state = .idle
  · rw [if_pos hs]
    exact refl e
  · rw [if_neg hs]
    rw [if_neg hs] at hw
    exact of_place hw rfl fun h => by cases h

theorem awaitResponse (hs : e.channel.state.isTransfer = true) : Same e e.awaitResponse := by
  have hw := (Works.refl e).awaitResponse
  unfold Engine.awaitResponse at hw ⊢
  by_cases hs' : e.channel.state = .receive
  · rw [if_pos hs']
    exact refl e
  · rw [if_neg hs']
    rw [if_neg hs'] at hw
    exact of_place hw rfl fun _ => ⟨hs, rfl⟩

theorem sendBlock (hs : e.channel.state.isTransfer = true) : Same e e.sendBlock :=
  of_place (Works.refl e).sendBlock (place_sendBlock e) fun _ => ⟨hs, rxSeq_sendBlock e⟩

theorem sendRequest (e : Engine) : Same e e.sendRequest := by
  have hw := (Works.refl e).sendRequest
  unfold Engine.sendRequest at hw ⊢
  cases he : e.job.entry with
  | none => exact refl e
  | some entry =>
    rw [he] at hw
    dsimp only at hw
    have hp := place_sendBlock { e with
      out := .load entry.payload 0 (payloadLimit entry.header)
      job := e.job.resetMultiframe }
    obtain ⟨ha, hrest⟩ := Prod.mk.inj hp
    obtain ⟨hrec, hrest⟩ := Prod.mk.inj hrest
    obtain ⟨hframe, hrem⟩ := Prod.mk.inj hrest
    exact of_done hw ha (not_expectsMore hframe hrem)

theorem abortTransfer (e : Engine) : Same e e.abortTransfer :=
  of_done (Works.refl e).abortTransfer (asked_abortTransfer e) (not_more_abortTransfer e)

theorem transmit (e : Engine) {kind : FrameKind} (hk : kind ≠ .flowControl) (frame : Frame) :
    Same e (e.transmit kind frame) := by
  have hw := (Works.refl e).transmit hk frame
  rw [transmit_eq] at hw ⊢
  exact of_place hw rfl fun h => ⟨h, rfl⟩

theorem sendPong (e : Engine) : Same e e.sendPong := transmit e (by decide) _

theorem refuseData (hs : e.channel.state.isTransfer = false) : Same e e.refuseData := by
  have hc : Same e { e with channel := { e.channel with rxSeq := e.channel.rxSeq + 1 } } :=
    of_place ((Works.refl e).update ..) rfl fun h => absurd (hs.symm.trans h) (by decide)
  exact hc.trans (transmit _ (by decide) _)

theorem interrupt (e : Engine) : Same e e.interrupt := by
  unfold Engine.interrupt
  split
  · exact abortTransfer e
  · exact (abortTransfer e).update (e.abortTransfer.pause _).now _ _ _ _ _
  · exact refl e

/-! ### ISO-TP -/

theorem startIsoTp (e : Engine) : Same e e.startIsoTp := by
  have hw := (Works.refl e).startIsoTp
  unfold Engine.startIsoTp at hw ⊢
  cases he : e.job.entry with
  | none => exact refl e
  | some entry =>
    dsimp only
    rw [he] at hw
    dsimp only at hw
    have ha (job : PollJob) : (isoTpIds job entry).asked = job.asked := by
      unfold isoTpIds
      split <;> rfl
    rw [transmit_eq] at hw ⊢
    exact of_done hw (ha e.job) (not_expectsMore rfl rfl)

theorem isoTpFlow (e : Engine) (id : UInt32) (command blockSize septime : UInt8) :
    Same e (e.isoTpFlow id command blockSize septime) := by
  refine of_place ((Works.refl e).isoTpFlow ..) (by rw [job_isoTpFlow]) fun h => ?_
  rw [channel_isoTpFlow] at h ⊢
  exact ⟨h, rfl⟩

theorem rejectResponse (e : Engine) : Same e e.rejectResponse :=
  of_place (Works.refl e).rejectResponse rfl fun h => ⟨h, rfl⟩

end Same

/-! ### Turns -/

/-- The poll in flight is that of the single request that has the bus, and one that only closes the channel has no
response. -/
structure Serving (e : Engine) : Prop where
  asks : ∀ capture, e.single = some capture → e.job.Asks capture.request.entry
  nothing : ∀ capture, e.single = some capture → capture.request.entry.ClosesOnly → capture.response = []

/-- A request that waited starts. -/
def Started (request : SingleRequest) (e e' : Engine) : Prop :=
  request ∈ e.queued ∧ Shows (fun event => event = .singleStarted request.ticket) e e'

/-- A single request is answered with this data. -/
def Answers (ticket : Nat) (data : List UInt8) : Engine → Engine → Prop :=
  Shows fun event => event = .singleResolved ticket (.ok data)

theorem answers_of_findSome? {ticket : Nat} {data : List UInt8} (hg : e.log <:+ e'.log)
    (h : e.log.findSome? (·.event.answer?) = none)
    (h' : e'.log.findSome? (·.event.answer?) = some (ticket, data)) : Answers ticket data e e' := by
  obtain ⟨new, hnew⟩ := hg
  rw [← hnew, List.findSome?_append, h, Option.or_none] at h'
  obtain ⟨s, hs, hev⟩ := List.exists_of_findSome?_eq_some h'
  exact ⟨new, hnew.symm, s, hs, Event.eq_of_answer? hev⟩

/-- What becomes of the single request while no part of a response comes in. -/
structure Fate (e e' : Engine) : Prop where
  serving : e'.Serving
  grows : e.log <:+ e'.log
  queued : e'.queued <:+ e.queued
  /-- It goes on, or it has ended; another one may have started since. -/
  single : (e'.single = e.single ∧ (e'.ExpectsMore → Continues e e')) ∨ e'.single = none ∨
    ∃ capture, e'.single = some capture ∧ ¬ e'.ExpectsMore ∧ Started capture.request e e'
  /-- Only a request that closes the channel and does nothing else is answered, with nothing. -/
  answers : ∀ ticket data, Answers ticket data e e' → data = [] ∧ ∃ request, request.ticket = ticket ∧
    request.entry.ClosesOnly ∧ (e.captured = some request ∨ Started request e e')

theorem Started.grows {request : SingleRequest} (h : Started request e e') (hg : e'.log <:+ e''.log) :
    Started request e e'' := ⟨h.1, Shows.grows h.2 hg⟩

theorem Started.of_fate {request : SingleRequest} (hf : Fate e e') (h : Started request e' e'') :
    Started request e e'' := ⟨hf.queued.subset h.1, Shows.of_grows hf.grows h.2⟩

theorem Serving.same (h : e.Serving) (hs : Same e e') : e'.Serving where
  asks capture hc := hs.asked.trans (h.asks capture (hs.single ▸ hc))
  nothing capture hc := h.nothing capture (hs.single ▸ hc)

theorem Serving.of_none (hs : e.single = none) : e.Serving := by
  refine ⟨fun capture hc => ?_, fun capture hc => ?_⟩ <;>
    (rw [hs] at hc; cases hc)

namespace Fate

theorem trans (h : Fate e e') (h' : Fate e' e'') : Fate e e'' where
  serving := h'.serving
  grows := h.grows.trans h'.grows
  queued := h'.queued.trans h.queued
  single := by
    rcases h'.single with ⟨hs', hm'⟩ | hs' | ⟨capture, hs', hm', hst'⟩
    · rcases h.single with ⟨hs, hm⟩ | hs | ⟨capture, hs, hm, hst⟩
      · exact .inl ⟨hs'.trans hs, fun hmore => (hm (hm' hmore).more).trans (hm' hmore)⟩
      · exact .inr (.inl (hs'.trans hs))
      · exact .inr (.inr ⟨capture, hs'.trans hs, fun hmore => hm (hm' hmore).more, hst.grows h'.grows⟩)
    · exact .inr (.inl hs')
    · exact .inr (.inr ⟨capture, hs', hm', .of_fate h hst'⟩)
  answers ticket data ha := by
    rcases ha.split h.grows h'.grows with ha | ha
    · obtain ⟨hd, request, ht, hc, ho⟩ := h.answers ticket data ha
      exact ⟨hd, request, ht, hc, ho.imp id (·.grows h'.grows)⟩
    · obtain ⟨hd, request, ht, hc, ho⟩ := h'.answers ticket data ha
      refine ⟨hd, request, ht, hc, ?_⟩
      rcases ho with ho | ho
      · rcases h.single with ⟨hs, -⟩ | hs | ⟨capture, hs, -, hst⟩
        · refine .inl ?_
          rwa [captured, hs] at ho
        · rw [captured, hs] at ho
          cases ho
        · rw [captured, hs] at ho
          obtain rfl : capture.request = request := Option.some.inj ho
          exact .inr (hst.grows h'.grows)
      · exact .inr (.of_fate h ho)

theorem of_same (h : e.Serving) (hs : Same e e') : Fate e e' where
  serving := h.same hs
  grows := let ⟨new, hnew, _⟩ := hs.log; ⟨new, hnew.symm⟩
  queued := hs.queued ▸ List.suffix_refl _
  single := .inl ⟨hs.single, hs.more⟩
  answers ticket data ha := absurd hs.log (ha.not_adds fun event hev => by rw [hev]; nofun)

/-- The request ends, but it is not answered. -/
theorem of_none (hs : e'.single = none) (hq : e'.queued <:+ e.queued)
    (hl : Adds (fun event => ∀ ticket data, event ≠ .singleResolved ticket (.ok data)) e e') : Fate e e' where
  serving := .of_none hs
  grows := let ⟨new, hnew, _⟩ := hl; ⟨new, hnew.symm⟩
  queued := hq
  single := .inr (.inl hs)
  answers ticket data ha := absurd hl (ha.not_adds fun _ hev hno => hno ticket data hev)

theorem finishSingle (h : e.Serving) {result : SingleResult} (hr : ∀ data, result ≠ .ok data) :
    Fate e (e.finishSingle result) := by
  unfold Engine.finishSingle
  split
  · exact of_same h (.refl e)
  · refine of_none rfl (List.suffix_refl _) ⟨[_], rfl, ?_⟩
    rw [List.forall_mem_singleton]
    intro ticket data heq
    cases heq
    exact hr data rfl

theorem emit (h : e.Serving) {event : Event} (hev : event.isSingle = false) : Fate e (e.emit event) :=
  of_same h ⟨rfl, rfl, rfl, fun hm => ⟨hm, rfl, rfl, rfl⟩, (Adds.refl e).emit hev⟩

theorem deliverFailure (h : e.Serving) {failure : PollFailure} (hf : failure ≠ .channelClosed) :
    Fate e (e.deliverFailure failure) := by
  unfold Engine.deliverFailure
  split
  · exact emit h rfl
  · refine finishSingle h fun data => ?_
    cases failure with
    | channelClosed => exact absurd rfl hf
    | _ => simp

theorem expireSingle (h : e.Serving) : Fate e e.expireSingle := by
  unfold Engine.expireSingle
  split
  · exact of_same h (.refl e)
  · split
    · exact finishSingle h (by simp)
    · exact of_same h (.refl e)

theorem failTransmission (h : e.Serving) : Fate e e.failTransmission := by
  have hl : Same e { (if e.job.isVwtp then e.loseChannel else e) with wait := 0 } := by
    split
    · exact (Same.loseChannel e).update ..
    · exact (Same.refl e).update ..
  unfold Engine.failTransmission
  exact (of_same h hl).trans (deliverFailure (h.same hl) (by decide))

/-- The single request is answered with nothing: it only closes the channel. -/
theorem answer {capture : Capture} (hc : e.single = some capture) (hcloses : capture.request.entry.ClosesOnly)
    (hr : capture.response = []) : Fate e (e.finishSingle (.ok capture.response)) := by
  have hlog : (e.finishSingle (.ok capture.response)).log =
      [⟨e.now, .singleResolved capture.request.ticket (.ok capture.response)⟩] ++ e.log := by
    simp [Engine.finishSingle, hc, Engine.emit]
  refine ⟨.of_none (single_finishSingle ..), ⟨_, hlog.symm⟩, ?_, .inr (.inl (single_finishSingle ..)), ?_⟩
  · have hq : (e.finishSingle (.ok capture.response)).queued = e.queued := (Delivers.finishSingle ..).queued
    exact hq ▸ List.suffix_refl _
  · rintro ticket data ⟨new, hnew, s, hs, hev⟩
    obtain rfl := List.append_cancel_right (hnew.symm.trans hlog)
    rw [List.mem_singleton.1 hs] at hev
    cases hev
    exact ⟨hr, capture.request, rfl, hcloses, .inl (by rw [captured, hc]; rfl)⟩

/-- A request without a module is answered when there is no channel to be closed. -/
theorem startVwtp (h : e.Serving) (hv : e.job.isVwtp = true) : Fate e e.startVwtp := by
  have ht := Same.touchChannel e
  rcases hj : e.job.entry with _ | entry
  · simp only [Engine.startVwtp, hj]
    exact of_same h (.refl e)
  · have hst := startVwtp_start e hj
    generalize e.startVwtp = e' at hst ⊢
    cases hst with
    | again => exact of_same h (ht.trans (.requestSetup _))
    | request => exact of_same h (ht.trans ((Same.interrupt _).trans (.sendRequest _)))
    | close => exact of_same h (ht.trans (.requestClose _))
    | setup => exact of_same h (ht.trans (.requestSetup _))
    | nothing hs hr =>
      refine (of_same h ht).trans ?_
      have hserving := h.same ht
      have hentry : e.touchChannel.job.entry = some entry := hj
      have hvwtp : e.touchChannel.job.isVwtp = true := hv
      generalize e.touchChannel = e at hserving hentry hvwtp ⊢
      unfold Engine.deliverFailure
      cases hc : e.single with
      | none => exact emit hserving rfl
      | some capture =>
        have hasks := hserving.asks capture hc
        have heq : capture.request.entry = entry :=
          Option.some.inj ((congrArg (·.1) hasks).symm.trans hentry)
        have hcloses : capture.request.entry.ClosesOnly := by
          refine ⟨?_, heq ▸ hr⟩
          rw [← hasks.protocol]
          exact eq_of_beq hvwtp
        exact answer hc hcloses (hserving.nothing capture hc hcloses)

theorem dispatch {entry : PollEntry} (hs : e.single = none ∨ ∃ capture, e.single = some capture ∧
    capture.response = [] ∧ capture.request.entry = entry) : Fate (e.assign entry) (e.dispatch entry) := by
  have hserving : (e.assign entry).Serving := by
    rcases hs with hs | ⟨capture, hs, hr, rfl⟩
    · exact .of_none hs
    · refine ⟨fun capture' hc => ?_, fun capture' hc _ => ?_⟩
      · obtain rfl : capture = capture' := Option.some.inj (hs.symm.trans hc)
        rfl
      · obtain rfl : capture = capture' := Option.some.inj (hs.symm.trans hc)
        exact hr
  unfold Engine.dispatch
  cases hp : entry.protocol with
  | vwtp20 =>
    exact startVwtp hserving (by simp [assign, Engine.emit, PollJob.isVwtp, PollJob.start, PollJob.resetMultiframe, hp])
  | _ => exact of_same hserving (.startIsoTp _)

/-- The first request of the queue starts, or its caller has gone. -/
theorem startSingle (hs : e.single = none) {request : SingleRequest} {queued : List SingleRequest}
    (hq : e.queued = request :: queued) : Fate e ({ e with queued }.startSingle request) := by
  have hsuffix : queued <:+ e.queued := hq ▸ List.suffix_cons ..
  unfold Engine.startSingle
  split
  · refine of_none hs hsuffix ⟨[_], rfl, ?_⟩
    rw [List.forall_mem_singleton]
    exact fun _ _ heq => by cases heq
  · set e₁ := ({ e with queued }.capture request).advance with he₁
    dsimp only
    cases hdue : ({ e with queued }.capture request).schedule.next.1 with
    | due entry =>
      obtain rfl : entry = request.entry := Schedule.eq_of_due hdue
      have hc : (e₁.assign request.entry).single = some ⟨request, [], e.schedule.snapshot⟩ := rfl
      have hfresh : Fate e (e₁.assign request.entry) := by
        refine ⟨⟨fun capture hc' => ?_, fun capture hc' _ => ?_⟩, ⟨[_, _], rfl⟩, hsuffix,
          .inr (.inr ⟨_, hc, fun hm => ?_, ?_⟩), fun ticket data ha => ?_⟩
        · cases hc.symm.trans hc'
          rfl
        · cases hc.symm.trans hc'
          rfl
        · exact not_expectsMore rfl rfl hm
        · exact ⟨hq ▸ List.mem_cons_self .., [_, _], rfl, _, List.mem_cons_of_mem _ (List.mem_singleton.2 rfl), rfl⟩
        · have hadds : Adds (fun event => event ≠ .singleResolved ticket (.ok data)) e
              (e₁.assign request.entry) := ⟨[_, _], rfl, by simp⟩
          exact absurd hadds (ha.not_adds fun _ hev hno => hno hev)
      exact hfresh.trans (dispatch (.inr ⟨_, hc, rfl, rfl⟩))
    | _ =>
      refine of_none (single_finishSingle ..) ?_ ?_
      · rw [(Delivers.finishSingle ..).queued]
        exact hsuffix
      · refine ⟨[_, _], rfl, ?_⟩
        simp

theorem startPass (hs : e.single = none) : Fate e e.startPass := by
  unfold Engine.startPass
  dsimp only
  split
  · exact of_none hs (List.suffix_refl _) ⟨[_], rfl, by simp⟩
  · exact of_none hs (List.suffix_refl _) (.of_log rfl)

theorem pollList (hs : e.single = none) : Fate e e.pollList := by
  unfold Engine.pollList
  cases e.schedule.next.1 with
  | due entry =>
    have ha : Fate e (e.advance.assign entry) :=
      of_none hs (List.suffix_refl _) ⟨[_], rfl, by simp⟩
    exact ha.trans (dispatch (.inl hs))
  | passComplete =>
    dsimp only
    split
    · exact of_none hs (List.suffix_refl _) (.of_log rfl)
    · exact of_none hs (List.suffix_refl _) ⟨[_], rfl, by simp⟩
  | empty => exact of_none hs (List.suffix_refl _) (.of_log rfl)

end Fate

theorem Turn.fate (h : e.Serving) (ht : Turn e e') : Fate e e' := by
  cases ht with
  | shut => exact .of_same h (.shutChannel e)
  | reopen hs hj => exact .startVwtp h (by simp_all [isOnChannel])
  | close => exact .of_same h (.requestClose e)
  | expire => exact .expireSingle h
  | single hs hq => exact .startSingle hs hq
  | pass hw hs => exact .startPass hs
  | poll hw hs => exact .pollList hs
  | fail => exact .failTransmission h
  | sent success ha hs => exact .of_none hs (List.suffix_refl _) ⟨[_], rfl, by simp⟩
  | count | grace | release | take | arm => exact .of_same h (.of_eq rfl rfl rfl rfl rfl)

theorem Turns.fate (h : e.Serving) (ht : Turns e e') : Fate e e' := by
  induction ht with
  | refl => exact .of_same h (.refl e)
  | tail _ ht ih => exact ih.trans (ht.fate ih.serving)

end Engine

end EcuPoll
