import Mathlib.Data.List.Induction
import EcuPoll.Proofs.Engine.Rounds
import EcuPoll.Proofs.Vwtp.Beside
import EcuPoll.Proofs.Vwtp.Blocks

/-!
# A channel is negotiated before it is used

Before data or abort frames go out on a channel, its module has accepted it and then answered with its parameters,
and since then the channel has been neither closed nor asked for anew. No state tells this: a channel that is fit for
data does not remember how it came to be so. `transfers_negotiated` says it of the run behind the state.

Two frames bring a channel up (`Engine.Lifts`). Under all other operations it stays as high as it is or sinks: see
`Sinks`. So the run behind a channel that waits for parameters holds the first of them, and the run behind one that is
fit for data holds both.
-/

namespace EcuPoll

namespace Event

/-- Request data, or the frame that ends a transfer before its time. -/
def isTransfer : Event → Bool
  | .wrote (.data _) _ _ | .wrote .abort _ _ => true
  | _ => false

/-- Neither asks for a channel nor needs one. -/
def IsNeutral (event : Event) : Prop :=
  event.isSetup = false ∧ event.isTransfer = false

theorem IsReport.isNeutral {event : Event} (h : event.IsReport) : event.IsNeutral := by
  cases event <;> first | exact h.elim | exact ⟨rfl, rfl⟩

end Event

/-- An element of two lists together is an element of the one or of the other. -/
theorem split_append {α : Type} {new old later earlier : List α} {a : α} (h : new ++ old = later ++ a :: earlier) :
    (∃ mid, old = mid ++ a :: earlier) ∨ ∃ between, new = later ++ a :: between ∧ earlier = between ++ old := by
  rcases List.append_eq_append_iff.1 h with ⟨mid, -, hmid⟩ | ⟨mid, hmid, hrest⟩
  · exact .inl ⟨mid, hmid⟩
  · rcases List.cons_eq_append_iff.1 hrest with ⟨-, hrest⟩ | ⟨between, rfl, hbetween⟩
    · exact .inl ⟨[], hrest⟩
    · exact .inr ⟨between, hmid, hbetween⟩

/-- The id from which the module will send that accepts a channel with this frame. -/
def Frame.assigned (frame : Frame) : UInt32 :=
  (Envelope.word (frame.data.get 3) (frame.data.get 2)).toUInt32

/-! ### Channels at rest -/

namespace Channel
variable {c : Channel}

/-- What holds of a channel between operations: it has been left in no state that is only passed through, nothing of
a module is left when it is closed, and one that was asked for is answered on the id of the module. -/
structure Rests (c : Channel) : Prop where
  not_starting : c.state ≠ .startPoll
  not_aborting : c.state ≠ .abort
  eq_shut : c.state = .closed → c = { shut with lastUsed := c.lastUsed }
  rxId_eq : c.state = .setup → c.rxId = c.baseId + c.moduleId

theorem rests_shut : shut.Rests := ⟨nofun, nofun, fun _ => rfl, nofun⟩

theorem Rests.of_state {state : ChannelState} (hs : c.state = state)
    (hn : state ∉ [.startPoll, .abort, .closed, .setup]) : c.Rests := by
  subst hs
  simp only [List.mem_cons, List.not_mem_nil, or_false, not_or] at hn
  exact ⟨hn.1, hn.2.1, fun hc => absurd hc hn.2.2.1, fun hs => absurd hs hn.2.2.2⟩

theorem Rests.touch (h : c.Rests) (now : Nat) : (c.touch now).Rests :=
  ⟨h.not_starting, h.not_aborting, fun hc => by rw [Channel.touch, h.eq_shut hc], h.rxId_eq⟩

theorem Rests.bound_of_closed (h : c.Rests) (hc : c.state = .closed) : c.bound = false := by
  rw [h.eq_shut hc]
  rfl

end Channel

namespace Engine
variable {agreed : Prop} {e e' e'' : Engine}

theorem Adds.of_split {P : Event → Prop} {s : Stamped} {later earlier : List Stamped} (h : Adds P e e')
    (heq : e'.log = later ++ s :: (earlier ++ e.log)) : P s.event ∧ ∀ s' ∈ earlier, P s'.event := by
  obtain ⟨new, hnew, hall⟩ := h
  have hnew : new = later ++ s :: earlier := by
    refine List.append_cancel_right (hnew.symm.trans (heq.trans ?_))
    rw [List.append_assoc]
    rfl
  rw [hnew] at hall
  exact ⟨hall s (by simp), fun s' hs' => hall s' (by simp [hs'])⟩

/-! ### What does not lift the channel -/

/-- The channel stays as high as it was, or sinks: it waits for parameters or is fit for data only if it was so before,
and if no module has been asked for a channel meanwhile. Transfers are written only while it is fit for data. If the
module has `agreed`, it may also become fit for data. -/
structure Sinks (agreed : Prop) (e e' : Engine) : Prop where
  grows : e.log <:+ e'.log
  rests : e.channel.Rests → e'.channel.Rests
  params : e'.channel.state = .params →
    e.channel.state = .params ∧ e'.channel.rxId = e.channel.rxId ∧ Adds (·.isSetup = false) e e'
  up : e'.channel.state.isHalfOpen = false →
    (e.channel.state.isHalfOpen = false ∨ agreed) ∧ Adds (·.isSetup = false) e e'
  transfer : ∀ later s earlier, e'.log = later ++ s :: (earlier ++ e.log) → s.event.isTransfer = true →
    (e.channel.state.isHalfOpen = false ∨ agreed) ∧ ∀ s' ∈ earlier, s'.event.isSetup = false

namespace Sinks

theorem trans (h : Sinks agreed e e') (h' : Sinks False e' e'') : Sinks agreed e e'' where
  grows := h.grows.trans h'.grows
  rests hr := h'.rests (h.rests hr)
  params hp := by
    obtain ⟨hp, hid', hadds'⟩ := h'.params hp
    obtain ⟨hp, hid, hadds⟩ := h.params hp
    exact ⟨hp, hid'.trans hid, hadds.trans hadds'⟩
  up hup := by
    obtain ⟨hup, hadds'⟩ := h'.up hup
    obtain ⟨hup, hadds⟩ := h.up (hup.resolve_right id)
    exact ⟨hup, hadds.trans hadds'⟩
  transfer later s earlier heq hs := by
    obtain ⟨new, hnew⟩ := h.grows
    obtain ⟨new', hnew'⟩ := h'.grows
    have hsplit : new' ++ new = later ++ s :: earlier := by
      refine (List.append_left_inj e.log).1 ?_
      rw [List.append_assoc, hnew, hnew', heq, List.append_assoc]
      rfl
    -- the transfer is written before or after `e'`
    rcases split_append hsplit with ⟨mid, hmid⟩ | ⟨between, hmid, rfl⟩
    · exact h.transfer mid s earlier (by rw [← hnew, hmid, List.append_assoc]; rfl) hs
    · obtain ⟨hup, hno'⟩ := h'.transfer later s between (by rw [← hnew', hmid, List.append_assoc]; rfl) hs
      obtain ⟨hup, hadds⟩ := h.up (hup.resolve_right id)
      refine ⟨hup, List.forall_mem_append.2 ⟨hno', ?_⟩⟩
      obtain ⟨new₁, hnew₁, hno⟩ := hadds
      rwa [List.append_cancel_right (hnew.trans hnew₁)]

theorem mono {agreed' : Prop} (h : Sinks agreed e e') (ha : agreed → agreed') : Sinks agreed' e e' :=
  ⟨h.grows, h.rests, h.params, fun hup => ⟨(h.up hup).1.imp_right ha, (h.up hup).2⟩,
    fun later s earlier heq hs => (h.transfer later s earlier heq hs).imp_left (Or.imp_right ha)⟩

/-- Nothing has been logged at first, and the channel was in the same state. -/
theorem of_start (h : Sinks agreed e' e'') (hl : e'.log = e.log) (hs : e'.channel.state = e.channel.state)
    (hid : e'.channel.rxId = e.channel.rxId) (hr : e.channel.Rests → e'.channel.Rests) : Sinks agreed e e'' := by
  obtain ⟨hgrows, hrests, hparams, hup, htransfer⟩ := h
  simp only [Adds, hl, hs, hid] at hgrows hparams hup htransfer
  exact ⟨hgrows, fun h => hrests (hr h), hparams, hup, htransfer⟩

/-- A channel that is not fit for data stays so, and no transfer is written. -/
theorem stays_down (h : Sinks False e e') (hd : e.channel.state.isHalfOpen = true) :
    e'.channel.state.isHalfOpen = true ∧ Adds (·.isTransfer = false) e e' := by
  have hup : ¬ (e.channel.state.isHalfOpen = false ∨ False) := by simp [hd]
  refine ⟨?_, ?_⟩
  · rw [← Bool.not_eq_false]
    exact fun hup' => hup (h.up hup').1
  · obtain ⟨new, hnew⟩ := h.grows
    refine ⟨new, hnew.symm, fun s hs => ?_⟩
    obtain ⟨later, earlier, rfl⟩ := List.append_of_mem hs
    rw [← Bool.not_eq_true]
    exact fun hts => hup (h.transfer later s earlier (by rw [← hnew, List.append_assoc]; rfl) hts).1

/-! #### Ways to sink -/

/-- The channel stays in its state. -/
theorem of_state (hl : Adds Event.IsNeutral e e') (hs : e'.channel.state = e.channel.state)
    (hid : e'.channel.rxId = e.channel.rxId) (hr : e.channel.Rests → e'.channel.Rests) : Sinks agreed e e' where
  grows := hl.suffix
  rests := hr
  params hp := ⟨hs ▸ hp, hid, hl.mono fun _ => And.left⟩
  up hup := ⟨.inl (hs ▸ hup), hl.mono fun _ => And.left⟩
  transfer later s earlier heq hts := by
    rw [(hl.of_split heq).1.2] at hts
    cases hts

theorem of_channel (hl : Adds Event.IsNeutral e e') (hc : e'.channel = e.channel) : Sinks agreed e e' :=
  of_state hl (congrArg _ hc) (congrArg _ hc) fun h => hc ▸ h

theorem of_eq (hl : e'.log = e.log) (hc : e'.channel = e.channel) : Sinks agreed e e' := of_channel (.of_log hl) hc

theorem refl (e : Engine) : Sinks agreed e e := of_eq rfl rfl

theorem delivers (h : Delivers e e') : Sinks agreed e e' :=
  of_channel (h.log.mono fun _ => Event.IsReport.isNeutral) h.channel

theorem emit (e : Engine) {event : Event} (hev : event.IsNeutral) : Sinks agreed e (e.emit event) :=
  of_channel ((Adds.refl e).emit hev) rfl

/-- The channel is closed, is being closed, or is asked for. -/
theorem of_down (hl : Adds (·.isTransfer = false) e e')
    (hs : e'.channel.state = .closed ∨ e'.channel.state = .closing ∨ e'.channel.state = .setup)
    (hr : e.channel.Rests → e'.channel.Rests) : Sinks agreed e e' where
  grows := hl.suffix
  rests := hr
  params hp := by rcases hs with hs | hs | hs <;> (rw [hs] at hp; cases hp)
  up hup := by rcases hs with hs | hs | hs <;> (rw [hs] at hup; cases hup)
  transfer later s earlier heq hts := by
    rw [(hl.of_split heq).1] at hts
    cases hts

/-- The channel goes on with a transfer, or ends it. -/
theorem of_up (hl : Adds (·.isSetup = false) e e') (hup : e.channel.state.isHalfOpen = false ∨ agreed)
    (hs : e'.channel.state = .idle ∨ e'.channel.state = .transmit ∨ e'.channel.state = .receive) :
    Sinks agreed e e' where
  grows := hl.suffix
  rests _ := by rcases hs with hs | hs | hs <;> exact .of_state hs (by decide)
  params hp := by rcases hs with hs | hs | hs <;> (rw [hs] at hp; cases hp)
  up _ := ⟨hup, hl⟩
  transfer later s earlier heq _ := ⟨hup, (hl.of_split heq).2⟩

theorem transmit (h : Sinks agreed e e') {kind : FrameKind}
    (hk : ∀ frame accepted, (Event.wrote kind frame accepted).IsNeutral) (frame : Frame) :
    Sinks agreed e (e'.transmit kind frame) := by
  refine h.trans ?_
  rw [transmit_eq]
  exact of_channel ⟨[_], rfl, List.forall_mem_singleton.2 (hk ..)⟩ rfl

/-! #### The channel -/

theorem shutChannel (e : Engine) : Sinks agreed e e.shutChannel := by
  unfold Engine.shutChannel
  split
  · exact refl e
  · exact of_down (.of_log rfl) (.inl rfl) fun _ => Channel.rests_shut

theorem requestSetup (e : Engine) : Sinks agreed e e.requestSetup := by
  unfold Engine.requestSetup
  cases e.job.entry with
  | none => exact refl e
  | some entry =>
    dsimp only
    split
    · exact refl e
    · have hlog := log_expectOnChannel { e with channel := e.channel.request entry.tx entry.rx }
      have hchannel := channel_expectOnChannel { e with channel := e.channel.request entry.tx entry.rx }
      rw [transmit_eq]
      generalize expectOnChannel _ = e₁ at hlog hchannel ⊢
      refine of_down ⟨[_], congrArg (_ :: ·) hlog, List.forall_mem_singleton.2 rfl⟩ (.inr (.inr rfl)) fun _ => ?_
      dsimp only
      rw [hchannel]
      exact ⟨nofun, nofun, nofun, fun _ => rfl⟩

theorem requestClose (e : Engine) : Sinks agreed e e.requestClose := by
  have hs := state_requestClose e
  refine of_down ?_ (.inr (.inl hs)) fun _ => .of_state hs (by decide)
  unfold Engine.requestClose
  split
  · exact .refl e
  · dsimp only
    rw [transmit_eq]
    exact ⟨[_], congrArg (_ :: ·) (log_expectOnChannel e), List.forall_mem_singleton.2 rfl⟩

theorem goIdle (hup : e.channel.state.isHalfOpen = false) : Sinks agreed e e.goIdle := by
  unfold Engine.goIdle
  split
  · exact refl e
  · exact of_up (.of_log rfl) (.inl hup) (.inl rfl)

theorem awaitResponse (hup : e.channel.state.isHalfOpen = false) : Sinks agreed e e.awaitResponse := by
  unfold Engine.awaitResponse
  split
  · exact refl e
  · exact of_up (.of_log rfl) (.inl hup) (.inr (.inr rfl))

theorem countData (hs : e.channel.state = .receive) : Sinks agreed e e.countData :=
  of_up (.of_log rfl) (.inl (by rw [hs]; rfl)) (.inr (.inr hs))

theorem abortTransfer (hup : e.channel.state.isHalfOpen = false) : Sinks agreed e e.abortTransfer := by
  refine of_up ?_ (.inl hup) (.inl (state_abortTransfer e))
  unfold Engine.abortTransfer
  dsimp only
  rw [transmit_eq]
  refine ⟨[_], congrArg (_ :: ·) ?_, List.forall_mem_singleton.2 rfl⟩
  exact log_expectOnChannel _

theorem adds_sendFrames (header : List UInt8) (left : Nat) (e : Engine) :
    Adds (·.isSetup = false) e (Engine.sendFrames header left e) := by
  induction left generalizing e with
  | zero => exact .refl e
  | succ left ih =>
    have hone : Adds (·.isSetup = false) e (e.sendFrame header left) := by
      unfold Engine.sendFrame
      dsimp only
      rw [transmit_eq]
      exact ⟨[_], rfl, List.forall_mem_singleton.2 rfl⟩
    unfold Engine.sendFrames
    dsimp only
    split
    · exact hone
    · exact hone.trans (ih _)

theorem sendBlock (hup : e.channel.state.isHalfOpen = false ∨ agreed) : Sinks agreed e e.sendBlock := by
  unfold Engine.sendBlock
  cases e.job.entry with
  | none => exact refl e
  | some entry =>
    refine of_up ?_ hup (.inr (.inl ?_))
    · obtain ⟨new, hnew, hno⟩ := adds_sendFrames entry.header (max 1 e.channel.blockSize.toNat) e
      exact ⟨new, (log_expectOnChannel _).trans hnew, hno⟩
    · rw [channel_awaitAck]
      rfl

theorem sendRequest (hup : e.channel.state.isHalfOpen = false ∨ agreed) : Sinks agreed e e.sendRequest := by
  unfold Engine.sendRequest
  split
  · exact refl e
  · refine of_start (sendBlock ?_) rfl rfl rfl id
    exact hup

/-- The transfer is ended and the request sent. -/
theorem interrupt_sendRequest (hup : e.channel.state.isHalfOpen = false) :
    Sinks agreed e e.interrupt.sendRequest := by
  have habort := @abortTransfer agreed e hup
  have hidle : e.abortTransfer.channel.state.isHalfOpen = false := by
    rw [state_abortTransfer]
    rfl
  unfold Engine.interrupt
  split
  · exact habort.trans (sendRequest (.inl hidle))
  · refine habort.trans (trans ?_ (sendRequest (.inl hidle)))
    exact of_eq rfl rfl
  · exact sendRequest (.inl hup)

theorem startVwtp (e : Engine) : Sinks agreed e e.startVwtp := by
  have htouch : Sinks agreed e e.touchChannel := of_state (.of_log rfl) rfl rfl fun h => h.touch _
  cases he : e.job.entry with
  | none =>
    rw [show e.startVwtp = e by simp only [Engine.startVwtp, he]]
    exact refl e
  | some entry =>
    have hst := startVwtp_start e he
    generalize e.startVwtp = e' at hst ⊢
    cases hst with
    | again => exact htouch.trans (requestSetup _)
    | request _ hup => exact htouch.trans (interrupt_sendRequest hup)
    | close => exact htouch.trans (requestClose _)
    | setup => exact htouch.trans (requestSetup _)
    | nothing => exact htouch.trans (delivers (.deliverFailure ..))

/-! #### Over ISO-TP -/

theorem startIsoTp (e : Engine) : Sinks agreed e e.startIsoTp := by
  unfold Engine.startIsoTp
  split
  · exact refl e
  · dsimp only
    refine transmit ?_ (fun _ _ => ⟨rfl, rfl⟩) _
    exact of_eq rfl rfl

theorem sendConsecutive (e : Engine) (target : UInt32) : Sinks agreed e (e.sendConsecutive target) := by
  unfold Engine.sendConsecutive
  dsimp only
  refine transmit ?_ (fun _ _ => ⟨rfl, rfl⟩) _
  exact of_eq rfl rfl

theorem burst (target : UInt32) (delay count : Nat) (e : Engine) :
    Sinks False e (Engine.burst target delay count e) := by
  induction count generalizing e with
  | zero => exact refl e
  | succ count ih =>
    have hone := @sendConsecutive False e target
    unfold Engine.burst
    split
    · exact refl e
    · dsimp only
      split
      · exact hone
      · refine hone.trans (trans ?_ (ih _))
        exact of_eq rfl rfl

theorem isoTpFlow (e : Engine) (id : UInt32) (command blockSize septime : UInt8) :
    Sinks False e (e.isoTpFlow id command blockSize septime) := by
  have hb := burst (e.isoTpTarget id) (separationDelay septime) (e.allowedFrames blockSize) e
  unfold Engine.isoTpFlow
  split
  · exact refl e
  · split
    · exact refl e
    · exact of_eq rfl rfl
    · exact of_eq rfl rfl
    · dsimp only
      split
      · exact hb.trans (of_eq rfl rfl)
      · exact hb

/-! #### Turns, effects and operations -/

theorem dispatch (e : Engine) (entry : PollEntry) : Sinks False e (e.dispatch entry) := by
  have ha : Sinks False e (e.assign entry) := of_channel ⟨[_], rfl, List.forall_mem_singleton.2 ⟨rfl, rfl⟩⟩ rfl
  unfold Engine.dispatch
  split
  · exact ha.trans (startVwtp _)
  · exact ha.trans (startIsoTp _)

theorem startSingle (e : Engine) (request : SingleRequest) : Sinks False e (e.startSingle request) := by
  have hc : Sinks False e (e.capture request).advance :=
    of_channel ⟨[_], rfl, List.forall_mem_singleton.2 ⟨rfl, rfl⟩⟩ rfl
  unfold Engine.startSingle
  split
  · exact emit e ⟨rfl, rfl⟩
  · dsimp only
    split
    · exact hc.trans (dispatch _ _)
    · exact hc.trans (delivers (.finishSingle ..))

theorem pollList (e : Engine) : Sinks False e e.pollList := by
  have ha : Sinks False e e.advance := of_eq rfl rfl
  unfold Engine.pollList
  split
  · exact ha.trans (dispatch _ _)
  · split
    · exact ha
    · exact ha.trans (emit _ ⟨rfl, rfl⟩)
  · exact ha

theorem turn (h : Turn e e') : Sinks False e e' := by
  cases h with
  | shut => exact shutChannel e
  | reopen => exact startVwtp e
  | close => exact requestClose e
  | expire => exact delivers (.expireSingle e)
  | single =>
    refine trans ?_ (startSingle _ _)
    exact of_eq rfl rfl
  | pass =>
    unfold startPass
    dsimp only
    split
    · exact of_channel ⟨[_], rfl, List.forall_mem_singleton.2 ⟨rfl, rfl⟩⟩ rfl
    · exact of_eq rfl rfl
  | poll => exact pollList e
  | fail =>
    have hlost : Sinks False e { (if e.job.isVwtp then e.loseChannel else e) with wait := 0 } := by
      split
      · exact of_down (.of_log rfl) (.inl rfl) fun _ => Channel.rests_shut
      · exact of_eq rfl rfl
    exact hlost.trans (delivers (.deliverFailure ..))
  | sent => exact of_channel ⟨[_], rfl, List.forall_mem_singleton.2 ⟨rfl, rfl⟩⟩ rfl
  | count | grace | release | arm | take => exact of_eq rfl rfl

theorem turns (h : Turns e e') : Sinks False e e' := by
  induction h with
  | refl => exact refl e
  | tail _ ht ih => exact ih.trans (turn ht)

theorem effect {stray : Prop} (h : Effect stray False e e') : Sinks False e e' := by
  have hup (hs : e.channel.state = .transmit ∨ e.channel.state = .receive) : e.channel.state.isHalfOpen = false := by
    rcases hs with hs | hs <;> rw [hs] <;> rfl
  cases h with
  | reply => exact delivers (.deliverReply ..)
  | failure => exact delivers (.deliverFailure ..)
  | allow => exact (refl e).transmit (fun _ _ => ⟨rfl, rfl⟩) _
  | flow => exact isoTpFlow e ..
  | lose => exact of_down (.of_log rfl) (.inl rfl) fun _ => Channel.rests_shut
  | shut => exact shutChannel e
  | close => exact requestClose e
  | setup => exact requestSetup e
  | block hs => exact sendBlock (.inl (hup (.inl hs)))
  | await hs => exact awaitResponse (hup (.inl hs))
  | receive hs => exact countData hs
  | abort hs => exact abortTransfer (hup (.inr hs))
  | idle hs => exact goIdle (hup hs)
  | ack => exact (refl e).transmit (fun _ _ => ⟨rfl, rfl⟩) _
  | pong => exact (refl e).transmit (fun _ _ => ⟨rfl, rfl⟩) _
  | refuseData hs =>
    unfold Engine.refuseData
    dsimp only
    refine transmit ?_ (fun _ _ => ⟨rfl, rfl⟩) _
    exact of_state (.of_log rfl) rfl rfl fun _ => .of_state hs (by decide)
  | reject | progress | drop => exact of_eq rfl rfl
  | assignIds hl | params hl | agree hl | request hl => exact hl.elim

theorem refuseQueued (e : Engine) : Sinks False e e.refuseQueued :=
  refuseQueued_keeps (P := Sinks False e) (of_eq rfl rfl) fun e' _ h => h.trans (emit e' ⟨rfl, rfl⟩)

theorem action {stray : Prop} (h : Action stray False e e') : Sinks False e e' := by
  cases h with
  | turn h => exact turn h
  | effect h => exact effect h
  | begin => exact emit e ⟨rfl, rfl⟩
  | refuse => exact refuseQueued e
  | unavailable => exact delivers (.finishSingle ..)
  | elapse | adjust | throttle | disarm | halt => exact of_eq rfl rfl

theorem actions {stray lifts : Prop} (h : Actions stray lifts e e') (hl : ¬ lifts) : Sinks False e e' := by
  rw [eq_false hl] at h
  induction h with
  | refl => exact refl e
  | tail _ ha ih => exact ih.trans (action ha)

/-- An operation that does not lift the channel. -/
theorem step {op : Operation} (hl : ¬ e.Lifts op) : Sinks False e (e.step op) := by
  cases op with
  | submit request =>
    have hq : Sinks False e { e with queued := e.queued ++ [request] } := of_eq rfl rfl
    exact hq.trans (turns (Turns.refl _).settle)
  | setList list defaultBus =>
    show Sinks False e (e.setList list defaultBus)
    unfold setList
    split <;> exact of_eq rfl rfl
  | setState state =>
    show Sinks False e (e.setState state)
    unfold setState
    dsimp only
    split <;> exact of_eq rfl rfl
  | _ => exact actions (step_actions e (by simp) (by simp) (by simp)) hl

/-- The module answers with its parameters, and the request goes out. -/
theorem of_agrees {frame : Frame} (hbound : e.channel.bound = true) (ha : e.Agrees frame) :
    Sinks True e (e.step (.frame frame)) := by
  rw [step_frame_channel ha.bus_eq ha.onChannel hbound, channelStep_agreed ha.state_eq ha.dlc_ne ha.opcode_eq]
  have hrequest : Sinks True e (e.agreed frame).sendRequest :=
    (sendRequest (.inr trivial)).of_start (log_agreed e frame) rfl rfl fun _ => .of_state ha.state_eq (by decide)
  exact hrequest.trans (turns (turns_chained _ _).settle)

end Sinks

/-! ### What lifts the channel -/

/-- The channel with the ids that its module assigns. -/
def accepted (e : Engine) (frame : Frame) : Engine :=
  { e with channel := { e.channel with
      rxId := frame.assigned
      txId := (Envelope.word (frame.data.get 5) (frame.data.get 4)).toUInt32 } }

theorem channelStep_accepted {frame : Frame} (ha : e.Accepts frame) :
    e.channelStep frame = (.chain, (e.accepted frame).requestParams) := by
  have hno : ¬ (min frame.dlc 8 ≠ 7 ∨ frame.data.get 1 < Opcode.setupAccept ∨
      Opcode.setupRejectMax < frame.data.get 1) := by
    rw [ha.length_eq, ha.opcode_eq]
    decide
  have hstep : e.channelStep frame = e.receiveSetup (min frame.dlc 8) frame.data := by
    simp only [channelStep, ha.state_eq]
  rw [hstep]
  exact (if_neg hno).trans (if_neg (not_not_intro ha.opcode_eq))

/-- The module accepts the channel with this frame: the channel may then wait for parameters, but is not fit for data
yet. -/
structure Admitted (accept : Frame) (e e' : Engine) : Prop where
  rests : e'.channel.Rests
  params : e'.channel.state = .params → e'.channel.rxId = accept.assigned ∧ Adds (·.isSetup = false) e e'
  down : e'.channel.state.isHalfOpen = true
  log : Adds (·.isTransfer = false) e e'

theorem Accepts.admitted {accept : Frame} (ha : e.Accepts accept) (hbound : e.channel.bound = true) :
    Admitted accept e (e.step (.frame accept)) := by
  rw [step_frame_channel ha.bus_eq ha.onChannel hbound, channelStep_accepted ha]
  have hsinks := Sinks.turns (turns_chained (e.accepted accept).requestParams .chain).settle
  have hparams : (e.accepted accept).requestParams.channel =
      { (e.accepted accept).channel with state := .params } := by
    unfold requestParams
    rw [if_neg (by rw [show (e.accepted accept).channel.state = .setup from ha.state_eq]; decide)]
    dsimp only
    rw [channel_transmit, channel_expectOnChannel]
  have hlog : Adds Event.IsNeutral e (e.accepted accept).requestParams := by
    unfold requestParams
    split
    · exact .of_log rfl
    · dsimp only
      rw [transmit_eq]
      exact ⟨[_], congrArg (_ :: ·) (log_expectOnChannel _), List.forall_mem_singleton.2 ⟨rfl, rfl⟩⟩
  generalize (e.accepted accept).requestParams = e₁ at hsinks hparams hlog ⊢
  have hstate : e₁.channel.state = .params := by rw [hparams]
  obtain ⟨hdown, hno⟩ := hsinks.stays_down (by rw [hstate]; rfl)
  refine ⟨hsinks.rests (.of_state hstate (by decide)), fun hp => ?_, hdown, (hlog.mono fun _ => And.right).trans hno⟩
  obtain ⟨-, hid, hadds⟩ := hsinks.params hp
  exact ⟨by rw [hid, hparams]; rfl, (hlog.mono fun _ => And.left).trans hadds⟩

theorem step_sinks (hbound : e.channel.state ≠ .closed → e.channel.bound = true) {op : Operation}
    (hno : ∀ frame, op = .frame frame → ¬ e.Accepts frame) :
    Sinks (∃ frame, op = .frame frame ∧ e.Agrees frame) e (e.step op) := by
  by_cases hl : e.Lifts op
  · cases op with
    | frame frame =>
      have ha : e.Agrees frame := Or.resolve_left hl (hno frame rfl)
      have hopen : e.channel.state ≠ .closed := by
        rw [ha.state_eq]
        decide
      exact (Sinks.of_agrees (hbound hopen) ha).mono fun _ => ⟨frame, rfl, ha⟩
    | _ => exact hl.elim
  · exact (Sinks.step hl).mono False.elim

/-! ### The run behind a channel -/

/-- In a run of `before`, this frame and `since`, the module accepts the channel with the frame, on the id on which it
was asked to. As long as no more than `log` has been logged, the channel is then neither closed nor asked for anew. -/
structure Accepted (e : Engine) (before : List Operation) (accept : Frame) (since : List Operation)
    (log : List Stamped) : Prop where
  accepts : (e.run before).Accepts accept
  accept_id : accept.id = (e.run before).channel.baseId + (e.run before).channel.moduleId
  not_closed : ∀ ops, ops <+: since → (e.run (before ++ .frame accept :: ops)).log <:+ log →
    (e.run (before ++ .frame accept :: ops)).channel.state ≠ .closed
  not_asked : ∃ new, log = new ++ (e.run before).log ∧ ∀ s ∈ new, s.event.isSetup = false

/-- After it has accepted the channel, and before more than `log` is logged, the module answers with its parameters,
on the id that it has assigned. -/
structure Agreed (e : Engine) (before : List Operation) (accept : Frame) (middle : List Operation) (agree : Frame)
    (after : List Operation) (log : List Stamped) : Prop
    extends Accepted e before accept (middle ++ .frame agree :: after) log where
  agrees : (e.run (before ++ .frame accept :: middle)).Agrees agree
  agree_id : agree.id = accept.assigned
  agree_log : (e.run (before ++ .frame accept :: middle)).log <:+ log

/-- When no more than `log` has been logged in this run, the channel has been negotiated: its module has accepted it,
then answered with its parameters, and since then it has been neither closed nor asked for anew. -/
def Negotiated (e : Engine) (ops : List Operation) (log : List Stamped) : Prop :=
  ∃ before accept middle agree after, ops = before ++ .frame accept :: (middle ++ .frame agree :: after) ∧
    Agreed e before accept middle agree after log

section
variable {before since ops : List Operation} {accept : Frame} {log new : List Stamped} {op : Operation}

theorem log_run_suffix {ops' : List Operation} (h : ops <+: ops') : (e.run ops).log <:+ (e.run ops').log := by
  obtain ⟨rest, rfl⟩ := h
  rw [run_append]
  exact (Grows.run _ rest).log

/-- One more operation. -/
theorem Accepted.push (h : Accepted e before accept since log)
    (hc : (e.run (before ++ .frame accept :: (since ++ [op]))).log <:+ log →
      (e.run (before ++ .frame accept :: (since ++ [op]))).channel.state ≠ .closed) :
    Accepted e before accept (since ++ [op]) log := by
  refine ⟨h.accepts, h.accept_id, fun ops hops hlog => ?_, h.not_asked⟩
  rcases List.prefix_concat_iff.1 hops with rfl | hops
  · exact hc hlog
  · exact h.not_closed ops hops hlog

/-- More is logged after the run. -/
theorem Accepted.grow (h : Accepted e before accept since (e.run (before ++ .frame accept :: since)).log)
    (hno : ∀ s ∈ new, s.event.isSetup = false) :
    Accepted e before accept since (new ++ (e.run (before ++ .frame accept :: since)).log) := by
  refine ⟨h.accepts, h.accept_id, fun ops hops _ => h.not_closed ops hops ?_, ?_⟩
  · exact log_run_suffix ((List.prefix_append_right_inj _).2 (List.cons_prefix_cons.2 ⟨rfl, hops⟩))
  · obtain ⟨old, hold, hno'⟩ := h.not_asked
    exact ⟨new ++ old, by rw [List.append_assoc, ← hold], List.forall_mem_append.2 ⟨hno, hno'⟩⟩

theorem Negotiated.push (h : Negotiated e ops log)
    (hc : (e.run (ops ++ [op])).log <:+ log → (e.run (ops ++ [op])).channel.state ≠ .closed) :
    Negotiated e (ops ++ [op]) log := by
  obtain ⟨before, accept, middle, agree, after, rfl, hagreed⟩ := h
  refine ⟨before, accept, middle, agree, after ++ [op], by simp, ?_, hagreed.agrees, hagreed.agree_id,
    hagreed.agree_log⟩
  rw [← List.cons_append, ← List.append_assoc]
  refine hagreed.toAccepted.push ?_
  simpa only [List.append_assoc, List.cons_append] using hc

theorem Negotiated.grow (h : Negotiated e ops (e.run ops).log) (hno : ∀ s ∈ new, s.event.isSetup = false) :
    Negotiated e ops (new ++ (e.run ops).log) := by
  obtain ⟨before, accept, middle, agree, after, rfl, hagreed⟩ := h
  exact ⟨before, accept, middle, agree, after, rfl, hagreed.toAccepted.grow hno, hagreed.agrees, hagreed.agree_id,
    hagreed.agree_log.trans (List.suffix_append ..)⟩

theorem id_eq_rxId {frame : Frame} (hc : e.isChannelFrame frame = true) : frame.id = e.channel.rxId := by
  simp only [isChannelFrame, Bool.and_eq_true, beq_iff_eq] at hc
  exact hc.2

/-- What the run behind a channel holds. -/
structure Recorded (e : Engine) (ops : List Operation) : Prop where
  rests : (e.run ops).channel.Rests
  params : (e.run ops).channel.state = .params → ∃ before accept since, ops = before ++ .frame accept :: since ∧
    Accepted e before accept since (e.run ops).log ∧ (e.run ops).channel.rxId = accept.assigned
  up : (e.run ops).channel.state.isHalfOpen = false → Negotiated e ops (e.run ops).log
  transfers : ∀ later s earlier, (e.run ops).log = later ++ s :: earlier → s.event.isTransfer = true →
    Negotiated e ops earlier

namespace Recorded

theorem start (hc : e.channel = .shut) (hl : e.log = []) : Recorded e [] := by
  have hs : (e.run []).channel.state = .closed := congrArg Channel.state hc
  refine ⟨?_, fun hp => ?_, fun hup => ?_, fun later s earlier heq _ => ?_⟩
  · exact hc ▸ Channel.rests_shut
  · rw [hs] at hp
    cases hp
  · rw [hs] at hup
    cases hup
  · rw [show (e.run []).log = [] from hl] at heq
    exact absurd heq (by simp)

/-- A transfer of the run so far. -/
theorem push (h : Recorded e ops) {later earlier : List Stamped} {s : Stamped}
    (heq : (e.run ops).log = later ++ s :: earlier) (hs : s.event.isTransfer = true) (op : Operation) :
    Negotiated e (ops ++ [op]) earlier := by
  refine (h.transfers later s earlier heq hs).push fun hlog => ?_
  have hlen := ((log_run_suffix (List.prefix_append ops [op])).trans hlog).length_le
  rw [heq, List.length_append, List.length_cons] at hlen
  omega

/-- The module accepts the channel. -/
theorem accepts (h : Recorded e ops) (ha : (e.run ops).Accepts accept)
    (hadmitted : Admitted accept (e.run ops) (e.run (ops ++ [.frame accept]))) :
    Recorded e (ops ++ [.frame accept]) := by
  refine ⟨hadmitted.rests, fun hp => ?_, fun hup => ?_, fun later s earlier heq hs => ?_⟩
  · obtain ⟨hid, new, hnew, hno⟩ := hadmitted.params hp
    refine ⟨ops, accept, [], rfl, ⟨ha, ?_, fun ops' hops _ => ?_, new, hnew, hno⟩, hid⟩
    · rw [← h.rests.rxId_eq ha.state_eq]
      exact id_eq_rxId ha.onChannel
    · rw [List.prefix_nil.1 hops, hp]
      decide
  · rw [hadmitted.down] at hup
    cases hup
  · obtain ⟨new, hnew, hno⟩ := hadmitted.log
    rcases split_append (hnew.symm.trans heq) with ⟨mid, hmid⟩ | ⟨between, rfl, -⟩
    · exact h.push hmid hs _
    · rw [hno s (by simp)] at hs
      cases hs

/-- The channel was fit for data, or the module answers with its parameters. -/
theorem negotiated (h : Recorded e ops)
    (hup : (e.run ops).channel.state.isHalfOpen = false ∨ ∃ agree, op = .frame agree ∧ (e.run ops).Agrees agree)
    (hno : ∀ s ∈ new, s.event.isSetup = false)
    (hc : (e.run (ops ++ [op])).log <:+ new ++ (e.run ops).log → (e.run (ops ++ [op])).channel.state ≠ .closed) :
    Negotiated e (ops ++ [op]) (new ++ (e.run ops).log) := by
  rcases hup with hup | ⟨agree, rfl, ha⟩
  · exact ((h.up hup).grow hno).push hc
  · obtain ⟨before, accept, since, rfl, haccepted, hid⟩ := h.params ha.state_eq
    refine ⟨before, accept, since, agree, [], by simp, (haccepted.grow hno).push ?_, ha, ?_, List.suffix_append ..⟩
    · simpa only [List.append_assoc, List.cons_append] using hc
    · rw [← hid]
      exact id_eq_rxId ha.onChannel

/-- The module does not accept a channel. -/
theorem sinks (h : Recorded e ops)
    (hsinks : Sinks (∃ agree, op = .frame agree ∧ (e.run ops).Agrees agree) (e.run ops) (e.run (ops ++ [op]))) :
    Recorded e (ops ++ [op]) := by
  refine ⟨hsinks.rests h.rests, fun hp => ?_, fun hup => ?_, fun later s earlier heq hs => ?_⟩
  · obtain ⟨hp', hid, new, hnew, hno⟩ := hsinks.params hp
    obtain ⟨before, accept, since, rfl, haccepted, hid'⟩ := h.params hp'
    refine ⟨before, accept, since ++ [op], by simp, hnew ▸ (haccepted.grow hno).push fun _ => ?_, hid.trans hid'⟩
    rw [← List.cons_append, ← List.append_assoc, hp]
    decide
  · obtain ⟨hup', new, hnew, hno⟩ := hsinks.up hup
    rw [hnew]
    refine h.negotiated hup' hno fun _ hc => ?_
    rw [hc] at hup
    cases hup
  · obtain ⟨new, hnew⟩ := hsinks.grows
    rcases split_append (hnew.trans heq) with ⟨mid, hmid⟩ | ⟨between, rfl, rfl⟩
    · exact h.push hmid hs op
    · obtain ⟨hup, hno⟩ := hsinks.transfer later s between heq hs
      refine h.negotiated hup hno fun hlog => ?_
      have hlen := hlog.length_le
      rw [heq, List.length_append, List.length_cons] at hlen
      omega

theorem snoc (h : Recorded e ops) (ho : (e.run ops).channel.Owned) (op : Operation) : Recorded e (ops ++ [op]) := by
  have hrun : e.run (ops ++ [op]) = (e.run ops).step op := run_append e ops [op]
  by_cases hacc : ∃ accept, op = .frame accept ∧ (e.run ops).Accepts accept
  · obtain ⟨accept, rfl, ha⟩ := hacc
    refine h.accepts ha ?_
    rw [hrun]
    exact ha.admitted (ho.bound (by rw [ha.state_eq]; decide))
  · refine h.sinks ?_
    rw [hrun]
    exact step_sinks ho.bound fun accept hop ha => hacc ⟨accept, hop, ha⟩

theorem run (hc : e.channel = .shut) (hl : e.log = []) (ops : List Operation) : Recorded e ops := by
  induction ops using List.reverseRecOn with
  | nil => exact start hc hl
  | append_singleton ops op ih => exact ih.snoc (owned_run (hc ▸ Channel.owned_shut) ops) op

end Recorded

end

/-- When a data or abort frame is written, the channel has been negotiated since it was last closed: its module has
accepted it and then answered with its parameters, each on the id where it was to answer. And between operations the
channel is in no state that is only passed through, and it is closed just when it belongs to no module; then nothing
is left of the last one. -/
theorem transfers_negotiated (bus : BusId) (name : String) (reports : Bool) (settings : EngineSettings)
    (ops : List Operation) (e : Engine) (he : e = Engine.new bus name reports settings) :
    let channel := (e.run ops).channel
    (∀ later s earlier, (e.run ops).log = later ++ s :: earlier → s.event.isTransfer = true →
      Negotiated e ops earlier) ∧
    channel.state ≠ .startPoll ∧ channel.state ≠ .abort ∧ (channel.state = .closed ↔ channel.bound = false) ∧
      (channel.state = .closed → channel = { Channel.shut with lastUsed := channel.lastUsed }) := by
  intro channel
  have hc : e.channel = .shut := by rw [he]; rfl
  have h := Recorded.run hc (by rw [he]; rfl) ops
  have ho : channel.Owned := owned_run (hc ▸ Channel.owned_shut) ops
  refine ⟨h.transfers, h.rests.not_starting, h.rests.not_aborting, ⟨h.rests.bound_of_closed, fun hb => ?_⟩,
    h.rests.eq_shut⟩
  by_contra hopen
  rw [ho.bound hopen] at hb
  cases hb

/-- A single request breaks into a transfer to its own module: three transfers are written on one negotiated channel,
and the engine that is shut down has closed it. -/
theorem transfers_negotiated_example :
    let bus : BusId := ⟨1, by decide⟩
    let read : PollEntry := ⟨0x200, 1, 0x22, 0xf190, [], #v[1, 1, 1, 1], 1, .vwtp20⟩
    let ident : PollEntry := ⟨0x200, 1, 0x22, 0xf187, [], #v[1, 1, 1, 1], 1, .vwtp20⟩
    let e := Engine.new bus "ecu" false ⟨0, 25, .strict, 0, 0⟩
    let ops : List Operation := [.setList (some [read]) none, .tick true,
      .frame (EcuFrame.channel bus 0x201 [0x00, 0xd0, 0x00, 0x03, 0x40, 0x07, 0x01]),
      .frame (EcuFrame.channel bus 0x300 [0xa1, 0x0f, 0x8a, 0xff, 0x0a, 0xff]), .submit ⟨1, ident, 9000, none⟩]
    let log := (e.run ops).log
    log.countP (·.event.isTransfer) = 3 ∧ log.head?.any (·.event.isTransfer) = true ∧ Negotiated e ops log.tail ∧
      (e.run (ops ++ [.shutdown])).channel = .shut := by
  intro bus read ident e ops log
  obtain ⟨htransfers, -⟩ := transfers_negotiated bus "ecu" false _ ops e rfl
  have hhead : log.head?.any (·.event.isTransfer) = true := by decide
  refine ⟨by decide, hhead, ?_, by decide⟩
  cases hlog : log with
  | nil =>
    rw [hlog] at hhead
    cases hhead
  | cons s earlier =>
    rw [hlog] at hhead
    exact htransfers [] s earlier hlog hhead

end Engine

end EcuPoll
