import EcuPoll.Proofs.Engine.Accounts

/-!
# Channels belong to modules

A channel that is not closed has been asked for by a poll, so that it belongs to a module, and never to module 0,
which stands for none: `Channel.Owned`. Only `requestSetup` and the loss of a channel change the owner; the rest
of the transport leaves it alone (`owner_requestClose` and its like).
-/

namespace EcuPoll

namespace Channel
variable {c c' : Channel}

def owner (c : Channel) : Bool × UInt32 := (c.bound, c.moduleId)

structure Owned (c : Channel) : Prop where
  bound : c.state ≠ .closed → c.bound = true
  moduleId : c.bound = true → c.moduleId ≠ 0

theorem owned_shut : shut.Owned := ⟨fun h => absurd rfl h, nofun⟩

theorem Owned.congr (h : c.Owned) (ho : c'.owner = c.owner)
    (hs : c'.state ≠ .closed → c.state ≠ .closed) : c'.Owned := by
  obtain ⟨hb, hm⟩ := Prod.mk.inj ho
  refine ⟨fun h' => ?_, fun h' => ?_⟩
  · rw [hb]; exact h.bound (hs h')
  · rw [hm]; exact h.moduleId (hb ▸ h')

end Channel

namespace Engine
variable {e e' : Engine}

/-! ### What leaves the owner alone -/

theorem channel_transmit (e : Engine) (kind : FrameKind) (frame : Frame) :
    (e.transmit kind frame).channel = e.channel := by
  rw [transmit_eq]

theorem owner_expectOnChannel (e : Engine) : e.expectOnChannel.channel.owner = e.channel.owner :=
  congrArg Channel.owner (channel_expectOnChannel e)

theorem owner_requestParams (e : Engine) : e.requestParams.channel.owner = e.channel.owner := by
  unfold requestParams
  split
  · rfl
  · dsimp only
    rw [channel_transmit]
    exact owner_expectOnChannel e

theorem owner_requestClose (e : Engine) : e.requestClose.channel.owner = e.channel.owner := by
  unfold requestClose
  split
  · rfl
  · dsimp only
    rw [channel_transmit]
    exact owner_expectOnChannel e

theorem owner_goIdle (e : Engine) : e.goIdle.channel.owner = e.channel.owner := by
  unfold goIdle
  split <;> rfl

theorem owner_awaitResponse (e : Engine) : e.awaitResponse.channel.owner = e.channel.owner := by
  unfold awaitResponse
  split <;> rfl

theorem owner_sendFrames (header : List UInt8) (left : Nat) (e : Engine) :
    (Engine.sendFrames header left e).channel.owner = e.channel.owner := by
  induction left generalizing e with
  | zero => rfl
  | succ left ih =>
    have hone : (e.sendFrame header left).channel.owner = e.channel.owner := by
      unfold sendFrame
      dsimp only
      rw [channel_transmit]
      rfl
    unfold Engine.sendFrames
    dsimp only
    split
    · exact hone
    · exact (ih _).trans hone

theorem owner_sendBlock (e : Engine) : e.sendBlock.channel.owner = e.channel.owner := by
  unfold sendBlock
  cases e.job.entry with
  | none => rfl
  | some entry =>
    refine Eq.trans ?_ (owner_sendFrames entry.header (max 1 e.channel.blockSize.toNat) e)
    exact owner_expectOnChannel _

theorem owner_sendRequest (e : Engine) : e.sendRequest.channel.owner = e.channel.owner := by
  unfold sendRequest
  split
  · rfl
  · exact owner_sendBlock _

theorem owner_abortTransfer (e : Engine) : e.abortTransfer.channel.owner = e.channel.owner := by
  unfold abortTransfer
  dsimp only
  rw [channel_transmit]
  refine (owner_expectOnChannel _).trans ?_
  dsimp only
  split <;> rfl

theorem owner_interrupt (e : Engine) : e.interrupt.channel.owner = e.channel.owner := by
  unfold interrupt
  split
  · exact owner_abortTransfer e
  · exact owner_abortTransfer e
  · rfl

/-! ### Every run -/

theorem owned_requestSetup (h : e.channel.Owned)
    (hr : ∀ entry, e.job.entry = some entry → entry.rx ≠ 0) : e.requestSetup.channel.Owned := by
  unfold requestSetup
  cases he : e.job.entry with
  | none => exact h
  | some entry =>
    dsimp only
    split
    · exact h
    · have hc := channel_expectOnChannel { e with channel := e.channel.request entry.tx entry.rx }
      rw [channel_transmit]
      refine ⟨fun _ => congrArg Channel.bound hc, fun _ => ?_⟩
      show Channel.moduleId (Engine.channel _) ≠ 0
      rw [hc]
      exact hr entry he

theorem owned_startVwtp (h : e.channel.Owned) : e.startVwtp.channel.Owned := by
  rcases he : e.job.entry with _ | entry
  · simp only [startVwtp, he]
    exact h
  · have ht : e.touchChannel.channel.Owned := h.congr rfl id
    have hentry : ∀ entry', e.touchChannel.job.entry = some entry' → entry' = entry :=
      fun entry' he' => Option.some.inj (he'.symm.trans he)
    have hst := startVwtp_start e he
    generalize e.startVwtp = e' at hst ⊢
    cases hst with
    | again hc hs =>
      simp only [Channel.isFor, Bool.and_eq_true, beq_iff_eq] at hc
      refine owned_requestSetup ht fun entry' he' => ?_
      rw [hentry entry' he', ← hc.2]
      exact ht.moduleId hc.1.1
    | request hc hs =>
      refine ht.congr ((owner_sendRequest _).trans (owner_interrupt _)) fun _ hclosed => ?_
      rw [hclosed] at hs
      cases hs
    | close hc hs => exact ht.congr (owner_requestClose _) fun _ => hs
    | setup hs hr =>
      refine owned_requestSetup ht fun entry' he' => ?_
      rw [hentry entry' he']
      exact hr
    | nothing =>
      rw [(Delivers.deliverFailure ..).channel]
      exact ht

theorem owned_dispatch (h : e.channel.Owned) (entry : PollEntry) :
    (e.dispatch entry).channel.Owned := by
  unfold dispatch
  split
  · exact owned_startVwtp (e := e.assign entry) h
  · unfold startIsoTp
    split
    · exact h
    · dsimp only
      rw [channel_transmit]
      exact h

theorem owned_startSingle (h : e.channel.Owned) (request : SingleRequest) :
    (e.startSingle request).channel.Owned := by
  unfold startSingle
  split
  · exact h
  · dsimp only
    split
    · exact owned_dispatch (e := (e.capture request).advance) h _
    · rw [(Delivers.finishSingle ..).channel]
      exact h

theorem owned_shutChannel (h : e.channel.Owned) : e.shutChannel.channel.Owned := by
  unfold shutChannel
  split
  · exact h
  · exact Channel.owned_shut

theorem Turn.owned (h : e.channel.Owned) (ht : Turn e e') : e'.channel.Owned := by
  cases ht with
  | shut => exact owned_shutChannel h
  | reopen => exact owned_startVwtp h
  | close hw hs => exact h.congr (owner_requestClose e) fun _ => hs
  | expire =>
    rw [(Delivers.expireSingle e).channel]
    exact h
  | @single request queued => exact owned_startSingle (e := { e with queued }) h request
  | pass =>
    unfold startPass
    dsimp only
    split <;> exact h
  | poll =>
    unfold pollList
    split
    · exact owned_dispatch (e := e.advance) h _
    · split <;> exact h
    · exact h
  | fail =>
    unfold failTransmission
    rw [(Delivers.deliverFailure ..).channel]
    dsimp only
    split
    · exact Channel.owned_shut
    · exact h
  | sent success | count | grace | release | arm | take => exact h

theorem channel_burst (target : UInt32) (delay count : Nat) (e : Engine) :
    (Engine.burst target delay count e).channel = e.channel := by
  induction count generalizing e with
  | zero => rfl
  | succ count ih =>
    have hone : (e.sendConsecutive target).channel = e.channel := channel_transmit ..
    unfold Engine.burst
    split
    · rfl
    · dsimp only
      split
      · exact hone
      · exact (ih _).trans hone

theorem channel_isoTpFlow (e : Engine) (id : UInt32) (command blockSize septime : UInt8) :
    (e.isoTpFlow id command blockSize septime).channel = e.channel := by
  have hb := channel_burst (e.isoTpTarget id) (separationDelay septime) (e.allowedFrames blockSize) e
  unfold isoTpFlow
  split
  · rfl
  · split
    · rfl
    · rfl
    · rfl
    · dsimp only
      split <;> exact hb

theorem Move.owned {stray : Prop} (h : e.channel.Owned) (hm : Move stray e e') : e'.channel.Owned := by
  cases hm with
  | turn ht => exact ht.owned h
  | refuse =>
    obtain ⟨new, heq, -⟩ := refuseQueued_eq e
    rw [heq]
    exact h
  | unavailable =>
    rw [(Delivers.finishSingle ..).channel]
    exact h
  | reply data =>
    rw [(Delivers.deliverReply ..).channel]
    exact h
  | failure failure =>
    rw [(Delivers.deliverFailure ..).channel]
    exact h
  | allow =>
    unfold sendFlowControl
    rw [channel_transmit]
    exact h
  | flow =>
    rw [channel_isoTpFlow]
    exact h
  | lose => exact Channel.owned_shut
  | shut => exact owned_shutChannel h
  | close hs => exact h.congr (owner_requestClose e) fun _ => hs
  | assignIds => exact h.congr rfl id
  | params hs => exact h.congr (owner_requestParams e) fun _ => by rw [hs]; decide
  | agree => exact h.congr rfl id
  | request hs => exact h.congr (owner_sendRequest e) fun _ => by rw [hs]; decide
  | setup hs hj hr =>
    refine owned_requestSetup h fun entry he => ?_
    simpa [he] using hr
  | block hs => exact h.congr (owner_sendBlock e) fun _ => by rw [hs]; decide
  | await hs => exact h.congr (owner_awaitResponse e) fun _ => by rw [hs]; decide
  | receive => exact h.congr rfl id
  | abort hs => exact h.congr (owner_abortTransfer e) fun _ => by rw [hs]; decide
  | idle hs => exact h.congr (owner_goIdle e) fun _ => by rcases hs with hs | hs <;> rw [hs] <;> decide
  | ack =>
    unfold sendAck
    rw [channel_transmit]
    exact h
  | pong =>
    unfold sendPong
    rw [channel_transmit]
    exact h
  | refuseData =>
    unfold Engine.refuseData
    dsimp only
    rw [channel_transmit]
    exact h.congr rfl id
  | reject | elapse | adjust | throttle | begin | disarm | halt | progress | drop => exact h

theorem Moves.owned {stray : Prop} (h : e.channel.Owned) (hm : Moves stray e e') : e'.channel.Owned := by
  induction hm with
  | refl => exact h
  | tail _ hm ih => exact hm.owned ih

theorem owned_step (h : e.channel.Owned) (op : Operation) : (e.step op).channel.Owned := by
  cases op with
  | submit request =>
    have hq : ({ e with queued := e.queued ++ [request] } : Engine).channel.Owned := h
    exact (@submit_moves False e request).owned hq
  | setList list defaultBus =>
    show (e.setList list defaultBus).channel.Owned
    unfold setList
    split <;> exact h
  | setState state =>
    show (e.setState state).channel.Owned
    unfold setState
    dsimp only
    split <;> exact h
  | _ => exact (step_moves e (by simp) (by simp) (by simp)).owned h

theorem owned_run (h : e.channel.Owned) (ops : List Operation) : (e.run ops).channel.Owned := by
  induction ops generalizing e with
  | nil => exact h
  | cons op ops ih => exact ih (owned_step h op)

end Engine

end EcuPoll
