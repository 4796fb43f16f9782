import EcuPoll.Proofs.Engine.Turns

/-!
# Moves of an engine

Every operation but the two that replace the poll list or the poll state is a sequence of moves: the
turns that an engine takes on its own account, what a received frame does, and the settings. A single
request is put into the queue before them. A claim about every run then needs one case for each move.

What a received frame does is a sequence of effects, after which the next poll may be chained. A frame that
brings the channel up does so by effects that no other frame has, so that a claim about the channel can look
at these frames on their own: an `Action` is a move that still says whether the operation lifts the channel.

A module may answer on the channel when the poll in flight does not run over the channel any more.
The engine then sends that poll's request over the channel all the same; such a frame is a
`StrayAnswer`. The moves that send request data carry the proof that the poll runs over the channel,
or that a stray answer came in.
-/

namespace EcuPoll.Engine
variable {stray lifts : Prop} {e e' e'' : Engine}

/-- The frame is an answer of the channel's module that makes the engine send request data, while the
poll in flight is an ISO-TP poll. -/
def StrayAnswer (e : Engine) (frame : Frame) : Prop :=
  frame.bus = e.bus ∧ e.isChannelFrame frame = true ∧ e.job.isVwtp = false ∧
    (e.channel.state = .params ∧ frame.dlc ≠ 0 ∧ Frame.leadByte frame.data = Opcode.paramsResponse ∨
      e.channel.state = .transmit ∧ frame.dlc = 1 ∧
        Opcode.high (Frame.leadByte frame.data) = Opcode.ackReady ∧ 0 < e.out.remaining)

instance (e : Engine) (frame : Frame) : Decidable (e.StrayAnswer frame) :=
  inferInstanceAs (Decidable (_ ∧ _ ∧ _ ∧ _))

/-- With this frame the module that was asked for a channel accepts. -/
structure Accepts (e : Engine) (frame : Frame) : Prop where
  bus_eq : frame.bus = e.bus
  onChannel : e.isChannelFrame frame = true
  state_eq : e.channel.state = .setup
  length_eq : min frame.dlc 8 = 7
  opcode_eq : frame.data.get 1 = Opcode.setupAccept

/-- With this frame the module of the channel answers with its parameters. -/
structure Agrees (e : Engine) (frame : Frame) : Prop where
  bus_eq : frame.bus = e.bus
  onChannel : e.isChannelFrame frame = true
  state_eq : e.channel.state = .params
  dlc_ne : frame.dlc ≠ 0
  opcode_eq : Frame.leadByte frame.data = Opcode.paramsResponse

/-! ### What a received frame does -/

/-- One effect of a received frame, with what is known when it comes about. The channel comes up only if the
frame `lifts` it. -/
inductive Effect (stray lifts : Prop) (e : Engine) : Engine → Prop
  -- a response
  | progress (received : UInt32) (mlFrame mlOffset mlRemain : UInt16) (wait : Nat) :
    Effect stray lifts e { e with job := { e.job with received, mlFrame, mlOffset, mlRemain }, wait }
  | reject (hj : e.job.isVwtp = false) : Effect stray lifts e e.rejectResponse
  | reply (data : List UInt8) : Effect stray lifts e (e.deliverReply data)
  | failure (failure : PollFailure) : Effect stray lifts e (e.deliverFailure failure)
  | allow (hj : e.job.isVwtp = false) (id : UInt32) : Effect stray lifts e (e.sendFlowControl id)
  | flow (hj : e.job.isVwtp = false) (he : e.job.entry.isSome = true) {id : UInt32}
    (hi : e.job.accepts id = true) (command blockSize septime : UInt8) :
    Effect stray lifts e (e.isoTpFlow id command blockSize septime)
  -- the channel
  | lose : Effect stray lifts e e.loseChannel
  | shut : Effect stray lifts e e.shutChannel
  | close (hs : e.channel.state ≠ .closed) : Effect stray lifts e e.requestClose
  | assignIds (hl : lifts) (hs : e.channel.state = .setup) (rxId txId : UInt32) :
    Effect stray lifts e { e with channel := { e.channel with rxId, txId } }
  | params (hl : lifts) (hs : e.channel.state = .setup) : Effect stray lifts e e.requestParams
  | agree (hl : lifts) (hs : e.channel.state = .params) (blockSize : UInt8) (ackTime sepTime : Nat) :
    Effect stray lifts e { e with channel := { e.channel with blockSize, ackTime, sepTime } }
  | request (hl : lifts) (hs : e.channel.state = .params) (hj : e.job.isVwtp = true ∨ stray) :
    Effect stray lifts e e.sendRequest
  | setup (hs : e.channel.state = .closed) (hj : e.isOnChannel = true)
    (hr : e.job.entry.any (·.rx ≠ 0) = true) : Effect stray lifts e e.requestSetup
  | block (hs : e.channel.state = .transmit) (ho : 0 < e.out.remaining)
    (hj : e.job.isVwtp = true ∨ stray) : Effect stray lifts e e.sendBlock
  | await (hs : e.channel.state = .transmit) (ho : e.out.remaining = 0) :
    Effect stray lifts e e.awaitResponse
  | drop (hs : e.channel.state = .transmit) : Effect stray lifts e { e with out := e.out.clear }
  | receive (hs : e.channel.state = .receive) : Effect stray lifts e e.countData
  | abort (hs : e.channel.state = .receive) : Effect stray lifts e e.abortTransfer
  | idle (hs : e.channel.state = .transmit ∨ e.channel.state = .receive) : Effect stray lifts e e.goIdle
  | ack : Effect stray lifts e e.sendAck
  | pong : Effect stray lifts e e.sendPong
  | refuseData (hs : e.channel.state = .idle) : Effect stray lifts e e.refuseData

/-- A sequence of effects. -/
abbrev Effects (stray lifts : Prop) : Engine → Engine → Prop := Relation.ReflTransGen (Effect stray lifts)

/-- The next poll may be chained. -/
def Chains (e e' : Engine) : Prop :=
  e' = e ∨ e.wait = 0 ∧ e' = e.pollNext

/-- After some effects the next poll may be chained. -/
def Reacts (stray lifts : Prop) (e e' : Engine) : Prop :=
  ∃ acted, Effects stray lifts e acted ∧ Chains acted e'

theorem channel_acknowledge (e : Engine) (opcode : UInt8) :
    (e.acknowledge opcode).channel = e.channel := by
  unfold acknowledge
  split
  · unfold sendAck; rw [transmit_eq]
  · rfl

namespace Effects

theorem refl (e : Engine) : Effects stray lifts e e := Relation.ReflTransGen.refl

theorem effect (h : Effects stray lifts e e') (h' : Effect stray lifts e' e'') : Effects stray lifts e e'' :=
  Relation.ReflTransGen.tail h h'

/-- The place in the response and the wait counter move on. -/
theorem progress (h : Effects stray lifts e e') (received : UInt32) (mlFrame mlOffset mlRemain : UInt16)
    (wait : Nat) : Effects stray lifts e
      { e' with job := { e'.job with received, mlFrame, mlOffset, mlRemain }, wait } :=
  h.effect (.progress ..)

theorem reacts (h : Effects stray lifts e e') : Reacts stray lifts e e' := ⟨e', h, .inl rfl⟩

/-! ### Responses over ISO-TP -/

theorem deliverSegment (h : Effects stray lifts e e') (id : UInt32) (payload : List UInt8) (remain : UInt16) :
    Effects stray lifts e (e'.deliverSegment id payload remain) :=
  (h.progress ..).effect (.reply payload)

theorem afterSegment (h : Effects stray lifts e e') (hj : e'.job.isVwtp = false) (id : UInt32) (first : Bool)
    (length : Nat) : Reacts stray lifts e (e'.afterSegment id first length) := by
  unfold Engine.afterSegment
  split
  · have hw : Effects stray lifts e { e' with wait := 0 } := h.progress ..
    dsimp only
    split
    · exact hw.reacts
    · exact ⟨_, hw, .inr ⟨rfl, rfl⟩⟩
  · cases first with
    | true => exact ((h.effect (.allow hj id)).progress ..).reacts
    | false => exact (h.progress ..).reacts

theorem receiveOpening (h : Effects stray lifts e e') (hj : e'.job.isVwtp = false) (id : UInt32)
    (total : UInt16) (segment : List UInt8) (first : Bool) :
    Reacts stray lifts e (e'.receiveOpening id total segment first) := by
  unfold Engine.receiveOpening
  split
  · exact h.reacts
  · split
    · exact (h.progress ..).reacts
    · refine Effects.afterSegment ((h.progress ..).effect (.failure _)) ?_ ..
      rw [(Delivers.deliverFailure ..).job]
      exact hj
  · refine (h.deliverSegment ..).afterSegment ?_ ..
    unfold Engine.deliverSegment
    rw [(Delivers.deliverReply ..).job]
    exact hj

theorem receiveConsecutive (h : Effects stray lifts e e') (hj : e'.job.isVwtp = false) (id : UInt32)
    (index : UInt8) (data : List UInt8) :
    Reacts stray lifts e (e'.receiveConsecutive id index data) := by
  unfold Engine.receiveConsecutive
  split
  · exact (h.effect (.reject hj)).reacts
  · refine (h.deliverSegment ..).afterSegment ?_ ..
    unfold Engine.deliverSegment
    rw [(Delivers.deliverReply ..).job]
    exact hj

theorem receiveIsoTp (h : Effects stray lifts e e') (hj : e'.job.isVwtp = false)
    (he : e'.job.entry.isSome = true) (frame : Frame) {id : UInt32} (hi : e'.job.accepts id = true) :
    Reacts stray lifts e (e'.receiveIsoTp frame id) := by
  unfold Engine.receiveIsoTp
  split
  · exact h.reacts
  · exact (h.effect (.flow hj he hi ..)).reacts
  · exact h.receiveOpening hj ..
  · exact h.receiveOpening hj ..
  · exact h.receiveConsecutive hj ..

/-! ### Responses over the channel -/

theorem acknowledge (h : Effects stray lifts e e') (opcode : UInt8) :
    Effects stray lifts e (e'.acknowledge opcode) := by
  unfold Engine.acknowledge
  split
  · exact h.effect .ack
  · exact h

theorem afterData (h : Effects stray lifts e e') (hs : e'.channel.state = .receive) (length : Nat) :
    Effects stray lifts e (e'.afterData length) := by
  unfold Engine.afterData
  split
  · exact h.effect (.idle (.inr hs))
  · exact h.progress ..

theorem deliverData (h : Effects stray lifts e e') (hs : e'.channel.state = .receive) (opcode : UInt8)
    (segment payload : List UInt8) : Effects stray lifts e (e'.deliverData opcode segment payload) := by
  have hs : (e'.acknowledge opcode).channel.state = .receive := by
    rw [channel_acknowledge]; exact hs
  refine ((h.acknowledge opcode).deliverSegment ..).afterData ?_ _
  unfold Engine.deliverSegment
  rw [(Delivers.deliverReply ..).channel]
  exact hs

theorem receiveFirstData (h : Effects stray lifts e e') (hs : e'.channel.state = .receive) (opcode : UInt8)
    (total : UInt16) (segment : List UInt8) :
    Effects stray lifts e (e'.receiveFirstData opcode total segment).2 := by
  unfold Engine.receiveFirstData
  have ht : Effects stray lifts e { e' with job := { e'.job with mlRemain := total } } := h.progress ..
  dsimp only
  split
  · exact ht.effect (.abort hs)
  · exact ht.deliverData hs ..
  · split
    · exact (ht.acknowledge opcode).progress ..
    · refine (((ht.acknowledge opcode).progress ..).effect (.failure _)).effect (.idle (.inr ?_))
      rw [(Delivers.deliverFailure ..).channel]
      exact (congrArg Channel.state (channel_acknowledge _ opcode)).trans hs

theorem receiveData (h : Effects stray lifts e e') (hs : e'.channel.state = .receive) (opcode : UInt8)
    (data : List UInt8) : Effects stray lifts e (e'.receiveData opcode data).2 := by
  have hc := h.effect (.receive hs)
  unfold Engine.receiveData
  split
  · exact hc.effect (.abort hs)
  · split
    · exact hc.deliverData hs ..
    · exact hc.receiveFirstData hs ..

/-! ### The other states of the channel -/

theorem deliverClosed (h : Effects stray lifts e e') : Effects stray lifts e (e'.deliverFailure .channelClosed) :=
  h.effect (.failure _)

theorem peerClose (h : Effects stray lifts e e') (hs : e'.channel.state ≠ .closed) :
    Effects stray lifts e e'.peerClose := by
  have hc := (h.effect (.close hs)).effect .shut
  unfold Engine.peerClose
  dsimp only
  split
  · exact hc.deliverClosed
  · exact hc

theorem receiveSetup (h : Effects stray lifts e e') (hs : e'.channel.state = .setup) (length : Nat)
    (d : Vector UInt8 8) (hl : length = 7 → d.get 1 = Opcode.setupAccept → lifts) :
    Effects stray lifts e (e'.receiveSetup length d).2 := by
  unfold Engine.receiveSetup
  by_cases hlength : length ≠ 7 ∨ d[1] < Opcode.setupAccept ∨ Opcode.setupRejectMax < d[1]
  · rw [if_pos hlength]
    exact h
  · rw [if_neg hlength]
    by_cases hd : d[1] ≠ Opcode.setupAccept
    · rw [if_pos hd]
      exact (h.effect .lose).deliverClosed
    · rw [if_neg hd]
      have hl := hl (by simp_all) (Decidable.not_not.1 hd)
      exact (h.effect (.assignIds hl hs ..)).effect (.params hl hs)

theorem receiveParams (h : Effects stray lifts e e') (hs : e'.channel.state = .params) (length : Nat)
    (d : Vector UInt8 8)
    (hl : length ≠ 0 → Frame.leadByte d = Opcode.paramsResponse →
      lifts ∧ (e'.job.isVwtp = true ∨ stray)) :
    Effects stray lifts e (e'.receiveParams length d).2 := by
  unfold Engine.receiveParams
  by_cases hlength : length = 0
  · rw [if_pos hlength]
    exact h
  · rw [if_neg hlength]
    by_cases hd : Frame.leadByte d = Opcode.paramsResponse
    · rw [if_pos hd]
      obtain ⟨hl, hj⟩ := hl hlength hd
      exact (h.effect (.agree hl hs ..)).effect (.request hl hs hj)
    · rw [if_neg hd]
      split
      · exact h.peerClose (by rw [hs]; nofun)
      · exact h

theorem receiveClosing (h : Effects stray lifts e e') (length : Nat) (d : Vector UInt8 8) :
    Effects stray lifts e (e'.receiveClosing length d).2 := by
  have hc := h.effect .shut
  unfold Engine.receiveClosing
  split
  · exact h
  · dsimp only
    by_cases hj : (!e'.shutChannel.isOnChannel) = true
    · rw [if_pos hj]
      exact hc
    · rw [if_neg hj]
      by_cases hr : e'.shutChannel.job.entry.any (·.rx ≠ 0) = true
      · rw [if_pos hr]
        exact hc.effect (.setup (channel_shutChannel e') (by simpa using hj) hr)
      · rw [if_neg hr]
        exact hc.deliverClosed

theorem receiveIdle (h : Effects stray lifts e e') (hs : e'.channel.state = .idle) (opcode : UInt8) :
    Effects stray lifts e (e'.receiveIdle opcode) := by
  unfold Engine.receiveIdle
  split
  · exact h.effect .pong
  · split
    · exact h.peerClose (by rw [hs]; nofun)
    · split
      · exact h.effect (.refuseData hs)
      · exact h

theorem receiveAck (h : Effects stray lifts e e') (hs : e'.channel.state = .transmit) (opcode : UInt8)
    (hj : Opcode.high opcode = Opcode.ackReady → 0 < e'.out.remaining →
      e'.job.isVwtp = true ∨ stray) :
    Effects stray lifts e (e'.receiveAck opcode) := by
  unfold Engine.receiveAck
  by_cases ha : Opcode.high opcode = Opcode.ackReady
  · rw [if_pos ha]
    by_cases ho : 0 < e'.out.remaining
    · rw [if_pos ho]
      exact h.effect (.block hs ho (hj ha ho))
    · rw [if_neg ho]
      exact h.effect (.await hs (by omega))
  · rw [if_neg ha]
    split
    · exact (h.effect (.drop hs)).effect (.idle (.inl hs))
    · split
      · exact h.effect .pong
      · split
        · exact h.peerClose (by rw [hs]; nofun)
        · exact h

theorem receiveResponse (h : Effects stray lifts e e') (hs : e'.channel.state = .receive) (opcode : UInt8)
    (data : List UInt8) : Effects stray lifts e (e'.receiveResponse opcode data).2 := by
  unfold Engine.receiveResponse
  split
  · exact h.effect .pong
  · split
    · exact h.peerClose (by rw [hs]; nofun)
    · split
      · exact h.receiveData hs ..
      · exact h

end Effects

theorem isVwtp_or_stray {frame : Frame} (hb : frame.bus = e.bus) (hc : e.isChannelFrame frame = true)
    (hf : e.channel.state = .params ∧ frame.dlc ≠ 0 ∧ Frame.leadByte frame.data = Opcode.paramsResponse ∨
      e.channel.state = .transmit ∧ frame.dlc = 1 ∧
        Opcode.high (Frame.leadByte frame.data) = Opcode.ackReady ∧ 0 < e.out.remaining) :
    e.job.isVwtp = true ∨ e.StrayAnswer frame := by
  cases hj : e.job.isVwtp with
  | true => exact .inl rfl
  | false => exact .inr ⟨hb, hc, hj, hf⟩

theorem channelStep_effects (e : Engine) {frame : Frame} (hb : frame.bus = e.bus)
    (hc : e.isChannelFrame frame = true) :
    Effects (e.StrayAnswer frame) (e.Accepts frame ∨ e.Agrees frame) e (e.channelStep frame).2 := by
  have h := @Effects.refl (e.StrayAnswer frame) (e.Accepts frame ∨ e.Agrees frame) e
  unfold channelStep
  dsimp only
  cases hs : e.channel.state with
  | setup => exact h.receiveSetup hs _ _ fun hlength hd => .inl ⟨hb, hc, hs, hlength, hd⟩
  | params =>
    refine h.receiveParams hs _ _ fun hlength hd => ?_
    have hdlc : frame.dlc ≠ 0 := by omega
    exact ⟨.inr ⟨hb, hc, hs, hdlc, hd⟩, isVwtp_or_stray hb hc (.inl ⟨hs, hdlc, hd⟩)⟩
  | closing => exact h.receiveClosing ..
  | idle => exact h.receiveIdle hs _
  | transmit =>
    refine h.receiveAck hs _ fun ha ho => ?_
    split at ha
    · exact isVwtp_or_stray hb hc (.inr ⟨hs, by omega, ha, ho⟩)
    · exact absurd ha (by decide)
  | receive => exact h.receiveResponse hs ..
  | closed | startPoll | abort => exact h

theorem receiveVwtp_reacts (e : Engine) {frame : Frame} (hb : frame.bus = e.bus)
    (hc : e.isChannelFrame frame = true) :
    Reacts (e.StrayAnswer frame) (e.Accepts frame ∨ e.Agrees frame) e (e.receiveVwtp frame) := by
  have h := channelStep_effects e hb hc
  unfold receiveVwtp
  split
  · exact (Effects.refl e).reacts
  · generalize e.channelStep frame = next at h
    obtain ⟨after, e₁⟩ := next
    cases after with
    | stay => exact h.reacts
    | chain =>
      dsimp only
      by_cases hw : e₁.wait = 0
      · rw [if_pos hw]
        exact ⟨_, h, .inr ⟨hw, rfl⟩⟩
      · rw [if_neg hw]
        exact h.reacts

/-- A frame beside the channel does not lift it. -/
theorem receiveOther_reacts (e : Engine) (frame : Frame) : Reacts stray lifts e (e.receiveOther frame) := by
  unfold receiveOther
  by_cases hc : (!e.job.isVwtp && 0 < e.wait && e.job.entry.isSome && e.job.accepts (e.responseId frame)) = true
  · rw [if_pos hc]
    exact (Effects.refl e).receiveIsoTp (by simp_all) (by simp_all) frame (by simp_all)
  · rw [if_neg hc]
    exact (Effects.refl e).reacts

/-! ### Moves -/

/-- One move of an engine, with what is known when it is made. -/
inductive Move (stray : Prop) (e : Engine) : Engine → Prop
  | turn {e' : Engine} (h : Turn e e') : Move stray e e'
  | elapse (ms : Nat) : Move stray e { e with now := e.now + ms }
  | adjust (line : Line) (paused : Bool) (septime : UInt8) (keepalive between : Nat) :
    Move stray e { e with line, paused, septime, keepalive, between }
  | throttle (sequenceCount : Nat) (sequenceMax : UInt8) :
    Move stray e { e with schedule := { e.schedule with sequenceCount, sequenceMax } }
  | begin : Move stray e (e.emit (.stateTicker e.bus))
  | disarm : Move stray e { e with successDue := none }
  | refuse (hs : e.single = none) : Move stray e e.refuseQueued
  | unavailable : Move stray e (e.finishSingle (.error .unavailable))
  | halt : Move stray e { e with active := false }
  -- a response
  | progress (received : UInt32) (mlFrame mlOffset mlRemain : UInt16) (wait : Nat) :
    Move stray e { e with job := { e.job with received, mlFrame, mlOffset, mlRemain }, wait }
  | reject (hj : e.job.isVwtp = false) : Move stray e e.rejectResponse
  | reply (data : List UInt8) : Move stray e (e.deliverReply data)
  | failure (failure : PollFailure) : Move stray e (e.deliverFailure failure)
  | allow (hj : e.job.isVwtp = false) (id : UInt32) : Move stray e (e.sendFlowControl id)
  | flow (hj : e.job.isVwtp = false) (he : e.job.entry.isSome = true) {id : UInt32}
    (hi : e.job.accepts id = true) (command blockSize septime : UInt8) :
    Move stray e (e.isoTpFlow id command blockSize septime)
  -- the channel
  | lose : Move stray e e.loseChannel
  | shut : Move stray e e.shutChannel
  | close (hs : e.channel.state ≠ .closed) : Move stray e e.requestClose
  | assignIds (hs : e.channel.state = .setup) (rxId txId : UInt32) :
    Move stray e { e with channel := { e.channel with rxId, txId } }
  | params (hs : e.channel.state = .setup) : Move stray e e.requestParams
  | agree (hs : e.channel.state = .params) (blockSize : UInt8) (ackTime sepTime : Nat) :
    Move stray e { e with channel := { e.channel with blockSize, ackTime, sepTime } }
  | request (hs : e.channel.state = .params) (hj : e.job.isVwtp = true ∨ stray) :
    Move stray e e.sendRequest
  | setup (hs : e.channel.state = .closed) (hj : e.isOnChannel = true)
    (hr : e.job.entry.any (·.rx ≠ 0) = true) : Move stray e e.requestSetup
  | block (hs : e.channel.state = .transmit) (ho : 0 < e.out.remaining)
    (hj : e.job.isVwtp = true ∨ stray) : Move stray e e.sendBlock
  | await (hs : e.channel.state = .transmit) (ho : e.out.remaining = 0) : Move stray e e.awaitResponse
  | drop (hs : e.channel.state = .transmit) : Move stray e { e with out := e.out.clear }
  | receive (hs : e.channel.state = .receive) : Move stray e e.countData
  | abort (hs : e.channel.state = .receive) : Move stray e e.abortTransfer
  | idle (hs : e.channel.state = .transmit ∨ e.channel.state = .receive) : Move stray e e.goIdle
  | ack : Move stray e e.sendAck
  | pong : Move stray e e.sendPong
  | refuseData (hs : e.channel.state = .idle) : Move stray e e.refuseData

theorem Effect.move (h : Effect stray lifts e e') : Move stray e e' := by
  cases h with
  | progress received mlFrame mlOffset mlRemain wait => exact .progress received mlFrame mlOffset mlRemain wait
  | reject hj => exact .reject hj
  | reply data => exact .reply data
  | failure failure => exact .failure failure
  | allow hj id => exact .allow hj id
  | flow hj he hi command blockSize septime => exact .flow hj he hi command blockSize septime
  | lose => exact .lose
  | shut => exact .shut
  | close hs => exact .close hs
  | assignIds _ hs rxId txId => exact .assignIds hs rxId txId
  | params _ hs => exact .params hs
  | agree _ hs blockSize ackTime sepTime => exact .agree hs blockSize ackTime sepTime
  | request _ hs hj => exact .request hs hj
  | setup hs hj hr => exact .setup hs hj hr
  | block hs ho hj => exact .block hs ho hj
  | await hs ho => exact .await hs ho
  | drop hs => exact .drop hs
  | receive hs => exact .receive hs
  | abort hs => exact .abort hs
  | idle hs => exact .idle hs
  | ack => exact .ack
  | pong => exact .pong
  | refuseData hs => exact .refuseData hs

/-- A sequence of moves. -/
abbrev Moves (stray : Prop) : Engine → Engine → Prop := Relation.ReflTransGen (Move stray)

namespace Moves

theorem refl (e : Engine) : Moves stray e e := Relation.ReflTransGen.refl

theorem move (h : Moves stray e e') (h' : Move stray e' e'') : Moves stray e e'' :=
  Relation.ReflTransGen.tail h h'

theorem turns (h : Moves stray e e') (h' : Turns e' e'') : Moves stray e e'' := by
  induction h' with
  | refl => exact h
  | tail _ ht ih => exact ih.move (.turn ht)

theorem settle (h : Moves stray e e') : Moves stray e e'.settle := h.turns ((Turns.refl e').settle)

end Moves

/-! ### Actions -/

/-- A move, told by what it comes from: the engine's own account, the frame received, or the settings. -/
inductive Action (stray lifts : Prop) (e : Engine) : Engine → Prop
  | turn {e' : Engine} (h : Turn e e') : Action stray lifts e e'
  | effect {e' : Engine} (h : Effect stray lifts e e') : Action stray lifts e e'
  | elapse (ms : Nat) : Action stray lifts e { e with now := e.now + ms }
  | adjust (line : Line) (paused : Bool) (septime : UInt8) (keepalive between : Nat) :
    Action stray lifts e { e with line, paused, septime, keepalive, between }
  | throttle (sequenceCount : Nat) (sequenceMax : UInt8) :
    Action stray lifts e { e with schedule := { e.schedule with sequenceCount, sequenceMax } }
  | begin : Action stray lifts e (e.emit (.stateTicker e.bus))
  | disarm : Action stray lifts e { e with successDue := none }
  | refuse (hs : e.single = none) : Action stray lifts e e.refuseQueued
  | unavailable : Action stray lifts e (e.finishSingle (.error .unavailable))
  | halt : Action stray lifts e { e with active := false }

theorem Action.move (h : Action stray lifts e e') : Move stray e e' := by
  cases h with
  | turn h => exact .turn h
  | effect h => exact h.move
  | elapse ms => exact .elapse ms
  | adjust line paused septime keepalive between => exact .adjust line paused septime keepalive between
  | throttle sequenceCount sequenceMax => exact .throttle sequenceCount sequenceMax
  | begin => exact .begin
  | disarm => exact .disarm
  | refuse hs => exact .refuse hs
  | unavailable => exact .unavailable
  | halt => exact .halt

/-- A sequence of actions. -/
abbrev Actions (stray lifts : Prop) : Engine → Engine → Prop := Relation.ReflTransGen (Action stray lifts)

namespace Actions

theorem refl (e : Engine) : Actions stray lifts e e := Relation.ReflTransGen.refl

theorem action (h : Actions stray lifts e e') (h' : Action stray lifts e' e'') : Actions stray lifts e e'' :=
  Relation.ReflTransGen.tail h h'

theorem turns (h : Actions stray lifts e e') (h' : Turns e' e'') : Actions stray lifts e e'' := by
  induction h' with
  | refl => exact h
  | tail _ ht ih => exact ih.action (.turn ht)

theorem settle (h : Actions stray lifts e e') : Actions stray lifts e e'.settle :=
  h.turns ((Turns.refl e').settle)

theorem effects (h : Actions stray lifts e e') (h' : Effects stray lifts e' e'') : Actions stray lifts e e'' := by
  induction h' with
  | refl => exact h
  | tail _ ha ih => exact ih.action (.effect ha)

theorem reacts (h : Actions stray lifts e e') (h' : Reacts stray lifts e' e'') : Actions stray lifts e e'' := by
  obtain ⟨acted, heffects, rfl | ⟨hw, rfl⟩⟩ := h'
  · exact h.effects heffects
  · exact (h.effects heffects).turns ((Turns.refl _).pollNext hw)

theorem moves (h : Actions stray lifts e e') : Moves stray e e' := by
  induction h with
  | refl => exact .refl e
  | tail _ ha ih => exact ih.move ha.move

end Actions

theorem afterSegment_moves (hj : e.job.isVwtp = false) (id : UInt32) (first : Bool) (length : Nat) :
    Moves stray e (e.afterSegment id first length) :=
  ((Actions.refl e).reacts ((@Effects.refl stray False e).afterSegment hj id first length)).moves

theorem channelStep_moves (e : Engine) {frame : Frame} (hb : frame.bus = e.bus)
    (hc : e.isChannelFrame frame = true) : Moves (e.StrayAnswer frame) e (e.channelStep frame).2 :=
  ((Actions.refl e).effects (channelStep_effects e hb hc)).moves

theorem step_frame_other {frame : Frame} (hb : frame.bus = e.bus)
    (hc : e.isChannelFrame frame = false) : e.step (.frame frame) = (e.receiveOther frame).settle := by
  show e.handleFrame frame = _
  unfold handleFrame
  rw [if_neg (not_not_intro hb), if_neg (by simp [hc])]

theorem handleFrame_actions (e : Engine) (frame : Frame) :
    Actions (e.StrayAnswer frame) (e.Accepts frame ∨ e.Agrees frame) e (e.handleFrame frame) := by
  unfold handleFrame
  by_cases hb : frame.bus ≠ e.bus
  · rw [if_pos hb]
  · rw [if_neg hb]
    by_cases hc : e.isChannelFrame frame = true
    · rw [if_pos hc]
      exact ((Actions.refl e).reacts (receiveVwtp_reacts e (by simpa using hb) hc)).settle
    · rw [if_neg hc]
      exact ((Actions.refl e).reacts (receiveOther_reacts e frame)).settle

/-! ### Operations -/

/-- The operation is a stray answer of the channel's module. -/
def Strays (e : Engine) : Operation → Prop
  | .frame frame => e.StrayAnswer frame
  | _ => False

/-- With this operation the module accepts the channel, or answers with its parameters. -/
def Lifts (e : Engine) : Operation → Prop
  | .frame frame => e.Accepts frame ∨ e.Agrees frame
  | _ => False

theorem tick_actions (e : Engine) (primary : Bool) : Actions stray lifts e (e.tick primary) := by
  have hb : Actions stray lifts e (if primary then e.emit (.stateTicker e.bus) else e) := by
    split
    · exact (Actions.refl e).action .begin
    · exact .refl e
  exact ((hb.action (.throttle 0 _)).turns ((Turns.refl _).pollSend primary)).settle

theorem sendSuccess_actions (e : Engine) : Actions stray lifts e e.sendSuccess := by
  have hd : Actions stray lifts e { e with successDue := none } := (Actions.refl e).action .disarm
  unfold sendSuccess
  split
  · dsimp only
    split
    · exact (hd.turns ((Turns.refl _).pollSend false)).settle
    · exact hd.settle
  · exact .refl e

theorem single_finishSingle (e : Engine) (result : SingleResult) :
    (e.finishSingle result).single = none := by
  unfold finishSingle
  split
  · assumption
  · rfl

theorem shutdown_actions (e : Engine) : Actions stray lifts e e.shutdown := by
  have hq := ((@Actions.refl stray lifts e).action .unavailable).action (.refuse (single_finishSingle ..))
  have hclose : Actions stray lifts e (if (e.finishSingle (.error .unavailable)).refuseQueued.channel.isOpen then
      (e.finishSingle (.error .unavailable)).refuseQueued.requestClose.shutChannel
      else (e.finishSingle (.error .unavailable)).refuseQueued) := by
    by_cases ho : (e.finishSingle (Except.error SingleError.unavailable)).refuseQueued.channel.isOpen = true
    · rw [if_pos ho]
      exact (hq.action (.effect (.close (by simpa [Channel.isOpen] using ho)))).action (.effect .shut)
    · rw [if_neg ho]
      exact hq
  exact ((hclose.action (.turn .take)).action .disarm).action .halt

/-- Every operation but the two that replace the poll list or the poll state, and the one that puts a
single request into the queue, is a sequence of actions. -/
theorem step_actions (e : Engine) {op : Operation} (hl : ∀ list bus, op ≠ .setList list bus)
    (hs : ∀ state, op ≠ .setState state) (hq : ∀ request, op ≠ .submit request) :
    Actions (e.Strays op) (e.Lifts op) e (e.step op) := by
  have h := @Actions.refl (e.Strays op) (e.Lifts op) e
  cases op with
  | frame frame => exact handleFrame_actions e frame
  | tick primary => exact tick_actions e primary
  | txComplete frame success => exact (h.turns ((Turns.refl e).judgeResult frame success)).settle
  | sendSuccess => exact sendSuccess_actions e
  | submit request => exact absurd rfl (hq request)
  | setList list bus => exact absurd rfl (hl list bus)
  | setState state => exact absurd rfl (hs state)
  | setPaused => exact h.action (.adjust ..)
  | setSequenceMax => exact h.action (.throttle ..)
  | setSeptime => exact h.action (.adjust ..)
  | setKeepalive => exact h.action (.adjust ..)
  | setBetween => exact h.action (.adjust ..)
  | shutdown => exact shutdown_actions e
  | elapse ms => exact h.action (.elapse ms)
  | setRoom => exact h.action (.adjust ..)

/-- Without regard to whether they lift the channel, these are moves. -/
theorem step_moves (e : Engine) {op : Operation} (hl : ∀ list bus, op ≠ .setList list bus)
    (hs : ∀ state, op ≠ .setState state) (hq : ∀ request, op ≠ .submit request) :
    Moves (e.Strays op) e (e.step op) :=
  (step_actions e hl hs hq).moves

/-- Once a single request stands in the queue, the rest is moves. -/
theorem submit_moves (e : Engine) (request : SingleRequest) :
    Moves stray { e with queued := e.queued ++ [request] } (e.submit request) :=
  (Moves.refl _).settle

end EcuPoll.Engine
