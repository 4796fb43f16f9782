import EcuPoll.Proofs.Engine.Turns
import EcuPoll.Proofs.IsoTp.Pieces
import EcuPoll.Proofs.Vwtp.DataFrames

/-!
# Where request data goes

`Addressed` says of a log that request data went to the module it was meant for: every frame carries
a piece of the message of the entry that was dispatched last, over the transport of that entry, and
data frames were only written on a channel that was set up with the ids of that entry. Frames of all
other kinds carry no request data.

`Routes` is the invariant behind this. The channel outlives the poll that opened it, so it speaks of the
poll in flight and the channel apart: the ids of a live channel are those of the last setup request
(`Tracks.ids`), and they belong to the poll in flight if that runs over the channel (`Routes.module`).
-/

namespace EcuPoll

/-! ### What a log says -/

def Event.entry? : Event → Option PollEntry
  | .dispatched entry _ _ => some entry
  | _ => none

/-- The ids in a setup request; none of them after the channel is closed. -/
def Event.setup? : Event → Option (Option (UInt32 × UInt32))
  | .wrote (.setup baseId moduleId) _ _ => some (some (baseId, moduleId))
  | .wrote .close _ _ => some none
  | _ => none

/-- The entry that was dispatched last. -/
def lastEntry (log : List Stamped) : Option PollEntry :=
  log.findSome? (·.event.entry?)

/-- The ids in the last setup request, unless the channel has been closed since. -/
def setupIds (log : List Stamped) : Option (UInt32 × UInt32) :=
  (log.findSome? (·.event.setup?)).join

/-- The frame, written after `log`, is what its kind says: a piece of the message of the entry that was
dispatched last, sent to the module of that entry, or a frame without request data. -/
def Routed (bus : BusId) (log : List Stamped) (frame : Frame) : FrameKind → Prop
  | .opening => ∃ entry, lastEntry log = some entry ∧ entry.protocol ≠ .vwtp20 ∧
      frame = entry.protocol.isoTpFrame bus entry.target entry.parcel.opening
  | .consecutive => ∃ entry, lastEntry log = some entry ∧ entry.protocol ≠ .vwtp20 ∧
      ∃ target number offset, (entry.IsOneToOne → target = entry.tx) ∧
        frame = entry.protocol.isoTpFrame bus target (Segment.consecutiveHeader number ++
          (entry.message.drop offset).take (entry.protocol.isoTpRoom - 1))
  | .data number => ∃ entry, lastEntry log = some entry ∧ entry.protocol = .vwtp20 ∧
      setupIds log = some (entry.tx, entry.rx) ∧
      frame.payload.drop 1 = (entry.channelMessage.drop (7 * number.toNat)).take 7
  | .setup baseId moduleId =>
      frame = Frame.cut bus baseId false (Channel.setupRequest baseId moduleId)
  | .flowControl => ∃ p target septime,
      frame = Protocol.isoTpFrame p bus target (Segment.flowGoOn septime)
  | .params => ∃ id, frame = Frame.cut bus id false (Opcode.paramsRequest :: channelParams)
  | .pong => ∃ id, frame = Frame.cut bus id false (Opcode.paramsResponse :: channelParams)
  | .close => ∃ id, frame = Frame.cut bus id false [Opcode.disconnect]
  | .abort | .ack | .refusal => ∃ id opcode, frame = Frame.cut bus id false [opcode]

/-- Every frame in the log is what its kind says, after what was in the log before it. -/
def Addressed (bus : BusId) (log : List Stamped) : Prop :=
  ∀ time kind frame accepted before, ⟨time, .wrote kind frame accepted⟩ :: before <:+ log →
    Routed bus before frame kind

variable {bus : BusId} {log new : List Stamped}

theorem Addressed.suffix {log' : List Stamped} (h : Addressed bus log) (hs : log' <:+ log) :
    Addressed bus log' :=
  fun time kind frame accepted before hb => h time kind frame accepted before (hb.trans hs)

theorem addressed_cons {s : Stamped} : Addressed bus (s :: log) ↔
    (∀ kind frame accepted, s.event = .wrote kind frame accepted → Routed bus log frame kind) ∧
      Addressed bus log := by
  constructor
  · intro h
    refine ⟨fun kind frame accepted hs => ?_, h.suffix (List.suffix_cons ..)⟩
    exact h s.time kind frame accepted log (hs ▸ List.suffix_refl _)
  · rintro ⟨hs, h⟩ time kind frame accepted before hb
    rcases List.suffix_cons_iff.1 hb with heq | hb
    · obtain ⟨rfl, rfl⟩ := List.cons.inj heq
      exact hs kind frame accepted rfl
    · exact h time kind frame accepted before hb

/-! ### Events without request data -/

/-- A frame of this kind neither carries request data nor asks for a channel. -/
def FrameKind.isControl : FrameKind → Bool
  | .opening | .consecutive | .data _ | .setup _ _ => false
  | _ => true

/-- Not the dispatch of a poll, and not a frame with request data or for a new channel. -/
def Event.IsAside (bus : BusId) : Event → Prop
  | .dispatched _ _ _ => False
  | .wrote kind frame _ => kind.isControl = true ∧ ∀ log, Routed bus log frame kind
  | _ => True

theorem Event.IsReport.isAside {event : Event} (h : event.IsReport) : event.IsAside bus := by
  cases event <;> first | exact h.elim | trivial

theorem Event.IsReport.setup? {event : Event} (h : event.IsReport) : event.setup? = none := by
  cases event <;> first | exact h.elim | rfl

theorem lastEntry_append (h : ∀ s ∈ new, s.event.IsAside bus) :
    lastEntry (new ++ log) = lastEntry log := by
  have hnone : new.findSome? (·.event.entry?) = none := by
    rw [List.findSome?_eq_none_iff]
    intro s hs
    have := h s hs
    cases hev : s.event <;> rw [hev] at this <;> first | rfl | exact this.elim
  rw [lastEntry, List.findSome?_append, hnone, Option.none_or, lastEntry]

theorem setupIds_append (new : List Stamped) (h : ∀ s ∈ new, s.event.setup? = none) :
    setupIds (new ++ log) = setupIds log := by
  rw [setupIds, List.findSome?_append, List.findSome?_eq_none_iff.2 h, Option.none_or, setupIds]

theorem Addressed.append (h : Addressed bus log) (hnew : ∀ s ∈ new, s.event.IsAside bus) :
    Addressed bus (new ++ log) := by
  induction new with
  | nil => exact h
  | cons s new ih =>
    rw [List.forall_mem_cons] at hnew
    refine addressed_cons.2 ⟨fun kind frame accepted hs => ?_, ih hnew.2⟩
    have hev := hnew.1
    rw [hs] at hev
    exact hev.2 _

/-! ### The poll in flight -/

namespace PollJob
variable {entry : PollEntry} {j j' j'' : PollJob}

/-- What the poll asks for, and over which transport. -/
def asked (j : PollJob) : Option PollEntry × Protocol × UInt8 × UInt16 :=
  (j.entry, j.protocol, j.service, j.pid)

/-- The poll asks what the entry says. -/
def Asks (entry : PollEntry) (j : PollJob) : Prop :=
  j.asked = (some entry, entry.protocol, entry.service, entry.pid)

namespace Asks

theorem protocol (h : j.Asks entry) : j.protocol = entry.protocol := congrArg (·.2.1) h

theorem service (h : j.Asks entry) : j.service = entry.service := congrArg (·.2.2.1) h

theorem pid (h : j.Asks entry) : j.pid = entry.pid := congrArg (·.2.2.2) h

end Asks

/-- A poll that expects one responder accepts that one. -/
theorem accepts_iff {id sender : UInt32} (h : (j.low, j.high) = (id, id)) :
    j.accepts sender = true ↔ sender = id := by
  obtain ⟨hlow, hhigh⟩ := Prod.mk.inj h
  rw [accepts, hlow, hhigh, Bool.and_eq_true, decide_eq_true_iff, decide_eq_true_iff]
  constructor
  · rintro ⟨hle, hge⟩
    exact UInt32.le_antisymm hge hle
  · rintro rfl
    exact ⟨UInt32.le_refl _, UInt32.le_refl _⟩

/-- The ids of a poll over ISO-TP are those of its entry, unless nothing is accepted any more. -/
structure Addresses (entry : PollEntry) (j : PollJob) : Prop where
  sent : j.sent = entry.target
  range : (j.low, j.high) = entry.responders ∨ (j.low, j.high) = (0, 0)

/-- The ids of the poll stay what they are, but it may stop to accept answers. -/
structure KeepsIds (j j' : PollJob) : Prop where
  sent : j'.sent = j.sent
  range : (j'.low, j'.high) = (j.low, j.high) ∨ (j'.low, j'.high) = (0, 0)

theorem KeepsIds.refl (j : PollJob) : KeepsIds j j := ⟨rfl, .inl rfl⟩

theorem KeepsIds.trans (h : KeepsIds j j') (h' : KeepsIds j' j'') : KeepsIds j j'' where
  sent := h'.sent.trans h.sent
  range := by
    rcases h'.range with hr | hr
    · rw [hr]
      exact h.range
    · exact .inr hr

theorem Addresses.keepsIds (h : j.Addresses entry) (hk : KeepsIds j j') : j'.Addresses entry where
  sent := hk.sent.trans h.sent
  range := by
    rcases hk.range with hr | hr
    · rw [hr]
      exact h.range
    · exact .inr hr

end PollJob

/-! ### What leaves the routes alone -/

/-- The channel is set up for a module, or is being set up. -/
def ChannelState.isLive : ChannelState → Bool
  | .closed | .closing => false
  | _ => true

/-- The channel has been asked for and is not open yet. -/
def ChannelState.isComing : ChannelState → Bool
  | .setup | .params => true
  | _ => false

namespace Engine
variable {e e' e'' : Engine}

theorem state_abortTransfer (e : Engine) : e.abortTransfer.channel.state = .idle := by
  unfold abortTransfer
  dsimp only
  rw [transmit_eq]
  rfl

theorem isLive_interrupt (h : e.channel.state.isLive = true) :
    e.interrupt.channel.state.isLive = true := by
  unfold interrupt
  split
  · rw [state_abortTransfer]
    rfl
  · show e.abortTransfer.channel.state.isLive = true
    rw [state_abortTransfer]
    rfl
  · exact h

/-- The poll in flight and the module of the channel stay what they are, nothing is sent of the request,
and the log grows by events without request data. The channel may be closed, and the rest of the
request may be given up. -/
structure Keeps (e e' : Engine) : Prop where
  bus : e'.bus = e.bus
  asked : e'.job.asked = e.job.asked
  ids : e.job.isVwtp = false → e.job.KeepsIds e'.job
  out : e'.out = e.out ∨ e'.out = e.out.clear
  transmit : e'.channel.state = .transmit → e.channel.state = .transmit
  live : e'.channel.state.isLive = true → e.channel.state.isLive = true
  bound : e'.channel.state.isLive = true → e'.channel.bound = e.channel.bound
  baseId : e'.channel.state.isLive = true → e'.channel.baseId = e.channel.baseId
  moduleId : e'.channel.state.isLive = true → e'.channel.moduleId = e.channel.moduleId
  setupIds : e'.channel.state.isLive = true → setupIds e'.log = EcuPoll.setupIds e.log
  log : Adds (Event.IsAside e.bus) e e'

namespace Keeps

theorem of_eq (hb : e'.bus = e.bus) (hj : e'.job.asked = e.job.asked) (hs : e'.job.sent = e.job.sent)
    (hr : (e'.job.low, e'.job.high) = (e.job.low, e.job.high)) (ho : e'.out = e.out)
    (hc : e'.channel = e.channel) (hl : e'.log = e.log) : Keeps e e' where
  bus := hb
  asked := hj
  ids _ := ⟨hs, .inl hr⟩
  out := .inl ho
  transmit h := hc ▸ h
  live h := hc ▸ h
  bound _ := by rw [hc]
  baseId _ := by rw [hc]
  moduleId _ := by rw [hc]
  setupIds _ := by rw [hl]
  log := .of_log hl

theorem refl (e : Engine) : Keeps e e := .of_eq rfl rfl rfl rfl rfl rfl rfl

theorem entry (h : Keeps e e') : e'.job.entry = e.job.entry := congrArg (·.1) h.asked

theorem isVwtp (h : Keeps e e') : e'.job.isVwtp = e.job.isVwtp := congrArg (·.2.1 == .vwtp20) h.asked

theorem trans (h : Keeps e e') (h' : Keeps e' e'') : Keeps e e'' where
  bus := h'.bus.trans h.bus
  asked := h'.asked.trans h.asked
  ids hv := (h.ids hv).trans (h'.ids (h.isVwtp.trans hv))
  out := by
    rcases h.out with ho | ho <;> rcases h'.out with ho' | ho' <;> rw [ho', ho]
    · exact .inl rfl
    · exact .inr rfl
    · exact .inr rfl
    · exact .inr rfl
  transmit ht := h.transmit (h'.transmit ht)
  live hl := h.live (h'.live hl)
  bound hl := (h'.bound hl).trans (h.bound (h'.live hl))
  baseId hl := (h'.baseId hl).trans (h.baseId (h'.live hl))
  moduleId hl := (h'.moduleId hl).trans (h.moduleId (h'.live hl))
  setupIds hl := (h'.setupIds hl).trans (h.setupIds (h'.live hl))
  log := h.log.trans (h.bus ▸ h'.log)

theorem isFor (h : Keeps e e') (hl : e'.channel.state.isLive = true) (baseId moduleId : UInt32) :
    e'.channel.isFor baseId moduleId = e.channel.isFor baseId moduleId := by
  rw [Channel.isFor, h.bound hl, h.baseId hl, h.moduleId hl, Channel.isFor]

/-- A frame without request data is written; only that which closes the channel speaks of its ids. -/
theorem transmit_control (h : Keeps e e') {kind : FrameKind} (frame : Frame)
    (hk : kind.isControl = true) (hr : ∀ log, Routed e.bus log frame kind)
    (hc : kind = .close → e'.channel.state.isLive = false) : Keeps e (e'.transmit kind frame) := by
  refine h.trans ?_
  rw [transmit_eq]
  refine ⟨rfl, rfl, fun _ => .refl _, .inl rfl, id, id, fun _ => rfl, fun _ => rfl, fun _ => rfl,
    fun hl => setupIds_append [_] ?_, [_], rfl, ?_⟩
  · rw [List.forall_mem_singleton]
    cases kind with
    | close =>
      rw [hc rfl] at hl
      cases hl
    | setup => cases hk
    | _ => rfl
  · rw [List.forall_mem_singleton, h.bus]
    exact ⟨hk, hr⟩

theorem report (h : Keeps e e') {event : Event} (hev : event.IsReport) : Keeps e (e'.emit event) :=
  h.trans ⟨rfl, rfl, fun _ => .refl _, .inl rfl, id, id, fun _ => rfl, fun _ => rfl, fun _ => rfl,
    fun _ => setupIds_append [_] (by simpa using hev.setup?),
    [_], rfl, by simpa using hev.isAside⟩

theorem delivers (h : Keeps e e') (hd : Delivers e' e'') : Keeps e e'' := by
  refine h.trans ?_
  obtain ⟨new, hnew, hrep⟩ := hd.log
  refine ⟨hd.bus, by rw [hd.job], fun _ => hd.job ▸ .refl _, .inl hd.out, ?_, ?_, ?_, ?_,
    ?_, fun _ => ?_, new, hnew, fun s hs => (hrep s hs).isAside⟩
  · rw [hd.channel]; exact id
  · rw [hd.channel]; exact id
  · rw [hd.channel]; exact fun _ => rfl
  · rw [hd.channel]; exact fun _ => rfl
  · rw [hd.channel]; exact fun _ => rfl
  · rw [hnew]
    exact setupIds_append _ fun s hs => (hrep s hs).setup?

/-- The channel moves on to another state without losing its module. -/
theorem channel (h : Keeps e e') (wait : Nat) (channel : Channel)
    (ht : channel.state = .transmit → e'.channel.state = .transmit)
    (hl : channel.state.isLive = true → e'.channel.state.isLive = true)
    (hb : channel.bound = e'.channel.bound) (hi : channel.baseId = e'.channel.baseId)
    (hm : channel.moduleId = e'.channel.moduleId) : Keeps e { e' with wait, channel } :=
  h.trans ⟨rfl, rfl, fun _ => .refl _, .inl rfl, ht, hl, fun _ => hb, fun _ => hi, fun _ => hm,
    fun _ => rfl, .of_log rfl⟩

theorem clear (h : Keeps e e') : Keeps e { e' with out := e'.out.clear } :=
  h.trans ⟨rfl, rfl, fun _ => .refl _, .inr rfl, id, id, fun _ => rfl, fun _ => rfl, fun _ => rfl,
    fun _ => rfl, .of_log rfl⟩

/-! ### The channel -/

theorem expectOnChannel (h : Keeps e e') : Keeps e e'.expectOnChannel := by
  unfold Engine.expectOnChannel
  by_cases hv : e'.job.isVwtp = true
  · rw [if_pos hv]
    exact h.trans ⟨rfl, rfl, fun hv' => by simp [hv] at hv', .inl rfl, id, id, fun _ => rfl,
      fun _ => rfl, fun _ => rfl, fun _ => rfl, .of_log rfl⟩
  · rw [if_neg hv]
    exact h

theorem touchChannel (h : Keeps e e') : Keeps e e'.touchChannel :=
  h.channel _ _ id id rfl rfl rfl

theorem loseChannel (h : Keeps e e') : Keeps e e'.loseChannel :=
  h.trans ⟨rfl, rfl, fun _ => .refl _, .inl rfl, nofun, nofun, nofun, nofun, nofun, nofun, .of_log rfl⟩

theorem shutChannel (h : Keeps e e') : Keeps e e'.shutChannel := by
  unfold Engine.shutChannel
  split
  · exact h
  · exact h.loseChannel

theorem channelFrame (h : Keeps e e') (bytes : List UInt8) :
    e'.channelFrame bytes = Frame.cut e.bus e'.channel.txId false bytes := by
  rw [Engine.channelFrame, h.bus]

theorem requestClose (h : Keeps e e') : Keeps e e'.requestClose := by
  have hx := h.expectOnChannel
  unfold Engine.requestClose
  split
  · exact h
  · have hc : Keeps e { e'.expectOnChannel with
        wait := 2, channel := { e'.expectOnChannel.channel with state := .closing } } :=
      hx.channel 2 _ nofun nofun rfl rfl rfl
    exact hc.transmit_control _ rfl (fun _ => ⟨_, hx.channelFrame _⟩) fun _ => rfl

theorem requestParams (h : Keeps e e') (hs : e'.channel.state.isLive = true) :
    Keeps e e'.requestParams := by
  have hx := h.expectOnChannel
  unfold Engine.requestParams
  split
  · exact h
  · have hc : Keeps e { e'.expectOnChannel with
        wait := 2, channel := { e'.expectOnChannel.channel with state := .params } } :=
      hx.channel 2 _ nofun (fun _ => by rw [channel_expectOnChannel]; exact hs) rfl rfl rfl
    exact hc.transmit_control _ rfl (fun _ => ⟨_, hx.channelFrame _⟩) nofun

theorem goIdle (h : Keeps e e') (hs : e'.channel.state.isLive = true) : Keeps e e'.goIdle := by
  unfold Engine.goIdle
  split
  · exact h
  · exact h.channel 0 _ nofun (fun _ => hs) rfl rfl rfl

theorem awaitResponse (h : Keeps e e') (hs : e'.channel.state.isLive = true) :
    Keeps e e'.awaitResponse := by
  unfold Engine.awaitResponse
  split
  · exact h
  · exact h.channel 2 _ nofun (fun _ => hs) rfl rfl rfl

theorem abortTransfer (h : Keeps e e') (hs : e'.channel.state.isLive = true) :
    Keeps e e'.abortTransfer := by
  have habort : ∀ (opcode : UInt8) (e'' : Engine), Keeps e e'' → e''.channel.state.isLive = true →
      Keeps e ({ e'' with
        out := e''.out.clear
        job := { e''.job with mlRemain := 0 }
        channel := { e''.channel with state := .idle }.touch e''.now
        wait := 0 }.transmit .abort (e''.channelFrame [opcode])) := by
    intro opcode e'' h'' hs''
    have hc : Keeps e { e'' with
        out := e''.out.clear
        job := { e''.job with mlRemain := 0 }
        channel := { e''.channel with state := .idle }.touch e''.now
        wait := 0 } :=
      (h''.clear.channel 0 ({ e''.channel with state := .idle }.touch e''.now)
        (fun ht => by cases ht) (fun _ => hs'') rfl rfl rfl).trans (.of_eq rfl rfl rfl rfl rfl rfl rfl)
    exact hc.transmit_control _ rfl (fun _ => ⟨_, _, h''.channelFrame _⟩) nofun
  unfold Engine.abortTransfer
  dsimp only
  refine habort _ _ (Keeps.expectOnChannel ?_) ?_
  · split
    · exact h
    · exact h.channel _ _ id id rfl rfl rfl
  · rw [channel_expectOnChannel]
    split <;> exact hs

theorem interrupt (h : Keeps e e') : Keeps e e'.interrupt := by
  unfold Engine.interrupt
  cases hs : e'.channel.state with
  | transmit => exact h.abortTransfer (by rw [hs]; rfl)
  | receive =>
    exact (h.abortTransfer (by rw [hs]; rfl)).trans (.of_eq rfl rfl rfl rfl rfl rfl rfl)
  | _ => exact h

theorem sendPong (h : Keeps e e') : Keeps e e'.sendPong :=
  h.transmit_control _ rfl (fun _ => ⟨_, h.channelFrame _⟩) nofun

theorem sendAck (h : Keeps e e') : Keeps e e'.sendAck :=
  h.transmit_control _ rfl (fun _ => ⟨_, _, h.channelFrame _⟩) nofun

theorem refuseData (h : Keeps e e') : Keeps e e'.refuseData := by
  have hc := h.channel e'.wait { e'.channel with rxSeq := e'.channel.rxSeq + 1 } id id rfl rfl rfl
  exact hc.transmit_control _ rfl (fun _ => ⟨_, _, hc.channelFrame _⟩) nofun

theorem countData (h : Keeps e e') : Keeps e e'.countData :=
  h.channel e'.wait _ id id rfl rfl rfl

/-! ### ISO-TP -/

theorem sendFlowControl (h : Keeps e e') (id : UInt32) : Keeps e (e'.sendFlowControl id) :=
  h.transmit_control _ rfl (fun _ => ⟨e'.job.protocol, _, _, by
    rw [isoTpFrame, h.bus]⟩) nofun

theorem rejectResponse (h : Keeps e e') : Keeps e e'.rejectResponse :=
  h.trans ⟨rfl, rfl, fun _ => ⟨rfl, .inr rfl⟩, .inl rfl, id, id, fun _ => rfl, fun _ => rfl,
    fun _ => rfl, fun _ => rfl, .of_log rfl⟩

/-! ### Results -/

theorem failTransmission (h : Keeps e e') : Keeps e e'.failTransmission := by
  have hw : ∀ e'' : Engine, Keeps e e'' → Keeps e { e'' with wait := 0 } := fun e'' h'' =>
    h''.trans (.of_eq rfl rfl rfl rfl rfl rfl rfl)
  unfold Engine.failTransmission
  dsimp only
  split
  · exact (hw _ h.loseChannel).delivers (.deliverFailure ..)
  · exact (hw _ h).delivers (.deliverFailure ..)

theorem reportSent (h : Keeps e e') (success : Bool) : Keeps e (e'.reportSent success) := by
  refine Keeps.report ?_ trivial
  exact h.trans (.of_eq rfl rfl rfl rfl rfl rfl rfl)

theorem refuseQueued (h : Keeps e e') : Keeps e e'.refuseQueued :=
  refuseQueued_keeps (P := Keeps e) (h.trans (.of_eq rfl rfl rfl rfl rfl rfl rfl)) fun _ _ h => h.report trivial

end Keeps

end Engine

end EcuPoll
