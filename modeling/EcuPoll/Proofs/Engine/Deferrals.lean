import EcuPoll.Proofs.Engine.Patience
import EcuPoll.Proofs.Engine.Results
import EcuPoll.Proofs.Engine.Sequels
import EcuPoll.Proofs.Vwtp.Responses

/-!
# Responses that are deferred

A module that is still working on a request defers its response by a negative one with the code 0x78, and may do so as
often as it likes (`Deferrals`). The engine then goes on waiting for the response to the same request (`Deferred`): no
result is handed on, and the wait is no shorter than before. The answer that the module gives in the end is the one
result of the poll (`Gives`).
-/

namespace EcuPoll

/-- A secondary tick begins, time passes, or a frame is on the bus. -/
def Operation.IsPassing : Operation → Prop
  | .tick false | .elapse _ | .txComplete _ true => True
  | _ => False

namespace Engine
variable {e e₀ e' : Engine} {n : Nat} {frame : Frame} {total : UInt16} {data : List UInt8} {op : Operation}
  {ops : List Operation} {acks : List (FrameKind × Frame)} {outcome : Except NegativeCode (List UInt8)}

/-- A response to the request in flight may come. Over the channel none has begun. -/
structure Owed (e : Engine) : Prop where
  entry_isSome : e.job.entry.isSome = true
  wait_pos : 0 < e.wait
  state_eq : e.job.isVwtp = true → e.channel.state = .receive
  frame_eq : e.job.isVwtp = true → e.job.mlFrame = 0

/-- The frame brings the bytes `data` of a message that announces `total` of them to the poll in flight: over ISO-TP
a single frame from an id that may answer, over the channel the data frame that is due after `n` others. -/
inductive Says (e : Engine) (n : Nat) (frame : Frame) (total : UInt16) (data : List UInt8) : Prop
  | single (hv : e.job.isVwtp = false) (hb : frame.bus = e.bus) (hc : e.isChannelFrame frame = false)
    (ha : e.job.accepts (e.responseId frame) = true)
    (hs : Segment.ofBytes? (e.job.protocol.isoTpData frame) = some (.single data))
    (ht : total = UInt16.ofNat data.length)
  | data {lead hi lo : UInt8} (hv : e.job.isVwtp = true) (hd : e.channel.IsData e.bus frame)
    (hn : Frame.leadByte frame.data &&& 0x0f = (e.channel.rxSeq + UInt8.ofNat n) &&& 0x0f)
    (hp : frame.payload = lead :: hi :: lo :: data) (ht : total = Envelope.word (hi &&& 0x0f) lo)

/-- What is written for that frame: over the channel an acknowledgement, if it asks for one. -/
def acksFor (e : Engine) (n : Nat) (frame : Frame) : List (FrameKind × Frame) :=
  if e.job.isVwtp then e.channel.acks e.bus n frame else []

/-- The response to the poll in flight is deferred `n` times, while secondary ticks and time pass. The frames `acks`
are due to its module. -/
inductive Deferrals (e : Engine) : Nat → List Operation → List (FrameKind × Frame) → Prop
  | nil : Deferrals e 0 [] []
  | pending {n : Nat} {ops : List Operation} {acks : List (FrameKind × Frame)} {frame : Frame} {total : UInt16}
    {data : List UInt8} (h : Deferrals e n ops acks) (hf : e.Says n frame total data)
    (hd : [Envelope.negativeType, e.job.service, 0x78] <+: data) :
    Deferrals e (n + 1) (ops ++ [.frame frame]) (acks ++ e.acksFor n frame)
  | passing {n : Nat} {ops : List Operation} {acks : List (FrameKind × Frame)} {op : Operation}
    (h : Deferrals e n ops acks) (hop : op.IsPassing) : Deferrals e n (ops ++ [op]) acks

/-- The wait after `n` deferrals: over ISO-TP each adds a tick, over the channel the wait begins anew. -/
def waitAfter (e : Engine) (n : Nat) : Nat :=
  if n = 0 then e.wait else if e.job.isVwtp then 2 else min 255 (e.wait + n)

/-- The engine waits for the response to the same request as before, which has been deferred `n` times in the
meantime; it has written the frames `acks`. -/
structure Deferred (e₀ : Engine) (n : Nat) (acks : List (FrameKind × Frame)) (e : Engine) : Prop where
  bus_eq : e.bus = e₀.bus
  job : ∃ received mlOffset mlRemain, e.job = { e₀.job with received, mlOffset, mlRemain }
  channel : ∃ rxSeq lastUsed, e.channel = { e₀.channel with rxSeq, lastUsed }
  rxSeq_eq : e₀.job.isVwtp = true → e.channel.rxSeq = e₀.channel.rxSeq + UInt8.ofNat n
  single_eq : e.single = e₀.single
  wait_eq : e.wait = e₀.waitAfter n
  rest : e.AtRest
  log : ∃ new, e.log = new ++ e₀.log ∧ (∀ s ∈ new, s.event.IsIncidental) ∧ written new = acks

/-- The bytes are an answer to the poll in flight that is not another deferral: a negative response with another code,
or a positive one that ends with this frame. -/
inductive LastWord (e : Engine) (total : UInt16) (data : List UInt8) : Except NegativeCode (List UInt8) → Prop
  | refusal {code : NegativeCode} {rest : List UInt8} (hc : code.isPending = false)
    (hd : data = Envelope.negativeType :: e.job.service :: code.byte :: rest) : LastWord e total data (.error code)
  | answer {payload : List UInt8} (ht : total.toNat ≤ data.length)
    (hd : data = responseHeader e.job.service e.job.pid ++ payload) : LastWord e total data (.ok payload)

/-- A positive response to the poll in flight is told from a negative one and from those to other PIDs. -/
structure Recognises (e : Engine) : Prop where
  service : e.job.service ≠ 0x3f
  pid : PidFits e.job.service e.job.pid

/-- The event hands on this outcome of the poll in flight: to the receiver of results, or to the caller of the single
request that has the bus, with what it has of the response. -/
inductive Reports (e : Engine) : Except NegativeCode (List UInt8) → Event → Prop
  | reply {job : PollJob} {payload : List UInt8} (hs : e.single = none) (hj : job.asked = e.job.asked) :
    Reports e (.ok payload) (.reply job payload 0)
  | failed {job : PollJob} {code : NegativeCode} (hs : e.single = none) (hj : job.asked = e.job.asked) :
    Reports e (.error code) (.failed job (.negative code))
  | resolved {capture : Capture} {payload : List UInt8} (hs : e.single = some capture) :
    Reports e (.ok payload) (.singleResolved capture.request.ticket (.ok (capture.response ++ payload)))
  | refused {capture : Capture} {code : NegativeCode} (hs : e.single = some capture) :
    Reports e (.error code) (.singleResolved capture.request.ticket (.error (.negative code)))

/-- The outcome of the poll in flight is handed on once before another poll begins, and no other result is. -/
def Gives (e : Engine) (outcome : Except NegativeCode (List UInt8)) (e' : Engine) : Prop :=
  ∃ new, e'.log = new ++ e.log ∧ ∃ event, firstResults new = [event] ∧ e.Reports outcome event

theorem waitAfter_mono (h : Curbed e) {m : Nat} (hmn : m ≤ n) : e.waitAfter m ≤ e.waitAfter n := by
  have hle := h.wait_le
  unfold waitAfter
  by_cases hm : m = 0
  · rw [if_pos hm]
    by_cases hn : n = 0
    · rw [if_pos hn]
    · rw [if_neg hn]
      split
      · exact h.vwtp ‹_›
      · omega
  · rw [if_neg hm, if_neg (show n ≠ 0 by omega)]
    split <;> omega

theorem Owed.waitAfter_pos (h : Owed e) (n : Nat) : 0 < e.waitAfter n := by
  have := h.wait_pos
  unfold waitAfter
  split
  · exact this
  · split <;> omega

namespace Deferred

theorem refl (hr : e.AtRest) : Deferred e 0 [] e where
  bus_eq := rfl
  job := ⟨e.job.received, e.job.mlOffset, e.job.mlRemain, rfl⟩
  channel := ⟨e.channel.rxSeq, e.channel.lastUsed, rfl⟩
  rxSeq_eq _ := (UInt8.add_zero _).symm
  single_eq := rfl
  wait_eq := (if_pos rfl).symm
  rest := hr
  log := ⟨[], rfl, List.forall_mem_nil _, rfl⟩

theorem wait_pos (h : Deferred e₀ n acks e) (ha : Owed e₀) : 0 < e.wait :=
  h.wait_eq ▸ ha.waitAfter_pos n

theorem isVwtp_eq (h : Deferred e₀ n acks e) : e.job.isVwtp = e₀.job.isVwtp := by
  obtain ⟨_, _, _, hj⟩ := h.job
  rw [hj]
  rfl

theorem protocol_eq (h : Deferred e₀ n acks e) : e.job.protocol = e₀.job.protocol := by
  obtain ⟨_, _, _, hj⟩ := h.job
  rw [hj]

theorem service_eq (h : Deferred e₀ n acks e) : e.job.service = e₀.job.service := by
  obtain ⟨_, _, _, hj⟩ := h.job
  rw [hj]

theorem pid_eq (h : Deferred e₀ n acks e) : e.job.pid = e₀.job.pid := by
  obtain ⟨_, _, _, hj⟩ := h.job
  rw [hj]

theorem state_eq (h : Deferred e₀ n acks e) : e.channel.state = e₀.channel.state := by
  obtain ⟨_, _, hc⟩ := h.channel
  rw [hc]

theorem isChannelFrame_eq (h : Deferred e₀ n acks e) (frame : Frame) :
    e.isChannelFrame frame = e₀.isChannelFrame frame := by
  obtain ⟨_, _, hc⟩ := h.channel
  rw [isChannelFrame, hc]
  rfl

/-! ### What passes by -/

/-- The reports of frames that were sent, at the end of an operation. -/
theorem sent (h : Deferred e₀ n acks e) (received : UInt32) {new : List Stamped}
    (hnew : ∀ s ∈ new, s.event.IsSent) :
    Deferred e₀ n acks { e with job := { e.job with received }, log := new ++ e.log } := by
  obtain ⟨received', mlOffset, mlRemain, hj⟩ := h.job
  obtain ⟨old, hold, hnone, hwritten⟩ := h.log
  refine { h with
    job := ⟨received, mlOffset, mlRemain, by rw [hj]⟩
    rest := ⟨h.rest.results, h.rest.queue⟩
    log := ⟨new ++ old, by rw [hold, List.append_assoc], ?_, ?_⟩ }
  · exact List.forall_mem_append.2 ⟨fun s hs => (hnew s hs).isIncidental, hnone⟩
  · rw [written_append, hwritten, written_of_sent hnew, List.append_nil]

theorem passing (h : Deferred e₀ n acks e) (ha : Owed e₀) (hop : op.IsPassing) :
    Deferred e₀ n acks (e.step op) := by
  cases op with
  | tick primary =>
    obtain rfl : primary = false := by
      cases primary with
      | false => rfl
      | true => exact hop.elim
    have hrest : AtRest { e with schedule := e.schedule.resetSequence } := ⟨h.rest.results, h.rest.queue⟩
    have hstep : e.step (.tick false) = { e with schedule := e.schedule.resetSequence } := by
      show ({ e with schedule := e.schedule.resetSequence }.sendNext false).settle = _
      rw [sendNext, if_pos (by exact h.wait_pos ha), settle_atRest hrest]
    rw [hstep]
    exact { h with rest := hrest }
  | elapse ms => exact { h with rest := ⟨h.rest.results, h.rest.queue⟩ }
  | txComplete frame success =>
    obtain rfl : success = true := by
      cases success with
      | false => exact hop.elim
      | true => rfl
    obtain ⟨received, new, heq, hnew⟩ := judgeResult_good e frame
    have hsent := h.sent received hnew
    show Deferred e₀ n acks (e.judgeResult frame true).settle
    rw [heq, settle_atRest hsent.rest]
    exact hsent
  | _ => exact hop.elim

/-! ### What the module says -/

/-- A frame over ISO-TP brings its bytes to the poll in flight. -/
theorem receiveOther_eq (h : Deferred e₀ n acks e) (ho : Owed e₀) (hv : e₀.job.isVwtp = false)
    (ha : e₀.job.accepts (e₀.responseId frame) = true)
    (hs : Segment.ofBytes? (e₀.job.protocol.isoTpData frame) = some (.single data)) :
    e.receiveOther frame = e.receiveOpening (e.responseId frame) (UInt16.ofNat data.length) data false := by
  have hmay : (!e.job.isVwtp && 0 < e.wait && e.job.entry.isSome && e.job.accepts (e.responseId frame)) = true := by
    obtain ⟨_, _, _, hj⟩ := h.job
    rw [h.isVwtp_eq, hv, decide_eq_true (h.wait_pos ho), responseId, hj]
    exact (congrArg (· && _) ho.entry_isSome).trans ha
  unfold receiveOther receiveIsoTp
  rw [if_pos hmay, h.protocol_eq, hs]

/-- A frame on the channel brings its bytes to the poll in flight. -/
theorem channelStep_eq (h : Deferred e₀ n acks e) (ho : Owed e₀) (hv : e₀.job.isVwtp = true)
    (hd : e₀.channel.IsData e₀.bus frame)
    (hn : Frame.leadByte frame.data &&& 0x0f = (e₀.channel.rxSeq + UInt8.ofNat n) &&& 0x0f) {lead hi lo : UInt8}
    (hp : frame.payload = lead :: hi :: lo :: data) :
    e.channelStep frame =
      e.countData.receiveFirstData (Frame.leadByte frame.data) (Envelope.word (hi &&& 0x0f) lo) data := by
  have hping : Frame.leadByte frame.data ≠ Opcode.ping := fun heq => absurd (heq ▸ hd.data) (by decide)
  have hclose : Frame.leadByte frame.data ≠ Opcode.disconnect := fun heq => absurd (heq ▸ hd.data) (by decide)
  have hnumber : ¬ Frame.leadByte frame.data &&& 0x0f ≠ e.channel.rxSeq &&& 0x0f := by
    rw [h.rxSeq_eq hv]
    exact not_not_intro hn
  have hframe : e.job.mlFrame = 0 := by
    obtain ⟨_, _, _, hj⟩ := h.job
    rw [hj]
    exact ho.frame_eq hv
  unfold channelStep
  dsimp only
  rw [h.state_eq, ho.state_eq hv]
  dsimp only
  unfold receiveResponse receiveData
  rw [if_neg hping, if_neg hclose, if_pos hd.data, if_neg hnumber, if_neg (not_not_intro hframe), hp]
  rfl

theorem step_channel (h : Deferred e₀ n acks e) (ho : Owed e₀) (hown : e₀.channel.Owned) (hv : e₀.job.isVwtp = true)
    (hd : e₀.channel.IsData e₀.bus frame) :
    e.step (.frame frame) = ((e.channelStep frame).2.chained (e.channelStep frame).1).settle := by
  have hframe : e₀.isChannelFrame frame = true := by
    simp [isChannelFrame, Channel.isOpen, ho.state_eq hv, hd.standard, hd.id_eq]
  have hbound : e.channel.bound = true := by
    obtain ⟨_, _, hc⟩ := h.channel
    rw [hc]
    exact bound_of_isChannelFrame hown hframe
  exact step_frame_channel (hd.bus_eq.trans h.bus_eq.symm) ((h.isChannelFrame_eq frame).trans hframe) hbound

end Deferred

/-- A data frame has come in that announces a response of this length. -/
def announcing (e : Engine) (total : UInt16) : Engine :=
  { e.countData with job := { e.job with mlRemain := total } }

theorem receiveFirstData_eq (opcode : UInt8) : e.countData.receiveFirstData opcode total data =
    match (e.announcing total).judge data with
    | .foreign => (.stay, (e.announcing total).abortTransfer)
    | .answer payload => (.chain, (e.announcing total).deliverData opcode data payload)
    | .refused code =>
      if code.isPending then (.stay, { (e.announcing total).acknowledge opcode with
        job := ((e.announcing total).acknowledge opcode).job.resetMultiframe
        wait := 2 })
      else (.chain, (Engine.deliverFailure
        { (e.announcing total).acknowledge opcode with
          job := { ((e.announcing total).acknowledge opcode).job with
            received := ((e.announcing total).acknowledge opcode).job.sent
            mlRemain := 0 } } (.negative code)).goIdle) :=
  rfl

theorem receiveFirstData_pending {opcode : UInt8} {code : NegativeCode}
    (hj : (e.announcing total).judge data = .refused code) (hc : code.isPending = true) :
    e.countData.receiveFirstData opcode total data = (.stay, { (e.announcing total).acknowledge opcode with
      job := ((e.announcing total).acknowledge opcode).job.resetMultiframe
      wait := 2 }) := by
  rw [receiveFirstData_eq, hj]
  exact if_pos hc

theorem receiveFirstData_refused {opcode : UInt8} {code : NegativeCode}
    (hj : (e.announcing total).judge data = .refused code) (hc : code.isPending = false) :
    e.countData.receiveFirstData opcode total data = (.chain, (Engine.deliverFailure
      { (e.announcing total).acknowledge opcode with
        job := { ((e.announcing total).acknowledge opcode).job with
          received := ((e.announcing total).acknowledge opcode).job.sent
          mlRemain := 0 } } (.negative code)).goIdle) := by
  rw [receiveFirstData_eq, hj]
  exact if_neg (by simp [hc])

/-- A response that ends with its first frame is handed on as a whole. -/
theorem receiveFirstData_answer {opcode : UInt8} {payload : List UInt8}
    (hj : (e.announcing total).judge data = .answer payload) (hless : lessLength total data = 0) :
    e.countData.receiveFirstData opcode total data = (.chain, (Engine.deliverReply
      { (e.announcing total).acknowledge opcode with
        job := { ((e.announcing total).acknowledge opcode).job with
          received := ((e.announcing total).acknowledge opcode).channel.rxId, mlRemain := 0 } } payload).goIdle) := by
  have hjob : ((e.announcing total).acknowledge opcode).job.mlRemain = total := by
    rw [job_acknowledge]
    rfl
  rw [receiveFirstData_eq, hj]
  show (AfterFrame.chain, (e.announcing total).deliverData opcode data payload) = _
  unfold deliverData afterData deliverSegment
  dsimp only
  rw [hjob, hless, if_pos (by rw [(Delivers.deliverReply ..).job])]

theorem judge_pending (hd : [Envelope.negativeType, e.job.service, 0x78] <+: data) :
    e.judge data = .refused ⟨0x78⟩ := by
  obtain ⟨rest, rfl⟩ := hd
  exact judge_refused 0x78 rest

/-- A data frame is acknowledged if it asks for that. A refusal of the acknowledgement would be left to be judged. -/
theorem acknowledge_spec (e : Engine) (frame : Frame) : ∃ line results new,
    e.acknowledge (Frame.leadByte frame.data) = { e with line, results, log := new ++ e.log } ∧
      (∀ s ∈ new, s.event.IsIncidental) ∧
      written new = (if frame.wantsAck then
        [(.ack, e.channelFrame [Opcode.numbered Opcode.ackReady e.channel.rxSeq])] else []) ∧
      (e.AllSent → (∀ s ∈ new, s.event.refused? = none) → ∀ r ∈ results, r.2 = true) := by
  by_cases hw : Opcode.high (Frame.leadByte frame.data) ≤ DataKind.lastWantsAck.opcode
  · have hack : e.acknowledge (Frame.leadByte frame.data) = e.sendAck := if_pos hw
    have hsent (hs : e.AllSent) : Adds (·.refused? = none) e e.sendAck → e.sendAck.AllSent := hs.transmit_unrefused
    rw [hack]
    unfold sendAck at hsent ⊢
    rw [transmit_eq] at hsent ⊢
    refine ⟨_, _, [_], rfl, List.forall_mem_singleton.2 ⟨rfl, rfl⟩, ?_, fun hs hnone => hsent hs ⟨[_], rfl, hnone⟩⟩
    simp [Frame.wantsAck, hw, written, writes, Stamped.write?]
  · refine ⟨e.line, e.results, [], if_neg hw, List.forall_mem_nil _, ?_, fun hs _ => hs⟩
    simp [Frame.wantsAck, hw, written, writes]

namespace Deferred

/-- Over ISO-TP a deferral adds a tick to the wait. -/
theorem pending_single (h : Deferred e₀ n acks e) (ho : Owed e₀) (hv : e₀.job.isVwtp = false)
    (hb : frame.bus = e₀.bus) (hc : e₀.isChannelFrame frame = false)
    (ha : e₀.job.accepts (e₀.responseId frame) = true)
    (hs : Segment.ofBytes? (e₀.job.protocol.isoTpData frame) = some (.single data))
    (hd : [Envelope.negativeType, e₀.job.service, 0x78] <+: data) :
    Deferred e₀ (n + 1) acks (e.step (.frame frame)) := by
  have hrest : AtRest { e with wait := min 255 (e.wait + 1) } := ⟨h.rest.results, h.rest.queue⟩
  have hjudge : e.judge data = .refused ⟨0x78⟩ := judge_pending (h.service_eq ▸ hd)
  have hstep : e.step (.frame frame) = { e with wait := min 255 (e.wait + 1) } := by
    rw [step_frame_other (hb.trans h.bus_eq.symm) ((h.isChannelFrame_eq frame).trans hc),
      h.receiveOther_eq ho hv ha hs, receiveOpening, hjudge]
    exact settle_atRest hrest
  rw [hstep]
  refine { h with rxSeq_eq := fun hv' => absurd (hv.symm.trans hv') Bool.false_ne_true, wait_eq := ?_, rest := hrest }
  show min 255 (e.wait + 1) = _
  rw [h.wait_eq]
  unfold waitAfter
  rw [hv]
  split <;> simp <;> omega

/-- The engine with the deferral acknowledged, about to wait for more. -/
def deferring (e : Engine) (line : Line) (results : List (Frame × Bool)) (new : List Stamped) : Engine :=
  { e with line, results, channel := e.countData.channel, job := e.job.resetMultiframe, wait := 2, log := new ++ e.log }

theorem rxSeq_succ (h : Deferred e₀ n acks e) (hv : e₀.job.isVwtp = true) :
    e.countData.channel.rxSeq = e₀.channel.rxSeq + UInt8.ofNat (n + 1) := by
  show e.channel.rxSeq + 1 = _
  rw [h.rxSeq_eq hv, UInt8.ofNat_add, UInt8.add_assoc]
  rfl

/-- What a deferral does on the channel. -/
theorem step_pending (h : Deferred e₀ n acks e) (ho : Owed e₀) (hown : e₀.channel.Owned) (hv : e₀.job.isVwtp = true)
    (hf : e₀.channel.IsData e₀.bus frame)
    (hn : Frame.leadByte frame.data &&& 0x0f = (e₀.channel.rxSeq + UInt8.ofNat n) &&& 0x0f) {lead hi lo : UInt8}
    (hp : frame.payload = lead :: hi :: lo :: data)
    (hd : [Envelope.negativeType, e₀.job.service, 0x78] <+: data) : ∃ line results new,
    e.step (.frame frame) = (deferring e line results new).settle ∧ (∀ s ∈ new, s.event.IsIncidental) ∧
      written new = e₀.channel.acks e₀.bus n frame ∧
      ((∀ s ∈ new, s.event.refused? = none) → ∀ r ∈ results, r.2 = true) := by
  obtain ⟨line, results, new, hack, hnew, hwritten, hsent⟩ :=
    acknowledge_spec (e.announcing (Envelope.word (hi &&& 0x0f) lo)) frame
  have hjudge : (e.announcing (Envelope.word (hi &&& 0x0f) lo)).judge data = .refused ⟨0x78⟩ :=
    judge_pending (by exact h.service_eq ▸ hd)
  refine ⟨line, results, new, ?_, hnew, ?_, hsent (.of_nil h.rest.results)⟩
  · rw [h.step_channel ho hown hv hf, h.channelStep_eq ho hv hf hn hp, receiveFirstData_pending hjudge rfl, hack]
    rfl
  · have hseq : (e.announcing (Envelope.word (hi &&& 0x0f) lo)).channel.rxSeq =
        e₀.channel.rxSeq + UInt8.ofNat (n + 1) := h.rxSeq_succ hv
    have hframe (bytes : List UInt8) : (e.announcing (Envelope.word (hi &&& 0x0f) lo)).channelFrame bytes =
        Frame.cut e₀.bus e₀.channel.txId false bytes := by
      obtain ⟨_, _, hc⟩ := h.channel
      show Frame.cut e.bus e.channel.txId false bytes = _
      rw [h.bus_eq, hc]
    rw [hwritten, hseq, hframe]
    rfl

/-- Over the channel a deferral has the wait begin anew, and is acknowledged if the module asks for that. -/
theorem pending_data (h : Deferred e₀ n acks e) (ho : Owed e₀) (hown : e₀.channel.Owned) (hv : e₀.job.isVwtp = true)
    (hf : e₀.channel.IsData e₀.bus frame)
    (hn : Frame.leadByte frame.data &&& 0x0f = (e₀.channel.rxSeq + UInt8.ofNat n) &&& 0x0f) {lead hi lo : UInt8}
    (hp : frame.payload = lead :: hi :: lo :: data)
    (hd : [Envelope.negativeType, e₀.job.service, 0x78] <+: data)
    (hall : Adds (·.refused? = none) e (e.step (.frame frame))) :
    Deferred e₀ (n + 1) (acks ++ e₀.channel.acks e₀.bus n frame) (e.step (.frame frame)) := by
  obtain ⟨received, mlOffset, mlRemain, hj⟩ := h.job
  obtain ⟨rxSeq, lastUsed, hc⟩ := h.channel
  obtain ⟨old, hold, hnone, hwritten⟩ := h.log
  obtain ⟨line, results, new, hstep, hnew, hack, hsent⟩ := h.step_pending ho hown hv hf hn hp hd
  rw [hstep] at hall ⊢
  have hadded : Adds (·.refused? = none) e (deferring e line results new) :=
    (hall.split (List.suffix_append ..) (Grows.turns (Turns.refl _).settle).log).1
  have hresults : (deferring e line results new).AllSent := by
    obtain ⟨new', hnew', hnone'⟩ := hadded
    obtain rfl : new = new' := List.append_cancel_right hnew'
    exact hsent hnone'
  have hdeferred : Deferred e₀ (n + 1) (acks ++ e₀.channel.acks e₀.bus n frame)
      { deferring e line results new with results := [] } :=
    { bus_eq := h.bus_eq
      job := ⟨received, 0, 0, by
        show e.job.resetMultiframe = _
        simp [hj, PollJob.resetMultiframe, ho.frame_eq hv]⟩
      channel := ⟨rxSeq + 1, some e.now, by
        show Channel.touch _ _ = _
        rw [hc]
        rfl⟩
      rxSeq_eq := fun _ => h.rxSeq_succ hv
      single_eq := h.single_eq
      wait_eq := by simp [deferring, waitAfter, hv]
      rest := ⟨rfl, h.rest.queue⟩
      log := ⟨new ++ old, by simp [deferring, hold], List.forall_mem_append.2 ⟨hnew, hnone⟩, by
        rw [written_append, hwritten, hack]⟩ }
  obtain ⟨received', new', hsettle, hreports⟩ := settle_good hresults h.rest.queue
  rw [hsettle]
  exact hdeferred.sent received' hreports

end Deferred

/-- However often the response is deferred, it is waited for. -/
theorem Deferrals.deferred (h : Deferrals e n ops acks) (hr : e.Reached) (ho : Owed e)
    (hall : e.job.isVwtp = true → Adds (·.refused? = none) e (e.run ops)) : Deferred e n acks (e.run ops) := by
  have hsplit (ops : List Operation) (op : Operation) (hv : Adds (·.refused? = none) e ((e.run ops).step op)) :=
    hv.split (Grows.run e ops).log (Grows.step _ op).log
  induction h with
  | nil => exact .refl hr.atRest
  | @pending n ops acks frame total data h hf hd ih =>
    rw [run_concat] at hall ⊢
    have hdeferred := ih fun hv => (hsplit ops _ (hall hv)).1
    cases hf with
    | single hv hb hc ha hs =>
      rw [acksFor, hv, if_neg Bool.false_ne_true, List.append_nil]
      exact hdeferred.pending_single ho hv hb hc ha hs hd
    | data hv hf hn hp =>
      rw [acksFor, hv, if_pos rfl]
      exact hdeferred.pending_data ho hr.owned hv hf hn hp hd (hsplit ops _ (hall hv)).2
  | @passing n ops acks op h hop ih =>
    rw [run_concat] at hall ⊢
    exact (ih fun hv => (hsplit ops op (hall hv)).1).passing ho hop

/-! ### The last word -/

/-- The outcome is handed on. -/
def deliverOutcome (e : Engine) : Except NegativeCode (List UInt8) → Engine
  | .ok payload => e.deliverReply payload
  | .error code => e.deliverFailure (.negative code)

/-- The bytes are judged to be this outcome, and all of it. -/
def JudgesAs (e : Engine) (total : UInt16) (data : List UInt8) : Except NegativeCode (List UInt8) → Prop
  | .ok payload => e.judge data = .answer payload ∧ lessLength total data = 0
  | .error code => e.judge data = .refused code ∧ code.isPending = false

theorem LastWord.judgesAs (h : e.LastWord total data outcome)
    (hk : ∀ payload, outcome = .ok payload → e.Recognises) (hs : e'.job.service = e.job.service)
    (hp : e'.job.pid = e.job.pid) : e'.JudgesAs total data outcome := by
  cases h with
  | @refusal code rest hc hd =>
    rw [JudgesAs, hd, ← hs]
    exact ⟨judge_refused code.byte rest, hc⟩
  | @answer payload ht hd =>
    obtain ⟨hx, hfits⟩ := hk payload rfl
    rw [← hs] at hx
    rw [← hs, ← hp] at hfits hd
    refine ⟨hd ▸ judge_answer hx hfits payload, ?_⟩
    rw [← UInt16.toNat_inj, toNat_lessLength]
    exact Nat.sub_eq_zero_of_le ht

theorem Reports.givesResult {event : Event} (h : e.Reports outcome event) : event.givesResult = true := by
  cases h <;> rfl

theorem Reports.beginsPoll {event : Event} (h : e.Reports outcome event) : event.beginsPoll = false := by
  cases h <;> rfl

theorem Reports.congr {event : Event} (hs : e'.single = e.single) (hj : e'.job.asked = e.job.asked)
    (h : e'.Reports outcome event) : e.Reports outcome event := by
  cases h with
  | reply hn ha => exact .reply (hs.symm.trans hn) (ha.trans hj)
  | failed hn ha => exact .failed (hs.symm.trans hn) (ha.trans hj)
  | resolved hc => exact .resolved (hs.symm.trans hc)
  | refused hc => exact .refused (hs.symm.trans hc)

theorem job_deliverOutcome (e : Engine) (outcome : Except NegativeCode (List UInt8)) :
    (e.deliverOutcome outcome).job = e.job := by
  cases outcome with
  | ok payload => exact (Delivers.deliverReply ..).job
  | error code => exact (Delivers.deliverFailure ..).job

theorem channel_deliverOutcome (e : Engine) (outcome : Except NegativeCode (List UInt8)) :
    (e.deliverOutcome outcome).channel = e.channel := by
  cases outcome with
  | ok payload => exact (Delivers.deliverReply ..).channel
  | error code => exact (Delivers.deliverFailure ..).channel

/-- A whole response is one result, and so is a refusal. A single request ends with either. -/
theorem deliverOutcome_spec (hm : e.job.mlRemain = 0) (outcome : Except NegativeCode (List UInt8)) :
    (e.deliverOutcome outcome).single = none ∧
      ∃ event, e.Reports outcome event ∧ (e.deliverOutcome outcome).log = ⟨e.now, event⟩ :: e.log := by
  cases outcome with
  | ok payload =>
    unfold deliverOutcome deliverReply
    cases hs : e.single with
    | none => exact ⟨hs, _, .reply hs rfl, by rw [hm]; rfl⟩
    | some capture =>
      dsimp only
      rw [if_pos hm]
      unfold finishSingle
      rw [hs]
      exact ⟨rfl, _, .resolved hs, rfl⟩
  | error code =>
    unfold deliverOutcome deliverFailure
    cases hs : e.single with
    | none => exact ⟨hs, _, .failed hs rfl, rfl⟩
    | some capture =>
      dsimp only
      unfold finishSingle
      rw [hs]
      exact ⟨rfl, _, .refused hs, rfl⟩

/-- What is handed on is the one result if nothing but acknowledgements comes before it, and nothing is awaited
afterwards. -/
theorem Gives.of_hushes {m : Engine} (hs : m.single = e.single) (hj : m.job.asked = e.job.asked)
    (hm : m.job.mlRemain = 0) (ha : Adds Event.IsIncidental e m) (hh : Hushes (m.deliverOutcome outcome) e') :
    Gives e outcome e' := by
  obtain ⟨-, event, hevent, hlog⟩ := deliverOutcome_spec hm outcome
  obtain ⟨before, hbefore, hnone⟩ := ha
  obtain ⟨after, hafter, hhushed⟩ := hh.firstResults_eq_nil
  refine ⟨after ++ ([⟨m.now, event⟩] ++ before), ?_, event, ?_, hevent.congr hs hj⟩
  · rw [hafter, hlog, hbefore]
    simp
  · have hbegins : ∀ s ∈ [⟨m.now, event⟩] ++ before, s.event.beginsPoll = false :=
      List.forall_mem_append.2 ⟨List.forall_mem_singleton.2 hevent.beginsPoll, fun s hs => (hnone s hs).2⟩
    rw [firstResults_append hbegins, firstResults_append fun s hs => (hnone s hs).2, firstResults_incidental hnone,
      hhushed]
    simp [firstResults, hevent.givesResult, hevent.beginsPoll]

theorem Hushes.afterSegment (hs : e.single = none) (hm : e.job.mlRemain = 0) (id : UInt32) (first : Bool)
    (length : Nat) : Hushes e (e.afterSegment id first length).settle := by
  have hw : Hushes e { e with wait := 0 } := .of_log hs rfl rfl
  unfold Engine.afterSegment
  rw [if_pos hm]
  dsimp only
  split
  · exact hw.trans (Grows.turns (Turns.refl _).settle).log settle
  · exact hw.trans (Grows.turns ((Turns.refl _).pollNext rfl).settle).log pollNext_settle

theorem Hushes.goIdle (hs : e.single = none) (hi : e.channel.state ≠ .idle) :
    Hushes e (e.goIdle.chained .chain).settle := by
  have hw : Hushes e e.goIdle := by
    unfold Engine.goIdle
    rw [if_neg hi]
    exact .of_log hs rfl rfl
  have hzero : e.goIdle.wait = 0 := by
    unfold Engine.goIdle
    rw [if_neg hi]
  rw [show e.goIdle.chained .chain = e.goIdle.pollNext from if_pos hzero]
  exact hw.trans (Grows.turns ((Turns.refl _).pollNext hzero).settle).log pollNext_settle

namespace Deferred

/-- The last word over ISO-TP. -/
theorem gives_single (h : Deferred e₀ n acks e) (ho : Owed e₀) (hv : e₀.job.isVwtp = false)
    (hb : frame.bus = e₀.bus) (hc : e₀.isChannelFrame frame = false)
    (ha : e₀.job.accepts (e₀.responseId frame) = true)
    (hs : Segment.ofBytes? (e₀.job.protocol.isoTpData frame) = some (.single data))
    (hl : e₀.LastWord (UInt16.ofNat data.length) data outcome)
    (hk : ∀ payload, outcome = .ok payload → e₀.Recognises) : Gives e outcome (e.step (.frame frame)) := by
  have hjudge : e.JudgesAs (UInt16.ofNat data.length) data outcome := hl.judgesAs hk h.service_eq h.pid_eq
  have hopening : ∃ received mlFrame mlOffset length,
      e.receiveOpening (e.responseId frame) (UInt16.ofNat data.length) data false =
        (Engine.deliverOutcome { e with job := { e.job with received, mlFrame, mlOffset, mlRemain := 0 } }
          outcome).afterSegment (e.responseId frame) false length := by
    unfold receiveOpening
    cases outcome with
    | error code =>
      rw [hjudge.1]
      dsimp only
      rw [if_neg (by simp [hjudge.2])]
      exact ⟨e.responseId frame, 0, 0, 0, rfl⟩
    | ok payload =>
      rw [hjudge.1]
      dsimp only
      rw [hjudge.2]
      exact ⟨e.responseId frame, e.job.mlFrame, e.job.mlOffset, payload.length, rfl⟩
  obtain ⟨received, mlFrame, mlOffset, length, hopening⟩ := hopening
  rw [step_frame_other (hb.trans h.bus_eq.symm) ((h.isChannelFrame_eq frame).trans hc),
    h.receiveOther_eq ho hv ha hs, hopening]
  have hm : ({ e.job with received, mlFrame, mlOffset, mlRemain := 0 } : PollJob).mlRemain = 0 := rfl
  refine Gives.of_hushes (m := { e with job := { e.job with received, mlFrame, mlOffset, mlRemain := 0 } })
    rfl rfl hm (.of_log rfl) ?_
  exact .afterSegment (deliverOutcome_spec hm outcome).1 (by rw [job_deliverOutcome]) ..

/-- The last word over the channel. -/
theorem gives_data (h : Deferred e₀ n acks e) (ho : Owed e₀) (hown : e₀.channel.Owned) (hv : e₀.job.isVwtp = true)
    (hf : e₀.channel.IsData e₀.bus frame)
    (hn : Frame.leadByte frame.data &&& 0x0f = (e₀.channel.rxSeq + UInt8.ofNat n) &&& 0x0f) {lead hi lo : UInt8}
    (hp : frame.payload = lead :: hi :: lo :: data)
    (hl : e₀.LastWord (Envelope.word (hi &&& 0x0f) lo) data outcome)
    (hk : ∀ payload, outcome = .ok payload → e₀.Recognises) : Gives e outcome (e.step (.frame frame)) := by
  have hjudge :
      (e.announcing (Envelope.word (hi &&& 0x0f) lo)).JudgesAs (Envelope.word (hi &&& 0x0f) lo) data outcome :=
    hl.judgesAs hk h.service_eq h.pid_eq
  obtain ⟨line, results, new, hack, hnew, -⟩ := acknowledge_spec (e.announcing (Envelope.word (hi &&& 0x0f) lo)) frame
  have hfirst : ∃ m : Engine, e.countData.receiveFirstData (Frame.leadByte frame.data)
        (Envelope.word (hi &&& 0x0f) lo) data = (.chain, (m.deliverOutcome outcome).goIdle) ∧
      m.single = e.single ∧ m.job.asked = e.job.asked ∧ m.job.mlRemain = 0 ∧ Adds Event.IsIncidental e m ∧
      m.channel.state = e.channel.state := by
    cases outcome with
    | error code =>
      rw [receiveFirstData_refused hjudge.1 hjudge.2, hack]
      exact ⟨_, rfl, rfl, rfl, rfl, ⟨new, rfl, hnew⟩, rfl⟩
    | ok payload =>
      rw [receiveFirstData_answer hjudge.1 hjudge.2, hack]
      exact ⟨_, rfl, rfl, rfl, rfl, ⟨new, rfl, hnew⟩, rfl⟩
  obtain ⟨m, hfirst, hs, hj, hm, ha, hstate⟩ := hfirst
  rw [h.step_channel ho hown hv hf, h.channelStep_eq ho hv hf hn hp, hfirst]
  refine .of_hushes hs hj hm ha (.goIdle (deliverOutcome_spec hm outcome).1 ?_)
  rw [channel_deliverOutcome, hstate, h.state_eq, ho.state_eq hv]
  decide

end Deferred

theorem Deferrals.of_prefix (h : Deferrals e n ops acks) {before : List Operation} (hp : before <+: ops) :
    ∃ m, m ≤ n ∧ ∃ acks', Deferrals e m before acks' := by
  induction h with
  | nil =>
    obtain rfl := List.prefix_nil.1 hp
    exact ⟨0, Nat.le_refl 0, [], .nil⟩
  | @pending n _ _ _ _ _ h hf hd ih =>
    rcases List.prefix_concat_iff.1 hp with rfl | hp
    · exact ⟨n + 1, Nat.le_refl _, _, .pending h hf hd⟩
    · obtain ⟨m, hm, hbefore⟩ := ih hp
      exact ⟨m, Nat.le_succ_of_le hm, hbefore⟩
  | @passing n _ _ _ h hop ih =>
    rcases List.prefix_concat_iff.1 hp with rfl | hp
    · exact ⟨n, Nat.le_refl _, _, .passing h hop⟩
    · exact ih hp

/-- The wait is never shortened. -/
theorem Deferrals.wait_le (h : Deferrals e n ops acks) (hr : e.Reached) (ho : Owed e)
    (hall : e.job.isVwtp = true → Adds (·.refused? = none) e (e.run ops)) {before after : List Operation}
    (hops : ops = before ++ after) :
    (e.run before).wait ≤ (e.run ops).wait := by
  obtain ⟨m, hm, acks', hbefore⟩ := h.of_prefix ⟨after, hops.symm⟩
  have hgrows : (e.run before).log <:+ (e.run ops).log := by
    rw [hops, run_append]
    exact (Grows.run _ after).log
  have hearlier := hbefore.deferred hr ho fun hv => ((hall hv).split (Grows.run e before).log hgrows).1
  rw [hearlier.wait_eq, (h.deferred hr ho hall).wait_eq]
  exact waitAfter_mono hr.curbed hm

/-- However often the response is deferred, it is waited for, and what the module answers in the end is handed on
once. -/
def Persists (e : Engine) : Prop :=
  ∀ n ops acks, Deferrals e n ops acks → Deferred e n acks (e.run ops) ∧
    ∀ frame total data outcome, e.Says n frame total data → e.LastWord total data outcome →
      Gives (e.run ops) outcome ((e.run ops).step (.frame frame))

/-- The bus refuses the acknowledgement of a deferral. The poll fails, and nothing is waited for any more. -/
theorem not_persists_refused : ∃ e : Engine, e.Reached ∧ Owed e ∧ e.Recognises ∧ ¬ e.Persists := by
  let bus : BusId := ⟨1, by decide⟩
  let read : PollEntry := ⟨0x200, 1, 0x22, 0xf190, [], #v[1, 1, 1, 1], 1, .vwtp20⟩
  let frame := EcuFrame.channel bus 0x300
  let e := (Engine.new bus "ecu" false ⟨0, 25, .strict, 0, 0⟩).run [.setList (some [read]) none, .tick true,
    .frame (EcuFrame.channel bus 0x201 [0x00, 0xd0, 0x00, 0x03, 0x40, 0x07, 0x01]),
    .frame (frame [0xa1, 0x0f, 0x8a, 0xff, 0x00, 0xff]), .frame (frame [0xb1]), .setRoom (some 0)]
  let pending := frame [0x10, 0x00, 0x03, 0x7f, 0x22, 0x78]
  have hr : e.Reached := ⟨bus, "ecu", false, _, _, rfl⟩
  have ho : Owed e := ⟨by decide, by decide, by decide, by decide⟩
  have hsays : e.Says 0 pending 3 [0x7f, 0x22, 0x78] :=
    .data (by decide) ⟨by decide, by decide, by decide, by decide⟩ (by decide) rfl rfl
  have hd : Deferrals e 1 [.frame pending] ([] ++ e.acksFor 0 pending) := .pending .nil hsays (by decide)
  refine ⟨e, hr, ho, ⟨by decide, fun hbyte => absurd hbyte (by decide)⟩, fun hp => ?_⟩
  have hpos : 0 < (e.run [.frame pending]).wait := (hp _ _ _ hd).1.wait_pos ho
  have hzero : (e.run [.frame pending]).wait = 0 := by decide
  omega

/-- A last word on which nothing is said is not handed on. -/
theorem not_persists_silent (hf : e.Says 0 frame total data) (hl : e.LastWord total data outcome)
    (hlog : (e.step (.frame frame)).log.length = e.log.length) : ¬ e.Persists := by
  intro hp
  obtain ⟨new, hnew, event, hfirst, -⟩ := (hp 0 [] [] .nil).2 frame total data outcome hf hl
  have hlen : (e.step (.frame frame)).log.length = new.length + e.log.length :=
    (congrArg List.length hnew).trans List.length_append
  obtain rfl : new = [] := List.length_eq_zero_iff.1 (by omega)
  cases hfirst

/-- A request over ISO-TP for this service and PID is in flight. -/
def asking (service : UInt8) (pid : UInt16) : Engine :=
  (Engine.new ⟨1, by decide⟩ "ecu" false ⟨0, 25, .strict, 0, 0⟩).run
    [.setList (some [⟨0x7e0, 0x7e8, service, pid, [], #v[1, 1, 1, 1], 1, .isoTp⟩]) none, .tick true]

/-- The positive responses of the service have the response type of refusals. -/
theorem not_persists_service : ∃ e : Engine, e.Reached ∧ Owed e ∧ e.job.isVwtp = false ∧
    PidFits e.job.service e.job.pid ∧ ¬ e.Persists := by
  let e := asking 0x3f 1
  let answer := EcuFrame.single e.bus 0x7e8 [0x7f, 0x01, 0xaa]
  have hsays : e.Says 0 answer 3 [0x7f, 0x01, 0xaa] :=
    .single (by decide) rfl (by decide) (by decide) (by decide) (by decide)
  have hlast : e.LastWord 3 [0x7f, 0x01, 0xaa] (.ok [0xaa]) := .answer (by decide) (by decide)
  refine ⟨e, ⟨_, _, _, _, _, rfl⟩, ⟨by decide, by decide, by decide, by decide⟩, by decide, fun _ => by decide, ?_⟩
  exact not_persists_silent hsays hlast (by decide)

/-- The PID does not fit the service, and is cut on its way out. -/
theorem not_persists_pid : ∃ e : Engine, e.Reached ∧ Owed e ∧ e.job.isVwtp = false ∧
    e.job.service ≠ 0x3f ∧ ¬ e.Persists := by
  let e := asking 0x21 0x1234
  let answer := EcuFrame.single e.bus 0x7e8 [0x61, 0x34, 0xaa]
  have hsays : e.Says 0 answer 3 [0x61, 0x34, 0xaa] :=
    .single (by decide) rfl (by decide) (by decide) (by decide) (by decide)
  have hlast : e.LastWord 3 [0x61, 0x34, 0xaa] (.ok [0xaa]) := .answer (by decide) (by decide)
  refine ⟨e, ⟨_, _, _, _, _, rfl⟩, ⟨by decide, by decide, by decide, by decide⟩, by decide, by decide, ?_⟩
  exact not_persists_silent hsays hlast (by decide)

end Engine

end EcuPoll
