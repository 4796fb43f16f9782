import EcuPoll.Proofs.IsoTp.Reassembly
import EcuPoll.Proofs.Vwtp.Dormancy
import EcuPoll.Proofs.Vwtp.Waiting

/-!
# Responses over a channel

A module sends its response in numbered data frames. The first begins with the length of the response and
holds at least its header; any of them may ask for an acknowledgement. `Receiving k n e` says that an engine
has taken the first `k` frames with `n` bytes in them: the next frame takes it on (`Receiving.next`), the
last one hands on the rest of the body and leaves the channel idle (`Receiving.last`), and a frame with
another number ends the response (`Receiving.refuse`).
-/

namespace EcuPoll

/-- The frame asks for an acknowledgement: the high nibble of its first byte is 0 or 1. -/
def Frame.wantsAck (frame : Frame) : Bool :=
  Opcode.high (leadByte frame.data) ≤ DataKind.lastWantsAck.opcode

/-- What is written for the data frame that follows `k` others, on a channel as it was before the first: an
acknowledgement with the next number, if it asks for one. -/
def Channel.acks (c : Channel) (bus : BusId) (k : Nat) (frame : Frame) : List (FrameKind × Frame) :=
  if frame.wantsAck then
    [(.ack, Frame.cut bus c.txId false [Opcode.numbered Opcode.ackReady (c.rxSeq + UInt8.ofNat (k + 1))])]
  else []

/-- A data frame on the channel. -/
structure Channel.IsData (c : Channel) (bus : BusId) (frame : Frame) : Prop where
  bus_eq : frame.bus = bus
  standard : frame.extended = false
  id_eq : frame.id = c.rxId
  data : Frame.leadByte frame.data < 0x40

/-- A data frame with another number than that which is due after `k` others. -/
structure Channel.IsMisnumbered (c : Channel) (bus : BusId) (k : Nat) (frame : Frame) : Prop extends
    c.IsData bus frame where
  number : Frame.leadByte frame.data &&& 0x0f ≠ (c.rxSeq + UInt8.ofNat k) &&& 0x0f

/-- The body bytes in the first `n` bytes of a response to the entry. -/
def PollEntry.bodyOf (entry : PollEntry) (n : Nat) : Nat :=
  n - (responseHeader entry.service entry.pid).length

namespace PollEntry.Answer
variable {entry : PollEntry} (a : entry.Answer)

/-- The response: its header and its body. -/
def response : List UInt8 := responseHeader entry.service entry.pid ++ a.body

/-- The data frame that follows `k` others with `n` bytes of the response in them, and brings the bytes
`piece`, on a channel as it was before the first. -/
structure BringsData (bus : BusId) (c : Channel) (k n : Nat) (frame : Frame) (piece : List UInt8) :
    Prop extends c.IsData bus frame where
  number : Frame.leadByte frame.data &&& 0x0f = (c.rxSeq + UInt8.ofNat k) &&& 0x0f
  first : k = 0 → (responseHeader entry.service entry.pid).length ≤ piece.length ∧
    ∃ lead hi lo, frame.payload = lead :: hi :: lo :: piece ∧
      Envelope.word (hi &&& 0x0f) lo = UInt16.ofNat a.response.length
  further : k ≠ 0 → 0 < piece.length ∧ ∃ lead, frame.payload = lead :: piece
  piece_prefix : piece <+: a.response.drop n

variable {a}

theorem length_response : a.response.length =
    (responseHeader entry.service entry.pid).length + a.body.length := List.length_append

theorem length_response_pos : 0 < a.response.length := by
  rw [length_response, length_responseHeader]
  omega

theorem bodyOf_le {n : Nat} (hn : n ≤ a.response.length) : entry.bodyOf n ≤ a.body.length := by
  rw [length_response] at hn
  unfold bodyOf
  omega

/-- Behind the header the response is the body. -/
theorem take_bodyOf {n : Nat} {payload : List UInt8}
    (hn : (responseHeader entry.service entry.pid).length ≤ n) (hp : payload <+: a.response.drop n) :
    a.body.take (entry.bodyOf n + payload.length) = a.body.take (entry.bodyOf n) ++ payload := by
  have hdrop : a.response.drop n = a.body.drop (entry.bodyOf n) := by
    rw [response, List.drop_append, List.drop_of_length_le hn, List.nil_append, bodyOf]
  rw [hdrop] at hp
  rw [List.take_add, ← List.prefix_iff_eq_take.1 hp]

namespace BringsData
variable {bus : BusId} {c : Channel} {k n : Nat} {frame : Frame} {piece : List UInt8}

theorem length_pos (h : a.BringsData bus c k n frame piece) : 0 < piece.length := by
  by_cases hk : k = 0
  · have := (h.first hk).1
    rw [length_responseHeader] at this
    omega
  · exact (h.further hk).1

theorem add_le (h : a.BringsData bus c k n frame piece) (hn : n ≤ a.response.length) :
    n + piece.length ≤ a.response.length := by
  have := h.piece_prefix.length_le
  rw [List.length_drop] at this
  omega

/-- What such a frame brings of the body. -/
theorem payload (h : a.BringsData bus c k n frame piece) (hn : n ≤ a.response.length)
    (hk : k = 0 → n = 0) (hk' : k ≠ 0 → (responseHeader entry.service entry.pid).length ≤ n) :
    ∃ payload, piece = (if k = 0 then responseHeader entry.service entry.pid else []) ++ payload ∧
      entry.bodyOf n + payload.length = entry.bodyOf (n + piece.length) ∧
      a.body.take (entry.bodyOf n + payload.length) = a.body.take (entry.bodyOf n) ++ payload := by
  have hprefix := h.piece_prefix
  by_cases h0 : k = 0
  · obtain rfl := hk h0
    have hlen := (h.first h0).1
    rw [List.drop_zero] at hprefix
    obtain ⟨payload, rfl⟩ := List.prefix_of_prefix_length_le (List.prefix_append _ _) hprefix hlen
    refine ⟨payload, by rw [if_pos h0], ?_, ?_⟩
    · rw [List.length_append]
      unfold bodyOf
      omega
    · have hbody : payload <+: a.body := (List.prefix_append_right_inj _).1 hprefix
      have hzero : entry.bodyOf 0 = 0 := Nat.zero_sub _
      rw [hzero, Nat.zero_add, List.take_zero, List.nil_append]
      exact (List.prefix_iff_eq_take.1 hbody).symm
  · have hle := hk' h0
    refine ⟨piece, by rw [if_neg h0, List.nil_append], ?_, take_bodyOf hle hprefix⟩
    unfold bodyOf
    omega

end BringsData

end PollEntry.Answer

namespace Engine
variable {entry : PollEntry} {a : entry.Answer} {k n : Nat} {e₀ e e' : Engine}
  {answers : List (FrameKind × Frame)} {frame : Frame} {piece : List UInt8}

/-- The frames written, with what each is written for. -/
def written (log : List Stamped) : List (FrameKind × Frame) :=
  (writes log).map fun w => (w.kind, w.frame)

theorem written_append (new log : List Stamped) : written (new ++ log) = written log ++ written new := by
  rw [written, writes_append, List.map_append, written, written]

theorem written_of_sent {new : List Stamped} (h : ∀ s ∈ new, s.event.IsSent) : written new = [] := by
  rw [written, writes_eq_nil fun s hs => (h s hs).not_isWrite, List.map_nil]

/-- A frame is written on a bus that takes it; nothing else changes. -/
theorem transmit_written (hl : e.line.TakesAll) (hs : e.AllSent) (kind : FrameKind) (frame : Frame) :
    ∃ line results, e.transmit kind frame =
        { e with line, results, log := ⟨e.now, .wrote kind frame true⟩ :: e.log } ∧
      line.TakesAll ∧ ∀ r ∈ results, r.2 = true := by
  have hsent := hs.transmit hl kind frame
  rw [transmit_good hl] at hsent ⊢
  exact ⟨_, _, rfl, hl.asOf _, hsent⟩

/-- A data frame is acknowledged if it asks for that. -/
theorem acknowledge_written (hl : e.line.TakesAll) (hs : e.AllSent) (frame : Frame) :
    ∃ line results new, e.acknowledge (Frame.leadByte frame.data) =
        { e with line, results, log := new ++ e.log } ∧
      line.TakesAll ∧ (∀ r ∈ results, r.2 = true) ∧ replies new = [] ∧
      written new = if frame.wantsAck then
        [(.ack, e.channelFrame [Opcode.numbered Opcode.ackReady e.channel.rxSeq])] else [] := by
  by_cases hw : Opcode.high (Frame.leadByte frame.data) ≤ DataKind.lastWantsAck.opcode
  · obtain ⟨line, results, heq, hline, hresults⟩ := transmit_written hl hs .ack
      (e.channelFrame [Opcode.numbered Opcode.ackReady e.channel.rxSeq])
    refine ⟨line, results, [⟨e.now, .wrote .ack (e.channelFrame
      [Opcode.numbered Opcode.ackReady e.channel.rxSeq]) true⟩], ?_, hline, hresults, rfl, ?_⟩
    · unfold acknowledge sendAck
      rw [if_pos hw]
      exact heq
    · simp [Frame.wantsAck, hw, written, writes, Stamped.write?]
  · refine ⟨e.line, e.results, [], ?_, hl, hs, rfl, ?_⟩
    · unfold acknowledge
      rw [if_neg hw]
      rfl
    · simp [Frame.wantsAck, hw, written, writes]

/-- An aborted response is refused, and leaves the channel idle. -/
theorem abortTransfer_written (hc : e.channel.state = .receive) (hl : e.line.TakesAll) (hs : e.AllSent) :
    ∃ line results job, e.abortTransfer = { e with
      line, results, job
      out := e.out.clear
      channel := { e.channel with state := .idle }.touch e.now
      wait := 0
      log := ⟨e.now, .wrote .abort
        (e.channelFrame [Opcode.numbered Opcode.ackNotReady e.channel.rxSeq]) true⟩ :: e.log } ∧
      job.asked = e.job.asked ∧ line.TakesAll ∧ ∀ r ∈ results, r.2 = true := by
  obtain ⟨job, hx, hasked⟩ : ∃ job, e.expectOnChannel = { e with job } ∧ job.asked = e.job.asked :=
    let ⟨_, _, _, _, heq⟩ := expectOnChannel_eq_update e
    ⟨_, heq, rfl⟩
  have heq : e.abortTransfer = { e with
      job := { job with mlRemain := 0 }
      out := e.out.clear
      channel := { e.channel with state := .idle }.touch e.now
      wait := 0 }.transmit .abort
        (e.channelFrame [Opcode.numbered Opcode.ackNotReady e.channel.rxSeq]) := by
    simp only [abortTransfer, if_pos hc, hx]
    rfl
  obtain ⟨line, results, ht, hline, hresults⟩ := transmit_written (e := { e with
      job := { job with mlRemain := 0 }
      out := e.out.clear
      channel := { e.channel with state := .idle }.touch e.now
      wait := 0 }) hl hs .abort (e.channelFrame [Opcode.numbered Opcode.ackNotReady e.channel.rxSeq])
  exact ⟨line, results, { job with mlRemain := 0 }, heq.trans ht, hasked, hline, hresults⟩

/-- The engine has taken the first `k` frames of the response since `e₀`, with `n` bytes in them, has
written the frames `answers`, and waits for more. -/
structure Receiving (a : entry.Answer) (e₀ : Engine) (k n : Nat) (answers : List (FrameKind × Frame))
    (e : Engine) : Prop where
  bus_eq : e.bus = e₀.bus
  asks : e.job.Asks entry
  state_eq : e.channel.state = .receive
  bound : e.channel.bound = true
  rxId_eq : e.channel.rxId = e₀.channel.rxId
  txId_eq : e.channel.txId = e₀.channel.txId
  rxSeq_eq : e.channel.rxSeq = e₀.channel.rxSeq + UInt8.ofNat k
  wait_pos : 0 < e.wait
  line : e.line.TakesAll
  allSent : e.AllSent
  queue : e.single.isSome = true ∨ e.queued = []
  frames_le : k ≤ n
  none_taken : k = 0 → n = 0
  header_taken : k ≠ 0 → (responseHeader entry.service entry.pid).length ≤ n
  length_lt : n < a.response.length
  frame_eq : e.job.mlFrame = UInt16.ofNat k
  offset_eq : e.job.mlOffset = UInt16.ofNat (entry.bodyOf n)
  remain_eq : k ≠ 0 → e.job.mlRemain = UInt16.ofNat (a.response.length - n)
  log : ∃ new, e.log = new ++ e₀.log ∧ Given a (entry.bodyOf n) e.single new e₀.single ∧ written new = answers

namespace Receiving

theorem waited (h : Receiving a e₀ k n answers e) (hw : Waited e e') : Receiving a e₀ k n answers e' := by
  obtain ⟨received, hj⟩ := hw.job
  obtain ⟨old, hold, hgiven, hwritten⟩ := h.log
  obtain ⟨new, hnew, hminor⟩ := hw.log
  have hquiet := replies_of_quiet fun s hs => (hminor s hs).isQuiet
  have hwrites := writes_eq_nil fun s hs => (hminor s hs).not_isWrite
  refine { h with
    bus_eq := hw.bus.trans h.bus_eq
    asks := by rw [hj]; exact h.asks
    state_eq := by rw [hw.channel]; exact h.state_eq
    bound := by rw [hw.channel]; exact h.bound
    rxId_eq := by rw [hw.channel]; exact h.rxId_eq
    txId_eq := by rw [hw.channel]; exact h.txId_eq
    rxSeq_eq := by rw [hw.channel]; exact h.rxSeq_eq
    wait_pos := hw.wait_pos
    line := by rw [hw.line]; exact h.line
    allSent := hw.allSent
    queue := hw.queue
    frame_eq := by rw [hj]; exact h.frame_eq
    offset_eq := by rw [hj]; exact h.offset_eq
    remain_eq := by rw [hj]; exact h.remain_eq
    log := ⟨new ++ old, by rw [hnew, hold, List.append_assoc], ?_, ?_⟩ }
  · rw [hw.single]
    exact hgiven.append hquiet
  · rw [written_append, written, written, hwrites]
    simpa [written] using hwritten

theorem isVwtp (h : Receiving a e₀ k n answers e) (hv : entry.protocol = .vwtp20) : e.job.isVwtp = true :=
  (isVwtp_iff h.asks.protocol).2 hv

theorem abides (h : Receiving a e₀ k n answers e) (hv : entry.protocol = .vwtp20) {op : Operation}
    (hop : e.Abides op) : Receiving a e₀ k n answers (e.step op) :=
  h.waited (hop.waited (h.isVwtp hv) (by rw [h.state_eq]; decide) h.wait_pos h.allSent h.queue)

theorem isChannelFrame (h : Receiving a e₀ k n answers e) (hs : frame.extended = false)
    (hi : frame.id = e₀.channel.rxId) : e.isChannelFrame frame = true := by
  simp [Engine.isChannelFrame, Channel.isOpen, h.state_eq, hs, hi, h.rxId_eq]

theorem channelFrame (h : Receiving a e₀ k n answers e) (bytes : List UInt8) :
    e.channelFrame bytes = e₀.channelFrame bytes := by
  rw [Engine.channelFrame, h.bus_eq, h.txId_eq, Engine.channelFrame]

/-- A data frame goes to `receiveData`. -/
theorem channelStep_isData (h : Receiving a e₀ k n answers e) (hf : e₀.channel.IsData e₀.bus frame) :
    e.channelStep frame = e.receiveData (Frame.leadByte frame.data) frame.payload := by
  have hping : Frame.leadByte frame.data ≠ Opcode.ping := fun heq => by
    have := hf.data
    rw [heq] at this
    exact absurd this (by decide)
  have hclose : Frame.leadByte frame.data ≠ Opcode.disconnect := fun heq => by
    have := hf.data
    rw [heq] at this
    exact absurd this (by decide)
  unfold Engine.channelStep
  dsimp only
  rw [h.state_eq]
  dsimp only
  unfold receiveResponse
  rw [if_neg hping, if_neg hclose, if_pos hf.data]

/-- What a data frame of the response does on the channel, up to its acknowledgement. -/
theorem channelStep (h : Receiving a e₀ k n answers e) (hx : entry.service ≠ 0x3f)
    (hp : PidFits entry.service entry.pid) (hf : a.BringsData e₀.bus e₀.channel k n frame piece)
    {payload : List UInt8}
    (hpiece : piece = (if k = 0 then responseHeader entry.service entry.pid else []) ++ payload) :
    e.channelStep frame = (.chain, { e.countData with
        job := { e.job with mlRemain := UInt16.ofNat (a.response.length - n) } }.deliverData
      (Frame.leadByte frame.data) piece payload) := by
  have hnumber : ¬ Frame.leadByte frame.data &&& 0x0f ≠ e.channel.rxSeq &&& 0x0f := by
    rw [h.rxSeq_eq]
    exact not_not_intro hf.number
  have hframe : e.job.mlFrame = 0 ↔ k = 0 := by
    have := h.frames_le
    have := h.length_lt
    have hmax : a.response.length ≤ isoTpMax := a.length_le
    rw [h.frame_eq, ← UInt16.toNat_inj, toNat_ofNat_of_le (by omega)]
    exact Iff.rfl
  rw [h.channelStep_isData hf.toIsData]
  unfold receiveData
  rw [if_neg hnumber]
  by_cases hk : k = 0
  · obtain ⟨-, lead, hi, lo, hpayload, htotal⟩ := hf.first hk
    obtain rfl := h.none_taken hk
    rw [if_neg (not_not_intro (hframe.2 hk)), hpayload]
    simp only [List.getD_cons_succ, List.getD_cons_zero, List.drop_succ_cons, List.drop_zero, htotal]
    have hjudge : Engine.judge { e.countData with
        job := { e.job with mlRemain := UInt16.ofNat a.response.length } } piece = .answer payload := by
      rw [hpiece, if_pos hk, ← h.asks.service, ← h.asks.pid]
      refine judge_answer (e := { e.countData with
        job := { e.job with mlRemain := UInt16.ofNat a.response.length } }) ?_ ?_ payload
      · show e.job.service ≠ _
        rw [h.asks.service]
        exact hx
      · show PidFits e.job.service e.job.pid
        rw [h.asks.service, h.asks.pid]
        exact hp
    unfold receiveFirstData
    dsimp only
    rw [show e.countData.job = e.job from rfl, hjudge]
    rfl
  · obtain ⟨-, lead, hpayload⟩ := hf.further hk
    rw [if_pos (mt hframe.1 hk), hpayload, List.drop_succ_cons, List.drop_zero, ← h.remain_eq hk]
    rw [if_neg hk, List.nil_append] at hpiece
    rw [← hpiece]
    rfl

theorem entry_eq (h : Receiving a e₀ k n answers e) : e.job.entry = some entry := congrArg (·.1) h.asks

theorem still (h : Receiving a e₀ k n answers e) : Waited e e :=
  ⟨rfl, rfl, ⟨e.job.received, rfl⟩, rfl, rfl, rfl, rfl, h.wait_pos, h.allSent, h.queue, .refl e⟩

/-- The engine with the frame acknowledged, about to hand on its payload. -/
def taking (e : Engine) (remain : UInt16) (line : Line) (results : List (Frame × Bool))
    (new : List Stamped) : Engine :=
  { e with
    line, results
    channel := e.countData.channel
    job := { e.job with received := e.channel.rxId, mlRemain := remain }
    log := new ++ e.log }

theorem step_frame (h : Receiving a e₀ k n answers e) (hb : frame.bus = e₀.bus)
    (hs : frame.extended = false) (hi : frame.id = e₀.channel.rxId) :
    e.step (.frame frame) = ((e.channelStep frame).2.chained (e.channelStep frame).1).settle :=
  step_frame_channel (hb.trans h.bus_eq.symm) (h.isChannelFrame hs hi) h.bound

/-- What a data frame of the response does on the channel. -/
theorem channelStep_data (h : Receiving a e₀ k n answers e) (hx : entry.service ≠ 0x3f)
    (hp : PidFits entry.service entry.pid) (hf : a.BringsData e₀.bus e₀.channel k n frame piece)
    {payload : List UInt8}
    (hpiece : piece = (if k = 0 then responseHeader entry.service entry.pid else []) ++ payload) :
    ∃ line results new, e.channelStep frame = (.chain, ((taking e
        (UInt16.ofNat (a.response.length - (n + piece.length))) line results new).deliverReply
          payload).afterData payload.length) ∧
      line.TakesAll ∧ (∀ r ∈ results, r.2 = true) ∧ replies new = [] ∧
      written new = e₀.channel.acks e₀.bus k frame := by
  have hmax : a.response.length ≤ isoTpMax := a.length_le
  have hle := hf.add_le (Nat.le_of_lt h.length_lt)
  have hless : lessLength (UInt16.ofNat (a.response.length - n)) piece =
      UInt16.ofNat (a.response.length - (n + piece.length)) := by
    rw [lessLength_ofNat (by omega) (by omega), Nat.sub_sub]
  obtain ⟨line, results, new, heq, hline, hresults, hreplies, hwritten⟩ :=
    acknowledge_written (e := { e.countData with
      job := { e.job with mlRemain := UInt16.ofNat (a.response.length - n) } }) h.line h.allSent frame
  refine ⟨line, results, new, ?_, hline, hresults, hreplies, ?_⟩
  · rw [h.channelStep hx hp hf hpiece]
    unfold Engine.deliverData deliverSegment
    rw [heq]
    dsimp only
    rw [hless]
    rfl
  · rw [hwritten]
    have hseq : e.channel.rxSeq + 1 = e₀.channel.rxSeq + UInt8.ofNat (k + 1) := by
      rw [h.rxSeq_eq, UInt8.ofNat_add, UInt8.add_assoc]
      rfl
    unfold Channel.acks
    rw [← hseq, ← h.bus_eq, ← h.txId_eq]
    rfl

theorem header_le (h : Receiving a e₀ k n answers e)
    (hf : a.BringsData e₀.bus e₀.channel k n frame piece) :
    (responseHeader entry.service entry.pid).length ≤ n + piece.length := by
  by_cases hk : k = 0
  · exact Nat.le_trans (hf.first hk).1 (Nat.le_add_left ..)
  · exact Nat.le_trans (h.header_taken hk) (Nat.le_add_right ..)

/-- Before its payload is handed on, the poll has its place in the body. -/
theorem handsPiece (h : Receiving a e₀ k n answers e)
    (hf : a.BringsData e₀.bus e₀.channel k n frame piece) {payload : List UInt8}
    (hcount : entry.bodyOf n + payload.length = entry.bodyOf (n + piece.length))
    (htake : a.body.take (entry.bodyOf n + payload.length) = a.body.take (entry.bodyOf n) ++ payload)
    (line : Line) (results : List (Frame × Bool)) (new : List Stamped) :
    HandsPiece a (entry.bodyOf n) payload
      (taking e (UInt16.ofNat (a.response.length - (n + piece.length))) line results new).job := by
  have hle := hf.add_le (Nat.le_of_lt h.length_lt)
  have hheader := h.header_le hf
  have hlen := a.length_response
  refine ⟨h.entry_eq, h.offset_eq, ?_, ?_, htake⟩
  · rw [hcount]
    show UInt16.ofNat _ = _
    congr 1
    unfold PollEntry.bodyOf
    omega
  · rw [hcount]
    exact PollEntry.Answer.bodyOf_le hle

/-- The engine has taken one more frame. -/
theorem taken (h : Receiving a e₀ k n answers e) (hf : a.BringsData e₀.bus e₀.channel k n frame piece)
    (hmore : n + piece.length < a.response.length) {line : Line} {results : List (Frame × Bool)}
    {new : List Stamped} {single : Option Capture} {count : Nat} (hline : line.TakesAll)
    (hresults : ∀ r ∈ results, r.2 = true)
    (hcount : entry.bodyOf n + count = entry.bodyOf (n + piece.length))
    (hg : Given a (entry.bodyOf n + count) single new e₀.single)
    (hw : written new = answers ++ e₀.channel.acks e₀.bus k frame) :
    Receiving a e₀ (k + 1) (n + piece.length) (answers ++ e₀.channel.acks e₀.bus k frame) { e with
      line, results, single
      channel := e.countData.channel
      wait := 2
      log := new ++ e₀.log
      job := { e.job with
        received := e.channel.rxId
        mlRemain := UInt16.ofNat (a.response.length - (n + piece.length))
        mlFrame := e.job.mlFrame + 1
        mlOffset := e.job.mlOffset + UInt16.ofNat count } } := by
  have hpos := hf.length_pos
  have hframes := h.frames_le
  obtain ⟨_, -, hgiven, -⟩ := h.log
  exact { h with
    asks := h.asks
    rxSeq_eq := by
      show e.channel.rxSeq + 1 = _
      rw [h.rxSeq_eq, UInt8.ofNat_add, UInt8.add_assoc]
      rfl
    wait_pos := Nat.zero_lt_two
    line := hline
    allSent := hresults
    queue := by
      show single.isSome = true ∨ _
      rw [hg.isSome, ← hgiven.isSome]
      exact h.queue
    frames_le := by omega
    none_taken := nofun
    header_taken := fun _ => h.header_le hf
    length_lt := hmore
    frame_eq := by
      show e.job.mlFrame + 1 = _
      rw [h.frame_eq, UInt16.ofNat_add k]
      rfl
    offset_eq := by
      show e.job.mlOffset + _ = _
      rw [h.offset_eq, ← UInt16.ofNat_add, hcount]
    remain_eq := fun _ => rfl
    log := ⟨new, rfl, hcount ▸ hg, hw⟩ }

/-- A frame of the response that leaves more to come. -/
theorem next (h : Receiving a e₀ k n answers e) (hx : entry.service ≠ 0x3f)
    (hp : PidFits entry.service entry.pid) (hf : a.BringsData e₀.bus e₀.channel k n frame piece)
    (hmore : n + piece.length < a.response.length) :
    Receiving a e₀ (k + 1) (n + piece.length) (answers ++ e₀.channel.acks e₀.bus k frame)
      (e.step (.frame frame)) := by
  obtain ⟨payload, hpiece, hcount, htake⟩ :=
    hf.payload (Nat.le_of_lt h.length_lt) h.none_taken h.header_taken
  obtain ⟨line, results, ack, hstep, hline, hresults, hquiet, hack⟩ := h.channelStep_data hx hp hf hpiece
  obtain ⟨old, hold, hgiven, hwritten⟩ := h.log
  have hhands := h.handsPiece hf hcount htake line results ack
  have hne : entry.bodyOf n + payload.length ≠ a.body.length := by
    have := h.header_le hf
    have := a.length_response
    rw [hcount]
    unfold PollEntry.bodyOf
    omega
  obtain ⟨single, reply, hreply, hgiven', hnone⟩ := Given.deliverPiece
    (e := taking e (UInt16.ofNat (a.response.length - (n + piece.length))) line results ack)
    (hgiven.append hquiet) hhands hne
  have hremain : UInt16.ofNat (a.response.length - (n + piece.length)) ≠ 0 :=
    mt hhands.remain_eq_zero_iff.1 hne
  have hchain : ∀ e : Engine, e.wait = 2 → e.chained .chain = e :=
    fun e hw => chained_of_waits (by omega) _
  have hwrote : written (reply ++ (ack ++ old)) = answers ++ e₀.channel.acks e₀.bus k frame := by
    rw [written_append, written_append, hack, hwritten]
    simp [written, hnone]
  have htaken := h.taken hf hmore hline hresults hcount hgiven' hwrote
  rw [h.step_frame hf.bus_eq hf.standard hf.id_eq, hstep, hreply]
  unfold afterData
  rw [if_neg (by exact hremain), hchain _ rfl]
  have hlog : reply ++ (ack ++ old) ++ e₀.log = reply ++ (ack ++ e.log) := by
    rw [hold, List.append_assoc, List.append_assoc]
  rw [hlog] at htaken
  exact htaken.waited htaken.still.settle

/-- The last frame of the response. It leaves the channel idle, and the poll that follows is chained to it. -/
theorem last (h : Receiving a e₀ k n answers e) (hx : entry.service ≠ 0x3f)
    (hp : PidFits entry.service entry.pid) (hf : a.BringsData e₀.bus e₀.channel k n frame piece)
    (hlast : n + piece.length = a.response.length) :
    let done := (e.channelStep frame).2
    e.step (.frame frame) = done.pollNext.settle ∧ done.channel.state = .idle ∧
      ∃ new, done.log = new ++ e₀.log ∧ GivenAll a new e₀.single ∧
        written new = answers ++ e₀.channel.acks e₀.bus k frame := by
  obtain ⟨payload, hpiece, hcount, htake⟩ :=
    hf.payload (Nat.le_of_lt h.length_lt) h.none_taken h.header_taken
  obtain ⟨line, results, ack, hstep, hline, hresults, hquiet, hack⟩ := h.channelStep_data hx hp hf hpiece
  obtain ⟨old, hold, hgiven, hwritten⟩ := h.log
  have hhands := h.handsPiece hf hcount htake line results ack
  have hall : entry.bodyOf n + payload.length = a.body.length := by
    have := a.length_response
    rw [hcount, hlast]
    unfold PollEntry.bodyOf
    omega
  have hremain := hhands.remain_eq_zero_iff.2 hall
  have hd := Delivers.deliverReply
    (taking e (UInt16.ofNat (a.response.length - (n + piece.length))) line results ack) payload
  obtain ⟨reply, hreply, hgiven', hnone⟩ := Given.deliverRest
    (e := taking e (UInt16.ofNat (a.response.length - (n + piece.length))) line results ack)
    (hgiven.append hquiet) hhands hall
  rw [h.step_frame hf.bus_eq hf.standard hf.id_eq, hstep]
  dsimp only
  generalize Engine.deliverReply _ payload = e₁ at hd hreply ⊢
  have hstate : e₁.channel.state = .receive := by
    rw [hd.channel]
    exact h.state_eq
  have hafter : e₁.afterData payload.length =
      { e₁ with channel := { e₁.channel with state := .idle }.touch e₁.now, wait := 0 } := by
    unfold afterData goIdle
    rw [if_pos (by rw [hd.job]; exact hremain), if_neg (by rw [hstate]; decide)]
  rw [hafter]
  refine ⟨rfl, rfl, reply ++ (ack ++ old), ?_, hgiven', ?_⟩
  · rw [List.append_assoc, List.append_assoc, ← hold]
    exact hreply
  · rw [written_append, written_append, hack, hwritten]
    simp [written, hnone]

/-- A frame with another number ends the response: it is refused, and nothing of it is taken. -/
theorem refuse (h : Receiving a e₀ k n answers e) (hv : entry.protocol = .vwtp20)
    (hf : e₀.channel.IsMisnumbered e₀.bus k frame) :
    let e' := e.step (.frame frame)
    Dormant e.single e' ∧ e'.channel.state = .idle ∧ e'.single = e.single ∧
      ∃ new, e'.log = new ++ e.log ∧ replies new = [] ∧ written new = [(.abort, e₀.channelFrame
        [Opcode.numbered Opcode.ackNotReady (e₀.channel.rxSeq + UInt8.ofNat (k + 1))])] := by
  have hnumber : Frame.leadByte frame.data &&& 0x0f ≠ e.channel.rxSeq &&& 0x0f := by
    rw [h.rxSeq_eq]
    exact hf.number
  have hstep : e.channelStep frame = (.stay, e.countData.abortTransfer) := by
    rw [h.channelStep_isData hf.toIsData]
    unfold receiveData
    rw [if_pos hnumber]
  obtain ⟨line, results, job, habort, hasked, -, hresults⟩ :=
    abortTransfer_written (e := e.countData) h.state_eq h.line h.allSent
  obtain ⟨received, sent, hsettle, hsent⟩ := settle_good (e := e.countData.abortTransfer)
    (by rw [habort]; exact hresults) (by rw [habort]; exact h.queue)
  have hframe : e.countData.channelFrame [Opcode.numbered Opcode.ackNotReady e.countData.channel.rxSeq] =
      e₀.channelFrame [Opcode.numbered Opcode.ackNotReady (e₀.channel.rxSeq + UInt8.ofNat (k + 1))] := by
    have hseq : e.countData.channel.rxSeq = e₀.channel.rxSeq + UInt8.ofNat (k + 1) := by
      show e.channel.rxSeq + 1 = _
      rw [h.rxSeq_eq, UInt8.ofNat_add, UInt8.add_assoc]
      rfl
    rw [hseq]
    exact h.channelFrame _
  have hrun : e.step (.frame frame) = e.countData.abortTransfer.settle := by
    rw [h.step_frame hf.bus_eq hf.standard hf.id_eq, hstep]
    rfl
  rw [hframe] at habort
  rw [habort] at hsettle hrun
  rw [hrun, hsettle]
  refine ⟨⟨?_, rfl, fun capture hc => .inr ⟨capture, hc, rfl, rfl⟩⟩, rfl, rfl, ?_⟩
  · exact (isVwtp_of_asked hasked).trans (h.isVwtp hv)
  · refine ⟨sent ++ [_], List.append_cons .., ?_, ?_⟩
    · rw [replies_append, replies_of_quiet fun s hs => (hsent s hs).isQuiet]
      rfl
    · rw [written_append, written_of_sent hsent]
      rfl

/-- A channel test is answered, which changes nothing else. -/
theorem ping (h : Receiving a e₀ k n answers e) (hb : frame.bus = e₀.bus) (hs : frame.extended = false)
    (hi : frame.id = e₀.channel.rxId) (hd : Frame.leadByte frame.data = Opcode.ping) :
    Receiving a e₀ k n
      (answers ++ [(.pong, e₀.channelFrame (Opcode.paramsResponse :: channelParams))])
      (e.step (.frame frame)) := by
  obtain ⟨line, results, heq, hline, hresults⟩ := transmit_written h.line h.allSent .pong
    (e.channelFrame (Opcode.paramsResponse :: channelParams))
  obtain ⟨old, hold, hgiven, hwritten⟩ := h.log
  have hstep : e.channelStep frame = (.chain, e.sendPong) := by
    unfold Engine.channelStep
    dsimp only
    rw [h.state_eq]
    dsimp only
    unfold receiveResponse
    rw [if_pos hd]
  have hwait := h.wait_pos
  rw [h.step_frame hb hs hi, hstep]
  dsimp only
  rw [sendPong, heq, chained_of_waits (by dsimp only; omega)]
  have hanswered : Receiving a e₀ k n
      (answers ++ [(.pong, e₀.channelFrame (Opcode.paramsResponse :: channelParams))]) { e with
        line, results, log := ⟨e.now, .wrote .pong (e.channelFrame (Opcode.paramsResponse :: channelParams))
          true⟩ :: e.log } :=
    { h with
      asks := h.asks
      line := hline
      allSent := hresults
      log := ⟨⟨e.now, .wrote .pong (e.channelFrame (Opcode.paramsResponse :: channelParams)) true⟩ :: old,
        by rw [hold, List.cons_append], @Given.append _ _ _ _ _ _ hgiven [_] rfl, by
          rw [← List.singleton_append, written_append, hwritten, h.channelFrame]
          rfl⟩ }
  exact hanswered.waited hanswered.still.settle

end Receiving

/-! ### Every response -/

/-- Since `e₀` the first `k` data frames of the response have come in, with `n` bytes in them, and the frames
`answers` are due for them. Channel tests, and operations that do not end the wait, may come in between. -/
inductive Comes (a : entry.Answer) (e₀ : Engine) :
    Nat → Nat → List Operation → List (FrameKind × Frame) → Prop
  | nil : Comes a e₀ 0 0 [] []
  | data {k n : Nat} {ops : List Operation} {answers : List (FrameKind × Frame)} {frame : Frame}
    {piece : List UInt8} (h : Comes a e₀ k n ops answers)
    (hf : a.BringsData e₀.bus e₀.channel k n frame piece) (hmore : n + piece.length < a.response.length) :
    Comes a e₀ (k + 1) (n + piece.length) (ops ++ [.frame frame])
      (answers ++ e₀.channel.acks e₀.bus k frame)
  | ping {k n : Nat} {ops : List Operation} {answers : List (FrameKind × Frame)} {frame : Frame}
    (h : Comes a e₀ k n ops answers) (hb : frame.bus = e₀.bus) (hs : frame.extended = false)
    (hi : frame.id = e₀.channel.rxId) (hd : Frame.leadByte frame.data = Opcode.ping) :
    Comes a e₀ k n (ops ++ [.frame frame])
      (answers ++ [(.pong, e₀.channelFrame (Opcode.paramsResponse :: channelParams))])
  | other {k n : Nat} {ops : List Operation} {answers : List (FrameKind × Frame)} {op : Operation}
    (h : Comes a e₀ k n ops answers) (hop : (e₀.run ops).Abides op) : Comes a e₀ k n (ops ++ [op]) answers

/-- The module of the channel owes the response to the poll in flight, of which nothing has been taken. -/
structure AwaitsData (entry : PollEntry) (e : Engine) : Prop where
  entry_eq : e.job.entry = some entry
  protocol : entry.protocol = .vwtp20
  state_eq : e.channel.state = .receive
  wait_pos : 0 < e.wait
  frame_eq : e.job.mlFrame = 0
  offset_eq : e.job.mlOffset = 0

theorem AwaitsData.receiving (h : AwaitsData entry e) (a : entry.Answer) (hr : e.Reached)
    (hl : e.line.TakesAll) : Receiving a e 0 0 [] e := by
  obtain ⟨bus, name, reports, settings, ops, hrun⟩ := hr
  have hrest : e.AtRest := hrun ▸ AtRest.run ⟨rfl, .inr rfl⟩ ops
  have howned : e.channel.Owned := hrun ▸ owned_run Channel.owned_shut ops
  have hroutes := (routes_new bus name reports settings).run ops
  rw [← hrun] at hroutes
  exact {
    bus_eq := rfl
    asks := hroutes.asks entry h.entry_eq
    state_eq := h.state_eq
    bound := howned.bound (by rw [h.state_eq]; decide)
    rxId_eq := rfl
    txId_eq := rfl
    rxSeq_eq := (UInt8.add_zero _).symm
    wait_pos := h.wait_pos
    line := hl
    allSent := hrest.allSent
    queue := hrest.queue
    frames_le := Nat.le_refl 0
    none_taken := fun _ => rfl
    header_taken := fun h0 => absurd rfl h0
    length_lt := PollEntry.Answer.length_response_pos
    frame_eq := h.frame_eq
    offset_eq := h.offset_eq.trans (by rw [PollEntry.bodyOf, Nat.zero_sub]; rfl)
    remain_eq := fun h0 => absurd rfl h0
    log := ⟨[], rfl, by rw [PollEntry.bodyOf, Nat.zero_sub]; exact .start a e.single, rfl⟩ }

theorem Receiving.comes (h : Receiving a e₀ 0 0 [] e₀) (hv : entry.protocol = .vwtp20)
    (hx : entry.service ≠ 0x3f) (hp : PidFits entry.service entry.pid) {ops : List Operation}
    (hc : Comes a e₀ k n ops answers) : Receiving a e₀ k n answers (e₀.run ops) := by
  induction hc with
  | nil => exact h
  | data _ hf hmore ih =>
    rw [run_append]
    exact ih.next hx hp hf hmore
  | ping _ hb hs hi hd ih =>
    rw [run_append]
    exact ih.ping hb hs hi hd
  | other _ hop ih =>
    rw [run_append]
    exact ih.abides hv hop

/-- A response comes in over the channel. However it is cut into data frames, its replies are the body, each
in its place and only the last with nothing to come, or the single request ends with the body. What is written
meanwhile is one acknowledgement for each data frame that asks for it, with the next number, and the answers to
channel tests; the last frame leaves the channel idle. A frame with another number is refused with one frame,
nothing of it is taken, and the channel is idle; until a new request begins no more of the response is handed
on, but that a single request that loses its channel ends with what it holds. -/
theorem response_received {entry : PollEntry} (a : entry.Answer) {e : Engine} (hr : e.Reached)
    (ha : e.AwaitsData entry) (hl : e.line.TakesAll) (hx : entry.service ≠ 0x3f)
    (hp : PidFits entry.service entry.pid) {k n : Nat} {ops : List Operation}
    {answers : List (FrameKind × Frame)} (hc : Comes a e k n ops answers) :
    (∀ frame piece, a.BringsData e.bus e.channel k n frame piece → n + piece.length = a.response.length →
      let done := ((e.run ops).channelStep frame).2
      (e.run ops).step (.frame frame) = done.pollNext.settle ∧ done.channel.state = .idle ∧
        ∃ new, done.log = new ++ e.log ∧ GivenAll a new e.single ∧
          written new = answers ++ e.channel.acks e.bus k frame) ∧
    ∀ frame, e.channel.IsMisnumbered e.bus k frame →
      let e' := (e.run ops).step (.frame frame)
      e'.channel.state = .idle ∧ e'.single = (e.run ops).single ∧
        (∃ new, e'.log = new ++ (e.run ops).log ∧ replies new = [] ∧ written new = [(.abort, e.channelFrame
          [Opcode.numbered Opcode.ackNotReady (e.channel.rxSeq + UInt8.ofNat (k + 1))])]) ∧
        ∀ later, ∃ new, (e'.run later).log = new ++ e'.log ∧
          ∀ s ∈ untilRequest new, s.event.Withholds e'.single := by
  have h := (ha.receiving a hr hl).comes ha.protocol hx hp hc
  refine ⟨fun frame piece hf hlast => h.last hx hp hf hlast, fun frame hf => ?_⟩
  obtain ⟨hdormant, hidle, hsingle, hnew⟩ := h.refuse ha.protocol hf
  rw [← hsingle] at hdormant
  exact ⟨hidle, hsingle, hnew, fun later => ((Dozes.sleeps (.refl hdormant)).run later).withholds⟩

/-- A response of ten bytes in two data frames. Between them the module tests the channel; only the second asks
for an acknowledgement. In its place a frame with number 5 is refused. -/
theorem response_received_example :
    let bus : BusId := ⟨1, by decide⟩
    let read : PollEntry := ⟨0x200, 1, 0x22, 0xf190, [], #v[1, 1, 1, 1], 1, .vwtp20⟩
    let frame := fun bytes => EcuFrame.channel bus 0x300 bytes
    let e := (Engine.new bus "ecu" false ⟨0, 25, .strict, 0, 0⟩).run [.setList (some [read]) none, .tick true,
      .frame (EcuFrame.channel bus 0x201 [0x00, 0xd0, 0x00, 0x03, 0x40, 0x07, 0x01]),
      .frame (frame [0xa1, 0x0f, 0x8a, 0xff, 0x00, 0xff]), .frame (frame [0xb1])]
    let ops : List Operation := [.frame (frame [0x20, 0x00, 0x0a, 0x62, 0xf1, 0x90, 1, 2]), .tick false,
      .frame (frame [0xa3])]
    let done := ((e.run ops).channelStep (frame [0x11, 3, 4, 5, 6, 7])).2
    let refused := (e.run ops).step (.frame (frame [0x25, 3, 4, 5, 6, 7]))
    (∃ new, done.log = new ++ e.log ∧ HandOut read [1, 2, 3, 4, 5, 6, 7] (replies new) ∧
      (written new).map (·.2.payload) = [[0xa1, 0x0f, 0x8a, 0xff, 0x0a, 0xff], [0xb2]]) ∧
    ∃ new, refused.log = new ++ (e.run ops).log ∧ replies new = [] ∧
      (written new).map (·.2.payload) = [[0x92]] := by
  intro bus read frame e ops done refused
  let a : read.Answer := ⟨[1, 2, 3, 4, 5, 6, 7], by decide⟩
  have hline : e.line = .free := by decide
  have hsingle : e.single = none := by decide
  have hbus : e.bus = bus := by decide
  have hchannel : e.channel = { Channel.shut with
      state := .receive, bound := true, baseId := 0x200, moduleId := 1, txId := 0x740, rxId := 0x300
      blockSize := 15, ackTime := 100000, txSeq := 1, lastUsed := some 0 } := by decide
  have ha : e.AwaitsData read := ⟨by decide, rfl, by rw [hchannel], by decide, by decide, by decide⟩
  have hfirst : a.BringsData e.bus e.channel 0 0 (frame [0x20, 0x00, 0x0a, 0x62, 0xf1, 0x90, 1, 2])
      [0x62, 0xf1, 0x90, 1, 2] := by
    rw [hbus, hchannel]
    exact ⟨⟨rfl, rfl, rfl, by decide⟩, by decide,
      fun _ => ⟨by decide, 0x20, 0x00, 0x0a, by decide, by decide⟩, fun h0 => absurd rfl h0, by decide⟩
  have hlast : a.BringsData e.bus e.channel 1 5 (frame [0x11, 3, 4, 5, 6, 7]) [3, 4, 5, 6, 7] := by
    rw [hbus, hchannel]
    exact ⟨⟨rfl, rfl, rfl, by decide⟩, by decide, fun h0 => absurd h0 (by decide),
      fun _ => ⟨by decide, 0x11, by decide⟩, by decide⟩
  have htick : (e.run [.frame (frame [0x20, 0x00, 0x0a, 0x62, 0xf1, 0x90, 1, 2])]).Abides (.tick false) :=
    fun hp => by cases hp
  have hping : (frame [0xa3]).id = e.channel.rxId := by rw [hchannel]; rfl
  have hc : Comes a e 1 5 ops _ :=
    .ping (.other (.data .nil hfirst (by decide)) htick) hbus.symm rfl hping (by decide)
  have hreached : e.Reached := ⟨bus, "ecu", false, _, _, rfl⟩
  obtain ⟨hall, hrefuse⟩ := response_received a hreached ha
    (hline ▸ Line.takesAll_free) (by decide) nofun hc
  obtain ⟨-, -, hreceived⟩ := hall _ _ hlast rfl
  rw [hsingle] at hreceived
  obtain ⟨new, hnew, hgiven, hwritten⟩ := hreceived
  obtain ⟨-, -, ⟨new', hnew', hnone, hwritten'⟩, -⟩ := hrefuse (frame [0x25, 3, 4, 5, 6, 7])
    (by rw [hbus, hchannel]; exact ⟨⟨rfl, rfl, rfl, by decide⟩, by decide⟩)
  refine ⟨⟨new, hnew, hgiven, ?_⟩, new', hnew', hnone, ?_⟩
  · rw [hwritten, channelFrame, hbus, hchannel]
    decide
  · rw [hwritten', channelFrame, hbus, hchannel]
    decide

/-- A response to a single request is refused after its first frame; then the module closes the channel. The
request is answered with the two bytes of that frame, though no new request was sent. -/
theorem not_withheld_example :
    let bus : BusId := ⟨1, by decide⟩
    let read : PollEntry := ⟨0x200, 1, 0x22, 0xf190, [], #v[1, 1, 1, 1], 1, .vwtp20⟩
    let frame := fun bytes => Operation.frame (EcuFrame.channel bus 0x300 bytes)
    let e := (Engine.new bus "ecu" false ⟨0, 25, .strict, 0, 0⟩).run [.submit ⟨1, read, 9000, none⟩,
      .frame (EcuFrame.channel bus 0x201 [0x00, 0xd0, 0x00, 0x03, 0x40, 0x07, 0x01]),
      frame [0xa1, 0x0f, 0x8a, 0xff, 0x00, 0xff], frame [0xb1],
      frame [0x20, 0x00, 0x0a, 0x62, 0xf1, 0x90, 0xaa, 0xbb]]
    let refused := e.step (frame [0x25, 0xcc, 0xcc, 0xcc, 0xcc, 0xcc, 0xcc, 0xcc])
    let closed := refused.step (frame [0xa8])
    e.channel.state = .receive ∧ refused.channel.state = .idle ∧ Answers 1 [0xaa, 0xbb] refused closed ∧
      ¬ Shows (·.isRequest = true) refused closed := by
  intro bus read frame e refused closed
  have hgrows : refused.log <:+ closed.log := (Grows.step refused _).log
  refine ⟨by decide, by decide, answers_of_findSome? hgrows (by decide) (by decide), ?_⟩
  rintro ⟨new, hnew, s, hs, hev⟩
  have hcount : closed.log.countP (·.event.isRequest) = refused.log.countP (·.event.isRequest) := by decide
  rw [hnew, List.countP_append] at hcount
  have hpos : 0 < new.countP (·.event.isRequest) := List.countP_pos_iff.2 ⟨s, hs, hev⟩
  omega

end Engine

end EcuPoll
