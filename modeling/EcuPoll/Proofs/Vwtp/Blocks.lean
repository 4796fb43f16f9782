import EcuPoll.Engine.Operation
import EcuPoll.Proofs.Vwtp.Waiting

/-!
# Requests in blocks

A request over a channel goes out in data frames, a block at a time, and the module acknowledges each
block. `Underway sent e` says that the first `sent` data frames of a request are on the bus and nothing
else of it. A data frame moves `sent` on by one (`Underway.sendFrame`), an acknowledgement by a block
(`Underway.ack`), and whatever else may happen in between leaves it alone (`Underway.calm`).
-/

namespace EcuPoll

/-- The data frames of a block: a block size of zero stands for one. -/
def Channel.block (c : Channel) : Nat := max 1 c.blockSize.toNat

namespace PollEntry
variable (entry : PollEntry)

/-- The data frames that a request needs. -/
def dataFrames : Nat := (entry.channelMessage.length + 6) / 7

/-- Only the last frame of the request has the kind of a last one; the other frames that end a block want
an acknowledgement. -/
def dataKind (block k : Nat) : DataKind :=
  if k + 1 = entry.dataFrames then .lastWantsAck
  else if (k + 1) % block = 0 then .moreWantsAck
  else .more

/-- The data frame that follows `k` others, on a channel as it was before the first. -/
def dataFrame (bus : BusId) (c : Channel) (k : Nat) : Frame :=
  Frame.cut bus c.txId false
    (Opcode.numbered (entry.dataKind c.block k).opcode (c.txSeq + UInt8.ofNat k) ::
      (entry.channelMessage.drop (7 * k)).take 7)

theorem length_channelMessage : entry.channelMessage.length = 2 + entry.message.length := by
  rw [channelMessage, List.length_append]
  rfl

theorem lt_dataFrames_iff (k : Nat) : k < entry.dataFrames ↔ 7 * k < entry.channelMessage.length := by
  unfold dataFrames
  omega

theorem dataFrames_pos : 0 < entry.dataFrames := by
  rw [lt_dataFrames_iff, length_channelMessage]
  omega

theorem dataFrames_le : entry.dataFrames ≤ 586 := by
  have := entry.length_message_le
  rw [dataFrames, length_channelMessage]
  rw [isoTpMax] at this
  omega

theorem payload_dataFrame (bus : BusId) (c : Channel) (k : Nat) :
    (entry.dataFrame bus c k).payload.drop 1 = (entry.channelMessage.drop (7 * k)).take 7 := by
  rw [dataFrame, Frame.payload_cut, List.drop_succ_cons, List.drop_zero]
  rw [List.length_cons, List.length_take]
  omega

/-- The frames carry the message in order. -/
theorem carried_dataFrames (bus : BusId) (c : Channel) (sent : Nat) :
    (List.range sent).flatMap (fun k => (entry.dataFrame bus c k).payload.drop 1) =
      entry.channelMessage.take (7 * sent) := by
  induction sent with
  | zero => rfl
  | succ sent ih =>
    rw [List.range_succ, List.flatMap_append, ih, List.flatMap_singleton, payload_dataFrame,
      Nat.mul_succ, List.take_add]

end PollEntry

namespace Engine
variable {entry : PollEntry} {bus : BusId} {c : Channel} {base : List Stamped} {sent : Nat} {e : Engine}

/-- The first `sent` data frames of the request are on the bus, since the log `base`, and nothing else was
written; before them the channel was `c`. -/
structure Underway (entry : PollEntry) (bus : BusId) (c : Channel) (base : List Stamped) (sent : Nat)
    (e : Engine) : Prop where
  bus_eq : e.bus = bus
  entry_eq : e.job.entry = some entry
  vwtp : e.job.isVwtp = true
  bound : e.channel.bound = true
  txId_eq : e.channel.txId = c.txId
  rxId_eq : e.channel.rxId = c.rxId
  blockSize_eq : e.channel.blockSize = c.blockSize
  txSeq_eq : e.channel.txSeq = c.txSeq + UInt8.ofNat sent
  line : e.line.TakesAll
  allSent : e.AllSent
  queue : e.single.isSome = true ∨ e.queued = []
  carries : e.out.Carries entry
  frame_eq : e.out.frame = UInt16.ofNat sent
  fresh : sent = 0 → e.out.offset = 0
  offset_eq : sent ≠ 0 →
    2 + entry.header.length + e.out.offset = min (7 * sent) entry.channelMessage.length
  le_frames : sent ≤ entry.dataFrames
  log : ∃ new, e.log = new ++ base ∧ (writes new).map (fun w => (w.kind, w.frame)) =
    (List.range sent).map fun k => (.data (UInt16.ofNat k), entry.dataFrame bus c k)

theorem channel_awaitAck (e : Engine) :
    e.awaitAck.channel = { e.channel with state := .transmit }.touch e.awaitAck.now := by
  show Channel.touch { e.expectOnChannel.channel with state := .transmit } _ = _
  rw [channel_expectOnChannel]
  rfl

namespace Underway

theorem toNat_frame (h : Underway entry bus c base sent e) : e.out.frame.toNat = sent := by
  have := h.le_frames
  have := entry.dataFrames_le
  rw [h.frame_eq, UInt16.toNat_ofNat_of_lt' (show sent < 65536 by omega)]

theorem frame_eq_zero_iff (h : Underway entry bus c base sent e) : e.out.frame = 0 ↔ sent = 0 := by
  rw [← h.toNat_frame, ← UInt16.toNat_inj]
  rfl

theorem remaining (h : Underway entry bus c base sent e) (hs : sent ≠ 0) :
    e.out.remaining = entry.channelMessage.length - 7 * sent := by
  have := h.offset_eq hs
  rw [h.carries.remaining]
  rw [entry.length_channelMessage] at this ⊢
  omega

theorem remaining_eq_zero_iff (h : Underway entry bus c base sent e) (hs : sent ≠ 0) :
    e.out.remaining = 0 ↔ sent = entry.dataFrames := by
  have := h.le_frames
  have := entry.lt_dataFrames_iff sent
  rw [h.remaining hs]
  omega

theorem onGrid (h : Underway entry bus c base sent e) : e.out.OnGrid entry := by
  refine ⟨fun h0 => h.fresh (h.frame_eq_zero_iff.1 h0), fun h0 hrem => ?_⟩
  have hs := mt h.frame_eq_zero_iff.2 h0
  have := h.offset_eq hs
  have := h.remaining hs
  rw [h.toNat_frame]
  omega

/-- What is no part of the transfer may change. -/
theorem update (h : Underway entry bus c base sent e) {e' : Engine} (hb : e'.bus = e.bus)
    (hj : e'.job.entry = e.job.entry) (hv : e'.job.isVwtp = e.job.isVwtp)
    (hc : e'.channel.bound = e.channel.bound) (ht : e'.channel.txId = e.channel.txId)
    (hr : e'.channel.rxId = e.channel.rxId) (hz : e'.channel.blockSize = e.channel.blockSize)
    (hn : e'.channel.txSeq = e.channel.txSeq) (hl : e'.line = e.line) (hs : e'.AllSent) (hq : e'.single.isSome = true ∨ e'.queued = [])
    (ho : e'.out = e.out) (hlog : Adds (fun event => ¬ event.IsWrite) e e') :
    Underway entry bus c base sent e' := by
  obtain ⟨old, hold, hw⟩ := h.log
  obtain ⟨new, hnew, hno⟩ := hlog
  refine ⟨hb.trans h.bus_eq, hj.trans h.entry_eq, hv.trans h.vwtp, hc.trans h.bound, ht.trans h.txId_eq,
    hr.trans h.rxId_eq, hz.trans h.blockSize_eq, hn.trans h.txSeq_eq, hl ▸ h.line, hs, hq, ho ▸ h.carries,
    ho ▸ h.frame_eq, ho ▸ h.fresh, ho ▸ h.offset_eq, h.le_frames, new ++ old, ?_, ?_⟩
  · rw [hnew, hold, List.append_assoc]
  · rw [writes_append, writes_eq_nil hno, List.append_nil, hw]

/-! ### Data frames -/

/-- The kind of the next data frame: `left` more may follow in this block. -/
theorem dataKind (h : Underway entry bus c base sent e) (hlt : sent < entry.dataFrames) {left : Nat}
    (hleft : left < c.block) (hend : (sent + 1 + left) % c.block = 0) :
    e.dataKind entry.header left = entry.dataKind c.block sent := by
  have hlead := length_dataLead e entry
  have hhead := entry.length_header_le
  have hlast : (e.out.advance (7 - (e.dataLead entry.header).length)).remaining = 0 ↔
      sent + 1 = entry.dataFrames := by
    have hnext := entry.lt_dataFrames_iff (sent + 1)
    rw [Outbound.remaining_advance, hlead]
    by_cases hs : sent = 0
    · have hrem := h.carries.remaining
      rw [h.fresh hs] at hrem
      rw [if_pos (h.frame_eq_zero_iff.2 hs)]
      rw [entry.length_channelMessage] at hnext
      omega
    · rw [if_neg (mt h.frame_eq_zero_iff.1 hs), h.remaining hs]
      omega
  have hfull : left = 0 ↔ (sent + 1) % c.block = 0 := by
    constructor
    · rintro rfl; exact hend
    · intro h0
      rw [Nat.add_mod, h0, Nat.zero_add, Nat.mod_mod, Nat.mod_eq_of_lt hleft] at hend
      exact hend
  unfold Engine.dataKind PollEntry.dataKind
  simp only [hlast, hfull]

theorem sendFrame (h : Underway entry bus c base sent e) (hlt : sent < entry.dataFrames) {left : Nat}
    (hleft : left < c.block) (hend : (sent + 1 + left) % c.block = 0) :
    Underway entry bus c base (sent + 1) (e.sendFrame entry.header left) := by
  have hmore : e.out.frame = 0 ∨ 0 < e.out.remaining := by
    by_cases hs : sent = 0
    · exact .inl (h.frame_eq_zero_iff.2 hs)
    · have := h.remaining_eq_zero_iff hs
      exact .inr (by omega)
  have hframe : e.channelFrame (Opcode.numbered (e.dataKind entry.header left).opcode e.channel.txSeq ::
      e.dataLead entry.header ++ e.out.chunk (7 - (e.dataLead entry.header).length)) =
        entry.dataFrame bus c sent := by
    rw [channelFrame, List.cons_append, dataLead_chunk h.carries h.onGrid hmore, h.dataKind hlt hleft hend,
      h.toNat_frame, h.txSeq_eq, h.txId_eq, h.bus_eq]
    rfl
  have hall := @AllSent.transmit { e with
    now := (if 0 < e.channel.txSeq then e.pause e.channel.sepTime else e).now
    out := (e.out.advance (7 - (e.dataLead entry.header).length)).countFrame
    channel := { e.channel with txSeq := e.channel.txSeq + 1 } } h.allSent h.line (.data e.out.frame)
      (entry.dataFrame bus c sent)
  unfold Engine.sendFrame
  dsimp only
  rw [hframe]
  rw [transmit_good (by exact h.line)] at hall ⊢
  obtain ⟨old, hold, hw⟩ := h.log
  have hhead := entry.length_header_le
  refine ⟨h.bus_eq, h.entry_eq, h.vwtp, h.bound, h.txId_eq, h.rxId_eq, h.blockSize_eq, ?_, h.line.asOf _, hall,
    h.queue, (h.carries.advance _).countFrame, ?_, fun h0 => absurd h0 (Nat.succ_ne_zero _), fun _ => ?_, hlt,
    _ :: old, congrArg (_ :: ·) hold, ?_⟩
  · show e.channel.txSeq + 1 = _
    rw [h.txSeq_eq, UInt8.ofNat_add, UInt8.add_assoc]
    rfl
  · show e.out.frame + 1 = _
    rw [h.frame_eq, UInt16.ofNat_add]
    rfl
  · show 2 + entry.header.length + (e.out.offset + min _ e.out.remaining) = _
    rw [length_dataLead]
    by_cases hs : sent = 0
    · have hrem := h.carries.remaining
      rw [h.fresh hs] at hrem ⊢
      rw [if_pos (h.frame_eq_zero_iff.2 hs), entry.length_channelMessage, hs]
      have := entry.length_message
      omega
    · have hrem := h.remaining hs
      have hoff := h.offset_eq hs
      rw [if_neg (mt h.frame_eq_zero_iff.1 hs)]
      omega
  · rw [← List.singleton_append, writes_append, List.map_append, hw, List.range_succ, List.map_append,
      h.frame_eq]
    rfl

/-- The next data frames go out, up to the end of the block or of the request. -/
theorem sendFrames (h : Underway entry bus c base sent e) (hlt : sent < entry.dataFrames) {count : Nat}
    (hpos : 0 < count) (hle : count ≤ c.block) (hend : (sent + count) % c.block = 0) :
    Underway entry bus c base (min entry.dataFrames (sent + count))
      (Engine.sendFrames entry.header count e) := by
  induction count generalizing e sent with
  | zero => omega
  | succ left ih =>
    have hnext := h.sendFrame hlt (show left < c.block by omega) (by rw [← hend]; congr 1; omega)
    have hdone := hnext.remaining_eq_zero_iff (by omega)
    unfold Engine.sendFrames
    dsimp only
    by_cases hrem : (Engine.sendFrame entry.header left e).out.remaining = 0
    · rw [if_pos hrem]
      rw [Nat.min_eq_left (by omega), ← hdone.1 hrem]
      exact hnext
    · rw [if_neg hrem]
      have hlt' : sent + 1 < entry.dataFrames := by
        have := hnext.le_frames
        have := mt hdone.2 hrem
        omega
      rcases Nat.eq_zero_or_pos left with rfl | hpos'
      · rw [Nat.min_eq_right (by omega)]
        exact hnext
      · have := ih hnext hlt' hpos' (by omega) (by rw [← hend]; congr 1; omega)
        rw [show sent + (left + 1) = sent + 1 + left by omega]
        exact this

theorem block_pos (c : Channel) : 0 < c.block := Nat.le_max_left ..

theorem awaitAck (h : Underway entry bus c base sent e) : Underway entry bus c base sent e.awaitAck := by
  have hsame : e.awaitAck.job.entry = e.job.entry ∧ e.awaitAck.job.isVwtp = e.job.isVwtp ∧
      e.awaitAck.line = e.line ∧ e.awaitAck.results = e.results ∧ e.awaitAck.log = e.log := by
    unfold Engine.awaitAck expectOnChannel
    dsimp only
    split <;> exact ⟨rfl, rfl, rfl, rfl, rfl⟩
  have hchannel := channel_awaitAck e
  have hworks := (Works.refl e).awaitAck
  obtain ⟨hentry, hvwtp, hline, hresults, hlog⟩ := hsame
  refine h.update hworks.bus hentry hvwtp (by rw [hchannel]; rfl) (by rw [hchannel]; rfl)
    (by rw [hchannel]; rfl) (by rw [hchannel]; rfl) (by rw [hchannel]; rfl) hline ?_ ?_
    (out_expectOnChannel e) (.of_log hlog)
  · rw [AllSent, hresults]
    exact h.allSent
  · rw [hworks.single, hworks.queued]
    exact h.queue

/-- A block goes out and is to be acknowledged. -/
theorem sendBlock (h : Underway entry bus c base sent e) (hlt : sent < entry.dataFrames)
    (hgrid : sent % c.block = 0) :
    Underway entry bus c base (min entry.dataFrames (sent + c.block)) e.sendBlock ∧
      e.sendBlock.channel.state = .transmit ∧ e.sendBlock.wait = 2 := by
  have hsent := h.sendFrames hlt (block_pos c) (Nat.le_refl _) (by simp [hgrid])
  have hblock : e.sendBlock = (Engine.sendFrames entry.header c.block e).awaitAck := by
    unfold Engine.sendBlock
    rw [h.entry_eq, h.blockSize_eq]
    rfl
  rw [hblock]
  exact ⟨hsent.awaitAck, rfl, rfl⟩

end Underway

/-! ### Blocks and their acknowledgements -/

/-- The module has acknowledged `acks` blocks of the request, and the block after them is on the bus. Once
all of it is acknowledged, the channel waits for the response. -/
structure Acknowledged (entry : PollEntry) (bus : BusId) (c : Channel) (base : List Stamped) (acks : Nat)
    (e : Engine) : Prop where
  underway : Underway entry bus c base (min entry.dataFrames ((acks + 1) * c.block)) e
  state_eq : e.channel.state = if acks * c.block < entry.dataFrames then .transmit else .receive
  wait_pos : 0 < e.wait

/-- The module says that a block has arrived. -/
structure Acks (e : Engine) (frame : Frame) : Prop where
  bus_eq : frame.bus = e.bus
  id_eq : frame.id = e.channel.rxId
  standard : frame.extended = false
  dlc_eq : frame.dlc = 1
  ready : Opcode.high (Frame.leadByte frame.data) = Opcode.ackReady

/-- The operation does not end a wait: it is no frame on the channel, no tick that the wait or a single
request may run out in, and no failed write, and it does not take the poll away. -/
def Calm (e : Engine) : Operation → Prop
  | .frame frame => frame.bus ≠ e.bus ∨ e.isChannelFrame frame = false
  | .tick primary => primary = true →
    2 ≤ e.wait ∧ ∀ capture ∈ e.single, capture.request.isGone e.now = false
  | .txComplete _ success => success = true
  | .submit _ | .setList _ _ | .setState _ => e.single.isSome = true
  | .shutdown | .setRoom _ => False
  | _ => True

/-- What happens while a request is sent: the module acknowledges blocks, and the rest is calm. -/
inductive Exchange (e : Engine) : List Operation → Nat → Prop
  | nil : Exchange e [] 0
  | calm {ops : List Operation} {acks : Nat} (h : Exchange e ops acks) {op : Operation}
    (hop : (e.run ops).Calm op) : Exchange e (ops ++ [op]) acks
  | ack {ops : List Operation} {acks : Nat} (h : Exchange e ops acks) {frame : Frame}
    (hf : (e.run ops).Acks frame) : Exchange e (ops ++ [.frame frame]) (acks + 1)

/-- An acknowledgement says nothing else. -/
theorem of_ackReady {b : UInt8} (h : Opcode.high b = Opcode.ackReady) :
    b ≠ Opcode.ping ∧ b ≠ Opcode.disconnect ∧ ¬ b < 0x40 := by
  have hle : Opcode.ackReady.toNat ≤ b.toNat := by
    rw [← h, Opcode.high, UInt8.toNat_and]
    exact Nat.and_le_left
  refine ⟨?_, ?_, fun hlt => ?_⟩
  · rintro rfl; revert h; decide
  · rintro rfl; revert h; decide
  · exact absurd (Nat.lt_of_le_of_lt hle hlt) (by decide)

namespace Acknowledged
variable {acks : Nat} {e' : Engine}

theorem update (h : Acknowledged entry bus c base acks e) (hb : e'.bus = e.bus)
    (hj : e'.job.entry = e.job.entry) (hv : e'.job.isVwtp = e.job.isVwtp)
    (hc : e'.channel = e.channel) (hw : 0 < e'.wait) (hl : e'.line = e.line) (hs : e'.AllSent)
    (hq : e'.single.isSome = true ∨ e'.queued = []) (ho : e'.out = e.out)
    (hlog : Adds (fun event => ¬ event.IsWrite) e e') : Acknowledged entry bus c base acks e' where
  underway := h.underway.update hb hj hv (by rw [hc]) (by rw [hc]) (by rw [hc]) (by rw [hc])
    (by rw [hc]) hl hs hq ho hlog
  state_eq := by rw [hc]; exact h.state_eq
  wait_pos := hw

theorem settle (h : Acknowledged entry bus c base acks e) :
    Acknowledged entry bus c base acks e.settle := by
  obtain ⟨received, new, heq, hnew⟩ := settle_good h.underway.allSent h.underway.queue
  rw [heq]
  exact h.update rfl rfl rfl rfl h.wait_pos rfl (by simp [AllSent]) h.underway.queue rfl
    ⟨new, rfl, fun s hs => (hnew s hs).not_isWrite⟩

theorem isTransferring (h : Acknowledged entry bus c base acks e) :
    e.channel.state = .transmit ∨ e.channel.state = .receive := by
  rw [h.state_eq]
  split
  · exact .inl rfl
  · exact .inr rfl

theorem isChannelFrame (h : Acknowledged entry bus c base acks e) {frame : Frame} (hf : e.Acks frame) :
    e.isChannelFrame frame = true := by
  have hopen : e.channel.isOpen = true := by
    rcases h.isTransferring with hs | hs <;> rw [Channel.isOpen, hs] <;> rfl
  simp [Engine.isChannelFrame, hopen, hf.standard, hf.id_eq]

/-- An acknowledgement lets the next block out, or the wait for the response begin. -/
theorem channelStep (h : Acknowledged entry bus c base acks e) {frame : Frame} (hf : e.Acks frame) :
    ∃ e', e.channelStep frame = (.chain, e') ∧ Acknowledged entry bus c base (acks + 1) e' := by
  have hpos := Underway.block_pos c
  have hframes := entry.dataFrames_pos
  have hmul : (acks + 1) * c.block = acks * c.block + c.block := Nat.succ_mul ..
  have hmul' : (acks + 1 + 1) * c.block = (acks + 1) * c.block + c.block := Nat.succ_mul ..
  have hlen : min frame.dlc 8 = 1 := by rw [hf.dlc_eq]; rfl
  have hrem := h.underway.remaining_eq_zero_iff (by omega)
  have hstate := h.state_eq
  by_cases hlt : acks * c.block < entry.dataFrames
  · rw [if_pos hlt] at hstate
    by_cases hlast : (acks + 1) * c.block < entry.dataFrames
    · -- more is to be sent
      have hsent : min entry.dataFrames ((acks + 1) * c.block) = (acks + 1) * c.block := by omega
      have hunder := h.underway
      rw [hsent] at hunder hrem
      obtain ⟨hnext, hs', hw⟩ := hunder.sendBlock hlast (Nat.mul_mod_left ..)
      refine ⟨e.sendBlock, ?_, ?_, ?_, by rw [hw]; decide⟩
      · simp only [Engine.channelStep, hstate, hlen, if_true, receiveAck, hf.ready]
        rw [if_pos (by omega)]
      · rw [hmul']
        exact hnext
      · rw [if_pos hlast]
        exact hs'
    · -- this was the last block
      have hdone : e.out.remaining = 0 := hrem.2 (by omega)
      have hwait : e.awaitResponse = { e with
          channel := { e.channel with state := .receive }.touch e.now, wait := 2 } := by
        unfold awaitResponse
        rw [if_neg (by rw [hstate]; decide)]
      refine ⟨e.awaitResponse, ?_, ?_⟩
      · simp only [Engine.channelStep, hstate, hlen, if_true, receiveAck, hf.ready, hdone, Nat.lt_irrefl,
          if_false]
      · have hsent : min entry.dataFrames ((acks + 1 + 1) * c.block) =
            min entry.dataFrames ((acks + 1) * c.block) := by omega
        rw [hwait]
        refine ⟨?_, ?_, Nat.zero_lt_two⟩
        · rw [hsent]
          exact h.underway.update rfl rfl rfl rfl rfl rfl rfl rfl rfl h.underway.allSent h.underway.queue rfl
            (.of_log rfl)
        · rw [if_neg hlast]
          rfl
  · -- everything was acknowledged before
    rw [if_neg hlt] at hstate
    refine ⟨e, ?_, ?_, ?_, h.wait_pos⟩
    · obtain ⟨hping, hclose, hdata⟩ := of_ackReady hf.ready
      simp only [Engine.channelStep, hstate, receiveResponse, if_neg hping, if_neg hclose, if_neg hdata]
    · have hsent : min entry.dataFrames ((acks + 1 + 1) * c.block) =
          min entry.dataFrames ((acks + 1) * c.block) := by omega
      rw [hsent]
      exact h.underway
    · rw [hstate, if_neg (by omega)]

theorem ack (h : Acknowledged entry bus c base acks e) {frame : Frame} (hf : e.Acks frame) :
    Acknowledged entry bus c base (acks + 1) (e.step (.frame frame)) := by
  obtain ⟨e', hstep, hnext⟩ := h.channelStep hf
  have hreceive : e.receiveVwtp frame = e' := by
    have := hnext.wait_pos
    simp only [receiveVwtp, h.underway.bound, hstep, Bool.not_true, Bool.false_eq_true, if_false]
    rw [if_neg (by omega)]
  have hframe : e.step (.frame frame) = e'.settle := by
    show e.handleFrame frame = _
    simp only [handleFrame, hf.bus_eq, h.isChannelFrame hf, hreceive, ne_eq, not_true_eq_false, if_false,
      if_true]
  rw [hframe]
  exact hnext.settle

/-! ### Between two acknowledgements -/

theorem waited (h : Acknowledged entry bus c base acks e) (hw : Waited e e') :
    Acknowledged entry bus c base acks e' := by
  obtain ⟨received, hj⟩ := hw.job
  exact h.update hw.bus (by rw [hj]) (by rw [hj]; rfl) hw.channel hw.wait_pos hw.line hw.allSent hw.queue
    hw.out (hw.log.mono fun _ => Event.IsMinor.not_isWrite)

theorem calm (h : Acknowledged entry bus c base acks e) {op : Operation} (hop : e.Calm op) :
    Acknowledged entry bus c base acks (e.step op) := by
  have hclosing : e.channel.state ≠ .closing := by
    rcases h.isTransferring with hs | hs <;> rw [hs] <;> decide
  have hwaited : ∀ {op : Operation}, e.Abides op → Acknowledged entry bus c base acks (e.step op) :=
    fun hop => h.waited (hop.waited h.underway.vwtp hclosing h.wait_pos h.underway.allSent h.underway.queue)
  cases op with
  | setList list defaultBus =>
    show Acknowledged entry bus c base acks (e.setList list defaultBus)
    obtain ⟨capture, hs⟩ := Option.isSome_iff_exists.1 hop
    simp only [setList, hs]
    exact h.update rfl rfl rfl rfl h.wait_pos rfl h.underway.allSent (.inl rfl) rfl (.of_log rfl)
  | tick primary =>
    refine hwaited fun hp => ⟨(hop hp).1, fun hc => ?_, (hop hp).2⟩
    rcases h.isTransferring with hs | hs <;> (rw [hs] at hc; cases hc)
  | _ => exact hwaited hop

theorem exchange (h : Acknowledged entry bus c base 0 e) {ops : List Operation}
    (hx : e.Exchange ops acks) : Acknowledged entry bus c base acks (e.run ops) := by
  induction hx with
  | nil => exact h
  | calm _ hop ih =>
    rw [run_append]
    exact ih.calm hop
  | ack _ hf ih =>
    rw [run_append]
    exact ih.ack hf

end Acknowledged

/-! ### Starting a request -/

/-- The channel with the parameters that its module answers with. -/
def agreed (e : Engine) (frame : Frame) : Engine :=
  { e with channel := { e.channel with
      blockSize := frame.data.toList.getD 1 0
      ackTime := decodeTiming (frame.data.toList.getD 2 0)
      sepTime := decodeTiming (frame.data.toList.getD 4 0) } }

theorem log_agreed (e : Engine) (frame : Frame) : (e.agreed frame).log = e.log := rfl

/-- When the module answers with its parameters, the request goes out. -/
theorem channelStep_agreed {frame : Frame} (hs : e.channel.state = .params) (hl : frame.dlc ≠ 0)
    (ha : Frame.leadByte frame.data = Opcode.paramsResponse) :
    e.channelStep frame = (.chain, (e.agreed frame).sendRequest) := by
  have hlen : min frame.dlc 8 ≠ 0 := by omega
  have hagreed : e.agreed frame = { e with channel := { e.channel with
      blockSize := frame.data[1]
      ackTime := decodeTiming frame.data[2]
      sepTime := decodeTiming frame.data[4] } } := by
    simp [agreed, List.getD_eq_getElem?_getD]
  simp only [channelStep, hs, receiveParams, if_neg hlen, ha, if_true, hagreed]

/-- A poll is started on a negotiated channel: it is dispatched while the channel to its module is open, or
the module answers with the parameters of the channel. The first engine is about to send the request, the
second has sent what it may before an acknowledgement. -/
inductive Starts (entry : PollEntry) : Engine → Engine → Prop
  | dispatch {e : Engine} (hv : entry.protocol = .vwtp20)
    (hc : e.channel.isFor entry.tx entry.rx = true) (hs : e.channel.state.isHalfOpen = false) :
    Starts entry (e.assign entry).touchChannel.interrupt (e.dispatch entry).settle
  | params {e : Engine} {frame : Frame} (he : e.job.entry = some entry) (hv : e.job.isVwtp = true)
    (hs : e.channel.state = .params) (hc : e.channel.bound = true) (hb : frame.bus = e.bus)
    (hf : e.isChannelFrame frame = true) (hl : frame.dlc ≠ 0)
    (ha : Frame.leadByte frame.data = Opcode.paramsResponse) :
    Starts entry (e.agreed frame) (e.step (.frame frame))

theorem wait_sendRequest (he : e.job.entry = some entry) : e.sendRequest.wait = 2 := by
  simp only [sendRequest, he]
  exact wait_sendBlock he

namespace Starts
variable {e₀ : Engine}

theorem eq_sendRequest (h : Starts entry e₀ e) : e = e₀.sendRequest.settle ∧
    e₀.job.entry = some entry ∧ e₀.job.isVwtp = true ∧ e₀.channel.bound = true := by
  cases h with
  | @dispatch e hv hc hs =>
    have ht : (e.assign entry).touchChannel.channel.isFor entry.tx entry.rx = true := hc
    have hs' : (e.assign entry).touchChannel.channel.state.isHalfOpen = false := hs
    have hlive : (e.assign entry).touchChannel.channel.state.isLive = true := by
      revert hs'
      cases (e.assign entry).touchChannel.channel.state <;> simp [ChannelState.isHalfOpen, ChannelState.isLive]
    have hk := (Keeps.refl (e.assign entry).touchChannel).interrupt
    have hvwtp : (e.assign entry).touchChannel.job.isVwtp = true := by
      show (entry.protocol == .vwtp20) = true
      rw [hv]
      rfl
    have hbound : e.channel.bound = true := by
      simp only [Channel.isFor, Bool.and_eq_true] at hc
      exact hc.1.1
    refine ⟨?_, hk.entry, hk.isVwtp.trans hvwtp, (hk.bound (isLive_interrupt hlive)).trans hbound⟩
    have hstart : (e.assign entry).startVwtp = (e.assign entry).touchChannel.interrupt.sendRequest := by
      have hj : (e.assign entry).job.entry = some entry := rfl
      simp only [startVwtp, hj, ht, hs', if_true, Bool.false_eq_true, if_false]
    simp only [Engine.dispatch, hv, hstart]
  | @params e frame he hv hs hc hb hf hl ha =>
    refine ⟨?_, he, hv, hc⟩
    have hstep := channelStep_agreed hs hl ha
    have hreceive : e.receiveVwtp frame = (e.agreed frame).sendRequest := by
      simp only [receiveVwtp, hc, hstep, Bool.not_true, Bool.false_eq_true, if_false]
      have he' : (e.agreed frame).job.entry = some entry := he
      rw [if_neg (by rw [wait_sendRequest he']; decide)]
    show e.handleFrame frame = _
    simp only [handleFrame, hb, hf, hreceive, ne_eq, not_true_eq_false, if_false, if_true]

/-- After the start the first block is on the bus. -/
theorem acknowledged (h : Starts entry e₀ e) (hl : e₀.line.TakesAll) (hs : e₀.AllSent)
    (hq : e₀.single.isSome = true ∨ e₀.queued = []) :
    Acknowledged entry e₀.bus e₀.channel e₀.log 0 e := by
  obtain ⟨rfl, he, hv, hb⟩ := h.eq_sendRequest
  have hload : Underway entry e₀.bus e₀.channel e₀.log 0 { e₀ with
      out := .load entry.payload 0 (payloadLimit entry.header)
      job := e₀.job.resetMultiframe } := by
    refine ⟨rfl, he, hv, hb, rfl, rfl, rfl, ?_, hl, hs, hq, .load entry 0, rfl, fun _ => Nat.zero_min _,
      fun h0 => absurd rfl h0, Nat.zero_le _, [], rfl, rfl⟩
    exact (UInt8.add_zero _).symm
  obtain ⟨hsent, hstate, hw⟩ := hload.sendBlock entry.dataFrames_pos (Nat.zero_mod _)
  have hfirst : Acknowledged entry e₀.bus e₀.channel e₀.log 0 e₀.sendRequest := by
    simp only [sendRequest, he]
    refine ⟨?_, ?_, by rw [hw]; decide⟩
    · rw [Nat.zero_add, Nat.one_mul]
      rw [Nat.zero_add] at hsent
      exact hsent
    · rw [Nat.zero_mul, if_pos entry.dataFrames_pos]
      exact hstate
  exact hfirst.settle

end Starts

/-- A request on a negotiated channel goes out in blocks. However long it is, after the start and each
acknowledgement the next block of data frames is on the bus, as far as the request needs them, and no other
frame is written. The frames are numbered from where the channel's counter stood and carry the message in
order; only the last of them has the kind of a last one. When the last block is acknowledged, the channel waits
for the response. -/
theorem sent_in_blocks {e₀ : Engine} (h : Starts entry e₀ e) (hl : e₀.line.TakesAll) (hs : e₀.AllSent)
    (hq : e₀.single.isSome = true ∨ e₀.queued = []) {ops : List Operation} {acks : Nat}
    (hx : e.Exchange ops acks) :
    let e' := e.run ops
    let sent := min entry.dataFrames ((acks + 1) * e₀.channel.block)
    (∃ new, e'.log = new ++ e₀.log ∧
      ((writes new).map fun w => (w.kind, w.frame)) = ((List.range sent).map fun k =>
        (.data (UInt16.ofNat k), entry.dataFrame e₀.bus e₀.channel k)) ∧
      ((writes new).flatMap fun w => w.frame.payload.drop 1) = entry.channelMessage.take (7 * sent)) ∧
    (acks * e₀.channel.block < entry.dataFrames → e'.channel.state = .transmit) ∧
    (entry.dataFrames ≤ acks * e₀.channel.block →
      sent = entry.dataFrames ∧ entry.channelMessage.take (7 * sent) = entry.channelMessage ∧
        e'.channel.state = .receive ∧ e'.out.remaining = 0) := by
  intro e' sent
  have hrun := (h.acknowledged hl hs hq).exchange hx
  have hmul : (acks + 1) * e₀.channel.block = acks * e₀.channel.block + e₀.channel.block := Nat.succ_mul ..
  obtain ⟨new, hnew, hw⟩ := hrun.underway.log
  refine ⟨⟨new, hnew, hw, ?_⟩, fun hlt => ?_, fun hge => ?_⟩
  · have hframes := congrArg (List.flatMap fun w => w.2.payload.drop 1) hw
    rw [List.flatMap_map, List.flatMap_map] at hframes
    exact hframes.trans (entry.carried_dataFrames ..)
  · have hstate := hrun.state_eq
    rwa [if_pos hlt] at hstate
  · have hall : sent = entry.dataFrames := Nat.min_eq_left (by omega)
    have hpos := entry.dataFrames_pos
    have hend := entry.lt_dataFrames_iff entry.dataFrames
    have hstate := hrun.state_eq
    rw [if_neg (by omega)] at hstate
    refine ⟨hall, List.take_of_length_le (by omega), hstate, ?_⟩
    exact (hrun.underway.remaining_eq_zero_iff (by omega)).2 (by omega)

/-- A request of 17 bytes on a channel with blocks of two frames. The module answers with the parameters,
then acknowledges both blocks. -/
theorem sent_in_blocks_example :
    let bus : BusId := ⟨1, by decide⟩
    let write : PollEntry := ⟨0x200, 1, 0x2e, 0x1234, [1, 2, 3, 4, 5, 6, 7, 8, 9, 10, 11, 12, 13, 14],
      #v[1, 1, 1, 1], 1, .vwtp20⟩
    let e := (Engine.new bus "ecu" false ⟨0, 25, .strict, 0, 0⟩).run [.setList (some [write]) none, .tick true,
      .frame (EcuFrame.channel bus 0x201 [0x00, 0xd0, 0x00, 0x03, 0x40, 0x07, 0x01])]
    let answer := EcuFrame.channel bus 0x300 [0xa1, 0x02, 0x8a, 0xff, 0x0a, 0xff]
    let ack := EcuFrame.channel bus 0x300 [0xb2]
    let e' := (e.step (.frame answer)).run [.frame ack, .tick true, .frame ack]
    (∃ new, e'.log = new ++ e.log ∧ ((writes new).map fun w => w.frame.payload) =
      [[0x20, 0, 17, 0x2e, 0x12, 0x34, 1, 2], [0x01, 3, 4, 5, 6, 7, 8, 9], [0x12, 10, 11, 12, 13, 14]]) ∧
    e'.channel.state = .receive ∧ e'.out.remaining = 0 := by
  intro bus write e answer ack e'
  have hstart : Starts write (e.agreed answer) (e.step (.frame answer)) :=
    .params (by decide) (by decide) (by decide) (by decide) (by decide) (by decide) (by decide) (by decide)
  have hack : ∀ e : Engine, e.bus = bus ∧ e.channel.rxId = 0x300 → e.Acks ack := fun e he =>
    ⟨he.1.symm, he.2.symm, rfl, rfl, by decide⟩
  have h1 : (e.step (.frame answer)).Exchange [.frame ack] 1 := .ack .nil (hack _ (by decide))
  have h2 : (e.step (.frame answer)).Exchange [.frame ack, .tick true] 1 :=
    .calm h1 fun _ => ⟨by decide, by decide⟩
  have h3 : (e.step (.frame answer)).Exchange [.frame ack, .tick true, .frame ack] 2 :=
    .ack h2 (hack _ (by decide))
  have hline : (e.agreed answer).line = .free := by decide
  have hresults : (e.agreed answer).results = [] := by decide
  have hblock : (e.agreed answer).channel.block = 2 := by decide
  have hframes : write.dataFrames = 3 := by decide
  have hdone := sent_in_blocks hstart (hline ▸ Line.takesAll_free) (.of_nil hresults)
    (.inr (by decide)) h3
  have he' : e' = (e.step (.frame answer)).run [.frame ack, .tick true, .frame ack] := rfl
  clear_value e'
  dsimp only at hdone
  rw [hblock, hframes, log_agreed, ← he'] at hdone
  obtain ⟨⟨new, hnew, hw, -⟩, -, hdone⟩ := hdone
  have hpayloads := congrArg (List.map fun w => w.2.payload) hw
  rw [List.map_map, List.map_map] at hpayloads
  exact ⟨⟨new, hnew, hpayloads.trans (by decide)⟩, (hdone (by decide)).2.2⟩

end Engine

end EcuPoll
