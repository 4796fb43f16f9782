import Mathlib.Data.List.Chain
import EcuPoll.Proofs.Engine.Rounds
import EcuPoll.Proofs.Vwtp.Beside
import EcuPoll.Proofs.Vwtp.Blocks

/-!
# The time between data frames

The module of a channel says how much time it needs between two data frames, and the engine pauses for it before it
sends one, except before the first on the channel, which it knows by its number. But the number is a byte. When it has
wrapped, the engine takes another frame for the first, and if that is not the first of its block, it comes too soon:
`separated_iff`.
-/

namespace EcuPoll

namespace Event

/-- A data frame of a request. -/
def isData : Event → Bool
  | .wrote (.data _) _ _ => true
  | _ => false

/-- A data frame after which the block goes on. -/
def goesOn : Event → Bool
  | .wrote (.data _) frame _ => Opcode.high (Frame.leadByte frame.data) == DataKind.more.opcode
  | _ => false

/-- A frame that takes the next number of the channel: a data frame, or the empty one that breaks off a request. -/
def isNumbered : Event → Bool
  | .wrote (.data _) _ _ => true
  | .wrote .abort frame _ => Opcode.high (Frame.leadByte frame.data) == DataKind.last.opcode
  | _ => false

theorem isNumbered_of_isData {event : Event} (h : event.isData = true) : event.isNumbered = true := by
  cases event with
  | wrote kind => cases kind <;> first | rfl | cases h
  | _ => cases h

theorem isNumbered_of_goesOn {event : Event} (h : event.goesOn = true) : event.isNumbered = true := by
  cases event with
  | wrote kind => cases kind <;> first | rfl | cases h
  | _ => cases h

theorem IsReport.isNumbered {event : Event} (h : event.IsReport) : event.isNumbered = false := by
  cases event <;> first | rfl | exact h.elim

end Event

/-- The frames that have taken a number. -/
def numbered (log : List Stamped) : Nat :=
  log.countP (·.event.isNumbered)

theorem numbered_append (new log : List Stamped) : numbered (new ++ log) = numbered log + numbered new := by
  rw [numbered, List.countP_append, Nat.add_comm]
  rfl

/-- On a channel that needs `sep` µs between data frames and whose next number is `seq`, each frame after which its
block goes on is followed by the next one of the block, and exactly if that has not the number 0, `sep` has passed. What
comes after the channel has been asked for anew does not count. -/
def Spaced (sep : Nat) (seq : UInt8) (new : List Stamped) : Prop :=
  ∀ later s earlier, new = later ++ s :: earlier → s.event.goesOn = true →
    (∀ s' ∈ earlier, s'.event.isSetup = false) → ∃ rest next, later = rest ++ [next] ∧ next.event.isData = true ∧
      (sep ≤ 1000 * (next.time - s.time) ↔ sep = 0 ∨ seq + UInt8.ofNat (numbered (s :: earlier)) ≠ 0)

namespace Spaced
variable {sep : Nat} {seq : UInt8} {new new' : List Stamped}

theorem of_not_goesOn (h : ∀ s ∈ new, s.event.goesOn = false) : Spaced sep seq new := by
  intro later s earlier heq hs
  rw [h s (by rw [heq]; simp)] at hs
  cases hs

theorem append (h : Spaced sep seq new)
    (h' : (∀ s ∈ new, s.event.isSetup = false) → Spaced sep (seq + UInt8.ofNat (numbered new)) new') :
    Spaced sep seq (new' ++ new) := by
  intro later s earlier heq hs hno
  rcases List.append_eq_append_iff.1 heq with ⟨mid, hlater, hnew⟩ | ⟨mid, hnew', hearlier⟩
  · obtain ⟨rest, next, hrest, hnext⟩ := h mid s earlier hnew hs hno
    exact ⟨new' ++ rest, next, by rw [hlater, hrest, List.append_assoc], hnext⟩
  · cases mid with
    | nil =>
      obtain ⟨rest, next, hrest, -⟩ := h [] s earlier (by rw [hearlier]; rfl) hs hno
      simp at hrest
    | cons s' mid =>
      rw [List.cons_append] at hearlier
      obtain ⟨rfl, rfl⟩ := List.cons.inj hearlier
      obtain ⟨hmid, hnew⟩ := List.forall_mem_append.1 hno
      obtain ⟨rest, next, hrest, hdata, hiff⟩ := h' hnew later s mid hnew' hs hmid
      refine ⟨rest, next, hrest, hdata, ?_⟩
      rw [← List.cons_append, numbered_append, UInt8.ofNat_add, ← UInt8.add_assoc]
      exact hiff

/-- One more frame of the block came before. -/
theorem snoc {next s : Stamped} (h : Spaced sep (seq + 1) (new ++ [next])) (hdata : next.event.isData = true)
    (hs : s.event.isNumbered = true)
    (hiff : sep ≤ 1000 * (next.time - s.time) ↔ sep = 0 ∨ seq + 1 ≠ 0) : Spaced sep seq (new ++ [next] ++ [s]) := by
  have hone : numbered [s] = 1 := by simp [numbered, hs]
  intro later s' earlier heq hs' hno
  rcases List.eq_nil_or_concat earlier with rfl | ⟨earlier, s'', rfl⟩
  · obtain ⟨rfl, hlast⟩ := List.append_inj' heq rfl
    obtain ⟨rfl, -⟩ := List.cons.inj hlast
    refine ⟨new, next, rfl, hdata, ?_⟩
    rw [hone]
    exact hiff
  · rw [List.concat_eq_append, ← List.cons_append, ← List.append_assoc] at heq
    obtain ⟨hnew, hlast⟩ := List.append_inj' heq rfl
    obtain ⟨rfl, -⟩ := List.cons.inj hlast
    obtain ⟨rest, next', hrest, hdata', hiff'⟩ := h later s' earlier hnew hs' fun x hx => hno x (by simp [hx])
    refine ⟨rest, next', hrest, hdata', ?_⟩
    rw [List.concat_eq_append, ← List.cons_append, numbered_append, hone, UInt8.ofNat_add, ← UInt8.add_assoc]
    exact hiff'

end Spaced

theorem high_opcode (kind : DataKind) : Opcode.high kind.opcode = kind.opcode := by
  cases kind <;> rfl

namespace Engine
variable {e e' e'' : Engine}

/-! ### A block -/

/-- The frames `new` go out, spaced, and the channel counts them. -/
structure Paces (new : List Stamped) (e e' : Engine) : Prop where
  log : e'.log = new ++ e.log
  spaced : Spaced e.channel.sepTime e.channel.txSeq new
  sepTime : e'.channel.sepTime = e.channel.sepTime
  txSeq : e'.channel.txSeq = e.channel.txSeq + UInt8.ofNat (numbered new)

namespace Paces
variable {new : List Stamped}

theorem refl (e : Engine) : Paces [] e e :=
  ⟨rfl, .of_not_goesOn (List.forall_mem_nil _), rfl, (UInt8.add_zero _).symm⟩

theorem congr (h : Paces new e e') (hl : e''.log = e'.log) (hsep : e''.channel.sepTime = e'.channel.sepTime)
    (hseq : e''.channel.txSeq = e'.channel.txSeq) : Paces new e e'' :=
  ⟨hl.trans h.log, h.spaced, hsep.trans h.sepTime, hseq.trans h.txSeq⟩

/-- One frame goes out, and no block goes on after it. -/
theorem of_write {s : Stamped} (hl : e'.log = s :: e.log) (hgo : s.event.goesOn = false)
    (hsep : e'.channel.sepTime = e.channel.sepTime)
    (hseq : e'.channel.txSeq = if s.event.isNumbered then e.channel.txSeq + 1 else e.channel.txSeq) :
    Paces [s] e e' := by
  refine ⟨hl, .of_not_goesOn (List.forall_mem_singleton.2 hgo), hsep, ?_⟩
  rw [hseq]
  cases hn : s.event.isNumbered with
  | true => simp [numbered, hn]
  | false => simp [numbered, hn]

end Paces

/-- The kind of a frame that carries a number stands in its first byte. -/
theorem high_leadByte {kind : UInt8} (hk : Opcode.high kind = kind) (bus : BusId) (id : UInt32) (number : UInt8)
    (bytes : List UInt8) :
    Opcode.high (Frame.leadByte (Frame.cut bus id false (Opcode.numbered kind number :: bytes)).data) = kind := by
  have hsplit : (kind ||| (number &&& 0x0f)) &&& 0xf0 = kind &&& 0xf0 ||| (number &&& 0x0f) &&& 0xf0 :=
    UInt8.toBitVec_inj.1 BitVec.and_or_distrib_right
  rw [leadByte_cut, Opcode.high, Opcode.numbered, hsplit, show kind &&& 0xf0 = kind from hk, UInt8.and_assoc,
    show (0x0f : UInt8) &&& 0xf0 = 0 from rfl, UInt8.and_zero, UInt8.or_zero]

/-- Enough time passes before a data frame unless its number is 0. -/
theorem le_pause_iff (e : Engine) (sep : Nat) (seq : UInt8) :
    sep ≤ 1000 * ((if 0 < seq then e.pause sep else e).now - e.now) ↔ sep = 0 ∨ seq ≠ 0 := by
  by_cases h0 : seq = 0
  · rw [h0, if_neg (by decide)]
    simp
  · rw [if_pos (UInt8.pos_iff_ne_zero.2 h0)]
    show sep ≤ 1000 * (e.now + (sep + 999) / 1000 - e.now) ↔ _
    exact iff_of_true (by omega) (.inr h0)

/-- A data frame goes out after the pause. If the block goes on after it, there is more to send, and the block may hold
more. -/
structure Writes (left : Nat) (s : Stamped) (e e' : Engine) : Prop where
  log : e'.log = s :: e.log
  isData : s.event.isData = true
  time : s.time = (if 0 < e.channel.txSeq then e.pause e.channel.sepTime else e).now
  now : e'.now = s.time
  channel : e'.channel = { e.channel with txSeq := e.channel.txSeq + 1 }
  goesOn : s.event.goesOn = true → e'.out.remaining ≠ 0 ∧ left ≠ 0

theorem sendFrame_writes (header : List UInt8) (left : Nat) (e : Engine) :
    ∃ s, Writes left s e (e.sendFrame header left) := by
  unfold sendFrame
  dsimp only
  rw [transmit_eq]
  refine ⟨_, rfl, rfl, rfl, rfl, rfl, fun hs => ?_⟩
  have hkind : (e.dataKind header left).opcode = DataKind.more.opcode := by
    have hs : (_ == _) = true := hs
    rw [beq_iff_eq, channelFrame, List.cons_append, high_leadByte (high_opcode _)] at hs
    exact hs
  unfold dataKind at hkind
  by_cases hrem : (e.out.advance (7 - (e.dataLead header).length)).remaining = 0
  · rw [if_pos hrem] at hkind
    cases hkind
  · rw [if_neg hrem] at hkind
    by_cases hleft : left = 0
    · rw [if_pos hleft] at hkind
      cases hkind
    · rw [if_neg hleft] at hkind
      exact ⟨hrem, hleft⟩

namespace Writes
variable {left : Nat} {s next : Stamped} {new : List Stamped}

theorem numbered (h : Writes left s e e') : numbered [s] = 1 := by
  have hs : s.event.isNumbered = true := Event.isNumbered_of_isData h.isData
  simp [EcuPoll.numbered, hs]

/-- The last frame of a block. -/
theorem paces (h : Writes left s e e') (hend : e'.out.remaining = 0 ∨ left = 0) : Paces [s] e e' := by
  refine .of_write h.log (Bool.eq_false_iff.2 fun hs => ?_) (by rw [h.channel]) ?_
  · obtain ⟨hrem, hleft⟩ := h.goesOn hs
    rcases hend with h0 | h0
    · exact hrem h0
    · exact hleft h0
  · rw [h.channel, Event.isNumbered_of_isData h.isData]
    rfl

/-- A frame that others of the block follow. -/
theorem then_paces (h : Writes left s e e') (h' : Paces (new ++ [next]) e' e'') (hdata : next.event.isData = true)
    (htime : next.time = (if 0 < e'.channel.txSeq then e'.pause e'.channel.sepTime else e').now) :
    Paces (new ++ [next] ++ [s]) e e'' := by
  have hsep : e'.channel.sepTime = e.channel.sepTime := by rw [h.channel]
  have hseq : e'.channel.txSeq = e.channel.txSeq + 1 := by rw [h.channel]
  refine ⟨by rw [h'.log, h.log]; simp, ?_, h'.sepTime.trans hsep, ?_⟩
  · have hspaced := h'.spaced
    rw [hsep, hseq] at hspaced
    refine hspaced.snoc hdata (Event.isNumbered_of_isData h.isData) ?_
    rw [htime, ← h.now, hsep, hseq]
    exact le_pause_iff ..
  · rw [h'.txSeq, hseq, numbered_append _ [s], h.numbered, UInt8.ofNat_add, ← UInt8.add_assoc]
    rfl

end Writes

/-- The frames of a block go out, at least one. -/
theorem sendFrames_paces (header : List UInt8) (left : Nat) (e : Engine) : ∃ new s,
    Paces (new ++ [s]) e (sendFrames header (left + 1) e) ∧ s.event.isData = true ∧
      s.time = (if 0 < e.channel.txSeq then e.pause e.channel.sepTime else e).now := by
  induction left generalizing e with
  | zero =>
    obtain ⟨s, hs⟩ := sendFrame_writes header 0 e
    have heq : sendFrames header 1 e = e.sendFrame header 0 := by
      unfold sendFrames
      dsimp only
      split <;> rfl
    rw [heq]
    exact ⟨[], s, hs.paces (.inr rfl), hs.isData, hs.time⟩
  | succ left ih =>
    obtain ⟨s, hs⟩ := sendFrame_writes header (left + 1) e
    rw [sendFrames]
    by_cases hrem : (sendFrame header (left + 1) e).out.remaining = 0
    · rw [if_pos hrem]
      exact ⟨[], s, hs.paces (.inl hrem), hs.isData, hs.time⟩
    · rw [if_neg hrem]
      obtain ⟨new, next, hpaces, hdata, htime⟩ := ih (e.sendFrame header (left + 1))
      exact ⟨new ++ [next], s, hs.then_paces hpaces hdata htime, hs.isData, hs.time⟩

theorem sendBlock_paces (e : Engine) : ∃ new, Paces new e e.sendBlock := by
  unfold sendBlock
  cases e.job.entry with
  | none => exact ⟨[], .refl e⟩
  | some entry =>
    obtain ⟨left, hleft⟩ := Nat.exists_eq_add_of_le' (Nat.le_max_left 1 e.channel.blockSize.toNat)
    obtain ⟨new, s, hs, -⟩ := sendFrames_paces entry.header left e
    rw [hleft]
    refine ⟨new ++ [s], hs.congr ?_ ?_ ?_⟩
    · exact log_expectOnChannel _
    · rw [channel_awaitAck]
      rfl
    · rw [channel_awaitAck]
      rfl

theorem state_sendRequest {entry : PollEntry} (he : e.job.entry = some entry) :
    e.sendRequest.channel.state = .transmit := by
  have hstate (e₁ : Engine) : e₁.awaitAck.channel.state = .transmit := by
    rw [channel_awaitAck]
    rfl
  have hjob : e.job.resetMultiframe.entry = some entry := he
  simp only [sendRequest, sendBlock, he, hjob, hstate]

theorem sendRequest_paces (e : Engine) : ∃ new, Paces new e e.sendRequest := by
  unfold sendRequest
  cases e.job.entry with
  | none => exact ⟨[], .refl e⟩
  | some entry =>
    obtain ⟨new, h⟩ := sendBlock_paces { e with
      out := .load entry.payload 0 (payloadLimit entry.header)
      job := e.job.resetMultiframe }
    exact ⟨new, h.log, h.spaced, h.sepTime, h.txSeq⟩

/-- A request that is broken off takes a number, a response does not. -/
theorem abortTransfer_paces (e : Engine) : ∃ s, Paces [s] e e.abortTransfer := by
  have hnumbered {e : Engine} {kind : UInt8} (hk : Opcode.high kind = kind) (number : UInt8) (accepted : Bool) :
      (Event.wrote .abort (e.channelFrame [Opcode.numbered kind number]) accepted).isNumbered =
        (kind == DataKind.last.opcode) := by
    rw [Event.isNumbered, channelFrame, high_leadByte hk]
  unfold abortTransfer
  by_cases hs : e.channel.state = .receive
  · obtain ⟨_, _, _, _, heq⟩ := expectOnChannel_eq_update e
    rw [if_pos hs]
    dsimp only
    rw [heq, transmit_eq]
    refine ⟨_, .of_write rfl rfl rfl ?_⟩
    rw [hnumbered (show Opcode.high Opcode.ackNotReady = Opcode.ackNotReady from rfl)]
    rfl
  · obtain ⟨_, _, _, _, heq⟩ :=
      expectOnChannel_eq_update { e with channel := { e.channel with txSeq := e.channel.txSeq + 1 } }
    rw [if_neg hs]
    dsimp only
    rw [heq, transmit_eq]
    refine ⟨_, .of_write rfl rfl rfl ?_⟩
    rw [hnumbered (high_opcode _)]
    rfl

/-! ### Whatever an engine does -/

/-- No module is asked for a channel or for its parameters. -/
def Unasked (e : Engine) : Prop :=
  e.channel.state ≠ .setup ∧ e.channel.state ≠ .params

/-- The channel is still that of before, or it is given up. -/
structure Maintains (new : List Stamped) (e e' : Engine) : Prop where
  unasked : e'.Unasked
  down : e.channel.state.isHalfOpen = true → e'.channel.state.isHalfOpen = true
  up : e'.channel.state.isHalfOpen = false → e'.channel.sepTime = e.channel.sepTime ∧
    e'.channel.txSeq = e.channel.txSeq + UInt8.ofNat (numbered new)

/-- The number of the next data frame and the time before it are those of the channel, if it is fit for data. -/
def Counts (sep : Nat) (seq : UInt8) (e : Engine) : Prop :=
  e.channel.state.isHalfOpen = false → sep = e.channel.sepTime ∧ seq = e.channel.txSeq

theorem unasked_of_up (hup : e.channel.state.isHalfOpen = false) : e.Unasked := by
  constructor <;> intro h <;> simp [h, ChannelState.isHalfOpen] at hup

namespace Maintains
variable {new new' : List Stamped}

theorem was_up (h : Maintains new e e') (hup : e'.channel.state.isHalfOpen = false) :
    e.channel.state.isHalfOpen = false := by
  rw [← Bool.not_eq_true] at hup ⊢
  exact mt h.down hup

theorem trans (h : Maintains new e e') (h' : Maintains new' e' e'') : Maintains (new' ++ new) e e'' := by
  refine ⟨h'.unasked, fun hd => h'.down (h.down hd), fun hup => ?_⟩
  obtain ⟨hsep, hseq⟩ := h.up (h'.was_up hup)
  obtain ⟨hsep', hseq'⟩ := h'.up hup
  refine ⟨hsep'.trans hsep, ?_⟩
  rw [hseq', hseq, numbered_append, UInt8.ofNat_add, UInt8.add_assoc]

theorem counts {sep : Nat} {seq : UInt8} (h : Maintains new e e') (hc : Counts sep seq e) :
    Counts sep (seq + UInt8.ofNat (numbered new)) e' := by
  intro hup
  obtain ⟨hsep, hseq⟩ := hc (h.was_up hup)
  obtain ⟨hsep', hseq'⟩ := h.up hup
  exact ⟨hsep.trans hsep'.symm, by rw [hseq', hseq]⟩

end Maintains

/-- Unless a channel was being asked for, the data frames are spaced, as long as the channel is not asked for anew. -/
def Spaces (e e' : Engine) : Prop :=
  ∃ new, e'.log = new ++ e.log ∧ (e.Unasked →
    (∀ sep seq, Counts sep seq e → Spaced sep seq new) ∧ ((∃ s ∈ new, s.event.isSetup = true) ∨ Maintains new e e'))

namespace Spaces

theorem trans (h : Spaces e e') (h' : Spaces e' e'') : Spaces e e'' := by
  obtain ⟨new, hnew, hall⟩ := h
  obtain ⟨new', hnew', hall'⟩ := h'
  refine ⟨new' ++ new, by rw [hnew', hnew, List.append_assoc], fun hu => ?_⟩
  obtain ⟨hspaced, hnext⟩ := hall hu
  rcases hnext with ⟨s, hs, hsetup⟩ | hm
  · refine ⟨fun sep seq hc => (hspaced sep seq hc).append fun hno => ?_, .inl ⟨s, by simp [hs], hsetup⟩⟩
    rw [hno s hs] at hsetup
    cases hsetup
  · obtain ⟨hspaced', hnext'⟩ := hall' hm.unasked
    refine ⟨fun sep seq hc => (hspaced sep seq hc).append fun _ => hspaced' _ _ (hm.counts hc), ?_⟩
    rcases hnext' with ⟨s, hs, hsetup⟩ | hm'
    · exact .inl ⟨s, by simp [hs], hsetup⟩
    · exact .inr (hm.trans hm')

/-- No frame takes a number. -/
theorem of_unnumbered (hl : Adds (·.isNumbered = false) e e')
    (h : e.Unasked → Shows (·.isSetup = true) e e' ∨ e'.Unasked ∧
      (e.channel.state.isHalfOpen = true → e'.channel.state.isHalfOpen = true) ∧
      (e'.channel.state.isHalfOpen = false → e'.channel.sepTime = e.channel.sepTime ∧
        e'.channel.txSeq = e.channel.txSeq)) : Spaces e e' := by
  obtain ⟨new, hnew, hno⟩ := hl
  have hzero : numbered new = 0 := by
    rw [numbered, List.countP_eq_zero]
    exact fun s hs => by simp [hno s hs]
  refine ⟨new, hnew, fun hu => ⟨fun sep seq _ => .of_not_goesOn fun s hs => ?_, ?_⟩⟩
  · exact Bool.eq_false_iff.2 fun hgo => by simpa [hno s hs] using Event.isNumbered_of_goesOn hgo
  · rcases h hu with ⟨new', hnew', s, hs, hsetup⟩ | ⟨hu', hd, hup⟩
    · rw [← List.append_cancel_right (hnew.symm.trans hnew')] at hs
      exact .inl ⟨s, hs, hsetup⟩
    · refine .inr ⟨hu', hd, fun h' => ?_⟩
      rw [hzero]
      exact ⟨(hup h').1, (hup h').2.trans (UInt8.add_zero _).symm⟩

/-- The channel stays as it is. -/
theorem of_channel (hl : Adds (·.isNumbered = false) e e') (hc : e'.channel = e.channel) : Spaces e e' := by
  refine .of_unnumbered hl fun hu => .inr ⟨?_, ?_, ?_⟩
  · unfold Unasked
    rw [hc]
    exact hu
  · rw [hc]
    exact id
  · rw [hc]
    exact fun _ => ⟨rfl, rfl⟩

theorem of_eq (hl : e'.log = e.log) (hc : e'.channel = e.channel) : Spaces e e' := of_channel (.of_log hl) hc

theorem refl (e : Engine) : Spaces e e := of_eq rfl rfl

theorem of_note {s : Stamped} (hl : e'.log = s :: e.log) (hs : s.event.isNumbered = false)
    (hc : e'.channel = e.channel) : Spaces e e' :=
  of_channel ⟨[s], hl, List.forall_mem_singleton.2 hs⟩ hc

theorem delivers (h : Delivers e e') : Spaces e e' :=
  of_channel (h.log.mono fun _ => Event.IsReport.isNumbered) h.channel

/-- The channel is closed, or being closed. -/
theorem of_down (hl : Adds (·.isNumbered = false) e e')
    (hs : e'.channel.state = .closed ∨ e'.channel.state = .closing) : Spaces e e' := by
  refine .of_unnumbered hl fun _ => .inr ⟨?_, fun _ => ?_, fun h => ?_⟩
  · rcases hs with hs | hs <;> simp [Unasked, hs]
  · rcases hs with hs | hs <;> simp [ChannelState.isHalfOpen, hs]
  · rcases hs with hs | hs <;> simp [ChannelState.isHalfOpen, hs] at h

/-- The channel moves on, but stays fit for data. -/
theorem of_up (hl : Adds (·.isNumbered = false) e e') (hs : e'.channel.state.isHalfOpen = false)
    (hsep : e'.channel.sepTime = e.channel.sepTime) (hseq : e'.channel.txSeq = e.channel.txSeq)
    (hup : e.channel.state.isHalfOpen = false) : Spaces e e' := by
  refine .of_unnumbered hl fun _ => .inr ⟨unasked_of_up hs, fun hd => ?_, fun _ => ⟨hsep, hseq⟩⟩
  rw [hup] at hd
  cases hd

theorem of_paces {new : List Stamped} (h : Paces new e e') (hs : e'.channel.state.isHalfOpen = false)
    (hup : e.channel.state.isHalfOpen = false) : Spaces e e' := by
  refine ⟨new, h.log, fun _ => ⟨fun sep seq hc => ?_, .inr ⟨unasked_of_up hs, fun hd => ?_, fun _ => ?_⟩⟩⟩
  · obtain ⟨rfl, rfl⟩ := hc hup
    exact h.spaced
  · rw [hup] at hd
    cases hd
  · exact ⟨h.sepTime, h.txSeq⟩

/-- A channel or its parameters are being asked for. -/
theorem of_asked (hg : e.log <:+ e'.log) (ha : ¬ e.Unasked) : Spaces e e' := by
  obtain ⟨new, hnew⟩ := hg
  exact ⟨new, hnew.symm, fun hu => absurd hu ha⟩

theorem transmit (h : Spaces e e') {kind : FrameKind}
    (hk : ∀ frame accepted, (Event.wrote kind frame accepted).isNumbered = false) (frame : Frame) :
    Spaces e (e'.transmit kind frame) := by
  refine h.trans ?_
  rw [transmit_eq]
  exact of_note rfl (hk ..) rfl

/-! #### The channel -/

theorem requestSetup (e : Engine) : Spaces e e.requestSetup := by
  unfold Engine.requestSetup
  cases e.job.entry with
  | none => exact refl e
  | some entry =>
    dsimp only
    split
    · exact refl e
    · have hlog := log_expectOnChannel { e with channel := e.channel.request entry.tx entry.rx }
      rw [transmit_eq]
      generalize expectOnChannel _ = e₁ at hlog ⊢
      have hnew {s : Stamped} : s :: e₁.log = [s] ++ e.log := by rw [hlog]; rfl
      exact .of_unnumbered ⟨_, hnew, List.forall_mem_singleton.2 rfl⟩ fun _ =>
        .inl ⟨_, hnew, _, List.mem_singleton.2 rfl, rfl⟩

theorem requestClose (e : Engine) : Spaces e e.requestClose := by
  by_cases hs : e.channel.state = .closing
  · rw [show e.requestClose = e from if_pos hs]
    exact refl e
  · refine .of_down ?_ (.inr (state_requestClose e))
    unfold Engine.requestClose
    rw [if_neg hs]
    dsimp only
    rw [transmit_eq]
    exact ⟨[_], congrArg (_ :: ·) (log_expectOnChannel e), List.forall_mem_singleton.2 rfl⟩

theorem shutChannel (e : Engine) : Spaces e e.shutChannel := by
  refine .of_down (.of_log ?_) (.inl (channel_shutChannel e))
  unfold Engine.shutChannel
  split <;> rfl

theorem goIdle (hup : e.channel.state.isHalfOpen = false) : Spaces e e.goIdle := by
  unfold Engine.goIdle
  split
  · exact refl e
  · exact .of_up (.of_log rfl) rfl rfl rfl hup

theorem awaitResponse (hup : e.channel.state.isHalfOpen = false) : Spaces e e.awaitResponse := by
  unfold Engine.awaitResponse
  split
  · exact refl e
  · exact .of_up (.of_log rfl) rfl rfl rfl hup

theorem abortTransfer (hup : e.channel.state.isHalfOpen = false) : Spaces e e.abortTransfer := by
  obtain ⟨s, hs⟩ := abortTransfer_paces e
  exact of_paces hs (by rw [state_abortTransfer]; rfl) hup

theorem interrupt (hup : e.channel.state.isHalfOpen = false) : Spaces e e.interrupt := by
  unfold Engine.interrupt
  split
  · exact abortTransfer hup
  · exact (abortTransfer hup).trans (of_eq rfl rfl)
  · exact refl e

theorem halfOpen_interrupt (hup : e.channel.state.isHalfOpen = false) :
    e.interrupt.channel.state.isHalfOpen = false := by
  unfold Engine.interrupt
  split
  · rw [state_abortTransfer]
    rfl
  · show e.abortTransfer.channel.state.isHalfOpen = false
    rw [state_abortTransfer]
    rfl
  · exact hup

theorem sendBlock (hup : e.channel.state.isHalfOpen = false) : Spaces e e.sendBlock := by
  obtain ⟨new, hs⟩ := sendBlock_paces e
  refine of_paces hs ?_ hup
  unfold Engine.sendBlock
  split
  · exact hup
  · rw [channel_awaitAck]
    rfl

theorem sendRequest (hup : e.channel.state.isHalfOpen = false) : Spaces e e.sendRequest := by
  unfold Engine.sendRequest
  split
  · exact refl e
  · refine trans ?_ (sendBlock ?_)
    · exact of_eq rfl rfl
    · exact hup

theorem startVwtp (e : Engine) : Spaces e e.startVwtp := by
  cases he : e.job.entry with
  | none =>
    rw [show e.startVwtp = e by simp only [Engine.startVwtp, he]]
    exact refl e
  | some entry =>
    have htouch : Spaces e e.touchChannel := by
      refine .of_unnumbered (.of_log rfl) fun hu => .inr ⟨hu, id, fun _ => ⟨rfl, rfl⟩⟩
    have hst := startVwtp_start e he
    generalize e.startVwtp = e' at hst ⊢
    cases hst with
    | again => exact htouch.trans (requestSetup _)
    | request _ hup => exact htouch.trans ((interrupt hup).trans (sendRequest (halfOpen_interrupt hup)))
    | close => exact htouch.trans (requestClose _)
    | setup => exact htouch.trans (requestSetup _)
    | nothing => exact htouch.trans (delivers (.deliverFailure ..))

/-! #### Over ISO-TP -/

theorem sendConsecutive (e : Engine) (target : UInt32) : Spaces e (e.sendConsecutive target) := by
  unfold Engine.sendConsecutive
  dsimp only
  refine transmit ?_ (fun _ _ => rfl) _
  exact of_eq rfl rfl

theorem burst (target : UInt32) (delay count : Nat) (e : Engine) : Spaces e (Engine.burst target delay count e) := by
  induction count generalizing e with
  | zero => exact refl e
  | succ count ih =>
    have hone := sendConsecutive e target
    unfold Engine.burst
    split
    · exact refl e
    · dsimp only
      split
      · exact hone
      · refine hone.trans (trans ?_ (ih _))
        exact of_eq rfl rfl

theorem isoTpFlow (e : Engine) (id : UInt32) (command blockSize septime : UInt8) :
    Spaces e (e.isoTpFlow id command blockSize septime) := by
  have hb := burst (e.isoTpTarget id) (separationDelay septime) (e.allowedFrames blockSize) e
  unfold Engine.isoTpFlow
  split
  · exact refl e
  · split
    · exact refl e
    · exact of_eq rfl rfl
    · exact of_eq rfl rfl
    · dsimp only
      split
      · exact hb.trans (of_eq rfl rfl)
      · exact hb

theorem startIsoTp (e : Engine) : Spaces e e.startIsoTp := by
  unfold Engine.startIsoTp
  split
  · exact refl e
  · dsimp only
    refine transmit ?_ (fun _ _ => rfl) _
    refine of_eq rfl rfl

/-! #### Moves -/

theorem emit (e : Engine) {event : Event} (hev : event.isNumbered = false) : Spaces e (e.emit event) :=
  of_note rfl hev rfl

theorem refuseQueued (e : Engine) : Spaces e e.refuseQueued :=
  refuseQueued_keeps (P := Spaces e) (of_eq rfl rfl) fun e' _ h => h.trans (emit e' rfl)

theorem dispatch (e : Engine) (entry : PollEntry) : Spaces e (e.dispatch entry) := by
  have ha : Spaces e (e.assign entry) := of_note rfl rfl rfl
  unfold Engine.dispatch
  split
  · exact ha.trans (startVwtp _)
  · exact ha.trans (startIsoTp _)

theorem startSingle (e : Engine) (request : SingleRequest) : Spaces e (e.startSingle request) := by
  have hc : Spaces e (e.capture request).advance := of_note rfl rfl rfl
  unfold Engine.startSingle
  split
  · exact emit e rfl
  · dsimp only
    split
    · exact hc.trans (dispatch _ _)
    · exact hc.trans (delivers (.finishSingle ..))

theorem pollList (e : Engine) : Spaces e e.pollList := by
  have ha : Spaces e e.advance := of_eq rfl rfl
  unfold Engine.pollList
  split
  · exact ha.trans (dispatch _ _)
  · split
    · exact ha
    · exact ha.trans (emit _ rfl)
  · exact ha

theorem turn (h : Turn e e') : Spaces e e' := by
  cases h with
  | shut => exact shutChannel e
  | reopen => exact startVwtp e
  | close => exact requestClose e
  | expire => exact delivers (.expireSingle e)
  | single =>
    refine trans ?_ (startSingle _ _)
    exact of_eq rfl rfl
  | pass =>
    unfold startPass
    dsimp only
    split
    · exact of_note rfl rfl rfl
    · exact of_eq rfl rfl
  | poll => exact pollList e
  | fail =>
    have hlost : Spaces e { (if e.job.isVwtp then e.loseChannel else e) with wait := 0 } := by
      split
      · exact of_down (.of_log rfl) (.inl rfl)
      · exact of_eq rfl rfl
    exact hlost.trans (delivers (.deliverFailure ..))
  | sent => exact of_note rfl rfl rfl
  | count | grace | release | arm | take => exact of_eq rfl rfl

theorem move {stray : Prop} (h : Move stray e e') : Spaces e e' := by
  have hg := (Grows.move h).log
  have hasked (hs : e.channel.state = .setup ∨ e.channel.state = .params) : ¬ e.Unasked := fun hu =>
    hs.elim hu.1 hu.2
  have hup (hs : e.channel.state = .transmit ∨ e.channel.state = .receive) : e.channel.state.isHalfOpen = false := by
    rcases hs with hs | hs <;> rw [hs] <;> rfl
  cases h with
  | turn ht => exact turn ht
  | begin => exact emit e rfl
  | refuse => exact refuseQueued e
  | unavailable => exact delivers (.finishSingle ..)
  | reply => exact delivers (.deliverReply ..)
  | failure => exact delivers (.deliverFailure ..)
  | allow => exact (refl e).transmit (fun _ _ => rfl) _
  | flow => exact isoTpFlow e ..
  | lose => exact of_down (.of_log rfl) (.inl rfl)
  | shut => exact shutChannel e
  | close => exact requestClose e
  | assignIds hs => exact of_asked hg (hasked (.inl hs))
  | params hs => exact of_asked hg (hasked (.inl hs))
  | agree hs => exact of_asked hg (hasked (.inr hs))
  | request hs => exact of_asked hg (hasked (.inr hs))
  | setup => exact requestSetup e
  | block hs => exact sendBlock (hup (.inl hs))
  | await hs => exact awaitResponse (hup (.inl hs))
  | receive hs => exact of_up (.of_log rfl) (hup (.inr hs)) rfl rfl (hup (.inr hs))
  | abort hs => exact abortTransfer (hup (.inr hs))
  | idle hs => exact goIdle (hup hs)
  | ack => exact (refl e).transmit (fun _ _ => rfl) _
  | pong => exact (refl e).transmit (fun _ _ => rfl) _
  | refuseData =>
    unfold Engine.refuseData
    dsimp only
    refine transmit ?_ (fun _ _ => rfl) _
    exact of_unnumbered (.of_log rfl) fun hu => .inr ⟨hu, id, fun _ => ⟨rfl, rfl⟩⟩
  | reject | elapse | adjust | throttle | disarm | halt | progress | drop => exact of_eq rfl rfl

theorem moves {stray : Prop} (h : Moves stray e e') : Spaces e e' := by
  induction h with
  | refl => exact refl e
  | tail _ hm ih => exact ih.trans (move hm)

theorem turns (h : Turns e e') : Spaces e e' :=
  moves ((@Moves.refl False e).turns h)

theorem step (e : Engine) (op : Operation) : Spaces e (e.step op) := by
  cases op with
  | submit request =>
    have hq : Spaces e { e with queued := e.queued ++ [request] } := of_eq rfl rfl
    exact hq.trans (moves (@submit_moves False e request))
  | setList list defaultBus =>
    show Spaces e (e.setList list defaultBus)
    unfold setList
    split <;> exact of_eq rfl rfl
  | setState state =>
    show Spaces e (e.setState state)
    unfold setState
    dsimp only
    split <;> exact of_eq rfl rfl
  | _ => exact moves (step_moves e (by simp) (by simp) (by simp))

theorem run (e : Engine) (ops : List Operation) : Spaces e (e.run ops) := by
  induction ops generalizing e with
  | nil => exact refl e
  | cons op ops ih => exact (step e op).trans (ih _)

end Spaces

/-! ### On one channel -/

/-- The time in µs that the module needs between two data frames. -/
def negotiated (frame : Frame) : Nat := decodeTiming (frame.data.toList.getD 4 0)

theorem add_ofNat_ne_zero_iff (seq : UInt8) (n : Nat) : seq + UInt8.ofNat n ≠ 0 ↔ ¬ 256 ∣ seq.toNat + n := by
  rw [ne_eq, ← UInt8.toNat_inj, UInt8.toNat_add, UInt8.toNat_ofNat', Nat.add_mod_mod, Nat.dvd_iff_mod_eq_zero]
  rfl

/-- From the parameters on, the data frames are spaced until another channel is asked for. -/
theorem spaced_run (hr : e.Reached) {frame : Frame} (ha : e.Agrees frame) (ops : List Operation) {new : List Stamped}
    (hnew : (e.run (.frame frame :: ops)).log = new ++ e.log) : Spaced (negotiated frame) e.channel.txSeq new := by
  have hbound := hr.owned.bound (by rw [ha.state_eq]; nofun)
  obtain ⟨entry, he⟩ := Option.isSome_iff_exists.1 (hr.entry_isSome (by rw [ha.state_eq]; rfl))
  obtain ⟨sent, hsent⟩ := sendRequest_paces (e.agreed frame)
  have hstate : (e.agreed frame).sendRequest.channel.state = .transmit := state_sendRequest he
  have hrest : Spaces (e.agreed frame).sendRequest (e.run (.frame frame :: ops)) := by
    have hstep := step_frame_channel ha.bus_eq ha.onChannel hbound
    rw [channelStep_agreed ha.state_eq ha.dlc_ne ha.opcode_eq] at hstep
    refine Spaces.trans ?_ (Spaces.run _ ops)
    rw [hstep]
    exact .turns (turns_chained _ _).settle
  obtain ⟨later, hlater, hall⟩ := hrest
  have hunasked : (e.agreed frame).sendRequest.Unasked := by simp [Unasked, hstate]
  rw [hlater, hsent.log, ← List.append_assoc] at hnew
  rw [← List.append_cancel_right hnew]
  exact hsent.spaced.append fun _ => (hall hunasked).1 _ _ fun _ => ⟨hsent.sepTime.symm, hsent.txSeq.symm⟩

/-- The module of a channel answers with its parameters. From then on, and until another channel is asked for, each data
frame after which its block goes on is followed by the next one of the block. The time that the module needs has passed
between them, unless the number of the later one, counted from the beginning of the channel, is a multiple of 256. -/
theorem separated_iff (hr : e.Reached) {frame : Frame} (ha : e.Agrees frame) (ops : List Operation)
    {new later earlier : List Stamped} {s : Stamped} (hnew : (e.run (.frame frame :: ops)).log = new ++ e.log)
    (hsplit : new = later ++ s :: earlier) (hgo : s.event.goesOn = true)
    (hno : ∀ s' ∈ earlier, s'.event.isSetup = false) : ∃ rest next, later = rest ++ [next] ∧
      next.event.isData = true ∧ (negotiated frame ≤ 1000 * (next.time - s.time) ↔
        negotiated frame = 0 ∨ ¬ 256 ∣ e.channel.txSeq.toNat + numbered (s :: earlier)) := by
  obtain ⟨rest, next, hrest, hdata, hiff⟩ := spaced_run hr ha ops hnew later s earlier hsplit hgo hno
  exact ⟨rest, next, hrest, hdata, by rw [hiff, add_ofNat_ne_zero_iff]⟩

/-- A request of two data frames, on a channel whose module needs one millisecond between them. -/
theorem separated_iff_example :
    let bus : BusId := ⟨1, by decide⟩
    let write : PollEntry := ⟨0x200, 1, 0x2e, 0xf190, List.replicate 5 0, #v[1, 1, 1, 1], 1, .vwtp20⟩
    let e := (Engine.new bus "ecu" false ⟨0, 25, .strict, 0, 0⟩).run [.setList (some [write]) none, .tick true,
      .frame (EcuFrame.channel bus 0x201 [0x00, 0xd0, 0x00, 0x03, 0x40, 0x07, 0x01])]
    let accept := EcuFrame.channel bus 0x300 [0xa1, 0x0f, 0x8a, 0xff, 0x0a, 0xff]
    let log := (e.run [.frame accept]).log
    ∃ new later s earlier, (e.Agrees accept ∧ log = new ++ e.log ∧ new = later ++ s :: earlier ∧
        s.event.goesOn = true ∧ ∀ s' ∈ earlier, s'.event.isSetup = false) ∧
      ∃ rest next, later = rest ++ [next] ∧ next.event.isData = true ∧
        negotiated accept ≤ 1000 * (next.time - s.time) := by
  intro bus write e accept log
  have ha : e.Agrees accept := ⟨by decide, by decide, by decide, by decide, by decide⟩
  obtain ⟨new, hnew⟩ := (Grows.run e [.frame accept]).log
  have hlen : new.length = 4 := by
    have := congrArg List.length hnew
    rw [List.length_append] at this
    exact Nat.add_right_cancel (this.trans (by decide : _ = 4 + e.log.length))
  have hlog : new = log.take 4 := by rw [← List.take_left' hlen, hnew]
  -- the first frame; the second, and the reports that they were sent, came later
  have hfirst : (log.take 4)[3]?.any (·.event.goesOn) = true := by decide
  obtain ⟨s, hs, hgo⟩ := (Option.any_eq_true _ _).1 hfirst
  have hsplit : new = new.take 3 ++ s :: new.drop 4 := by
    rw [← hlog] at hs
    obtain ⟨hlt, rfl⟩ := List.getElem?_eq_some_iff.1 hs
    rw [← List.drop_eq_getElem_cons hlt, List.take_append_drop]
  have hearlier : new.drop 4 = [] := List.drop_of_length_le hlen.le
  have hno : ∀ s' ∈ new.drop 4, s'.event.isSetup = false := by simp [hearlier]
  have hnumber : numbered (s :: new.drop 4) = 1 := by
    simp [hearlier, numbered, Event.isNumbered_of_goesOn hgo]
  refine ⟨new, new.take 3, s, new.drop 4, ⟨ha, hnew.symm, hsplit, hgo, hno⟩, ?_⟩
  obtain ⟨rest, next, hrest, hdata, hiff⟩ :=
    separated_iff ⟨bus, "ecu", false, _, _, rfl⟩ ha [] hnew.symm hsplit hgo hno
  exact ⟨rest, next, hrest, hdata, hiff.2 (.inr (by rw [hnumber]; decide))⟩

/-- A request of 257 data frames, in two blocks. The last frame, with the number 256, comes at the same time as the one
before it in its block. -/
theorem not_separated_example :
    let bus : BusId := ⟨1, by decide⟩
    let write : PollEntry := ⟨0x200, 1, 0x2e, 0xf190, List.replicate 1790 0, #v[1, 1, 1, 1], 1, .vwtp20⟩
    let e := (Engine.new bus "ecu" false ⟨0, 25, .strict, 0, 0⟩).run [.setList (some [write]) none, .tick true,
      .frame (EcuFrame.channel bus 0x201 [0x00, 0xd0, 0x00, 0x03, 0x40, 0x07, 0x01])]
    let accept := EcuFrame.channel bus 0x300 [0xa1, 0xff, 0x8a, 0xff, 0x0a, 0xff]
    let acked := EcuFrame.channel bus 0x300 [0xbf]
    negotiated accept = 1000 ∧
      ¬ ((e.run [.frame accept, .frame acked]).log.filter (·.event.isData)).IsChain fun next s =>
        s.event.goesOn = true → negotiated accept ≤ 1000 * (next.time - s.time) := by
  decide +kernel

end Engine

end EcuPoll
