import EcuPoll.Engine.Channel
import EcuPoll.Proofs.Poll.Message

/-!
# Data frames of a request

A request goes over a channel as its length and its message, in pieces of seven bytes. `OnGrid` says
that the rest of a request begins where a piece begins; every data frame takes the next piece and
keeps that.
-/

namespace EcuPoll

/-- What a request over a channel says: the length of its message, and the message. -/
def PollEntry.channelMessage (entry : PollEntry) : List UInt8 :=
  [UInt8.ofNat (entry.message.length / 256), UInt8.ofNat entry.message.length] ++ entry.message

theorem leadByte_cut (bus : BusId) (id : UInt32) (extended : Bool) (b : UInt8) (bytes : List UInt8) :
    Frame.leadByte (Frame.cut bus id extended (b :: bytes)).data = b := by
  simp [Frame.leadByte, Frame.cut, Frame.fill]

namespace Outbound
variable {entry : PollEntry} {o : Outbound}

/-- The rest of the request begins where the piece of the next data frame begins. -/
structure OnGrid (entry : PollEntry) (o : Outbound) : Prop where
  fresh : o.frame = 0 → o.offset = 0
  grid : o.frame ≠ 0 → 0 < o.remaining → 2 + entry.header.length + o.offset = 7 * o.frame.toNat

theorem OnGrid.load (entry : PollEntry) (limit : Nat) :
    (Outbound.load entry.payload 0 limit).OnGrid entry :=
  ⟨fun _ => Nat.zero_min _, fun h => absurd rfl h⟩

/-- Once a data frame has been sent, giving up the rest leaves nothing that could be off the grid. -/
theorem OnGrid.clear (h : o.frame ≠ 0) : o.clear.OnGrid entry :=
  ⟨fun h0 => absurd h0 h, fun _ hrem => by simp [Outbound.clear, Outbound.remaining] at hrem⟩

theorem OnGrid.toNat_succ (h : o.OnGrid entry) (hc : o.Carries entry)
    (hmore : o.frame = 0 ∨ 0 < o.remaining) : (o.frame + 1).toNat = o.frame.toNat + 1 := by
  have hlt : o.frame.toNat < 5000 := by
    by_cases h0 : o.frame = 0
    · rw [h0]; decide
    · have hrem := hmore.resolve_left h0
      have hgrid := h.grid h0 hrem
      have hle := entry.length_message_le
      have := entry.length_header_le
      rw [hc.remaining] at hrem
      rw [isoTpMax] at hle
      omega
  have hone : (1 : UInt16).toNat = 1 := rfl
  rw [UInt16.toNat_add, hone, Nat.mod_eq_of_lt (by omega)]

end Outbound

namespace Engine
variable {entry : PollEntry} {e : Engine}

theorem length_dataLead (e : Engine) (entry : PollEntry) :
    (e.dataLead entry.header).length = if e.out.frame = 0 then 2 + entry.header.length else 0 := by
  unfold dataLead messageLead
  split
  · simp; omega
  · rfl

/-- The bytes of a data frame are the next piece of the message. -/
theorem dataLead_chunk (hc : e.out.Carries entry) (hg : e.out.OnGrid entry)
    (hmore : e.out.frame = 0 ∨ 0 < e.out.remaining) :
    e.dataLead entry.header ++ e.out.chunk (7 - (e.dataLead entry.header).length) =
      (entry.channelMessage.drop (7 * e.out.frame.toNat)).take 7 := by
  have hhead := entry.length_header_le
  rw [hc.chunk, length_dataLead]
  unfold dataLead
  by_cases h0 : e.out.frame = 0
  · simp only [if_pos h0]
    have hlen : entry.header.length + e.out.remaining = entry.message.length := by
      have := hc.remaining
      rw [hg.fresh h0] at this
      have := entry.length_message
      omega
    have hmsg : entry.message.drop entry.header.length =
        entry.payload.take (payloadLimit entry.header) := by
      rw [entry.message_eq, List.drop_left]
    have hchan : entry.channelMessage = messageLead entry.header entry.message.length ++
        entry.payload.take (payloadLimit entry.header) := by
      rw [PollEntry.channelMessage, entry.message_eq, messageLead, List.append_assoc]
    have htake : (messageLead entry.header entry.message.length).length = 2 + entry.header.length := by
      simp [messageLead]; omega
    rw [h0, hg.fresh h0, hlen, Nat.add_zero, hmsg, hchan, UInt16.toNat_zero, Nat.mul_zero,
      List.drop_zero, List.take_append, htake]
    rw [List.take_of_length_le (show (messageLead _ _).length ≤ 7 by omega)]
  · simp only [if_neg h0]
    have hgrid := hg.grid h0 (hmore.resolve_left h0)
    rw [List.nil_append, Nat.sub_zero, ← hgrid, PollEntry.channelMessage, Nat.add_assoc, Nat.add_comm 2]
    rfl

/-- After a data frame the next one takes the next piece. -/
theorem onGrid_sendFrame (left : Nat) (hc : e.out.Carries entry) (hg : e.out.OnGrid entry)
    (hmore : e.out.frame = 0 ∨ 0 < e.out.remaining) :
    (e.sendFrame entry.header left).out.Carries entry ∧
      (e.sendFrame entry.header left).out.OnGrid entry ∧
      (e.sendFrame entry.header left).out.frame ≠ 0 := by
  have hout : (e.sendFrame entry.header left).out =
      (e.out.advance (7 - (e.dataLead entry.header).length)).countFrame := by
    unfold sendFrame
    rw [transmit_eq]
  have hnext := hg.toNat_succ hc hmore
  have hhead := entry.length_header_le
  have hpos : (e.sendFrame entry.header left).out.frame ≠ 0 := by
    rw [hout]
    intro h0
    have h0 : (e.out.frame + 1).toNat = 0 := congrArg UInt16.toNat h0
    omega
  refine ⟨by rw [hout]; exact (hc.advance _).countFrame, ⟨fun h0 => absurd h0 hpos, fun _ hrem => ?_⟩, hpos⟩
  rw [hout, length_dataLead] at hrem ⊢
  have hrem : 0 < (e.out.advance (7 - if e.out.frame = 0 then 2 + entry.header.length else 0)).remaining :=
    hrem
  rw [Outbound.remaining_advance] at hrem
  show 2 + entry.header.length + (e.out.offset + min _ e.out.remaining) = 7 * (e.out.frame + 1).toNat
  rw [hnext]
  by_cases h0 : e.out.frame = 0
  · rw [if_pos h0] at hrem
    rw [if_pos h0, hg.fresh h0, h0, Nat.min_eq_left (by omega)]
    simp
    omega
  · rw [if_neg h0] at hrem
    rw [if_neg h0, Nat.min_eq_left (by omega)]
    have := hg.grid h0 (by omega)
    omega

/-- After a block its acknowledgement is awaited. -/
theorem wait_sendBlock (he : e.job.entry = some entry) : e.sendBlock.wait = 2 := by
  simp only [sendBlock, he, awaitAck]

end Engine

end EcuPoll
