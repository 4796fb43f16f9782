import EcuPoll.Proofs.IsoTp.Frames
import EcuPoll.Proofs.Poll.Message

/-!
# Messages in segments

A message begins with its `opening`: the whole message if a single frame has room for it, else its
length and its first bytes. Consecutive frames carry the rest in pieces of `stride` bytes. Reading the
frames of a request back (`Protocol.carried`) gives its message and, behind it, the padding of the last
frame.
-/

namespace EcuPoll

/-- A message that is sent in segments, and the room for protocol data in each of its frames. -/
structure Parcel where
  message : List UInt8
  room : Nat
  length_le : message.length ≤ isoTpMax
  room_bounds : 7 ≤ room ∧ room ≤ 8

namespace Parcel
variable (p : Parcel)

def FitsSingle : Prop := p.message.length < p.room

instance : Decidable p.FitsSingle := inferInstanceAs (Decidable (_ < _))

/-- The protocol data of the frame that a message begins with. -/
def opening : List UInt8 :=
  if p.FitsSingle then Segment.singleHeader p.message.length ++ p.message
  else Segment.firstHeader p.message.length ++ p.message.take (p.room - 2)

/-- The message bytes in the frame that a message begins with. -/
def openingCount : Nat :=
  if p.FitsSingle then p.message.length else p.room - 2

/-- The message bytes in a full consecutive frame. -/
def stride : Nat := p.room - 1

/-- The message bytes that the first frame and `sent` consecutive frames have room for. -/
def reach (sent : Nat) : Nat := p.openingCount + sent * p.stride

/-- The consecutive frames that the message needs. -/
def pieces : Nat :=
  (p.message.length - p.openingCount + (p.stride - 1)) / p.stride

/-- The message bytes in the consecutive frame that follows `sent` others. -/
def piece (sent : Nat) : List UInt8 :=
  (p.message.drop (p.reach sent)).take p.stride

/-- The protocol data of the consecutive frame that follows `sent` others. Its number is one more,
modulo 16. -/
def consecutive (sent : Nat) : List UInt8 :=
  ((0x20 : UInt8) ||| UInt8.ofNat ((sent + 1) % 16)) :: p.piece sent

/-- The message with padding behind it, up to `n` bytes. -/
def padded (n : Nat) : List UInt8 :=
  p.message.take n ++ List.replicate (n - p.message.length) Frame.padding

theorem stride_bounds : 6 ≤ p.stride ∧ p.stride ≤ 7 := by
  have := p.room_bounds
  unfold stride
  omega

theorem openingCount_le : p.openingCount ≤ p.message.length := by
  unfold openingCount
  by_cases hfits : p.FitsSingle
  · exact Nat.le_of_eq (if_pos hfits)
  · rw [if_neg hfits]
    have : ¬ p.message.length < p.room := hfits
    omega

theorem reach_zero : p.reach 0 = p.openingCount := by
  rw [reach, Nat.zero_mul, Nat.add_zero]

theorem reach_succ (sent : Nat) : p.reach (sent + 1) = p.reach sent + p.stride := by
  rw [reach, reach, Nat.succ_mul, Nat.add_assoc]

/-- Another consecutive frame is needed just when message bytes are left. -/
theorem lt_pieces_iff (sent : Nat) : sent < p.pieces ↔ p.reach sent < p.message.length := by
  have hstride := p.stride_bounds
  have hle := p.openingCount_le
  rw [pieces, reach, Nat.lt_div_iff_mul_lt (by omega)]
  rcases (show p.stride = 6 ∨ p.stride = 7 by omega) with h | h <;> rw [h] <;> omega

theorem length_piece (sent : Nat) :
    (p.piece sent).length = min p.stride (p.message.length - p.reach sent) := by
  rw [piece, List.length_take, List.length_drop]

theorem padded_of_le {n : Nat} (h : n ≤ p.message.length) : p.padded n = p.message.take n := by
  rw [padded, Nat.sub_eq_zero_of_le h, List.replicate_zero, List.append_nil]

theorem take_padded (n : Nat) : (p.padded n).take p.message.length = p.message.take n := by
  rcases Nat.le_total n p.message.length with h | h
  · rw [p.padded_of_le h, List.take_take, Nat.min_eq_right h]
  · rw [padded, List.take_of_length_le h, List.take_left]

theorem padded_piece {sent : Nat} (h : sent < p.pieces) :
    p.padded (p.reach sent) ++ (p.piece sent ++
      List.replicate (p.stride - (p.piece sent).length) Frame.padding) = p.padded (p.reach (sent + 1)) := by
  have hlt := (p.lt_pieces_iff sent).1 h
  have hlen := p.length_piece sent
  rw [p.padded_of_le (Nat.le_of_lt hlt), padded, reach_succ, List.take_add, List.append_assoc, hlen,
    piece]
  congr 3
  omega

/-! ### Reading the pieces -/

theorem length_opening_le : p.opening.length ≤ p.room := by
  have hroom := p.room_bounds
  unfold opening
  by_cases hfits : p.FitsSingle
  · rw [if_pos hfits]
    have : p.message.length < p.room := hfits
    simp only [Segment.singleHeader, List.length_append, List.length_singleton]
    omega
  · rw [if_neg hfits]
    simp only [Segment.firstHeader, List.length_append, List.length_cons, List.length_nil,
      List.length_take]
    omega

theorem length_consecutive_le (sent : Nat) : (p.consecutive sent).length ≤ p.room := by
  have hroom := p.room_bounds
  have hlen := p.length_piece sent
  rw [consecutive, List.length_cons]
  unfold stride at hlen
  omega

/-- What is read from a frame that begins with the opening. -/
theorem ofBytes?_opening {rest : List UInt8} (h : (p.opening ++ rest).length = p.room) :
    Segment.ofBytes? (p.opening ++ rest) = some (if p.FitsSingle then .single p.message
      else .first (UInt16.ofNat p.message.length) (p.message.take p.openingCount)) := by
  have hroom := p.room_bounds
  unfold opening openingCount at *
  by_cases hfits : p.FitsSingle
  · simp only [if_pos hfits]
    have hlt : p.message.length < p.room := hfits
    exact Segment.ofBytes?_single (by omega) rest
  · simp only [if_neg hfits]
    have hge : ¬ p.message.length < p.room := hfits
    -- a first frame is full, so that nothing follows what it carries
    rw [if_neg hfits] at h
    have hrest : rest = [] := by
      simp only [Segment.firstHeader, List.length_append, List.length_cons, List.length_nil,
        List.length_take] at h
      exact List.eq_nil_of_length_eq_zero (by omega)
    rw [hrest, List.append_nil, Segment.ofBytes?_first p.length_le, List.take_take,
      Nat.min_eq_right (by omega)]

theorem ofBytes?_consecutive (sent : Nat) (rest : List UInt8) :
    Segment.ofBytes? (p.consecutive sent ++ rest) =
      some (.consecutive (UInt8.ofNat ((sent + 1) % 16)) (p.piece sent ++ rest)) :=
  Segment.ofBytes?_consecutive (sent + 1) _

end Parcel

/-! ### Requests -/

namespace PollEntry
variable (entry : PollEntry)

theorem isoTpRoom_bounds : 7 ≤ entry.protocol.isoTpRoom ∧ entry.protocol.isoTpRoom ≤ 8 :=
  entry.protocol.isoTpRoom_bounds

def parcel : Parcel where
  message := entry.message
  room := entry.protocol.isoTpRoom
  length_le := entry.length_message_le
  room_bounds := entry.isoTpRoom_bounds

@[simp] theorem message_parcel : entry.parcel.message = entry.message := rfl

@[simp] theorem room_parcel : entry.parcel.room = entry.protocol.isoTpRoom := rfl

/-- The id that a request is sent to. -/
def target : UInt32 :=
  if entry.rx ≠ 0 then entry.tx else broadcastTx

/-- The entry asks one module, not all that listen to the broadcast id. -/
def IsOneToOne : Prop := entry.rx ≠ 0 ∧ entry.tx ≠ broadcastTx

instance : Decidable entry.IsOneToOne := inferInstanceAs (Decidable (_ ∧ _))

/-- The lowest and the highest id that may answer. -/
def responders : UInt32 × UInt32 :=
  if entry.rx ≠ 0 then (entry.rx, entry.rx) else broadcastRx

end PollEntry

/-- The message bytes of a segment, padding included. -/
def Segment.data : Segment → List UInt8
  | .single data | .first _ data | .consecutive _ data => data
  | .flow _ _ _ => []

/-- The message bytes in a frame, padding included. -/
def Protocol.carried (p : Protocol) (frame : Frame) : List UInt8 :=
  ((Segment.ofBytes? (p.isoTpData frame)).map Segment.data).getD []

namespace PollEntry
variable (entry : PollEntry)

theorem carried_opening (bus : BusId) (target : UInt32) :
    entry.protocol.carried (entry.protocol.isoTpFrame bus target entry.parcel.opening) =
      entry.parcel.padded (entry.parcel.reach 0) := by
  have hlen : entry.parcel.opening.length ≤ entry.protocol.isoTpRoom := entry.parcel.length_opening_le
  rw [entry.parcel.reach_zero, entry.parcel.padded_of_le entry.parcel.openingCount_le,
    Protocol.carried, Protocol.isoTpData_isoTpFrame _ _ _ hlen, Parcel.ofBytes?_opening]
  · unfold Parcel.openingCount
    split
    · rw [List.take_length]
      rfl
    · rfl
  · rw [List.length_append, List.length_replicate, Nat.add_sub_cancel' hlen]
    rfl

theorem carried_consecutive (bus : BusId) (target : UInt32) (sent : Nat) :
    entry.protocol.carried (entry.protocol.isoTpFrame bus target (entry.parcel.consecutive sent)) =
      entry.parcel.piece sent ++
        List.replicate (entry.parcel.stride - (entry.parcel.piece sent).length) Frame.padding := by
  have hle : (entry.parcel.consecutive sent).length ≤ entry.protocol.isoTpRoom :=
    entry.parcel.length_consecutive_le sent
  have hpad : entry.protocol.isoTpRoom - (entry.parcel.consecutive sent).length =
      entry.parcel.stride - (entry.parcel.piece sent).length := by
    rw [Parcel.consecutive, List.length_cons, Parcel.stride, Nat.sub_sub, Nat.add_comm 1]
    rfl
  rw [Protocol.carried, Protocol.isoTpData_isoTpFrame _ _ _ hle, Parcel.ofBytes?_consecutive, hpad]
  rfl

end PollEntry

namespace Engine
variable (entry : PollEntry)

theorem isoTpIds_eq (job : PollJob) : isoTpIds job entry =
    { job with sent := entry.target, low := entry.responders.1, high := entry.responders.2 } := by
  unfold isoTpIds PollEntry.target PollEntry.responders
  split <;> rfl

theorem length_message_eq : entry.header.length +
    (entry.payload.take (payloadLimit entry.header)).length = entry.message.length := by
  rw [entry.message_eq, List.length_append]

theorem isoTpOpening_eq :
    isoTpOpening entry.header (entry.payload.take (payloadLimit entry.header)) entry.protocol.isoTpRoom =
      entry.parcel.opening := by
  have hroom := entry.protocol.isoTpRoom_bounds
  have hhead := entry.length_header_le
  have hlen := length_message_eq entry
  have hsplit (n : Nat) (hn : 3 ≤ n) : entry.message.take n = entry.header ++
      (entry.payload.take (payloadLimit entry.header)).take (n - entry.header.length) := by
    rw [entry.message_eq, List.take_append, List.take_of_length_le (by omega)]
  unfold isoTpOpening Parcel.opening
  rw [hlen, entry.message_parcel, entry.room_parcel]
  dsimp only
  by_cases hfits : entry.parcel.FitsSingle
  · have hall : entry.message.take (entry.protocol.isoTpRoom - 1) = entry.message :=
      List.take_of_length_le (Nat.le_sub_one_of_lt hfits)
    have hlt : entry.message.length < entry.protocol.isoTpRoom := hfits
    rw [if_pos hfits, if_pos hlt, List.append_assoc]
    exact congrArg (_ ++ ·) ((hsplit _ (by omega)).symm.trans hall)
  · have hge : ¬ entry.message.length < entry.protocol.isoTpRoom := hfits
    rw [if_neg hfits, if_neg hge, List.append_assoc, hsplit _ (by omega)]
    rfl

theorem isoTpOpeningCount_eq :
    entry.header.length +
      isoTpOpeningCount entry.header (entry.payload.take (payloadLimit entry.header))
        entry.protocol.isoTpRoom = entry.parcel.openingCount := by
  have hroom := entry.protocol.isoTpRoom_bounds
  have hhead := entry.length_header_le
  have hlen := length_message_eq entry
  unfold isoTpOpeningCount Parcel.openingCount
  rw [hlen, entry.message_parcel, entry.room_parcel]
  dsimp only
  by_cases hfits : entry.parcel.FitsSingle
  · have hlt : entry.message.length < entry.protocol.isoTpRoom := hfits
    rw [if_pos hfits, if_pos hlt]
    omega
  · have hge : ¬ entry.message.length < entry.protocol.isoTpRoom := hfits
    rw [if_neg hfits, if_neg hge]
    omega

/-- A request begins with its opening; the buffer holds the rest of it. -/
theorem startIsoTp_eq {e : Engine} (he : e.job.entry = some entry)
    (hp : e.job.protocol = entry.protocol) : e.startIsoTp = { e with
      out := .load entry.payload (entry.parcel.openingCount - entry.header.length) (payloadLimit entry.header)
      job := { e.job with
        sent := entry.target
        low := entry.responders.1
        high := entry.responders.2
        txId := (entry.protocol.isoTpFrame e.bus entry.target entry.parcel.opening).id }.resetMultiframe
      wait := 2 }.transmit .opening
        (entry.protocol.isoTpFrame e.bus entry.target entry.parcel.opening) := by
  have hcount := isoTpOpeningCount_eq entry
  unfold startIsoTp
  rw [he]
  dsimp only [isoTpFrame, isoTpRoom]
  rw [isoTpIds_eq]
  dsimp only
  rw [hp, isoTpOpening_eq, ← hcount, Nat.add_sub_cancel_left]

end Engine

end EcuPoll
