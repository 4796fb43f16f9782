import EcuPoll.Engine.Operation
import EcuPoll.Proofs.Diag.Responses
import EcuPoll.Proofs.IsoTp.Pieces

/-!
# Answers in segments

An `Answer` to a poll is a positive response and its body, short enough for one message. Its responder
sends it in frames (`Brings`), each of which has its share of the body (`payload`). `Arrives` says how
these frames come in, among much else that the poll has to ignore.
-/

namespace EcuPoll

namespace Parcel
variable (p : Parcel)

/-- The protocol data of the frame that follows `k` others. -/
def frameData : Nat → List UInt8
  | 0 => p.opening
  | k + 1 => p.consecutive k

/-- The same, if the first consecutive frame has the number `start`. -/
def numbered (start : Nat) : Nat → List UInt8
  | 0 => p.opening
  | k + 1 => ((0x20 : UInt8) ||| UInt8.ofNat ((start + k) % 16)) :: p.piece k

/-- The message bytes in the first `k` frames. -/
def taken : Nat → Nat
  | 0 => 0
  | k + 1 => min (p.reach k) p.message.length

theorem numbered_one (k : Nat) : p.numbered 1 k = p.frameData k := by
  cases k with
  | zero => rfl
  | succ k => rw [numbered, Nat.add_comm]; rfl

theorem taken_le (k : Nat) : p.taken k ≤ p.message.length := by
  cases k with
  | zero => exact Nat.zero_le _
  | succ k => exact Nat.min_le_right ..

theorem taken_le_succ (k : Nat) : p.taken k ≤ p.taken (k + 1) := by
  cases k with
  | zero => exact Nat.zero_le _
  | succ k =>
    have := p.reach_succ k
    simp only [taken]
    omega

theorem openingCount_le_taken (k : Nat) : p.openingCount ≤ p.taken (k + 1) := by
  have := p.openingCount_le
  simp only [taken, reach]
  omega

/-- A consecutive frame completes the message if it is the last that is needed, and no other does. -/
theorem taken_eq_iff {k : Nat} (hk : k ≤ p.pieces) :
    p.taken (k + 1) = p.message.length ↔ k = p.pieces := by
  have hlt := p.lt_pieces_iff k
  simp only [taken]
  omega

theorem pieces_of_fitsSingle (h : p.FitsSingle) : p.pieces = 0 := by
  have hlt := p.lt_pieces_iff 0
  rw [p.reach_zero, openingCount, if_pos h] at hlt
  omega

theorem fitsSingle_of_pieces (h : p.pieces = 0) : p.FitsSingle := by
  have hroom := p.room_bounds
  have hlt := p.lt_pieces_iff 0
  rw [p.reach_zero, openingCount] at hlt
  by_cases hfits : p.FitsSingle
  · exact hfits
  · have : ¬ p.message.length < p.room := hfits
    rw [if_neg hfits] at hlt
    omega

end Parcel

/-! ### Answers -/

namespace PollEntry
variable {entry : PollEntry}

/-- A positive response to the entry that fits into a message. -/
structure Answer (entry : PollEntry) where
  body : List UInt8
  length_le : (responseHeader entry.service entry.pid ++ body).length ≤ isoTpMax

namespace Answer
variable (a : entry.Answer)

def parcel : Parcel where
  message := responseHeader entry.service entry.pid ++ a.body
  room := entry.protocol.isoTpRoom
  length_le := a.length_le
  room_bounds := entry.isoTpRoom_bounds

/-- The frame that follows `k` others. Anything may pad it. -/
structure Brings (bus : BusId) (k : Nat) (frame : Frame) : Prop where
  bus_eq : frame.bus = bus
  sender_eq : entry.protocol.isoTpSender frame = entry.rx
  data : a.parcel.frameData k <+: entry.protocol.isoTpData frame

/-- The frame that follows `k` others, from this id. Its responder gives the first consecutive frame the number
`start`. -/
structure BringsFrom (bus : BusId) (id : UInt32) (start k : Nat) (frame : Frame) : Prop where
  bus_eq : frame.bus = bus
  sender_eq : entry.protocol.isoTpSender frame = id
  data : a.parcel.numbered start k <+: entry.protocol.isoTpData frame

/-- The body bytes in the first `k` frames. -/
def got (k : Nat) : Nat :=
  a.parcel.taken k - (responseHeader entry.service entry.pid).length

/-- The body bytes in the frame that follows `k` others. -/
def payload (k : Nat) : List UInt8 :=
  (a.body.drop (a.got k)).take (a.got (k + 1) - a.got k)

/-- The poll while the payload of the frame that follows `k` others is handed on. -/
def handing (k : Nat) (job : PollJob) : PollJob :=
  { job with received := entry.rx, mlRemain := UInt16.ofNat (a.body.length - a.got (k + 1)) }

variable {a} in
theorem Brings.bringsFrom {bus : BusId} {k : Nat} {frame : Frame} (h : a.Brings bus k frame) :
    a.BringsFrom bus entry.rx 1 k frame :=
  ⟨h.bus_eq, h.sender_eq, by rw [a.parcel.numbered_one]; exact h.data⟩

theorem length_message : a.parcel.message.length =
    (responseHeader entry.service entry.pid).length + a.body.length := List.length_append

theorem length_body_le : a.body.length ≤ isoTpMax := by
  have := a.length_le
  rw [List.length_append] at this
  omega

theorem got_le_succ (k : Nat) : a.got k ≤ a.got (k + 1) :=
  Nat.sub_le_sub_right (a.parcel.taken_le_succ k) _

theorem got_le (k : Nat) : a.got k ≤ a.body.length := by
  have := a.parcel.taken_le k
  rw [a.length_message] at this
  unfold got
  omega

theorem length_payload (k : Nat) : (a.payload k).length = a.got (k + 1) - a.got k := by
  have := a.got_le (k + 1)
  rw [payload, List.length_take, List.length_drop]
  omega

theorem take_got (k : Nat) : a.body.take (a.got (k + 1)) = a.body.take (a.got k) ++ a.payload k := by
  rw [payload, ← List.take_add, Nat.add_sub_cancel' (a.got_le_succ k)]

/-- The opening has room for the header of the response. -/
theorem length_header_le : (responseHeader entry.service entry.pid).length ≤ a.parcel.openingCount := by
  have hroom := a.parcel.room_bounds
  have hhead := length_responseHeader_le entry.service entry.pid
  have hlen := a.length_message
  unfold Parcel.openingCount
  split <;> omega

theorem header_add_got (k : Nat) : (responseHeader entry.service entry.pid).length + a.got (k + 1) =
    a.parcel.taken (k + 1) := by
  have := a.length_header_le
  have := a.parcel.openingCount_le_taken k
  unfold got
  omega

theorem to_come (k : Nat) :
    a.parcel.message.length - a.parcel.taken (k + 1) = a.body.length - a.got (k + 1) := by
  have := a.header_add_got k
  rw [a.length_message]
  omega

/-- The body is complete with the last frame, and not before. -/
theorem got_eq_iff {k : Nat} (hk : k ≤ a.parcel.pieces) :
    a.got (k + 1) = a.body.length ↔ k = a.parcel.pieces := by
  have := a.header_add_got k
  rw [← a.parcel.taken_eq_iff hk, a.length_message]
  omega

theorem got_ne {k : Nat} (hk : k < a.parcel.pieces) : a.got (k + 1) ≠ a.body.length :=
  mt (a.got_eq_iff (Nat.le_of_lt hk)).1 (Nat.ne_of_lt hk)

theorem take_openingCount : a.parcel.message.take a.parcel.openingCount =
    responseHeader entry.service entry.pid ++ a.payload 0 := by
  have hle := a.length_header_le
  have hcount := a.parcel.openingCount_le
  have htaken : a.parcel.taken 1 = a.parcel.openingCount := by
    simp only [Parcel.taken, a.parcel.reach_zero]
    omega
  have hgot : a.got 0 = 0 := Nat.zero_sub _
  show List.take _ (responseHeader entry.service entry.pid ++ a.body) = _
  rw [List.take_append, List.take_of_length_le hle, payload, hgot, got, htaken]
  rfl

theorem piece_eq {k : Nat} (hk : k < a.parcel.pieces) : a.parcel.piece k = a.payload (k + 1) := by
  have hlt := (a.parcel.lt_pieces_iff k).1 hk
  have hhead := a.header_add_got k
  have hnext := a.header_add_got (k + 1)
  have hsucc := a.parcel.reach_succ k
  have hlen := a.length_message
  have htaken : a.parcel.taken (k + 1) = a.parcel.reach k := Nat.min_eq_left (Nat.le_of_lt hlt)
  have htaken' : a.parcel.taken (k + 1 + 1) = min (a.parcel.reach (k + 1)) a.parcel.message.length := rfl
  have hdrop : a.parcel.message.drop (a.parcel.reach k) = a.body.drop (a.got (k + 1)) := by
    rw [← htaken, ← hhead]
    exact List.drop_length_add_append _
  rw [Parcel.piece, hdrop, payload, List.take_eq_take_iff, List.length_drop]
  omega

end Answer

end PollEntry

/-! ### What arrives -/

namespace PollEntry

/-- An answer can be told from a refusal. -/
structure Recognisable (entry : PollEntry) : Prop where
  service : entry.service ≠ 0x3f
  pid : PidFits entry.service entry.pid

/-- The entry asks one module over ISO-TP, and an answer can be told from a refusal. -/
structure Answerable (entry : PollEntry) : Prop where
  isoTp : entry.protocol ≠ .vwtp20
  oneToOne : entry.IsOneToOne
  service : entry.service ≠ 0x3f
  pid : PidFits entry.service entry.pid

theorem Answerable.recognisable {entry : PollEntry} (h : entry.Answerable) : entry.Recognisable :=
  ⟨h.service, h.pid⟩

/-- The first segment of a message neither answers the poll nor refuses it. -/
def IsForeign (entry : PollEntry) (data : List UInt8) : Prop :=
  ¬ responseHeader entry.service entry.pid <+: data ∧
    ∀ code, ¬ [Envelope.negativeType, entry.service, code] <+: data

/-- The responder has the poll wait. -/
def IsPending (entry : PollEntry) (data : List UInt8) : Prop :=
  [Envelope.negativeType, entry.service, 0x78] <+: data

/-- The frame begins a message that has nothing to say about the poll. -/
inductive IsBeside (entry : PollEntry) : Segment → Prop
  | single {data : List UInt8} (h : entry.IsForeign data ∨ entry.IsPending data) :
    IsBeside entry (.single data)
  | first {data : List UInt8} (total : UInt16) (h : entry.IsForeign data ∨ entry.IsPending data) :
    IsBeside entry (.first total data)
  | flow (command blockSize septime : UInt8) : IsBeside entry (.flow command blockSize septime)

/-- What may happen while an answer comes in, and is no part of it: secondary ticks, the time that
passes, reports that frames were sent, and frames that the poll has to ignore. -/
inductive Ignores (entry : PollEntry) (bus : BusId) : Operation → Prop
  | tick : Ignores entry bus (.tick false)
  | elapse (ms : Nat) : Ignores entry bus (.elapse ms)
  | sent (frame : Frame) : Ignores entry bus (.txComplete frame true)
  | bus {frame : Frame} (h : frame.bus ≠ bus) : Ignores entry bus (.frame frame)
  | sender {frame : Frame} (h : entry.protocol.isoTpSender frame ≠ entry.rx) :
    Ignores entry bus (.frame frame)
  | unknown {frame : Frame} (h : Segment.ofBytes? (entry.protocol.isoTpData frame) = none) :
    Ignores entry bus (.frame frame)
  | beside {frame : Frame} {segment : Segment}
    (h : Segment.ofBytes? (entry.protocol.isoTpData frame) = some segment)
    (hb : entry.IsBeside segment) : Ignores entry bus (.frame frame)

/-- The frames of the answer from number `k` on come in, in order, among what is ignored. -/
inductive Answer.Arrives {entry : PollEntry} (a : entry.Answer) (bus : BusId) :
    Nat → List Operation → Prop
  | last {k : Nat} {frame : Frame} (hk : k = a.parcel.pieces) (h : a.Brings bus k frame) :
    Arrives a bus k [.frame frame]
  | next {k : Nat} {frame : Frame} {ops : List Operation} (h : a.Brings bus k frame)
    (ht : Arrives a bus (k + 1) ops) : Arrives a bus k (.frame frame :: ops)
  | ignore {k : Nat} {op : Operation} {ops : List Operation} (h : entry.Ignores bus op)
    (ht : Arrives a bus k ops) : Arrives a bus k (op :: ops)

theorem Answer.Arrives.le_pieces {entry : PollEntry} {a : entry.Answer} {bus : BusId} {k : Nat}
    {ops : List Operation} (h : a.Arrives bus k ops) : k ≤ a.parcel.pieces := by
  induction h with
  | last hk => exact Nat.le_of_eq hk
  | next _ _ ih => omega
  | ignore _ _ ih => exact ih

end PollEntry

end EcuPoll
