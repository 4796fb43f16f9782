import EcuPoll.IsoTp.Outbound
import EcuPoll.IsoTp.Segment
import EcuPoll.Poll.Entry
import EcuPoll.Can.Frame

/-!
# The message of a request

`PollEntry.message` is what a request for the entry says, on any transport: its header and the payload
bytes that a message has room for. `Outbound.Carries` says that an outbound buffer holds the rest of
this message; then each chunk taken from it is the next piece of the message.
-/

namespace EcuPoll

namespace PollEntry
variable (entry : PollEntry)

def message : List UInt8 :=
  encodeRequest entry.service entry.pid (entry.payload.take (payloadLimit entry.header))

theorem message_eq : entry.message = entry.header ++ entry.payload.take (payloadLimit entry.header) :=
  rfl

theorem length_header_le : entry.header.length ≤ 3 := length_requestHeader_le ..

theorem length_message : entry.message.length =
    entry.header.length + min entry.payload.length (payloadLimit entry.header) := by
  rw [message_eq, List.length_append, List.length_take, Nat.min_comm]

theorem length_message_le : entry.message.length ≤ isoTpMax := by
  have := entry.length_header_le
  rw [length_message, payloadLimit, isoTpMax]
  omega

end PollEntry

namespace Outbound
variable {entry : PollEntry} {o : Outbound}

/-- The buffer holds the payload of the entry, as far as a message has room for it. -/
structure Carries (entry : PollEntry) (o : Outbound) : Prop where
  payload : o.payload = entry.payload
  stop : o.stop = min entry.payload.length (payloadLimit entry.header)
  le : o.offset ≤ o.stop

namespace Carries

theorem load (entry : PollEntry) (sent : Nat) :
    (Outbound.load entry.payload sent (payloadLimit entry.header)).Carries entry :=
  ⟨rfl, rfl, Nat.min_le_right ..⟩

theorem inBounds (h : o.Carries entry) : o.InBounds :=
  ⟨h.le, by rw [h.stop, h.payload]; exact Nat.min_le_left ..⟩

theorem advance (h : o.Carries entry) (room : Nat) : (o.advance room).Carries entry :=
  ⟨h.payload, h.stop, (h.inBounds.advance room).1⟩

theorem countFrame (h : o.Carries entry) : o.countFrame.Carries entry := ⟨h.payload, h.stop, h.le⟩

theorem clear (h : o.Carries entry) : o.clear.Carries entry := ⟨h.payload, h.stop, Nat.le_refl _⟩

theorem remaining (h : o.Carries entry) :
    o.remaining = entry.message.length - (entry.header.length + o.offset) := by
  rw [entry.length_message, ← h.stop, Outbound.remaining]
  omega

/-- A chunk is the piece of the message that follows what has been sent. -/
theorem chunk (h : o.Carries entry) (room : Nat) :
    o.chunk room = (entry.message.drop (entry.header.length + o.offset)).take room := by
  rw [entry.message_eq, List.drop_append, Nat.add_sub_cancel_left,
    List.drop_eq_nil_of_le (Nat.le_add_right ..), List.nil_append, List.drop_take, List.take_take,
    Outbound.chunk, h.payload, List.take_eq_take_iff, List.length_drop, Outbound.remaining, h.stop]
  omega

end Carries

end Outbound

end EcuPoll
