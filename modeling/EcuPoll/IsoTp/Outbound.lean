/-!
# The rest of a request

`Outbound` holds the payload of the request in flight and how much of it has been sent. A transport
takes the next bytes for each frame until nothing remains.
-/

namespace EcuPoll

structure Outbound where
  payload : List UInt8
  /-- The bytes sent so far. -/
  offset : Nat
  /-- The bytes to be sent in all. -/
  stop : Nat
  /-- The frames sent for this request, not counting one sent before the payload was loaded. -/
  frame : UInt16
deriving DecidableEq, Repr

namespace Outbound

def empty : Outbound :=
  ⟨[], 0, 0, 0⟩

/-- At most `limit` bytes of `payload`, of which `sent` are gone. -/
def load (payload : List UInt8) (sent limit : Nat) : Outbound where
  payload
  offset := min sent (min payload.length limit)
  stop := min payload.length limit
  frame := 0

def remaining (o : Outbound) : Nat :=
  o.stop - o.offset

/-- The next bytes, at most `room`. -/
def chunk (o : Outbound) (room : Nat) : List UInt8 :=
  (o.payload.drop o.offset).take (min room o.remaining)

/-- The next `room` bytes are gone. -/
def advance (o : Outbound) (room : Nat) : Outbound :=
  { o with offset := o.offset + min room o.remaining }

/-- One more frame has been sent. -/
def countFrame (o : Outbound) : Outbound :=
  { o with frame := o.frame + 1 }

/-- Nothing more is to be sent. -/
def clear (o : Outbound) : Outbound :=
  { o with offset := o.stop }

/-- The place lies within the payload. -/
def InBounds (o : Outbound) : Prop :=
  o.offset ≤ o.stop ∧ o.stop ≤ o.payload.length

theorem inBounds_load (payload : List UInt8) (sent limit : Nat) :
    (load payload sent limit).InBounds := by
  simp only [InBounds, load]; omega

theorem InBounds.advance {o : Outbound} (h : o.InBounds) (room : Nat) :
    (o.advance room).InBounds := by
  simp only [InBounds, Outbound.advance, remaining] at *; omega

theorem InBounds.clear {o : Outbound} (h : o.InBounds) : o.clear.InBounds := by
  simp only [InBounds, Outbound.clear] at *; omega

theorem remaining_advance (o : Outbound) (room : Nat) :
    (o.advance room).remaining = o.remaining - room := by
  simp only [advance, remaining]; omega

theorem length_chunk {o : Outbound} (h : o.InBounds) (room : Nat) :
    (o.chunk room).length = min room o.remaining := by
  simp only [InBounds, remaining, chunk, List.length_take, List.length_drop] at *; omega

end Outbound

end EcuPoll
