/-!
# ISO-TP segments

The protocol data of one frame (ISO 15765-2): single, first and consecutive frames and flow control.
`Segment.ofBytes?` reads a received frame after any address byte; `Segment.header` is what is written
before the data of a frame to be sent.
-/

namespace EcuPoll

/-- The longest message, whose length has 12 bits. -/
def isoTpMax : Nat := 4095

/-- The longest payload of a message with this header. -/
def payloadLimit (header : List UInt8) : Nat :=
  isoTpMax - header.length

inductive Segment
  | single (data : List UInt8)
  | first (total : UInt16) (data : List UInt8)
  /-- The data is all that follows the index, padding included. -/
  | consecutive (index : UInt8) (data : List UInt8)
  | flow (command blockSize septime : UInt8)
deriving DecidableEq, Repr

/-- What a receiver says about the frames to come. -/
inductive FlowCommand
  | goOn
  | wait
  | abort
deriving DecidableEq, Repr

namespace FlowCommand

def ofByte? (b : UInt8) : Option FlowCommand :=
  if b = 0 then some .goOn
  else if b = 1 then some .wait
  else if b = 2 then some .abort
  else none

end FlowCommand

namespace Segment

/-- The segment in the bytes of a frame; none for an unknown type or a frame too short for it. -/
def ofBytes? : List UInt8 → Option Segment
  | [] => none
  | pci :: rest =>
    let low := pci &&& 0x0f
    match (pci >>> 4).toNat with
    | 0 => some (.single (rest.take low.toNat))
    | 1 =>
      match rest with
      | [] => none
      | lo :: data =>
        let total := low.toUInt16 <<< 8 ||| lo.toUInt16
        some (.first total (data.take total.toNat))
    | 2 => some (.consecutive low rest)
    | 3 => some (.flow low (rest.getD 0 0) (rest.getD 1 0))
    | _ => none

/-- The bytes before the data of a single frame. -/
def singleHeader (length : Nat) : List UInt8 :=
  [UInt8.ofNat length]

/-- The bytes before the data of a first frame. -/
def firstHeader (total : Nat) : List UInt8 :=
  [(0x10 : UInt8) ||| UInt8.ofNat (total / 256 % 16), UInt8.ofNat total]

/-- The byte before the data of the consecutive frame of this number. -/
def consecutiveHeader (number : UInt16) : List UInt8 :=
  [(0x20 : UInt8) ||| (number &&& 0x0f).toUInt8]

/-- Leave to send all remaining frames, this far apart. -/
def flowGoOn (septime : UInt8) : List UInt8 :=
  [0x30, 0, septime]

end Segment

/-! ### Separation times -/

/-- The delay in µs that a flow control byte asks for: up to 127 in milliseconds, from 241 on in
tenths of a millisecond, else none. -/
def separationDelay (septime : UInt8) : Nat :=
  if septime ≤ 127 then septime.toNat * 1000
  else if 241 ≤ septime then (septime.toNat - 240) * 100
  else 0

/-- A separation time that may be asked of others. -/
def isSeptime (septime : UInt8) : Bool :=
  septime ≤ 127 || (241 ≤ septime && septime ≤ 249)

end EcuPoll
