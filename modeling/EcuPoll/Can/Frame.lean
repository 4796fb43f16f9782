import EcuPoll.Can.Bus
import EcuPoll.Text.Hex

/-!
# CAN frames

A classic frame holds eight data bytes, of which the length code says how many count. The code of a
received frame is whatever came in, so `payload` takes at most eight. Unused bytes of an ISO-TP frame
hold `padding`; a TP 2.0 frame is cut to its data instead.
-/

namespace EcuPoll

structure Frame where
  /-- Where the frame was received or is to be sent. -/
  bus : BusId
  id : UInt32
  /-- The identifier has 29 bits. -/
  extended : Bool
  dlc : Nat
  data : Vector UInt8 8
deriving DecidableEq, Repr

namespace Frame

/-- The filler of unused bytes. -/
def padding : UInt8 := 0x55

/-- The first eight of `bytes`, and `filler` after them. -/
def fill (filler : UInt8) (bytes : List UInt8) : Vector UInt8 8 :=
  Vector.ofFn fun i => bytes.getD i filler

/-- A frame cut to its data, of which at most eight bytes are taken. -/
def cut (bus : BusId) (id : UInt32) (extended : Bool) (bytes : List UInt8) : Frame :=
  ⟨bus, id, extended, min bytes.length 8, fill 0 bytes⟩

/-- A frame of full length, padded behind its data. -/
def padded (bus : BusId) (id : UInt32) (extended : Bool) (bytes : List UInt8) : Frame :=
  ⟨bus, id, extended, 8, fill padding bytes⟩

/-- The first of the data bytes. -/
def leadByte (data : Vector UInt8 8) : UInt8 := data[0]

/-- The data bytes that the length code covers. -/
def payload (f : Frame) : List UInt8 :=
  f.data.toList.take f.dlc

/-- The payload without the padding at its end. -/
def unpadded (f : Frame) : List UInt8 :=
  (f.payload.reverse.dropWhile (· == padding)).reverse

/-- One line of text: bus, identifier, length code and payload. -/
def text (f : Frame) : String :=
  f.bus.label ++ " " ++ Hex.upper (if f.extended then 8 else 3) f.id.toNat ++
    " [" ++ toString f.dlc ++ "] " ++ Hex.encode f.payload

theorem payload_cut (bus : BusId) (id : UInt32) (extended : Bool) (bytes : List UInt8)
    (h : bytes.length ≤ 8) : (cut bus id extended bytes).payload = bytes := by
  apply List.ext_getElem
  · simp only [payload, cut, List.length_take, Vector.length_toList]
    omega
  · intro i h1 h2
    simp [payload, cut, fill, List.getD_eq_getElem?_getD, List.getElem?_eq_getElem h2]

end Frame

/-!
### Frames of an ECU

Frames as a control unit sends them. An identifier above 11 bits makes the frame extended.
-/

namespace EcuFrame

def padded (bus : BusId) (id : UInt32) (bytes : List UInt8) : Frame :=
  Frame.padded bus id (id > 0x7ff) bytes

/-- An ISO-TP single frame. -/
def single (bus : BusId) (id : UInt32) (payload : List UInt8) : Frame :=
  padded bus id ((UInt8.ofNat payload.length &&& 0x0f) :: payload)

/-- An ISO-TP first frame that announces `total` bytes. -/
def first (bus : BusId) (id : UInt32) (total : UInt16) (payload : List UInt8) : Frame :=
  padded bus id (((0x10 : UInt8) ||| ((total >>> 8) &&& 0x0f).toUInt8) :: total.toUInt8 :: payload)

/-- An ISO-TP consecutive frame. -/
def consecutive (bus : BusId) (id : UInt32) (index : UInt8) (payload : List UInt8) : Frame :=
  padded bus id ((0x20 ||| (index &&& 0x0f)) :: payload)

/-- An ISO-TP flow control frame. -/
def flow (bus : BusId) (id : UInt32) (command blockSize septime : UInt8) : Frame :=
  padded bus id [0x30 ||| (command &&& 0x0f), blockSize, septime]

/-- A TP 2.0 frame. -/
def channel (bus : BusId) (id : UInt32) (bytes : List UInt8) : Frame :=
  Frame.cut bus id false bytes

end EcuFrame

end EcuPoll
