/-!
# Services and request headers

A request is a service byte, the PID and data. The PID is the part of the parameters that every valid
response repeats, so its width depends on the service. `encodeRequest` writes a request; its header
is the request without data.
-/

namespace EcuPoll

/-- The width of the PID that a service's responses repeat. -/
inductive PidWidth
  | none
  | byte
  | word
deriving DecidableEq, Repr

namespace PidWidth

/-- Services whose responses repeat two bytes: reading, scaling, writing and controlling data by
identifier, and oxygen sensor tests. -/
def wordServices : List UInt8 := [0x22, 0x24, 0x2e, 0x2f, 0x05]

/-- Services whose responses repeat nothing: clearing trouble codes, reading memory and the trouble
code reports without a selector. -/
def bareServices : List UInt8 := [0x04, 0x14, 0x23, 0x03, 0x07, 0x0a, 0x18]

def of (service : UInt8) : PidWidth :=
  if service ∈ wordServices then .word
  else if service ∈ bareServices then .none
  else .byte

def length : PidWidth → Nat
  | .none => 0
  | .byte => 1
  | .word => 2

/-- The PID on the wire, high byte first. -/
def encode (pid : UInt16) : PidWidth → List UInt8
  | .none => []
  | .byte => [pid.toUInt8]
  | .word => [(pid >>> 8).toUInt8, pid.toUInt8]

/-- The PID written over the start of `buffer`. -/
def overwrite (w : PidWidth) (pid : UInt16) (buffer : List UInt8) : List UInt8 :=
  w.encode pid ++ buffer.drop w.length

theorem length_encode (w : PidWidth) (pid : UInt16) : (w.encode pid).length = w.length := by
  cases w <;> rfl

theorem length_le_two (w : PidWidth) : w.length ≤ 2 := by
  cases w <;> decide

end PidWidth

/-- The bytes of a request before its data. -/
def requestHeader (service : UInt8) (pid : UInt16) : List UInt8 :=
  service :: (PidWidth.of service).encode pid

def encodeRequest (service : UInt8) (pid : UInt16) (data : List UInt8) : List UInt8 :=
  requestHeader service pid ++ data

theorem length_requestHeader (service : UInt8) (pid : UInt16) :
    (requestHeader service pid).length = 1 + (PidWidth.of service).length := by
  simp [requestHeader, PidWidth.length_encode]; omega

theorem length_requestHeader_le (service : UInt8) (pid : UInt16) :
    (requestHeader service pid).length ≤ 3 := by
  have := (PidWidth.of service).length_le_two
  rw [length_requestHeader]; omega

end EcuPoll
