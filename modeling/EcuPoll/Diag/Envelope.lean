import EcuPoll.Diag.NegativeCode
import EcuPoll.Diag.Service

/-!
# Response envelopes

The first segment of a response begins with an envelope: `7F`, the service and a code, or the
service plus `0x40` and the PID. `Envelope.ofSegment?` reads it; `answers` decides whether it belongs
to a request.
-/

namespace EcuPoll

inductive Envelope
  | negative (service : UInt8) (code : NegativeCode)
  | positive (responseType : UInt8) (pid : UInt16) (data : List UInt8)
deriving DecidableEq, Repr

namespace Envelope

/-- The response type of every negative response. -/
def negativeType : UInt8 := 0x7f

/-- A positive response has its service's type plus this. -/
def positiveOffset : UInt8 := 0x40

/-- Two bytes as a number, high byte first. -/
def word (hi lo : UInt8) : UInt16 :=
  hi.toUInt16 <<< 8 ||| lo.toUInt16

/-- The bytes before the payload of a positive response. -/
def positiveHeader (responseType : UInt8) : Nat :=
  1 + (PidWidth.of (responseType - positiveOffset)).length

/-- The PID that stands before the payload; a service without one in its responses reports
`requestPid`, so that matching compares like with like. -/
def readPid (requestPid : UInt16) : PidWidth → List UInt8 → Option UInt16
  | .none, _ => some requestPid
  | .byte, b :: _ => some b.toUInt16
  | .word, hi :: lo :: _ => some (word hi lo)
  | _, _ => none

/-- The envelope at the start of a segment; none if the segment is too short to hold it. -/
def ofSegment? (requestPid : UInt16) : List UInt8 → Option Envelope
  | [] => none
  | responseType :: rest =>
    if responseType = negativeType then
      match rest with
      | service :: code :: _ => some (.negative service ⟨code⟩)
      | _ => none
    else
      let width := PidWidth.of (responseType - positiveOffset)
      (readPid requestPid width rest).map fun pid =>
        .positive responseType pid (rest.drop width.length)

/-- The bytes of the envelope. -/
def headerLength : Envelope → Nat
  | .negative _ _ => 3
  | .positive responseType _ _ => positiveHeader responseType

/-- A positive response to this service and PID. -/
def answers (service : UInt8) (pid : UInt16) : Envelope → Bool
  | .negative _ _ => false
  | .positive responseType p _ => responseType == service + positiveOffset && p == pid

end Envelope

end EcuPoll
