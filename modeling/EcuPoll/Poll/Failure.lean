import EcuPoll.Diag.NegativeCode
import EcuPoll.IsoTp.Segment
import EcuPoll.Poll.Entry

/-!
# Failures and single requests

`PollFailure` is the outcome of a periodic poll without a reply. A single request is checked by
`singleEntry` before it is queued and ends in data or in a `SingleError`, which has a number as its
result code.
-/

namespace EcuPoll

inductive PollFailure
  | negative (code : NegativeCode)
  | transmitFailed
  | channelClosed
deriving DecidableEq, Repr

def PollFailure.text : PollFailure → String
  | .negative code => "negative response " ++ code.text
  | .transmitFailed => "transmit failure"
  | .channelClosed => "channel closed"

/-- Why a single request cannot be sent at all. -/
inductive RequestFault
  | empty
  | noTarget
  | tooShort
  | tooLong
  | notPollable
deriving DecidableEq, Repr

def RequestFault.message : RequestFault → String
  | .empty => "empty request"
  | .noTarget => "tx id must not be 0"
  | .tooShort => "request too short for its PID"
  | .tooLong => "request too long"
  | .notPollable => "request is not pollable on this bus"

inductive SingleError
  | timeout
  | txFailure
  | negative (code : NegativeCode)
  | unavailable
  | invalidRequest (fault : RequestFault)
deriving DecidableEq, Repr

namespace SingleError

def invalidRequestMessage (reason : String) : String :=
  "Invalid request: " ++ reason

def message : SingleError → String
  | .timeout => "Timeout waiting for response"
  | .txFailure => "Transmission failed"
  | .negative code => "Negative response: " ++ code.text
  | .unavailable => "Poller unavailable"
  | .invalidRequest fault => invalidRequestMessage fault.message

/-- Negative responses have their own code, all else a number below zero. -/
def resultCode : SingleError → Int
  | .timeout | .unavailable | .invalidRequest _ => -1
  | .txFailure => -2
  | .negative code => code.byte.toNat

end SingleError

/-- The name of a result code. -/
def resultCodeName (code : Int) : String :=
  if code = 0 then "OK"
  else if code = -1 then "TIMEOUT"
  else if code = -2 then "TXFAILURE"
  else if 0 ≤ code ∧ code < 256 then
    let negative : NegativeCode := ⟨UInt8.ofNat code.toNat⟩
    negative.name?.getD ("NRC " ++ negative.hex)
  else "unknown result " ++ toString code

/-! ### Single requests -/

/-- The interval of a single request's entry, which is due at ticker 0 only. -/
def singleInterval : UInt16 := 999

/-- Two or fewer bytes as a number, high byte first. -/
def pidOfBytes (bytes : List UInt8) : UInt16 :=
  bytes.foldl (fun pid b => pid <<< 8 ||| b.toUInt16) 0

/-- The entry that asks `request` of a module: service, PID and data. -/
def singleEntry (tx rx : UInt32) (request : List UInt8) (protocol : Protocol) :
    Except RequestFault PollEntry :=
  match request with
  | [] => .error .empty
  | service :: rest =>
    let width := (PidWidth.of service).length
    if tx = 0 then .error .noTarget
    else if rest.length < width then .error .tooShort
    else if isoTpMax < request.length then .error .tooLong
    else .ok
      { tx, rx, service
        pid := pidOfBytes (rest.take width)
        payload := rest.drop width
        intervals := Vector.replicate 4 singleInterval
        bus := 0
        protocol }

end EcuPoll
