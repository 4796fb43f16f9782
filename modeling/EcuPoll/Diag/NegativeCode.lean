import EcuPoll.Text.Hex

/-!
# Negative response codes

The code byte of a `7F` response. `table` holds the codes that the standard names; all others are
reserved or left to the manufacturer.
-/

namespace EcuPoll

/-- The code of a negative response. -/
structure NegativeCode where
  byte : UInt8
deriving DecidableEq, Repr

namespace NegativeCode

/-- The named codes, ISO 14229-1 Annex A.1. -/
def table : List (UInt8 × String) :=
  [(0x10, "generalReject"),
   (0x11, "serviceNotSupported"),
   (0x12, "subFunctionNotSupported"),
   (0x13, "incorrectMessageLengthOrInvalidFormat"),
   (0x14, "responseTooLong"),
   (0x21, "busyRepeatRequest"),
   (0x22, "conditionsNotCorrect"),
   (0x24, "requestSequenceError"),
   (0x25, "noResponseFromSubnetComponent"),
   (0x26, "failurePreventsExecutionOfRequestedAction"),
   (0x31, "requestOutOfRange"),
   (0x33, "securityAccessDenied"),
   (0x35, "invalidKey"),
   (0x36, "exceedNumberOfAttempts"),
   (0x37, "requiredTimeDelayNotExpired"),
   (0x70, "uploadDownloadNotAccepted"),
   (0x71, "transferDataSuspended"),
   (0x72, "generalProgrammingFailure"),
   (0x73, "wrongBlockSequenceCounter"),
   (0x78, "requestCorrectlyReceived-ResponsePending"),
   (0x7e, "subFunctionNotSupportedInActiveSession"),
   (0x7f, "serviceNotSupportedInActiveSession")]

def name? (c : NegativeCode) : Option String :=
  table.lookup c.byte

/-- The server is still working on the request. -/
def isPending (c : NegativeCode) : Bool :=
  c.byte == 0x78

/-- The byte as `0x` and two digits. -/
def hex (c : NegativeCode) : String :=
  "0x" ++ Hex.upper 2 c.byte.toNat

/-- The name with the byte behind it, or the byte alone. -/
def text (c : NegativeCode) : String :=
  match c.name? with
  | some name => name ++ " (" ++ c.hex ++ ")"
  | none => c.hex

end NegativeCode

end EcuPoll
