import EcuPoll.Can.Bus
import EcuPoll.Poll.Entry
import EcuPoll.Text.Hex

/-!
# Errors in settings

Every value that is read but cannot be used has a `SettingFault`; its message names the field. A text
that cannot be read at all is a `parse` error, without a cause.
-/

namespace EcuPoll

/-- A character as it is quoted in messages, between single quotes and escaped. The characters that
reach it are bytes of a text without blanks. -/
def quoteChar (n : Nat) : String :=
  let body :=
    if n = 0 then "\\0"
    else if n = 0x27 then "\\'"
    else if n = 0x5c then "\\\\"
    else if n < 0x20 ∨ n = 0x7f then "\\u\x7b" ++ String.ofList (Nat.toDigits 16 n) ++ "\x7d"
    else String.singleton (Char.ofNat n)
  "'" ++ body ++ "'"

def Hex.ByteFault.message : Hex.ByteFault → String
  | .oddLength => "Odd number of digits"
  | .invalidDigit byte position =>
    "Invalid character " ++ quoteChar byte ++ " at position " ++ toString position

/-- A value that cannot be used. -/
inductive SettingFault
  /-- No separation time may be asked of others with this byte. -/
  | septime (value : UInt8)
  | emptyQueue
  /-- The text is no number. -/
  | number (text : String) (fault : Hex.NumberFault)
  | noTarget
  /-- A number that does not fit a service byte. -/
  | service (text : String)
  /-- A number that does not fit a PID. -/
  | pid (text : String)
  | tooManyIntervals
  /-- The text is no byte string. -/
  | data (text : String) (fault : Hex.ByteFault)
  /-- The bus of a poll entry. -/
  | entryBus (number : Nat)
  | busRange (number : Nat)
  | busTwice (number : Nat)
  | defaultBusRange (number : Nat)
  | defaultBusMissing (number : Nat)
deriving DecidableEq, Repr

namespace SettingFault

def field : SettingFault → String
  | .septime _ => "fc_septime"
  | .emptyQueue => "command_queue"
  | .number .. => "id"
  | .noTarget => "tx_id"
  | .service _ => "service"
  | .pid _ => "pid"
  | .tooManyIntervals => "intervals"
  | .data .. => "data"
  | .entryBus _ => "bus"
  | .busRange _ | .busTwice _ => "buses.number"
  | .defaultBusRange _ | .defaultBusMissing _ => "default_bus"

def reason : SettingFault → String
  | .septime value => toString value.toNat ++ " is not a valid separation time"
  | .emptyQueue => "must be at least 1"
  | .number text fault => "'" ++ text ++ "': " ++ fault.message
  | .noTarget => "must not be 0"
  | .service text | .pid text => text
  | .tooManyIntervals => "at most " ++ toString pollStates ++ " poll states"
  | .data text fault => "'" ++ text ++ "': " ++ fault.message
  | .entryBus n => toString n
  | .busRange n | .defaultBusRange n => toString n ++ " is out of range"
  | .busTwice n => "bus " ++ toString n ++ " configured twice"
  | .defaultBusMissing n => "bus " ++ toString n ++ " is not configured"

def message (f : SettingFault) : String :=
  "Invalid value for " ++ f.field ++ ": " ++ f.reason

end SettingFault

inductive SettingsError
  /-- The text is not of the form that is expected. -/
  | parse
  | invalid (fault : SettingFault)
deriving DecidableEq, Repr

/-- What can go wrong with the poller itself. -/
inductive PollerError
  | bus (error : BusError)
  | config (fault : SettingFault)
  | notRunning
deriving DecidableEq, Repr

def PollerError.message : PollerError → String
  | .bus error => "Bus error: " ++ error.message
  | .config fault => "Configuration error: " ++ fault.message
  | .notRunning => "Poller task is not running"

end EcuPoll
