import EcuPoll.CommandLine.Item
import EcuPoll.Poll.Entry
import EcuPoll.Text.Decimal

/-!
# What the arguments ask for

`Invocation.ofArgs?` reads the arguments of the program: options of its own, and then perhaps the command
`request` with its options and three positional arguments.
-/

namespace EcuPoll

/-- The arguments of `request`. -/
structure RequestArgs where
  txId : String
  rxId : String
  /-- The bytes of the request. -/
  request : String
  bus : Nat
  protocol : Protocol
  timeoutMs : Option Nat
deriving DecidableEq, Repr

structure Invocation where
  /-- The path of the settings file. -/
  config : Option String
  verbose : Bool
  json : Bool
  /-- Seconds between two reports of the status, zero for none. -/
  statusInterval : Nat
  /-- Without a request the poll table is polled. -/
  request : Option RequestArgs
deriving DecidableEq, Repr

/-- The word for a protocol in an argument, in either case. -/
def Protocol.ofArg? (arg : String) : Option Protocol :=
  match arg.map Char.toLower with
  | "isotp" | "isotp-std" => some .isoTp
  | "isotp-extaddr" | "isotp-extadr" => some .isoTpExtAddr
  | "isotp-extframe" => some .isoTpExtFrame
  | "vwtp20" | "vwtp-20" => some .vwtp20
  | _ => none

namespace RequestArgs

open CommandLine

def command : String := "request"

def specs : List Spec :=
  [⟨"bus", 'b', true⟩, ⟨"protocol", 'p', true⟩, ⟨"timeout-ms", 't', true⟩]

def ofArgs? (args : List String) : Option RequestArgs := do
  let (items, _) ← items specs [] args
  guard (noneTwice specs items)
  match positionals items with
  | [txId, rxId, request] =>
    return {
      txId, rxId, request
      bus := ← valueD items "bus" (Decimal.integerBelow? UInt8.size) 1
      protocol := ← valueD items "protocol" Protocol.ofArg? .isoTp
      timeoutMs :=
        ← valueD items "timeout-ms" (fun v => (Decimal.naturalBelow? UInt64.size v).map some) none }
  | _ => none

end RequestArgs

namespace Invocation

open CommandLine

def specs : List Spec :=
  [⟨"config", 'c', true⟩, ⟨"verbose", 'v', false⟩, ⟨"json", none, false⟩,
    ⟨"status-interval", none, true⟩]

def ofArgs? (args : List String) : Option Invocation := do
  let (items, rest) ← items specs [RequestArgs.command] args
  guard (noneTwice specs items && (positionals items).isEmpty)
  return {
    config := ← valueD items "config" (fun v => some (some v)) none
    verbose := isGiven items "verbose"
    json := isGiven items "json"
    statusInterval := ← valueD items "status-interval" (Decimal.naturalBelow? UInt64.size) 0
    request := ← match rest with
      | [] => some none
      | _ :: args => (RequestArgs.ofArgs? args).map some }

end Invocation

end EcuPoll
