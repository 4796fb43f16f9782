import EcuPoll.CommandLine.Run
import EcuPoll.Report.LogLine

/-!
# The program

`request` sends one request and prints the response. Without it the program polls for ever and logs the
responses. It ends with 0 after a response, 1 after a failure and 2 if it does not understand its
arguments.
-/

namespace EcuPoll

def usage : String :=
  "Usage: [-c PATH] [-v] [--json] [--status-interval N] " ++
    "[request [-b BUS] [-p PROTOCOL] [-t MS] TX RX HEX]"

/-- The text of a file, if it can be read. -/
def readFile? (path : String) : IO (Option String) := do
  try return some (← IO.FS.readFile path)
  catch _ => return none

def printLine (i : Invocation) (line : LogLine) : IO Unit :=
  if line.level ≠ .debug ∨ i.verbose then IO.println (if i.json then line.json else line.text)
  else pure ()

def printStatus (i : Invocation) (p : Poller) : IO Poller := do
  let (status, p) := p.status
  if let .ok all := status then all.forM fun s => printLine i s.line
  return p

/-- The poller sleeps this many ms between two looks at the clock. -/
def pollStep : Nat := 100

/-- Polls on; the status is due in `left` ms. -/
partial def pollOn (i : Invocation) (log : ResponseLog) (left : Nat) (p : Poller) : IO Unit := do
  IO.sleep pollStep.toUInt32
  let (events, _, p) := (p.advance pollStep).take
  let (entries, log) := log.recordAll (events.map (·.event))
  entries.forM fun e => printLine i e.line
  if 0 < i.statusInterval ∧ left ≤ pollStep then
    pollOn i log (i.statusInterval * 1000) (← printStatus i p)
  else pollOn i log (left - pollStep) p

def fail (failure : RunFailure) : IO UInt32 := do
  IO.eprint failure.report
  return 1

end EcuPoll

open EcuPoll in
def main (args : List String) : IO UInt32 := do
  match Invocation.ofArgs? args with
  | none =>
    IO.eprintln usage
    return 2
  | some i =>
    let file ← match i.config with
      | some path => readFile? path
      | none => pure none
    match i.request with
    | some request =>
      match i.run request file with
      | .ok response =>
        IO.print (responseLine response)
        return 0
      | .error failure => fail failure
    | none =>
      match i.start file with
      | .ok p =>
        pollOn i .empty (i.statusInterval * 1000) (← printStatus i p)
        return 0
      | .error failure => fail failure
