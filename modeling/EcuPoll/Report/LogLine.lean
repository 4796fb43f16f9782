import EcuPoll.Engine.Operation
import EcuPoll.Report.Log

/-!
# Lines of the log

A line has a level, a message and named fields. It is written as text or as a JSON object.
-/

namespace EcuPoll

structure LogLine where
  level : LogLevel
  message : String
  fields : List (String × String)
deriving DecidableEq, Repr

def LogEntry.line (e : LogEntry) : LogLine :=
  ⟨e.level, e.message, e.fields⟩

/-- The line about the state of an engine. -/
def Status.line (s : Status) : LogLine where
  level := .info
  message := "Poller status"
  fields :=
    [("bus", s.bus.label), ("interface", s.name), ("state", toString s.state),
      ("ticker", toString s.ticker), ("wait", toString s.wait), ("paused", toString s.paused),
      ("list", toString s.listLength), ("throttle", toString s.sequenceMax.toNat),
      ("channel", s.channel.label), ("single", toString s.singleActive)]

namespace LogLine

def text (l : LogLine) : String :=
  " ".intercalate (l.level.word :: l.message :: l.fields.map fun f => f.1 ++ "=" ++ f.2)

/-- A character within a JSON string. -/
def escape (c : Char) : String :=
  if c = '"' ∨ c = '\\' then "\\" ++ c.toString
  else if c < ' ' then
    let digits := Hex.upper 4 c.toNat
    "\\u" ++ digits
  else c.toString

def quote (s : String) : String :=
  "\"" ++ String.join (s.toList.map escape) ++ "\""

def json (l : LogLine) : String :=
  let all := ("level", l.level.word) :: ("message", l.message) :: l.fields
  "\x7b" ++ ",".intercalate (all.map fun f => quote f.1 ++ ":" ++ quote f.2) ++ "\x7d"

end LogLine

end EcuPoll
