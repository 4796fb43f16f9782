import EcuPoll.Settings.Daemon
import EcuPoll.Toml.Record

/-!
# Reading settings

The keys of settings files. Everything but the ids of a poll and the kind of a bus has a default, and
unknown keys are ignored. `DaemonSettings.ofText` reads a whole file and judges it.
-/

namespace EcuPoll

/-- The words for how strictly consecutive frames are counted. -/
def SequencePolicy.ofToml? (t : Toml) : Option SequencePolicy :=
  t.choice?.bind SequencePolicy.ofWord?

def Protocol.ofToml? (t : Toml) : Option Protocol :=
  t.choice?.bind Protocol.ofWord?

namespace PollerSettings

def keys : List String :=
  ["tick_ms", "secondary_ticks", "sequence_max", "fc_septime", "channel_keepalive_secs",
    "time_between_success_ms", "single_timeout_ms", "isotp_sequence", "command_queue"]

def ofToml? (t : Toml) : Option PollerSettings := do
  let fields ← t.fields? keys
  let default : PollerSettings := {}
  return {
    tickMs := ← fields.getD "tick_ms" (·.natBelow? UInt64.size) default.tickMs
    secondaryTicks := ← fields.getD "secondary_ticks" (·.byte?) default.secondaryTicks
    sequenceMax := ← fields.getD "sequence_max" (·.byte?) default.sequenceMax
    septime := ← fields.getD "fc_septime" (·.byte?) default.septime
    keepaliveSecs := ← fields.getD "channel_keepalive_secs" (·.word16?) default.keepaliveSecs
    betweenMs := ← fields.getD "time_between_success_ms" (·.word16?) default.betweenMs
    singleTimeoutMs :=
      ← fields.getD "single_timeout_ms" (·.natBelow? UInt64.size) default.singleTimeoutMs
    policy := ← fields.getD "isotp_sequence" SequencePolicy.ofToml? default.policy
    commandQueue := ← fields.getD "command_queue" (·.natBelow? UInt64.size) default.commandQueue }

end PollerSettings

namespace PollSettings

def keys : List String :=
  ["tx_id", "rx_id", "service", "pid", "data", "intervals", "bus", "protocol"]

def ofToml? (t : Toml) : Option PollSettings := do
  let fields ← t.fields? keys
  return {
    txId := ← fields.get "tx_id" (·.text?)
    rxId := ← fields.getD "rx_id" (·.text?) "0"
    service := ← fields.get "service" (·.text?)
    pid := ← fields.getD "pid" (·.text?) "0"
    data := ← fields.getD "data" (fun t => t.text?.map some) none
    intervals := ← fields.getD "intervals" (·.list? (·.word16?)) []
    bus := ← fields.getD "bus" (·.byte?) 0
    protocol := ← fields.getD "protocol" Protocol.ofToml? .isoTp }

end PollSettings

namespace BusSettings

/-- A bus is always a table; its `type` says which other keys count. -/
def ofToml? (t : Toml) : Option BusSettings := do
  let entries ← t.entries?
  let fields : Toml.Fields := fun name => entries.lookup name
  let number ← fields.get "number" (·.byte?)
  match ← fields.get "type" (·.text?) with
  | "socketcan" => return ⟨number, .socketCan (← fields.get "interface" (·.text?))⟩
  | "mock" => return ⟨number, .mock (← fields.getD "name" (·.text?) BusKind.defaultMockName)⟩
  | _ => none

end BusSettings

namespace DaemonSettings

def keys : List String :=
  ["poller", "buses", "default_bus", "state", "polls"]

def ofToml? (t : Toml) : Option DaemonSettings := do
  let fields ← t.fields? keys
  return {
    poller := ← fields.getD "poller" PollerSettings.ofToml? {}
    buses := ← fields.getD "buses" (·.list? BusSettings.ofToml?) []
    defaultBus := ← fields.getD "default_bus" (·.byte?) 1
    state := ← fields.getD "state" (·.byte?) 0
    polls := ← fields.getD "polls" (·.list? PollSettings.ofToml?) [] }

/-- The settings in the text of a file. -/
def ofText (text : String) : Except SettingsError DaemonSettings :=
  match Toml.record? ofToml? text with
  | none => .error .parse
  | some settings =>
    match settings.validate with
    | .ok () => .ok settings
    | .error fault => .error (.invalid fault)

end DaemonSettings

end EcuPoll
