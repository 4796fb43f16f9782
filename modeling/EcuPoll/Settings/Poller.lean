import EcuPoll.Engine.Operation
import EcuPoll.Settings.Error

/-!
# Settings of the poller

Timing and throttling of all engines and the size of the command queue, with their defaults.
-/

namespace EcuPoll

structure PollerSettings where
  /-- The period of the timer in ms, zero for no timer. -/
  tickMs : Nat := 1000
  /-- Every tick of this many is primary; 0 and 1 make all of them primary. -/
  secondaryTicks : UInt8 := 0
  /-- Polls in one tick, zero for any number. -/
  sequenceMax : UInt8 := 1
  /-- The separation time asked of others. -/
  septime : UInt8 := 25
  /-- How long an unused channel stays open, in seconds, zero for ever. -/
  keepaliveSecs : UInt16 := 60
  /-- The delay in ms between a response and the poll chained to it. -/
  betweenMs : UInt16 := 0
  /-- How long a single request waits for its response if it does not say, in ms. -/
  singleTimeoutMs : Nat := 3000
  policy : SequencePolicy := .lenient
  commandQueue : Nat := 64
deriving DecidableEq, Repr

namespace PollerSettings

def checkSeptime (septime : UInt8) : Except SettingFault Unit :=
  if isSeptime septime then .ok () else .error (.septime septime)

/-- The separation time is judged before the queue. -/
def validate (s : PollerSettings) : Except SettingFault Unit := do
  checkSeptime s.septime
  if s.commandQueue = 0 then .error .emptyQueue

/-- The period of the timer in ms, if there is one. -/
def tickPeriod (s : PollerSettings) : Option Nat :=
  if s.tickMs = 0 then none else some s.tickMs

def engine (s : PollerSettings) : EngineSettings where
  sequenceMax := s.sequenceMax
  septime := s.septime
  policy := s.policy
  keepalive := s.keepaliveSecs.toNat * 1000
  between := s.betweenMs.toNat

end PollerSettings

end EcuPoll
