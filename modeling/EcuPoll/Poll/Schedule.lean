import EcuPoll.Poll.Entry

/-!
# The poll schedule of one bus

A cursor walks the poll list. An entry is due when its interval for the poll state divides the
ticker; `next` hands out one due entry at a time. The end of the list completes the pass, and
`startNextPass` moves the ticker on and the cursor back. A `Snapshot` keeps the place in the list
while a single request has the bus.
-/

namespace EcuPoll

/-- The ticker counts modulo this. -/
def tickerWrap : Nat := 3600

/-- What the schedule has to say when asked for a poll. -/
inductive NextPoll
  | due (entry : PollEntry)
  /-- Nothing more is due before the next pass. -/
  | passComplete
  /-- No entry of the list belongs to this bus. -/
  | empty
deriving DecidableEq, Repr

/-- The entries before the first terminator. -/
def trimList (list : List PollEntry) : List PollEntry :=
  list.takeWhile fun e => !e.isTerminator

namespace Schedule

/-- A place in a list, and the list. -/
structure Snapshot where
  list : Option (List PollEntry)
  defaultBus : Option BusId
  cursor : Nat
  ticker : Nat
  passComplete : Bool
  state : Nat
deriving DecidableEq, Repr

/-- The start of `list`. -/
def Snapshot.atStart (list : Option (List PollEntry)) (defaultBus : Option BusId) (state : Nat) :
    Snapshot where
  list := list.map trimList
  defaultBus
  cursor := 0
  ticker := 0
  passComplete := false
  state

end Schedule

structure Schedule where
  bus : BusId
  list : Option (List PollEntry)
  defaultBus : Option BusId
  /-- The entries before it have been looked at in this pass. -/
  cursor : Nat
  ticker : Nat
  passComplete : Bool
  state : Nat
  /-- Entries handed out since the last tick. -/
  sequenceCount : Nat
  /-- Entries that may be handed out in one tick, zero for any number. -/
  sequenceMax : UInt8
deriving DecidableEq, Repr

namespace Schedule

def new (bus : BusId) (sequenceMax : UInt8) : Schedule where
  bus
  list := none
  defaultBus := none
  cursor := 0
  ticker := 0
  passComplete := false
  state := 0
  sequenceCount := 0
  sequenceMax

def entries (s : Schedule) : List PollEntry :=
  s.list.getD []

def length (s : Schedule) : Nat :=
  s.entries.length

/-- Back to the start of the list. -/
def rewind (s : Schedule) : Schedule :=
  { s with cursor := 0, ticker := 0, passComplete := false, sequenceCount := 0 }

/-- Installs a list from its start. -/
def setList (s : Schedule) (list : Option (List PollEntry)) (defaultBus : Option BusId) :
    Schedule :=
  { s with list := list.map trimList, defaultBus }.rewind

/-- The nearest poll state there is. -/
def clampState (state : Nat) : Nat :=
  min state (pollStates - 1)

/-- Selects a poll state; a change restarts the list. -/
def setState (s : Schedule) (state : Nat) : Schedule :=
  if clampState state = s.state then s else { s with state := clampState state }.rewind

def setSequenceMax (s : Schedule) (sequenceMax : UInt8) : Schedule :=
  { s with sequenceMax }

def resetSequence (s : Schedule) : Schedule :=
  { s with sequenceCount := 0 }

/-- Another entry may be handed out in this tick. -/
def canPoll (s : Schedule) : Bool :=
  s.sequenceMax == 0 || s.sequenceCount < s.sequenceMax.toNat

/-- The entry is polled on this bus. -/
def isMine (s : Schedule) (e : PollEntry) : Bool :=
  e.busIn s.defaultBus == some s.bus

/-- The entry is polled on this bus and due now. -/
def isDue (s : Schedule) (e : PollEntry) : Bool :=
  s.isMine e && e.isDue s.state s.ticker

/-- Hands out the first due entry from the cursor on, with the cursor put behind it, or completes
the pass. -/
def next (s : Schedule) : NextPoll × Schedule :=
  if !s.entries.any s.isMine then (.empty, s)
  else if s.passComplete then (.passComplete, s)
  else
    let skipped := (s.entries.drop s.cursor).takeWhile fun e => !s.isDue e
    match s.entries[s.cursor + skipped.length]? with
    | some entry =>
      (.due entry, { s with
        cursor := s.cursor + skipped.length + 1
        sequenceCount := s.sequenceCount + 1 })
    | none => (.passComplete, { s with cursor := s.cursor + skipped.length, passComplete := true })

/-- The pass is over, or the cursor stands behind the last entry. -/
def passEnded (s : Schedule) : Bool :=
  s.passComplete || (0 < s.cursor && s.length ≤ s.cursor)

/-- Begins the next pass if this one has ended. -/
def startNextPass (s : Schedule) : Schedule :=
  if s.passEnded then
    { s with passComplete := false, cursor := 0, ticker := (s.ticker + 1) % tickerWrap }
  else s

def snapshot (s : Schedule) : Snapshot where
  list := s.list
  defaultBus := s.defaultBus
  cursor := s.cursor
  ticker := s.ticker
  passComplete := s.passComplete
  state := s.state

/-- Puts a list back and goes on where it stood; if the poll state has changed since, the list
restarts. -/
def restore (s : Schedule) (p : Snapshot) : Schedule :=
  if p.state = s.state then
    { s with
      list := p.list
      defaultBus := p.defaultBus
      cursor := p.cursor
      ticker := p.ticker
      passComplete := p.passComplete }
  else { s with list := p.list, defaultBus := p.defaultBus }.rewind

/-- Asks `count` times for a poll: how many entries are handed out. -/
def nextMany : Nat → Schedule → Nat × Schedule
  | 0, s => (0, s)
  | count + 1, s =>
    match s.next with
    | (.due _, s') =>
      let (due, s'') := nextMany count s'
      (due + 1, s'')
    | (_, s') => nextMany count s'

/-- The entries handed out until nothing is due, asking at most `count` times. -/
def drain : Nat → Schedule → List PollEntry × Schedule
  | 0, s => ([], s)
  | count + 1, s =>
    match s.next with
    | (.due entry, s') =>
      let (entries, s'') := drain count s'
      (entry :: entries, s'')
    | (_, s') => ([], s')

/-- The rest of this pass: what is due in it, and the schedule when nothing more is. Each entry is
handed out at most once. -/
def finishPass (s : Schedule) : List PollEntry × Schedule :=
  drain (s.length + 1) s

/-- The ticker of each of `count` passes that polls anything, and what it polls. -/
def passes : Nat → Schedule → List (Nat × List PollEntry) × Schedule
  | 0, s => ([], s)
  | count + 1, s =>
    let (entries, s') := s.finishPass
    let (later, s'') := passes count s'.startNextPass
    (if entries.isEmpty then later else (s.ticker, entries) :: later, s'')

end Schedule

end EcuPoll
