import EcuPoll.Engine.Channel
import EcuPoll.Engine.IsoTp

/-!
# Choosing the next poll

`pollSend` starts the next due poll if none is in flight; single requests go before the list.
`pollNext` chains a poll to a complete response, at once or after a delay. `settle` ends every
operation: it looks at the results of writes and starts queued single requests.
-/

namespace EcuPoll.Engine

/-- The ticket of the single request that has the bus. -/
def singleTicket (e : Engine) : Option Nat :=
  e.single.map (·.request.ticket)

/-- The entry becomes the poll in flight. -/
def assign (e : Engine) (entry : PollEntry) : Engine :=
  { e with job := e.job.start entry e.schedule.ticker, active := true }.emit
    (.dispatched entry e.schedule.ticker e.singleTicket)

/-- Hands an entry to its transport. -/
def dispatch (e : Engine) (entry : PollEntry) : Engine :=
  match entry.protocol with
  | .vwtp20 => (e.assign entry).startVwtp
  | _ => (e.assign entry).startIsoTp

theorem dispatch_vwtp {entry : PollEntry} (h : entry.protocol = .vwtp20) (e : Engine) :
    e.dispatch entry = (e.assign entry).startVwtp := by
  rw [dispatch, h]

theorem dispatch_isoTp {entry : PollEntry} (h : entry.protocol ≠ .vwtp20) (e : Engine) :
    e.dispatch entry = (e.assign entry).startIsoTp := by
  unfold dispatch
  cases hp : entry.protocol with
  | vwtp20 => exact absurd hp h
  | _ => rfl

/-- The schedule moves on behind what it hands out. -/
def advance (e : Engine) : Engine :=
  { e with schedule := e.schedule.next.2 }

/-! ### Single requests -/

/-- A single request takes the place of the periodic list and of any poll in flight. -/
def capture (e : Engine) (request : SingleRequest) : Engine :=
  { e with
    schedule := e.schedule.setList (some [request.entry]) (some e.bus)
    single := some ⟨request, [], e.schedule.snapshot⟩
    wait := 0
    job := e.job.resetMultiframe }.emit (.singleStarted request.ticket)

/-- Starts a single request. One whose caller has gone is dropped. -/
def startSingle (e : Engine) (request : SingleRequest) : Engine :=
  if request.isGone e.now then e.emit (.singleDropped request.ticket)
  else
    let e := e.capture request
    match e.schedule.next.1 with
    | .due entry => e.advance.dispatch entry
    | _ => e.advance.finishSingle (.error (.invalidRequest .notPollable))

/-- Ends a single request whose caller has gone or that waits for nothing more. -/
def expireSingle (e : Engine) : Engine :=
  match e.single with
  | none => e
  | some capture =>
    if capture.request.isGone e.now || e.wait = 0 then e.finishSingle (.error .timeout) else e

/-! ### The periodic list -/

/-- Begins the next pass if this one has ended, and reports a pass that ended with its last entry. -/
def startPass (e : Engine) : Engine :=
  let ended := !e.schedule.passComplete && e.schedule.passEnded
  let e := { e with schedule := e.schedule.startNextPass }
  if ended then e.emit (.passFinished e.bus) else e

/-- Sends the next due entry of the list, or reports that the pass is complete. -/
def pollList (e : Engine) : Engine :=
  match e.schedule.next.1 with
  | .due entry => e.advance.dispatch entry
  | .passComplete =>
    if e.schedule.passComplete then e.advance else e.advance.emit (.passFinished e.bus)
  | .empty => e.advance

/-- What a primary tick does before anything is sent: the wait counter runs down, the channel is
looked after, and a single request may expire. -/
def countDown (e : Engine) : Engine :=
  { e with wait := e.wait - 1 }.keepChannel.expireSingle

/-- Starts the next queued single request or, if there is none, the next poll of the list. Nothing is
started while a response is awaited. -/
def sendNext (e : Engine) (primary : Bool) : Engine :=
  if 0 < e.wait then e
  else
    let e := { e with active := false }
    if e.single.isSome then e
    else
      match e.queued with
      | request :: queued => { e with queued }.startSingle request
      | [] =>
        let e := if primary then e.startPass else e
        if e.paused || !e.schedule.canPoll then e else e.pollList

def pollSend (e : Engine) (primary : Bool) : Engine :=
  (if primary then e.countDown else e).sendNext primary

/-- A response is complete: the next poll follows at once or after the delay that is set. -/
def pollNext (e : Engine) : Engine :=
  let e := { e with active := false }
  if !e.mayChain then e
  else if e.between = 0 then e.pollSend false
  else { e with successDue := some (e.now + e.between) }

/-! ### Results of writes -/

/-- A frame of the poll in flight could not be sent: this ends the poll, and its channel. -/
def failTransmission (e : Engine) : Engine :=
  let e := if e.job.isVwtp then e.loseChannel else e
  { e with wait := 0 }.deliverFailure .transmitFailed

/-- Reports that a frame of the poll in flight was sent, or was not. -/
def reportSent (e : Engine) (success : Bool) : Engine :=
  let e := { e with job := { e.job with received := 0 } }
  e.emit (.sent e.job success)

/-- A frame was sent or was not. Only frames of the poll in flight count. -/
def judgeResult (e : Engine) (frame : Frame) (success : Bool) : Engine :=
  if e.wait = 0 || !e.active || frame.id != e.job.txId then e
  else
    let judged := if success then e else e.failTransmission
    if e.single.isNone then judged.reportSent success else judged

/-- Looks at the results of all writes so far. -/
def judgeResults (e : Engine) : Engine :=
  e.results.foldl (fun e r => e.judgeResult r.1 r.2) { e with results := [] }

/-- Starts queued single requests while none has the bus; a request that ends at once makes way for
the one behind it. -/
def startQueued : List SingleRequest → Engine → Engine
  | [], e => e.judgeResults
  | request :: queued, e =>
    let e := e.judgeResults
    if e.single.isSome then e else startQueued queued ({ e with queued }.startSingle request)

/-- Leaves no result unseen and no single request waiting without need. -/
def settle (e : Engine) : Engine :=
  startQueued e.queued e

end EcuPoll.Engine
