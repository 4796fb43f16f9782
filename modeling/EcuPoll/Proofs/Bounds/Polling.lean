import EcuPoll.Proofs.Bounds.Requests

/-!
# Polls started with checks

The next poll is chosen and brought to its transport with the checks of `Access`: it may end a request that
is still going on, move the channel, or install the list of a single request.
-/

namespace EcuPoll.Checked
variable {e : Engine}

/-! ### Results -/

theorem inBounds_finishSingle (h : e.out.InBounds) (result : SingleResult) :
    (e.finishSingle result).out.InBounds := by
  unfold Engine.finishSingle
  split <;> exact h

theorem inBounds_deliverReply (h : e.out.InBounds) (data : List UInt8) : (e.deliverReply data).out.InBounds := by
  unfold Engine.deliverReply
  split
  · exact h
  dsimp only
  split
  · exact inBounds_finishSingle h _
  · exact h

theorem inBounds_deliverFailure (h : e.out.InBounds) (failure : PollFailure) :
    (e.deliverFailure failure).out.InBounds := by
  unfold Engine.deliverFailure
  split
  · exact h
  · exact inBounds_finishSingle h _

theorem inBounds_expireSingle (h : e.out.InBounds) : e.expireSingle.out.InBounds := by
  unfold Engine.expireSingle
  split
  · exact h
  split
  · exact inBounds_finishSingle h _
  · exact h

theorem inBounds_startPass (h : e.out.InBounds) : e.startPass.out.InBounds := by
  unfold Engine.startPass
  dsimp only
  split <;> exact h

theorem inBounds_judgeResult (h : e.out.InBounds) (frame : Frame) (success : Bool) :
    (e.judgeResult frame success).out.InBounds := by
  unfold Engine.judgeResult
  split
  · exact h
  have hjudged : (if success then e else e.failTransmission).out.InBounds := by
    split
    · exact h
    · unfold Engine.failTransmission
      refine inBounds_deliverFailure ?_ _
      split <;> exact h
  dsimp only
  split
  · exact hjudged
  · exact hjudged

theorem inBounds_judgeResults (h : e.out.InBounds) : e.judgeResults.out.InBounds := by
  unfold Engine.judgeResults
  have hstart : { e with results := [] }.out.InBounds := h
  generalize { e with results := [] } = e' at hstart
  induction e.results generalizing e' with
  | nil => exact hstart
  | cons r results ih => exact ih _ (inBounds_judgeResult hstart r.1 r.2)

/-! ### The channel -/

theorem inBounds_shutChannel (h : e.out.InBounds) : e.shutChannel.out.InBounds := by
  unfold Engine.shutChannel
  split <;> exact h

def interrupt (e : Engine) : Option Engine :=
  match e.channel.state with
  | .transmit => abortTransfer e
  | .receive => do
    let e ← abortTransfer e
    return e.pause (e.channel.sepTime * e.channel.blockSize.toNat)
  | _ => some e

def startVwtp (e : Engine) : Option Engine :=
  match e.job.entry with
  | none => some e
  | some entry =>
    let e := e.touchChannel
    if e.channel.isFor entry.tx entry.rx then
      if e.channel.state.isHalfOpen then requestSetup e else do sendRequest (← interrupt e)
    else if e.channel.isOpen then requestClose e
    else if entry.rx ≠ 0 then requestSetup e
    else some (e.deliverFailure .channelClosed)

def peerClose (e : Engine) : Option Engine := do
  let e := (← requestClose e).shutChannel
  return if e.isOnChannel then e.deliverFailure .channelClosed else e

def timeOutChannel (e : Engine) : Option Engine :=
  if 0 < e.wait then
    match e.channel.state with
    | .setup | .params => some e.shutChannel
    | .closing => if e.shutChannel.isOnChannel then startVwtp e.shutChannel else some e.shutChannel
    | _ => some e
  else if e.channel.state ≠ .closed ∧ e.channel.state ≠ .idle then requestClose e
  else some e

def closeUnused (e : Engine) : Option Engine :=
  if e.channel.state = .idle && e.wait = 0 && e.keepalive ≠ 0 &&
      e.channel.unusedFor e.now e.keepalive then requestClose e
  else some e

def keepChannel (e : Engine) : Option Engine :=
  if e.wait = 1 && e.channel.usedWithin e.now Engine.waitGrace then some { e with wait := 2 }
  else do closeUnused (← timeOutChannel e)

theorem sound_interrupt (h : e.out.InBounds) : Sound (interrupt e) e.interrupt := by
  unfold interrupt Engine.interrupt
  cases e.channel.state with
  | transmit => exact sound_abortTransfer h
  | receive => exact (sound_abortTransfer h).bind fun hin => .pure (by exact hin)
  | _ => exact .pure h

theorem sound_startVwtp (h : e.out.InBounds) : Sound (startVwtp e) e.startVwtp := by
  unfold startVwtp Engine.startVwtp
  cases e.job.entry with
  | none => exact .pure h
  | some entry =>
    have htouch : e.touchChannel.out.InBounds := h
    dsimp only
    generalize e.touchChannel = e at htouch
    refine .ite (fun _ => .ite (fun _ => sound_requestSetup htouch) fun _ => ?_) fun _ =>
      .ite (fun _ => sound_requestClose htouch) fun _ =>
        .ite (fun _ => sound_requestSetup htouch) fun _ => .pure (inBounds_deliverFailure htouch _)
    exact (sound_interrupt htouch).bind sound_sendRequest

theorem sound_peerClose (h : e.out.InBounds) : Sound (peerClose e) e.peerClose := by
  refine (sound_requestClose h).bind fun hin => .pure ?_
  have hshut := inBounds_shutChannel hin
  split
  · exact inBounds_deliverFailure hshut _
  · exact hshut

theorem sound_timeOutChannel (h : e.out.InBounds) : Sound (timeOutChannel e) e.timeOutChannel := by
  have hshut := inBounds_shutChannel h
  unfold timeOutChannel Engine.timeOutChannel
  refine .ite (fun _ => ?_) fun _ => .ite (fun _ => sound_requestClose h) fun _ => .pure h
  cases e.channel.state with
  | setup | params => exact .pure hshut
  | closing => exact .ite (fun _ => sound_startVwtp hshut) fun _ => .pure hshut
  | _ => exact .pure h

theorem sound_closeUnused (h : e.out.InBounds) : Sound (closeUnused e) e.closeUnused :=
  .ite (fun _ => sound_requestClose h) fun _ => .pure h

theorem sound_keepChannel (h : e.out.InBounds) : Sound (keepChannel e) e.keepChannel :=
  .ite (fun _ => .pure h) fun _ => (sound_timeOutChannel h).bind sound_closeUnused

/-! ### Lists -/

/-- The entries before the first terminator. -/
def trim (list : List PollEntry) : Option (List PollEntry) :=
  match list.findIdx? PollEntry.isTerminator with
  | some stop => part list 0 stop
  | none => some list

def trimmed : Option (List PollEntry) → Option (Option (List PollEntry))
  | none => some none
  | some list => do return some (← trim list)

@[simp] theorem trim_eq (list : List PollEntry) : trim list = some (trimList list) := by
  unfold trim trimList
  cases hidx : list.findIdx? PollEntry.isTerminator with
  | none =>
    have hlast := List.findIdx?_eq_none_iff_findIdx_eq.1 hidx
    simp [List.takeWhile_eq_take_findIdx_not, hlast]
  | some stop =>
    obtain ⟨hlt, rfl⟩ := List.findIdx?_eq_some_iff_findIdx_eq.1 hidx
    simp [part_zero (Nat.le_of_lt hlt), List.takeWhile_eq_take_findIdx_not]

@[simp] theorem trimmed_eq (list : Option (List PollEntry)) : trimmed list = some (list.map trimList) := by
  cases list <;> simp [trimmed]

/-! ### Choosing the next poll -/

def dispatch (e : Engine) (entry : PollEntry) : Option Engine :=
  match entry.protocol with
  | .vwtp20 => startVwtp (e.assign entry)
  | _ => startIsoTp (e.assign entry)

def capture (e : Engine) (request : SingleRequest) : Option Engine := do
  let list ← trimmed (some [request.entry])
  return { e with
    schedule := { e.schedule with list, defaultBus := some e.bus }.rewind
    single := some ⟨request, [], e.schedule.snapshot⟩
    wait := 0
    job := e.job.resetMultiframe }.emit (.singleStarted request.ticket)

def startSingle (e : Engine) (request : SingleRequest) : Option Engine :=
  if request.isGone e.now then some (e.emit (.singleDropped request.ticket))
  else do
    let e ← capture e request
    match e.schedule.next.1 with
    | .due entry => dispatch e.advance entry
    | _ => return e.advance.finishSingle (.error (.invalidRequest .notPollable))

def pollList (e : Engine) : Option Engine :=
  match e.schedule.next.1 with
  | .due entry => dispatch e.advance entry
  | .passComplete =>
    if e.schedule.passComplete then some e.advance else some (e.advance.emit (.passFinished e.bus))
  | .empty => some e.advance

def countDown (e : Engine) : Option Engine := do
  let e ← keepChannel { e with wait := e.wait - 1 }
  return e.expireSingle

def sendNext (e : Engine) (primary : Bool) : Option Engine :=
  if 0 < e.wait then some e
  else
    let e := { e with active := false }
    if e.single.isSome then some e
    else
      match e.queued with
      | request :: queued => startSingle { e with queued } request
      | [] =>
        let e := if primary then e.startPass else e
        if e.paused || !e.schedule.canPoll then some e else pollList e

def pollSend (e : Engine) (primary : Bool) : Option Engine := do
  let e ← (if primary then countDown e else some e)
  sendNext e primary

def pollNext (e : Engine) : Option Engine :=
  let e := { e with active := false }
  if !e.mayChain then some e
  else if e.between = 0 then pollSend e false
  else some { e with successDue := some (e.now + e.between) }

def startQueued : List SingleRequest → Engine → Option Engine
  | [], e => some e.judgeResults
  | request :: queued, e =>
    let e := e.judgeResults
    if e.single.isSome then some e
    else do startQueued queued (← startSingle { e with queued } request)

def settle (e : Engine) : Option Engine :=
  startQueued e.queued e

theorem sound_dispatch (h : e.out.InBounds) (entry : PollEntry) : Sound (dispatch e entry) (e.dispatch entry) := by
  have hassign : (e.assign entry).out.InBounds := h
  unfold dispatch Engine.dispatch
  cases entry.protocol with
  | vwtp20 => exact sound_startVwtp hassign
  | _ => exact sound_startIsoTp hassign

theorem sound_capture (h : e.out.InBounds) (request : SingleRequest) :
    Sound (capture e request) (e.capture request) := by
  rw [capture, trimmed_eq]
  exact .pure h

theorem sound_startSingle (h : e.out.InBounds) (request : SingleRequest) :
    Sound (startSingle e request) (e.startSingle request) := by
  unfold startSingle Engine.startSingle
  refine .ite (fun _ => .pure h) fun _ => (sound_capture h request).bind fun hin => ?_
  have hadv : (e.capture request).advance.out.InBounds := hin
  dsimp only
  cases (e.capture request).schedule.next.1 with
  | due entry => exact sound_dispatch hadv entry
  | _ => exact .pure (inBounds_finishSingle hadv _)

theorem sound_pollList (h : e.out.InBounds) : Sound (pollList e) e.pollList := by
  have hadv : e.advance.out.InBounds := h
  unfold pollList Engine.pollList
  cases e.schedule.next.1 with
  | due entry => exact sound_dispatch hadv entry
  | passComplete => exact .ite (fun _ => .pure hadv) fun _ => .pure (by exact hadv)
  | empty => exact .pure hadv

theorem sound_countDown (h : e.out.InBounds) : Sound (countDown e) e.countDown :=
  (sound_keepChannel (by exact h)).bind fun hin => .pure (inBounds_expireSingle hin)

theorem sound_sendNext (h : e.out.InBounds) (primary : Bool) :
    Sound (sendNext e primary) (e.sendNext primary) := by
  have hpass : ∀ e : Engine, e.out.InBounds → (if primary then e.startPass else e).out.InBounds := by
    intro e h
    split
    · exact inBounds_startPass h
    · exact h
  unfold sendNext Engine.sendNext
  refine .ite (fun _ => .pure h) fun _ => .ite (fun _ => .pure h) fun _ => ?_
  dsimp only
  cases e.queued with
  | cons request queued => exact sound_startSingle (by exact h) request
  | nil => exact .ite (fun _ => .pure (hpass _ h)) fun _ => sound_pollList (hpass _ h)

theorem sound_pollSend (h : e.out.InBounds) (primary : Bool) :
    Sound (pollSend e primary) (e.pollSend primary) :=
  .bind (.ite (fun _ => sound_countDown h) fun _ => .pure h) fun hin => sound_sendNext hin primary

theorem sound_pollNext (h : e.out.InBounds) : Sound (pollNext e) e.pollNext := by
  have hidle : { e with active := false }.out.InBounds := h
  exact .ite (fun _ => .pure hidle) fun _ =>
    .ite (fun _ => sound_pollSend hidle false) fun _ => .pure hidle

theorem sound_startQueued (h : e.out.InBounds) (queued : List SingleRequest) :
    Sound (startQueued queued e) (Engine.startQueued queued e) := by
  induction queued generalizing e with
  | nil => exact .pure (inBounds_judgeResults h)
  | cons request queued ih =>
    have hjudged := inBounds_judgeResults h
    exact .ite (fun _ => .pure hjudged) fun _ =>
      (sound_startSingle (by exact hjudged) request).bind fun hin => ih hin

theorem sound_settle (h : e.out.InBounds) : Sound (settle e) e.settle :=
  sound_startQueued h _

end EcuPoll.Checked
