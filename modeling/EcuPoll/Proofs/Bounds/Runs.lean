import EcuPoll.Proofs.Bounds.Polling

/-!
# Runs with checks

Received frames are taken, and operations carried out, with the checks of `Access`. No check fails in any run
of an engine, whatever the lists and requests that it is given and the frames that it receives.
-/

namespace EcuPoll.Checked
variable {e : Engine}

/-! ### ISO-TP -/

theorem inBounds_deliverSegment (h : e.out.InBounds) (id : UInt32) (payload : List UInt8) (remain : UInt16) :
    (e.deliverSegment id payload remain).out.InBounds :=
  inBounds_deliverReply (by exact h) payload

def afterSegment (e : Engine) (id : UInt32) (first : Bool) (length : Nat) : Option Engine :=
  if e.job.mlRemain = 0 then
    let e := { e with wait := 0 }
    if e.job.isBroadcast then some e else pollNext e
  else do
    let e ← (if first then sendFlowControl e id else some e)
    let frame := if first then 1 else e.job.mlFrame + 1
    return { e with
      job := { e.job with mlFrame := frame, mlOffset := e.job.mlOffset + UInt16.ofNat length }
      wait := 2 }

def receiveOpening (e : Engine) (id : UInt32) (total : UInt16) (segment : List UInt8) (first : Bool) :
    Option Engine := do
  match ← judge e segment with
  | .foreign => return e
  | .refused code =>
    if code.isPending then return { e with wait := min 255 (e.wait + 1) }
    else
      let e := { e with job := { e.job with received := id }.resetMultiframe }
      afterSegment (e.deliverFailure (.negative code)) id first 0
  | .answer payload =>
    afterSegment (e.deliverSegment id payload (Engine.lessLength total segment)) id first payload.length

/-- A further segment of a response, from a frame with `max` bytes of protocol data. -/
def receiveConsecutive (e : Engine) (id : UInt32) (max : Nat) (index : UInt8) (data : List UInt8) :
    Option Engine :=
  if !e.isNumberOk index then some e.rejectResponse
  else do
    let length := min (min e.job.mlRemain.toNat (← less max 1)) data.length
    let segment ← part data 0 length
    afterSegment (e.deliverSegment id segment (Engine.lessLength e.job.mlRemain segment)) id false segment.length

def receiveIsoTp (e : Engine) (frame : Frame) (id : UInt32) : Option Engine := do
  let bytes ← rest frame.data.toList (if e.job.protocol = .isoTpExtAddr then 1 else 0)
  match ← segment bytes with
  | none => return e
  | some (.flow command blockSize septime) => isoTpFlow e id command blockSize septime
  | some (.single data) => receiveOpening e id (UInt16.ofNat data.length) data false
  | some (.first total data) => receiveOpening e id total data true
  | some (.consecutive index data) => receiveConsecutive e id bytes.length index data

theorem sound_afterSegment (h : e.out.InBounds) (id : UInt32) (first : Bool) (length : Nat) :
    Sound (afterSegment e id first length) (e.afterSegment id first length) := by
  have hdone : { e with wait := 0 }.out.InBounds := h
  refine .ite (fun _ => .ite (fun _ => .pure hdone) fun _ => sound_pollNext hdone) fun _ => ?_
  exact .bind (.ite (fun _ => sound_sendFlowControl h id) fun _ => .pure h) fun hin => .pure (by exact hin)

theorem sound_receiveOpening (h : e.out.InBounds) (id : UInt32) (total : UInt16) (segment : List UInt8)
    (first : Bool) : Sound (receiveOpening e id total segment first) (e.receiveOpening id total segment first) := by
  unfold receiveOpening Engine.receiveOpening
  rw [judge_eq, Option.bind_eq_bind, Option.bind_some]
  cases e.judge segment with
  | foreign => exact .pure h
  | refused code =>
    exact .ite (fun _ => .pure (by exact h)) fun _ =>
      sound_afterSegment (inBounds_deliverFailure (by exact h) _) ..
  | answer payload => exact sound_afterSegment (inBounds_deliverSegment h ..) ..

theorem length_consecutive {bytes data : List UInt8} {index : UInt8}
    (h : Segment.ofBytes? bytes = some (.consecutive index data)) : bytes.length = data.length + 1 := by
  cases bytes with
  | nil => cases h
  | cons pci rest =>
    unfold Segment.ofBytes? at h
    dsimp only at h
    split at h
    · cases h
    · split at h <;> cases h
    · cases h
      rfl
    · cases h
    · cases h

theorem sound_receiveConsecutive (h : e.out.InBounds) (id : UInt32) {max : Nat} (index : UInt8) {data : List UInt8}
    (hm : max = data.length + 1) :
    Sound (receiveConsecutive e id max index data) (e.receiveConsecutive id index data) := by
  have htake : data.take (min (min e.job.mlRemain.toNat data.length) data.length) =
      data.take e.job.mlRemain.toNat := by
    rw [List.take_eq_take_iff]
    omega
  have hless : less max 1 = some data.length := by
    rw [hm, less_of_le (by omega), Nat.add_sub_cancel]
  refine .ite (fun _ => .pure h) fun _ => ?_
  simp only [hless, Option.bind_eq_bind, Option.bind_some, part_zero (Nat.min_le_right ..), htake]
  exact sound_afterSegment (inBounds_deliverSegment h ..) ..

theorem rest_isoTpData (p : Protocol) (frame : Frame) :
    rest frame.data.toList (if p = .isoTpExtAddr then 1 else 0) = some (p.isoTpData frame) := by
  rw [rest_of_le (by rw [Vector.length_toList]; split <;> omega), Protocol.isoTpData, Protocol.isoTpRoom]
  split <;> rfl

theorem sound_receiveIsoTp (h : e.out.InBounds) (frame : Frame) (id : UInt32) :
    Sound (receiveIsoTp e frame id) (e.receiveIsoTp frame id) := by
  unfold receiveIsoTp Engine.receiveIsoTp
  simp only [rest_isoTpData, segment_eq, Option.bind_eq_bind, Option.bind_some]
  cases hseg : Segment.ofBytes? (e.job.protocol.isoTpData frame) with
  | none => exact .pure h
  | some segment =>
    cases segment with
    | flow => exact sound_isoTpFlow h ..
    | single => exact sound_receiveOpening h ..
    | first => exact sound_receiveOpening h ..
    | consecutive => exact sound_receiveConsecutive h _ _ (length_consecutive hseg)

/-! ### The channel -/

abbrev SoundFrame : Option (Engine.AfterFrame × Engine) → Engine.AfterFrame × Engine → Prop :=
  Passes fun r => r.2.out

/-- The computation, and what is to be done after it. -/
def followed (after : Engine.AfterFrame) (x : Option Engine) : Option (Engine.AfterFrame × Engine) := do
  return (after, ← x)

theorem Passes.followed {x : Option Engine} (h : Sound x e) (after : Engine.AfterFrame) :
    SoundFrame (followed after x) (after, e) :=
  .bind h fun hin => .pure hin

theorem inBounds_goIdle (h : e.out.InBounds) : e.goIdle.out.InBounds := by
  unfold Engine.goIdle
  split <;> exact h

theorem inBounds_afterData (h : e.out.InBounds) (length : Nat) : (e.afterData length).out.InBounds := by
  unfold Engine.afterData
  split
  · exact inBounds_goIdle h
  · exact h

theorem inBounds_awaitResponse (h : e.out.InBounds) : e.awaitResponse.out.InBounds := by
  unfold Engine.awaitResponse
  split <;> exact h

def acknowledge (e : Engine) (opcode : UInt8) : Option Engine :=
  if Opcode.high opcode ≤ DataKind.lastWantsAck.opcode then sendAck e else some e

def deliverData (e : Engine) (opcode : UInt8) (segment payload : List UInt8) : Option Engine := do
  let e ← acknowledge e opcode
  let remain := Engine.lessLength e.job.mlRemain segment
  return (e.deliverSegment e.channel.rxId payload remain).afterData payload.length

def receiveFirstData (e : Engine) (opcode : UInt8) (total : UInt16) (segment : List UInt8) :
    Option (Engine.AfterFrame × Engine) := do
  let e := { e with job := { e.job with mlRemain := total } }
  match ← judge e segment with
  | .foreign => followed .stay (abortTransfer e)
  | .answer payload => followed .chain (deliverData e opcode segment payload)
  | .refused code =>
    let e ← acknowledge e opcode
    if code.isPending then return (.stay, { e with job := e.job.resetMultiframe, wait := 2 })
    else
      let e := { e with job := { e.job with received := e.job.sent, mlRemain := 0 } }
      return (.chain, (e.deliverFailure (.negative code)).goIdle)

def receiveData (e : Engine) (opcode : UInt8) (data : List UInt8) : Option (Engine.AfterFrame × Engine) :=
  if opcode &&& 0x0f ≠ e.channel.rxSeq &&& 0x0f then followed .stay (abortTransfer e.countData)
  else if e.job.mlFrame ≠ 0 then
    followed .chain (deliverData e.countData opcode (data.drop 1) (data.drop 1))
  else
    let total := Envelope.word (data.getD 1 0 &&& 0x0f) (data.getD 2 0)
    receiveFirstData e.countData opcode total (data.drop 3)

def receiveSetup (e : Engine) (length : Nat) (d : Vector UInt8 8) : Option (Engine.AfterFrame × Engine) := do
  let opcode ← d[1]?
  if length ≠ 7 ∨ opcode < Opcode.setupAccept ∨ Opcode.setupRejectMax < opcode then some (.stay, e)
  else if opcode ≠ Opcode.setupAccept then some (.chain, e.loseChannel.deliverFailure .channelClosed)
  else
    let rxId := (Envelope.word (← d[3]?) (← d[2]?)).toUInt32
    let txId := (Envelope.word (← d[5]?) (← d[4]?)).toUInt32
    followed .chain (requestParams { e with channel := { e.channel with rxId, txId } })

def receiveParams (e : Engine) (length : Nat) (d : Vector UInt8 8) : Option (Engine.AfterFrame × Engine) :=
  if length = 0 then some (.stay, e)
  else if Frame.leadByte d = Opcode.paramsResponse then do
    let blockSize ← d[1]?
    let ackTime ← decodeTiming (← d[2]?)
    let sepTime ← decodeTiming (← d[4]?)
    followed .chain (sendRequest { e with channel := { e.channel with blockSize, ackTime, sepTime } })
  else if Frame.leadByte d = Opcode.disconnect then followed .chain (peerClose e)
  else some (.stay, e)

def receiveClosing (e : Engine) (length : Nat) (d : Vector UInt8 8) : Option (Engine.AfterFrame × Engine) :=
  if length ≠ 1 ∨ Frame.leadByte d ≠ Opcode.disconnect then some (.stay, e)
  else
    let e := e.shutChannel
    if !e.isOnChannel then some (.chain, e)
    else if e.job.entry.any (·.rx ≠ 0) then followed .chain (requestSetup e)
    else some (.chain, e.deliverFailure .channelClosed)

def receiveIdle (e : Engine) (opcode : UInt8) : Option Engine :=
  if opcode = Opcode.ping then sendPong e
  else if opcode = Opcode.disconnect then peerClose e
  else if Opcode.high opcode ≤ DataKind.last.opcode then refuseData e
  else some e

def receiveAck (e : Engine) (opcode : UInt8) : Option Engine :=
  if Opcode.high opcode = Opcode.ackReady then do
    if 0 < (← Outbound.remaining e.out) then sendBlock e else some e.awaitResponse
  else if Opcode.high opcode = Opcode.ackNotReady then do
    let _ ← Outbound.remaining e.out
    return { e with out := e.out.clear }.goIdle
  else if opcode = Opcode.ping then sendPong e
  else if opcode = Opcode.disconnect then peerClose e
  else some e

def receiveResponse (e : Engine) (opcode : UInt8) (data : List UInt8) : Option (Engine.AfterFrame × Engine) :=
  if opcode = Opcode.ping then followed .chain (sendPong e)
  else if opcode = Opcode.disconnect then followed .chain (peerClose e)
  else if opcode < 0x40 then receiveData e opcode data
  else some (.chain, e)

def channelStep (e : Engine) (frame : Frame) : Option (Engine.AfterFrame × Engine) :=
  let length := min frame.dlc 8
  let d := frame.data
  match e.channel.state with
  | .setup => receiveSetup e length d
  | .params => receiveParams e length d
  | .closing => receiveClosing e length d
  | .idle => followed .chain (receiveIdle e (Frame.leadByte d))
  | .transmit => followed .chain (receiveAck e (if length = 1 then Frame.leadByte d else 0))
  | .receive => do receiveResponse e (Frame.leadByte d) (← part d.toList 0 length)
  | .closed | .startPoll | .abort => some (.chain, e)

def receiveVwtp (e : Engine) (frame : Frame) : Option Engine :=
  if !e.channel.bound then some e
  else do
    match ← channelStep e frame with
    | (.chain, e) => if e.wait = 0 then pollNext e else return e
    | (.stay, e) => return e

theorem sound_acknowledge (h : e.out.InBounds) (opcode : UInt8) :
    Sound (acknowledge e opcode) (e.acknowledge opcode) :=
  .ite (fun _ => sound_sendAck h) fun _ => .pure h

theorem sound_deliverData (h : e.out.InBounds) (opcode : UInt8) (segment payload : List UInt8) :
    Sound (deliverData e opcode segment payload) (e.deliverData opcode segment payload) :=
  (sound_acknowledge h opcode).bind fun hin => .pure (inBounds_afterData (inBounds_deliverSegment hin ..) _)

theorem sound_receiveFirstData (h : e.out.InBounds) (opcode : UInt8) (total : UInt16) (segment : List UInt8) :
    SoundFrame (receiveFirstData e opcode total segment) (e.receiveFirstData opcode total segment) := by
  have htotal : { e with job := { e.job with mlRemain := total } }.out.InBounds := h
  unfold receiveFirstData Engine.receiveFirstData
  simp only [judge_eq, Option.bind_eq_bind, Option.bind_some]
  cases { e with job := { e.job with mlRemain := total } }.judge segment with
  | foreign => exact (sound_abortTransfer htotal).followed _
  | answer payload => exact (sound_deliverData htotal ..).followed _
  | refused code =>
    refine .bind (sound_acknowledge htotal opcode) fun hin => .ite (fun _ => .pure (by exact hin)) fun _ => .pure ?_
    exact inBounds_goIdle (inBounds_deliverFailure (by exact hin) _)

theorem sound_receiveData (h : e.out.InBounds) (opcode : UInt8) (data : List UInt8) :
    SoundFrame (receiveData e opcode data) (e.receiveData opcode data) := by
  have hcount : e.countData.out.InBounds := h
  exact .ite (fun _ => (sound_abortTransfer hcount).followed _) fun _ =>
    .ite (fun _ => (sound_deliverData hcount ..).followed _) fun _ => sound_receiveFirstData hcount ..

theorem sound_receiveSetup (h : e.out.InBounds) (length : Nat) (d : Vector UInt8 8) :
    SoundFrame (receiveSetup e length d) (e.receiveSetup length d) := by
  unfold receiveSetup Engine.receiveSetup
  simp only [Vector.getElem?_eq_getElem, Nat.reduceLT, Option.bind_eq_bind, Option.bind_some]
  exact .ite (fun _ => .pure h) fun _ => .ite (fun _ => .pure (inBounds_deliverFailure (by exact h) _)) fun _ =>
    (sound_requestParams (by exact h)).followed _

theorem sound_receiveParams (h : e.out.InBounds) (length : Nat) (d : Vector UInt8 8) :
    SoundFrame (receiveParams e length d) (e.receiveParams length d) := by
  unfold receiveParams Engine.receiveParams
  simp only [Vector.getElem?_eq_getElem, Nat.reduceLT, decodeTiming_eq, Option.bind_eq_bind, Option.bind_some]
  exact .ite (fun _ => .pure h) fun _ => .ite (fun _ => (sound_sendRequest (by exact h)).followed _) fun _ =>
    .ite (fun _ => (sound_peerClose h).followed _) fun _ => .pure h

theorem sound_receiveClosing (h : e.out.InBounds) (length : Nat) (d : Vector UInt8 8) :
    SoundFrame (receiveClosing e length d) (e.receiveClosing length d) := by
  have hshut := inBounds_shutChannel h
  exact .ite (fun _ => .pure h) fun _ => .ite (fun _ => .pure hshut) fun _ =>
    .ite (fun _ => (sound_requestSetup hshut).followed _) fun _ => .pure (inBounds_deliverFailure hshut _)

theorem sound_receiveIdle (h : e.out.InBounds) (opcode : UInt8) :
    Sound (receiveIdle e opcode) (e.receiveIdle opcode) :=
  .ite (fun _ => sound_sendPong h) fun _ => .ite (fun _ => sound_peerClose h) fun _ =>
    .ite (fun _ => sound_refuseData h) fun _ => .pure h

theorem sound_receiveAck (h : e.out.InBounds) (opcode : UInt8) :
    Sound (receiveAck e opcode) (e.receiveAck opcode) := by
  unfold receiveAck Engine.receiveAck
  rw [Outbound.remaining_eq h]
  refine .ite (fun _ => .ite (fun _ => sound_sendBlock h) fun _ => .pure (inBounds_awaitResponse h)) fun _ =>
    .ite (fun _ => .pure (inBounds_goIdle (by exact h.clear))) fun _ =>
      .ite (fun _ => sound_sendPong h) fun _ => .ite (fun _ => sound_peerClose h) fun _ => .pure h

theorem sound_receiveResponse (h : e.out.InBounds) (opcode : UInt8) (data : List UInt8) :
    SoundFrame (receiveResponse e opcode data) (e.receiveResponse opcode data) :=
  .ite (fun _ => (sound_sendPong h).followed _) fun _ => .ite (fun _ => (sound_peerClose h).followed _) fun _ =>
    .ite (fun _ => sound_receiveData h opcode data) fun _ => .pure h

theorem sound_channelStep (h : e.out.InBounds) (frame : Frame) :
    SoundFrame (channelStep e frame) (e.channelStep frame) := by
  unfold channelStep Engine.channelStep
  cases e.channel.state with
  | setup => exact sound_receiveSetup h ..
  | params => exact sound_receiveParams h ..
  | closing => exact sound_receiveClosing h ..
  | idle => exact (sound_receiveIdle h _).followed _
  | transmit => exact (sound_receiveAck h _).followed _
  | receive =>
    have hpart : part frame.data.toList 0 (min frame.dlc 8) = some frame.payload := shown_eq frame
    dsimp only
    rw [hpart]
    exact sound_receiveResponse h ..
  | closed | startPoll | abort => exact .pure h

theorem sound_receiveVwtp (h : e.out.InBounds) (frame : Frame) :
    Sound (receiveVwtp e frame) (e.receiveVwtp frame) := by
  obtain ⟨hstep, hin⟩ := sound_channelStep h frame
  refine .ite (fun _ => .pure h) fun _ => ?_
  rw [hstep, Option.bind_eq_bind, Option.bind_some]
  generalize e.channelStep frame = r at hin
  obtain ⟨_ | _, e'⟩ := r
  · exact .ite (fun _ => sound_pollNext hin) fun _ => .pure hin
  · exact .pure hin

/-! ### Operations -/

def receiveOther (e : Engine) (frame : Frame) : Option Engine :=
  if !e.job.isVwtp && 0 < e.wait && e.job.entry.isSome && e.job.accepts (e.responseId frame) then
    receiveIsoTp e frame (e.responseId frame)
  else some e

def handleFrame (e : Engine) (frame : Frame) : Option Engine :=
  if frame.bus ≠ e.bus then some e
  else do
    let _ ← shown frame
    if e.isChannelFrame frame then settle (← receiveVwtp e frame) else settle (← receiveOther e frame)

def tick (e : Engine) (primary : Bool) : Option Engine := do
  let e := if primary then e.emit (.stateTicker e.bus) else e
  settle (← pollSend { e with schedule := e.schedule.resetSequence } primary)

def sendSuccess (e : Engine) : Option Engine :=
  if e.successDue.any (· ≤ e.now) then do
    let e := { e with successDue := none }
    settle (← (if e.mayChain then pollSend e false else some e))
  else some e

def setList (e : Engine) (list : Option (List PollEntry)) (defaultBus : Option BusId) : Option Engine := do
  let list ← trimmed list
  match e.single with
  | some capture =>
    let saved := ⟨list, defaultBus, 0, 0, false, e.schedule.state⟩
    return { e with single := some { capture with saved } }
  | none => return { e with schedule := { e.schedule with list, defaultBus }.rewind, wait := 0 }

def shutdown (e : Engine) : Option Engine := do
  let e := (e.finishSingle (.error .unavailable)).refuseQueued
  let e ← (if e.channel.isOpen then (requestClose e).map (·.shutChannel) else some e)
  return { e with results := [], successDue := none, active := false }

def step (e : Engine) : Operation → Option Engine
  | .frame frame => handleFrame e frame
  | .tick primary => tick e primary
  | .txComplete frame success => settle (e.judgeResult frame success)
  | .sendSuccess => sendSuccess e
  | .submit request => settle { e with queued := e.queued ++ [request] }
  | .setList list defaultBus => setList e list defaultBus
  | .shutdown => shutdown e
  -- the others set a value and touch no bytes
  | operation => some (e.step operation)

def run (e : Engine) (operations : List Operation) : Option Engine :=
  operations.foldlM step e

theorem sound_handleFrame (h : e.out.InBounds) (frame : Frame) :
    Sound (handleFrame e frame) (e.handleFrame frame) := by
  refine .ite (fun _ => .pure h) fun _ => ?_
  rw [shown_eq]
  refine .ite (fun _ => (sound_receiveVwtp h frame).bind sound_settle) fun _ => .bind ?_ sound_settle
  exact .ite (fun _ => sound_receiveIsoTp h ..) fun _ => .pure h

theorem sound_tick (h : e.out.InBounds) (primary : Bool) : Sound (tick e primary) (e.tick primary) := by
  refine .bind (sound_pollSend ?_ primary) sound_settle
  dsimp only
  split <;> exact h

theorem sound_sendSuccess (h : e.out.InBounds) : Sound (sendSuccess e) e.sendSuccess := by
  have hnone : { e with successDue := none }.out.InBounds := h
  refine .ite (fun _ => .bind ?_ sound_settle) fun _ => .pure h
  exact .ite (fun _ => sound_pollSend hnone false) fun _ => .pure hnone

theorem sound_setList (h : e.out.InBounds) (list : Option (List PollEntry)) (defaultBus : Option BusId) :
    Sound (setList e list defaultBus) (e.setList list defaultBus) := by
  unfold setList Engine.setList
  rw [trimmed_eq]
  cases e.single with
  | some capture => exact .pure (by exact h)
  | none => exact .pure (by exact h)

theorem inBounds_refuseQueued (h : e.out.InBounds) : e.refuseQueued.out.InBounds := by
  unfold Engine.refuseQueued
  have hstart : { e with queued := [] }.out.InBounds := h
  generalize { e with queued := [] } = e' at hstart
  induction e.queued generalizing e' with
  | nil => exact hstart
  | cons request queued ih => exact ih _ (by exact hstart)

theorem sound_shutdown (h : e.out.InBounds) : Sound (shutdown e) e.shutdown := by
  have hquiet := inBounds_refuseQueued (inBounds_finishSingle h (.error .unavailable))
  refine .bind (.ite (fun _ => ?_) fun _ => .pure hquiet) fun hin => .pure (by exact hin)
  obtain ⟨hclose, hin⟩ := sound_requestClose hquiet
  exact ⟨by rw [hclose]; rfl, inBounds_shutChannel hin⟩

theorem sound_step (h : e.out.InBounds) (operation : Operation) : Sound (step e operation) (e.step operation) := by
  cases operation with
  | frame frame => exact sound_handleFrame h frame
  | tick primary => exact sound_tick h primary
  | txComplete frame success => exact sound_settle (inBounds_judgeResult h frame success)
  | sendSuccess => exact sound_sendSuccess h
  | submit request => exact sound_settle (by exact h)
  | setList list defaultBus => exact sound_setList h list defaultBus
  | shutdown => exact sound_shutdown h
  | setState state =>
    refine .pure ?_
    unfold Engine.step Engine.setState
    dsimp only
    split <;> exact h
  | _ => exact .pure (by exact h)

theorem sound_run (h : e.out.InBounds) (operations : List Operation) :
    Sound (run e operations) (e.run operations) := by
  induction operations generalizing e with
  | nil => exact .pure h
  | cons operation operations ih => exact (sound_step h operation).bind ih

/-- No run of an engine, and no frame received after one, makes it read, write or copy outside of the bytes that
it has or count below zero: with all checks it comes to the same end as without. The rest of a request stays in
bounds, in every run and whenever it is loaded, filled and cleared in any order. -/
theorem run_inBounds (bus : BusId) (name : String) (reports : Bool) (settings : EngineSettings)
    (operations : List Operation) :
    let start := Engine.new bus name reports settings
    run start operations = some (start.run operations) ∧
      (∀ frame, handleFrame (start.run operations) frame = some ((start.run operations).handleFrame frame)) ∧
      (start.run operations).out.InBounds ∧
      ∀ calls : List Outbound.Call, ∃ out, calls.foldlM Outbound.call .empty = some out ∧ out.InBounds := by
  intro start
  have hempty : EcuPoll.Outbound.empty.InBounds := ⟨Nat.le_refl _, Nat.le_refl _⟩
  obtain ⟨hrun, hin⟩ := @sound_run start hempty operations
  exact ⟨hrun, fun frame => (sound_handleFrame hin frame).value, hin, Outbound.calls_inBounds hempty⟩

end EcuPoll.Checked
