import EcuPoll.Proofs.Diag.Responses
import EcuPoll.Proofs.Engine.Accounts
import EcuPoll.Proofs.Poll.Message

/-!
# Single requests are sent as they are

`singleEntry` takes the bytes of a request apart; `singleEntry_ok` says for which it does. What it makes of
them encodes to the same bytes again, of which no transport cuts any. Such an entry is due as soon as it is
the list. So wherever a single request starts in a run, its entry is dispatched at once: `SentAtOnce`, which
every move of an engine keeps.
-/

namespace EcuPoll

/-! ### Entries of single requests -/

theorem encode_pidOfBytes {w : PidWidth} {bytes : List UInt8} (h : bytes.length = w.length) :
    w.encode (pidOfBytes bytes) = bytes := by
  cases w with
  | none =>
    obtain rfl := List.length_eq_zero_iff.1 h
    rfl
  | byte =>
    obtain ⟨b, rfl⟩ := List.length_eq_one_iff.1 h
    simp [pidOfBytes, PidWidth.encode]
  | word =>
    obtain ⟨hi, lo, rfl⟩ : ∃ hi lo, bytes = [hi, lo] := by
      rcases bytes with _ | ⟨hi, _ | ⟨lo, _ | _⟩⟩ <;> first | exact ⟨hi, lo, rfl⟩ | cases h
    have hword : pidOfBytes [hi, lo] = Envelope.word hi lo := by simp [pidOfBytes, Envelope.word]
    rw [hword, PidWidth.encode_word]

/-- A request is let through if it has a service, a target, and neither too few bytes nor too many. -/
theorem singleEntry_ok {tx rx : UInt32} {request : List UInt8} {protocol : Protocol} {entry : PollEntry} :
    singleEntry tx rx request protocol = .ok entry ↔
      ∃ service rest, request = service :: rest ∧ tx ≠ 0 ∧
        (PidWidth.of service).length ≤ rest.length ∧ request.length ≤ isoTpMax ∧
        entry = { tx, rx, service, protocol
                  pid := pidOfBytes (rest.take (PidWidth.of service).length)
                  payload := rest.drop (PidWidth.of service).length
                  intervals := Vector.replicate 4 singleInterval
                  bus := 0 } := by
  constructor
  · intro h
    cases request with
    | nil => cases h
    | cons service rest =>
      dsimp only [singleEntry] at h
      split_ifs at h with htx hshort hlong
      cases h
      exact ⟨service, rest, rfl, htx, by omega, by omega, rfl⟩
  · rintro ⟨service, rest, rfl, htx, hshort, hlong, rfl⟩
    simp only [singleEntry, if_neg htx, if_neg (Nat.not_lt.2 hshort), if_neg (Nat.not_lt.2 hlong)]

namespace PollEntry
variable {entry : PollEntry}

/-- The entry of a single request encodes to the bytes of the request. -/
theorem encode_singleEntry {tx rx : UInt32} {request : List UInt8} {protocol : Protocol}
    (h : singleEntry tx rx request protocol = .ok entry) :
    encodeRequest entry.service entry.pid entry.payload = request := by
  obtain ⟨service, rest, rfl, -, hlen, -, rfl⟩ := singleEntry_ok.1 h
  have htake : (rest.take (PidWidth.of service).length).length = (PidWidth.of service).length := by
    rw [List.length_take, Nat.min_eq_left hlen]
  have hpid := encode_pidOfBytes htake
  rw [encodeRequest, requestHeader, hpid, List.cons_append, List.take_append_drop]

/-- No transport cuts the payload of a single request. -/
theorem fits_singleEntry {tx rx : UInt32} {request : List UInt8} {protocol : Protocol}
    (h : singleEntry tx rx request protocol = .ok entry) :
    entry.payload.length ≤ payloadLimit entry.header := by
  have hencode : entry.header ++ entry.payload = request := encode_singleEntry h
  obtain ⟨_, _, -, -, -, hmax, -⟩ := singleEntry_ok.1 h
  rw [← hencode, List.length_append] at hmax
  rw [payloadLimit]
  omega

/-- The entry of a single request is due when a pass begins, in every poll state. -/
theorem due_singleEntry {tx rx : UInt32} {request : List UInt8} {protocol : Protocol}
    (h : singleEntry tx rx request protocol = .ok entry) {state : Nat} (hs : state < pollStates) :
    entry.isDue state 0 := by
  obtain ⟨_, _, -, -, -, -, rfl⟩ := singleEntry_ok.1 h
  have hinterval : (Vector.replicate 4 singleInterval)[state]? = some singleInterval := by
    rw [Vector.getElem?_replicate, if_pos (show state < 4 from hs)]
  rw [isDue, interval, hinterval]
  decide

end PollEntry

/-! ### Transports -/

namespace Engine
variable {e e' : Engine} {entry : PollEntry}

theorem carries_startIsoTp (h : e.job.entry = some entry) : e.startIsoTp.out.Carries entry := by
  simp only [startIsoTp, h, transmit_eq]
  exact .load ..

theorem carries_sendFrames (h : e.out.Carries entry) (header : List UInt8) (left : Nat) :
    (sendFrames header left e).out.Carries entry := by
  induction left generalizing e with
  | zero => exact h
  | succ left ih =>
    have hnext : (e.sendFrame header left).out.Carries entry := by
      unfold sendFrame
      rw [transmit_eq]
      exact (h.advance _).countFrame
    unfold sendFrames
    dsimp only
    split
    · exact hnext
    · exact ih hnext

theorem carries_sendBlock (h : e.out.Carries entry) : e.sendBlock.out.Carries entry := by
  unfold sendBlock
  split
  · exact h
  · rw [awaitAck, out_expectOnChannel]
    exact carries_sendFrames h ..

theorem carries_sendRequest (h : e.job.entry = some entry) : e.sendRequest.out.Carries entry := by
  simp only [sendRequest, h]
  exact carries_sendBlock (.load ..)

/-! ### Starting -/

/-- What happens starts no single request. -/
abbrev StartsNone : Engine → Engine → Prop := Adds (·.started? = none)

theorem Works.startsNone (h : Works e e') : StartsNone e e' :=
  h.log.mono fun event hev => by cases event <;> first | rfl | exact hev.elim

namespace StartsNone

theorem finishSingle (h : StartsNone e e') (result : SingleResult) :
    StartsNone e (e'.finishSingle result) := by
  unfold Engine.finishSingle
  split
  · exact h
  · exact h.trans ⟨[_], rfl, by simp [Event.started?]⟩

theorem deliverReply (h : StartsNone e e') (data : List UInt8) : StartsNone e (e'.deliverReply data) := by
  have hd := deliverReply_delivered e' data
  generalize e'.deliverReply data = e'' at hd ⊢
  cases hd with
  | report => exact h.emit rfl
  | whole => exact h.finishSingle _
  | part => exact h.trans (.of_log rfl)

theorem deliverFailure (h : StartsNone e e') (failure : PollFailure) :
    StartsNone e (e'.deliverFailure failure) := by
  unfold Engine.deliverFailure
  split
  · exact h.emit rfl
  · exact h.finishSingle _

theorem expireSingle (h : StartsNone e e') : StartsNone e e'.expireSingle := by
  unfold Engine.expireSingle
  split
  · exact h
  · split
    · exact h.finishSingle _
    · exact h

theorem failTransmission (e : Engine) : StartsNone e e.failTransmission := by
  have hw : StartsNone e { (if e.job.isVwtp then e.loseChannel else e) with wait := 0 } := by
    split <;> exact .of_log rfl
  exact hw.deliverFailure _

theorem startVwtp (h : StartsNone e e') : StartsNone e e'.startVwtp := by
  refine h.trans ?_
  have ht := (Works.refl e').touchChannel
  rcases hj : e'.job.entry with _ | entry
  · simp only [Engine.startVwtp, hj]
    exact .refl e'
  · have hst := startVwtp_start e' hj
    generalize e'.startVwtp = e'' at hst ⊢
    cases hst with
    | again => exact ht.requestSetup.startsNone
    | request => exact ht.interrupt.sendRequest.startsNone
    | close => exact ht.requestClose.startsNone
    | setup => exact ht.requestSetup.startsNone
    | nothing => exact ht.startsNone.deliverFailure _

/-- The transport of an entry that has become the poll in flight. -/
theorem dispatch (h : StartsNone e (e'.assign entry)) : StartsNone e (e'.dispatch entry) := by
  unfold Engine.dispatch
  split
  · exact h.startVwtp
  · exact h.trans (Works.refl _).startIsoTp.startsNone

theorem startPass (e : Engine) : StartsNone e e.startPass := by
  have hs : StartsNone e { e with schedule := e.schedule.startNextPass } := .of_log rfl
  unfold Engine.startPass
  dsimp only
  split
  · exact hs.emit rfl
  · exact hs

theorem pollList (e : Engine) : StartsNone e e.pollList := by
  have ha : StartsNone e e.advance := .of_log rfl
  unfold Engine.pollList
  split
  · exact StartsNone.dispatch (ha.trans ⟨[_], rfl, by simp [Event.started?]⟩)
  · split
    · exact ha
    · exact ha.emit rfl
  · exact ha

theorem refuseQueued (e : Engine) : StartsNone e e.refuseQueued :=
  refuseQueued_keeps (P := StartsNone e) (.of_log rfl) fun _ _ h => h.emit rfl

theorem sendFlowControl (e : Engine) (id : UInt32) : StartsNone e (e.sendFlowControl id) := by
  unfold Engine.sendFlowControl
  rw [transmit_eq]
  exact ⟨[_], rfl, by simp [Event.started?]⟩

end StartsNone

/-- A turn starts a single request only if it is the next one of the queue. -/
theorem Turn.startsNone (h : Turn e e') : StartsNone e e' ∨ ∃ request queued, e.single = none ∧
    e.queued = request :: queued ∧ e' = { e with queued }.startSingle request := by
  have hw := Works.refl e
  cases h with
  | shut => exact .inl hw.shutChannel.startsNone
  | reopen => exact .inl (StartsNone.startVwtp (.refl e))
  | close => exact .inl hw.requestClose.startsNone
  | expire => exact .inl (StartsNone.expireSingle (.refl e))
  | @single request queued hs hq => exact .inr ⟨request, queued, hs, hq, rfl⟩
  | pass => exact .inl (.startPass e)
  | poll => exact .inl (.pollList e)
  | fail => exact .inl (.failTransmission e)
  | sent success =>
    exact .inl ⟨[⟨e.now, .sent { e.job with received := 0 } success⟩], rfl, by simp [Event.started?]⟩
  | count | grace | release | arm | take => exact .inl (.of_log rfl)

theorem Move.startsNone {stray : Prop} (h : Move stray e e') : StartsNone e e' ∨
    ∃ request queued, e.single = none ∧ e.queued = request :: queued ∧
      e' = { e with queued }.startSingle request := by
  have hw := Works.refl e
  cases h with
  | turn h => exact h.startsNone
  | begin => exact .inl ((Adds.refl e).emit rfl)
  | refuse => exact .inl (.refuseQueued e)
  | unavailable => exact .inl (StartsNone.finishSingle (.refl e) _)
  | reply data => exact .inl (StartsNone.deliverReply (.refl e) data)
  | failure failure => exact .inl (StartsNone.deliverFailure (.refl e) failure)
  | reject => exact .inl hw.rejectResponse.startsNone
  | allow hj id => exact .inl (.sendFlowControl e id)
  | flow => exact .inl (hw.isoTpFlow ..).startsNone
  | lose => exact .inl hw.loseChannel.startsNone
  | shut => exact .inl hw.shutChannel.startsNone
  | close => exact .inl hw.requestClose.startsNone
  | params => exact .inl hw.requestParams.startsNone
  | request => exact .inl hw.sendRequest.startsNone
  | setup => exact .inl hw.requestSetup.startsNone
  | block => exact .inl hw.sendBlock.startsNone
  | await => exact .inl hw.awaitResponse.startsNone
  | abort => exact .inl hw.abortTransfer.startsNone
  | idle => exact .inl hw.goIdle.startsNone
  | ack => exact .inl hw.sendAck.startsNone
  | pong => exact .inl hw.sendPong.startsNone
  | refuseData => exact .inl hw.refuseData.startsNone
  | elapse | adjust | throttle | disarm | halt | progress | assignIds | agree | drop | receive =>
    exact .inl (.of_log rfl)

variable {ticket : Nat} {request : SingleRequest} {requests : List SingleRequest}

/-- A single request that starts has its entry dispatched next, if the entry is one of `singleEntry`. -/
theorem startSingle_log (hb : e.schedule.bus = e.bus) (ht : e.schedule.state < pollStates)
    (hr : request.entry.IsSingle) (hg : request.isGone e.now = false) :
    ∃ new, (e.startSingle request).log =
        new ++ ⟨e.now, .dispatched request.entry 0 (some request.ticket)⟩ ::
          ⟨e.now, .singleStarted request.ticket⟩ :: e.log ∧
      ∀ s ∈ new, s.event.started? = none := by
  have hdue : (e.capture request).schedule.next.1 = .due request.entry := by
    have hnext := Schedule.next_isSingle hr ht
    rw [hb] at hnext
    exact hnext
  have hassign : ((e.capture request).advance.assign request.entry).log =
      ⟨e.now, .dispatched request.entry 0 (some request.ticket)⟩ ::
        ⟨e.now, .singleStarted request.ticket⟩ :: e.log := by
    have hticker : (e.capture request).advance.schedule.ticker = 0 := Schedule.next_ticker _
    unfold assign
    rw [hticker]
    rfl
  obtain ⟨new, hnew, hnone⟩ :=
    StartsNone.dispatch (Adds.refl ((e.capture request).advance.assign request.entry))
  refine ⟨new, ?_, hnone⟩
  simp only [startSingle, hg, hdue, Bool.false_eq_true, if_false]
  rw [hnew, hassign]

/-- No request starts but the one whose turn it is. -/
theorem startSingle_other (h : request.isGone e.now = true ∨ request.ticket ≠ ticket) :
    Adds (·.started? ≠ some ticket) e (e.startSingle request) := by
  have hother {e' e'' : Engine} (h : StartsNone e' e'') : Adds (·.started? ≠ some ticket) e' e'' :=
    h.mono fun event hev => by simp [hev]
  unfold startSingle
  by_cases hg : request.isGone e.now = true
  · rw [if_pos hg]
    exact ⟨[_], rfl, by simp [Event.started?]⟩
  · rw [if_neg hg]
    have hc : Adds (·.started? ≠ some ticket) e (e.capture request).advance :=
      ⟨[_], rfl, by simpa [Event.started?] using h.resolve_left hg⟩
    dsimp only
    split
    · exact hc.trans (hother (StartsNone.dispatch ⟨[_], rfl, by simp [Event.started?]⟩))
    · exact hc.trans (hother (StartsNone.finishSingle (.refl _) _))

/-- Wherever the single request of this ticket has started, what comes next is that this entry is
dispatched for it. -/
def SentAtOnce (ticket : Nat) (entry : PollEntry) (log : List Stamped) : Prop :=
  ∀ later s earlier, log = later ++ s :: earlier → s.event = .singleStarted ticket →
    ∃ latest, later = latest ++ [⟨s.time, .dispatched entry 0 (some ticket)⟩]

namespace SentAtOnce
variable {log : List Stamped}

theorem adds (h : SentAtOnce ticket entry e.log) (ha : Adds (·.started? ≠ some ticket) e e') :
    SentAtOnce ticket entry e'.log := by
  obtain ⟨new, hnew, hother⟩ := ha
  intro later s earlier heq hs
  rw [hnew] at heq
  rcases List.append_eq_append_iff.1 heq with ⟨later', rfl, hlog⟩ | ⟨rest, rfl, hlog⟩
  · obtain ⟨latest, rfl⟩ := h later' s earlier hlog hs
    exact ⟨new ++ latest, by rw [List.append_assoc]⟩
  · rcases rest with _ | ⟨s', rest⟩
    · obtain ⟨latest, hnil⟩ := h [] s earlier hlog.symm hs
      exact absurd hnil (by simp)
    · obtain ⟨rfl, -⟩ := List.cons.inj hlog
      have hne := hother s (by simp)
      rw [hs] at hne
      exact absurd rfl hne

/-- The request has started once more, and been dispatched. -/
theorem started (h : SentAtOnce ticket entry log) (time : Nat) : SentAtOnce ticket entry
    (⟨time, .dispatched entry 0 (some ticket)⟩ :: ⟨time, .singleStarted ticket⟩ :: log) := by
  intro later s earlier heq hs
  rcases later with _ | ⟨s', _ | ⟨s'', later⟩⟩
  · obtain ⟨rfl, -⟩ := List.cons.inj heq
    cases hs
  · obtain ⟨rfl, hrest⟩ := List.cons.inj heq
    obtain ⟨rfl, -⟩ := List.cons.inj hrest
    exact ⟨[], rfl⟩
  · obtain ⟨rfl, hrest⟩ := List.cons.inj heq
    obtain ⟨rfl, hlog⟩ := List.cons.inj hrest
    obtain ⟨latest, rfl⟩ := h later s earlier hlog hs
    exact ⟨_ :: _ :: latest, rfl⟩

theorem startSingle (h : SentAtOnce ticket entry e.log) (hb : e.schedule.bus = e.bus)
    (ht : e.schedule.state < pollStates) (hr : entry.IsSingle)
    (hnamed : request.ticket = ticket → request.entry = entry) :
    SentAtOnce ticket entry (e.startSingle request).log := by
  by_cases hother : request.isGone e.now = true ∨ request.ticket ≠ ticket
  · exact h.adds (startSingle_other hother)
  · obtain ⟨hg, rfl⟩ : request.isGone e.now = false ∧ request.ticket = ticket := by simpa using hother
    obtain rfl := hnamed rfl
    obtain ⟨new, hlog, hnone⟩ := startSingle_log hb ht hr hg
    refine SentAtOnce.adds (e := { e with log := _ }) (h.started e.now) ⟨new, hlog, fun s hs => ?_⟩
    simp [hnone s hs]

variable (hr : entry.IsSingle)
include hr

/-- A move of an engine that serves these requests, of which those with the ticket have the entry. -/
theorem move {stray : Prop} (h : SentAtOnce ticket entry e.log) (hserves : Serves requests e)
    (hnamed : ∀ request ∈ requests, request.ticket = ticket → request.entry = entry)
    (hm : Move stray e e') : SentAtOnce ticket entry e'.log := by
  rcases hm.startsNone with hnone | ⟨request, queued, hs, hq, rfl⟩
  · exact h.adds (hnone.mono fun event hev => by simp [hev])
  · obtain ⟨ended, -, hrequests⟩ := hserves.story
    have hmem : request ∈ requests := by rw [hrequests, hq]; simp
    exact startSingle (e := { e with queued }) h hserves.bus_eq hserves.state_lt hr (hnamed request hmem)

theorem moves {stray : Prop} (h : SentAtOnce ticket entry e.log) (hserves : Serves requests e)
    (hnamed : ∀ request ∈ requests, request.ticket = ticket → request.entry = entry)
    (hm : Moves stray e e') : SentAtOnce ticket entry e'.log := by
  induction hm with
  | refl => exact h
  | tail hm hlast ih => exact ih.move hr (hserves.moves hm) hnamed hlast

theorem step (h : SentAtOnce ticket entry e.log) (hserves : Serves requests e) (op : Operation)
    (hnamed : ∀ request ∈ requests ++ submitted [op], request.ticket = ticket → request.entry = entry) :
    SentAtOnce ticket entry (e.step op).log := by
  cases op with
  | submit request =>
    exact moves (e := { e with queued := e.queued ++ [request] }) hr h (hserves.enqueue request) hnamed
      (@submit_moves False e request)
  | setList list defaultBus =>
    have hlog : (e.setList list defaultBus).log = e.log := by
      unfold setList
      split <;> rfl
    exact hlog.symm ▸ h
  | setState state =>
    have hlog : (e.setState state).log = e.log := by
      unfold setState
      dsimp only
      split <;> rfl
    exact hlog.symm ▸ h
  | _ =>
    exact h.moves hr hserves (fun request hmem => hnamed request (List.mem_append_left _ hmem))
      (step_moves e (by simp) (by simp) (by simp))

theorem run (h : SentAtOnce ticket entry e.log) (hserves : Serves requests e) (ops : List Operation)
    (hnamed : ∀ request ∈ requests ++ submitted ops, request.ticket = ticket → request.entry = entry) :
    SentAtOnce ticket entry (e.run ops).log := by
  induction ops generalizing e requests with
  | nil => exact h
  | cons op ops ih =>
    have hops : submitted (op :: ops) = submitted [op] ++ submitted ops := by
      rw [← List.singleton_append, submitted, List.filterMap_append]
      rfl
    rw [hops, ← List.append_assoc] at hnamed
    exact ih (h.step hr hserves op fun request hmem => hnamed request (List.mem_append_left _ hmem))
      (hserves.step op) hnamed

end SentAtOnce

end Engine

/-! ### Every request -/

open Engine in
/-- A request is let through just when it has a service, a target, all of the PID that its service wants,
and at most 4095 bytes. What is made of it encodes to the request again, and both transports send all of it.
It is due on its bus when the ticker is 0, in every poll state; so in every run, wherever it starts its entry
is what is dispatched next. -/
theorem singleEntry_sent (tx rx : UInt32) (request : List UInt8) (protocol : Protocol) :
    ((∃ entry, singleEntry tx rx request protocol = .ok entry) ↔
      ∃ service rest, request = service :: rest ∧ tx ≠ 0 ∧
        1 + (PidWidth.of service).length ≤ request.length ∧ request.length ≤ 4095) ∧
    ∀ entry, singleEntry tx rx request protocol = .ok entry →
      entry.tx = tx ∧ entry.rx = rx ∧ entry.protocol = protocol ∧
      encodeRequest entry.service entry.pid entry.payload = request ∧
      entry.message = request ∧
      (∀ e : Engine, e.job.entry = some entry →
        e.startIsoTp.out.payload = entry.payload ∧ e.startIsoTp.out.stop = entry.payload.length ∧
        e.sendRequest.out.payload = entry.payload ∧ e.sendRequest.out.stop = entry.payload.length) ∧
      (∀ (bus : BusId) (state : Nat), state < pollStates →
        entry.busIn (some bus) = some bus ∧ entry.isDue state 0) ∧
      ∀ (bus : BusId) (name : String) (reports : Bool) (settings : EngineSettings) (ops : List Operation)
        (ticket : Nat), (∀ r ∈ submitted ops, r.ticket = ticket → r.entry = entry) →
        SentAtOnce ticket entry ((Engine.new bus name reports settings).run ops).log := by
  refine ⟨⟨?_, ?_⟩, fun entry h => ?_⟩
  · rintro ⟨entry, h⟩
    obtain ⟨service, rest, rfl, htx, hlen, hmax, -⟩ := singleEntry_ok.1 h
    exact ⟨service, rest, rfl, htx, by rw [List.length_cons]; omega, hmax⟩
  · rintro ⟨service, rest, rfl, htx, hlen, hmax⟩
    rw [List.length_cons] at hlen
    exact ⟨_, singleEntry_ok.2 ⟨service, rest, rfl, htx, by omega, hmax, rfl⟩⟩
  · have hencode := PollEntry.encode_singleEntry h
    have hfits := PollEntry.fits_singleEntry h
    have hstop {o : Outbound} (ho : o.Carries entry) : o.stop = entry.payload.length := by
      rw [ho.stop, Nat.min_eq_left hfits]
    obtain ⟨hfields, hbus⟩ : (entry.tx = tx ∧ entry.rx = rx ∧ entry.protocol = protocol) ∧ entry.bus = 0 := by
      obtain ⟨_, _, -, -, -, -, rfl⟩ := singleEntry_ok.1 h
      exact ⟨⟨rfl, rfl, rfl⟩, rfl⟩
    refine ⟨hfields.1, hfields.2.1, hfields.2.2, hencode, ?_, fun e he => ?_, fun bus state hs => ?_, ?_⟩
    · rw [PollEntry.message, List.take_of_length_le hfits, hencode]
    · have hiso := carries_startIsoTp he
      have hchannel := carries_sendRequest he
      exact ⟨hiso.payload, hstop hiso, hchannel.payload, hstop hchannel⟩
    · exact ⟨by rw [PollEntry.busIn, if_pos hbus], PollEntry.due_singleEntry h hs⟩
    · intro bus name reports settings ops ticket hnamed
      refine SentAtOnce.run ⟨tx, rx, request, protocol, h⟩ ?_ (serves_new ..) ops hnamed
      exact fun later s earlier heq => absurd heq (by simp [Engine.new])

open Engine in
/-- A write of one byte to PID F190 is handed in twice; the first request starts at once. -/
theorem singleEntry_sent_example :
    let entry : PollEntry := ⟨0x7e0, 0x7e8, 0x2e, 0xf190, [0xaa], #v[999, 999, 999, 999], 0, .isoTp⟩
    let e := (Engine.new ⟨1, by decide⟩ "ecu" false ⟨0, 25, .strict, 0, 0⟩).run
      [.submit ⟨7, entry, 9000, none⟩, .submit ⟨8, entry, 9000, none⟩]
    singleEntry 0x7e0 0x7e8 [0x2e, 0xf1, 0x90, 0xaa] .isoTp = .ok entry ∧
      entry.message = [0x2e, 0xf1, 0x90, 0xaa] ∧
      tickets Event.started? e.log = [7] ∧ SentAtOnce 7 entry e.log := by
  intro entry e
  obtain ⟨-, hspec⟩ := singleEntry_sent 0x7e0 0x7e8 [0x2e, 0xf1, 0x90, 0xaa] .isoTp
  have hok : singleEntry 0x7e0 0x7e8 [0x2e, 0xf1, 0x90, 0xaa] .isoTp = .ok entry := by rfl
  obtain ⟨-, -, -, -, hmessage, -, -, hsends⟩ := hspec entry hok
  exact ⟨hok, hmessage, by decide, hsends _ _ _ _ _ 7 (by simp [submitted])⟩

end EcuPoll
