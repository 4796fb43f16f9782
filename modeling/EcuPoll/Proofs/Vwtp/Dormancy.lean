import EcuPoll.Proofs.Engine.Addressing
import EcuPoll.Proofs.Engine.Fates
import EcuPoll.Proofs.Engine.Rounds
import EcuPoll.Proofs.Vwtp.Beside

/-!
# Nothing more of a response

When a response has broken off and the channel is idle, nothing of it is handed on any more: an engine that
neither sends nor receives on the channel is `Dormant`, and stays so until it begins a new request. Only the
single request that has the bus may still end with the part of the response that it holds, when its channel
goes away.
-/

namespace EcuPoll

/-- The frame begins a request. -/
def Event.isRequest (event : Event) : Bool :=
  event.isOpening || event.isStart

/-- The events up to the next request, oldest first. -/
def untilRequest (log : List Stamped) : List Stamped :=
  log.reverse.takeWhile (!·.event.isRequest)

/-- The data is what the single request holds already, or nothing. -/
def Held (held : Option Capture) (ticket : Nat) (data : List UInt8) : Prop :=
  data = [] ∨ ∃ capture, held = some capture ∧ capture.request.ticket = ticket ∧ capture.response = data

/-- The event hands on no byte of a response, but what a single request holds already. -/
def Event.Withholds (held : Option Capture) : Event → Prop
  | .reply _ _ _ => False
  | .singleResolved ticket (.ok data) => Held held ticket data
  | _ => True

variable {held : Option Capture}

theorem Event.IsWork.withholds {event : Event} (h : event.IsWork) : event.Withholds held := by
  cases event <;> first | exact h.elim | trivial

namespace Engine
variable {e e' e'' : Engine}

/-- No response is under way, and a single request holds nothing but what it is known to hold. -/
structure Dormant (held : Option Capture) (e : Engine) : Prop where
  isVwtp : e.job.isVwtp = true
  still : e.channel.state.isTransfer = false
  single : ∀ capture, e.single = some capture → Held held capture.request.ticket capture.response

/-- A dormant engine stays so and hands on nothing. -/
structure Sleeps (held : Option Capture) (e e' : Engine) : Prop where
  dormant : Dormant held e'
  log : Adds (Event.Withholds held) e e'

/-- Nothing is handed on before a new request begins. -/
inductive Dozes (held : Option Capture) (e e' : Engine) : Prop
  | sleeps (h : Sleeps held e e')
  | wakes {e₁ : Engine} {s : Stamped} (h : Sleeps held e e₁) (hs : s.event.isRequest = true)
    (hg : s :: e₁.log <:+ e'.log)

namespace Sleeps

theorem refl (h : Dormant held e) : Sleeps held e e := ⟨h, .refl e⟩

/-- What else there is may change. -/
theorem update (h : Sleeps held e e') (hj : e''.job.asked = e'.job.asked)
    (hc : e''.channel.state.isTransfer = false) (hs : e''.single = e'.single)
    (hl : Adds (Event.Withholds held) e' e'') : Sleeps held e e'' := by
  obtain ⟨hv, -, hsingle⟩ := h.dormant
  exact ⟨⟨(isVwtp_of_asked hj).trans hv, hc, hs ▸ hsingle⟩, h.log.trans hl⟩

theorem of_eq (h : Sleeps held e e') (hj : e''.job.asked = e'.job.asked) (hc : e''.channel = e'.channel)
    (hs : e''.single = e'.single) (hl : e''.log = e'.log) : Sleeps held e e'' :=
  h.update hj (hc ▸ h.dormant.still) hs (.of_log hl)

theorem works (h : Sleeps held e e') (hw : Works e' e'') (hj : e''.job.asked = e'.job.asked)
    (hc : e''.channel.state.isTransfer = false) : Sleeps held e e'' :=
  h.update hj hc hw.single (hw.log.mono fun _ => Event.IsWork.withholds)

theorem emit (h : Sleeps held e e') {event : Event} (hev : event.Withholds held) :
    Sleeps held e (e'.emit event) :=
  h.update rfl h.dormant.still rfl ((Adds.refl e').emit hev)

/-! ### Results -/

theorem finishSingle (h : Sleeps held e e') {result : SingleResult}
    (hr : ∀ capture data, e'.single = some capture → result = .ok data →
      Held held capture.request.ticket data) : Sleeps held e (e'.finishSingle result) := by
  unfold Engine.finishSingle
  cases hs : e'.single with
  | none => exact h
  | some capture =>
    refine ⟨⟨h.dormant.isVwtp, h.dormant.still, nofun⟩, h.log.trans ⟨[_], rfl, ?_⟩⟩
    rw [List.forall_mem_singleton]
    cases result with
    | error error => trivial
    | ok data => exact hr capture data hs rfl

theorem endSingle (h : Sleeps held e e') (error : SingleError) :
    Sleeps held e (e'.finishSingle (.error error)) :=
  h.finishSingle fun _ _ _ heq => by cases heq

theorem deliverFailure (h : Sleeps held e e') (failure : PollFailure) :
    Sleeps held e (e'.deliverFailure failure) := by
  unfold Engine.deliverFailure
  cases hs : e'.single with
  | none => exact h.emit (show (Event.failed ..).Withholds held from trivial)
  | some capture =>
    refine h.finishSingle fun capture' data hs' heq => ?_
    obtain rfl : capture = capture' := Option.some.inj (hs.symm.trans hs')
    cases failure with
    | channelClosed =>
      cases heq
      exact h.dormant.single capture hs
    | _ => cases heq

theorem expireSingle (h : Sleeps held e e') : Sleeps held e e'.expireSingle := by
  unfold Engine.expireSingle
  split
  · exact h
  · split
    · exact h.endSingle _
    · exact h

theorem refuseQueued (h : Sleeps held e e') : Sleeps held e e'.refuseQueued :=
  refuseQueued_keeps (P := Sleeps held e) (h.of_eq rfl rfl rfl rfl) fun _ _ h => h.emit trivial

theorem loseChannel (h : Sleeps held e e') : Sleeps held e e'.loseChannel :=
  h.update rfl rfl rfl (.of_log rfl)

theorem failTransmission (h : Sleeps held e e') : Sleeps held e e'.failTransmission := by
  have heq : e'.failTransmission = e'.loseChannel.deliverFailure .transmitFailed := by
    unfold Engine.failTransmission
    rw [if_pos h.dormant.isVwtp]
    rfl
  rw [heq]
  exact h.loseChannel.deliverFailure _

/-! ### The channel -/

theorem requestSetup (h : Sleeps held e e') : Sleeps held e e'.requestSetup := by
  refine h.works (Works.refl e').requestSetup (Same.requestSetup e').asked ?_
  unfold Engine.requestSetup
  split
  · exact h.dormant.still
  · split
    · exact h.dormant.still
    · rw [channel_transmit]
      rfl

theorem requestParams (h : Sleeps held e e') : Sleeps held e e'.requestParams := by
  refine h.works (Works.refl e').requestParams (Same.requestParams e').asked ?_
  unfold Engine.requestParams
  split
  · exact h.dormant.still
  · rw [channel_transmit]
    rfl

theorem requestClose (h : Sleeps held e e') : Sleeps held e e'.requestClose :=
  h.works (Works.refl e').requestClose (Same.requestClose e').asked (by rw [state_requestClose]; rfl)

theorem shutChannel (h : Sleeps held e e') : Sleeps held e e'.shutChannel :=
  h.works (Works.refl e').shutChannel (Same.shutChannel e').asked (by rw [channel_shutChannel]; rfl)

theorem peerClose (h : Sleeps held e e') : Sleeps held e e'.peerClose := by
  unfold Engine.peerClose
  dsimp only
  split
  · exact h.requestClose.shutChannel.deliverFailure _
  · exact h.requestClose.shutChannel

theorem sendPong (h : Sleeps held e e') : Sleeps held e e'.sendPong :=
  h.works (Works.refl e').sendPong (Same.sendPong e').asked
    (by rw [Engine.sendPong, channel_transmit]; exact h.dormant.still)

theorem refuseData (h : Sleeps held e e') : Sleeps held e e'.refuseData :=
  h.works (Works.refl e').refuseData (Same.refuseData h.dormant.still).asked
    (by unfold Engine.refuseData; rw [channel_transmit]; exact h.dormant.still)

end Sleeps

namespace Dozes

theorem trans (h : Dozes held e e') (hg : e'.log <:+ e''.log)
    (h' : Sleeps held e e' → Dozes held e e'') : Dozes held e e'' := by
  cases h with
  | sleeps h => exact h' h
  | wakes h hs hg' => exact .wakes h hs (hg'.trans hg)

/-- Whatever the engine does later, nothing is handed on before the next request. -/
theorem withholds (h : Dozes held e e') : ∃ new, e'.log = new ++ e.log ∧
    ∀ s ∈ untilRequest new, s.event.Withholds held := by
  cases h with
  | sleeps h =>
    obtain ⟨new, hnew, hwith⟩ := h.log
    refine ⟨new, hnew, fun s hs => hwith s ?_⟩
    exact List.mem_reverse.1 ((List.takeWhile_sublist _).subset hs)
  | @wakes e₁ s h hs hg =>
    obtain ⟨new, hnew, hwith⟩ := h.log
    obtain ⟨later, hlater⟩ := hg
    refine ⟨later ++ s :: new, by rw [← hlater, hnew, List.append_assoc, List.cons_append],
      fun s' hs' => hwith s' (List.mem_reverse.1 ?_)⟩
    rw [untilRequest, List.reverse_append, List.reverse_cons, List.append_assoc,
      List.takeWhile_append] at hs'
    split at hs'
    · simpa [List.takeWhile_cons, hs] using hs'
    · exact (List.takeWhile_sublist _).subset hs'

/-! ### Requests -/

theorem sendRequest (h : Sleeps held e e') : Dozes held e e'.sendRequest := by
  unfold Engine.sendRequest
  cases he : e'.job.entry with
  | none => exact .sleeps h
  | some entry =>
    obtain ⟨time, frame, accepted, hdata⟩ := @exists_data_sendBlock entry { e' with
      out := .load entry.payload 0 (payloadLimit entry.header)
      job := e'.job.resetMultiframe } he
    exact .wakes h rfl hdata

theorem startVwtp (h : Sleeps held e e') : Dozes held e e'.startVwtp := by
  have ht : Sleeps held e e'.touchChannel := h.update rfl h.dormant.still rfl (.of_log rfl)
  rcases hj : e'.job.entry with _ | entry
  · simp only [Engine.startVwtp, hj]
    exact .sleeps h
  · have hst := startVwtp_start e' hj
    generalize e'.startVwtp = e'' at hst ⊢
    cases hst with
    | again => exact .sleeps ht.requestSetup
    | request =>
      rw [interrupt_still ht.dormant.still]
      exact sendRequest ht
    | close => exact .sleeps ht.requestClose
    | setup => exact .sleeps ht.requestSetup
    | nothing => exact .sleeps (ht.deliverFailure _)

theorem startIsoTp (h : Sleeps held e e') {entry : PollEntry} (he : e''.job.entry = some entry)
    (hl : e''.log = e'.log) : Dozes held e e''.startIsoTp := by
  unfold Engine.startIsoTp
  rw [he]
  dsimp only
  rw [transmit_eq, hl]
  exact .wakes h rfl (List.suffix_refl _)

theorem dispatch (h : Sleeps held e e') (entry : PollEntry) : Dozes held e (e'.dispatch entry) := by
  have hd : Sleeps held e (e'.emit (.dispatched entry e'.schedule.ticker e'.singleTicket)) := h.emit trivial
  unfold Engine.dispatch
  cases hp : entry.protocol with
  | vwtp20 =>
    have hv : (e'.assign entry).job.isVwtp = true := by
      simp [assign, Engine.emit, PollJob.isVwtp, PollJob.start, PollJob.resetMultiframe, hp]
    exact startVwtp ⟨⟨hv, hd.dormant.still, hd.dormant.single⟩, hd.log⟩
  | _ => exact startIsoTp hd rfl rfl

theorem startSingle (h : Sleeps held e e') (request : SingleRequest) :
    Dozes held e (e'.startSingle request) := by
  have hc : Sleeps held e (e'.capture request).advance := by
    refine ⟨⟨h.dormant.isVwtp, h.dormant.still, fun capture hs => .inl ?_⟩, h.log.trans ⟨[_], rfl, ?_⟩⟩
    · cases hs
      rfl
    · simp [Event.Withholds]
  unfold Engine.startSingle
  split
  · exact .sleeps (h.emit trivial)
  · dsimp only
    split
    · exact dispatch hc _
    · exact .sleeps (hc.endSingle _)

theorem startPass (h : Sleeps held e e') : Sleeps held e e'.startPass := by
  have hp : Sleeps held e { e' with schedule := e'.schedule.startNextPass } := h.of_eq rfl rfl rfl rfl
  unfold Engine.startPass
  dsimp only
  split
  · exact hp.emit trivial
  · exact hp

theorem pollList (h : Sleeps held e e') : Dozes held e e'.pollList := by
  have ha : Sleeps held e e'.advance := h.of_eq rfl rfl rfl rfl
  unfold Engine.pollList
  split
  · exact dispatch ha _
  · split
    · exact .sleeps ha
    · exact .sleeps (ha.emit trivial)
  · exact .sleeps ha

theorem turn (h : Dozes held e e') (ht : Turn e' e'') : Dozes held e e'' := by
  refine h.trans (Grows.turns (.single ht)).log fun h => ?_
  cases ht with
  | shut => exact .sleeps h.shutChannel
  | reopen => exact startVwtp h
  | close => exact .sleeps h.requestClose
  | expire => exact .sleeps h.expireSingle
  | @single request queued =>
    have hq : Sleeps held e { e' with queued } := h.of_eq rfl rfl rfl rfl
    exact startSingle hq request
  | pass => exact .sleeps (startPass h)
  | poll => exact pollList h
  | fail => exact .sleeps h.failTransmission
  | sent success =>
    have hr : Sleeps held e { e' with job := { e'.job with received := 0 } } := h.of_eq rfl rfl rfl rfl
    exact .sleeps (hr.emit trivial)
  | count | grace | release | arm | take => exact .sleeps (h.of_eq rfl rfl rfl rfl)

theorem turns (h : Dozes held e e') (ht : Turns e' e'') : Dozes held e e'' := by
  induction ht with
  | refl => exact h
  | tail _ ht ih => exact ih.turn ht

/-! ### Operations -/

/-- A frame on a channel without a transfer. -/
theorem channelStep (h : Sleeps held e e') (frame : Frame) : Dozes held e (e'.channelStep frame).2 := by
  have hstill := h.dormant.still
  unfold Engine.channelStep
  dsimp only
  cases hs : e'.channel.state with
  | setup =>
    dsimp only
    unfold receiveSetup
    split
    · exact .sleeps h
    · split
      · exact .sleeps (h.loseChannel.deliverFailure _)
      · refine .sleeps (Sleeps.requestParams ?_)
        exact h.update rfl hstill rfl (.of_log rfl)
  | params =>
    dsimp only
    unfold receiveParams
    split
    · exact .sleeps h
    · split
      · exact sendRequest (h.update rfl hstill rfl (.of_log rfl))
      · split
        · exact .sleeps h.peerClose
        · exact .sleeps h
  | closing =>
    dsimp only
    unfold receiveClosing
    dsimp only
    split
    · exact .sleeps h
    · split
      · exact .sleeps h.shutChannel
      · split
        · exact .sleeps h.shutChannel.requestSetup
        · exact .sleeps (h.shutChannel.deliverFailure _)
  | idle =>
    dsimp only
    unfold receiveIdle
    split
    · exact .sleeps h.sendPong
    · split
      · exact .sleeps h.peerClose
      · split
        · exact .sleeps h.refuseData
        · exact .sleeps h
  | transmit =>
    rw [hs] at hstill
    cases hstill
  | receive =>
    rw [hs] at hstill
    cases hstill
  | closed | startPoll | abort => exact .sleeps h

theorem handleFrame (h : Sleeps held e e') (frame : Frame) : Dozes held e (e'.handleFrame frame) := by
  have hother : e'.receiveOther frame = e' := by simp [receiveOther, h.dormant.isVwtp]
  unfold Engine.handleFrame
  split
  · exact .sleeps h
  · split
    · refine turns ?_ (Turns.refl _).settle
      unfold receiveVwtp
      split
      · exact .sleeps h
      · have hstep := channelStep h frame
        rcases hresult : e'.channelStep frame with ⟨after, e₁⟩
        rw [hresult] at hstep
        cases after with
        | chain => exact hstep.turns (turns_chained e₁ .chain)
        | stay => exact hstep
    · rw [hother]
      exact turns (.sleeps h) (Turns.refl _).settle

theorem tick (h : Sleeps held e e') (primary : Bool) : Dozes held e (e'.tick primary) := by
  have hbegin : Sleeps held e (if primary then e'.emit (.stateTicker e'.bus) else e') := by
    split
    · exact h.emit trivial
    · exact h
  refine turns (.sleeps ?_) ((Turns.refl _).pollSend primary).settle
  exact hbegin.of_eq rfl rfl rfl rfl

theorem sendSuccess (h : Sleeps held e e') : Dozes held e e'.sendSuccess := by
  have hd : Sleeps held e { e' with successDue := none } := h.of_eq rfl rfl rfl rfl
  unfold Engine.sendSuccess
  split
  · dsimp only
    split
    · exact turns (.sleeps hd) ((Turns.refl _).pollSend false).settle
    · exact turns (.sleeps hd) (Turns.refl _).settle
  · exact .sleeps h

theorem setList (h : Sleeps held e e') (list : Option (List PollEntry)) (defaultBus : Option BusId) :
    Sleeps held e (e'.setList list defaultBus) := by
  cases hs : e'.single with
  | some capture =>
    rw [setList_single hs]
    refine ⟨⟨h.dormant.isVwtp, h.dormant.still, fun capture' hs' => ?_⟩, h.log.trans (.of_log rfl)⟩
    obtain rfl := Option.some.inj hs'
    exact h.dormant.single capture hs
  | none =>
    rw [setList_periodic hs]
    exact h.of_eq rfl rfl rfl rfl

theorem shutdown (h : Sleeps held e e') : Sleeps held e e'.shutdown := by
  have hq := (h.endSingle .unavailable).refuseQueued
  unfold Engine.shutdown
  dsimp only
  split
  · exact hq.requestClose.shutChannel.of_eq rfl rfl rfl rfl
  · exact hq.of_eq rfl rfl rfl rfl

theorem step (h : Sleeps held e e') (op : Operation) : Dozes held e (e'.step op) := by
  cases op with
  | frame frame => exact handleFrame h frame
  | tick primary => exact tick h primary
  | txComplete frame success => exact turns (.sleeps h) ((Turns.refl e').judgeResult frame success).settle
  | sendSuccess => exact sendSuccess h
  | submit request =>
    have hq : Sleeps held e { e' with queued := e'.queued ++ [request] } := h.of_eq rfl rfl rfl rfl
    exact turns (.sleeps hq) (Turns.refl _).settle
  | setList list defaultBus => exact .sleeps (setList h list defaultBus)
  | setState state =>
    show Dozes held e (e'.setState state)
    unfold setState
    dsimp only
    split <;> exact .sleeps (h.of_eq rfl rfl rfl rfl)
  | shutdown => exact .sleeps (shutdown h)
  | _ => exact .sleeps (h.of_eq rfl rfl rfl rfl)

theorem run (h : Dozes held e e') (ops : List Operation) : Dozes held e (e'.run ops) := by
  induction ops generalizing e' with
  | nil => exact h
  | cons op ops ih => exact ih (h.trans (Grows.step e' op).log fun h => step h op)

end Dozes

end Engine

end EcuPoll
