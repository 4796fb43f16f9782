import EcuPoll.Proofs.Engine.Moves
import EcuPoll.Proofs.Poll.Passes

/-!
# Periodic polls follow the list

`Engine.place` is where an engine stands in its poll list, also while a single request has the bus.
Only `startPass` and `pollList` move it; all other moves leave it alone and send no periodic poll
(`Stays`). So the polls that are sent from one list are those of its passes, one after the other:
`periodicPolls_follow_list`.
-/

namespace EcuPoll

/-- The ticker and the entry of a poll that was sent from the list. -/
def Event.periodic? : Event → Option (Nat × PollEntry)
  | .dispatched entry ticker none => some (ticker, entry)
  | _ => none

/-- The polls sent from the list, oldest first, in a log with the newest event first. -/
def periodicPolls (log : List Stamped) : List (Nat × PollEntry) :=
  log.reverse.filterMap (·.event.periodic?)

theorem periodicPolls_append (new log : List Stamped) :
    periodicPolls (new ++ log) = periodicPolls log ++ periodicPolls new := by
  simp [periodicPolls]

theorem periodicPolls_eq_nil {new : List Stamped} (h : ∀ s ∈ new, s.event.periodic? = none) :
    periodicPolls new = [] := by
  simpa [periodicPolls] using h

/-- The operation neither installs a list nor changes the poll state `state`. -/
def Operation.KeepsList (state : Nat) : Operation → Prop
  | .setList _ _ => False
  | .setState state' => Schedule.clampState state' = state
  | _ => True

namespace Engine
variable {e e' e'' : Engine}

/-- The place in the poll list: that of the schedule, or the one saved for the time after the single
request. -/
def place (e : Engine) : Schedule.Snapshot :=
  match e.single with
  | none => e.schedule.snapshot
  | some capture => capture.saved

theorem place_none (hs : e.single = none) : e.place = e.schedule.snapshot := by
  simp [place, hs]

/-- The place in the poll list stays, and no periodic poll is sent. A single request ends at the saved
place only if the poll state is still the one it was saved with. -/
structure Stays (e e' : Engine) : Prop where
  bus : e'.schedule.bus = e.schedule.bus
  state : e'.schedule.state = e.schedule.state
  place : e.place.state = e.schedule.state → e'.place = e.place
  log : Adds (fun event => event.periodic? = none) e e'

namespace Stays

theorem refl (e : Engine) : Stays e e := ⟨rfl, rfl, fun _ => rfl, .refl e⟩

theorem trans (h : Stays e e') (h' : Stays e' e'') : Stays e e'' where
  bus := h'.bus.trans h.bus
  state := h'.state.trans h.state
  place hp := (h'.place (by rw [h.place hp, hp, h.state])).trans (h.place hp)
  log := h.log.trans h'.log

theorem of_eq (hs : e'.schedule = e.schedule) (hc : e'.single = e.single) (hl : e'.log = e.log) :
    Stays e e' :=
  ⟨by rw [hs], by rw [hs], fun _ => by simp only [Engine.place, hs, hc], .of_log hl⟩

theorem of_works (h : Works e e') : Stays e e' where
  bus := by rw [h.schedule]
  state := by rw [h.schedule]
  place _ := by simp only [Engine.place, h.schedule, h.single]
  log := h.log.mono fun event hw => by cases event <;> first | rfl | exact hw.elim

theorem emit (h : Stays e e') {event : Event} (hev : event.periodic? = none) :
    Stays e (e'.emit event) :=
  h.trans ⟨rfl, rfl, fun _ => rfl, (Adds.refl e').emit hev⟩

theorem sendFlowControl (h : Stays e e') (id : UInt32) : Stays e (e'.sendFlowControl id) := by
  refine h.trans ?_
  unfold Engine.sendFlowControl
  rw [transmit_eq]
  exact ⟨rfl, rfl, fun _ => rfl, [_], rfl, by simp [Event.periodic?]⟩

/-! ### Results -/

theorem finishSingle (h : Stays e e') (result : SingleResult) : Stays e (e'.finishSingle result) := by
  refine h.trans ?_
  unfold Engine.finishSingle
  cases hs : e'.single with
  | none => exact .refl e'
  | some capture =>
    refine ⟨?_, ?_, fun hp => ?_, [_], rfl, by simp [Event.periodic?]⟩
    · simp only [Engine.emit, Schedule.restore]
      split <;> rfl
    · simp only [Engine.emit, Schedule.restore]
      split <;> rfl
    · simp only [Engine.place, hs] at hp
      simpa only [Engine.place, Engine.emit, hs] using Schedule.snapshot_restore hp

theorem deliverReply (h : Stays e e') (data : List UInt8) : Stays e (e'.deliverReply data) := by
  refine h.trans ?_
  have hd := deliverReply_delivered e' data
  generalize e'.deliverReply data = e'' at hd ⊢
  cases hd with
  | report => exact (Stays.refl e').emit rfl
  | whole => exact (Stays.refl e').finishSingle _
  | part hs => exact ⟨rfl, rfl, fun _ => by simp only [Engine.place, hs], .of_log rfl⟩

theorem deliverFailure (h : Stays e e') (failure : PollFailure) :
    Stays e (e'.deliverFailure failure) := by
  refine h.trans ?_
  unfold Engine.deliverFailure
  split
  · exact (Stays.refl e').emit rfl
  · exact (Stays.refl e').finishSingle _

theorem expireSingle (h : Stays e e') : Stays e e'.expireSingle := by
  refine h.trans ?_
  unfold Engine.expireSingle
  split
  · exact .refl e'
  · split
    · exact (Stays.refl e').finishSingle _
    · exact .refl e'

theorem failTransmission (h : Stays e e') : Stays e e'.failTransmission := by
  unfold Engine.failTransmission
  refine Stays.deliverFailure ?_ _
  split <;> exact h.trans (.of_eq rfl rfl rfl)

theorem reportSent (h : Stays e e') (success : Bool) : Stays e (e'.reportSent success) := by
  refine Stays.emit ?_ rfl
  exact h.trans (.of_eq rfl rfl rfl)

theorem refuseQueued (h : Stays e e') : Stays e e'.refuseQueued :=
  refuseQueued_keeps (P := Stays e) (h.trans (.of_eq rfl rfl rfl)) fun _ _ h => h.emit rfl

/-! ### Sending -/

theorem startVwtp (h : Stays e e') : Stays e e'.startVwtp := by
  refine h.trans ?_
  have ht := (Works.refl e').touchChannel
  rcases hj : e'.job.entry with _ | entry
  · simp only [Engine.startVwtp, hj]
    exact .refl e'
  · have hst := startVwtp_start e' hj
    generalize e'.startVwtp = e'' at hst ⊢
    cases hst with
    | again => exact .of_works ht.requestSetup
    | request => exact .of_works ht.interrupt.sendRequest
    | close => exact .of_works ht.requestClose
    | setup => exact .of_works ht.requestSetup
    | nothing => exact (Stays.of_works ht).deliverFailure _

/-- The transport of an entry that has become the poll in flight. -/
theorem dispatch (entry : PollEntry) (h : Stays e (e'.assign entry)) :
    Stays e (e'.dispatch entry) := by
  unfold Engine.dispatch
  split
  · exact h.startVwtp
  · exact h.trans (.of_works (Works.refl _).startIsoTp)

theorem startSingle (h : Stays e e') (hs : e'.single = none) (request : SingleRequest) :
    Stays e (e'.startSingle request) := by
  refine h.trans ?_
  unfold Engine.startSingle
  split
  · exact (Stays.refl e').emit rfl
  · have hc : Stays e' (e'.capture request).advance := by
      refine ⟨Schedule.next_bus _, Schedule.next_state _, fun _ => ?_, [_], rfl,
        by simp [Event.periodic?]⟩
      simp [Engine.place, advance, capture, Engine.emit, hs]
    dsimp only
    cases (e'.capture request).schedule.next.1 with
    | due entry =>
      exact Stays.dispatch entry (hc.trans ⟨rfl, rfl, fun _ => rfl, [_], rfl, by
        simp [Event.periodic?, singleTicket, advance, capture, Engine.emit]⟩)
    | _ => exact hc.finishSingle _

end Stays

/-- A turn leaves the place in the list alone, unless it begins a pass or sends a poll of the list. -/
theorem Turn.stays (h : Turn e e') :
    Stays e e' ∨ e.single = none ∧ (e' = e.startPass ∨ e' = e.pollList) := by
  have hr := Stays.refl e
  cases h with
  | count => exact .inl (.of_eq rfl rfl rfl)
  | grace => exact .inl (.of_eq rfl rfl rfl)
  | shut => exact .inl (.of_works (Works.refl e).shutChannel)
  | reopen => exact .inl hr.startVwtp
  | close => exact .inl (.of_works (Works.refl e).requestClose)
  | expire => exact .inl hr.expireSingle
  | release => exact .inl (.of_eq rfl rfl rfl)
  | @single request queued hs hq =>
    have hq : Stays e { e with queued } := .of_eq rfl rfl rfl
    exact .inl (hq.startSingle hs request)
  | pass hw hs hq => exact .inr ⟨hs, .inl rfl⟩
  | poll hw hs hq hp hc => exact .inr ⟨hs, .inr rfl⟩
  | arm due => exact .inl (.of_eq rfl rfl rfl)
  | take => exact .inl (.of_eq rfl rfl rfl)
  | fail => exact .inl hr.failTransmission
  | sent success ha hs => exact .inl (hr.reportSent success)

theorem Move.stays {stray : Prop} (h : Move stray e e') :
    Stays e e' ∨ e.single = none ∧ (e' = e.startPass ∨ e' = e.pollList) := by
  have hr := Stays.refl e
  have hw := Works.refl e
  cases h with
  | turn h => exact h.stays
  | throttle => exact .inl ⟨rfl, rfl, fun _ => by simp only [place]; rfl, .of_log rfl⟩
  | begin => exact .inl (hr.emit rfl)
  | refuse => exact .inl hr.refuseQueued
  | unavailable => exact .inl (hr.finishSingle _)
  | reply data => exact .inl (hr.deliverReply data)
  | failure failure => exact .inl (hr.deliverFailure failure)
  | reject => exact .inl (.of_works hw.rejectResponse)
  | allow hj id => exact .inl (hr.sendFlowControl id)
  | flow => exact .inl (.of_works (hw.isoTpFlow ..))
  | lose => exact .inl (.of_works hw.loseChannel)
  | shut => exact .inl (.of_works hw.shutChannel)
  | close => exact .inl (.of_works hw.requestClose)
  | params => exact .inl (.of_works hw.requestParams)
  | request => exact .inl (.of_works hw.sendRequest)
  | setup => exact .inl (.of_works hw.requestSetup)
  | block => exact .inl (.of_works hw.sendBlock)
  | await => exact .inl (.of_works hw.awaitResponse)
  | abort => exact .inl (.of_works hw.abortTransfer)
  | idle => exact .inl (.of_works hw.goIdle)
  | ack => exact .inl (.of_works hw.sendAck)
  | pong => exact .inl (.of_works hw.sendPong)
  | refuseData => exact .inl (.of_works hw.refuseData)
  | elapse | adjust | disarm | halt | progress | assignIds | agree | drop | receive =>
    exact .inl (.of_eq rfl rfl rfl)

/-! ### The course of an engine -/

/-- Since the log `base`, the polls sent from the list are those of its course up to where the engine
stands now. -/
structure Follows (bus : BusId) (list : List PollEntry) (defaultBus : Option BusId) (state : Nat)
    (base : List Stamped) (e : Engine) : Prop where
  bus_eq : e.schedule.bus = bus
  state_eq : e.schedule.state = state
  course : ∃ new, e.log = new ++ base ∧
    e.place.OnCourse bus list defaultBus state (periodicPolls new)

namespace Follows
variable {bus : BusId} {list : List PollEntry} {defaultBus : Option BusId} {state : Nat}
  {base : List Stamped}

theorem stays (h : Follows bus list defaultBus state base e) (hs : Stays e e') :
    Follows bus list defaultBus state base e' := by
  obtain ⟨new, hnew, hc⟩ := h.course
  obtain ⟨new', hnew', hno⟩ := hs.log
  refine ⟨hs.bus.trans h.bus_eq, hs.state.trans h.state_eq, new' ++ new, ?_, ?_⟩
  · rw [hnew', hnew, List.append_assoc]
  · rw [hs.place (hc.state_eq.trans h.state_eq.symm), periodicPolls_append, periodicPolls_eq_nil hno,
      List.append_nil]
    exact hc

theorem startPass (h : Follows bus list defaultBus state base e) (hs : e.single = none) :
    Follows bus list defaultBus state base e.startPass := by
  obtain ⟨new, hnew, hc⟩ := h.course
  obtain rfl := h.bus_eq
  rw [place_none hs] at hc
  have hp : Follows e.schedule.bus list defaultBus state base
      { e with schedule := e.schedule.startNextPass } := by
    refine ⟨Schedule.bus_startNextPass _, ?_, new, hnew, ?_⟩
    · have := hc.startNextPass.state_eq
      exact this
    · simp only [place, hs]
      exact hc.startNextPass
  unfold Engine.startPass
  dsimp only
  split
  · exact hp.stays ((Stays.refl _).emit rfl)
  · exact hp

theorem pollList (h : Follows bus list defaultBus state base e) (hs : e.single = none) :
    Follows bus list defaultBus state base e.pollList := by
  obtain ⟨new, hnew, hc⟩ := h.course
  obtain rfl := h.bus_eq
  rw [place_none hs] at hc
  have hn := hc.next
  have hadv : ∀ polls, e.schedule.next.2.snapshot.OnCourse e.schedule.bus list defaultBus state polls →
      polls = periodicPolls new → Follows e.schedule.bus list defaultBus state base e.advance := by
    rintro _ hn rfl
    refine ⟨Schedule.next_bus _, hn.state_eq, new, hnew, ?_⟩
    simp only [place, advance, hs]
    exact hn
  unfold Engine.pollList
  cases hnext : e.schedule.next.1 with
  | due entry =>
    rw [hnext] at hn
    refine Follows.stays (e := e.advance.assign entry) ?_ (Stays.dispatch entry (.refl _))
    refine ⟨Schedule.next_bus _, hn.state_eq, _ :: new, congrArg (_ :: ·) hnew, ?_⟩
    have hpoll : periodicPolls
        [⟨e.now, .dispatched entry e.schedule.next.2.ticker e.advance.singleTicket⟩] =
        [(e.schedule.ticker, entry)] := by
      simp [periodicPolls, Event.periodic?, singleTicket, advance, hs, Schedule.next_ticker]
    show Schedule.Snapshot.OnCourse _ _ _ _ (e.advance.assign entry).place (periodicPolls
      ([⟨e.now, .dispatched entry e.schedule.next.2.ticker e.advance.singleTicket⟩] ++ new))
    rw [periodicPolls_append, hpoll]
    simp only [place, assign, emit, advance, hs]
    exact hn
  | passComplete =>
    dsimp only
    rw [hnext] at hn
    split
    · exact hadv _ hn rfl
    · exact (hadv _ hn rfl).stays ((Stays.refl _).emit rfl)
  | empty =>
    rw [hnext] at hn
    exact hadv _ hn rfl

theorem move {stray : Prop} (h : Follows bus list defaultBus state base e) (hm : Move stray e e') :
    Follows bus list defaultBus state base e' := by
  obtain hs | ⟨hs, rfl | rfl⟩ := hm.stays
  · exact h.stays hs
  · exact h.startPass hs
  · exact h.pollList hs

theorem moves {stray : Prop} (h : Follows bus list defaultBus state base e)
    (hm : Moves stray e e') : Follows bus list defaultBus state base e' := by
  induction hm with
  | refl => exact h
  | tail _ hm ih => exact ih.move hm

theorem step (h : Follows bus list defaultBus state base e) {op : Operation}
    (hop : op.KeepsList state) : Follows bus list defaultBus state base (e.step op) := by
  cases op with
  | setList list' bus' => exact hop.elim
  | setState state' =>
    have hst : Schedule.clampState state' = e.schedule.state := Eq.trans hop h.state_eq.symm
    have hkeep : e.step (.setState state') = e := by
      show e.setState state' = e
      simp [setState, Schedule.setState, hst]
    rw [hkeep]
    exact h
  | submit request =>
    have hq : Stays e { e with queued := e.queued ++ [request] } := .of_eq rfl rfl rfl
    exact (h.stays hq).moves (@submit_moves False e request)
  | _ => exact h.moves (step_moves e (by simp) (by simp) (by simp))

theorem run (h : Follows bus list defaultBus state base e) {ops : List Operation}
    (hops : ∀ op ∈ ops, op.KeepsList state) :
    Follows bus list defaultBus state base (e.run ops) := by
  induction ops generalizing e with
  | nil => exact h
  | cons op ops ih =>
    rw [List.forall_mem_cons] at hops
    exact ih (h.step hops.1) hops.2

/-- A list that is installed while no single request has the bus is polled from its start. -/
theorem setList (hs : e.single = none) (list : Option (List PollEntry)) (defaultBus : Option BusId) :
    Follows e.schedule.bus ((list.map trimList).getD []) defaultBus e.schedule.state e.log
      (e.setList list defaultBus) := by
  have heq : e.setList list defaultBus =
      { e with schedule := e.schedule.setList list defaultBus, wait := 0 } := by
    simp [Engine.setList, hs]
  rw [heq]
  refine ⟨rfl, rfl, [], rfl, ?_⟩
  rw [place_none (by exact hs)]
  exact .start list defaultBus e.schedule.state

end Follows

/-! ### The bus and the log -/

/-- The schedule keeps its bus, and the log keeps what is in it. -/
structure Grows (e e' : Engine) : Prop where
  bus : e'.schedule.bus = e.schedule.bus
  log : e.log <:+ e'.log

namespace Grows

theorem refl (e : Engine) : Grows e e := ⟨rfl, List.suffix_refl _⟩

theorem trans (h : Grows e e') (h' : Grows e' e'') : Grows e e'' :=
  ⟨h'.bus.trans h.bus, h.log.trans h'.log⟩

theorem of_stays (h : Stays e e') : Grows e e' :=
  let ⟨new, hnew, _⟩ := h.log
  ⟨h.bus, new, hnew.symm⟩

theorem startPass (e : Engine) : Grows e e.startPass := by
  unfold Engine.startPass Schedule.startNextPass
  dsimp only
  split <;> split <;> first | exact ⟨rfl, List.suffix_refl _⟩ | exact ⟨rfl, List.suffix_cons ..⟩

theorem pollList (e : Engine) : Grows e e.pollList := by
  have ha : e.advance.schedule.bus = e.schedule.bus := Schedule.next_bus _
  unfold Engine.pollList
  cases e.schedule.next.1 with
  | due entry =>
    have hassign : Grows e (e.advance.assign entry) := ⟨ha, List.suffix_cons ..⟩
    exact hassign.trans (of_stays (Stays.dispatch entry (.refl _)))
  | passComplete =>
    dsimp only
    split
    · exact ⟨ha, List.suffix_refl _⟩
    · exact ⟨ha, List.suffix_cons ..⟩
  | empty => exact ⟨ha, List.suffix_refl _⟩

theorem move {stray : Prop} (h : Move stray e e') : Grows e e' := by
  obtain hs | ⟨-, rfl | rfl⟩ := h.stays
  · exact of_stays hs
  · exact startPass e
  · exact pollList e

theorem moves {stray : Prop} (h : Moves stray e e') : Grows e e' := by
  induction h with
  | refl => exact refl e
  | tail _ hm ih => exact ih.trans (move hm)

theorem step (e : Engine) (op : Operation) : Grows e (e.step op) := by
  cases op with
  | setList list defaultBus =>
    show Grows e (e.setList list defaultBus)
    unfold setList
    split <;> exact ⟨rfl, List.suffix_refl _⟩
  | setState state =>
    show Grows e (e.setState state)
    unfold setState Schedule.setState
    dsimp only
    split <;> split <;> exact ⟨rfl, List.suffix_refl _⟩
  | submit request =>
    have hq : Grows e { e with queued := e.queued ++ [request] } := ⟨rfl, List.suffix_refl _⟩
    exact hq.trans (moves (@submit_moves False e request))
  | _ => exact moves (step_moves e (by simp) (by simp) (by simp))

theorem run (e : Engine) (ops : List Operation) : Grows e (e.run ops) := by
  induction ops generalizing e with
  | nil => exact refl e
  | cons op ops ih => exact (step e op).trans (ih _)

theorem turns (h : Turns e e') : Grows e e' :=
  moves ((@Moves.refl False e).turns h)

end Grows

/-- One of the later events satisfies `P`. -/
def Shows (P : Event → Prop) (e e' : Engine) : Prop :=
  ∃ new, e'.log = new ++ e.log ∧ ∃ s ∈ new, P s.event

namespace Shows
variable {P : Event → Prop}

theorem emit (e : Engine) {event : Event} (hev : P event) : Shows P e (e.emit event) :=
  ⟨[_], rfl, _, List.mem_singleton.2 rfl, hev⟩

theorem grows (h : Shows P e e') (hg : e'.log <:+ e''.log) : Shows P e e'' := by
  obtain ⟨new, hnew, s, hs, hev⟩ := h
  obtain ⟨new', hnew'⟩ := hg
  exact ⟨new' ++ new, by rw [← hnew', hnew, List.append_assoc], s, List.mem_append_right _ hs, hev⟩

theorem of_grows (hg : e.log <:+ e'.log) (h : Shows P e' e'') : Shows P e e'' := by
  obtain ⟨new, hnew, s, hs, hev⟩ := h
  obtain ⟨new', hnew'⟩ := hg
  exact ⟨new ++ new', by rw [hnew, ← hnew', List.append_assoc], s, List.mem_append_left _ hs, hev⟩

theorem not_adds {Q : Event → Prop} (h : Shows P e e') (hPQ : ∀ event, P event → ¬ Q event) :
    ¬ Adds Q e e' := by
  obtain ⟨new, hnew, s, hs, hev⟩ := h
  rintro ⟨new', hnew', hQ⟩
  have heq := List.append_cancel_right (hnew.symm.trans hnew')
  exact hPQ _ hev (hQ s (heq ▸ hs))

theorem exists_mem_take (h : Shows P e e') : ∃ s ∈ e'.log.take (e'.log.length - e.log.length), P s.event := by
  obtain ⟨new, hnew, s, hs, hev⟩ := h
  refine ⟨s, ?_, hev⟩
  rw [hnew, List.length_append, Nat.add_sub_cancel, List.take_left]
  exact hs

/-- What shows after two steps showed after the first or after the second. -/
theorem split (h : Shows P e e'') (hg : e.log <:+ e'.log) (hg' : e'.log <:+ e''.log) :
    Shows P e e' ∨ Shows P e' e'' := by
  obtain ⟨new, hnew, s, hs, hev⟩ := h
  obtain ⟨first, hfirst⟩ := hg
  obtain ⟨second, hsecond⟩ := hg'
  have heq : new = second ++ first := by
    refine List.append_cancel_right (hnew.symm.trans ?_)
    rw [← hsecond, ← hfirst, List.append_assoc]
  rcases List.mem_append.1 (heq ▸ hs) with hs | hs
  · exact .inr ⟨second, hsecond.symm, s, hs, hev⟩
  · exact .inl ⟨first, hfirst.symm, s, hs, hev⟩

end Shows

/-! ### Every run -/

/-- From the time a list is installed, and until the list or the poll state is replaced, the polls sent
from it are those of its passes in order, as far as the run has come. -/
theorem periodicPolls_follow_list (bus : BusId) (name : String) (reports : Bool) (settings : EngineSettings)
    (before : List Operation) (list : Option (List PollEntry)) (defaultBus : Option BusId)
    (ops : List Operation) (e : Engine) (he : e = (Engine.new bus name reports settings).run before)
    (hs : e.single = none) (hops : ∀ op ∈ ops, op.KeepsList e.schedule.state) :
    ∃ new passes, (e.run (.setList list defaultBus :: ops)).log = new ++ e.log ∧
      periodicPolls new <+: (List.range passes).flatMap
        (Schedule.passPolls bus ((list.map trimList).getD []) defaultBus e.schedule.state) := by
  have hbus : e.schedule.bus = bus := by
    rw [he]
    exact (Grows.run _ before).bus
  obtain ⟨new, hnew, hc⟩ := ((Follows.setList hs list defaultBus).run hops).course
  obtain ⟨passes, hprefix⟩ := hc.polls_initial
  exact ⟨new, passes, hnew, hbus ▸ hprefix⟩

/-- A single request takes the bus during the first pass over a list whose second entry is due in every
other pass. -/
theorem periodicPolls_follow_list_example :
    let bus : BusId := ⟨1, by decide⟩
    let speed : PollEntry := ⟨0x7e0, 0x7e8, 0x22, 0xf40d, [], #v[1, 1, 1, 1], 0, .isoTp⟩
    let charge : PollEntry := ⟨0x7e1, 0x7e9, 0x22, 0x028c, [], #v[2, 2, 2, 2], 0, .isoTp⟩
    let voltage : PollEntry := ⟨0x7e2, 0x7ea, 0x22, 0x1e3b, [], #v[1, 1, 1, 1], 1, .isoTp⟩
    let e := Engine.new bus "ecu" false ⟨0, 25, .strict, 0, 0⟩
    let ops : List Operation := [.tick true, .tick true, .tick true, .submit ⟨1, voltage, 9000, none⟩,
      .elapse 3000, .tick true, .tick true, .tick true, .tick true]
    (∃ new passes, (e.run (.setList (some [speed, charge]) (some bus) :: ops)).log = new ++ e.log ∧
      periodicPolls new <+: (List.range passes).flatMap
        (Schedule.passPolls bus ((some [speed, charge]).map trimList |>.getD []) (some bus) 0)) ∧
    periodicPolls (e.run (.setList (some [speed, charge]) (some bus) :: ops)).log =
      [(0, speed), (0, charge), (1, speed)] := by
  intro bus speed charge voltage e ops
  refine ⟨periodicPolls_follow_list bus "ecu" false _ [] _ _ ops e rfl rfl ?_, ?_⟩
  · simp [ops, Operation.KeepsList]
  · decide

end Engine

end EcuPoll
