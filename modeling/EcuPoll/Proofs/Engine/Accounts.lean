import EcuPoll.Proofs.Engine.Moves
import EcuPoll.Proofs.Poll.Passes

/-!
# Single requests are accounted for

`Story` is how single requests leave the queue, one after the other: a request whose caller has gone is
dropped when its turn comes, any other has the bus until it is resolved, and a shutdown refuses those that
still wait. Whatever happens to an engine, the requests handed in are those of its story, then the one that
has the bus, then the queue: `Serves`. So they start in order, and each is in one place: `requests_accounted`.
-/

namespace EcuPoll

/-! ### What happened to single requests -/

/-- Something happened to a single request. -/
def Event.isSingle : Event → Bool
  | .singleStarted _ | .singleDropped _ | .singleResolved _ _ => true
  | _ => false

def Event.started? : Event → Option Nat
  | .singleStarted ticket => some ticket
  | _ => none

def Event.dropped? : Event → Option Nat
  | .singleDropped ticket => some ticket
  | _ => none

def Event.resolved? : Event → Option Nat
  | .singleResolved ticket _ => some ticket
  | _ => none

/-- What happened to single requests, oldest first, in a log with the newest event first. -/
def singleEvents (log : List Stamped) : List Stamped :=
  log.reverse.filter (·.event.isSingle)

/-- The tickets of the single requests to which this happened, in order, in a log with the newest event
first. -/
def tickets (fate : Event → Option Nat) (log : List Stamped) : List Nat :=
  log.reverse.filterMap (fate ·.event)

/-- The single requests that are handed in, in order. -/
def submitted (ops : List Operation) : List SingleRequest :=
  ops.filterMap fun
    | .submit request => some request
    | _ => none

/-- The entry of a request that `singleEntry` lets through. -/
def PollEntry.IsSingle (entry : PollEntry) : Prop :=
  ∃ tx rx request protocol, singleEntry tx rx request protocol = .ok entry

variable {events new log : List Stamped} {ended requests : List SingleRequest}
  {running : Option SingleRequest}

theorem singleEvents_append (new log : List Stamped) :
    singleEvents (new ++ log) = singleEvents log ++ singleEvents new := by
  simp [singleEvents]

theorem singleEvents_eq_nil (h : ∀ s ∈ new, s.event.isSingle = false) : singleEvents new = [] := by
  simpa [singleEvents] using h

theorem tickets_singleEvents {fate : Event → Option Nat}
    (h : ∀ event, event.isSingle = false → fate event = none) (log : List Stamped) :
    (singleEvents log).filterMap (fate ·.event) = tickets fate log := by
  rw [singleEvents, tickets, List.filterMap_filter]
  congr 1
  funext s
  cases hs : s.event.isSingle with
  | true => rfl
  | false => exact (h _ hs).symm

/-- The requests that have left the queue and ended, the one that has the bus, and what happened to
them. -/
inductive Story : List SingleRequest → Option SingleRequest → List Stamped → Prop
  | nothing : Story [] none []
  | started {ended : List SingleRequest} {events : List Stamped} (h : Story ended none events)
    (request : SingleRequest) (time : Nat) :
    Story ended (some request) (events ++ [⟨time, .singleStarted request.ticket⟩])
  | resolved {ended : List SingleRequest} {events : List Stamped} {request : SingleRequest}
    (h : Story ended (some request) events) (time : Nat) (result : SingleResult)
    (hp : result = .error (.invalidRequest .notPollable) → ¬ request.entry.IsSingle) :
    Story (ended ++ [request]) none (events ++ [⟨time, .singleResolved request.ticket result⟩])
  | dropped {ended : List SingleRequest} {events : List Stamped} (h : Story ended none events)
    (request : SingleRequest) (time : Nat) (hg : request.isGone time = true) :
    Story (ended ++ [request]) none (events ++ [⟨time, .singleDropped request.ticket⟩])
  | refused {ended : List SingleRequest} {events : List Stamped} (h : Story ended none events)
    (request : SingleRequest) (time : Nat) :
    Story (ended ++ [request]) none
      (events ++ [⟨time, .singleResolved request.ticket (.error .unavailable)⟩])

/-- The event may happen to the request: its ticket is named, it is dropped only when its caller has gone,
and it is not pollable only if `singleEntry` would not have let it through. -/
def Stamped.Concerns (s : Stamped) (request : SingleRequest) : Prop :=
  match s.event with
  | .singleStarted ticket => ticket = request.ticket
  | .singleDropped ticket => ticket = request.ticket ∧ request.isGone s.time = true
  | .singleResolved ticket result => ticket = request.ticket ∧
    (result = .error (.invalidRequest .notPollable) → ¬ request.entry.IsSingle)
  | _ => False

namespace Story

theorem started_sublist (h : Story ended running events) :
    (events.filterMap (·.event.started?)).Sublist ((ended ++ running.toList).map (·.ticket)) := by
  induction h with
  | nothing => exact .slnil
  | started _ request time ih =>
    simp only [List.filterMap_append, List.map_append, Option.toList_none, List.append_nil] at ih ⊢
    exact ih.append (List.Sublist.refl _)
  | resolved _ time result _ ih =>
    simpa only [List.filterMap_append, List.filterMap_cons, Event.started?, List.filterMap_nil,
      List.append_nil, Option.toList_none, Option.toList_some] using ih
  | dropped _ request time _ ih | refused _ request time ih =>
    simp only [List.filterMap_append, List.filterMap_cons, Event.started?, List.filterMap_nil,
      List.append_nil, Option.toList_none, List.map_append] at ih ⊢
    exact ih.trans (List.sublist_append_left ..)

/-- Every request that has ended was either resolved or dropped, and that once. -/
theorem ended_perm (h : Story ended running events) :
    (ended.map (·.ticket)).Perm
      (events.filterMap (·.event.resolved?) ++ events.filterMap (·.event.dropped?)) := by
  induction h with
  | nothing => exact .nil
  | started _ request time ih =>
    simpa only [List.filterMap_append, List.filterMap_cons, Event.resolved?, Event.dropped?,
      List.filterMap_nil, List.append_nil] using ih
  | dropped _ request time _ ih =>
    simp only [List.filterMap_append, List.filterMap_cons, Event.resolved?, Event.dropped?,
      List.filterMap_nil, List.append_nil, List.map_append]
    rw [← List.append_assoc]
    exact ih.append_right _
  | resolved _ _ _ _ ih | refused _ _ _ ih =>
    simp only [List.filterMap_append, List.filterMap_cons, Event.resolved?, Event.dropped?,
      List.filterMap_nil, List.append_nil, List.map_append]
    exact (ih.append_right _).trans (by
      rw [List.append_assoc, List.append_assoc]
      exact List.perm_append_comm.append_left _)

theorem concerns (h : Story ended running events) :
    ∀ s ∈ events, ∃ request ∈ ended ++ running.toList, s.Concerns request := by
  induction h with
  | nothing => simp
  | started _ request time ih =>
    simp only [List.forall_mem_append, List.forall_mem_singleton]
    refine ⟨fun s hs => ?_, request, by simp, rfl⟩
    obtain ⟨r, hr, hc⟩ := ih s hs
    exact ⟨r, List.mem_append_left _ (by simpa using hr), hc⟩
  | @resolved _ _ request _ time result hp ih =>
    simp only [List.forall_mem_append, List.forall_mem_singleton]
    exact ⟨fun s hs => by simpa using ih s hs, request, by simp, rfl, hp⟩
  | dropped _ request time hg ih =>
    simp only [List.forall_mem_append, List.forall_mem_singleton]
    refine ⟨fun s hs => ?_, request, by simp, rfl, hg⟩
    obtain ⟨r, hr, hc⟩ := ih s hs
    exact ⟨r, by simp_all, hc⟩
  | refused _ request time ih =>
    simp only [List.forall_mem_append, List.forall_mem_singleton]
    refine ⟨fun s hs => ?_, request, by simp, rfl, nofun⟩
    obtain ⟨r, hr, hc⟩ := ih s hs
    exact ⟨r, by simp_all, hc⟩

/-- All requests that wait may be refused at once. -/
theorem refuseAll (h : Story ended none events) (requests : List SingleRequest) (time : Nat) :
    Story (ended ++ requests) none (events ++ requests.map fun request =>
      ⟨time, .singleResolved request.ticket (.error .unavailable)⟩) := by
  induction requests generalizing ended events with
  | nil => simpa using h
  | cons r requests ih => simpa using ih (h.refused r time)

end Story

/-! ### Entries of single requests -/

/-- The entry of a single request is due when it is the whole list. -/
theorem Schedule.next_isSingle {s : Schedule} {entry : PollEntry} (h : entry.IsSingle)
    (hs : s.state < pollStates) : (s.setList (some [entry]) (some s.bus)).next.1 = .due entry := by
  obtain ⟨tx, rx, request, protocol, h⟩ := h
  obtain ⟨htx, hbus, hiv⟩ : entry.tx ≠ 0 ∧ entry.bus = 0 ∧
      entry.intervals = Vector.replicate 4 singleInterval := by
    unfold singleEntry at h
    split at h
    · cases h
    · dsimp only at h
      by_cases htx : tx = 0
      · rw [if_pos htx] at h
        cases h
      · rw [if_neg htx] at h
        split at h
        · cases h
        · split at h
          · cases h
          · cases h
            exact ⟨htx, rfl, rfl⟩
  have htrim : trimList [entry] = [entry] := by
    simp [trimList, PollEntry.isTerminator, htx]
  have hinterval : entry.interval s.state = 999 := by
    rw [PollEntry.interval, hiv, Vector.getElem?_replicate, if_pos (show s.state < 4 from hs)]
    rfl
  have hmine : (s.setList (some [entry]) (some s.bus)).isMine entry = true := by
    simp [isMine, PollEntry.busIn, hbus, setList, rewind]
  have hdue : (s.setList (some [entry]) (some s.bus)).isDue entry = true := by
    rw [isDue, hmine, PollEntry.isDue]
    show (true && (decide (0 < entry.interval s.state) && 0 % entry.interval s.state == 0)) = true
    rw [hinterval]
    rfl
  set first := s.setList (some [entry]) (some s.bus) with hfirst
  have hentries : first.entries = [entry] := htrim
  have hcursor : first.cursor = 0 := rfl
  have hopen : first.passComplete = false := rfl
  simp [next, hentries, hmine, hopen, hcursor, hdue]

namespace Engine
variable {e e' : Engine}

/-- The single request that has the bus. -/
def captured (e : Engine) : Option SingleRequest :=
  e.single.map (·.request)

/-- All that wait are refused at once, and nothing else changes. -/
theorem refuseQueued_eq (e : Engine) : ∃ new, e.refuseQueued = { e with queued := [], log := new ++ e.log } ∧
    singleEvents new = e.queued.map fun request =>
      ⟨e.now, .singleResolved request.ticket (.error .unavailable)⟩ := by
  have hfold : ∀ (queued : List SingleRequest) (e : Engine), ∃ new,
      queued.foldl (fun e r => e.emit (.singleResolved r.ticket (.error .unavailable))) e =
        { e with log := new ++ e.log } ∧ singleEvents new = queued.map fun request =>
          ⟨e.now, .singleResolved request.ticket (.error .unavailable)⟩ := by
    intro queued
    induction queued with
    | nil => exact fun e => ⟨[], rfl, rfl⟩
    | cons r queued ih =>
      intro e
      obtain ⟨new, heq, hnew⟩ := ih (e.emit (.singleResolved r.ticket (.error .unavailable)))
      refine ⟨new ++ [⟨e.now, .singleResolved r.ticket (.error .unavailable)⟩], ?_, ?_⟩
      · rw [List.foldl_cons, heq, List.append_assoc]
        rfl
      · rw [singleEvents_append, hnew]
        rfl
  exact hfold e.queued { e with queued := [] }

/-- Of these requests, handed in one after the other, the first have ended, the next one may have the bus,
and the others wait. -/
structure Serves (requests : List SingleRequest) (e : Engine) : Prop where
  bus_eq : e.schedule.bus = e.bus
  state_lt : e.schedule.state < pollStates
  story : ∃ ended, Story ended e.captured (singleEvents e.log) ∧
    requests = ended ++ e.captured.toList ++ e.queued

namespace Serves

theorem congr (h : Serves requests e) (hb : e'.bus = e.bus) (hs : e'.schedule.bus = e.schedule.bus)
    (ht : e'.schedule.state = e.schedule.state) (hc : e'.single = e.single) (hq : e'.queued = e.queued)
    (hl : Adds (fun event => event.isSingle = false) e e') : Serves requests e' := by
  obtain ⟨ended, hstory, hrequests⟩ := h.story
  obtain ⟨new, hnew, hno⟩ := hl
  refine ⟨by rw [hs, hb]; exact h.bus_eq, by rw [ht]; exact h.state_lt, ended, ?_, ?_⟩
  · rw [hnew, singleEvents_append, singleEvents_eq_nil hno, List.append_nil, captured, hc]
    exact hstory
  · rw [captured, hc, hq]
    exact hrequests

theorem of_eq (h : Serves requests e) (hb : e'.bus = e.bus) (hs : e'.schedule = e.schedule)
    (hc : e'.single = e.single) (hq : e'.queued = e.queued) (hl : e'.log = e.log) :
    Serves requests e' :=
  h.congr hb (by rw [hs]) (by rw [hs]) hc hq (.of_log hl)

theorem works (h : Serves requests e) (hw : Works e e') : Serves requests e' := by
  refine h.congr hw.bus (by rw [hw.schedule]) (by rw [hw.schedule]) hw.single hw.queued ?_
  exact hw.log.mono fun event hev => by cases event <;> first | rfl | exact hev.elim

theorem emit (h : Serves requests e) {event : Event} (hev : event.isSingle = false) :
    Serves requests (e.emit event) :=
  h.congr rfl rfl rfl rfl rfl ((Adds.refl e).emit hev)

theorem sendFlowControl (h : Serves requests e) (id : UInt32) :
    Serves requests (e.sendFlowControl id) := by
  unfold Engine.sendFlowControl
  rw [transmit_eq]
  exact h.congr rfl rfl rfl rfl rfl ⟨[_], rfl, by simp [Event.isSingle]⟩

/-! ### Results -/

theorem finishSingle (h : Serves requests e) (result : SingleResult)
    (hp : result = .error (.invalidRequest .notPollable) →
      ∀ request ∈ e.captured, ¬ request.entry.IsSingle) :
    Serves requests (e.finishSingle result) := by
  unfold Engine.finishSingle
  cases hs : e.single with
  | none => exact h
  | some capture =>
    obtain ⟨ended, hstory, hrequests⟩ := h.story
    have hc : e.captured = some capture.request := by rw [captured, hs, Option.map_some]
    rw [hc] at hstory hrequests
    refine ⟨(Schedule.bus_restore ..).trans h.bus_eq, ?_, ended ++ [capture.request], ?_, ?_⟩
    · show (e.schedule.restore capture.saved).state < pollStates
      rw [Schedule.state_restore]
      exact h.state_lt
    · show Story _ none (singleEvents ([⟨e.now, .singleResolved capture.request.ticket result⟩] ++ e.log))
      rw [singleEvents_append]
      exact hstory.resolved e.now result fun heq => hp heq _ hc
    · show requests = ended ++ [capture.request] ++ [] ++ e.queued
      rw [hrequests, List.append_nil, Option.toList_some]

theorem deliverReply (h : Serves requests e) (data : List UInt8) :
    Serves requests (e.deliverReply data) := by
  have hd := deliverReply_delivered e data
  generalize e.deliverReply data = e' at hd ⊢
  cases hd with
  | report => exact h.emit rfl
  | whole => exact h.finishSingle _ nofun
  | part hs =>
    obtain ⟨ended, hstory, hrequests⟩ := h.story
    rw [captured, hs] at hstory hrequests
    exact ⟨h.bus_eq, h.state_lt, ended, hstory, hrequests⟩

theorem deliverFailure (h : Serves requests e) (failure : PollFailure) :
    Serves requests (e.deliverFailure failure) := by
  unfold Engine.deliverFailure
  split
  · exact h.emit rfl
  · cases failure <;> exact h.finishSingle _ nofun

theorem expireSingle (h : Serves requests e) : Serves requests e.expireSingle := by
  unfold Engine.expireSingle
  split
  · exact h
  · split
    · exact h.finishSingle _ nofun
    · exact h

theorem failTransmission (h : Serves requests e) : Serves requests e.failTransmission := by
  have hw : Serves requests { (if e.job.isVwtp then e.loseChannel else e) with wait := 0 } := by
    split <;> exact h.of_eq rfl rfl rfl rfl rfl
  exact hw.deliverFailure _

/-! ### Sending -/

theorem startVwtp (h : Serves requests e) : Serves requests e.startVwtp := by
  have ht := (Works.refl e).touchChannel
  rcases hj : e.job.entry with _ | entry
  · simp only [Engine.startVwtp, hj]
    exact h
  · have hst := startVwtp_start e hj
    generalize e.startVwtp = e' at hst ⊢
    cases hst with
    | again => exact h.works ht.requestSetup
    | request => exact h.works ht.interrupt.sendRequest
    | close => exact h.works ht.requestClose
    | setup => exact h.works ht.requestSetup
    | nothing => exact (h.works ht).deliverFailure _

theorem dispatch (h : Serves requests e) (entry : PollEntry) : Serves requests (e.dispatch entry) := by
  have hj : Serves requests { e with job := e.job.start entry e.schedule.ticker, active := true } :=
    h.of_eq rfl rfl rfl rfl rfl
  have ha : Serves requests (e.assign entry) := hj.emit rfl
  unfold Engine.dispatch
  split
  · exact ha.startVwtp
  · exact ha.works (Works.refl _).startIsoTp

theorem advance (h : Serves requests e) : Serves requests e.advance :=
  h.congr rfl (Schedule.next_bus _) (Schedule.next_state _) rfl rfl (.of_log rfl)

/-- The first request of the queue is dropped, or it has the bus. One with an entry of `singleEntry` is
sent. -/
theorem startSingle {request : SingleRequest} {queued : List SingleRequest} (h : Serves requests e)
    (hs : e.single = none) (hq : e.queued = request :: queued) :
    Serves requests ({ e with queued }.startSingle request) := by
  obtain ⟨ended, hstory, hrequests⟩ := h.story
  have hc : e.captured = none := by rw [captured, hs, Option.map_none]
  rw [hc] at hstory hrequests
  rw [hq, Option.toList_none, List.append_nil] at hrequests
  unfold Engine.startSingle
  by_cases hg : request.isGone e.now = true
  · rw [if_pos (by exact hg)]
    refine ⟨h.bus_eq, h.state_lt, ended ++ [request], ?_, ?_⟩
    · show Story _ (captured _) (singleEvents ([⟨e.now, .singleDropped request.ticket⟩] ++ e.log))
      rw [singleEvents_append, captured]
      simp only [Engine.emit, hs]
      exact hstory.dropped request e.now hg
    · simp [captured, Engine.emit, hs, hrequests]
  · rw [if_neg (by exact hg)]
    have hcapture : Serves requests ({ e with queued }.capture request) := by
      refine ⟨h.bus_eq, h.state_lt, ended, ?_, ?_⟩
      · show Story _ (some request) (singleEvents ([⟨e.now, .singleStarted request.ticket⟩] ++ e.log))
        rw [singleEvents_append]
        exact hstory.started request e.now
      · simp [captured, capture, Engine.emit, hrequests]
    dsimp only
    cases hn : ({ e with queued }.capture request).schedule.next.1 with
    | due entry => exact hcapture.advance.dispatch _
    | _ =>
      refine hcapture.advance.finishSingle _ fun _ request' hmem hsingle => ?_
      obtain rfl : request = request' := by simpa [captured, Engine.advance, capture, Engine.emit] using hmem
      have hnext := Schedule.next_isSingle hsingle h.state_lt
      rw [h.bus_eq] at hnext
      cases hn.symm.trans hnext

theorem startPass (h : Serves requests e) : Serves requests e.startPass := by
  have hs : Serves requests { e with schedule := e.schedule.startNextPass } :=
    h.congr rfl (Schedule.bus_startNextPass _) (Schedule.state_startNextPass _) rfl rfl (.of_log rfl)
  unfold Engine.startPass
  dsimp only
  split
  · exact hs.emit rfl
  · exact hs

theorem pollList (h : Serves requests e) : Serves requests e.pollList := by
  unfold Engine.pollList
  split
  · exact h.advance.dispatch _
  · split
    · exact h.advance
    · exact h.advance.emit rfl
  · exact h.advance

/-! ### Runs -/

theorem turn (h : Serves requests e) (ht : Turn e e') : Serves requests e' := by
  have hw := Works.refl e
  cases ht with
  | shut => exact h.works hw.shutChannel
  | reopen => exact h.startVwtp
  | close => exact h.works hw.requestClose
  | expire => exact h.expireSingle
  | single hs hq => exact h.startSingle hs hq
  | pass => exact h.startPass
  | poll => exact h.pollList
  | fail => exact h.failTransmission
  | sent success =>
    have hj : Serves requests { e with job := { e.job with received := 0 } } :=
      h.of_eq rfl rfl rfl rfl rfl
    exact hj.emit rfl
  | count | grace | release | arm | take => exact h.of_eq rfl rfl rfl rfl rfl

/-- A shutdown refuses the requests that wait; none has the bus then. -/
theorem refuseQueued (h : Serves requests e) (hs : e.single = none) :
    Serves requests e.refuseQueued := by
  obtain ⟨ended, hstory, hrequests⟩ := h.story
  obtain ⟨new, heq, hnew⟩ := refuseQueued_eq e
  have hc : e.captured = none := by rw [captured, hs, Option.map_none]
  rw [hc] at hstory hrequests
  rw [heq]
  refine ⟨h.bus_eq, h.state_lt, ended ++ e.queued, ?_, ?_⟩
  · show Story _ e.captured (singleEvents (new ++ e.log))
    rw [hc, singleEvents_append, hnew]
    exact hstory.refuseAll e.queued e.now
  · show requests = _ ++ e.captured.toList ++ []
    rw [hc, hrequests]
    simp

theorem move {stray : Prop} (h : Serves requests e) (hm : Move stray e e') : Serves requests e' := by
  have hw := Works.refl e
  cases hm with
  | turn ht => exact h.turn ht
  | throttle => exact h.congr rfl rfl rfl rfl rfl (.of_log rfl)
  | begin => exact h.emit rfl
  | refuse hs => exact h.refuseQueued hs
  | unavailable => exact h.finishSingle _ nofun
  | reply data => exact h.deliverReply data
  | failure failure => exact h.deliverFailure failure
  | reject => exact h.works hw.rejectResponse
  | allow hj id => exact h.sendFlowControl id
  | flow => exact h.works (hw.isoTpFlow ..)
  | lose => exact h.works hw.loseChannel
  | shut => exact h.works hw.shutChannel
  | close => exact h.works hw.requestClose
  | params => exact h.works hw.requestParams
  | request => exact h.works hw.sendRequest
  | setup => exact h.works hw.requestSetup
  | block => exact h.works hw.sendBlock
  | await => exact h.works hw.awaitResponse
  | abort => exact h.works hw.abortTransfer
  | idle => exact h.works hw.goIdle
  | ack => exact h.works hw.sendAck
  | pong => exact h.works hw.sendPong
  | refuseData => exact h.works hw.refuseData
  | elapse | adjust | disarm | halt | progress | assignIds | agree | drop | receive =>
    exact h.of_eq rfl rfl rfl rfl rfl

theorem moves {stray : Prop} (h : Serves requests e) (hm : Moves stray e e') : Serves requests e' := by
  induction hm with
  | refl => exact h
  | tail _ hm ih => exact ih.move hm

theorem setList (h : Serves requests e) (list : Option (List PollEntry)) (defaultBus : Option BusId) :
    Serves requests (e.setList list defaultBus) := by
  cases hs : e.single with
  | some capture =>
    obtain ⟨ended, hstory, hrequests⟩ := h.story
    rw [captured, hs] at hstory hrequests
    rw [setList_single hs]
    exact ⟨h.bus_eq, h.state_lt, ended, hstory, hrequests⟩
  | none =>
    rw [setList_periodic hs]
    exact h.congr rfl rfl rfl rfl rfl (.of_log rfl)

theorem setState (h : Serves requests e) (state : Nat) : Serves requests (e.setState state) := by
  have hs : Serves requests { e with schedule := e.schedule.setState state } := by
    refine ⟨?_, ?_, h.story⟩
    · show (e.schedule.setState state).bus = e.bus
      rw [Schedule.bus_setState, h.bus_eq]
    · show (e.schedule.setState state).state < pollStates
      rw [Schedule.state_setState]
      exact Schedule.clampState_lt state
  unfold Engine.setState
  dsimp only
  split
  · exact hs.of_eq rfl rfl rfl rfl rfl
  · exact hs

theorem enqueue (h : Serves requests e) (request : SingleRequest) :
    Serves (requests ++ [request]) { e with queued := e.queued ++ [request] } := by
  obtain ⟨ended, hstory, hrequests⟩ := h.story
  exact ⟨h.bus_eq, h.state_lt, ended, hstory, by rw [hrequests, List.append_assoc]; rfl⟩

theorem submit (h : Serves requests e) (request : SingleRequest) :
    Serves (requests ++ [request]) (e.submit request) :=
  (h.enqueue request).moves (@submit_moves False e request)

theorem step (h : Serves requests e) (op : Operation) : Serves (requests ++ submitted [op]) (e.step op) := by
  cases op with
  | submit request => exact h.submit request
  | setList list defaultBus => exact (List.append_nil requests).symm ▸ h.setList list defaultBus
  | setState state => exact (List.append_nil requests).symm ▸ h.setState state
  | _ =>
    refine (List.append_nil requests).symm ▸ ?_
    exact h.moves (step_moves e (by simp) (by simp) (by simp))

theorem run (h : Serves requests e) (ops : List Operation) :
    Serves (requests ++ submitted ops) (e.run ops) := by
  induction ops generalizing e requests with
  | nil => exact (List.append_nil requests).symm ▸ h
  | cons op ops ih =>
    have hops : submitted (op :: ops) = submitted [op] ++ submitted ops := by
      rw [← List.singleton_append, submitted, List.filterMap_append]
      rfl
    rw [hops, ← List.append_assoc]
    exact ih (h.step op)

end Serves

theorem serves_new (bus : BusId) (name : String) (reports : Bool) (settings : EngineSettings) :
    Serves [] (Engine.new bus name reports settings) :=
  ⟨rfl, Nat.zero_lt_succ _, [], .nothing, rfl⟩

/-! ### Every run -/

/-- What an engine has done with the requests handed in. -/
structure Accounted (requests : List SingleRequest) (e : Engine) : Prop where
  /-- The first of them have ended one after the other, the next one may have the bus, the others wait. -/
  story : ∃ ended, Story ended e.captured (singleEvents e.log) ∧
    requests = ended ++ e.captured.toList ++ e.queued
  inOrder : (tickets Event.started? e.log).Sublist (requests.map (·.ticket))
  /-- Each of them is resolved, dropped, has the bus, or waits: one of these, and once. -/
  onePlace : (requests.map (·.ticket)).Perm (tickets Event.resolved? e.log ++ tickets Event.dropped? e.log ++
    e.captured.toList.map (·.ticket) ++ e.queued.map (·.ticket))
  concerns : ∀ s ∈ e.log, s.event.isSingle = true → ∃ request ∈ requests, s.Concerns request

theorem Serves.accounted (h : Serves requests e) : Accounted requests e := by
  obtain ⟨ended, hstory, hrequests⟩ := h.story
  have hstarted := hstory.started_sublist
  have hended := hstory.ended_perm
  rw [tickets_singleEvents (by intro event; cases event <;> simp [Event.isSingle, Event.started?])] at hstarted
  rw [tickets_singleEvents (by intro event; cases event <;> simp [Event.isSingle, Event.resolved?]),
    tickets_singleEvents (by intro event; cases event <;> simp [Event.isSingle, Event.dropped?])] at hended
  refine ⟨⟨ended, hstory, hrequests⟩, ?_, ?_, fun s hs hsingle => ?_⟩
  · rw [hrequests, List.map_append]
    exact hstarted.trans (List.sublist_append_left ..)
  · rw [hrequests, List.map_append, List.map_append]
    exact (hended.append_right _).append_right _
  · obtain ⟨request, hmem, hc⟩ := hstory.concerns s (by simpa [singleEvents, hsingle] using hs)
    exact ⟨request, by rw [hrequests]; exact List.mem_append_left _ hmem, hc⟩

theorem singleEvents_finishSingle (e : Engine) (result : SingleResult) :
    singleEvents (e.finishSingle result).log =
      singleEvents e.log ++ e.captured.toList.map fun request =>
        ⟨e.now, .singleResolved request.ticket result⟩ := by
  unfold finishSingle captured
  cases hs : e.single with
  | none => simp
  | some capture =>
    exact singleEvents_append [_] e.log

/-- A shutdown leaves no request behind: the one that has the bus and those that wait are unavailable. -/
theorem shutdown_refuses (e : Engine) :
    e.shutdown.captured = none ∧ e.shutdown.queued = [] ∧
      singleEvents e.shutdown.log = singleEvents e.log ++ (e.captured.toList ++ e.queued).map fun request =>
        ⟨e.now, .singleResolved request.ticket (.error .unavailable)⟩ := by
  obtain ⟨new, hrefuse, hnew⟩ := (e.finishSingle (.error .unavailable)).refuseQueued_eq
  set e₁ := (e.finishSingle (.error .unavailable)).refuseQueued with he₁
  have hclose : Works e₁ (if e₁.channel.isOpen then e₁.requestClose.shutChannel else e₁) := by
    split
    · exact (Works.refl e₁).requestClose.shutChannel
    · exact .refl e₁
  obtain ⟨written, hlog, hwork⟩ := hclose.log
  have hno : ∀ s ∈ written, s.event.isSingle = false := fun s hs => by
    have := hwork s hs
    cases hev : s.event <;> rw [hev] at this <;> first | rfl | exact this.elim
  refine ⟨?_, ?_, ?_⟩
  · show Option.map _ (ite _ _ _ : Engine).single = none
    rw [hclose.single, hrefuse]
    exact congrArg (Option.map _) (single_finishSingle ..)
  · show (ite _ _ _ : Engine).queued = []
    rw [hclose.queued, hrefuse]
  · show singleEvents (ite _ _ _ : Engine).log = _
    rw [hlog, singleEvents_append, singleEvents_eq_nil hno, List.append_nil, hrefuse]
    show singleEvents (new ++ (e.finishSingle _).log) = _
    rw [singleEvents_append, hnew, singleEvents_finishSingle, (Delivers.finishSingle ..).queued,
      (Delivers.finishSingle ..).now, List.map_append, List.append_assoc]

/-- In every run single requests have the bus one at a time and in the order in which they were handed in,
and none is lost or answered twice. A shutdown ends them all. -/
theorem requests_accounted (bus : BusId) (name : String) (reports : Bool) (settings : EngineSettings)
    (ops : List Operation) :
    let e := (Engine.new bus name reports settings).run ops
    Accounted (submitted ops) e ∧
      (e.step .shutdown).captured = none ∧ (e.step .shutdown).queued = [] ∧
      singleEvents (e.step .shutdown).log =
        singleEvents e.log ++ (e.captured.toList ++ e.queued).map fun request =>
          ⟨e.now, .singleResolved request.ticket (.error .unavailable)⟩ := by
  intro e
  have h := (serves_new bus name reports settings).run ops
  exact ⟨h.accounted, shutdown_refuses e⟩

/-- The caller of the second request gives up while the first has the bus. -/
example :
    let bus : BusId := ⟨1, by decide⟩
    let speed : PollEntry := ⟨0x7e0, 0x7e8, 0x22, 0xf40d, [], #v[999, 999, 999, 999], 0, .isoTp⟩
    let e := (Engine.new bus "ecu" false ⟨0, 25, .strict, 0, 0⟩).run
      [.submit ⟨1, speed, 9000, none⟩, .submit ⟨2, speed, 9000, some 50⟩, .submit ⟨3, speed, 9000, none⟩,
        .elapse 100, .frame (EcuFrame.single bus 0x7e8 [0x62, 0xf4, 0x0d, 0x30])]
    tickets Event.started? e.log = [1, 3] ∧ tickets Event.resolved? e.log = [1] ∧
      tickets Event.dropped? e.log = [2] ∧ e.captured.map (·.ticket) = some 3 ∧ e.queued = [] := by
  decide

end Engine

end EcuPoll
