import EcuPoll.Proofs.Engine.Fates
import EcuPoll.Proofs.Engine.Interludes

/-!
# The list of an engine

A single request puts its own entry in the place of the poll list, and the list aside. It is put back when the
request ends, however that comes about, and a list that is installed meanwhile is put aside in its stead. So the
list of an engine is never lost (`HasList`): between two operations the schedule holds it, or the entry of the
single request that has the bus (`between_operations`).
-/

namespace EcuPoll

/-- The list after an operation, if it was `list` before. -/
def Operation.installed (list : Option (List PollEntry)) : Operation → Option (List PollEntry)
  | .setList list _ => list
  | _ => list

/-- The list that was installed last. -/
def lastInstalled (ops : List Operation) : Option (List PollEntry) :=
  ops.foldl Operation.installed none

theorem Operation.installed_eq {op : Operation} (h : ∀ list defaultBus, op ≠ .setList list defaultBus)
    (list : Option (List PollEntry)) : op.installed list = list := by
  cases op with
  | setList list defaultBus => exact absurd rfl (h list defaultBus)
  | _ => rfl

/-- An entry that is handed out is no terminator. -/
theorem Schedule.list_eq_of_due {s : Schedule} {entry entry' : PollEntry} {defaultBus : Option BusId}
    (h : (s.setList (some [entry]) defaultBus).next.1 = .due entry') :
    (s.setList (some [entry]) defaultBus).list = some [entry] := by
  cases ht : entry.isTerminator with
  | false => simp [setList, rewind, trimList, ht]
  | true => simp [setList, rewind, trimList, ht, next, entries] at h

namespace Engine
variable {stray : Prop} {list : Option (List PollEntry)} {e e' : Engine}

/-- The engine's list is in the schedule or, while a single request has the bus, aside. -/
structure HasList (list : Option (List PollEntry)) (e : Engine) : Prop where
  free : e.single = none → e.schedule.list = list
  taken : ∀ capture, e.single = some capture →
    e.schedule.list = some [capture.request.entry] ∧ capture.saved.list = list

namespace HasList

theorem congr (h : HasList list e) (hs : e'.single = e.single) (hl : e'.schedule.list = e.schedule.list) :
    HasList list e' :=
  ⟨fun hn => hl.trans (h.free (hs ▸ hn)), fun capture hc => hl.symm ▸ h.taken capture (hs ▸ hc)⟩

theorem works (h : HasList list e) (hw : Works e e') : HasList list e' :=
  h.congr hw.single (by rw [hw.schedule])

/-! ### Results -/

theorem finishSingle (h : HasList list e) (result : SingleResult) : HasList list (e.finishSingle result) := by
  unfold Engine.finishSingle
  cases hc : e.single with
  | none => exact h
  | some capture =>
    exact ⟨fun _ => (Schedule.list_restore ..).trans (h.taken capture hc).2, nofun⟩

theorem deliverReply (h : HasList list e) (data : List UInt8) : HasList list (e.deliverReply data) := by
  have hd := deliverReply_delivered e data
  generalize e.deliverReply data = e' at hd ⊢
  cases hd with
  | report => exact h.congr rfl rfl
  | whole => exact h.finishSingle _
  | @part capture hc =>
    refine ⟨nofun, fun capture' hc' => ?_⟩
    cases hc'
    exact h.taken capture hc

theorem deliverFailure (h : HasList list e) (failure : PollFailure) :
    HasList list (e.deliverFailure failure) := by
  unfold Engine.deliverFailure
  split
  · exact h.congr rfl rfl
  · exact h.finishSingle _

theorem expireSingle (h : HasList list e) : HasList list e.expireSingle := by
  unfold Engine.expireSingle
  split
  · exact h
  · split
    · exact h.finishSingle _
    · exact h

theorem failTransmission (h : HasList list e) : HasList list e.failTransmission := by
  have hw : HasList list { (if e.job.isVwtp then e.loseChannel else e) with wait := 0 } := by
    split <;> exact h.congr rfl rfl
  exact hw.deliverFailure _

/-! ### Sending -/

theorem startVwtp (h : HasList list e) : HasList list e.startVwtp := by
  have ht := (Works.refl e).touchChannel
  rcases hj : e.job.entry with _ | entry
  · simp only [Engine.startVwtp, hj]
    exact h
  · have hst := startVwtp_start e hj
    generalize e.startVwtp = e' at hst ⊢
    cases hst with
    | again => exact h.works ht.requestSetup
    | request => exact h.works ht.interrupt.sendRequest
    | close => exact h.works ht.requestClose
    | setup => exact h.works ht.requestSetup
    | nothing => exact (h.works ht).deliverFailure _

theorem dispatch (h : HasList list e) (entry : PollEntry) : HasList list (e.dispatch entry) := by
  have ha : HasList list (e.assign entry) := h.congr rfl rfl
  unfold Engine.dispatch
  split
  · exact ha.startVwtp
  · exact ha.works (Works.refl _).startIsoTp

theorem advance (h : HasList list e) : HasList list e.advance :=
  h.congr rfl (Schedule.next_list _)

/-- A single request whose entry is handed out has the schedule to itself. With any other entry it ends at
once. -/
theorem startSingle (h : HasList list e) (hs : e.single = none) (request : SingleRequest) :
    HasList list (e.startSingle request) := by
  unfold Engine.startSingle
  split
  · exact h.congr rfl rfl
  · dsimp only
    cases hdue : (e.capture request).schedule.next.1 with
    | due _ =>
      have hc : HasList list (e.capture request) := by
        refine ⟨nofun, fun capture hc => ?_⟩
        cases hc
        exact ⟨Schedule.list_eq_of_due hdue, h.free hs⟩
      exact hc.advance.dispatch _
    | _ =>
      refine ⟨fun _ => (Schedule.list_restore ..).trans (h.free hs), fun capture hc => ?_⟩
      rw [single_finishSingle] at hc
      cases hc

theorem startPass (h : HasList list e) : HasList list e.startPass := by
  unfold Engine.startPass
  dsimp only
  split <;> exact h.congr rfl (Schedule.list_startNextPass _)

theorem pollList (h : HasList list e) : HasList list e.pollList := by
  unfold Engine.pollList
  split
  · exact h.advance.dispatch _
  · split
    · exact h.advance
    · exact h.advance.congr rfl rfl
  · exact h.advance

/-! ### Runs -/

theorem turn (h : HasList list e) (ht : Turn e e') : HasList list e' := by
  have hw := Works.refl e
  cases ht with
  | shut => exact h.works hw.shutChannel
  | reopen => exact h.startVwtp
  | close => exact h.works hw.requestClose
  | expire => exact h.expireSingle
  | @single request queued hs =>
    have hq : HasList list { e with queued } := h.congr rfl rfl
    exact hq.startSingle hs request
  | pass => exact h.startPass
  | poll => exact h.pollList
  | fail => exact h.failTransmission
  | count | grace | release | arm | take | sent => exact h.congr rfl rfl

theorem refuseQueued (h : HasList list e) : HasList list e.refuseQueued := by
  obtain ⟨new, heq, -⟩ := refuseQueued_eq e
  rw [heq]
  exact h.congr rfl rfl

theorem move (h : HasList list e) (hm : Move stray e e') : HasList list e' := by
  have hw := Works.refl e
  cases hm with
  | turn ht => exact h.turn ht
  | refuse => exact h.refuseQueued
  | unavailable => exact h.finishSingle _
  | reply data => exact h.deliverReply data
  | failure failure => exact h.deliverFailure failure
  | reject => exact h.works hw.rejectResponse
  | allow hj id =>
    unfold sendFlowControl
    rw [transmit_eq]
    exact h.congr rfl rfl
  | flow => exact h.works (hw.isoTpFlow ..)
  | lose => exact h.works hw.loseChannel
  | shut => exact h.works hw.shutChannel
  | close => exact h.works hw.requestClose
  | params => exact h.works hw.requestParams
  | request => exact h.works hw.sendRequest
  | setup => exact h.works hw.requestSetup
  | block => exact h.works hw.sendBlock
  | await => exact h.works hw.awaitResponse
  | abort => exact h.works hw.abortTransfer
  | idle => exact h.works hw.goIdle
  | ack => exact h.works hw.sendAck
  | pong => exact h.works hw.sendPong
  | refuseData => exact h.works hw.refuseData
  | throttle | begin | elapse | adjust | disarm | halt | progress | assignIds | agree | drop | receive =>
    exact h.congr rfl rfl

theorem moves (h : HasList list e) (hm : Moves stray e e') : HasList list e' := by
  induction hm with
  | refl => exact h
  | tail _ hm ih => exact ih.move hm

/-- A new list takes the place of the old one, wherever that is. -/
theorem setList (h : HasList list e) (new : Option (List PollEntry)) (defaultBus : Option BusId) :
    HasList (new.map trimList) (e.setList new defaultBus) := by
  cases hs : e.single with
  | some capture =>
    rw [setList_single hs]
    refine ⟨nofun, fun capture' hc' => ?_⟩
    cases hc'
    exact ⟨(h.taken capture hs).1, rfl⟩
  | none =>
    rw [setList_periodic hs]
    exact ⟨fun _ => rfl, fun capture hc => absurd (hs.symm.trans hc) (by nofun)⟩

theorem setState (h : HasList list e) (state : Nat) : HasList list (e.setState state) := by
  unfold Engine.setState
  dsimp only
  split <;> exact h.congr rfl (Schedule.list_setState ..)

theorem step (h : HasList (list.map trimList) e) (op : Operation) :
    HasList ((op.installed list).map trimList) (e.step op) := by
  cases op with
  | setList new defaultBus => exact h.setList new defaultBus
  | setState state => exact h.setState state
  | submit request =>
    have hq : HasList (list.map trimList) { e with queued := e.queued ++ [request] } := h.congr rfl rfl
    exact hq.moves (@submit_moves False e request)
  | _ =>
    rw [Operation.installed_eq (by simp)]
    exact h.moves (step_moves e (by simp) (by simp) (by simp))

theorem run (h : HasList (list.map trimList) e) (ops : List Operation) :
    HasList ((ops.foldl Operation.installed list).map trimList) (e.run ops) := by
  induction ops generalizing e list with
  | nil => exact h
  | cons op ops ih => exact ih (h.step op)

end HasList

/-- Between two operations no result of a write waits to be judged, and single requests wait only behind the one
that has the bus. The schedule holds the entry of that one, and if there is none, the list that was installed
last. -/
theorem between_operations (bus : BusId) (name : String) (reports : Bool) (settings : EngineSettings)
    (ops : List Operation) :
    let e := (Engine.new bus name reports settings).run ops
    e.results = [] ∧ (e.single = none → e.queued = []) ∧
      e.schedule.list = match e.single with
        | some capture => some [capture.request.entry]
        | none => (lastInstalled ops).map trimList := by
  intro e
  have hrest : e.AtRest := AtRest.run ⟨rfl, .inr rfl⟩ ops
  have hlist : HasList ((lastInstalled ops).map trimList) e :=
    HasList.run (e := .new bus name reports settings) ⟨fun _ => rfl, nofun⟩ ops
  refine ⟨hrest.results, hrest.queued, ?_⟩
  cases hs : e.single with
  | some capture => exact (hlist.taken capture hs).1
  | none => exact hlist.free hs

/-- The list is replaced while a single request has the bus, and the request is answered. -/
example :
    let bus : BusId := ⟨1, by decide⟩
    let ident : PollEntry := ⟨0x7e0, 0x7e8, 0x22, 0xf187, [], #v[1, 1, 1, 1], 1, .isoTp⟩
    let speed : PollEntry := ⟨0x7e1, 0x7e9, 0x22, 0xf40d, [], #v[999, 999, 999, 999], 1, .isoTp⟩
    let held := (Engine.new bus "ecu" false ⟨0, 25, .strict, 0, 0⟩).run
      [.submit ⟨1, speed, 3000, none⟩, .setList (some [ident, { ident with tx := 0 }, speed]) none]
    held.schedule.list = some [speed] ∧
      (held.step (.frame (EcuFrame.single bus 0x7e9 [0x62, 0xf4, 0x0d, 0x11]))).schedule.list =
        some [ident] := by
  decide

end Engine

end EcuPoll
