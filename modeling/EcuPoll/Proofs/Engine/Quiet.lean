import EcuPoll.Proofs.Engine.Settled
import EcuPoll.Proofs.Engine.Turns

/-!
# An engine between two frames

Replies and leave to go on with a response only ever answer a received frame: no turn that an engine
takes on its own account reports them (`Turns.quiet`). After every operation the engine is at rest: no
result of a write is left to be judged, and no single request waits without need (`AtRest`).
-/

namespace EcuPoll

/-- Neither a reply nor leave to go on with a response. -/
def Event.IsQuiet : Event → Prop
  | .reply _ _ _ => False
  | .wrote kind _ _ => kind ≠ .flowControl
  | _ => True

theorem Event.IsWork.isQuiet {event : Event} (h : event.IsWork) : event.IsQuiet := by
  cases event <;> first | exact h | exact h.elim

namespace Engine
variable {e e' e'' : Engine}

/-! ### Quiet turns -/

/-- The log grows by quiet events. -/
abbrev Quiet : Engine → Engine → Prop := Adds Event.IsQuiet

namespace Quiet

theorem works (h : Quiet e e') (hw : Works e' e'') : Quiet e e'' :=
  h.trans (hw.log.mono fun _ => Event.IsWork.isQuiet)

theorem finishSingle (h : Quiet e e') (result : SingleResult) : Quiet e (e'.finishSingle result) := by
  unfold Engine.finishSingle
  split
  · exact h
  · exact (h.trans (.of_log rfl)).emit trivial

theorem deliverFailure (h : Quiet e e') (failure : PollFailure) :
    Quiet e (e'.deliverFailure failure) := by
  unfold Engine.deliverFailure
  split
  · exact h.emit trivial
  · exact h.finishSingle _

theorem expireSingle (h : Quiet e e') : Quiet e e'.expireSingle := by
  unfold Engine.expireSingle
  split
  · exact h
  · split
    · exact h.finishSingle _
    · exact h

theorem failTransmission (h : Quiet e e') : Quiet e e'.failTransmission := by
  unfold Engine.failTransmission
  refine Quiet.deliverFailure ?_ _
  split <;> exact h.trans (.of_log rfl)

theorem startVwtp (h : Quiet e e') : Quiet e e'.startVwtp := by
  have ht := (Works.refl e').touchChannel
  rcases hj : e'.job.entry with _ | entry
  · simp only [Engine.startVwtp, hj]
    exact h
  · have hst := startVwtp_start e' hj
    generalize e'.startVwtp = e'' at hst ⊢
    cases hst with
    | again => exact h.works ht.requestSetup
    | request => exact h.works ht.interrupt.sendRequest
    | close => exact h.works ht.requestClose
    | setup => exact h.works ht.requestSetup
    | nothing => exact (h.works ht).deliverFailure _

theorem dispatch (h : Quiet e e') (entry : PollEntry) : Quiet e (e'.dispatch entry) := by
  have ha : Quiet e (e'.assign entry) :=
    (h.trans (.of_log rfl)).emit (show (Event.dispatched ..).IsQuiet from trivial)
  unfold Engine.dispatch
  split
  · exact ha.startVwtp
  · exact ha.works (Works.refl _).startIsoTp

theorem startSingle (h : Quiet e e') (request : SingleRequest) :
    Quiet e (e'.startSingle request) := by
  have hc : Quiet e (e'.capture request).advance :=
    ((h.trans (.of_log rfl)).emit (show (Event.singleStarted _).IsQuiet from trivial)).trans (.of_log rfl)
  unfold Engine.startSingle
  split
  · exact h.emit trivial
  · dsimp only
    split
    · exact hc.dispatch _
    · exact hc.finishSingle _

theorem startPass (h : Quiet e e') : Quiet e e'.startPass := by
  have hs : Quiet e { e' with schedule := e'.schedule.startNextPass } := h.trans (.of_log rfl)
  unfold Engine.startPass
  dsimp only
  split
  · exact hs.emit trivial
  · exact hs

theorem pollList (h : Quiet e e') : Quiet e e'.pollList := by
  have ha : Quiet e e'.advance := h.trans (.of_log rfl)
  unfold Engine.pollList
  split
  · exact ha.dispatch _
  · split
    · exact ha
    · exact ha.emit trivial
  · exact ha

end Quiet

theorem Turn.quiet (h : Turn e e') : Quiet e e' := by
  have hr : Quiet e e := .refl e
  have hw := Works.refl e
  cases h with
  | shut => exact hr.works hw.shutChannel
  | reopen => exact hr.startVwtp
  | close => exact hr.works hw.requestClose
  | expire => exact hr.expireSingle
  | @single request queued hs hq =>
    exact (show Quiet e { e with queued } from .of_log rfl).startSingle request
  | pass => exact hr.startPass
  | poll => exact hr.pollList
  | fail => exact hr.failTransmission
  | sent success =>
    exact (show Quiet e { e with job := { e.job with received := 0 } } from .of_log rfl).emit trivial
  | count | grace | release | arm | take => exact .of_log rfl

theorem Turns.quiet (h : Turns e e') : Quiet e e' := by
  induction h with
  | refl => exact .refl e
  | tail _ ht ih => exact ih.trans ht.quiet

/-! ### Rest -/

/-- Nothing is left to be judged, and no single request waits that could start. -/
structure AtRest (e : Engine) : Prop where
  results : e.results = []
  queue : e.single.isSome = true ∨ e.queued = []

theorem AtRest.queued (h : e.AtRest) (hs : e.single = none) : e.queued = [] :=
  h.queue.resolve_left (by simp [hs])

theorem results_judgeResult (e : Engine) (frame : Frame) (success : Bool) :
    (e.judgeResult frame success).results = e.results := by
  have hf : e.failTransmission.results = e.results := by
    unfold failTransmission
    refine (Delivers.deliverFailure ..).results.trans ?_
    dsimp only
    split <;> rfl
  unfold judgeResult
  split
  · rfl
  · dsimp only [reportSent, emit]
    split <;> split <;> first | rfl | exact hf

theorem results_judgeResults (e : Engine) : e.judgeResults.results = [] := by
  have h : ∀ (results : List (Frame × Bool)) (e : Engine),
      (results.foldl (fun e r => e.judgeResult r.1 r.2) e).results = e.results := by
    intro results
    induction results with
    | nil => intro e; rfl
    | cons r results ih => intro e; exact (ih _).trans (results_judgeResult ..)
  exact h e.results _

theorem atRest_settle (e : Engine) : e.settle.AtRest := by
  have h : ∀ (queued : List SingleRequest) (e : Engine), e.queued = queued →
      (startQueued queued e).AtRest := by
    intro queued
    induction queued with
    | nil =>
      intro e hq
      exact ⟨results_judgeResults e, .inr ((queued_judgeResults e).trans hq)⟩
    | cons request queued ih =>
      intro e hq
      unfold startQueued
      dsimp only
      by_cases hs : e.judgeResults.single.isSome = true
      · rw [if_pos hs]
        exact ⟨results_judgeResults e, .inl hs⟩
      · rw [if_neg hs]
        exact ih _ (queued_startSingle ..)
  exact h e.queued e rfl

theorem queued_refuseQueued (e : Engine) : e.refuseQueued.queued = [] :=
  refuseQueued_keeps (P := fun e' => e'.queued = []) rfl fun _ _ h => h

theorem atRest_shutdown (e : Engine) : e.shutdown.AtRest := by
  refine ⟨rfl, .inr ?_⟩
  unfold shutdown
  dsimp only
  split
  · exact ((Works.refl _).requestClose.shutChannel).queued.trans (queued_refuseQueued _)
  · exact queued_refuseQueued _

namespace AtRest

theorem allSent (h : AtRest e) : e.AllSent := .of_nil h.results

theorem setList (h : AtRest e) (list : Option (List PollEntry)) (defaultBus : Option BusId) :
    (e.setList list defaultBus).AtRest := by
  unfold Engine.setList
  split
  · exact ⟨h.results, .inl rfl⟩
  · exact ⟨h.results, h.queue⟩

theorem setState (h : AtRest e) (state : Nat) : (e.setState state).AtRest := by
  unfold Engine.setState
  dsimp only
  split <;> exact ⟨h.results, h.queue⟩

theorem step (h : AtRest e) (op : Operation) : (e.step op).AtRest := by
  cases op with
  | frame frame =>
    show (e.handleFrame frame).AtRest
    unfold handleFrame
    split
    · exact h
    · split <;> exact atRest_settle _
  | sendSuccess =>
    show e.sendSuccess.AtRest
    unfold sendSuccess
    split
    · exact atRest_settle _
    · exact h
  | tick | txComplete | submit => exact atRest_settle _
  | setList list defaultBus => exact h.setList list defaultBus
  | setState state => exact h.setState state
  | shutdown => exact atRest_shutdown e
  | _ => exact ⟨h.results, h.queue⟩

theorem run (h : AtRest e) (ops : List Operation) : (e.run ops).AtRest := by
  induction ops generalizing e with
  | nil => exact h
  | cons op ops ih => exact ih (h.step op)

end AtRest

end Engine

end EcuPoll
