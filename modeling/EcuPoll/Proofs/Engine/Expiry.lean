import EcuPoll.Proofs.Engine.Course

/-!
# When a single request times out

A primary tick counts the wait down, looks after the channel and only then ends a single request that
waits for nothing more. A channel that has to be closed in between arms the wait again (`Rearms`), and
the single request stays: the tick that counts its wait down to zero ends it exactly if the channel does
not arm it again, or if its caller has gone (`timedOut_iff`).
-/

namespace EcuPoll

/-- A single request is resolved as timed out. -/
def Event.IsTimeout : Event → Prop
  | .singleResolved _ (.error .timeout) => True
  | _ => False

theorem Event.IsWork.not_isTimeout {event : Event} (h : event.IsWork) : ¬ event.IsTimeout := by
  cases event <;> first | exact id | exact h.elim

namespace Engine
variable {e e' e'' : Engine} {capture : Capture}

/-! ### Only expiry times out -/

/-- The log grows without a single request that times out. -/
abbrev Patient : Engine → Engine → Prop := Adds (¬ ·.IsTimeout)

namespace Patient

theorem works (h : Patient e e') (hw : Works e' e'') : Patient e e'' :=
  h.trans (hw.log.mono fun _ => Event.IsWork.not_isTimeout)

theorem finishSingle (h : Patient e e') {result : SingleResult} (hr : result ≠ .error .timeout) :
    Patient e (e'.finishSingle result) := by
  have hev : ∀ ticket, ¬ (Event.singleResolved ticket result).IsTimeout := fun ticket => by
    cases result with
    | ok => exact id
    | error fault =>
      cases fault with
      | timeout => exact absurd rfl hr
      | _ => exact id
  unfold Engine.finishSingle
  split
  · exact h
  · exact (h.trans (.of_log rfl)).emit (hev _)

theorem deliverFailure (h : Patient e e') (failure : PollFailure) :
    Patient e (e'.deliverFailure failure) := by
  unfold Engine.deliverFailure
  split
  · exact h.emit id
  · exact h.finishSingle (by cases failure <;> nofun)

theorem startVwtp (h : Patient e e') : Patient e e'.startVwtp := by
  have ht := (Works.refl e').touchChannel
  rcases hj : e'.job.entry with _ | entry
  · simp only [Engine.startVwtp, hj]
    exact h
  · have hst := startVwtp_start e' hj
    generalize e'.startVwtp = e'' at hst ⊢
    cases hst with
    | again => exact h.works ht.requestSetup
    | request => exact h.works ht.interrupt.sendRequest
    | close => exact h.works ht.requestClose
    | setup => exact h.works ht.requestSetup
    | nothing => exact (h.works ht).deliverFailure _

theorem dispatch (h : Patient e e') (entry : PollEntry) : Patient e (e'.dispatch entry) := by
  have ha : Patient e (e'.assign entry) := (h.trans (.of_log rfl)).emit id
  unfold Engine.dispatch
  split
  · exact ha.startVwtp
  · exact ha.works (Works.refl _).startIsoTp

theorem startSingle (h : Patient e e') (request : SingleRequest) :
    Patient e (e'.startSingle request) := by
  have hc : Patient e (e'.capture request).advance :=
    ((h.trans (.of_log rfl)).emit id).trans (.of_log rfl)
  unfold Engine.startSingle
  split
  · exact h.emit id
  · dsimp only
    split
    · exact hc.dispatch _
    · exact hc.finishSingle nofun

theorem judgeResult (h : Patient e e') (frame : Frame) (success : Bool) :
    Patient e (e'.judgeResult frame success) := by
  have hf : Patient e e'.failTransmission := by
    unfold Engine.failTransmission
    refine Patient.deliverFailure ?_ _
    split <;> exact h.trans (.of_log rfl)
  have hsent : ∀ e'', Patient e e'' → Patient e (e''.reportSent success) := fun e'' h'' =>
    (h''.trans (.of_log rfl)).emit id
  unfold Engine.judgeResult
  split
  · exact h
  · dsimp only
    split <;> split <;> first | exact hsent _ h | exact hsent _ hf | exact h | exact hf

theorem judgeResults (h : Patient e e') : Patient e e'.judgeResults := by
  have hfold : ∀ (results : List (Frame × Bool)) (e'' : Engine), Patient e e'' →
      Patient e (results.foldl (fun e r => e.judgeResult r.1 r.2) e'') := by
    intro results
    induction results with
    | nil => intro e'' h''; exact h''
    | cons r results ih => intro e'' h''; exact ih _ (h''.judgeResult ..)
  exact hfold _ _ (h.trans (.of_log rfl))

theorem settle (h : Patient e e') : Patient e e'.settle := by
  have hqueue : ∀ (queued : List SingleRequest) (e'' : Engine), Patient e e'' →
      Patient e (startQueued queued e'') := by
    intro queued
    induction queued with
    | nil => intro e'' h''; exact h''.judgeResults
    | cons request queued ih =>
      intro e'' h''
      unfold startQueued
      dsimp only
      split
      · exact h''.judgeResults
      · refine ih _ (Patient.startSingle ?_ request)
        exact h''.judgeResults.trans (.of_log rfl)
  exact hqueue _ _ h

end Patient

/-! ### The channel arms the wait again -/

/-- Looked after while nothing is awaited, the channel has to be closed, which is to be awaited: it is
open and not idle, or it has not been used for long. -/
def Rearms (e : Engine) : Prop :=
  (e.channel.state ≠ .closed ∧ e.channel.state ≠ .idle ∧ e.channel.state ≠ .closing) ∨
    e.channel.state = .idle ∧ e.keepalive ≠ 0 ∧ e.channel.unusedFor e.now e.keepalive = true

instance (e : Engine) : Decidable e.Rearms :=
  inferInstanceAs (Decidable (_ ∨ _))

theorem Rearms.state_ne (h : e.Rearms) : e.channel.state ≠ .closing := by
  rcases h with h | h
  · exact h.2.2
  · rw [h.1]
    nofun

theorem requestClose_closing (hs : e.channel.state = .closing) : e.requestClose = e := if_pos hs

theorem requestClose_open (hs : e.channel.state ≠ .closing) :
    e.requestClose.wait = 2 ∧ e.requestClose.now = e.now := by
  have hn : e.expectOnChannel.now = e.now := by
    obtain ⟨_, _, _, _, heq⟩ := expectOnChannel_eq_update e
    rw [heq]
  unfold requestClose
  rw [if_neg hs]
  dsimp only
  rw [transmit_eq]
  exact ⟨rfl, hn⟩

theorem keepChannel_rearms (hw : e.wait = 0) (h : e.Rearms) : e.keepChannel = e.requestClose := by
  have hkeep : e.keepChannel = e.timeOutChannel.closeUnused := by
    unfold keepChannel
    rw [if_neg (by simp [hw])]
  have hnot : ¬ 0 < e.wait := by omega
  rw [hkeep]
  rcases h with ⟨hc, hi, hs⟩ | ⟨hi, hk, hu⟩
  · have htime : e.timeOutChannel = e.requestClose := by
      unfold timeOutChannel
      rw [if_neg hnot, if_pos ⟨hc, hi⟩]
    rw [htime]
    unfold closeUnused
    rw [if_neg (by simp [state_requestClose])]
  · have htime : e.timeOutChannel = e := by
      unfold timeOutChannel
      rw [if_neg hnot, if_neg (by simp [hi])]
    rw [htime]
    unfold closeUnused
    rw [if_pos (by simp [hi, hw, hk, hu])]

theorem keepChannel_not_rearms (hw : e.wait = 0) (h : ¬ e.Rearms) : e.keepChannel = e := by
  simp only [Rearms, not_or, not_and, Decidable.not_not] at h
  have htime : e.timeOutChannel = e := by
    unfold timeOutChannel
    rw [if_neg (by omega)]
    by_cases hs : e.channel.state ≠ .closed ∧ e.channel.state ≠ .idle
    · rw [if_pos hs]
      exact requestClose_closing (h.1 hs.1 hs.2)
    · rw [if_neg hs]
  unfold keepChannel
  rw [if_neg (by simp [hw]), htime]
  unfold closeUnused
  rw [if_neg]
  simp only [Bool.and_eq_true, decide_eq_true_eq, not_and]
  exact fun hs => h.2 hs.1.1 hs.2

/-! ### Single requests -/

/-- The single request is resolved as timed out and the periodic list is put back; from there the engine
takes its turns. -/
def TimedOut (capture : Capture) (e e' : Engine) : Prop :=
  ∃ e₁ new, e₁.single = none ∧ e₁.wait = 0 ∧
    e₁.schedule = e.schedule.resetSequence.restore capture.saved ∧
    e₁.log = ⟨e.now, .singleResolved capture.request.ticket (.error .timeout)⟩ :: (new ++ e.log) ∧
    Turns e₁ e'

theorem TimedOut.not_patient (h : TimedOut capture e e') : ¬ Patient e e' := by
  obtain ⟨e₁, new, -, -, -, hlog, hturns⟩ := h
  have hshows : Shows Event.IsTimeout e e₁ := ⟨_ :: new, hlog, _, List.mem_cons_self, trivial⟩
  exact (hshows.grows (Grows.turns hturns).log).not_adds fun _ => not_not_intro

/-- What a primary tick has done when it looks after the channel. -/
def counted (e : Engine) : Engine :=
  { e.emit (.stateTicker e.bus) with
    schedule := e.schedule.resetSequence
    wait := e.wait - 1 }

theorem tick_primary (e : Engine) :
    e.step (.tick true) = (e.counted.keepChannel.expireSingle.sendNext true).settle := rfl

theorem expireSingle_expires (hs : e.single = some capture)
    (hx : capture.request.isGone e.now = true ∨ e.wait = 0) :
    e.expireSingle = e.finishSingle (.error .timeout) := by
  simp only [expireSingle, hs]
  rw [if_pos (by simpa using hx)]

theorem expireSingle_waits (hs : e.single = some capture) (hg : capture.request.isGone e.now = false)
    (hw : e.wait ≠ 0) : e.expireSingle = e := by
  simp only [expireSingle, hs]
  rw [if_neg (by simp [hg, hw])]

/-- Looking after the channel leaves the single request and the clock alone. -/
theorem works_keepChannel (hw : e.wait = 1) :
    Works e.counted e.counted.keepChannel ∧ e.counted.keepChannel.now = e.now := by
  have hzero : e.counted.wait = 0 := by simp [counted, hw]
  by_cases hr : e.counted.Rearms
  · rw [keepChannel_rearms hzero hr]
    exact ⟨(Works.refl _).requestClose, (requestClose_open hr.state_ne).2⟩
  · rw [keepChannel_not_rearms hzero hr]
    exact ⟨.refl _, rfl⟩

/-- If the channel arms the wait again, the tick ends with it. -/
theorem tick_rearms (hs : e.single = some capture) (hw : e.wait = 1) (hr : e.Rearms)
    (hg : capture.request.isGone e.now = false) :
    e.step (.tick true) = e.counted.requestClose.settle := by
  have hr : e.counted.Rearms := hr
  have hkeep : e.counted.keepChannel = e.counted.requestClose :=
    keepChannel_rearms (by simp [counted, hw]) hr
  obtain ⟨hworks, hnow⟩ := works_keepChannel hw
  rw [hkeep] at hworks hnow
  have hwait := (requestClose_open hr.state_ne).1
  rw [tick_primary, hkeep, expireSingle_waits (hworks.single.trans hs) (hnow ▸ hg) (by omega)]
  exact congrArg settle (if_pos (by omega))

theorem patient_rearms (hs : e.single = some capture) (hw : e.wait = 1) (hr : e.Rearms)
    (hg : capture.request.isGone e.now = false) : Patient e (e.step (.tick true)) := by
  rw [tick_rearms hs hw hr hg]
  have hbegin : Patient e e.counted := ((Adds.refl e).emit id).trans (.of_log rfl)
  exact (hbegin.works (Works.refl _).requestClose).settle

/-- The tick that counts the wait of a single request down to zero ends it as timed out and puts the
periodic list back, exactly if the channel does not arm the wait again or the caller has gone. -/
theorem timedOut_iff (hs : e.single = some capture) (hw : e.wait = 1) :
    TimedOut capture e (e.step (.tick true)) ↔
      ¬ e.Rearms ∨ capture.request.isGone e.now = true := by
  constructor
  · intro ht
    by_contra hno
    simp only [not_or, Decidable.not_not, Bool.not_eq_true] at hno
    exact ht.not_patient (patient_rearms hs hw hno.1 hno.2)
  · intro hx
    obtain ⟨hworks, hnow⟩ := works_keepChannel hw
    have hs' : e.counted.keepChannel.single = some capture := hworks.single.trans hs
    have hexpires : capture.request.isGone e.counted.keepChannel.now = true ∨
        e.counted.keepChannel.wait = 0 := by
      rcases hx with hr | hg
      · have hzero : e.counted.wait = 0 := by simp [counted, hw]
        exact .inr (by rw [keepChannel_not_rearms hzero hr, hzero])
      · exact .inl (hnow ▸ hg)
    obtain ⟨new, hnew, -⟩ := hworks.log
    rw [tick_primary, expireSingle_expires hs' hexpires]
    refine ⟨_, new ++ [⟨e.now, .stateTicker e.bus⟩], ?_, ?_, ?_, ?_,
      ((Turns.refl _).sendNext true).settle⟩ <;> simp only [finishSingle, hs', emit]
    · rw [hworks.schedule]
      rfl
    · rw [hnew, hnow, List.append_assoc]
      rfl

/-- A single request over ISO-TP waits for its answer while the list stands at its second entry. -/
theorem timedOut_example :
    let bus : BusId := ⟨1, by decide⟩
    let speed : PollEntry := ⟨0x7e0, 0x7e8, 0x22, 0xf40d, [], #v[1, 1, 1, 1], 0, .isoTp⟩
    let charge : PollEntry := ⟨0x7e1, 0x7e9, 0x22, 0x028c, [], #v[1, 1, 1, 1], 0, .isoTp⟩
    let ident : PollEntry := ⟨0x7e2, 0x7ea, 0x22, 0xf190, [], #v[999, 999, 999, 999], 1, .isoTp⟩
    let polled := (Engine.new bus "ecu" false ⟨1, 25, .strict, 0, 0⟩).run
      [.setList (some [speed, charge]) (some bus), .tick true]
    let capture : Capture := ⟨⟨1, ident, 9000, none⟩, [], polled.schedule.snapshot⟩
    let e := polled.run [.submit capture.request, .elapse 1000, .tick true, .elapse 1000]
    e.single = some capture ∧ e.wait = 1 ∧ TimedOut capture e (e.step (.tick true)) ∧
      (e.step (.tick true)).job.entry = some charge := by
  intro bus speed charge ident polled capture e
  have hs : e.single = some capture := by decide
  have hw : e.wait = 1 := by decide
  exact ⟨hs, hw, (timedOut_iff hs hw).2 (.inl (by decide)), by decide⟩

/-- A module takes a single request over its channel and never answers: the tick that counts the wait to
zero closes the channel, and the single request goes on waiting. -/
theorem not_timedOut_example :
    let bus : BusId := ⟨1, by decide⟩
    let ident : PollEntry := ⟨0x200, 1, 0x22, 0xf190, [], #v[999, 999, 999, 999], 1, .vwtp20⟩
    let idle := Engine.new bus "ecu" false ⟨0, 25, .strict, 0, 0⟩
    let capture : Capture := ⟨⟨1, ident, 9000, none⟩, [], idle.schedule.snapshot⟩
    let e := idle.run [.submit capture.request,
      .frame (EcuFrame.channel bus 0x201 [0x00, 0xd0, 0x00, 0x03, 0x40, 0x07, 0x01]),
      .frame (EcuFrame.channel bus 0x300 [0xa1, 0x0f, 0x8a, 0xff, 0x00, 0xff]),
      .frame (EcuFrame.channel bus 0x300 [0xb1]),
      .elapse 500, .tick true, .elapse 500]
    e.single = some capture ∧ e.wait = 1 ∧ ¬ TimedOut capture e (e.step (.tick true)) ∧
      (e.step (.tick true)).single = some capture ∧ (e.step (.tick true)).wait = 2 := by
  intro bus ident idle capture e
  have hs : e.single = some capture := by decide
  have hw : e.wait = 1 := by decide
  exact ⟨hs, hw, fun ht => ht.not_patient (patient_rearms hs hw (by decide) (by decide)),
    by decide, by decide⟩

end Engine

end EcuPoll
