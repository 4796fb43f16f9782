import EcuPoll.Proofs.Engine.Conclusions

/-!
# After the end of a poll

The receiver of results should hear nothing of a job that was dispatched for a single request, and nothing
more of a poll of the list that has been answered or has failed. What a log forbids in this way is a `Watch`.
An operation never breaks it when the single request has the bus, or when nothing is forbidden yet: whatever
is handed on, nothing is awaited afterwards (`Shielded`). So it is broken exactly by the operations that bring
news of a poll that is over.
-/

namespace EcuPoll

/-- The entry that was dispatched last, and the ticket of the single request it was dispatched for. -/
def lastDispatch (log : List Stamped) : Option (PollEntry × Option Nat) :=
  log.findSome? fun s => match s.event with
    | .dispatched entry _ ticket => some (entry, ticket)
    | _ => none

theorem Event.IsSilent.not_isFinal {event : Event} (h : event.IsSilent) : event.isFinal = false := by
  cases event <;> first | rfl | exact absurd h.2 (by nofun)

variable {sent : Bool} {marked : List Stamped → Prop} {s : Stamped} {log new : List Stamped}

/-- When `marked` holds of a log, what the receiver of results hears next is out of place. The dispatch of a
poll of the list puts an end to that. Otherwise it only begins with a last outcome, and then only if frames
that were sent do not count. -/
structure Watch (sent : Bool) (marked : List Stamped → Prop) : Prop where
  stays {s : Stamped} {log : List Stamped} (hs : s.event.isDispatch = false) (h : marked log) : marked (s :: log)
  fresh {s : Stamped} {entry : PollEntry} {ticker : Nat} (hs : s.event = .dispatched entry ticker none)
    (log : List Stamped) : ¬ marked (s :: log)
  begins {s : Stamped} {log : List Stamped} (hs : s.event.isDispatch = false) (h : marked (s :: log)) :
    marked log ∨ s.event.isFinal = true ∧ sent = false

/-- Nothing was heard out of place. -/
def Clear (sent : Bool) (marked : List Stamped → Prop) (log : List Stamped) : Prop :=
  ∀ s before, s :: before <:+ log → marked before → s.event.isHeard sent = false

theorem clear_cons : Clear sent marked (s :: log) ↔
    (marked log → s.event.isHeard sent = false) ∧ Clear sent marked log := by
  constructor
  · intro h
    exact ⟨h s log (List.suffix_refl _), fun s' before hb => h s' before (hb.trans (List.suffix_cons ..))⟩
  · rintro ⟨hs, h⟩ s' before hb
    rcases List.suffix_cons_iff.1 hb with heq | hb
    · obtain ⟨rfl, rfl⟩ := List.cons.inj heq
      exact hs
    · exact h s' before hb

theorem Clear.suffix {log' : List Stamped} (h : Clear sent marked log) (hs : log' <:+ log) :
    Clear sent marked log' :=
  fun s before hb => h s before (hb.trans hs)

theorem Clear.silent (h : Clear sent marked log) (hnew : ∀ s ∈ new, s.event.IsSilent) :
    Clear sent marked (new ++ log) := by
  induction new with
  | nil => exact h
  | cons s new ih =>
    rw [List.forall_mem_cons] at hnew
    exact clear_cons.2 ⟨fun _ => hnew.1.not_isHeard, ih hnew.2⟩

namespace Watch

theorem stays_append (w : Watch sent marked) (hnew : ∀ s ∈ new, s.event.isDispatch = false) (h : marked log) :
    marked (new ++ log) := by
  induction new with
  | nil => exact h
  | cons s new ih =>
    rw [List.forall_mem_cons] at hnew
    exact w.stays hnew.1 (ih hnew.2)

theorem of_silent (w : Watch sent marked) (hnew : ∀ s ∈ new, s.event.IsSilent) (h : marked (new ++ log)) :
    marked log := by
  induction new with
  | nil => exact h
  | cons s new ih =>
    rw [List.forall_mem_cons] at hnew
    refine ih hnew.2 ((w.begins hnew.1.1 h).resolve_right fun hf => ?_)
    rw [hnew.1.not_isFinal] at hf
    cases hf.1

end Watch

namespace Engine
variable {e e' e'' : Engine} {frame : Frame}

/-- Nothing was heard out of place. The single request takes what would be, or nothing is awaited. -/
structure Shielded (sent : Bool) (marked : List Stamped → Prop) (e : Engine) : Prop where
  clear : Clear sent marked e.log
  cover : marked e.log → e.single.isSome = true ∨ e.wait = 0

/-- As `Shielded`, whatever is awaited. -/
structure Covered (sent : Bool) (marked : List Stamped → Prop) (e : Engine) : Prop where
  clear : Clear sent marked e.log
  cover : marked e.log → e.single.isSome = true

namespace Covered

theorem shielded (h : Covered sent marked e) : Shielded sent marked e := ⟨h.clear, fun hm => .inl (h.cover hm)⟩

theorem not_marked (h : Covered sent marked e) (hs : e.single = none) : ¬ marked e.log := fun hm => by
  have := h.cover hm
  rw [hs] at this
  cases this

theorem silent (w : Watch sent marked) (h : Covered sent marked e) (ha : Adds Event.IsSilent e e')
    (hs : e.single.isSome = true → e'.single.isSome = true) : Covered sent marked e' := by
  obtain ⟨new, hnew, hsilent⟩ := ha
  exact ⟨hnew ▸ h.clear.silent hsilent, fun hm => hs (h.cover (w.of_silent hsilent (hnew ▸ hm)))⟩

theorem works (w : Watch sent marked) (h : Covered sent marked e) (hw : Works e e') : Covered sent marked e' :=
  h.silent w (hw.log.mono fun _ => Event.IsWork.isSilent) fun hs => hw.single ▸ hs

end Covered

namespace Shielded

theorem silent (w : Watch sent marked) (h : Shielded sent marked e) (ha : Adds Event.IsSilent e e')
    (hc : e.single.isSome = true ∨ e.wait = 0 → e'.single.isSome = true ∨ e'.wait = 0) :
    Shielded sent marked e' := by
  obtain ⟨new, hnew, hsilent⟩ := ha
  exact ⟨hnew ▸ h.clear.silent hsilent, fun hm => hc (h.cover (w.of_silent hsilent (hnew ▸ hm)))⟩

/-- Nothing is awaited after the last piece of news. -/
theorem informs (w : Watch sent marked) (h : Covered sent marked e) (hi : Informs e e') :
    Shielded sent marked e' := by
  cases hs : e.single with
  | some capture =>
    obtain ⟨ha, hend⟩ := hi.served (by rw [hs]; rfl)
    exact h.shielded.silent w ha fun _ => hend
  | none =>
    -- the log is marked by the news at the earliest, and then it was the last
    obtain ⟨-, e₁, event, ⟨new, hnew, hsilent⟩, ho, ⟨new', hnew', hsilent'⟩, hw⟩ := hi.told hs
    have hno : ¬ marked e₁.log := fun hm => h.not_marked hs (w.of_silent hsilent (hnew ▸ hm))
    have hclear : Clear sent marked e₁.log := hnew ▸ h.clear.silent hsilent
    refine ⟨?_, fun hm => .inr (hw ?_)⟩
    · rw [hnew']
      exact (clear_cons.2 ⟨fun hm => absurd hm hno, hclear⟩).silent hsilent'
    · have hm : marked (⟨e₁.now, event⟩ :: e₁.log) := w.of_silent hsilent' (hnew' ▸ hm)
      refine ((w.begins ?_ hm).resolve_left hno).1
      cases event <;> first | rfl | cases ho

theorem judgeResult (w : Watch sent marked) (h : Shielded sent marked e) (frame : Frame) (success : Bool) :
    Shielded sent marked (e.judgeResult frame success) := by
  by_cases hj : e.Judges frame
  · cases hs : e.single with
    | some capture =>
      have hsome : e.single.isSome = true := by rw [hs]; rfl
      obtain ⟨ha, hend⟩ := (failTransmission_informs e).served hsome
      unfold Engine.judgeResult
      split
      · exact h
      · rw [if_neg (by simp [hs])]
        split
        · exact h
        · exact h.silent w ha fun _ => hend
    | none =>
      -- a result is judged only while something is awaited
      have hno : ¬ marked e.log := fun hm => by
        rcases h.cover hm with hc | hc
        · rw [hs] at hc
          cases hc
        · have := hj.1
          omega
      rw [judgeResult_judged hj hs]
      cases success with
      | true =>
        refine ⟨clear_cons.2 ⟨fun hm => absurd hm hno, h.clear⟩, fun hm => ?_⟩
        rcases w.begins rfl hm with hm | hm
        · exact absurd hm hno
        · cases hm.1
      | false =>
        obtain ⟨e₁, hlog, -, hw, heq⟩ := failTransmission_eq hs
        rw [if_neg (by nofun), heq]
        refine ⟨clear_cons.2 ⟨fun hm => ?_, clear_cons.2 ⟨fun hm => ?_, ?_⟩⟩, fun _ => .inr hw⟩
        · rcases w.begins rfl hm with hm | hm
          · exact absurd (hlog ▸ hm) hno
          · rw [hm.2]
            rfl
        · exact absurd (hlog ▸ hm) hno
        · rw [hlog]
          exact h.clear
  · rw [judgeResult_unjudged hj]
    exact h

theorem judgeResults (w : Watch sent marked) (h : Shielded sent marked e) :
    Shielded sent marked e.judgeResults := by
  have hfold : ∀ (results : List (Frame × Bool)) (e : Engine), Shielded sent marked e →
      Shielded sent marked (results.foldl (fun e r => e.judgeResult r.1 r.2) e) := by
    intro results
    induction results with
    | nil => exact fun _ h => h
    | cons r results ih => exact fun _ h => ih _ (h.judgeResult w r.1 r.2)
  exact hfold e.results _ ⟨h.clear, h.cover⟩

/-- A poll that begins puts an end to what was out of place, unless it is for the single request. -/
theorem dispatch (w : Watch sent marked) (hc : Clear sent marked e.log) (hw : e.wait = 0) (entry : PollEntry) :
    Shielded sent marked (e.dispatch entry) := by
  have ha : Covered sent marked (e.assign entry) := by
    refine ⟨clear_cons.2 ⟨fun _ => ?_, hc⟩, fun hm => ?_⟩
    · cases sent <;> rfl
    · cases hs : e.single with
      | some capture =>
        show e.single.isSome = true
        rw [hs]
        rfl
      | none =>
        have hticket : e.singleTicket = none := by simp [singleTicket, hs]
        have hev : Event.dispatched entry e.schedule.ticker e.singleTicket =
            .dispatched entry e.schedule.ticker none := by rw [hticket]
        exact absurd hm (w.fresh hev _)
  unfold Engine.dispatch
  split
  · have hst := startVwtp_start (e.assign entry) rfl
    have ht := (Works.refl (e.assign entry)).touchChannel
    generalize (e.assign entry).startVwtp = e' at hst ⊢
    cases hst with
    | again => exact (ha.works w ht.requestSetup).shielded
    | request => exact (ha.works w ht.interrupt.sendRequest).shielded
    | close => exact (ha.works w ht.requestClose).shielded
    | setup => exact (ha.works w ht.requestSetup).shielded
    | nothing => exact informs w (ha.works w ht) (Informs.failure (e := (e.assign entry).touchChannel) hw _)
  · exact (ha.works w (Works.refl _).startIsoTp).shielded

/-- A single request that has the bus takes what would be out of place. -/
theorem captures (w : Watch sent marked) (hc : Clear sent marked e.log) {request : SingleRequest}
    (hg : request.isGone e.now = false) : Shielded sent marked (e.startSingle request) := by
  have hcapture : Clear sent marked (e.capture request).advance.log :=
    clear_cons.2 ⟨fun _ => by cases sent <;> rfl, hc⟩
  unfold Engine.startSingle
  rw [if_neg (by simp [hg])]
  dsimp only
  split
  · exact dispatch w hcapture rfl _
  · have hs : Shielded sent marked (e.capture request).advance := ⟨hcapture, fun _ => .inl rfl⟩
    have hend := Relays.finishSingle_ends (e.capture request).advance (.error (.invalidRequest .notPollable)) rfl
    exact hs.silent w hend.1 fun _ => .inr hend.2

theorem startSingle (w : Watch sent marked) (h : Shielded sent marked e) (request : SingleRequest) :
    Shielded sent marked (e.startSingle request) := by
  cases hg : request.isGone e.now with
  | false => exact captures w h.clear hg
  | true =>
    rw [startSingle_gone hg]
    exact h.silent w ((Adds.refl e).emit ⟨rfl, rfl⟩) id

theorem startPass (w : Watch sent marked) (h : Shielded sent marked e) : Shielded sent marked e.startPass := by
  have hp : Shielded sent marked { e with schedule := e.schedule.startNextPass } := ⟨h.clear, h.cover⟩
  unfold Engine.startPass
  dsimp only
  split
  · exact hp.silent w ((Adds.refl _).emit ⟨rfl, rfl⟩) id
  · exact hp

theorem pollList (w : Watch sent marked) (h : Shielded sent marked e) (hw : e.wait = 0) :
    Shielded sent marked e.pollList := by
  have ha : Shielded sent marked e.advance := ⟨h.clear, h.cover⟩
  unfold Engine.pollList
  split
  · exact dispatch w ha.clear hw _
  · split
    · exact ha
    · exact ha.silent w ((Adds.refl _).emit ⟨rfl, rfl⟩) id
  · exact ha

theorem sendNext (w : Watch sent marked) (h : Shielded sent marked e) (primary : Bool) :
    Shielded sent marked (e.sendNext primary) := by
  have hr : Shielded sent marked { e with active := false } := ⟨h.clear, h.cover⟩
  have hlist : ∀ e : Engine, Shielded sent marked e → e.wait = 0 →
      Shielded sent marked (if e.paused || !e.schedule.canPoll then e else e.pollList) := by
    intro e h hw
    split
    · exact h
    · exact h.pollList w hw
  have hsent := sendNext_sent e primary
  generalize e.sendNext primary = e' at hsent ⊢
  cases hsent with
  | waits => exact h
  | held => exact hr
  | @single request queued =>
    exact startSingle w (e := { e with active := false, queued }) ⟨h.clear, h.cover⟩ request
  | list hw _ _ hp =>
    rcases hp with rfl | ⟨-, rfl⟩
    · exact hlist _ hr hw
    · exact hlist _ (hr.startPass w) ((wait_startPass _).trans hw)

theorem pollNext (w : Watch sent marked) (h : Shielded sent marked e) : Shielded sent marked e.pollNext := by
  have hr : Shielded sent marked { e with active := false } := ⟨h.clear, h.cover⟩
  unfold Engine.pollNext
  dsimp only
  split
  · exact hr
  · split
    · exact hr.sendNext w false
    · exact ⟨h.clear, h.cover⟩

theorem settle (w : Watch sent marked) (h : Shielded sent marked e) : Shielded sent marked e.settle := by
  have hqueue : ∀ (queued : List SingleRequest) (e : Engine), Shielded sent marked e →
      Shielded sent marked (startQueued queued e) := by
    intro queued
    induction queued with
    | nil => exact fun _ h => h.judgeResults w
    | cons request queued ih =>
      intro e h
      have hj := h.judgeResults w
      unfold startQueued
      dsimp only
      split
      · exact hj
      · exact ih _ (startSingle w (e := { e.judgeResults with queued }) ⟨hj.clear, hj.cover⟩ request)
  exact hqueue e.queued e h

theorem concludes (w : Watch sent marked) (h : Shielded sent marked e) (hc : Concludes e e') :
    Shielded sent marked e' := by
  cases hc with
  | chain hc =>
    obtain rfl | ⟨-, rfl⟩ := hc
    · exact h.settle w
    · exact (h.pollNext w).settle w
  | next primary => exact (h.sendNext w primary).settle w
  | rest => exact h

end Shielded

/-! ### What one operation does -/

theorem log_setList (e : Engine) (list : Option (List PollEntry)) (defaultBus : Option BusId) :
    (e.setList list defaultBus).log = e.log := by
  unfold setList
  split <;> rfl

theorem log_setState (e : Engine) (state : Nat) : (e.setState state).log = e.log := by
  unfold setState
  dsimp only
  split <;> rfl

theorem isSome_single_setList (e : Engine) (list : Option (List PollEntry)) (defaultBus : Option BusId) :
    (e.setList list defaultBus).single.isSome = e.single.isSome := by
  cases hs : e.single with
  | some capture =>
    rw [setList_single hs]
    rfl
  | none =>
    rw [setList_periodic hs, hs]

theorem single_setState (e : Engine) (state : Nat) : (e.setState state).single = e.single := by
  unfold setState
  dsimp only
  split <;> rfl

theorem silent_refuseQueued (e : Engine) : Adds Event.IsSilent e e.refuseQueued :=
  refuseQueued_keeps (P := Adds Event.IsSilent e) (.of_log rfl) fun _ _ h => h.emit ⟨rfl, rfl⟩

theorem silent_shutdown (e : Engine) : Adds Event.IsSilent e e.shutdown := by
  have hfinish : Adds Event.IsSilent e (e.finishSingle (.error .unavailable)) := by
    unfold finishSingle
    split
    · exact .refl e
    · exact ⟨[_], rfl, List.forall_mem_singleton.2 ⟨rfl, rfl⟩⟩
  have hrefuse := hfinish.trans (silent_refuseQueued _)
  unfold shutdown
  dsimp only
  split
  · exact hrefuse.trans ((@Attends.refl True _).requestClose.shutChannel).log
  · exact hrefuse

/-- Nothing is heard out of place in an operation before which nothing was out of place, or during which the
single request has the bus. -/
theorem Covered.step (w : Watch sent marked) (ho : e.channel.Owned) (hr : e.AtRest) (h : Covered sent marked e)
    (op : Operation) : Clear sent marked (e.step op).log := by
  by_cases hop : op.Acts
  · cases hs : e.single with
    | some capture =>
      obtain ⟨e', ⟨ha, hend⟩, hconc⟩ := attended_spares ho hr.results (by rw [hs]; rfl) hop
      have hsh : Shielded sent marked e' := h.shielded.silent w ha fun _ => hend
      exact (hsh.concludes w hconc).clear
    | none =>
      by_cases ht : e.Tells op
      · obtain ⟨e', hinf, hconc⟩ := ht.concludes ho hs
        exact ((Shielded.informs w h hinf).concludes w hconc).clear
      · have hatt := attended_attends hs ht
        have hcov : Covered sent marked (e.attended op) := h.silent w hatt.log fun hs => hatt.single ▸ hs
        exact (hcov.shielded.concludes w (attended_concludes ho hr.results hop)).clear
  · cases op with
    | frame | tick | sendSuccess => exact absurd trivial hop
    | txComplete frame success => exact ((h.shielded.judgeResult w frame success).settle w).clear
    | submit request =>
      exact (Shielded.settle w (e := { e with queued := e.queued ++ [request] }) ⟨h.clear, h.shielded.cover⟩).clear
    | setList list defaultBus =>
      show Clear sent marked (e.setList list defaultBus).log
      rw [log_setList]
      exact h.clear
    | setState state =>
      show Clear sent marked (e.setState state).log
      rw [log_setState]
      exact h.clear
    | shutdown =>
      -- the single request is over afterwards, but nothing was heard before
      have hcov : Covered sent marked { e.shutdown with single := e.single } := h.silent w (silent_shutdown e) id
      exact hcov.clear
    | _ => exact h.clear

/-- What is heard while it is out of place breaks the watch. -/
theorem Speaks.not_clear (w : Watch sent marked) (hm : marked e.log)
    (h : Speaks (·.isHeard sent = true) e e') : ¬ Clear sent marked e'.log := by
  obtain ⟨e₁, s, ⟨new, hnew, hno⟩, hheard, hlog⟩ := h
  intro hc
  have hm₁ : marked e₁.log := by
    rw [hnew]
    exact w.stays_append hno hm
  rw [hc s e₁.log hlog hm₁] at hheard
  cases hheard

theorem clear_sent (hc : Clear sent marked log) (hnew : ∀ s ∈ new, s.event.IsSent ∧ sent = false) :
    Clear sent marked (new ++ log) := by
  induction new with
  | nil => exact hc
  | cons s new ih =>
    rw [List.forall_mem_cons] at hnew
    refine clear_cons.2 ⟨fun _ => ?_, ih hnew.2⟩
    obtain ⟨hev, rfl⟩ := hnew.1
    cases hs : s.event <;> rw [hs] at hev <;> first | rfl | exact hev.elim

/-- Nothing more is heard out of place just when the operation does not stir the poll that is over. -/
theorem clear_step_iff (w : Watch sent marked) (ho : e.channel.Owned) (hr : e.AtRest) (hs : e.single = none)
    (hm : marked e.log) (op : Operation) :
    Clear sent marked (e.step op).log ↔ Clear sent marked e.log ∧ ¬ Stirs sent e op := by
  constructor
  · intro h
    exact ⟨h.suffix (Grows.step e op).log, fun hstir => (hstir.speaks ho hr hs).not_clear w hm h⟩
  · rintro ⟨hc, hno⟩
    by_cases hop : op.Acts
    · obtain ⟨e', hatt, ⟨hw, hconc⟩ | ⟨received, results, new, heq, hnew⟩⟩ := not_stirs_attends ho hr hs hop hno
      · -- nothing is awaited, so the next poll may begin in the same operation
        obtain ⟨new, hnew, hsilent⟩ := hatt.log
        have hsh : Shielded sent marked e' := ⟨hnew ▸ hc.silent hsilent, fun _ => .inr hw⟩
        exact (hsh.concludes w hconc).clear
      · obtain ⟨new', hnew', hsilent⟩ := hatt.log
        rw [heq]
        show Clear sent marked (new ++ e'.log)
        rw [hnew']
        exact clear_sent (hc.silent hsilent) hnew
    · cases op with
      | frame | tick | sendSuccess => exact absurd trivial hop
      | txComplete frame success =>
        obtain ⟨received, new, heq, hnew⟩ := not_stirs_late hr hs hno
        rw [heq]
        exact clear_sent hc hnew
      | submit request =>
        rw [step_submit hr hs]
        cases hg : request.isGone e.now with
        | false => exact ((Shielded.captures w hc hg).judgeResults w).clear
        | true =>
          rw [startSingle_gone hg, judgeResults_nil (by exact hr.results)]
          exact clear_cons.2 ⟨fun _ => by cases sent <;> rfl, hc⟩
      | setList list defaultBus =>
        show Clear sent marked (e.setList list defaultBus).log
        rw [log_setList]
        exact hc
      | setState state =>
        show Clear sent marked (e.setState state).log
        rw [log_setState]
        exact hc
      | shutdown =>
        obtain ⟨new, hnew, hsilent⟩ := silent_shutdown e
        show Clear sent marked e.shutdown.log
        rw [hnew]
        exact hc.silent hsilent
      | _ => exact hc

/-- What each operation of a run does after those before it, apart from the first. -/
theorem forall_splits_cons {op : Operation} {ops : List Operation} {p : List Operation → Operation → Prop} :
    (∀ before op' after, op :: ops = before ++ op' :: after → p before op') ↔
      p [] op ∧ ∀ before op' after, ops = before ++ op' :: after → p (op :: before) op' := by
  constructor
  · intro h
    exact ⟨h [] op ops rfl, fun before op' after heq => h (op :: before) op' after (by rw [heq]; rfl)⟩
  · rintro ⟨hfirst, hrest⟩ before op' after heq
    cases before with
    | nil =>
      obtain ⟨rfl, -⟩ := List.cons.inj heq
      exact hfirst
    | cons op'' before =>
      obtain ⟨rfl, hops⟩ := List.cons.inj heq
      exact hrest before op' after hops

/-- In a run, something is heard out of place just when some operation stirs the poll that is over. -/
theorem clear_run_iff (w : Watch sent marked) (ho : e.channel.Owned) (hr : e.AtRest) (ops : List Operation) :
    Clear sent marked (e.run ops).log ↔ Clear sent marked e.log ∧
      ∀ before op after, ops = before ++ op :: after → (e.run before).single = none →
        marked (e.run before).log → ¬ Stirs sent (e.run before) op := by
  induction ops generalizing e with
  | nil => exact ⟨fun h => ⟨h, by simp⟩, And.left⟩
  | cons op ops ih =>
    have hstep : Clear sent marked (e.step op).log ↔ Clear sent marked e.log ∧
        (e.single = none → marked e.log → ¬ Stirs sent e op) := by
      by_cases h : e.single = none ∧ marked e.log
      · rw [clear_step_iff w ho hr h.1 h.2 op]
        exact and_congr_right fun _ => ⟨fun hno _ _ => hno, fun hno => hno h.1 h.2⟩
      · have hcover : marked e.log → e.single.isSome = true := fun hm => by
          cases hs : e.single with
          | none => exact absurd ⟨hs, hm⟩ h
          | some capture => rfl
        exact ⟨fun hc => ⟨hc.suffix (Grows.step e op).log, fun hs hm => absurd ⟨hs, hm⟩ h⟩,
          fun hc => Covered.step w ho hr ⟨hc.1, hcover⟩ op⟩
    show Clear sent marked ((e.step op).run ops).log ↔ _
    rw [ih (owned_step ho op) (hr.step op), hstep, and_assoc, forall_splits_cons]
    rfl

theorem exists_last {p : Stamped → Bool} (h : log.head?.any p = true) :
    ∃ s, s :: log.tail <:+ log ∧ p s = true := by
  cases log with
  | nil => cases h
  | cons s log => exact ⟨s, List.suffix_refl _, h⟩

/-! ### Single requests -/

/-- The poll that was dispatched last was for a single request. -/
def ForSingle (log : List Stamped) : Prop :=
  ((lastDispatch log).bind (·.2)).isSome = true

theorem lastDispatch_cons (hs : s.event.isDispatch = false) (log : List Stamped) :
    lastDispatch (s :: log) = lastDispatch log := by
  unfold lastDispatch
  rw [List.findSome?_cons]
  cases hev : s.event with
  | dispatched =>
    rw [hev] at hs
    cases hs
  | _ => rfl

theorem lastDispatch_dispatched {entry : PollEntry} {ticker : Nat} {ticket : Option Nat}
    (hs : s.event = .dispatched entry ticker ticket) (log : List Stamped) :
    lastDispatch (s :: log) = some (entry, ticket) := by
  unfold lastDispatch
  rw [List.findSome?_cons, hs]

theorem watch_forSingle : Watch true ForSingle where
  stays hs h := by
    unfold ForSingle
    rw [lastDispatch_cons hs]
    exact h
  fresh hs log h := by
    unfold ForSingle at h
    rw [lastDispatch_dispatched hs] at h
    cases h
  begins hs h := by
    unfold ForSingle at h
    rw [lastDispatch_cons hs] at h
    exact .inl h

/-- The poll dispatched last was for a single request, and that is over. -/
def Orphaned (e : Engine) : Prop :=
  e.single = none ∧ ForSingle e.log

/-- In every run, the receiver of results is called for a job that was dispatched for a single request just
when some operation stirs that job after the end of the request. -/
theorem singles_unheard_iff (bus : BusId) (name : String) (reports : Bool) (settings : EngineSettings)
    (ops : List Operation) :
    let run := (Engine.new bus name reports settings).run
    (∀ s before, s :: before <:+ (run ops).log → ForSingle before → s.event.isCallback = false) ↔
      ∀ before op after, ops = before ++ op :: after → (run before).Orphaned → ¬ (run before).Stirs true op := by
  intro run
  have hiff := clear_run_iff (e := Engine.new bus name reports settings) watch_forSingle Channel.owned_shut
    ⟨rfl, .inr rfl⟩ ops
  have hnew : Clear true ForSingle (Engine.new bus name reports settings).log :=
    fun s before hb => absurd (List.suffix_nil.1 hb) (List.cons_ne_nil _ _)
  unfold Clear at hiff hnew
  simp only [Event.isHeard_true] at hiff hnew
  rw [hiff]
  exact ⟨fun h before op after hops ho => h.2 before op after hops ho.1 ho.2,
    fun h => ⟨hnew, fun before op after hops hs hm => h before op after hops ⟨hs, hm⟩⟩⟩

/-- A single request over TP 2.0 times out while its module still owes the response. When that comes in, it is
handed to the receiver of results. -/
theorem singles_heard_example :
    let bus : BusId := ⟨1, by decide⟩
    let read : PollEntry := ⟨0x200, 1, 0x22, 0xf190, [], #v[999, 999, 999, 999], 1, .vwtp20⟩
    let frame := fun bytes => Operation.frame (EcuFrame.channel bus 0x300 bytes)
    let log := ((Engine.new bus "ecu" false ⟨0, 25, .strict, 0, 0⟩).run [.submit ⟨1, read, 3000, none⟩,
      .frame (EcuFrame.channel bus 0x201 [0x00, 0xd0, 0x00, 0x03, 0x40, 0x07, 0x01]),
      frame [0xa1, 0x0f, 0x8a, 0xff, 0x00, 0xff], frame [0xb1], .elapse 3000, .tick true,
      frame [0x10, 0x00, 0x05, 0x62, 0xf1, 0x90, 0xaa, 0xbb]]).log
    ¬ ∀ s before, s :: before <:+ log → ForSingle before → s.event.isCallback = false := by
  intro bus read frame log h
  have hlate : log.head?.any (·.event.isCallback) = true := by decide
  obtain ⟨s, hs, hheard⟩ := exists_last hlate
  have hsingle : ForSingle log.tail := by
    unfold ForSingle
    decide
  rw [h s log.tail hs hsingle] at hheard
  cases hheard

/-! ### Polls of the list -/

/-- The poll dispatched last is one of the list that asks one module, and it has been answered or has
failed. -/
def Spent (log : List Stamped) : Prop :=
  (lastDispatch log).any (fun d => d.1.rx ≠ 0 ∧ d.2 = none) = true ∧ ∃ s ∈ sinceDispatch log, s.event.isFinal = true

theorem watch_spent : Watch false Spent where
  stays {s log} hs h := by
    refine ⟨by rw [lastDispatch_cons hs]; exact h.1, ?_⟩
    obtain ⟨s', hmem, hf⟩ := h.2
    refine ⟨s', ?_, hf⟩
    rw [sinceDispatch, List.takeWhile_cons, hs]
    exact List.mem_cons_of_mem _ hmem
  fresh {s entry ticker} hs log h := by
    obtain ⟨-, s', hmem, -⟩ := h
    rw [sinceDispatch, List.takeWhile_cons, hs] at hmem
    cases hmem
  begins {s log} hs h := by
    obtain ⟨hl, s', hmem, hf⟩ := h
    rw [lastDispatch_cons hs] at hl
    rw [sinceDispatch, List.takeWhile_cons, hs] at hmem
    rcases List.mem_cons.1 hmem with rfl | hmem
    · exact .inr ⟨hf, rfl⟩
    · exact .inl ⟨hl, s', hmem, hf⟩

/-- In every run, the receiver of results hears more of a poll of the list after its last outcome just when some
operation stirs that poll then. -/
theorem ended_once_iff (bus : BusId) (name : String) (reports : Bool) (settings : EngineSettings)
    (ops : List Operation) :
    let run := (Engine.new bus name reports settings).run
    (∀ s before, s :: before <:+ (run ops).log → Spent before → s.event.isOutcome = false) ↔
      ∀ before op after, ops = before ++ op :: after → (run before).single = none → Spent (run before).log →
        ¬ (run before).Stirs false op := by
  intro run
  have hiff := clear_run_iff (e := Engine.new bus name reports settings) watch_spent Channel.owned_shut
    ⟨rfl, .inr rfl⟩ ops
  have hnew : Clear false Spent (Engine.new bus name reports settings).log :=
    fun s before hb => absurd (List.suffix_nil.1 hb) (List.cons_ne_nil _ _)
  unfold Clear at hiff hnew
  simp only [Event.isHeard_false] at hiff hnew
  rw [hiff]
  exact ⟨And.right, fun h => ⟨hnew, h⟩⟩

/-- A poll over ISO-TP has been answered when an unused channel is closed, which arms the wait counter anew. The
same answer comes in again and is handed on once more. -/
theorem not_ended_once_example :
    let bus : BusId := ⟨1, by decide⟩
    let read : PollEntry := ⟨0x200, 1, 0x22, 0xf190, [], #v[1, 1, 1, 1], 1, .vwtp20⟩
    let ident : PollEntry := ⟨0x7e0, 0x7e8, 0x22, 0xf187, [], #v[1, 1, 1, 1], 1, .isoTp⟩
    let frame := fun bytes => Operation.frame (EcuFrame.channel bus 0x300 bytes)
    let answer := Operation.frame (EcuFrame.single bus 0x7e8 [0x62, 0xf1, 0x87, 0xcc])
    let e := (Engine.new bus "ecu" false ⟨0, 25, .strict, 60000, 0⟩).step (.setList (some [read, ident]) none)
    let log := (e.run [.tick true, .frame (EcuFrame.channel bus 0x201 [0x00, 0xd0, 0x00, 0x03, 0x40, 0x07, 0x01]),
      frame [0xa1, 0x0f, 0x8a, 0xff, 0x00, 0xff], frame [0xb1],
      frame [0x10, 0x00, 0x05, 0x62, 0xf1, 0x90, 0xaa, 0xbb], answer, .elapse 61000, .tick true, answer]).log
    ¬ ∀ s before, s :: before <:+ log → Spent before → s.event.isOutcome = false := by
  intro bus read ident frame answer e log h
  have hlate : log.head?.any (·.event.isOutcome) = true := by decide
  obtain ⟨s, hs, hheard⟩ := exists_last hlate
  have hspent : Spent log.tail := ⟨by decide, by decide⟩
  rw [h s log.tail hs hspent] at hheard
  cases hheard

end Engine

end EcuPoll
