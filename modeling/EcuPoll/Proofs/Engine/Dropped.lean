import EcuPoll.Proofs.Engine.Aftermath

/-!
# A poll that is given up

A new poll list and a change of the poll state end the wait for the poll in flight. Until the next poll begins,
nothing more should be sent or heard of it (`Dead`). This holds if no channel is open (`Lulls.run`). An open
channel goes on: `Revives` lists the operations that bring the poll back, and no others do (`dead_run_iff`).
-/

namespace EcuPoll

/-- The events up to the dispatch of the next poll, oldest first. -/
def untilDispatch (log : List Stamped) : List Stamped :=
  log.reverse.takeWhile (!·.event.isDispatch)

/-- Data of a request goes out, or the receiver of results hears an outcome. -/
def Event.isLife (event : Event) : Bool :=
  event.isRequestData || event.isOutcome

/-- Neither a sign of life of the poll in flight, nor the dispatch of a poll. -/
def Event.IsIdle (event : Event) : Prop :=
  event.isDispatch = false ∧ event.isLife = false

theorem Event.IsSilent.isIdle {event : Event} (h : event.IsSilent) (hr : event.isRequestData = false) :
    event.IsIdle := by
  refine ⟨h.1, ?_⟩
  rw [isLife, hr, Bool.false_or]
  have := h.2
  cases event <;> first | rfl | cases this

theorem Event.IsSent.isIdle {event : Event} (h : event.IsSent) : event.IsIdle := by
  cases event <;> first | exact ⟨rfl, rfl⟩ | exact h.elim

theorem untilDispatch_append_of_begun {new : List Stamped} (h : ∃ s ∈ new, s.event.isDispatch = true)
    (later : List Stamped) : untilDispatch (later ++ new) = untilDispatch new := by
  obtain ⟨s, hs, hd⟩ := h
  have hne : (new.reverse.takeWhile (!·.event.isDispatch)).length ≠ new.reverse.length := fun hlen => by
    have hall := List.takeWhile_eq_self_iff.1 ((List.takeWhile_prefix _).eq_of_length hlen)
    have := hall s (List.mem_reverse.2 hs)
    rw [hd] at this
    cases this
  rw [untilDispatch, List.reverse_append, List.takeWhile_append, if_neg hne]
  rfl

theorem untilDispatch_append {new : List Stamped} (h : ∀ s ∈ new, s.event.isDispatch = false)
    (later : List Stamped) : untilDispatch (later ++ new) = new.reverse ++ untilDispatch later := by
  have hall : new.reverse.takeWhile (!·.event.isDispatch) = new.reverse :=
    List.takeWhile_eq_self_iff.2 fun s hs => by rw [h s (List.mem_reverse.1 hs)]; rfl
  rw [untilDispatch, List.reverse_append, List.takeWhile_append, hall, if_pos rfl]
  rfl

namespace Engine
variable {e e' e'' : Engine} {frame : Frame}

/-- Between the two states, there is no sign of life of the poll in flight before the next poll begins. -/
def Dead (e e' : Engine) : Prop :=
  ∃ new, e'.log = new ++ e.log ∧ ∀ s ∈ untilDispatch new, s.event.isLife = false

theorem Speaks.not_dead (h : Speaks (·.isLife = true) e e') : ¬ Dead e e' := by
  obtain ⟨e₁, s, ⟨mid, hmid, hno⟩, hlife, later, hlater⟩ := h
  rintro ⟨new, hnew, hall⟩
  have heq : new = later ++ s :: mid := by
    refine List.append_cancel_right (hnew.symm.trans ?_)
    rw [← hlater, hmid, List.append_assoc, List.cons_append]
  have hmem : s ∈ untilDispatch new := by
    have hcons : later ++ s :: mid = (later ++ [s]) ++ mid := by simp
    rw [heq, hcons, untilDispatch_append hno]
    refine List.mem_append_right _ ?_
    have hd : s.event.isDispatch = false := by
      cases hev : s.event <;> rw [hev] at hlife <;> first | rfl | cases hlife
    rw [untilDispatch_append (by simpa using hd)]
    exact List.mem_append_left _ (List.mem_singleton.2 rfl)
  rw [hall s hmem] at hlife
  cases hlife

theorem Dead.refl (e : Engine) : Dead e e := ⟨[], rfl, List.forall_mem_nil _⟩

/-- What is added before without a sign of life does not matter. -/
theorem dead_of_idle (ha : Adds Event.IsIdle e e') (hg : e'.log <:+ e''.log) : Dead e e'' ↔ Dead e' e'' := by
  obtain ⟨mid, hmid, hidle⟩ := ha
  obtain ⟨later, hlater⟩ := hg
  have hlog : e''.log = (later ++ mid) ++ e.log := by rw [← hlater, hmid, List.append_assoc]
  have huntil := untilDispatch_append (fun s hs => (hidle s hs).1) later
  constructor
  · rintro ⟨new, hnew, hall⟩
    obtain rfl : new = later ++ mid := List.append_cancel_right (hnew.symm.trans hlog)
    rw [huntil, List.forall_mem_append] at hall
    exact ⟨later, hlater.symm, hall.2⟩
  · rintro ⟨new, hnew, hall⟩
    obtain rfl : new = later := List.append_cancel_right (hnew.symm.trans hlater.symm)
    refine ⟨new ++ mid, hlog, ?_⟩
    rw [huntil, List.forall_mem_append]
    exact ⟨fun s hs => (hidle s (List.mem_reverse.1 hs)).2, hall⟩

theorem Dead.taken (h : Dead e e') :
    ∀ s ∈ untilDispatch (e'.log.take (e'.log.length - e.log.length)), s.event.isLife = false := by
  obtain ⟨new, hnew, hall⟩ := h
  rw [hnew, List.length_append, Nat.add_sub_cancel, List.take_left]
  exact hall

/-- A poll begins, and before that there is no sign of life. -/
def Begins (e e' : Engine) : Prop :=
  ∃ e₁ s, Adds Event.IsIdle e e₁ ∧ s.event.isDispatch = true ∧ s :: e₁.log <:+ e'.log

namespace Begins

theorem grows (h : Begins e e') (hg : e'.log <:+ e''.log) : Begins e e'' := by
  obtain ⟨e₁, s, hadds, hd, hlog⟩ := h
  exact ⟨e₁, s, hadds, hd, hlog.trans hg⟩

theorem of_idle (ha : Adds Event.IsIdle e e') (h : Begins e' e'') : Begins e e'' := by
  obtain ⟨e₁, s, hadds, hd, hlog⟩ := h
  exact ⟨e₁, s, ha.trans hadds, hd, hlog⟩

theorem shows (h : Begins e e') : Shows (·.isDispatch = true) e e' := by
  obtain ⟨e₁, s, ⟨mid, hmid, -⟩, hd, later, hlater⟩ := h
  refine ⟨later ++ s :: mid, ?_, s, List.mem_append_right _ (List.mem_cons_self ..), hd⟩
  rw [← hlater, hmid, List.append_assoc, List.cons_append]

theorem dead (h : Begins e e') : Dead e e' := by
  obtain ⟨e₁, s, ⟨mid, hmid, hidle⟩, hd, later, hlater⟩ := h
  refine ⟨later ++ s :: mid, by rw [← hlater, hmid, List.append_assoc, List.cons_append], fun s' hs' => ?_⟩
  rw [untilDispatch_append_of_begun ⟨s, List.mem_cons_self .., hd⟩] at hs'
  have hcons : s :: mid = [s] ++ mid := rfl
  rw [hcons, untilDispatch_append fun s hs => (hidle s hs).1] at hs'
  rcases List.mem_append.1 hs' with hs' | hs'
  · exact (hidle s' (List.mem_reverse.1 hs')).2
  · simp [untilDispatch, hd] at hs'

theorem dispatch (e : Engine) (entry : PollEntry) : Begins e (e.dispatch entry) := by
  refine ⟨e, ⟨e.now, .dispatched entry e.schedule.ticker e.singleTicket⟩, .refl e, rfl, ?_⟩
  exact (Grows.of_stays (Stays.dispatch entry (.refl (e.assign entry)))).log

end Begins

/-! ### When nothing is awaited -/

/-- Nothing is awaited, and that stays so: the channel is left alone and there is no sign of life, until a poll
begins. -/
inductive Lulls (e e' : Engine) : Prop
  | still (hs : e'.single = none) (hw : e'.wait = 0) (hc : e'.channel = e.channel) (h : Adds Event.IsIdle e e')
  | begins (h : Begins e e')

namespace Lulls

theorem of_eq (hs : e'.single = none) (hw : e'.wait = 0) (hc : e'.channel = e.channel) (hl : e'.log = e.log) :
    Lulls e e' :=
  .still hs hw hc (.of_log hl)

theorem trans (h : Lulls e e') (hg : e'.log <:+ e''.log)
    (h' : e'.single = none → e'.wait = 0 → Lulls e' e'') : Lulls e e'' := by
  cases h with
  | begins h => exact .begins (h.grows hg)
  | still hs hw hc h =>
    cases h' hs hw with
    | begins h' => exact .begins (.of_idle h h')
    | still hs' hw' hc' h' => exact .still hs' hw' (hc'.trans hc) (h.trans h')

theorem dead (h : Lulls e e') : Dead e e' := by
  cases h with
  | begins h => exact h.dead
  | still hs hw hc h =>
    obtain ⟨new, hnew, hidle⟩ := h
    refine ⟨new, hnew, fun s hs => (hidle s ?_).2⟩
    exact List.mem_reverse.1 ((List.takeWhile_sublist _).subset hs)

/-- A single request that starts gives up the poll in flight. -/
theorem captures {request : SingleRequest} (hg : request.isGone e.now = false) :
    Lulls e (e.startSingle request) := by
  have hc : Adds Event.IsIdle e (e.capture request).advance :=
    ⟨[_], rfl, List.forall_mem_singleton.2 ⟨rfl, rfl⟩⟩
  unfold Engine.startSingle
  rw [if_neg (by simp [hg])]
  dsimp only
  split
  · exact .begins (.of_idle hc (.dispatch ..))
  · exact .still rfl rfl rfl (hc.trans ⟨[_], rfl, List.forall_mem_singleton.2 ⟨rfl, rfl⟩⟩)

theorem startSingle (hs : e.single = none) (hw : e.wait = 0) (request : SingleRequest) :
    Lulls e (e.startSingle request) := by
  cases hg : request.isGone e.now with
  | false => exact captures hg
  | true =>
    rw [startSingle_gone hg]
    exact .still hs hw rfl ((Adds.refl e).emit ⟨rfl, rfl⟩)

theorem start (h : Lulls e e') (hs : e'.single = none) (request : SingleRequest) :
    Lulls e (e'.startSingle request) :=
  h.trans (Grows.of_stays (Stays.startSingle (.refl e') hs request)).log fun hs hw => startSingle hs hw request

theorem startPass (hs : e.single = none) (hw : e.wait = 0) : Lulls e e.startPass := by
  unfold Engine.startPass
  dsimp only
  split
  · exact .still hs hw rfl ⟨[_], rfl, List.forall_mem_singleton.2 ⟨rfl, rfl⟩⟩
  · exact .of_eq hs hw rfl rfl

theorem pollList (hs : e.single = none) (hw : e.wait = 0) : Lulls e e.pollList := by
  unfold Engine.pollList
  split
  · exact .begins (.of_idle (.of_log rfl) (.dispatch e.advance _))
  · split
    · exact .of_eq hs hw rfl rfl
    · exact .still hs hw rfl ⟨[_], rfl, List.forall_mem_singleton.2 ⟨rfl, rfl⟩⟩
  · exact .of_eq hs hw rfl rfl

theorem sendNext (hs : e.single = none) (hw : e.wait = 0) (primary : Bool) :
    Lulls e (e.sendNext primary) := by
  have hr : Lulls e { e with active := false } := .of_eq hs hw rfl rfl
  have hpoll : ∀ e : Engine, e.single = none → e.wait = 0 →
      Lulls e (if e.paused || !e.schedule.canPoll then e else e.pollList) := by
    intro e hs hw
    split
    · exact .of_eq hs hw rfl rfl
    · exact pollList hs hw
  have hgrows : ∀ e : Engine, e.log <:+ (if e.paused || !e.schedule.canPoll then e else e.pollList).log := by
    intro e
    split
    · exact List.suffix_refl _
    · exact (Grows.pollList e).log
  have hsent := sendNext_sent e primary
  generalize e.sendNext primary = e' at hsent ⊢
  cases hsent with
  | waits hwait => omega
  | held => exact hr
  | @single request queued =>
    have htake : Lulls e { e with active := false, queued } := .of_eq hs hw rfl rfl
    exact htake.start hs request
  | list _ _ _ hp =>
    rcases hp with rfl | ⟨-, rfl⟩
    · exact hr.trans (hgrows _) (hpoll _)
    · exact (hr.trans (Grows.startPass _).log startPass).trans (hgrows _) (hpoll _)

theorem pollNext (hs : e.single = none) (hw : e.wait = 0) : Lulls e e.pollNext := by
  have hr : Lulls e { e with active := false } := .of_eq hs hw rfl rfl
  unfold Engine.pollNext
  dsimp only
  split
  · exact hr
  · split
    · exact hr.trans (Grows.turns ((Turns.refl _).sendNext false)).log fun hs hw => sendNext hs hw false
    · exact .of_eq hs hw rfl rfl

theorem settle (hs : e.single = none) (hw : e.wait = 0) : Lulls e e.settle := by
  have hqueue : ∀ (queued : List SingleRequest) (e : Engine), e.queued = queued → e.single = none →
      e.wait = 0 → Lulls e (startQueued queued e) := by
    intro queued
    induction queued with
    | nil =>
      intro e _ hs hw
      unfold startQueued
      rw [judgeResults_ended (.inl hw)]
      exact .of_eq hs hw rfl rfl
    | cons request queued ih =>
      intro e hq hs hw
      unfold startQueued
      dsimp only
      rw [judgeResults_ended (.inl hw), if_neg (by simp [hs])]
      have htake : Lulls e { e with results := [], queued } := .of_eq hs hw rfl rfl
      have hstart := htake.start hs request
      have hqueued : (Engine.startSingle { e with results := [], queued } request).queued = queued :=
        queued_startSingle ..
      generalize Engine.startSingle { e with results := [], queued } request = e' at hstart hqueued ⊢
      have hgrows : e'.log <:+ (startQueued queued e').log :=
        (Grows.turns (Turns.startQueued queued (.judgeResults (.refl e')) hqueued)).log
      exact hstart.trans hgrows (ih e' hqueued)
  exact hqueue e.queued e rfl hs hw

theorem concludes (hs : e.single = none) (hw : e.wait = 0) (h : Concludes e e') : Lulls e e' := by
  cases h with
  | chain hc =>
    obtain rfl | ⟨-, rfl⟩ := hc
    · exact settle hs hw
    · exact (pollNext hs hw).trans (Grows.turns (Turns.refl _).settle).log settle
  | next primary => exact (sendNext hs hw primary).trans (Grows.turns (Turns.refl _).settle).log settle
  | rest => exact .of_eq hs hw rfl rfl

end Lulls

/-! ### What brings a poll back -/

/-- The operation brings news of the poll in flight, or it makes the engine send data of its request. -/
def Revives (e : Engine) (op : Operation) : Prop :=
  Stirs false e op ∨ e.Resends op

/-- Leave to go on sends the next frame of a request that is not through. -/
theorem exists_consecutive_isoTpFlow {command : UInt8} (hg : FlowCommand.ofByte? command = some .goOn)
    (ho : 0 < e.out.remaining) (id : UInt32) (blockSize septime : UInt8) : ∃ time frame accepted,
      ⟨time, .wrote .consecutive frame accepted⟩ :: e.log <:+
        (e.isoTpFlow id command blockSize septime).log := by
  have hallowed : e.allowedFrames blockSize ≠ 0 := by
    unfold allowedFrames
    by_cases hb : blockSize = 0
    · rw [if_pos hb]
      exact Nat.ne_of_gt ho
    · rw [if_neg hb]
      exact fun h => hb (UInt8.toNat_inj.1 h)
  obtain ⟨count, hcount⟩ := Nat.exists_eq_succ_of_ne_zero hallowed
  have hfirst : ∃ time frame accepted, (e.sendConsecutive (e.isoTpTarget id)).log =
      ⟨time, .wrote .consecutive frame accepted⟩ :: e.log := by
    unfold sendConsecutive
    rw [transmit_eq]
    exact ⟨_, _, _, rfl⟩
  obtain ⟨time, frame, accepted, hfirst⟩ := hfirst
  have hburst : (e.sendConsecutive (e.isoTpTarget id)).log <:+
      (burst (e.isoTpTarget id) (separationDelay septime) (e.allowedFrames blockSize) e).log := by
    rw [hcount, burst, if_neg (by omega)]
    dsimp only
    split
    · exact List.suffix_refl _
    · obtain ⟨new, hnew, -⟩ := (((Works.refl _).pause (separationDelay septime)).burst
        (e.isoTpTarget id) (separationDelay septime) count).log
      exact ⟨new, hnew.symm⟩
  refine ⟨time, frame, accepted, ?_⟩
  rw [← hfirst]
  unfold isoTpFlow
  rw [if_neg (by omega), hg]
  dsimp only
  split <;> exact hburst

theorem ChannelResends.exists_data (he : e.channel.state.isLive = true → e.job.entry.isSome = true)
    (h : e.ChannelResends frame) : ∃ time number data accepted,
      ⟨time, .wrote (.data number) data accepted⟩ :: e.log <:+ (e.channelStep frame).2.log := by
  -- the answer makes the engine send a block
  have hblock : ∃ (e' : Engine) (entry : PollEntry), e'.job.entry = some entry ∧ e'.log = e.log ∧
      (e.channelStep frame).2 = e'.sendBlock := by
    cases h with
    | agreed hs hl hd =>
      obtain ⟨entry, he⟩ := Option.isSome_iff_exists.1 (he (by rw [hs]; rfl))
      have hlen : min frame.dlc 8 ≠ 0 := by omega
      simp only [channelStep, hs, receiveParams, if_neg hlen, hd, if_true, Engine.sendRequest, he]
      refine ⟨_, entry, ?_, ?_, rfl⟩
      · exact he
      · rfl
    | ready hs hl hd ho =>
      obtain ⟨entry, he⟩ := Option.isSome_iff_exists.1 (he (by rw [hs]; rfl))
      have hlen : min frame.dlc 8 = 1 := by omega
      simp only [channelStep, hs, hlen, if_true, receiveAck, hd, if_pos ho]
      exact ⟨e, entry, he, rfl, rfl⟩
  obtain ⟨e', entry, he, hlog, hstep⟩ := hblock
  obtain ⟨time, data, accepted, hdata⟩ := exists_data_sendBlock he
  rw [hlog] at hdata
  rw [hstep]
  exact ⟨time, _, data, accepted, hdata⟩

/-- What revives a poll shows it. -/
theorem Revives.speaks {op : Operation} (hr : e.Reached) (hs : e.single = none) (h : e.Revives op) :
    Speaks (·.isLife = true) e (e.step op) := by
  rcases h with h | h
  · obtain ⟨e₁, s, hadds, hheard, hlog⟩ := h.speaks hr.owned hr.atRest hs
    rw [Event.isHeard_false] at hheard
    exact ⟨e₁, s, hadds, by simp [Event.isLife, hheard], hlog⟩
  · cases h with
    | @flow frame command blockSize septime hb hc hf hseg hg ho =>
      rw [step_frame_other hb hc]
      have hflow : e.receiveOther frame = e.isoTpFlow (e.responseId frame) command blockSize septime := by
        unfold receiveOther receiveIsoTp
        rw [if_pos (by simpa [MayAnswer, and_assoc] using hf), hseg]
      obtain ⟨time, data, accepted, hdata⟩ :=
        exists_consecutive_isoTpFlow hg ho (e.responseId frame) blockSize septime
      rw [hflow]
      exact ⟨e, _, .refl e, rfl, hdata.trans (Grows.turns (Turns.refl _).settle).log⟩
    | channel hb hc ht =>
      obtain ⟨time, number, data, accepted, hdata⟩ := ht.exists_data hr.entry_isSome
      rw [step_frame_channel hb hc (bound_of_isChannelFrame hr.owned hc)]
      exact ⟨e, _, .refl e, rfl, hdata.trans (Grows.turns (turns_chained ..).settle).log⟩

/-- Without single requests, only the channel is left to be closed. -/
theorem refuseQueued_finishSingle (hs : e.single = none) (hq : e.queued = []) :
    (e.finishSingle (.error .unavailable)).refuseQueued = e := by
  unfold finishSingle
  rw [hs]
  unfold refuseQueued
  rw [hq]
  show { e with queued := [] } = e
  rw [← hq]

theorem shutdown_attends (hs : e.single = none) (hq : e.queued = []) : Attends False e e.shutdown := by
  unfold shutdown
  rw [refuseQueued_finishSingle hs hq]
  dsimp only
  split
  · exact (Attends.refl e).requestClose.shutChannel.trans (.of_eq rfl rfl rfl)
  · exact .of_eq rfl rfl rfl

/-- What calls nobody and sends no request data is no sign of life. -/
theorem Attends.idle {sends : Prop} (h : Attends sends e e') (hn : ¬ sends) : Adds Event.IsIdle e e' := by
  obtain ⟨new, hnew, hsilent⟩ := h.log
  obtain ⟨new', hnew', hplain⟩ := h.plain hn
  obtain rfl : new' = new := List.append_cancel_right (hnew'.symm.trans hnew)
  exact ⟨new', hnew', fun s hs => (hsilent s hs).isIdle (hplain s hs)⟩

/-- What does not revive the poll in flight does not show it before another begins. -/
theorem not_revives {op : Operation} (hr : e.Reached) (hs : e.single = none) (h : ¬ e.Revives op) :
    (e.step op).single = none ∧ Adds Event.IsIdle e (e.step op) ∨ Begins e (e.step op) := by
  have hrest := hr.atRest
  obtain ⟨hstir, hresend⟩ := not_or.1 h
  by_cases hop : op.Acts
  · obtain ⟨e', hatt, ⟨hw, hconc⟩ | ⟨received, results, new, heq, hnew⟩⟩ :=
      not_stirs_attends hr.owned hrest hs hop hstir
    · cases Lulls.concludes (hatt.single.trans hs) hw hconc with
      | still hs' _ _ hidle => exact .inl ⟨hs', (hatt.idle hresend).trans hidle⟩
      | begins hb => exact .inr (.of_idle (hatt.idle hresend) hb)
    · have hsent : Adds Event.IsIdle e' (e.step op) := ⟨new, by rw [heq], fun s hs => (hnew s hs).1.isIdle⟩
      exact .inl ⟨by rw [heq]; exact hatt.single.trans hs, (hatt.idle hresend).trans hsent⟩
  · cases op with
    | frame | tick | sendSuccess => exact absurd trivial hop
    | txComplete frame success =>
      obtain ⟨received, new, heq, hnew⟩ := not_stirs_late hrest hs hstir
      rw [heq]
      exact .inl ⟨hs, new, rfl, fun s hs => (hnew s hs).1.isIdle⟩
    | submit request =>
      rw [step_submit hrest hs]
      cases hg : request.isGone e.now with
      | false =>
        cases Lulls.captures hg with
        | still hs' hw' _ hidle =>
          rw [judgeResults_ended (.inl hw')]
          exact .inl ⟨hs', hidle.trans (.of_log rfl)⟩
        | begins hb => exact .inr (hb.grows (Grows.turns (Turns.judgeResults (.refl _))).log)
      | true =>
        rw [startSingle_gone hg, judgeResults_nil (by exact hrest.results)]
        exact .inl ⟨hs, (Adds.refl e).emit ⟨rfl, rfl⟩⟩
    | setList list defaultBus =>
      refine .inl ⟨?_, .of_log (log_setList e list defaultBus)⟩
      show (e.setList list defaultBus).single = none
      unfold setList
      rw [hs]
    | setState state =>
      exact .inl ⟨(single_setState e state).trans hs, .of_log (log_setState e state)⟩
    | shutdown =>
      have hatt := shutdown_attends hs (hrest.queued hs)
      exact .inl ⟨hatt.single.trans hs, hatt.idle id⟩
    | _ => exact .inl ⟨hs, .of_log rfl⟩

/-! ### In a run -/

/-- Between two moments of a run there is a sign of life of the poll in flight just when an operation revives it
before another poll begins. -/
theorem dead_run_iff (hr : e.Reached) (hs : e.single = none) (ops : List Operation) :
    Dead e (e.run ops) ↔ ∀ before op after, ops = before ++ op :: after →
      ¬ Shows (·.isDispatch = true) e (e.run before) → ¬ (e.run before).Revives op := by
  induction ops generalizing e with
  | nil => exact ⟨fun _ => by simp, fun _ => .refl e⟩
  | cons op ops ih =>
    have hgrows : (e.step op).log <:+ (e.run (op :: ops)).log := (Grows.run (e.step op) ops).log
    rw [forall_splits_cons]
    -- the first operation revives the poll, shows nothing of it, or begins another
    by_cases hrev : e.Revives op
    · have hno : ¬ Dead e (e.run (op :: ops)) := ((hrev.speaks hr hs).grows hgrows).not_dead
      refine ⟨fun h => absurd h hno, fun h => absurd hrev (h.1 ?_)⟩
      rintro ⟨new, hnew, s, hmem, -⟩
      rw [List.self_eq_append_left.1 hnew] at hmem
      cases hmem
    rcases not_revives hr hs hrev with ⟨hs', hidle⟩ | hb
    · have hnone : ¬ Shows (·.isDispatch = true) e (e.step op) := fun hsh =>
        hsh.not_adds (fun event hd hi => by rw [hi.1] at hd; cases hd) hidle
      rw [dead_of_idle hidle hgrows]
      refine (ih (hr.step op) hs').trans ?_
      refine ⟨fun h => ⟨fun _ => hrev, fun before op' after heq hno => ?_⟩, fun h before op' after heq hno => ?_⟩
      · exact h before op' after heq fun hsh => hno (Shows.of_grows (Grows.step e op).log hsh)
      · refine h.2 before op' after heq fun hsh => ?_
        exact (hsh.split (Grows.step e op).log (Grows.run _ before).log).elim hnone hno
    · refine ⟨fun _ => ⟨fun _ => hrev, fun before _ _ _ hno => ?_⟩, fun _ => (hb.grows hgrows).dead⟩
      exact absurd (hb.grows (Grows.run (e.step op) before).log).shows hno

/-! ### No channel is open -/

theorem attended_closed {op : Operation} (hs : e.single = none) (hw : e.wait = 0) (hc : e.channel.state = .closed) :
    Lulls e (e.attended op) := by
  have hr : Lulls e e := .of_eq hs hw rfl rfl
  unfold attended
  cases op with
  | frame frame =>
    have hframe : e.isChannelFrame frame = false := by simp [isChannelFrame, Channel.isOpen, hc]
    have hother : e.receiveOther frame = e := if_neg (by simp [hw])
    dsimp only
    rw [hframe, hother]
    split <;> exact hr
  | tick primary =>
    cases primary with
    | true =>
      have hkeep : e.begin.keepChannel = e.begin := by
        have hb : e.begin.wait = 0 := by simp [begin, hw]
        have hcb : e.begin.channel.state = .closed := hc
        simp [keepChannel, timeOutChannel, closeUnused, hb, hcb]
      have hexpire : e.begin.expireSingle = e.begin := by simp [expireSingle, begin, emit, hs]
      dsimp only
      rw [hkeep, hexpire]
      exact .still hs (by simp [begin, hw]) rfl ⟨[_], rfl, List.forall_mem_singleton.2 ⟨rfl, rfl⟩⟩
    | false => exact .of_eq hs hw rfl rfl
  | sendSuccess =>
    dsimp only
    split
    · exact .of_eq hs hw rfl rfl
    · exact hr
  | _ => exact hr

/-- While no channel is open and nothing is awaited, the next poll comes before any sign of life. -/
theorem Lulls.step (hr : e.AtRest) (ho : e.channel.Owned) (hs : e.single = none) (hw : e.wait = 0)
    (hc : e.channel.state = .closed) (op : Operation) : Lulls e (e.step op) := by
  by_cases hop : op.Acts
  · have hconc := attended_concludes ho hr.results hop
    exact (attended_closed hs hw hc).trans hconc.grows fun hs' hw' => .concludes hs' hw' hconc
  · cases op with
    | frame | tick | sendSuccess => exact absurd trivial hop
    | txComplete frame success =>
      show Lulls e (e.judgeResult frame success).settle
      rw [judgeResult_ended (.inl hw)]
      exact .settle hs hw
    | submit request =>
      have hq : Lulls e { e with queued := e.queued ++ [request] } := .of_eq hs hw rfl rfl
      exact hq.trans (Grows.turns (Turns.refl _).settle).log .settle
    | setList list defaultBus =>
      show Lulls e (e.setList list defaultBus)
      simp only [setList, hs]
      exact .of_eq rfl rfl rfl rfl
    | setState state =>
      show Lulls e (e.setState state)
      unfold setState
      dsimp only
      split
      · exact .of_eq hs rfl rfl rfl
      · exact .of_eq hs hw rfl rfl
    | shutdown =>
      show Lulls e e.shutdown
      unfold shutdown
      rw [refuseQueued_finishSingle hs (hr.queued hs)]
      dsimp only
      rw [if_neg (by simp [Channel.isOpen, hc])]
      exact .of_eq hs hw rfl rfl
    | _ => exact .of_eq hs hw rfl rfl

theorem Lulls.run (hr : e.AtRest) (ho : e.channel.Owned) (hs : e.single = none) (hw : e.wait = 0)
    (hc : e.channel.state = .closed) (ops : List Operation) : Lulls e (e.run ops) := by
  induction ops generalizing e with
  | nil => exact .of_eq hs hw rfl rfl
  | cons op ops ih =>
    have hgrows : (e.step op).log <:+ (e.run (op :: ops)).log := (Grows.run (e.step op) ops).log
    cases Lulls.step hr ho hs hw hc op with
    | begins hb => exact .begins (hb.grows hgrows)
    | still hs' hw' hc' hidle =>
      exact (still hs' hw' hc' hidle).trans hgrows fun _ _ =>
        ih (hr.step op) (owned_step ho op) hs' hw' (by rw [hc']; exact hc)

/-! ### A poll that is given up -/

/-- The operation gives up the poll in flight: a new list, or another poll state. -/
def Drops (e : Engine) : Operation → Prop
  | .setList _ _ => True
  | .setState state => Schedule.clampState state ≠ e.schedule.state
  | _ => False

/-- A poll that is given up is not awaited any more. The channel is left as it is. -/
theorem Drops.step {op : Operation} (hs : e.single = none) (h : e.Drops op) :
    (e.step op).single = none ∧ (e.step op).wait = 0 ∧ (e.step op).channel = e.channel := by
  cases op with
  | setList list defaultBus =>
    have heq : e.step (.setList list defaultBus) =
        { e with schedule := e.schedule.setList list defaultBus, wait := 0 } := by
      show e.setList list defaultBus = _
      simp only [setList, hs]
    rw [heq]
    exact ⟨hs, rfl, rfl⟩
  | setState state =>
    have heq : e.step (.setState state) = { e with schedule := e.schedule.setState state, wait := 0 } :=
      if_pos ⟨h, by rw [hs]; rfl⟩
    rw [heq]
    exact ⟨hs, rfl, rfl⟩
  | _ => exact h.elim

/-- When a poll is given up while no channel is open, nothing more is sent or heard of it before the next poll
begins. In any other state this holds just as long as no operation revives the poll. -/
theorem dropped_iff (hr : e.Reached) (hs : e.single = none) {op : Operation} (hd : e.Drops op)
    (ops : List Operation) :
    (e.channel.state = .closed → Dead (e.step op) ((e.step op).run ops)) ∧
      (Dead (e.step op) ((e.step op).run ops) ↔ ∀ before o after, ops = before ++ o :: after →
        ¬ Shows (·.isDispatch = true) (e.step op) ((e.step op).run before) →
          ¬ ((e.step op).run before).Revives o) := by
  obtain ⟨hs', hw, hc⟩ := hd.step hs
  refine ⟨fun hclosed => ?_, dead_run_iff (hr.step op) hs' ops⟩
  have hr' := hr.step op
  exact (Lulls.run hr'.atRest hr'.owned hs' hw (by rw [hc, hclosed]) ops).dead

/-- A poll over ISO-TP is given up, and then its answer comes in. -/
theorem dropped_example :
    let bus : BusId := ⟨1, by decide⟩
    let ident : PollEntry := ⟨0x7e0, 0x7e8, 0x22, 0xf187, [], #v[1, 1, 1, 1], 1, .isoTp⟩
    let e := (Engine.new bus "ecu" false ⟨0, 25, .strict, 0, 0⟩).run [.setList (some [ident]) none, .tick true]
    let drop := Operation.setList none none
    (e.Reached ∧ e.single = none ∧ e.Drops drop ∧ 0 < e.wait) ∧ Dead (e.step drop)
      ((e.step drop).run [.frame (EcuFrame.single bus 0x7e8 [0x62, 0xf1, 0x87, 0xcc])]) := by
  intro bus ident e drop
  have hr : e.Reached := ⟨bus, "ecu", false, _, _, rfl⟩
  have hs : e.single = none := by decide
  have hd : e.Drops drop := trivial
  exact ⟨⟨hr, hs, hd, by decide⟩, (dropped_iff hr hs hd _).1 (by decide)⟩

/-- A poll over TP 2.0 is given up. If its module owes the response, that is handed on all the same. If the
channel is still being opened, the request goes out later. -/
theorem not_dropped_example :
    let bus : BusId := ⟨1, by decide⟩
    let read : PollEntry := ⟨0x200, 1, 0x22, 0xf190, [], #v[1, 1, 1, 1], 1, .vwtp20⟩
    let frame := fun bytes => Operation.frame (EcuFrame.channel bus 0x300 bytes)
    let accept := Operation.frame (EcuFrame.channel bus 0x201 [0x00, 0xd0, 0x00, 0x03, 0x40, 0x07, 0x01])
    let agree := frame [0xa1, 0x0f, 0x8a, 0xff, 0x00, 0xff]
    let drop := Operation.setList none none
    let asked := (Engine.new bus "ecu" false ⟨0, 25, .strict, 0, 0⟩).run
      [.setList (some [read]) none, .tick true]
    let owed := asked.run [accept, agree, frame [0xb1]]
    ¬ Dead (owed.step drop) ((owed.step drop).run [frame [0x10, 0x00, 0x05, 0x62, 0xf1, 0x90, 0xaa, 0xbb]]) ∧
      ¬ Dead (asked.step drop) ((asked.step drop).run [accept, agree]) := by
  intro bus read frame accept agree drop asked owed
  exact ⟨fun h => absurd h.taken (by decide), fun h => absurd h.taken (by decide)⟩

end Engine

end EcuPoll
