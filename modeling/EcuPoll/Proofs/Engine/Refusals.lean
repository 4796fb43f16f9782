import EcuPoll.Proofs.Engine.Conclusions
import EcuPoll.Proofs.Engine.Deeds

/-!
# Writes that the bus refuses

A write that the bus refuses leaves a failed result. The engine looks at its results when the work of an operation is
done, and once more after each single request from the queue that it starts then (`rounds`). A failed result costs the
engine its channel if it counts for the poll in flight at that time and this poll runs over the channel (`Loses`).
Nothing else comes of it: what was refused on behalf of no poll, such as the answer to a ping on an idle channel, or
on behalf of one that has ended in the meantime, leaves the channel open.
-/

namespace EcuPoll

/-- The frame of a write that was refused. -/
def Event.refused? : Event → Option Frame
  | .wrote _ frame false => some frame
  | _ => none

theorem Event.IsNote.refused? {event : Event} (h : event.IsNote) : event.refused? = none := by
  cases event <;> first | rfl | exact h.elim

namespace Engine
variable {passes : Prop} {e e' e'' : Engine} {frame : Frame}

/-- A write that is not refused leaves no failed result. -/
theorem AllSent.transmit_unrefused {kind : FrameKind} (hs : e.AllSent)
    (hall : Adds (·.refused? = none) e (e.transmit kind frame)) : (e.transmit kind frame).AllSent := by
  obtain ⟨new, hnew, hnone⟩ := hall
  rw [transmit_eq] at hnew ⊢
  obtain rfl : new = [_] := List.append_cancel_right (hnew.symm : _ = [_] ++ e.log)
  intro r hr
  dsimp only at hr
  split at hr
  · exact hs r hr
  · rcases List.mem_append.1 hr with hr | hr
    · exact hs r hr
    · rw [List.mem_singleton.1 hr]
      have := hnone _ (List.mem_singleton_self _)
      cases hw : (e.line.write e.now).1 with
      | true => rfl
      | false =>
        rw [hw] at this
        cases this

/-! ### Failed results -/

/-- A failed write of the frame costs the engine its channel. -/
def Loses (e : Engine) (frame : Frame) : Prop :=
  e.Judges frame ∧ e.job.isVwtp = true

instance : Decidable (e.Loses frame) := inferInstanceAs (Decidable ((_ ∧ _ ∧ _) ∧ _))

theorem wait_failTransmission (e : Engine) : e.failTransmission.wait = 0 := by
  have hw : ∀ e : Engine, e.wait = 0 → (e.deliverFailure .transmitFailed).wait = 0 := fun e hw => by
    unfold deliverFailure
    split
    · exact hw
    · unfold finishSingle
      split
      · exact hw
      · rfl
  exact hw _ rfl

theorem channel_failTransmission (e : Engine) :
    e.failTransmission.channel = if e.job.isVwtp then .shut else e.channel := by
  refine (Delivers.deliverFailure ..).channel.trans ?_
  dsimp only
  split <;> rfl

/-- A failure that counts ends the poll in flight, and with it the channel of a poll over the channel. -/
theorem judgeResult_fails (h : e.Judges frame) : (e.judgeResult frame false).wait = 0 ∧
    (e.judgeResult frame false).channel = if e.job.isVwtp then .shut else e.channel := by
  have heq : e.judgeResult frame false =
      if e.single.isNone then e.failTransmission.reportSent false else e.failTransmission := by
    obtain ⟨hw, ha, hi⟩ := h
    unfold judgeResult
    rw [if_neg (by simp [ha, hi]; omega)]
    rfl
  rw [heq]
  split <;> exact ⟨wait_failTransmission e, channel_failTransmission e⟩

/-- Of results that are looked at one after the other, a failed one that counts closes the channel. -/
theorem judgeEach_closed_iff (results : List (Frame × Bool)) (e : Engine) :
    (results.foldl (fun e r => e.judgeResult r.1 r.2) e).channel.state = .closed ↔
      e.channel.state = .closed ∨ ∃ r ∈ results, r.2 = false ∧ e.Loses r.1 := by
  induction results generalizing e with
  | nil => simp
  | cons r results ih =>
    obtain ⟨frame, success⟩ := r
    rw [List.foldl_cons, ih]
    simp only [List.mem_cons, exists_eq_or_imp]
    by_cases hj : e.Judges frame
    · cases success with
      | true =>
        obtain ⟨received, new, heq, -⟩ := judgeResult_good e frame
        rw [heq]
        simp [Loses, Judges, PollJob.isVwtp]
      | false =>
        -- the wait is over: no further result counts
        obtain ⟨hw, hc⟩ := judgeResult_fails hj
        have hnone : ∀ frame', ¬ (e.judgeResult frame false).Loses frame' := fun frame' hl => by
          have := hl.1.1
          omega
        simp only [hnone, and_false, exists_false, or_false, hc]
        cases hv : e.job.isVwtp <;> simp [hv, Loses, hj, Channel.shut]
    · rw [judgeResult_unjudged hj]
      simp [Loses, hj]

theorem judgeResults_closed_iff (e : Engine) : e.judgeResults.channel.state = .closed ↔
    e.channel.state = .closed ∨ ∃ r ∈ e.results, r.2 = false ∧ e.Loses r.1 :=
  judgeEach_closed_iff e.results { e with results := [] }

/-! ### Rounds -/

/-- The engine each time that it looks at results of writes, as it settles. -/
def settleRounds : List SingleRequest → Engine → List Engine
  | [], e => [e]
  | request :: queued, e =>
    let judged := e.judgeResults
    e :: if judged.single.isSome then [] else settleRounds queued ({ judged with queued }.startSingle request)

/-- The engine each time that it looks at results of writes, when its work is done. -/
def rounds (e : Engine) : List Engine :=
  settleRounds e.queued e

theorem mem_settleRounds (queued : List SingleRequest) (e : Engine) : e ∈ settleRounds queued e := by
  cases queued <;> exact List.mem_cons_self

/-- What the last round leaves is what is left. -/
theorem startQueued_last (queued : List SingleRequest) (e : Engine) :
    ∃ last, (settleRounds queued e).getLast? = some last ∧ startQueued queued e = last.judgeResults := by
  induction queued generalizing e with
  | nil => exact ⟨e, rfl, rfl⟩
  | cons request queued ih =>
    unfold startQueued settleRounds
    dsimp only
    split
    · exact ⟨e, rfl, rfl⟩
    · obtain ⟨last, hlast, heq⟩ := ih ({ e.judgeResults with queued }.startSingle request)
      refine ⟨last, ?_, heq⟩
      rw [List.getLast?_cons, hlast]
      rfl

/-! ### Refused writes -/

/-- If the event is a refused write, then its result is looked at in one of these rounds. -/
def Considered (rounds : List Engine) (event : Event) : Prop :=
  ∀ frame, event.refused? = some frame → ∃ m ∈ rounds, (frame, false) ∈ m.results

theorem Considered.mono {rounds rounds' : List Engine} {event : Event} (h : Considered rounds event)
    (hsub : rounds ⊆ rounds') : Considered rounds' event := fun frame hf =>
  let ⟨m, hm, hr⟩ := h frame hf
  ⟨m, hsub hm, hr⟩

theorem Considered.of_none {rounds : List Engine} {event : Event} (h : event.refused? = none) :
    Considered rounds event := fun frame hf => by
  rw [h] at hf
  cases hf

/-- Results of writes are kept, and there is one for each write that was refused. -/
def Retains (e e' : Engine) : Prop :=
  ∃ more, e'.results = e.results ++ more ∧
    Adds (fun event => ∀ frame, event.refused? = some frame → (frame, false) ∈ more) e e'

namespace Retains

theorem of_adds (hr : e'.results = e.results) (hl : Adds (·.refused? = none) e e') : Retains e e' :=
  ⟨[], by rw [hr, List.append_nil], hl.mono fun event hev frame hf => by rw [hev] at hf; cases hf⟩

theorem refl (e : Engine) : Retains e e := of_adds rfl (.refl e)

theorem trans (h : Retains e e') (h' : Retains e' e'') : Retains e e'' := by
  obtain ⟨more, hmore, hadds⟩ := h
  obtain ⟨more', hmore', hadds'⟩ := h'
  have hfirst := hadds.mono fun _ hev frame hf => List.mem_append_left more' (hev frame hf)
  have hsecond := hadds'.mono fun _ hev frame hf => List.mem_append_right more (hev frame hf)
  exact ⟨more ++ more', by rw [hmore', hmore, List.append_assoc], hfirst.trans hsecond⟩

theorem deed (hd : Deed False e e') : Retains e e' := by
  have single : ∀ {e' : Engine} {event : Event}, e'.results = e.results → event.refused? = none →
      e'.log = ⟨e.now, event⟩ :: e.log → Retains e e' := fun hr hev hlog =>
    of_adds hr ⟨[_], hlog, List.forall_mem_singleton.2 hev⟩
  cases hd with
  | adjust | queue | collect => exact of_adds rfl (.of_log rfl)
  | write kind frame =>
    rw [transmit_eq]
    cases hw : (e.line.write e.now).1 with
    | true =>
      refine ⟨if e.reports then [] else [(frame, true)], ?_, [_], rfl, ?_⟩
      · cases e.reports <;> simp
      · simp [Event.refused?]
    | false => exact ⟨[(frame, false)], rfl, [_], rfl, by simp [Event.refused?]⟩
  | note hev => exact single rfl hev.refused? rfl
  | take ht => exact ht.elim
  | @call _ request =>
    have hcapture : Retains e (e.capture request) := single rfl rfl rfl
    exact hcapture.trans (of_adds rfl ⟨[_], rfl, List.forall_mem_singleton.2 rfl⟩)
  | turnDown => exact single rfl rfl rfl
  | finish result =>
    unfold Engine.finishSingle
    split
    · exact refl e
    · exact single rfl rfl rfl
  | poll | conclude => exact single rfl rfl rfl

theorem deeds (hd : Deeds False e e') : Retains e e' := by
  induction hd with
  | refl => exact refl _
  | tail _ hd ih => exact ih.trans (deed hd)

theorem startPass (e : Engine) : Retains e e.startPass := by
  unfold Engine.startPass
  dsimp only
  split
  · exact of_adds rfl ⟨[_], rfl, List.forall_mem_singleton.2 rfl⟩
  · exact of_adds rfl (.of_log rfl)

theorem spans (hsp : Spans False passes e e') : Retains e e' := by
  obtain ⟨e₁, e₂, hbefore, hp, hafter⟩ := hsp
  rcases hp with rfl | ⟨-, -, rfl⟩
  · exact (deeds hbefore).trans (deeds hafter)
  · exact ((deeds hbefore).trans (startPass e₁)).trans (deeds hafter)

theorem considered (h : Retains e e') (hr : e.results = []) {rounds : List Engine} (hm : e' ∈ rounds) :
    Adds (Considered rounds) e e' := by
  obtain ⟨more, hmore, hadds⟩ := h
  rw [hr, List.nil_append] at hmore
  exact hadds.mono fun _ hev frame hf => ⟨e', hm, hmore ▸ hev frame hf⟩

end Retains

/-- Nothing is written when results are looked at. -/
theorem judgeResults_adds (e : Engine) : Adds (·.refused? = none) e e.judgeResults := by
  have hd : Deeds False { e with results := [] } e.judgeResults := (Deeds.refl _).judgeEach e.results
  obtain ⟨more, hmore, hadds⟩ := Retains.deeds hd
  rw [results_judgeResults, List.nil_append] at hmore
  subst hmore
  obtain ⟨new, hnew, hnone⟩ := hadds
  refine ⟨new, hnew, fun s hs => Option.eq_none_iff_forall_ne_some.2 fun frame hf => ?_⟩
  cases hnone s hs frame hf

theorem startQueued_considered (queued : List SingleRequest) (e : Engine) :
    Adds (Considered (settleRounds queued e)) e (startQueued queued e) := by
  induction queued generalizing e with
  | nil => exact (judgeResults_adds e).mono fun _ hev => .of_none hev
  | cons request queued ih =>
    have hjudge : ∀ {rounds}, Adds (Considered rounds) e e.judgeResults :=
      (judgeResults_adds e).mono fun _ hev => .of_none hev
    unfold startQueued settleRounds
    dsimp only
    by_cases hs : e.judgeResults.single.isSome = true
    · simp only [if_pos hs]
      exact hjudge
    · simp only [if_neg hs]
      have hd : Deeds False { e.judgeResults with queued } ({ e.judgeResults with queued }.startSingle request) :=
        (Deeds.refl _).startSingle (by simpa using hs) request
      have hstart := (Retains.deeds hd).considered (results_judgeResults e) (mem_settleRounds queued _)
      have hrest := Adds.trans hstart (ih _)
      exact hjudge.trans (hrest.mono fun _ hev => hev.mono (List.subset_cons_self ..))

theorem worked_retains (e : Engine) {op : Operation} (hop : op ≠ .shutdown) : Retains e (e.worked op) := by
  have hready : Retains e (e.readied op) := by
    cases op <;> exact .of_adds rfl (.of_log rfl)
  have hspans : Spans False (op = .tick true) (e.readied op) (e.worked op) → Retains e (e.worked op) :=
    fun h => hready.trans (.spans h)
  cases op with
  | setList list defaultBus =>
    show Retains e (e.setList list defaultBus)
    unfold setList
    split <;> exact .of_adds rfl (.of_log rfl)
  | setState state =>
    show Retains e (e.setState state)
    unfold setState
    dsimp only
    split <;> exact .of_adds rfl (.of_log rfl)
  | setSequenceMax => exact .of_adds rfl (.of_log rfl)
  | shutdown => exact absurd rfl hop
  | _ => exact hspans (worked_spans e (by simp) (by simp) (by simp) (by simp))

theorem shutdown_closed (e : Engine) : e.shutdown.channel.state = .closed := by
  unfold shutdown
  dsimp only
  by_cases h : (e.finishSingle (Except.error SingleError.unavailable)).refuseQueued.channel.isOpen = true
  · rw [if_pos h]
    unfold shutChannel
    split
    · assumption
    · rfl
  · rw [if_neg h]
    simpa [Channel.isOpen] using h

/-- Every write that is refused in an operation has its result looked at before the operation returns. The channel
that is there at that time goes exactly if one of the failed results counts for the poll in flight, and this poll runs
over the channel; so it is gone when the operation returns exactly if it went in the last round, or was gone before. -/
theorem refusals_judged (hr : e.Reached) (op : Operation) :
    (op = .shutdown → (e.step op).channel.state = .closed) ∧
      (op ≠ .shutdown → ∃ last, (e.worked op).rounds.getLast? = some last ∧
        Adds (Considered (e.worked op).rounds) e (e.step op) ∧
        (∀ m ∈ (e.worked op).rounds, (m.judgeResults.channel.state = .closed ↔
          m.channel.state = .closed ∨ ∃ r ∈ m.results, r.2 = false ∧ m.Loses r.1)) ∧
        ((e.step op).channel.state = .closed ↔
          last.channel.state = .closed ∨ ∃ r ∈ last.results, r.2 = false ∧ last.Loses r.1)) := by
  have hrest := hr.atRest
  refine ⟨fun hop => ?_, fun hop => ?_⟩
  · subst hop
    exact shutdown_closed e
  · obtain ⟨last, hlast, heq⟩ := startQueued_last (e.worked op).queued (e.worked op)
    have hstep : e.step op = last.judgeResults := (step_eq_settle hrest op).trans heq
    have hwork : Adds (Considered (e.worked op).rounds) e (e.worked op) :=
      (worked_retains e hop).considered hrest.results (mem_settleRounds ..)
    have hsettle : Adds (Considered (e.worked op).rounds) (e.worked op) (e.step op) := by
      rw [step_eq_settle hrest]
      exact startQueued_considered ..
    refine ⟨last, hlast, hwork.trans hsettle, fun m _ => judgeResults_closed_iff m, ?_⟩
    rw [hstep]
    exact judgeResults_closed_iff last

/-- The module pings while it owes the response, and the answer is refused. -/
theorem refusals_judged_example :
    let bus : BusId := ⟨1, by decide⟩
    let entry : PollEntry := ⟨0x200, 1, 0x22, 0xf190, [], #v[1, 1, 1, 1], 1, .vwtp20⟩
    let e := (Engine.new bus "ecu" false ⟨0, 25, .strict, 0, 0⟩).run
      [.setList (some [entry]) (some bus), .tick true,
        .frame (EcuFrame.channel bus 0x201 [0x00, 0xd0, 0x00, 0x03, 0x40, 0x07, 0x01]),
        .frame (EcuFrame.channel bus 0x300 [0xa1, 0x0f, 0x8a, 0xff, 0x00, 0xff]),
        .frame (EcuFrame.channel bus 0x300 [0xb1]), .setRoom (some 0)]
    let op : Operation := .frame (EcuFrame.channel bus 0x300 [0xa3])
    e.channel.state = .receive ∧ op ≠ .shutdown ∧ Adds (Considered (e.worked op).rounds) e (e.step op) ∧
      (e.step op).channel.state = .closed := by
  intro bus entry e op
  have hr : e.Reached := ⟨bus, "ecu", false, _, _, rfl⟩
  have hop : op ≠ .shutdown := nofun
  obtain ⟨last, hlast, hadds, -, hclosed⟩ := (refusals_judged hr op).2 hop
  refine ⟨by decide, hop, hadds, hclosed.2 (.inr ?_)⟩
  have hrounds : (e.worked op).rounds = [e.worked op] := by
    rw [rounds, show (e.worked op).queued = [] by decide, settleRounds]
  rw [hrounds, List.getLast?_singleton, Option.some_inj] at hlast
  rw [← hlast]
  exact ⟨((e.worked op).channelFrame [0xa1, 0x0f, 0x8a, 0xff, 0x0a, 0xff], false), by decide⟩

/-- The module pings when it has answered. The wait is over, so the result of the refused answer counts for nothing
and the channel stays. -/
theorem not_refusals_close_example :
    let bus : BusId := ⟨1, by decide⟩
    let entry : PollEntry := ⟨0x200, 1, 0x22, 0xf190, [], #v[1, 1, 1, 1], 1, .vwtp20⟩
    let e := (Engine.new bus "ecu" false ⟨0, 25, .strict, 0, 0⟩).run
      [.setList (some [entry]) (some bus), .tick true,
        .frame (EcuFrame.channel bus 0x201 [0x00, 0xd0, 0x00, 0x03, 0x40, 0x07, 0x01]),
        .frame (EcuFrame.channel bus 0x300 [0xa1, 0x0f, 0x8a, 0xff, 0x00, 0xff]),
        .frame (EcuFrame.channel bus 0x300 [0xb1]),
        .frame (EcuFrame.channel bus 0x300 [0x10, 0x00, 0x05, 0x62, 0xf1, 0x90, 0xaa, 0xbb]), .setRoom (some 0)]
    let op : Operation := .frame (EcuFrame.channel bus 0x300 [0xa3])
    e.channel.isOpen = true ∧ e.log.filterMap (·.event.refused?) = [] ∧
      (e.step op).log.filterMap (·.event.refused?) = [e.channelFrame [0xa1, 0x0f, 0x8a, 0xff, 0x0a, 0xff]] ∧
      (e.step op).channel.state = .idle := by
  decide

end Engine

end EcuPoll
