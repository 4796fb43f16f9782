import EcuPoll.Proofs.Engine.Callbacks

/-!
# How an operation ends

After its own work an engine may choose the next poll, and it looks at the results of writes
(`Concludes`). `Confirms` lists the operations that bring a result of a write for the poll in flight. Before
the next poll begins, the receiver of results hears something of the poll in flight just when the operation
tells of it or confirms a write (`Stirs`): `Stirs.speaks` and `not_stirs_attends`.
-/

namespace EcuPoll

namespace Event
variable {sent : Bool}

/-- The receiver of results is called. Frames that were sent or were not count only if `sent` holds. -/
def isHeard (sent : Bool) (event : Event) : Bool :=
  event.isOutcome || sent && event.isCallback

theorem isHeard_true (event : Event) : event.isHeard true = event.isCallback := by
  cases event <;> rfl

theorem isHeard_false (event : Event) : event.isHeard false = event.isOutcome := by
  cases event <;> rfl

theorem isCallback_of_isHeard {event : Event} (h : event.isHeard sent = true) : event.isCallback = true := by
  cases event <;> cases sent <;> first | rfl | exact h

theorem IsSilent.not_isHeard {event : Event} (h : event.IsSilent) : event.isHeard sent = false :=
  Bool.eq_false_iff.2 fun hh => by
    have := isCallback_of_isHeard hh
    rw [h.2] at this
    cases this

end Event

/-- The operation may have the engine do work of its own. -/
def Operation.Acts : Operation → Prop
  | .frame _ | .tick _ | .sendSuccess => True
  | _ => False

namespace Engine
variable {sent : Bool} {heard : Event → Prop} {e e' e'' : Engine} {frame : Frame} {success : Bool}

/-! ### Results of writes -/

/-- The result of a write of this frame is taken for one of the poll in flight. -/
def Judges (e : Engine) (frame : Frame) : Prop :=
  0 < e.wait ∧ e.active = true ∧ frame.id = e.job.txId

/-- The operation brings a result of a write for the poll in flight: that of a write that failed, or of any
if `sent` holds. -/
inductive Confirms (sent : Bool) (e : Engine) : Operation → Prop
  /-- The bus tells it later. -/
  | late {frame : Frame} {success : Bool} (hj : e.Judges frame) (hc : success = false ∨ sent = true) :
    Confirms sent e (.txComplete frame success)
  | written {op : Operation} {r : Frame × Bool} (hr : r ∈ (e.attended op).results)
    (hj : (e.attended op).Judges r.1) (hc : r.2 = false ∨ sent = true) : Confirms sent e op

/-- Before any poll begins, there comes an event that is `heard`. -/
def Speaks (heard : Event → Prop) (e e' : Engine) : Prop :=
  ∃ e₁ s, Adds (·.isDispatch = false) e e₁ ∧ heard s.event ∧ s :: e₁.log <:+ e'.log

namespace Speaks

theorem of_emit {event : Event} (hev : heard event) (hg : (e.emit event).log <:+ e'.log) : Speaks heard e e' :=
  ⟨e, _, .refl e, hev, hg⟩

theorem grows (h : Speaks heard e e') (hg : e'.log <:+ e''.log) : Speaks heard e e'' := by
  obtain ⟨e₁, s, hadds, hev, hlog⟩ := h
  exact ⟨e₁, s, hadds, hev, hlog.trans hg⟩

theorem of_adds (ha : Adds (·.isDispatch = false) e e') (h : Speaks heard e' e'') : Speaks heard e e'' := by
  obtain ⟨e₁, s, hadds, hev, hlog⟩ := h
  exact ⟨e₁, s, ha.trans hadds, hev, hlog⟩

theorem of_silent (ha : Adds Event.IsSilent e e') (h : Speaks heard e' e'') : Speaks heard e e'' :=
  of_adds (ha.mono fun _ hev => hev.1) h

end Speaks

theorem judgeResult_unjudged (h : ¬ e.Judges frame) (success : Bool) : e.judgeResult frame success = e := by
  unfold judgeResult
  rw [if_pos]
  by_contra hc
  simp only [Bool.or_eq_true, Bool.not_eq_true', bne_iff_ne, not_or, Bool.not_eq_false,
    Decidable.not_not, decide_eq_true_eq] at hc
  exact h ⟨by omega, hc.1.2, hc.2⟩

theorem judgeResult_judged (h : e.Judges frame) (hs : e.single = none) :
    e.judgeResult frame success = (if success then e else e.failTransmission).reportSent success := by
  obtain ⟨hw, ha, hi⟩ := h
  unfold judgeResult
  rw [if_neg (by simp [ha, hi]; omega), hs]
  rfl

theorem deliverFailure_none (hs : e.single = none) (failure : PollFailure) :
    e.deliverFailure failure = e.emit (.failed e.job failure) := by
  simp only [deliverFailure, hs]

theorem failTransmission_eq (hs : e.single = none) : ∃ e₁ : Engine, e₁.log = e.log ∧ e₁.single = none ∧
    e₁.wait = 0 ∧ e.failTransmission = e₁.emit (.failed e₁.job .transmitFailed) := by
  unfold failTransmission
  split
  · exact ⟨{ e.loseChannel with wait := 0 }, rfl, hs, rfl,
      deliverFailure_none (e := { e.loseChannel with wait := 0 }) hs _⟩
  · exact ⟨{ e with wait := 0 }, rfl, hs, rfl, deliverFailure_none (e := { e with wait := 0 }) hs _⟩

theorem failTransmission_informs (e : Engine) : Informs e e.failTransmission := by
  unfold failTransmission
  split
  · exact (Informs.failure (e := { e.loseChannel with wait := 0 }) rfl _).of_attends (.of_eq rfl rfl rfl)
  · exact (Informs.failure (e := { e with wait := 0 }) rfl _).of_attends (.of_eq rfl rfl rfl)

/-- A result that is judged is heard of, if it counts. -/
theorem judgeResult_speaks (h : e.Judges frame) (hs : e.single = none) (hc : success = false ∨ sent = true) :
    Speaks (·.isHeard sent = true) e (e.judgeResult frame success) := by
  rw [judgeResult_judged h hs]
  cases success with
  | false =>
    -- the poll fails first, then the write is reported
    obtain ⟨e₁, hlog, -, -, heq⟩ := failTransmission_eq hs
    refine ⟨e₁, ⟨e₁.now, .failed e₁.job .transmitFailed⟩, .of_log hlog, rfl, ?_⟩
    show _ <:+ (e.failTransmission.reportSent false).log
    rw [heq]
    exact List.suffix_cons ..
  | true =>
    refine ⟨e, ⟨e.now, .sent { e.job with received := 0 } true⟩, .refl e, ?_, List.suffix_refl _⟩
    rw [hc.resolve_left (by nofun)]
    rfl

/-- No result that is still to be looked at counts for the poll in flight. -/
def NoneCounts (sent : Bool) (e : Engine) : Prop :=
  ∀ r ∈ e.results, e.Judges r.1 → ¬ (r.2 = false ∨ sent = true)

/-- A result that does not count is not heard of. -/
theorem judgeResult_calm (h : e.Judges frame → ¬ (success = false ∨ sent = true)) :
    ∃ received new, e.judgeResult frame success = { e with job := { e.job with received }, log := new ++ e.log } ∧
      ∀ s ∈ new, s.event.IsSent ∧ sent = false := by
  by_cases hj : e.Judges frame
  · have hc := h hj
    simp only [not_or, Bool.not_eq_false, Bool.not_eq_true] at hc
    obtain ⟨received, new, heq, hnew⟩ := judgeResult_good e frame
    exact ⟨received, new, hc.1 ▸ heq, fun s hs => ⟨hnew s hs, hc.2⟩⟩
  · exact ⟨e.job.received, [], judgeResult_unjudged hj success, List.forall_mem_nil _⟩

theorem judgeResults_calm (h : e.NoneCounts sent) :
    ∃ received new, e.judgeResults =
      { e with job := { e.job with received }, results := [], log := new ++ e.log } ∧
        ∀ s ∈ new, s.event.IsSent ∧ sent = false := by
  have hfold : ∀ (results : List (Frame × Bool)) (e : Engine),
      (∀ r ∈ results, e.Judges r.1 → ¬ (r.2 = false ∨ sent = true)) →
      ∃ received new, results.foldl (fun e r => e.judgeResult r.1 r.2) e =
        { e with job := { e.job with received }, log := new ++ e.log } ∧
          ∀ s ∈ new, s.event.IsSent ∧ sent = false := by
    intro results
    induction results with
    | nil => exact fun e _ => ⟨e.job.received, [], rfl, List.forall_mem_nil _⟩
    | cons r results ih =>
      intro e hall
      rw [List.forall_mem_cons] at hall
      obtain ⟨received, new, heq, hnew⟩ := judgeResult_calm hall.1
      obtain ⟨received', new', heq', hnew'⟩ := ih (e.judgeResult r.1 r.2) (by rw [heq]; exact hall.2)
      refine ⟨received', new' ++ new, ?_, List.forall_mem_append.2 ⟨hnew', hnew⟩⟩
      rw [List.foldl_cons, heq', heq, List.append_assoc]
  exact hfold e.results { e with results := [] } h

theorem judgeResults_speaks (hs : e.single = none) (h : ¬ e.NoneCounts sent) :
    Speaks (·.isHeard sent = true) e e.judgeResults := by
  have hfold : ∀ (results : List (Frame × Bool)) (e : Engine), e.single = none →
      ¬ (∀ r ∈ results, e.Judges r.1 → ¬ (r.2 = false ∨ sent = true)) →
      Speaks (·.isHeard sent = true) e (results.foldl (fun e r => e.judgeResult r.1 r.2) e) := by
    intro results
    induction results with
    | nil => exact fun e _ hall => absurd (List.forall_mem_nil _) hall
    | cons r results ih =>
      intro e hs hall
      rw [List.forall_mem_cons, not_and] at hall
      rw [List.foldl_cons]
      by_cases hr : e.Judges r.1 → ¬ (r.2 = false ∨ sent = true)
      · -- a result that does not count leaves the poll as it is for the next one
        obtain ⟨received, new, heq, hnew⟩ := judgeResult_calm hr
        refine .of_adds ⟨new, by rw [heq], fun s hs => ?_⟩ (ih (e.judgeResult r.1 r.2)
          (by rw [heq]; exact hs) (by rw [heq]; exact hall hr))
        have := (hnew s hs).1
        cases hev : s.event <;> rw [hev] at this <;> first | rfl | exact this.elim
      · simp only [Classical.not_imp, Decidable.not_not] at hr
        have hg := Grows.turns ((Turns.refl (e.judgeResult r.1 r.2)).judgeEach results)
        exact (judgeResult_speaks hr.1 hs hr.2).grows hg.log
  exact hfold e.results { e with results := [] } hs h

/-! ### After its own work -/

/-- How an operation ends: the next poll may be chosen, and the results of writes are looked at. -/
inductive Concludes (e : Engine) : Engine → Prop
  | chain {e' : Engine} (h : Chains e e') : Concludes e e'.settle
  | next (primary : Bool) : Concludes e (e.sendNext primary).settle
  | rest (hr : e.results = []) : Concludes e e

theorem wait_startPass (e : Engine) : e.startPass.wait = e.wait := by
  unfold startPass
  dsimp only
  split <;> rfl

theorem Concludes.grows (h : Concludes e e') : e.log <:+ e'.log := by
  cases h with
  | chain hc =>
    obtain rfl | ⟨hw, rfl⟩ := hc
    · exact (Grows.turns (Turns.refl _).settle).log
    · exact (Grows.turns ((Turns.refl e).pollNext hw).settle).log
  | next primary => exact (Grows.turns ((Turns.refl e).sendNext primary).settle).log
  | rest => exact List.suffix_refl _

theorem bound_of_isChannelFrame (ho : e.channel.Owned) (hc : e.isChannelFrame frame = true) :
    e.channel.bound = true := by
  simp only [isChannelFrame, Channel.isOpen, Bool.and_eq_true] at hc
  exact ho.bound (by simpa using hc.1.1)

/-- An operation that brings news. -/
theorem Tells.concludes {op : Operation} (ho : e.channel.Owned) (hs : e.single = none) (h : e.Tells op) :
    ∃ e', Informs e e' ∧ Concludes e' (e.step op) := by
  cases h with
  | segment hb hc hf hseg ht =>
    obtain ⟨e', hinf, hchain⟩ := receiveOther_informs hf hseg ht
    rw [step_frame_other hb hc]
    exact ⟨e', hinf, .chain hchain⟩
  | channel hb hc ht =>
    rw [step_frame_channel hb hc (bound_of_isChannelFrame ho hc)]
    exact ⟨_, channelStep_informs ht, .chain (chains_chained ..)⟩
  | timeOut hc =>
    have hinf := (keepChannel_informs hc).1.of_attends (begin_attends e)
    -- there is no single request that could expire
    have heq : e.begin.keepChannel.expireSingle = e.begin.keepChannel := by
      unfold expireSingle
      rw [(hinf.told hs).1]
    refine ⟨_, hinf, ?_⟩
    rw [← heq]
    exact .next true

/-- What follows the engine's own work. -/
theorem attended_concludes {op : Operation} (ho : e.channel.Owned) (hr : e.results = []) (hop : op.Acts) :
    Concludes (e.attended op) (e.step op) := by
  cases op with
  | frame frame =>
    unfold attended
    dsimp only
    by_cases hb : frame.bus ≠ e.bus
    · rw [if_pos hb]
      have heq : e.step (.frame frame) = e := if_pos hb
      rw [heq]
      exact .rest hr
    · rw [if_neg hb]
      have hb : frame.bus = e.bus := by simpa using hb
      by_cases hc : e.isChannelFrame frame = true
      · rw [if_pos hc, step_frame_channel hb hc (bound_of_isChannelFrame ho hc)]
        exact .chain (chains_chained ..)
      · rw [if_neg hc, step_frame_other hb (by simpa using hc)]
        exact .chain (.inl rfl)
  | tick primary =>
    cases primary with
    | true => exact .next true
    | false => exact .next false
  | sendSuccess =>
    unfold attended
    show Concludes _ e.sendSuccess
    unfold sendSuccess
    dsimp only
    split
    · split
      · exact .next false
      · exact .chain (.inl rfl)
    · exact .rest hr
  | _ => exact hop.elim

/-! ### While a single request has the bus -/

/-- The receiver of results is not called, and a single request keeps the bus unless nothing is awaited any
more. -/
def Spares (e e' : Engine) : Prop :=
  Adds Event.IsSilent e e' ∧ (e'.single.isSome = true ∨ e'.wait = 0)

theorem Attends.spares (h : Attends True e e') (hs : e.single.isSome = true) : Spares e e' :=
  ⟨h.log, .inl (h.single ▸ hs)⟩

theorem expireSingle_spares (h : Spares e e') : Spares e e'.expireSingle := by
  unfold expireSingle
  cases hsome : e'.single with
  | none => exact h
  | some _ =>
    dsimp only
    split
    · have hend := Relays.finishSingle_ends e' (.error .timeout) (by rw [hsome]; rfl)
      exact ⟨h.1.trans hend.1, .inr hend.2⟩
    · exact h

theorem channelStep_spares (frame : Frame) (hs : e.single.isSome = true) : Spares e (e.channelStep frame).2 := by
  by_cases ht : e.ChannelTells frame
  · exact (channelStep_informs ht).served hs
  · exact ((channelStep_attends ht).mono fun _ => trivial).spares hs

theorem receiveOther_spares (frame : Frame) (hs : e.single.isSome = true) :
    ∃ e', Spares e e' ∧ Concludes e' (e.receiveOther frame).settle := by
  by_cases ht : e.MayAnswer frame ∧ ∃ segment,
      Segment.ofBytes? (e.job.protocol.isoTpData frame) = some segment ∧ e.SegmentTells segment
  · obtain ⟨hf, segment, hseg, ht⟩ := ht
    obtain ⟨e', hinf, hchain⟩ := receiveOther_informs hf hseg ht
    exact ⟨e', hinf.served hs, .chain hchain⟩
  · have hatt := @receiveOther_attends True e frame (fun hf segment hseg h => ht ⟨hf, segment, hseg, h⟩)
      fun _ _ _ _ _ _ _ => trivial
    exact ⟨_, hatt.spares hs, .chain (.inl rfl)⟩

theorem keepChannel_spares (hs : e.single.isSome = true) : Spares e e.begin.keepChannel := by
  by_cases ht : e.begin.ClosesFor
  · exact ((keepChannel_informs ht).1.of_attends (begin_attends e)).served hs
  · exact ((begin_attends e).trans (keepChannel_attends ht)).spares hs

/-- While a single request has the bus, the engine's own work serves it. -/
theorem attended_spares {op : Operation} (ho : e.channel.Owned) (hr : e.results = [])
    (hs : e.single.isSome = true) (hop : op.Acts) :
    ∃ e', Spares e e' ∧ Concludes e' (e.step op) := by
  have hconc := attended_concludes ho hr hop
  unfold attended at hconc
  cases op with
  | frame frame =>
    dsimp only at hconc
    by_cases hb : frame.bus ≠ e.bus
    · rw [if_pos hb] at hconc
      exact ⟨_, (Attends.refl e).spares hs, hconc⟩
    · rw [if_neg hb] at hconc
      have hb : frame.bus = e.bus := by simpa using hb
      by_cases hc : e.isChannelFrame frame = true
      · rw [if_pos hc] at hconc
        exact ⟨_, channelStep_spares frame hs, hconc⟩
      · rw [step_frame_other hb (by simpa using hc)]
        exact receiveOther_spares frame hs
  | tick primary =>
    cases primary with
    | true => exact ⟨_, expireSingle_spares (keepChannel_spares hs), hconc⟩
    | false => exact ⟨{ e with schedule := e.schedule.resetSequence }, ⟨.of_log rfl, .inl hs⟩, hconc⟩
  | sendSuccess =>
    refine ⟨_, ⟨?_, ?_⟩, hconc⟩
    · dsimp only
      split <;> exact .of_log rfl
    · dsimp only
      split <;> exact .inl hs
  | _ => exact ⟨_, ⟨.refl e, .inl hs⟩, hconc⟩

/-! ### While a response is awaited -/

/-- A single request does not wait, and the response of the poll in flight is awaited: then only the results of
writes are looked at. -/
theorem Concludes.awaits (h : Concludes e e') (hw : e.wait ≠ 0) (hq : e.queued = []) : e' = e ∧ e.results = [] ∨
    e' = e.settle := by
  cases h with
  | chain hc =>
    obtain rfl | ⟨hw', rfl⟩ := hc
    · exact .inr rfl
    · exact absurd hw' hw
  | next primary =>
    have heq : e.sendNext primary = e := if_pos (by omega)
    rw [heq]
    exact .inr rfl
  | rest hr => exact .inl ⟨rfl, hr⟩

theorem settle_judges (hq : e.queued = []) : e.settle = e.judgeResults := by
  unfold settle
  rw [hq]
  rfl

theorem settle_calm (hq : e.queued = []) (hn : e.NoneCounts sent) : ∃ received new, e.settle =
    { e with job := { e.job with received }, results := [], log := new ++ e.log } ∧
      ∀ s ∈ new, s.event.IsSent ∧ sent = false := by
  rw [settle_judges hq]
  exact judgeResults_calm hn

/-! ### What the receiver hears -/

/-- The operation has the receiver of results called for the poll in flight, before any other begins. -/
def Stirs (sent : Bool) (e : Engine) (op : Operation) : Prop :=
  e.Tells op ∨ Confirms sent e op

theorem Confirms.acts {op : Operation} (h : Confirms sent e op) (hr : e.results = []) :
    op.Acts ∨ ∃ frame success, op = .txComplete frame success := by
  cases h with
  | late => exact .inr ⟨_, _, rfl⟩
  | @written _ r hmem =>
    cases op with
    | frame | tick | sendSuccess => exact .inl trivial
    | txComplete frame success => exact .inr ⟨_, _, rfl⟩
    | _ => exact absurd (show r ∈ e.results from hmem) (by rw [hr]; exact List.not_mem_nil)

/-- What stirs is heard. -/
theorem Stirs.speaks {op : Operation} (ho : e.channel.Owned) (hr : e.AtRest) (hs : e.single = none)
    (h : Stirs sent e op) : Speaks (·.isHeard sent = true) e (e.step op) := by
  by_cases ht : e.Tells op
  · obtain ⟨e', hinf, hconc⟩ := ht.concludes ho hs
    obtain ⟨-, e₁, event, hbefore, hout, hafter, -⟩ := hinf.told hs
    obtain ⟨new, hnew, -⟩ := hafter
    have hheard : event.isHeard sent = true := by simp [Event.isHeard, hout]
    exact .of_silent hbefore (.of_emit hheard (List.IsSuffix.trans ⟨new, hnew.symm⟩ hconc.grows))
  · have hc := h.resolve_left ht
    have hacts := hc.acts hr.results
    cases hc with
    | late hj hc => exact (judgeResult_speaks hj hs hc).grows (Grows.turns (Turns.refl _).settle).log
    | @written _ r hmem hj hc =>
      have hcount : ¬ (e.attended op).NoneCounts sent := fun hno => hno r hmem hj hc
      have hatt := attended_attends hs ht
      have hq : (e.attended op).queued = [] := hatt.queued.trans (hr.queued hs)
      have hspeaks := judgeResults_speaks (hatt.single.trans hs) hcount
      -- while something is awaited no poll is chosen, so the results are judged for this one
      rcases hacts with hop | ⟨frame, success, rfl⟩
      · rcases (attended_concludes ho hr.results hop).awaits (Nat.pos_iff_ne_zero.1 hj.1) hq with ⟨-, hno⟩ | heq
        · rw [hno] at hmem
          cases hmem
        · rw [heq, settle_judges hq]
          exact .of_silent hatt.log hspeaks
      · exact absurd (show r ∈ e.results from hmem) (by rw [hr.results]; exact List.not_mem_nil)

/-- What does not stir calls nobody before the next poll may be chosen. -/
theorem not_stirs_attends {op : Operation} (ho : e.channel.Owned) (hr : e.AtRest) (hs : e.single = none)
    (hop : op.Acts) (h : ¬ Stirs sent e op) : ∃ e', Attends (e.Resends op) e e' ∧
      (e'.wait = 0 ∧ Concludes e' (e.step op) ∨ ∃ received results new, e.step op =
        { e' with job := { e'.job with received }, results, log := new ++ e'.log } ∧
          ∀ s ∈ new, s.event.IsSent ∧ sent = false) := by
  have hatt := attended_attends hs fun ht => h (.inl ht)
  have hq : (e.attended op).queued = [] := hatt.queued.trans (hr.queued hs)
  have hconc := attended_concludes ho hr.results hop
  refine ⟨_, hatt, ?_⟩
  by_cases hw : (e.attended op).wait = 0
  · exact .inl ⟨hw, hconc⟩
  · refine .inr ?_
    rcases hconc.awaits hw hq with ⟨heq, -⟩ | heq
    · exact ⟨(e.attended op).job.received, (e.attended op).results, [], heq, List.forall_mem_nil _⟩
    · obtain ⟨received, new, heq', hnew⟩ := settle_calm hq fun r hmem hj hc => h (.inr (.written hmem hj hc))
      exact ⟨received, [], new, heq.trans heq', hnew⟩

theorem judgeResults_nil (h : e.results = []) : e.judgeResults = e := by
  unfold judgeResults
  rw [h]
  show { e with results := [] } = e
  rw [← h]

/-- A result that arrives late and does not count is not heard of. -/
theorem not_stirs_late (hr : e.AtRest) (hs : e.single = none) (h : ¬ Stirs sent e (.txComplete frame success)) :
    ∃ received new, e.step (.txComplete frame success) =
      { e with job := { e.job with received }, log := new ++ e.log } ∧ ∀ s ∈ new, s.event.IsSent ∧ sent = false := by
  have hcalm : e.Judges frame → ¬ (success = false ∨ sent = true) := fun hj hc => h (.inr (.late hj hc))
  obtain ⟨received, new, heq, hnew⟩ := judgeResult_calm hcalm
  have hq : (e.judgeResult frame success).queued = [] :=
    (queued_judgeResult ..).trans (hr.queued hs)
  have hres : (e.judgeResult frame success).results = [] := (results_judgeResult ..).trans hr.results
  refine ⟨received, new, ?_, hnew⟩
  show (e.judgeResult frame success).settle = _
  rw [settle_judges hq, judgeResults_nil hres, heq]

theorem startSingle_gone {request : SingleRequest} (hg : request.isGone e.now = true) :
    e.startSingle request = e.emit (.singleDropped request.ticket) :=
  if_pos hg

/-- A single request that is handed in starts at once if none has the bus. -/
theorem step_submit (hr : e.AtRest) (hs : e.single = none) (request : SingleRequest) :
    e.step (.submit request) = (e.startSingle request).judgeResults := by
  have hq : e.queued = [] := hr.queued hs
  have hnone : { e with queued := [] } = e := by rw [← hq]
  show Engine.settle { e with queued := e.queued ++ [request] } = _
  unfold settle
  rw [hq]
  show startQueued [request] { e with queued := [request] } = _
  unfold startQueued
  dsimp only
  rw [judgeResults_nil (by exact hr.results), if_neg (show ¬ e.single.isSome = true by simp [hs])]
  show (Engine.startSingle { e with queued := [] } request).judgeResults = _
  rw [hnone]

end Engine

end EcuPoll
