import EcuPoll.Proofs.Engine.Deeds
import EcuPoll.Proofs.Engine.Rounds
import EcuPoll.Proofs.Vwtp.Beside

/-!
# Polls between two ticks

At most `sequenceMax` entries are handed out from one tick to the next. But a single request borrows the
schedule with its count: it starts at 0, and when the request ends the list goes on with the count of the
request. So the throttle holds from the start of one single request to that of the next, and for the whole time
between two ticks if none starts in it: `throttled`.
-/

namespace EcuPoll

/-- A single request takes the bus. -/
def Event.isCall : Event → Bool
  | .singleStarted _ => true
  | _ => false

theorem Event.IsNote.isCall {event : Event} (h : event.IsNote) : event.isCall = false := by
  cases event <;> first | rfl | exact h.elim

theorem Event.IsNote.isDispatch {event : Event} (h : event.IsNote) : event.isDispatch = false := by
  cases event <;> first | rfl | exact h.elim

/-- The polls dispatched in a part of the log, of the list and of single requests. -/
def dispatches (log : List Stamped) : Nat :=
  log.countP (·.event.isDispatch)

/-- The single requests that started in a part of the log. -/
def calls (log : List Stamped) : Nat :=
  log.countP (·.event.isCall)

/-- The events since the last single request started, newest first like the log. -/
def sinceCall (log : List Stamped) : List Stamped :=
  log.takeWhile (!·.event.isCall)

/-- In every stretch of the log in which no single request starts, at most `n` polls are dispatched. -/
def Metered (n : Nat) (log : List Stamped) : Prop :=
  ∀ stretch, stretch <:+: log → calls stretch = 0 → dispatches stretch ≤ n

section Logs
variable {n : Nat} {s : Stamped} {log new : List Stamped}

theorem dispatches_cons : dispatches (s :: log) = dispatches log + if s.event.isDispatch then 1 else 0 :=
  List.countP_cons

theorem calls_cons : calls (s :: log) = calls log + if s.event.isCall then 1 else 0 :=
  List.countP_cons

theorem sinceCall_cons_call (h : s.event.isCall = true) : sinceCall (s :: log) = [] := by
  simp [sinceCall, h]

theorem sinceCall_cons (h : s.event.isCall = false) : sinceCall (s :: log) = s :: sinceCall log := by
  simp [sinceCall, h]

theorem calls_sinceCall (log : List Stamped) : calls (sinceCall log) = 0 := by
  simp only [calls, sinceCall, List.countP_eq_zero]
  intro s hs
  simpa using List.mem_takeWhile_imp hs

/-- A first part without a start lies before the last start. -/
theorem dispatches_prefix_le {stretch : List Stamped} (h : stretch <+: log) (hc : calls stretch = 0) :
    dispatches stretch ≤ dispatches (sinceCall log) := by
  induction log generalizing stretch with
  | nil => rw [List.prefix_nil.1 h]; exact Nat.zero_le _
  | cons s log ih =>
    cases stretch with
    | nil => exact Nat.zero_le _
    | cons s' stretch =>
      obtain ⟨rfl, hrest⟩ := List.cons_prefix_cons.1 h
      rw [calls_cons, Nat.add_eq_zero_iff] at hc
      have hs : s'.event.isCall = false := by simpa using hc.2
      rw [sinceCall_cons hs, dispatches_cons, dispatches_cons]
      exact Nat.add_le_add_right (ih hrest hc.1) _

namespace Metered

theorem nil : Metered n [] := fun stretch h _ => by
  rw [List.infix_nil.1 h]
  exact Nat.zero_le _

theorem sinceCall_le (h : Metered n log) : dispatches (sinceCall log) ≤ n :=
  h _ (List.takeWhile_prefix _).isInfix (calls_sinceCall log)

theorem cons (h : Metered n log) (hs : dispatches (sinceCall (s :: log)) ≤ n) : Metered n (s :: log) := by
  intro stretch hst hc
  rcases List.infix_cons_iff.1 hst with hst | hst
  · exact (dispatches_prefix_le hst hc).trans hs
  · exact h stretch hst hc

/-- Every start lets `n` more polls pass. -/
theorem dispatches_le (h : Metered n log) : dispatches log ≤ n * calls log + dispatches (sinceCall log) := by
  induction log with
  | nil => exact Nat.zero_le _
  | cons s log ih =>
    have hlog : Metered n log := fun stretch hst => h stretch (hst.trans (List.suffix_cons s log).isInfix)
    have ih := ih hlog
    cases hs : s.event.isCall with
    | true =>
      have hd : s.event.isDispatch = false := by
        cases hev : s.event <;> rw [hev] at hs <;> first | rfl | cases hs
      have hle := hlog.sinceCall_le
      rw [dispatches_cons, calls_cons, hs, hd, sinceCall_cons_call hs, Nat.mul_add]
      simp only [Bool.false_eq_true, if_false, if_true, dispatches, List.countP_nil] at *
      omega
    | false =>
      rw [dispatches_cons, calls_cons, sinceCall_cons hs, dispatches_cons, hs]
      simp only [Bool.false_eq_true, if_false, Nat.add_zero]
      omega

end Metered

/-- The polls of the list are among those dispatched. -/
theorem length_periodicPolls_le (log : List Stamped) : (periodicPolls log).length ≤ dispatches log := by
  rw [periodicPolls, List.length_filterMap_eq_countP, List.countP_reverse, dispatches]
  refine List.countP_mono_left fun s _ hs => ?_
  cases hev : s.event <;> rw [hev] at hs <;> first | rfl | cases hs

end Logs

/-! ### The count of the schedule -/

namespace Schedule
variable {s : Schedule}

theorem next_sequenceMax (s : Schedule) : s.next.2.sequenceMax = s.sequenceMax := by
  have hout := next_handout s
  generalize s.next = next at hout ⊢
  cases hout <;> rfl

/-- An entry that is handed out is counted. -/
theorem sequenceCount_next_due {entry : PollEntry} (h : s.next.1 = .due entry) :
    s.next.2.sequenceCount = s.sequenceCount + 1 := by
  have hout := next_handout s
  generalize s.next = next at h hout ⊢
  cases hout <;> first | rfl | cases h

theorem sequenceCount_next (h : ∀ entry, s.next.1 ≠ .due entry) :
    s.next.2.sequenceCount = s.sequenceCount := by
  have hout := next_handout s
  generalize s.next = next at h hout ⊢
  cases hout <;> first | rfl | exact absurd rfl (h _)

theorem sequenceMax_restore (s : Schedule) (p : Snapshot) : (s.restore p).sequenceMax = s.sequenceMax := by
  unfold restore
  split <;> rfl

/-- The count goes on with the list, or starts anew with it. -/
theorem sequenceCount_restore (s : Schedule) (p : Snapshot) :
    (s.restore p).sequenceCount = if p.state = s.state then s.sequenceCount else 0 := by
  unfold restore
  split <;> rfl

end Schedule

/-! ### Between two ticks -/

/-- The operation is no tick, and leaves the list, the poll state and the throttle alone. -/
def Operation.KeepsThrottle (sequenceMax : UInt8) : Operation → Prop
  | .tick _ | .setList _ _ | .setState _ => False
  | .setSequenceMax sequenceMax' => sequenceMax' = sequenceMax
  | _ => True

namespace Engine
variable {takes : Prop} {max : UInt8} {base : List Stamped} {e e' : Engine}

/-- Since the log `base`, when the count of the schedule was 0, no more polls were dispatched than may be. -/
structure Throttled (max : UInt8) (base : List Stamped) (e : Engine) : Prop where
  max_eq : e.schedule.sequenceMax = max
  count_le : e.schedule.sequenceCount ≤ max.toNat
  metered : ∃ new, e.log = new ++ base ∧ Metered max.toNat new ∧
    dispatches (sinceCall new) ≤ e.schedule.sequenceCount ∧
    -- the count starts anew if the list restarts at the end of the single request that has the bus
    ∀ capture, e.single = some capture → capture.saved.state = e.schedule.state ∨ dispatches (sinceCall new) = 0

namespace Throttled

theorem congr (h : Throttled max base e) (hs : e'.schedule = e.schedule)
    (hc : e'.single.map (·.saved) = e.single.map (·.saved)) (hl : e'.log = e.log) : Throttled max base e' := by
  obtain ⟨new, hnew, hmetered, hcount, hsaved⟩ := h.metered
  refine ⟨by rw [hs]; exact h.max_eq, by rw [hs]; exact h.count_le, new, hl.trans hnew, hmetered,
    by rw [hs]; exact hcount, fun capture hcap => ?_⟩
  rw [hcap, Option.map_some] at hc
  obtain ⟨capture', hcap', heq⟩ := Option.map_eq_some_iff.1 hc.symm
  rw [hs, ← heq]
  exact hsaved capture' hcap'

/-- An event that is neither a poll nor a start. -/
theorem emit (h : Throttled max base e) {event : Event} (hd : event.isDispatch = false)
    (hc : event.isCall = false) : Throttled max base (e.emit event) := by
  obtain ⟨new, hnew, hmetered, hcount, hsaved⟩ := h.metered
  have hsame : dispatches (sinceCall (⟨e.now, event⟩ :: new)) = dispatches (sinceCall new) := by
    rw [sinceCall_cons hc, dispatches_cons, hd]
    rfl
  refine ⟨h.max_eq, h.count_le, ⟨e.now, event⟩ :: new, congrArg (_ :: ·) hnew,
    hmetered.cons (hsame ▸ hmetered.sinceCall_le), hsame ▸ hcount, fun capture hcap => ?_⟩
  rw [hsame]
  exact hsaved capture hcap

/-- A single request begins its list, and with it its count. -/
theorem capture (h : Throttled max base e) (request : SingleRequest) :
    Throttled max base (e.capture request) := by
  obtain ⟨new, hnew, hmetered, -, -⟩ := h.metered
  have hnone : dispatches (sinceCall (⟨e.now, .singleStarted request.ticket⟩ :: new)) = 0 := by
    rw [sinceCall_cons_call rfl]
    rfl
  refine ⟨h.max_eq, Nat.zero_le _, _ :: new, congrArg (_ :: ·) hnew,
    hmetered.cons (hnone ▸ Nat.zero_le _), hnone ▸ Nat.zero_le _, fun capture hcap => ?_⟩
  obtain rfl := Option.some.inj hcap
  exact .inl rfl

/-- The next entry is handed out and becomes the poll in flight. -/
theorem handOut (h : Throttled max base e) {entry : PollEntry} (hn : e.schedule.next.1 = .due entry)
    (hc : e.schedule.sequenceCount < max.toNat)
    (hs : ∀ capture, e.single = some capture → capture.saved.state = e.schedule.state) :
    Throttled max base (e.advance.assign entry) := by
  obtain ⟨new, hnew, hmetered, hcount, -⟩ := h.metered
  have hnext : (e.advance.assign entry).schedule.sequenceCount = e.schedule.sequenceCount + 1 :=
    Schedule.sequenceCount_next_due hn
  have hlast : dispatches (sinceCall (⟨e.now, .dispatched entry e.advance.schedule.ticker e.singleTicket⟩ :: new)) =
      dispatches (sinceCall new) + 1 := by
    rw [sinceCall_cons rfl, dispatches_cons]
    rfl
  refine ⟨(Schedule.next_sequenceMax _).trans h.max_eq, hnext ▸ hc,
    ⟨e.now, .dispatched entry e.advance.schedule.ticker e.singleTicket⟩ :: new, congrArg (_ :: ·) hnew,
    hmetered.cons ?_, ?_, fun capture hcap => .inl ?_⟩
  · rw [hlast]
    omega
  · rw [hlast, hnext]
    omega
  · exact (hs capture hcap).trans (Schedule.next_state _).symm

/-- Nothing is handed out. -/
theorem advance (h : Throttled max base e) (hn : ∀ entry, e.schedule.next.1 ≠ .due entry) :
    Throttled max base e.advance := by
  obtain ⟨new, hnew, hmetered, hcount, hsaved⟩ := h.metered
  have hnext : e.advance.schedule.sequenceCount = e.schedule.sequenceCount := Schedule.sequenceCount_next hn
  refine ⟨(Schedule.next_sequenceMax _).trans h.max_eq, hnext ▸ h.count_le, new, hnew, hmetered, hnext ▸ hcount,
    fun capture hcap => ?_⟩
  rw [show e.advance.schedule.state = e.schedule.state from Schedule.next_state _]
  exact hsaved capture hcap

theorem finishSingle (h : Throttled max base e) (result : SingleResult) :
    Throttled max base (e.finishSingle result) := by
  unfold Engine.finishSingle
  cases hs : e.single with
  | none => exact h
  | some capture =>
    obtain ⟨new, hnew, hmetered, hcount, hsaved⟩ := h.metered
    have hend : Throttled max base
        { e with single := none, schedule := e.schedule.restore capture.saved, wait := 0 } := by
      refine ⟨(Schedule.sequenceMax_restore ..).trans h.max_eq, ?_, new, hnew, hmetered, ?_,
        fun _ hcap => by cases hcap⟩ <;> dsimp only <;> rw [Schedule.sequenceCount_restore]
      · split
        · exact h.count_le
        · exact Nat.zero_le _
      · by_cases hne : capture.saved.state = e.schedule.state
        · rw [if_pos hne]
          exact hcount
        · rw [if_neg hne]
          exact Nat.le_of_eq ((hsaved capture hs).resolve_left hne)
    exact hend.emit rfl rfl

theorem deed (h : Throttled max base e) (hm : max ≠ 0) (hd : Deed takes e e') : Throttled max base e' := by
  have hpos : 0 < max.toNat := Nat.pos_of_ne_zero fun h0 => hm (UInt8.toNat_inj.1 h0)
  cases hd with
  | adjust | queue | take => exact h.congr rfl rfl rfl
  | collect hs => exact h.congr rfl (by rw [hs]; rfl) rfl
  | write kind frame =>
    have hw : Throttled max base (e.emit (.wrote kind frame (e.line.write e.now).1)) := h.emit rfl rfl
    rw [transmit_eq]
    exact hw.congr rfl rfl rfl
  | note hev => exact h.emit hev.isDispatch hev.isCall
  | @call hs request entry hn =>
    refine (h.capture request).handOut hn hpos fun capture hcap => ?_
    obtain rfl := Option.some.inj hcap
    rfl
  | @turnDown hs request hn => exact (h.capture request).advance hn
  | finish result => exact h.finishSingle result
  | poll hs hn hc =>
    refine h.handOut hn ?_ (by simp [hs])
    simpa [Schedule.canPoll, h.max_eq, hm] using hc
  | conclude hs hn => exact (h.advance (by simp [hn])).emit rfl rfl

theorem deeds (h : Throttled max base e) (hm : max ≠ 0) (hd : Deeds takes e e') : Throttled max base e' := by
  induction hd with
  | refl => exact h
  | tail _ hd ih => exact ih.deed hm hd

theorem startPass (h : Throttled max base e) : Throttled max base e.startPass := by
  obtain ⟨new, hnew, hmetered, hcount, hsaved⟩ := h.metered
  have hp : Throttled max base { e with schedule := e.schedule.startNextPass } := by
    unfold Schedule.startNextPass
    split
    · exact ⟨h.max_eq, h.count_le, new, hnew, hmetered, hcount, hsaved⟩
    · exact h
  unfold Engine.startPass
  dsimp only
  split
  · exact hp.emit rfl rfl
  · exact hp

theorem spans {passes : Prop} (h : Throttled max base e) (hm : max ≠ 0) (hd : Spans takes passes e e') :
    Throttled max base e' := by
  obtain ⟨e₁, e₂, hbefore, hp, hafter⟩ := hd
  refine Throttled.deeds ?_ hm hafter
  rcases hp with rfl | ⟨-, -, rfl⟩
  · exact h.deeds hm hbefore
  · exact (h.deeds hm hbefore).startPass

/-- A tick lifts throttling. -/
theorem tick (hr : e.AtRest) (hm : e.schedule.sequenceMax ≠ 0) (primary : Bool) :
    Throttled e.schedule.sequenceMax e.log (e.step (.tick primary)) := by
  have h : Throttled e.schedule.sequenceMax e.log (e.readied (.tick primary)) :=
    ⟨rfl, Nat.zero_le _, [], rfl, .nil, Nat.zero_le _, fun _ _ => .inr rfl⟩
  exact h.spans hm (step_spans hr (by simp) (by simp) (by simp))

theorem step (h : Throttled max base e) (hr : e.AtRest) (hm : max ≠ 0) {op : Operation}
    (hop : op.KeepsThrottle max) : Throttled max base (e.step op) := by
  cases op with
  | tick | setList | setState => exact hop.elim
  | setSequenceMax sequenceMax =>
    have hsame : sequenceMax = e.schedule.sequenceMax := Eq.trans hop h.max_eq.symm
    refine h.congr ?_ rfl rfl
    show e.schedule.setSequenceMax sequenceMax = _
    rw [hsame]
    rfl
  | _ => exact h.deeds hm (step_deeds hr (by simp) (by simp) (by simp) (by simp))

theorem run (h : Throttled max base e) (hr : e.AtRest) (hm : max ≠ 0) {ops : List Operation}
    (hops : ∀ op ∈ ops, op.KeepsThrottle max) : Throttled max base (e.run ops) := by
  induction ops generalizing e with
  | nil => exact h
  | cons op ops ih =>
    rw [List.forall_mem_cons] at hops
    exact ih (h.step hr hm hops.1) (hr.step op) hops.2

end Throttled

/-- From one tick to the next, with a throttle that stays as it is, at most `sequenceMax` polls are dispatched in any
time in which no single request starts. So the list sends at most that many if none starts at all, and every start
lets it send at most that many more. -/
theorem throttled (hr : e.Reached) (hm : e.schedule.sequenceMax ≠ 0) (primary : Bool) (ops : List Operation)
    (hops : ∀ op ∈ ops, op.KeepsThrottle e.schedule.sequenceMax) :
    ∃ new, (e.run (.tick primary :: ops)).log = new ++ e.log ∧
      Metered e.schedule.sequenceMax.toNat new ∧
      (periodicPolls new).length ≤ e.schedule.sequenceMax.toNat * (calls new + 1) := by
  have hrest := hr.atRest
  have h := (Throttled.tick hrest hm primary).run (hrest.step _) hm hops
  obtain ⟨new, hnew, hmetered, -⟩ := h.metered
  refine ⟨new, hnew, hmetered, ?_⟩
  calc (periodicPolls new).length
    _ ≤ dispatches new := length_periodicPolls_le new
    _ ≤ e.schedule.sequenceMax.toNat * calls new + dispatches (sinceCall new) := hmetered.dispatches_le
    _ ≤ e.schedule.sequenceMax.toNat * calls new + e.schedule.sequenceMax.toNat :=
      Nat.add_le_add_left hmetered.sinceCall_le _
    _ = e.schedule.sequenceMax.toNat * (calls new + 1) := (Nat.mul_succ ..).symm

/-- Two of three entries may be polled. Both are answered at once, and the third waits for the next tick. -/
theorem throttled_example :
    let bus : BusId := ⟨1, by decide⟩
    let ident : PollEntry := ⟨0x7e0, 0x7e8, 0x22, 0xf187, [], #v[1, 1, 1, 1], 1, .isoTp⟩
    let version : PollEntry := ⟨0x7e0, 0x7e8, 0x22, 0xf188, [], #v[1, 1, 1, 1], 1, .isoTp⟩
    let serial : PollEntry := ⟨0x7e0, 0x7e8, 0x22, 0xf189, [], #v[1, 1, 1, 1], 1, .isoTp⟩
    let e := (Engine.new bus "ecu" false ⟨2, 25, .strict, 0, 0⟩).step
      (.setList (some [ident, version, serial]) (some bus))
    let ops : List Operation := [.frame (EcuFrame.single bus 0x7e8 [0x62, 0xf1, 0x87, 0xcc]),
      .frame (EcuFrame.single bus 0x7e8 [0x62, 0xf1, 0x88, 0xdd])]
    (e.schedule.sequenceMax ≠ 0 ∧ ∀ op ∈ ops, op.KeepsThrottle e.schedule.sequenceMax) ∧
      ∃ new, (e.run (.tick true :: ops)).log = new ++ e.log ∧ Metered 2 new ∧
        (periodicPolls new).length ≤ 2 * (calls new + 1) := by
  intro bus ident version serial e ops
  have hm : e.schedule.sequenceMax ≠ 0 := by decide
  have hops : ∀ op ∈ ops, op.KeepsThrottle e.schedule.sequenceMax := by simp [ops, Operation.KeepsThrottle]
  have hr : e.Reached := ⟨bus, "ecu", false, ⟨2, 25, .strict, 0, 0⟩,
    [.setList (some [ident, version, serial]) (some bus)], rfl⟩
  exact ⟨⟨hm, hops⟩, throttled hr hm true ops hops⟩

/-- After the second answer a single request is sent and answered. Its count of one is that of the list from then
on, so that the third entry is polled in the same tick. -/
theorem not_throttled_example :
    let bus : BusId := ⟨1, by decide⟩
    let ident : PollEntry := ⟨0x7e0, 0x7e8, 0x22, 0xf187, [], #v[1, 1, 1, 1], 1, .isoTp⟩
    let version : PollEntry := ⟨0x7e0, 0x7e8, 0x22, 0xf188, [], #v[1, 1, 1, 1], 1, .isoTp⟩
    let serial : PollEntry := ⟨0x7e0, 0x7e8, 0x22, 0xf189, [], #v[1, 1, 1, 1], 1, .isoTp⟩
    let speed : PollEntry := ⟨0x7e1, 0x7e9, 0x22, 0xf40d, [], #v[1, 1, 1, 1], 1, .isoTp⟩
    let e := (Engine.new bus "ecu" false ⟨2, 25, .strict, 0, 0⟩).step
      (.setList (some [ident, version, serial]) (some bus))
    e.log = [] ∧ periodicPolls (e.run [.tick true,
      .frame (EcuFrame.single bus 0x7e8 [0x62, 0xf1, 0x87, 0xcc]),
      .frame (EcuFrame.single bus 0x7e8 [0x62, 0xf1, 0x88, 0xdd]),
      .submit ⟨1, speed, 3000, none⟩,
      .frame (EcuFrame.single bus 0x7e9 [0x62, 0xf4, 0x0d, 0x11])]).log =
        [(0, ident), (0, version), (0, serial)] := by
  decide

end Engine

end EcuPoll
