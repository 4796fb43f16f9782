import EcuPoll.Proofs.Engine.Deeds
import EcuPoll.Proofs.Engine.Dropped
import EcuPoll.Proofs.Engine.Parts
import EcuPoll.Proofs.IsoTp.Delivery

/-!
# After a lost frame

A consecutive frame that is out of sequence ends the response: the poll accepts no id above 0 any more and is left to
run out of ticks (`Deaf`). Id 0 is still accepted. Until the next primary tick or the next request the engine stays
still (`Still`), unless a frame comes in whose sender has that id and that has something to say to the poll (`Wakes`).
-/

namespace EcuPoll

/-- A result is handed on, or a frame is written. -/
def Event.IsNews : Event → Prop
  | .wrote _ _ _ | .reply _ _ _ | .failed _ _ | .singleResolved _ _ => True
  | _ => False

/-- A frame comes in, time passes, or a secondary tick begins. -/
def Operation.IsIncoming : Operation → Prop
  | .frame _ | .tick false | .elapse _ => True
  | _ => False

namespace Engine
variable {e e' : Engine} {frame : Frame} {op : Operation} {ops : List Operation}

/-- No result is handed on, nothing is written, and the wait is what it was. -/
structure Still (e e' : Engine) : Prop where
  log : Adds (fun event => ¬ event.IsNews) e e'
  wait : e'.wait = e.wait

/-- The response to the ISO-TP poll in flight has lost a frame, and there is no channel. -/
structure Deaf (e : Engine) : Prop where
  rest : e.AtRest
  isoTp : e.job.isVwtp = false
  entry_isSome : e.job.entry.isSome = true
  low : e.job.low = 0
  high : e.job.high = 0
  wait_eq : e.wait = 2
  closed : e.channel.state = .closed

/-- The segment has something to say to the poll in flight: it begins a response to it, it is the next part of one
(for a single request only the last part counts), or it lets the rest of the request go out or wait. -/
def Rouses (e : Engine) : Segment → Prop
  | .single data | .first _ data => e.judge data ≠ .foreign
  | .consecutive index data => e.isNumberOk index = true ∧
      (e.single = none ∨ e.job.mlRemain.toNat ≤ data.length)
  | .flow command _ _ => 0 < e.out.remaining ∧ (command = 0 ∨ command = 1)

/-- The sender of the frame has the id 0, and the frame has something to say to the poll in flight. -/
inductive Wakes (e : Engine) : Operation → Prop
  | frame {frame : Frame} {segment : Segment} (hb : frame.bus = e.bus) (hid : e.responseId frame = 0)
    (hs : Segment.ofBytes? (e.job.protocol.isoTpData frame) = some segment) (hr : e.Rouses segment) :
    Wakes e (.frame frame)

/-- Nothing has come of it: the poll has lost a frame as before, and nothing was reported. -/
structure Unheard (e e' : Engine) : Prop where
  deaf : Deaf e'
  bus : e'.bus = e.bus
  protocol : e'.job.protocol = e.job.protocol
  log : e'.log = e.log

namespace Deaf

theorem update (h : Deaf e) (now : Nat) (schedule : Schedule) (out : Outbound) :
    Unheard e { e with now, schedule, out } :=
  ⟨⟨⟨h.rest.results, h.rest.queue⟩, h.isoTp, h.entry_isSome, h.low, h.high, h.wait_eq, h.closed⟩, rfl, rfl, rfl⟩

theorem unheard (h : Deaf e) : Unheard e e := h.update e.now e.schedule e.out

theorem accepts_iff (h : Deaf e) (id : UInt32) : e.job.accepts id = true ↔ id = 0 :=
  PollJob.accepts_iff (by rw [h.low, h.high])

theorem step_frame (h : Deaf e) (hb : frame.bus = e.bus) :
    e.step (.frame frame) =
      (if e.responseId frame = 0 then e.receiveIsoTp frame (e.responseId frame) else e).settle := by
  have hc : e.isChannelFrame frame = false := by simp [isChannelFrame, Channel.isOpen, h.closed]
  rw [step_frame_other hb hc]
  congr 1
  unfold receiveOther
  rw [h.isoTp, h.entry_isSome, h.wait_eq]
  simp only [Bool.not_false, Nat.zero_lt_two, decide_true, Bool.and_true, Bool.true_and, h.accepts_iff]

/-- The outcome of an operation that leaves no results and no request behind. -/
theorem settle (h : Deaf e) : e.settle = e := settle_atRest h.rest

theorem reject (h : Deaf e) : Unheard e e.rejectResponse :=
  ⟨⟨⟨h.rest.results, h.rest.queue⟩, h.isoTp, h.entry_isSome, rfl, rfl, rfl, h.closed⟩, rfl, rfl, rfl⟩

/-- More of the response goes to the single request, which waits for the rest. -/
theorem receiveConsecutive (h : Deaf e) {index : UInt8} {data : List UInt8}
    (hno : ¬ e.Rouses (.consecutive index data)) (id : UInt32) :
    Unheard e (e.receiveConsecutive id index data) := by
  unfold Engine.receiveConsecutive
  cases hn : e.isNumberOk index with
  | false => exact h.reject
  | true =>
    have hno : ¬ (e.single = none ∨ e.job.mlRemain.toNat ≤ data.length) := fun hor => hno ⟨hn, hor⟩
    obtain ⟨hsome, hmore⟩ := not_or.1 hno
    obtain ⟨capture, hsingle⟩ := Option.ne_none_iff_exists'.1 hsome
    have hremain : lessLength e.job.mlRemain (data.take e.job.mlRemain.toNat) ≠ 0 := by
      rw [Ne, ← UInt16.toNat_inj, toNat_lessLength, List.length_take]
      show _ ≠ 0
      omega
    simp only [Bool.not_true, Bool.false_eq_true, if_false, deliverSegment, deliverReply, hsingle, if_neg hremain,
      afterSegment]
    exact ⟨⟨⟨h.rest.results, .inl rfl⟩, h.isoTp, h.entry_isSome, h.low, h.high, rfl, h.closed⟩, rfl, rfl, rfl⟩

theorem isoTpFlow (h : Deaf e) {command blockSize septime : UInt8}
    (hno : ¬ e.Rouses (.flow command blockSize septime)) (id : UInt32) :
    Unheard e (e.isoTpFlow id command blockSize septime) := by
  unfold Engine.isoTpFlow
  by_cases ho : e.out.remaining = 0
  · rw [if_pos ho]
    exact h.unheard
  · rw [if_neg ho]
    obtain ⟨hgo, hwait⟩ : ¬ command = 0 ∧ ¬ command = 1 := not_or.1 fun hor => hno ⟨by omega, hor⟩
    unfold FlowCommand.ofByte?
    rw [if_neg hgo, if_neg hwait]
    by_cases habort : command = 2
    · rw [if_pos habort]
      exact h.update ..
    · rw [if_neg habort]
      exact h.unheard

theorem receiveIsoTp (h : Deaf e) (frame : Frame) (id : UInt32)
    (hno : ∀ segment, Segment.ofBytes? (e.job.protocol.isoTpData frame) = some segment → ¬ e.Rouses segment) :
    Unheard e (e.receiveIsoTp frame id) := by
  have hforeign {data : List UInt8} (hd : ¬ e.judge data ≠ .foreign) (total : UInt16) (first : Bool) :
      Unheard e (e.receiveOpening id total data first) := by
    unfold receiveOpening
    rw [Classical.not_not.1 hd]
    exact h.unheard
  unfold Engine.receiveIsoTp
  cases hs : Segment.ofBytes? (e.job.protocol.isoTpData frame) with
  | none => exact h.unheard
  | some segment =>
    cases segment with
    | flow => exact h.isoTpFlow (hno _ hs) id
    | single => exact hforeign (hno _ hs) _ _
    | first => exact hforeign (hno _ hs) _ _
    | consecutive => exact h.receiveConsecutive (hno _ hs) id

/-- What does not wake the poll leaves it as it is. -/
theorem step (h : Deaf e) (hop : op.IsIncoming) (hno : ¬ e.Wakes op) : Unheard e (e.step op) := by
  cases op with
  | frame frame =>
    by_cases hb : frame.bus = e.bus
    · rw [h.step_frame hb]
      by_cases hid : e.responseId frame = 0
      · rw [if_pos hid]
        have hu := h.receiveIsoTp frame (e.responseId frame) fun segment hs hr => hno (.frame hb hid hs hr)
        rw [hu.deaf.settle]
        exact hu
      · rw [if_neg hid]
        rw [h.settle]
        exact h.unheard
    · rw [show e.step (.frame frame) = e from if_pos hb]
      exact h.unheard
  | tick primary =>
    obtain rfl : primary = false := by
      cases primary with
      | false => rfl
      | true => exact hop.elim
    have hu := h.update e.now e.schedule.resetSequence e.out
    have hstep : e.step (.tick false) = { e with schedule := e.schedule.resetSequence } := by
      show ({ e with schedule := e.schedule.resetSequence }.sendNext false).settle = _
      rw [sendNext, if_pos (by rw [hu.deaf.wait_eq]; exact Nat.zero_lt_two), hu.deaf.settle]
    rw [hstep]
    exact hu
  | elapse ms => exact h.update ..
  | _ => exact hop.elim

end Deaf

/-! ### What wakes the poll -/

theorem not_still_of_shows (h : Shows Event.IsNews e e') : ¬ Still e e'.settle := fun hs =>
  (h.grows (Grows.turns (Turns.refl e').settle).log).not_adds (fun _ hev hno => hno hev) hs.log

theorem settle_longer (hr : e.AtRest) :
    { e with wait := min 255 (e.wait + 1) }.settle = { e with wait := min 255 (e.wait + 1) } :=
  settle_atRest ⟨hr.results, hr.queue⟩

/-- The sender asks for more time. -/
theorem Deaf.not_still_wait (h : Deaf e) : ¬ Still e { e with wait := min 255 (e.wait + 1) }.settle := by
  rw [settle_longer h.rest, h.wait_eq]
  intro hs
  have hwait : 3 = e.wait := hs.wait
  rw [h.wait_eq] at hwait
  cases hwait

theorem shows_deliverFailure (e : Engine) (failure : PollFailure) :
    Shows Event.IsNews e (e.deliverFailure failure) := by
  unfold deliverFailure
  cases hs : e.single with
  | none => exact .emit e trivial
  | some capture =>
    unfold finishSingle
    rw [hs]
    exact ⟨[_], rfl, _, List.mem_singleton_self _, trivial⟩

/-- Payload for the poll list is handed on at once, and the last payload for a single request. -/
theorem shows_deliverReply (h : e.single = none ∨ e.job.mlRemain = 0) (data : List UInt8) :
    Shows Event.IsNews e (e.deliverReply data) := by
  unfold deliverReply
  cases hs : e.single with
  | none => exact .emit e trivial
  | some capture =>
    dsimp only
    rw [hs] at h
    rw [if_pos (h.resolve_left nofun)]
    unfold finishSingle
    rw [hs]
    exact ⟨[_], rfl, _, List.mem_singleton_self _, trivial⟩

/-- A part of a response is heard of: it is handed on, or the sender is let go on. -/
theorem shows_segment (hj : e.job.isVwtp = false) {remain : UInt16} {first : Bool}
    (h : e.single = none ∨ remain = 0 ∨ first = true) (id : UInt32) (payload : List UInt8) (length : Nat) :
    Shows Event.IsNews e ((e.deliverSegment id payload remain).afterSegment id first length) := by
  have hgrows : (e.deliverSegment id payload remain).log <:+
      ((e.deliverSegment id payload remain).afterSegment id first length).log := by
    refine (Grows.moves (@afterSegment_moves False _ ?_ id first length)).log
    unfold deliverSegment
    rw [(Delivers.deliverReply ..).job]
    exact hj
  by_cases hnow : e.single = none ∨ remain = 0
  · exact (shows_deliverReply (e := { e with job := { e.job with received := id, mlRemain := remain } }) hnow
      payload).grows hgrows
  · obtain ⟨hsome, hremain⟩ := not_or.1 hnow
    obtain rfl : first = true := by
      rcases h with h | h | h
      · exact absurd h hsome
      · exact absurd h hremain
      · exact h
    obtain ⟨capture, hsingle⟩ := Option.ne_none_iff_exists'.1 hsome
    simp only [deliverSegment, deliverReply, hsingle, if_neg hremain, afterSegment, if_true, sendFlowControl]
    rw [transmit_eq]
    exact ⟨[_], rfl, _, List.mem_singleton_self _, trivial⟩

/-- The length of a single frame is that of its data. -/
theorem lessLength_self (data : List UInt8) : lessLength (UInt16.ofNat data.length) data = 0 := by
  unfold lessLength
  split
  · exact UInt16.sub_self _
  · rfl

/-- A response that begins like this is heard of, or it is deferred. -/
theorem receiveOpening_heard (hj : e.job.isVwtp = false) {data : List UInt8} (hd : e.judge data ≠ .foreign)
    {total : UInt16} {first : Bool} (ht : first = false → lessLength total data = 0) (id : UInt32) :
    Shows Event.IsNews e (e.receiveOpening id total data first) ∨
      (∃ code, e.judge data = .refused code ∧ code.isPending = true) ∧
        e.receiveOpening id total data first = { e with wait := min 255 (e.wait + 1) } := by
  unfold receiveOpening
  cases hcode : e.judge data with
  | foreign => exact absurd hcode hd
  | refused code =>
    by_cases hpending : code.isPending = true
    · dsimp only
      rw [if_pos hpending]
      exact .inr ⟨⟨code, rfl, hpending⟩, rfl⟩
    · dsimp only
      rw [if_neg hpending]
      refine .inl ((shows_deliverFailure (e := { e with
        job := { e.job with received := id }.resetMultiframe }) (.negative code)).grows ?_)
      refine (Grows.moves (@afterSegment_moves False _ ?_ id first 0)).log
      rw [(Delivers.deliverFailure ..).job]
      exact hj
  | answer payload =>
    refine .inl (shows_segment hj (.inr ?_) ..)
    cases first with
    | false => exact .inl (ht rfl)
    | true => exact .inr rfl

/-- A module that lets the request go on gets more of it. -/
theorem shows_goOn (ho : 0 < e.out.remaining) (id : UInt32) (blockSize septime : UInt8) :
    Shows Event.IsNews e (e.isoTpFlow id 0 blockSize septime) := by
  obtain ⟨time, frame, accepted, new, hnew⟩ :=
    exists_consecutive_isoTpFlow (show FlowCommand.ofByte? 0 = some .goOn from rfl) ho id blockSize septime
  refine ⟨new ++ [⟨time, .wrote .consecutive frame accepted⟩], ?_, ⟨time, .wrote .consecutive frame accepted⟩,
    List.mem_append_right _ (List.mem_singleton_self _), trivial⟩
  rw [← hnew, List.append_assoc]
  rfl

theorem isoTpFlow_wait (ho : 0 < e.out.remaining) (id : UInt32) (blockSize septime : UInt8) :
    e.isoTpFlow id 1 blockSize septime = { e with wait := min 255 (e.wait + 1) } :=
  if_neg (by omega)

namespace Deaf

theorem not_still_opening (h : Deaf e) {data : List UInt8} (hd : e.judge data ≠ .foreign) {total : UInt16}
    {first : Bool} (ht : first = false → lessLength total data = 0) (id : UInt32) :
    ¬ Still e (e.receiveOpening id total data first).settle := by
  rcases receiveOpening_heard h.isoTp hd ht id with hs | ⟨-, heq⟩
  · exact not_still_of_shows hs
  · rw [heq]
    exact h.not_still_wait

theorem not_still_flow (h : Deaf e) {command blockSize septime : UInt8}
    (hr : e.Rouses (.flow command blockSize septime)) (id : UInt32) :
    ¬ Still e (e.isoTpFlow id command blockSize septime).settle := by
  obtain ⟨ho, rfl | rfl⟩ := hr
  · exact not_still_of_shows (shows_goOn ho id blockSize septime)
  · rw [isoTpFlow_wait ho]
    exact h.not_still_wait

theorem not_still_consecutive (h : Deaf e) {index : UInt8} {data : List UInt8}
    (hr : e.Rouses (.consecutive index data)) (id : UInt32) :
    ¬ Still e (e.receiveConsecutive id index data).settle := by
  obtain ⟨hn, hlast⟩ := hr
  unfold Engine.receiveConsecutive
  rw [hn]
  refine not_still_of_shows (shows_segment h.isoTp (hlast.imp_right fun hle => .inl ?_) ..)
  rw [← UInt16.toNat_inj, toNat_lessLength, List.length_take, Nat.min_eq_left hle, Nat.sub_self]
  rfl

/-- What wakes the poll is heard of. -/
theorem not_still_step (h : Deaf e) (hw : e.Wakes op) : ¬ Still e (e.step op) := by
  obtain @⟨frame, segment, hb, hid, hs, hr⟩ := hw
  rw [h.step_frame hb, if_pos hid, Engine.receiveIsoTp, hs]
  cases segment with
  | single data => exact h.not_still_opening hr (fun _ => lessLength_self data) _
  | first total data => exact h.not_still_opening hr (fun hfirst => absurd hfirst (by decide)) _
  | consecutive index data => exact h.not_still_consecutive hr _
  | flow command blockSize septime => exact h.not_still_flow hr _

/-! ### In a run -/

theorem still_run_iff (h : Deaf e) (hops : ∀ op ∈ ops, op.IsIncoming) :
    (∀ before after, ops = before ++ after → Still e (e.run before)) ↔
      ∀ before op after, ops = before ++ op :: after → ¬ (e.run before).Wakes op := by
  induction ops generalizing e with
  | nil =>
    refine iff_of_true (fun before after heq => ?_) (by simp)
    obtain ⟨rfl, -⟩ := List.append_eq_nil_iff.1 heq.symm
    exact ⟨.refl e, rfl⟩
  | cons op ops ih =>
    rw [forall_splits_cons]
    obtain ⟨hop, hops⟩ := List.forall_mem_cons.1 hops
    by_cases hw : e.Wakes op
    · exact iff_of_false (fun hall => h.not_still_step hw (hall [op] ops rfl)) fun hno => hno.1 hw
    · have hu := h.step hop hw
      -- nothing has been reported so far, so that it comes to the same to begin after this operation
      have hstill (e' : Engine) : Still (e.step op) e' ↔ Still e e' := by
        refine ⟨fun hs => ⟨?_, ?_⟩, fun hs => ⟨?_, ?_⟩⟩
        · exact (Adds.of_log hu.log).trans hs.log
        · rw [hs.wait, hu.deaf.wait_eq, h.wait_eq]
        · obtain ⟨new, hnew, hnone⟩ := hs.log
          exact ⟨new, by rw [hu.log, hnew], hnone⟩
        · rw [hs.wait, hu.deaf.wait_eq, h.wait_eq]
      refine Iff.trans ⟨fun hall before after heq => ?_, fun hall before after heq => ?_⟩
        ((ih hu.deaf hops).trans ⟨fun hno => ⟨hw, hno⟩, And.right⟩)
      · exact (hstill _).2 (hall (op :: before) after (by rw [heq]; rfl))
      · cases before with
        | nil => exact ⟨.refl e, rfl⟩
        | cons op' before =>
          obtain ⟨rfl, hrest⟩ := List.cons.inj heq
          exact (hstill _).1 (hall before after hrest)

/-- Only the id 0 can wake the poll. -/
theorem not_wakes_of_senders (h : Deaf e) (hops : ∀ op ∈ ops, op.IsIncoming)
    (hids : ∀ frame, .frame frame ∈ ops → frame.bus = e.bus → e.responseId frame ≠ 0) :
    ∀ before op after, ops = before ++ op :: after → ¬ (e.run before).Wakes op := by
  induction ops generalizing e with
  | nil => simp
  | cons op ops ih =>
    rw [forall_splits_cons]
    obtain ⟨hop, hops⟩ := List.forall_mem_cons.1 hops
    have hw : ¬ e.Wakes op := by
      rintro @⟨frame, segment, hb, hid, -, -⟩
      exact hids frame (List.mem_cons_self ..) hb hid
    have hu := h.step hop hw
    refine ⟨hw, ih hu.deaf hops fun frame hmem hb => ?_⟩
    rw [Engine.responseId, hu.protocol]
    exact hids frame (List.mem_cons_of_mem _ hmem) (hb.trans hu.bus)

end Deaf

/-- A frame out of sequence ends the response. -/
theorem HasSegment.deaf (hr : e.Reached) (he : e.job.entry.isSome = true) (hclosed : e.channel.state = .closed)
    {index : UInt8} {data : List UInt8} (hf : e.HasSegment frame (.consecutive index data))
    (hn : e.isNumberOk index = false) : Unheard e.rejectResponse (e.step (.frame frame)) := by
  have hrest := hr.atRest
  have hd : Deaf e.rejectResponse :=
    ⟨⟨hrest.results, hrest.queue⟩, hf.isoTp, he, rfl, rfl, rfl, hclosed⟩
  have hother : e.receiveOther frame = e.rejectResponse := by
    unfold receiveOther
    rw [hf.isoTp, he, hf.accepted, decide_eq_true hf.wait_pos]
    simp only [Bool.not_false, Bool.and_true, if_true]
    rw [receiveIsoTp, hf.read]
    show e.receiveConsecutive _ index data = _
    rw [receiveConsecutive, hn]
    rfl
  rw [step_frame_other hf.bus_eq hf.aside, hother, hd.settle]
  exact hd.unheard

/-- A consecutive frame out of sequence has ended the response to a poll over ISO-TP while no channel is open. Of all
that comes in until the next primary tick or the next request nothing is heard, as long as no frame from the id 0
wakes the poll; in particular if no frame comes from that id. -/
theorem still_iff_none_wakes (hr : e.Reached) (he : e.job.entry.isSome = true) (hclosed : e.channel.state = .closed)
    {index : UInt8} {data : List UInt8} (hf : e.HasSegment frame (.consecutive index data))
    (hn : e.isNumberOk index = false) (hops : ∀ op ∈ ops, op.IsIncoming) :
    ((∀ before after, ops = before ++ after →
        Still (e.step (.frame frame)) ((e.step (.frame frame)).run before)) ↔
      ∀ before op after, ops = before ++ op :: after → ¬ ((e.step (.frame frame)).run before).Wakes op) ∧
    ((∀ frame, .frame frame ∈ ops → frame.bus = e.bus → e.responseId frame ≠ 0) →
      ∀ before after, ops = before ++ after →
        Still (e.step (.frame frame)) ((e.step (.frame frame)).run before)) := by
  have hu := hf.deaf hr he hclosed hn
  have hiff := hu.deaf.still_run_iff hops
  refine ⟨hiff, fun hids => hiff.2 (hu.deaf.not_wakes_of_senders hops fun frame' hmem hb => ?_)⟩
  rw [Engine.responseId, hu.protocol]
  exact hids frame' hmem (hb.trans hu.bus)

/-- After the lost frame come more of the response, another answer from its sender, and a tick. -/
theorem still_iff_none_wakes_example :
    let bus : BusId := ⟨1, by decide⟩
    let entry : PollEntry := ⟨0x7e0, 0x7e8, 0x22, 0xf190, [], #v[1, 1, 1, 1], 1, .isoTp⟩
    let e := (Engine.new bus "ecu" false ⟨0, 25, .strict, 0, 0⟩).run [.setList (some [entry]) none, .tick true,
      .frame (EcuFrame.padded bus 0x7e8 [0x10, 20, 0x62, 0xf1, 0x90, 1, 2, 3])]
    let lost := e.step (.frame (EcuFrame.padded bus 0x7e8 [0x22, 4, 5, 6, 7, 8, 9, 10]))
    let late := EcuFrame.padded bus 0x7e8 [0x21, 4, 5, 6, 7, 8, 9, 10]
    let answer := EcuFrame.padded bus 0x7e8 [0x04, 0x62, 0xf1, 0x90, 7]
    lost.wait = 2 ∧ Still lost (lost.run [.frame late, .frame answer, .tick false]) := by
  intro bus entry e lost late answer
  have hreached : e.Reached := ⟨bus, "ecu", false, _, _, rfl⟩
  have hf : e.HasSegment (EcuFrame.padded bus 0x7e8 [0x22, 4, 5, 6, 7, 8, 9, 10])
      (.consecutive 2 [4, 5, 6, 7, 8, 9, 10]) :=
    ⟨by decide, by decide, by decide, by decide, by decide, by decide⟩
  have hops : ∀ op ∈ [Operation.frame late, .frame answer, .tick false], op.IsIncoming := by
    simp [Operation.IsIncoming]
  have hids : ∀ frame, Operation.frame frame ∈ [Operation.frame late, .frame answer, .tick false] →
      frame.bus = e.bus → e.responseId frame ≠ 0 := by
    intro frame hmem _
    simp only [List.mem_cons, Operation.frame.injEq, List.not_mem_nil, or_false, reduceCtorEq] at hmem
    rcases hmem with rfl | rfl <;> decide
  refine ⟨by decide, (still_iff_none_wakes hreached (by decide) (by decide) hf (by decide) hops).2 hids _ [] ?_⟩
  rw [List.append_nil]

/-- After the response has lost a frame, an answer from the id 0 is handed on and ends the poll. -/
theorem not_still_example :
    let bus : BusId := ⟨1, by decide⟩
    let entry : PollEntry := ⟨0x7e0, 0x7e8, 0x22, 0xf190, [], #v[1, 1, 1, 1], 1, .isoTp⟩
    let e := (Engine.new bus "ecu" false ⟨0, 25, .strict, 0, 0⟩).run [.setList (some [entry]) none, .tick true,
      .frame (EcuFrame.padded bus 0x7e8 [0x10, 20, 0x62, 0xf1, 0x90, 1, 2, 3])]
    let lost := e.step (.frame (EcuFrame.padded bus 0x7e8 [0x22, 4, 5, 6, 7, 8, 9, 10]))
    let answer := Operation.frame (EcuFrame.padded bus 0 [0x04, 0x62, 0xf1, 0x90, 7])
    (replies lost.log).length = 1 ∧ (replies (lost.step answer).log).length = 2 ∧ ¬ Still lost (lost.step answer) := by
  intro bus entry e lost answer
  have hwait : (lost.step answer).wait = 0 ∧ lost.wait = 2 := by decide
  refine ⟨by decide, by decide, fun hs => ?_⟩
  have hsame := hs.wait
  rw [hwait.1, hwait.2] at hsame
  cases hsame

end Engine

end EcuPoll
