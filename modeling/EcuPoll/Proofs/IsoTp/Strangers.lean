import EcuPoll.Proofs.Engine.Patience
import EcuPoll.Proofs.IsoTp.Broadcasts
import EcuPoll.Proofs.IsoTp.Silence

/-!
# Frames of strangers

An engine knows the module that is asked over ISO-TP by one number, into which the identifier and, with extended
addressing, the first data byte are folded. The format of the frame is not part of that number, and the high bits of a
long identifier are shifted out of it. So the frame of another module may be taken for an answer (`Mistakes`), and then
the poll is affected by it just when it has something to say (`Heeds`).
-/

namespace EcuPoll

theorem eq_shiftRight_iff {id rx : UInt32} : id = rx >>> 8 ↔ id.toNat = rx.toNat / 0x100 := by
  rw [← UInt32.toNat_inj, UInt32.toNat_shiftRight, Nat.shiftRight_eq_div_pow]
  rfl

/-- Of the identifier 24 bits are left beside the address byte. -/
theorem fold_eq_iff {id rx : UInt32} {lead : UInt8} :
    id <<< 8 ||| lead.toUInt32 = rx ↔ id.toNat % 0x1000000 = rx.toNat / 0x100 ∧ lead = rx.toUInt8 := by
  have hshift : (id <<< 8).toNat = (id.toNat % 0x1000000) <<< 8 := by
    rw [UInt32.toNat_shiftLeft, Nat.shiftLeft_eq, Nat.shiftLeft_eq]
    show id.toNat * 0x100 % 0x100000000 = id.toNat % 0x1000000 * 0x100
    omega
  have hfold : (id <<< 8 ||| lead.toUInt32).toNat = id.toNat % 0x1000000 * 0x100 + lead.toNat := by
    rw [UInt32.toNat_or, hshift, UInt8.toNat_toUInt32, ← Nat.shiftLeft_add_eq_or_of_lt lead.toNat_lt,
      Nat.shiftLeft_eq]
  rw [← UInt32.toNat_inj, ← UInt8.toNat_inj, hfold, UInt32.toNat_toUInt8]
  have := lead.toNat_lt
  omega

namespace PollEntry
variable {entry : PollEntry} {frame : Frame}

/-- The frame carries the identifier of the module that is asked, in the format of the addressing mode. -/
def Identifies (entry : PollEntry) (frame : Frame) : Prop :=
  match entry.protocol with
  | .isoTpExtAddr => frame.extended = false ∧ frame.id = entry.rx >>> 8 ∧
      Frame.leadByte frame.data = entry.rx.toUInt8
  | .isoTpExtFrame => frame.extended = true ∧ frame.id = entry.rx
  | .isoTp | .vwtp20 => frame.extended = false ∧ frame.id = entry.rx

/-- The frame has the number of the module that is asked, but in the other format, or with bits that are shifted
out. -/
def Resembles (entry : PollEntry) (frame : Frame) : Prop :=
  match entry.protocol with
  | .isoTpExtAddr => (frame.extended = true ∨ 0x1000000 ≤ frame.id.toNat) ∧
      frame.id.toNat % 0x1000000 = entry.rx.toNat / 0x100 ∧ Frame.leadByte frame.data = entry.rx.toUInt8
  | .isoTpExtFrame => frame.extended = false ∧ frame.id = entry.rx
  | .isoTp | .vwtp20 => frame.extended = true ∧ frame.id = entry.rx

instance : Decidable (entry.Identifies frame) := by
  unfold Identifies
  split <;> infer_instance

theorem isoTpSender_eq_iff :
    entry.protocol.isoTpSender frame = entry.rx ↔ entry.Identifies frame ∨ entry.Resembles frame := by
  have hformat : frame.id = entry.rx ↔
      (frame.extended = false ∧ frame.id = entry.rx) ∨ (frame.extended = true ∧ frame.id = entry.rx) := by
    cases frame.extended <;> simp
  unfold Identifies Resembles Protocol.isoTpSender
  cases entry.protocol with
  | isoTp | vwtp20 => exact hformat
  | isoTpExtFrame => exact hformat.trans or_comm
  | isoTpExtAddr =>
    dsimp only
    rw [if_pos rfl, fold_eq_iff, eq_shiftRight_iff]
    have := entry.rx.toNat_lt
    by_cases hlead : Frame.leadByte frame.data = entry.rx.toUInt8
    · cases frame.extended <;> simp [hlead]
      omega
    · simp only [hlead, and_false, or_false]

end PollEntry

namespace Engine
variable {entry : PollEntry} {e e' : Engine} {frame : Frame}

/-- The poll in flight is what it was, and nothing was written or reported. -/
structure Unaffected (e e' : Engine) : Prop where
  log : e'.log = e.log
  wait : e'.wait = e.wait
  job : e'.job = e.job
  out : e'.out = e.out

/-- The engine takes a frame that does not come from the module that is asked for one of that module. After a lost
frame it takes those of the sender 0 instead. -/
inductive Mistakes (e : Engine) (entry : PollEntry) (frame : Frame) : Prop
  | resembles (hr : (e.job.low, e.job.high) = (entry.rx, entry.rx)) (hf : entry.Resembles frame)
  | nobody (hr : (e.job.low, e.job.high) = (0, 0)) (hf : entry.protocol.isoTpSender frame = 0)

/-- A response that begins like this has something to say to the poll in flight: a wait of 255 ticks is not prolonged
any more. -/
def HeedsOpening (e : Engine) (data : List UInt8) : Prop :=
  match e.judge data with
  | .foreign => False
  | .refused code => code.isPending = true → e.wait < 255
  | .answer _ => True

/-- The segment has something to say to the poll in flight. A poll that accepts nothing any more does not mind the loss
of another frame. -/
def Heeds (e : Engine) : Segment → Prop
  | .single data | .first _ data => e.HeedsOpening data
  | .consecutive index _ => e.isNumberOk index = true ∨ (e.job.low, e.job.high) ≠ (0, 0) ∨ e.wait ≠ 2
  | .flow command _ _ => 0 < e.out.remaining ∧ (command = 0 ∨ command = 1 ∧ e.wait < 255 ∨ command = 2)

/-! ### What has nothing to say -/

theorem wait_longer_eq (hw : e.wait ≤ 255) (hno : ¬ e.wait < 255) : { e with wait := min 255 (e.wait + 1) } = e := by
  have heq : min 255 (e.wait + 1) = e.wait := by omega
  rw [heq]

theorem receiveOpening_unheeded (hw : e.wait ≤ 255) {data : List UInt8} (hno : ¬ e.HeedsOpening data) (id : UInt32)
    (total : UInt16) (first : Bool) : e.receiveOpening id total data first = e := by
  unfold HeedsOpening at hno
  unfold receiveOpening
  cases hj : e.judge data with
  | foreign => rfl
  | refused code =>
    rw [hj] at hno
    obtain ⟨hpending, hlong⟩ := Classical.not_imp.1 hno
    dsimp only
    rw [if_pos hpending, wait_longer_eq hw hlong]
  | answer payload =>
    rw [hj] at hno
    exact absurd trivial hno

theorem receiveConsecutive_unheeded {index : UInt8} {data : List UInt8}
    (hno : ¬ e.Heeds (.consecutive index data)) (id : UInt32) : e.receiveConsecutive id index data = e := by
  obtain ⟨hn, hno⟩ := not_or.1 hno
  obtain ⟨hr, hw⟩ := not_or.1 hno
  obtain ⟨hlow, hhigh⟩ := Prod.mk.inj (Classical.not_not.1 hr)
  unfold receiveConsecutive
  rw [if_pos (by simp [hn])]
  show { e with job := { e.job with low := 0, high := 0 }, wait := 2 } = e
  nth_rewrite 1 [← hlow]
  rw [← hhigh, ← Classical.not_not.1 hw]

theorem isoTpFlow_unheeded (hw : e.wait ≤ 255) {command blockSize septime : UInt8}
    (hno : ¬ e.Heeds (.flow command blockSize septime)) (id : UInt32) :
    e.isoTpFlow id command blockSize septime = e := by
  unfold isoTpFlow
  by_cases ho : e.out.remaining = 0
  · rw [if_pos ho]
  · rw [if_neg ho]
    obtain ⟨hgo, hno⟩ := not_or.1 (not_and.1 hno (by omega))
    obtain ⟨hwait, habort⟩ := not_or.1 hno
    unfold FlowCommand.ofByte?
    rw [if_neg hgo]
    by_cases hcommand : command = 1
    · rw [if_pos hcommand]
      exact wait_longer_eq hw (not_and.1 hwait hcommand)
    · rw [if_neg hcommand, if_neg habort]

/-- What has nothing to say leaves all as it is. -/
theorem receiveIsoTp_unheeded (hw : e.wait ≤ 255)
    (hno : ∀ segment, Segment.ofBytes? (e.job.protocol.isoTpData frame) = some segment → ¬ e.Heeds segment)
    (id : UInt32) : e.receiveIsoTp frame id = e := by
  unfold receiveIsoTp
  cases hs : Segment.ofBytes? (e.job.protocol.isoTpData frame) with
  | none => rfl
  | some segment =>
    cases segment with
    | flow => exact isoTpFlow_unheeded hw (hno _ hs) id
    | single => exact receiveOpening_unheeded hw (hno _ hs) id ..
    | first => exact receiveOpening_unheeded hw (hno _ hs) id ..
    | consecutive => exact receiveConsecutive_unheeded (hno _ hs) id

/-! ### What has something to say -/

theorem not_unaffected_of_shows (h : Shows Event.IsNews e e') : ¬ Unaffected e e'.settle := by
  intro hu
  obtain ⟨new, hnew, s, hs, -⟩ := h.grows (Grows.turns (Turns.refl e').settle).log
  rw [hu.log] at hnew
  rw [List.self_eq_append_left.1 hnew] at hs
  cases hs

theorem not_unaffected_settled (hr : e'.AtRest) (h : ¬ Unaffected e e') : ¬ Unaffected e e'.settle := by
  rw [settle_atRest hr]
  exact h

theorem not_unaffected_longer (hr : e.AtRest) (hw : e.wait < 255) :
    ¬ Unaffected e { e with wait := min 255 (e.wait + 1) }.settle := by
  refine not_unaffected_settled ⟨hr.results, hr.queue⟩ fun hu => ?_
  have hwait : min 255 (e.wait + 1) = e.wait := hu.wait
  omega

theorem not_unaffected_opening (hr : e.AtRest) (hj : e.job.isVwtp = false) {data : List UInt8}
    (hd : e.HeedsOpening data) {total : UInt16} {first : Bool} (ht : first = false → lessLength total data = 0)
    (id : UInt32) : ¬ Unaffected e (e.receiveOpening id total data first).settle := by
  have hne : e.judge data ≠ .foreign := fun hf => by simp [HeedsOpening, hf] at hd
  rcases receiveOpening_heard hj hne ht id with hs | ⟨⟨code, hcode, hpending⟩, heq⟩
  · exact not_unaffected_of_shows hs
  · have hw : e.wait < 255 := by
      unfold HeedsOpening at hd
      rw [hcode] at hd
      exact hd hpending
    rw [heq]
    exact not_unaffected_longer hr hw

theorem not_unaffected_flow (hr : e.AtRest) {command blockSize septime : UInt8}
    (hh : e.Heeds (.flow command blockSize septime)) (id : UInt32) :
    ¬ Unaffected e (e.isoTpFlow id command blockSize septime).settle := by
  obtain ⟨ho, rfl | ⟨rfl, hw⟩ | rfl⟩ := hh
  · exact not_unaffected_of_shows (shows_goOn ho id blockSize septime)
  · rw [isoTpFlow_wait ho]
    exact not_unaffected_longer hr hw
  · have habort : e.isoTpFlow id 2 blockSize septime = { e with out := e.out.clear } := if_neg (by omega)
    rw [habort]
    refine not_unaffected_settled ⟨hr.results, hr.queue⟩ fun hu => ?_
    have hout : e.out.clear.remaining = e.out.remaining := congrArg Outbound.remaining hu.out
    have hclear : e.out.clear.remaining = 0 := Nat.sub_self _
    omega

/-- The next part of a response is counted, even if a single request only collects it. -/
theorem not_unaffected_consecutive (hr : e.AtRest) (hj : e.job.isVwtp = false) {index : UInt8} {data : List UInt8}
    (hh : e.Heeds (.consecutive index data)) (id : UInt32) :
    ¬ Unaffected e (e.receiveConsecutive id index data).settle := by
  unfold receiveConsecutive
  cases hn : e.isNumberOk index with
  | false =>
    refine not_unaffected_settled ⟨hr.results, hr.queue⟩ fun hu => ?_
    rcases hh with hh | hh | hh
    · rw [hn] at hh
      cases hh
    · refine hh ?_
      rw [← hu.job]
      rfl
    · exact hh hu.wait.symm
  | true =>
    rw [if_neg (by decide)]
    dsimp only
    by_cases hnow : e.single = none ∨ lessLength e.job.mlRemain (data.take e.job.mlRemain.toNat) = 0
    · exact not_unaffected_of_shows (shows_segment hj (by tauto) ..)
    · obtain ⟨hsome, hremain⟩ := not_or.1 hnow
      obtain ⟨capture, hsingle⟩ := Option.ne_none_iff_exists'.1 hsome
      simp only [deliverSegment, deliverReply, hsingle, if_neg hremain, afterSegment, Bool.false_eq_true, if_false]
      refine not_unaffected_settled ⟨hr.results, .inl rfl⟩ fun hu => ?_
      have hframe : e.job.mlFrame + 1 = e.job.mlFrame := congrArg PollJob.mlFrame hu.job
      simp at hframe

/-- What has something to say is noticed. -/
theorem not_unaffected_receiveIsoTp (hr : e.AtRest) (hj : e.job.isVwtp = false) {segment : Segment}
    (hs : Segment.ofBytes? (e.job.protocol.isoTpData frame) = some segment) (hh : e.Heeds segment) (id : UInt32) :
    ¬ Unaffected e (e.receiveIsoTp frame id).settle := by
  unfold receiveIsoTp
  rw [hs]
  cases segment with
  | single data => exact not_unaffected_opening hr hj hh (fun _ => lessLength_self data) id
  | first total data => exact not_unaffected_opening hr hj hh (fun hfirst => absurd hfirst (by decide)) id
  | consecutive index data => exact not_unaffected_consecutive hr hj hh id
  | flow command blockSize septime => exact not_unaffected_flow hr hh id

/-! ### Frames that are let in -/

/-- A frame that does not come from the module that is asked is let in only by mistake. -/
theorem accepts_iff_mistakes (hr : e.Reached) (he : e.job.entry = some entry) (hp : entry.protocol ≠ .vwtp20)
    (hrx : entry.rx ≠ 0) (hf : ¬ entry.Identifies frame) :
    e.job.accepts (e.responseId frame) = true ↔ e.Mistakes entry frame := by
  have hid : e.responseId frame = entry.protocol.isoTpSender frame := by
    rw [responseId, (hr.asks he).protocol]
  have hsender : entry.protocol.isoTpSender frame = entry.rx ↔ entry.Resembles frame :=
    PollEntry.isoTpSender_eq_iff.trans (or_iff_right hf)
  have hrange := (hr.addresses he hp).range
  rw [PollEntry.responders, if_pos hrx] at hrange
  have haccepts {id : UInt32} (heq : (e.job.low, e.job.high) = (id, id)) :
      e.job.accepts (e.responseId frame) = true ↔ entry.protocol.isoTpSender frame = id := by
    rw [hid]
    exact PollJob.accepts_iff heq
  constructor
  · intro ha
    rcases hrange with h | h
    · exact .resembles h (hsender.1 ((haccepts h).1 ha))
    · exact .nobody h ((haccepts h).1 ha)
  · rintro (⟨h, hf⟩ | ⟨h, hf⟩)
    · exact (haccepts h).2 (hsender.2 hf)
    · exact (haccepts h).2 hf

/-- A poll over ISO-TP is in flight that asks one module, and no channel is open. A frame without the identifier of
that module affects it only if the engine takes the sender for the module and the frame has something to say. -/
theorem stranger_unaffected_iff (hr : e.Reached) (he : e.job.entry = some entry) (hp : entry.protocol ≠ .vwtp20)
    (hrx : entry.rx ≠ 0) (hw : 0 < e.wait) (hclosed : e.channel.state = .closed) (hb : frame.bus = e.bus)
    (hf : ¬ entry.Identifies frame) :
    Unaffected e (e.step (.frame frame)) ↔ ¬ (e.Mistakes entry frame ∧
      ∃ segment, Segment.ofBytes? (entry.protocol.isoTpData frame) = some segment ∧ e.Heeds segment) := by
  have hrest := hr.atRest
  have hprotocol := (hr.asks he).protocol
  have hj : e.job.isVwtp = false := by
    rw [PollJob.isVwtp, hprotocol, beq_eq_false_iff_ne]
    exact hp
  have hc : e.isChannelFrame frame = false := by simp [isChannelFrame, Channel.isOpen, hclosed]
  have hother : e.receiveOther frame = if e.job.accepts (e.responseId frame) = true then
      e.receiveIsoTp frame (e.responseId frame) else e := by
    unfold receiveOther
    simp [hj, he, hw]
  have haccepts := accepts_iff_mistakes hr he hp hrx hf
  rw [step_frame_other hb hc, hother, ← hprotocol]
  by_cases hm : e.Mistakes entry frame
  · rw [if_pos (haccepts.2 hm)]
    by_cases hh : ∃ segment, Segment.ofBytes? (e.job.protocol.isoTpData frame) = some segment ∧ e.Heeds segment
    · obtain ⟨segment, hs, hh⟩ := hh
      exact iff_of_false (not_unaffected_receiveIsoTp hrest hj hs hh _) fun hno => hno ⟨hm, segment, hs, hh⟩
    · have hsame : e.receiveIsoTp frame (e.responseId frame) = e :=
        receiveIsoTp_unheeded hr.curbed.wait_le (fun segment hs hheed => hh ⟨segment, hs, hheed⟩) _
      rw [hsame, settle_atRest hrest]
      exact iff_of_true ⟨rfl, rfl, rfl, rfl⟩ fun h => hh h.2
  · rw [if_neg (mt haccepts.1 hm), settle_atRest hrest]
    exact iff_of_true ⟨rfl, rfl, rfl, rfl⟩ fun h => hm h.1

/-- Another module answers the poll, with the identifier next to that of the module that is asked. -/
theorem stranger_unaffected_iff_example :
    let bus : BusId := ⟨1, by decide⟩
    let entry : PollEntry := ⟨0x7e0, 0x7e8, 0x22, 0xf190, [], #v[1, 1, 1, 1], 1, .isoTp⟩
    let e := (Engine.new bus "ecu" false ⟨0, 25, .strict, 0, 0⟩).run [.setList (some [entry]) none, .tick true]
    let frame := EcuFrame.single bus 0x7e9 [0x62, 0xf1, 0x90, 7]
    (e.Reached ∧ e.job.entry = some entry ∧ 0 < e.wait ∧ e.channel.state = .closed ∧ ¬ entry.Identifies frame) ∧
      Unaffected e (e.step (.frame frame)) := by
  intro bus entry e frame
  have hr : e.Reached := ⟨bus, "ecu", false, _, _, rfl⟩
  have he : e.job.entry = some entry := by decide
  have hf : ¬ entry.Identifies frame := by decide
  have hno : ¬ e.Mistakes entry frame := by
    rintro (⟨-, hf⟩ | ⟨-, hf⟩)
    · exact absurd hf.2 (by decide)
    · exact absurd hf (by decide)
  exact ⟨⟨hr, he, by decide, by decide, hf⟩,
    (stranger_unaffected_iff hr he (by decide) (by decide) (by decide) (by decide) (by decide) hf).2 fun h => hno h.1⟩

/-- A frame with the 29 bit identifier 7E8 answers a poll that expects the 11 bit identifier 7E8. -/
theorem not_unaffected_example :
    let bus : BusId := ⟨1, by decide⟩
    let entry : PollEntry := ⟨0x7e0, 0x7e8, 0x22, 0xf190, [], #v[1, 1, 1, 1], 1, .isoTp⟩
    let e := (Engine.new bus "ecu" false ⟨0, 25, .strict, 0, 0⟩).run [.setList (some [entry]) none, .tick true]
    let frame := Frame.padded bus 0x7e8 true [0x04, 0x62, 0xf1, 0x90, 7]
    (e.job.entry = some entry ∧ 0 < e.wait ∧ e.channel.state = .closed ∧ ¬ entry.Identifies frame) ∧
      ¬ Unaffected e (e.step (.frame frame)) := by
  intro bus entry e frame
  exact ⟨by decide, fun hu => absurd hu.wait (by decide)⟩

end Engine

end EcuPoll
