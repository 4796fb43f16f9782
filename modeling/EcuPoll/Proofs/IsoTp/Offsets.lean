import EcuPoll.Proofs.Engine.Parts
import EcuPoll.Proofs.Engine.Standing

/-!
# The place of a chunk

A reply says where its payload lies: the offset counts what has been handed on before. But a response that begins anew
does not set it back, so that it counts from the start of the poll (`offset_run`). The replies of a response are
located in that response exactly if what was handed on before it began makes no difference (`located_iff`).
-/

namespace EcuPoll

namespace Segment
variable {bytes data : List UInt8}

theorem length_single (h : ofBytes? bytes = some (.single data)) : data.length ≤ isoTpMax := by
  cases bytes with
  | nil => cases h
  | cons pci rest =>
    dsimp only [ofBytes?] at h
    split at h
    · cases h
      have hlow := (pci &&& 0x0f).toNat_lt
      rw [List.length_take, isoTpMax]
      omega
    · split at h <;> cases h
    all_goals cases h

theorem length_first {total : UInt16} (h : ofBytes? bytes = some (.first total data)) :
    data.length ≤ total.toNat := by
  unfold ofBytes? at h
  split at h
  · cases h
  · dsimp only at h
    split at h
    · cases h
    · split at h
      · cases h
      · cases h
        rw [List.length_take]
        exact Nat.min_le_left ..
    all_goals cases h

end Segment

namespace Engine
variable {e e' d : Engine} {frame : Frame} {op : Operation} {ops : List Operation} {rs : List Reply}
  {offset remain : UInt16}

/-- A poll of the list is in flight, over ISO-TP. -/
structure Polls (e : Engine) : Prop where
  periodic : e.single = none
  isoTp : e.job.isVwtp = false
  entry_isSome : e.job.entry.isSome = true

theorem Polls.of_asked (h : e.Polls) (hs : e'.single = none) (ha : e'.job.asked = e.job.asked) : e'.Polls where
  periodic := hs
  isoTp := (isVwtp_of_asked ha).trans h.isoTp
  entry_isSome := (congrArg (·.1.isSome) ha).trans h.entry_isSome

/-- The poll stays in flight: before every operation more is awaited, and no other poll has begun. Nothing comes in on
the channel. -/
def Lasts (e : Engine) (ops : List Operation) : Prop :=
  ∀ before op after, ops = before ++ op :: after →
    0 < (e.run before).wait ∧ ¬ Shows (·.beginsPoll = true) e (e.run before) ∧
      ∀ frame, op = .frame frame → (e.run before).isChannelFrame frame = false

/-- A response begins with this frame, and what the frame holds of its payload is handed on. -/
def BeginsResponse (e : Engine) (frame : Frame) : Prop :=
  ∃ total segment payload, e.Opens frame total segment ∧ e.judge segment = .answer payload

/-- No response begins with a consecutive frame. -/
theorem not_beginsResponse_of_read {index : UInt8} {data : List UInt8}
    (hs : Segment.ofBytes? (e.job.protocol.isoTpData frame) = some (.consecutive index data))
    (hc : e.isChannelFrame frame = false) : ¬ e.BeginsResponse frame := by
  rintro ⟨_, _, _, ho, -⟩
  cases ho with
  | single hf => cases hs.symm.trans hf.read
  | first hf => cases hs.symm.trans hf.read
  | data hf => cases hc.symm.trans hf.onChannel

/-! ### One operation -/

/-- The poll is still in flight, and its response stands here. -/
structure GoesOnAt (offset remain : UInt16) (e : Engine) : Prop where
  polls : e.Polls
  offset_eq : e.job.mlOffset = offset
  remain_eq : e.job.mlRemain = remain

/-- Nothing is awaited any more, or the response stands here. -/
def RestsAt (offset remain : UInt16) (e : Engine) : Prop := e.wait = 0 ∨ GoesOnAt offset remain e

/-- What an operation makes of the response. -/
inductive Hears (e : Engine) : Operation → List Reply → UInt16 → UInt16 → Prop
  | part {frame : Frame} {left : Nat} {r : Reply} (ht : e.Takes frame r.data left)
    (ho : r.job.mlOffset = e.job.mlOffset) (hr : r.remain.toNat = left) :
    Hears e (.frame frame) [r] (e.job.mlOffset + UInt16.ofNat r.data.length) r.remain
  | nothing {op : Operation} (hno : ∀ frame payload left, op = .frame frame → ¬ e.Takes frame payload left) :
    Hears e op [] e.job.mlOffset e.job.mlRemain

/-- The response goes on. -/
theorem handsOut_going (hr : repliesSince e d = rs) (hg : e.log <:+ d.log) (hp : d.Polls) (hb : Bides d e') :
    HandsOut e e' rs (RestsAt d.job.mlOffset d.job.mlRemain) :=
  .of_bides hr hg hb fun hs => by
    have hstanding := (hs.standing (.inl ((isVwtp_of_asked hs.asked).trans hp.isoTp))).2
    obtain ⟨-, hrest⟩ := Prod.mk.inj hstanding
    obtain ⟨-, hrest⟩ := Prod.mk.inj hrest
    obtain ⟨hoffset, hremain⟩ := Prod.mk.inj hrest
    exact .inr ⟨hp.of_asked hs.single hs.asked, hoffset, hremain⟩

theorem handsOut_bides (hp : e.Polls) (hb : Bides e e') :
    HandsOut e e' [] (RestsAt e.job.mlOffset e.job.mlRemain) :=
  handsOut_going (repliesSince_self e) (List.suffix_refl _) hp hb

/-- The response is over, and the next poll may follow. -/
theorem handsOut_ended (hr : repliesSince e d = rs) (hg : e.log <:+ d.log) (hs : d.single = none) (ht : Turns d e')
    (hh : Hushes d e') : HandsOut e e' rs (RestsAt offset remain) := by
  have hb : Bides d e' := .turns hs ht
  cases hh with
  | still _ hw _ => exact .of_bides hr hg hb fun _ => .inl hw
  | renews h =>
    have hover : HandsOut e e' rs fun _ => True := .of_bides hr hg hb fun _ => trivial
    exact ⟨hover.replies, hover.grows, .inl (.of_grows hg h.shows)⟩

/-- Nothing more of the response is to come. -/
theorem handsOut_complete (hr : repliesSince e d = rs) (hg : e.log <:+ d.log) (hs : d.single = none)
    (h0 : d.job.mlRemain = 0) (id : UInt32) (first : Bool) (length : Nat) :
    HandsOut e (d.afterSegment id first length).settle rs (RestsAt offset remain) := by
  unfold afterSegment
  rw [if_pos h0]
  dsimp only
  split
  · exact handsOut_ended (d := { d with wait := 0 }) hr hg hs (Turns.refl _).settle (.settle hs rfl)
  · exact handsOut_ended (d := { d with wait := 0 }) hr hg hs ((Turns.refl _).pollNext rfl).settle
      (.pollNext_settle hs rfl)

/-- More of the response is awaited, or it is complete. -/
theorem handsOut_afterSegment (hr : repliesSince e d = rs) (hg : e.log <:+ d.log) (hp : d.Polls) (id : UInt32)
    (first : Bool) (length : Nat) : HandsOut e (d.afterSegment id first length).settle rs
      (RestsAt (d.job.mlOffset + UInt16.ofNat length) d.job.mlRemain) := by
  by_cases h0 : d.job.mlRemain = 0
  · exact handsOut_complete hr hg hp.periodic h0 id first length
  · unfold afterSegment
    rw [if_neg h0]
    have hallow : Adds (·.isReply = false) d (if first then d.sendFlowControl id else d) ∧
        (if first then d.sendFlowControl id else d).job = d.job ∧
        (if first then d.sendFlowControl id else d).single = d.single := by
      split
      · rw [sendFlowControl, transmit_eq]
        exact ⟨⟨[_], rfl, List.forall_mem_singleton.2 rfl⟩, rfl, rfl⟩
      · exact ⟨.refl d, rfl, rfl⟩
    dsimp only
    generalize (if first then d.sendFlowControl id else d) = e₂ at hallow ⊢
    obtain ⟨hlog, hjob, hsingle⟩ := hallow
    have hr₂ : repliesSince e e₂ = rs := by
      rw [repliesSince_trans hg hlog.suffix, hr, repliesSince_of_adds hlog, List.append_nil]
    have hp₂ := hp.of_asked (hsingle.trans hp.periodic) (by rw [hjob])
    rw [← hjob]
    exact handsOut_going (d := { e₂ with
      job := { e₂.job with
        mlFrame := if first then 1 else e₂.job.mlFrame + 1
        mlOffset := e₂.job.mlOffset + UInt16.ofNat length }
      wait := 2 }) hr₂ (hg.trans hlog.suffix) (hp₂.of_asked hp₂.periodic rfl)
      (Bides.refl (by exact hp₂.periodic)).settle

theorem handsOut_deliver (hp : e.Polls) (id : UInt32) (payload : List UInt8) (remain : UInt16) (first : Bool) :
    HandsOut e ((e.deliverSegment id payload remain).afterSegment id first payload.length).settle
      [⟨{ e.job with received := id, mlRemain := remain }, payload, remain⟩]
      (RestsAt (e.job.mlOffset + UInt16.ofNat payload.length) remain) := by
  rw [deliverSegment_none hp.periodic _ _ _ rfl]
  refine handsOut_afterSegment ?_ ?_ ?_ ..
  · exact repliesSince_of_log (show _ = [⟨e.now, .reply _ payload remain⟩] ++ e.log from rfl)
  · exact List.suffix_cons ..
  · exact hp.of_asked hp.periodic rfl

/-- The module turns the poll down. -/
theorem handsOut_refused (hl : d.log = e.log) (hs : d.single = none) (h0 : d.job.mlRemain = 0) (failure : PollFailure)
    (id : UInt32) (first : Bool) :
    HandsOut e ((d.deliverFailure failure).afterSegment id first 0).settle [] (RestsAt offset remain) := by
  have hlog : Adds (·.isReply = false) e (d.emit (.failed d.job failure)) :=
    Adds.emit (.of_log hl) rfl
  rw [deliverFailure_none hs]
  exact handsOut_complete (repliesSince_of_adds hlog) hlog.suffix hs h0 ..

/-- What is handed out and kept of the response is what the operation brings of it. -/
def Conveys (e : Engine) (op : Operation) (e' : Engine) : Prop :=
  ∃ rs offset remain, e.Hears op rs offset remain ∧ HandsOut e e' rs (RestsAt offset remain)

/-- A frame with no part of the response leaves it where it stands. -/
theorem conveys_nothing (hp : e.Polls) {e₁ : Engine} (hno : ∀ payload left, ¬ e.Takes frame payload left)
    (hb : Bides e e₁) : Conveys e (.frame frame) e₁.settle := by
  refine ⟨_, _, _, .nothing fun frame' payload left heq => ?_, handsOut_bides hp hb.settle⟩
  cases heq
  exact hno payload left

theorem bides_standing (hp : e.Polls) {e₁ : Engine} (hj : e₁.job.standing = e.job.standing)
    (hs : e₁.single = e.single) (hq : Quiet e e₁) : Bides e e₁ :=
  .of_stands hq ⟨hs.trans hp.periodic, congrArg (·.1) hj, fun _ => ⟨.inl hp.isoTp, hj⟩⟩

/-- A part of the response is in the segment that the frame holds. -/
theorem Takes.segment {payload : List UInt8} {left : Nat} (ht : e.Takes frame payload left)
    (hc : e.isChannelFrame frame = false) {segment : Segment}
    (hs : Segment.ofBytes? (e.job.protocol.isoTpData frame) = some segment) : e.TakesSegment segment := by
  obtain ⟨segment', hf, htake⟩ := ht.aside hc
  obtain rfl : segment = segment' := Option.some.inj (hs.symm.trans hf.read)
  exact htake

theorem receiveOpening_conveys (hp : e.Polls) {total : UInt16} {data : List UInt8} (first : Bool)
    (ho : e.Opens frame total.toNat data)
    (hanswer : ∀ payload left, e.Takes frame payload left → ∃ payload, e.judge data = .answer payload) :
    Conveys e (.frame frame) (e.receiveOpening (e.responseId frame) total data first).settle := by
  have hno (hj : ∀ payload, e.judge data ≠ .answer payload) (payload : List UInt8) (left : Nat) :
      ¬ e.Takes frame payload left := fun ht =>
    let ⟨payload, ha⟩ := hanswer _ _ ht
    hj payload ha
  unfold receiveOpening
  cases hj : e.judge data with
  | foreign => exact conveys_nothing hp (hno (by rw [hj]; nofun)) (.refl hp.periodic)
  | refused code =>
    have hno := hno (by rw [hj]; nofun)
    dsimp only
    by_cases hpending : code.isPending = true
    · rw [if_pos hpending]
      exact conveys_nothing hp hno (bides_standing hp rfl rfl (.of_log rfl))
    · rw [if_neg hpending]
      refine ⟨_, e.job.mlOffset, e.job.mlRemain, .nothing fun frame' payload left heq => ?_, ?_⟩
      · cases heq
        exact hno payload left
      · refine handsOut_refused ?_ ?_ ?_ ..
        · rfl
        · exact hp.periodic
        · rfl
  | answer payload =>
    exact ⟨_, _, _, .part (.opening ho hj) rfl (toNat_lessLength total data), handsOut_deliver hp ..⟩

theorem receiveConsecutive_conveys (hp : e.Polls) (hc : e.isChannelFrame frame = false) {index : UInt8}
    {data : List UInt8} (hf : e.HasSegment frame (.consecutive index data)) :
    Conveys e (.frame frame) (e.receiveConsecutive (e.responseId frame) index data).settle := by
  unfold receiveConsecutive
  by_cases hn : (!e.isNumberOk index) = true
  · rw [if_pos hn]
    refine conveys_nothing hp (fun payload left ht => ?_) (bides_standing hp rfl rfl (.of_log rfl))
    rw [show e.isNumberOk index = true from ht.segment hc hf.read] at hn
    cases hn
  · rw [if_neg hn]
    exact ⟨_, _, _, .part (.more (.consecutive hf (by simpa using hn))) rfl (toNat_lessLength ..),
      handsOut_deliver hp ..⟩

theorem receiveIsoTp_conveys (hp : e.Polls) (hc : e.isChannelFrame frame = false)
    (hseg : ∀ segment, Segment.ofBytes? (e.job.protocol.isoTpData frame) = some segment →
      e.HasSegment frame segment) :
    Conveys e (.frame frame) (e.receiveIsoTp frame (e.responseId frame)).settle := by
  unfold receiveIsoTp
  cases hs : Segment.ofBytes? (e.job.protocol.isoTpData frame) with
  | none =>
    refine conveys_nothing hp (fun payload left ht => ?_) (.refl hp.periodic)
    obtain ⟨_, hf, -⟩ := ht.aside hc
    cases hs.symm.trans hf.read
  | some segment =>
    cases segment with
    | flow command blockSize septime =>
      have hwork := (Works.refl e).isoTpFlow (e.responseId frame) command blockSize septime
      exact conveys_nothing hp (fun _ _ ht => ht.segment hc hs)
        (bides_standing hp (by rw [job_isoTpFlow]) hwork.single (Quiet.works (.refl e) hwork))
    | single data =>
      refine receiveOpening_conveys hp false ?_ fun _ _ ht => ht.segment hc hs
      rw [toNat_ofNat_of_le (Segment.length_single hs)]
      exact .single (hseg _ hs)
    | first total data => exact receiveOpening_conveys hp true (.first (hseg _ hs)) fun _ _ ht => ht.segment hc hs
    | consecutive index data => exact receiveConsecutive_conveys hp hc (hseg _ hs)

/-- A frame brings a part of the response, or it leaves the response where it stands. -/
theorem step_frame_conveys (hp : e.Polls) (hb : frame.bus = e.bus) (hc : e.isChannelFrame frame = false) :
    Conveys e (.frame frame) (e.step (.frame frame)) := by
  rw [step_frame_other hb hc]
  unfold receiveOther
  by_cases hcond : (!e.job.isVwtp && 0 < e.wait && e.job.entry.isSome && e.job.accepts (e.responseId frame)) = true
  · rw [if_pos hcond]
    simp only [Bool.and_eq_true, Bool.not_eq_true', decide_eq_true_eq] at hcond
    obtain ⟨⟨⟨-, hw⟩, -⟩, hacc⟩ := hcond
    exact receiveIsoTp_conveys hp hc fun _ hs => ⟨hb, hc, hp.isoTp, hw, hacc, hs⟩
  · rw [if_neg hcond]
    refine conveys_nothing hp (fun payload left ht => hcond ?_) (.refl hp.periodic)
    obtain ⟨_, hf, -⟩ := ht.aside hc
    simp [hf.isoTp, hf.wait_pos, hf.accepted, hp.entry_isSome]

theorem step_conveys (hp : e.Polls) (hc : ∀ frame, op = .frame frame → e.isChannelFrame frame = false) :
    Conveys e op (e.step op) := by
  cases op with
  | frame frame =>
    by_cases hb : frame.bus = e.bus
    · exact step_frame_conveys hp hb (hc frame rfl)
    · refine ⟨_, _, _, .nothing fun frame' payload left heq ht => ?_, handsOut_bides hp ?_⟩
      · cases heq
        exact hb ht.bus_eq
      · rw [show e.step (.frame frame) = e from if_pos hb]
        exact .refl hp.periodic
  | _ => exact ⟨_, _, _, .nothing nofun, handsOut_bides hp (.step hp.periodic nofun)⟩

/-- A frame that is taken leaves less than 65536 bytes of the response, with those that it brings. -/
theorem Takes.length_lt {payload : List UInt8} {left : Nat} (ht : e.Takes frame payload left)
    (hc : e.isChannelFrame frame = false) : payload.length + left < 65536 := by
  have hno {P : Prop} (hf : e.HasData frame) : P := by
    have := hf.onChannel
    rw [hc] at this
    cases this
  cases ht with
  | @opening total segment payload ho hj =>
    have hpayload : payload.length ≤ segment.length := by
      rw [eq_of_judge_answer hj, List.length_append]
      exact Nat.le_add_left ..
    cases ho with
    | single hf =>
      have := Segment.length_single hf.read
      rw [isoTpMax] at this
      omega
    | @first total segment hf =>
      have := Segment.length_first hf.read
      have := total.toNat_lt
      omega
    | data hf => exact hno hf
  | more hg =>
    have := e.job.mlRemain.toNat_lt
    cases hg with
    | consecutive hf hn =>
      rw [List.length_take]
      omega
    | data hf => exact hno hf

theorem GoesOn.length_le {payload : List UInt8} (hg : e.GoesOn frame payload) (hc : e.isChannelFrame frame = false) :
    payload.length ≤ e.job.mlRemain.toNat := by
  cases hg with
  | consecutive =>
    rw [List.length_take]
    exact Nat.min_le_left ..
  | data hf =>
    have := hf.onChannel
    rw [hc] at this
    cases this

/-! ### In a run -/

theorem Lasts.tail (h : e.Lasts (op :: ops)) : (e.step op).Lasts ops := by
  intro before op' after heq
  obtain ⟨hw, hb, hc⟩ := h (op :: before) op' after (by rw [heq]; rfl)
  exact ⟨hw, fun hsh => hb (.of_grows (Grows.step e op).log hsh), hc⟩

theorem Lasts.drop {before : List Operation} (h : e.Lasts (before ++ ops)) : (e.run before).Lasts ops := by
  induction before generalizing e with
  | nil => exact h
  | cons op before ih => exact ih (e := e.step op) (tail h)

/-- The first operation of a run hands on its part, and if there are more operations, the response goes on. -/
theorem Lasts.step (hl : e.Lasts (op :: ops)) (hp : e.Polls) : ∃ rs offset remain, e.Hears op rs offset remain ∧
    HandsOut e (e.step op) rs (RestsAt offset remain) ∧ (ops = [] ∨ GoesOnAt offset remain (e.step op)) := by
  obtain ⟨rs, offset, remain, hh, ho⟩ := step_conveys hp (hl [] op ops rfl).2.2
  refine ⟨rs, offset, remain, hh, ho, ?_⟩
  cases ops with
  | nil => exact .inl rfl
  | cons op' ops =>
    obtain ⟨hw, hb, -⟩ := hl [op] op' ops rfl
    rcases ho.next with hsh | h0 | hgo
    · exact absurd hsh hb
    · have hw : 0 < (e.step op).wait := hw
      omega
    · exact .inr hgo

/-- The offset of a reply counts what has been handed on before, from the beginning of the run. -/
theorem offset_run (hp : e.Polls) (hl : e.Lasts ops) {earlier later : List Reply} {r : Reply}
    (heq : repliesSince e (e.run ops) = earlier ++ r :: later) :
    r.job.mlOffset = e.job.mlOffset + UInt16.ofNat (payloadBytes earlier) := by
  induction ops generalizing e earlier with
  | nil =>
    rw [show e.run [] = e from rfl, repliesSince_self] at heq
    cases earlier <;> cases heq
  | cons op ops ih =>
    obtain ⟨rs, offset, remain, hh, ho, hrest⟩ := hl.step hp
    have hlater {earlier' : List Reply}
        (heq : repliesSince (e.step op) ((e.step op).run ops) = earlier' ++ r :: later) :
        r.job.mlOffset = offset + UInt16.ofNat (payloadBytes earlier') := by
      rcases hrest with rfl | hgo
      · rw [show (e.step op).run [] = e.step op from rfl, repliesSince_self] at heq
        cases earlier' <;> cases heq
      · rw [← hgo.offset_eq]
        exact ih hgo.polls hl.tail heq
    rw [ho.run_cons] at heq
    cases hh with
    | nothing => exact hlater heq
    | @part frame left r₀ ht hoffset =>
      rw [List.singleton_append] at heq
      cases earlier with
      | nil =>
        obtain ⟨rfl, -⟩ := List.cons.inj heq
        rw [hoffset]
        simp [payloadBytes]
      | cons r' earlier =>
        obtain ⟨rfl, htail⟩ := List.cons.inj heq
        rw [hlater htail, UInt16.add_assoc, ← UInt16.ofNat_add, payloadBytes_cons]

/-- While the poll is in flight, its offset counts what has been handed on. -/
theorem goesOn_run (hp : e.Polls) {before after : List Operation} (hl : e.Lasts (before ++ op :: after)) :
    ∃ remain, GoesOnAt (e.job.mlOffset + UInt16.ofNat (payloadBytes (repliesSince e (e.run before)))) remain
      (e.run before) := by
  induction before generalizing e with
  | nil =>
    rw [show e.run [] = e from rfl, repliesSince_self]
    exact ⟨_, hp, by simp [payloadBytes], rfl⟩
  | cons op' before ih =>
    obtain ⟨rs, offset, remain, hh, ho, hrest⟩ := hl.step hp
    have hgo := hrest.resolve_left (by simp)
    obtain ⟨remain', hgo'⟩ := ih hgo.polls hl.tail
    have hoffset : offset = e.job.mlOffset + UInt16.ofNat (payloadBytes rs) := by
      cases hh with
      | nothing => simp [payloadBytes]
      | part => simp [payloadBytes]
    refine ⟨remain', ?_⟩
    rw [ho.run_cons, payloadBytes_append, UInt16.ofNat_add, ← UInt16.add_assoc, ← hoffset, ← hgo.offset_eq]
    exact hgo'

/-- Of a response that does not begin anew no more is handed on than is to come. -/
theorem payloadBytes_run_le (hp : e.Polls) (hl : e.Lasts ops)
    (hno : ∀ before frame after, ops = before ++ .frame frame :: after → ¬ (e.run before).BeginsResponse frame) :
    payloadBytes (repliesSince e (e.run ops)) ≤ e.job.mlRemain.toNat := by
  induction ops generalizing e with
  | nil =>
    rw [show e.run [] = e from rfl, repliesSince_self]
    exact Nat.zero_le _
  | cons op ops ih =>
    obtain ⟨rs, offset, remain, hh, ho, hrest⟩ := hl.step hp
    have hlater : payloadBytes (repliesSince (e.step op) ((e.step op).run ops)) ≤ remain.toNat := by
      rcases hrest with rfl | hgo
      · rw [show (e.step op).run [] = e.step op from rfl, repliesSince_self]
        exact Nat.zero_le _
      · rw [← hgo.remain_eq]
        exact ih hgo.polls hl.tail fun before frame after heq =>
          hno (op :: before) frame after (by rw [heq]; rfl)
    rw [ho.run_cons, payloadBytes_append]
    cases hh with
    | nothing => exact (Nat.zero_add _).trans_le hlater
    | @part frame left r ht _ hr =>
      generalize hd : r.data = payload at ht
      cases ht with
      | opening hopen hj => exact absurd ⟨_, _, _, hopen, hj⟩ (hno [] frame ops rfl)
      | more hg =>
        have := hg.length_le ((hl [] _ ops rfl).2.2 frame rfl)
        rw [payloadBytes_singleton, hd]
        omega

/-- A response begins with a reply, and less than 65536 bytes of it are handed on until another one begins. -/
theorem response_run (hp : e.Polls) {opening : Frame} (hl : e.Lasts (.frame opening :: ops))
    (ho : e.BeginsResponse opening)
    (hno : ∀ before frame after, ops = before ++ .frame frame :: after →
      ¬ (e.run (.frame opening :: before)).BeginsResponse frame) :
    ∃ r later, repliesSince e (e.run (.frame opening :: ops)) = r :: later ∧ payloadBytes (r :: later) < 65536 := by
  obtain ⟨rs, offset, remain, hh, hhands, hrest⟩ := hl.step hp
  obtain ⟨total, segment, payload, hopen, hj⟩ := ho
  cases hh with
  | nothing hnone => exact absurd (.opening hopen hj) (hnone opening _ _ rfl)
  | @part frame left r ht _ hleft =>
    refine ⟨r, repliesSince (e.step (.frame opening)) ((e.step (.frame opening)).run ops), hhands.run_cons ops, ?_⟩
    have hlt := ht.length_lt ((hl [] _ ops rfl).2.2 opening rfl)
    have hlater : payloadBytes (repliesSince (e.step (.frame opening)) ((e.step (.frame opening)).run ops)) ≤
        r.remain.toNat := by
      rcases hrest with rfl | hgo
      · rw [show (e.step (.frame opening)).run [] = e.step (.frame opening) from rfl, repliesSince_self]
        exact Nat.zero_le _
      · rw [← hgo.remain_eq]
        exact payloadBytes_run_le hgo.polls hl.tail hno
    rw [payloadBytes_cons]
    omega

/-- The replies of a response, which begins with `opening`, are located in it: each says how many bytes of it were
handed on before. This holds just if what the poll has handed on before that response is nothing, or a multiple of
65536 bytes. -/
theorem located_iff (hp : e.Polls) (h0 : e.job.mlOffset = 0) {before rest : List Operation} {opening : Frame}
    (hl : e.Lasts (before ++ .frame opening :: rest)) (ho : (e.run before).BeginsResponse opening)
    (hno : ∀ mid frame after, rest = mid ++ .frame frame :: after →
      ¬ (e.run (before ++ .frame opening :: mid)).BeginsResponse frame) :
    (∀ earlier r later,
      repliesSince (e.run before) (e.run (before ++ .frame opening :: rest)) = earlier ++ r :: later →
        r.job.mlOffset.toNat = payloadBytes earlier) ↔
      65536 ∣ payloadBytes (repliesSince e (e.run before)) := by
  obtain ⟨_, hgo⟩ := goesOn_run hp hl
  have hoffset : (e.run before).job.mlOffset = UInt16.ofNat (payloadBytes (repliesSince e (e.run before))) := by
    rw [hgo.offset_eq, h0, UInt16.zero_add]
  obtain ⟨r₀, rest₀, hreplies, hlt⟩ := response_run hgo.polls hl.drop ho fun mid frame after heq => by
    have hno := hno mid frame after heq
    rwa [run_append] at hno
  rw [run_append]
  have hat {earlier later : List Reply} {r : Reply} (heq : repliesSince (e.run before)
      ((e.run before).run (.frame opening :: rest)) = earlier ++ r :: later) :
      r.job.mlOffset = UInt16.ofNat (payloadBytes (repliesSince e (e.run before)) + payloadBytes earlier) := by
    rw [offset_run hgo.polls hl.drop heq, hoffset, UInt16.ofNat_add]
  constructor
  · intro hlocated
    have hfirst : r₀.job.mlOffset.toNat = 0 := hlocated [] r₀ rest₀ hreplies
    rw [hat (show _ = [] ++ r₀ :: rest₀ from hreplies), UInt16.toNat_ofNat'] at hfirst
    exact Nat.dvd_of_mod_eq_zero hfirst
  · intro hdvd earlier r later heq
    have hearlier : payloadBytes earlier ≤ payloadBytes (r₀ :: rest₀) := by
      rw [← hreplies, heq, payloadBytes_append]
      exact Nat.le_add_right ..
    obtain ⟨k, hk⟩ := hdvd
    rw [hat heq, UInt16.toNat_ofNat', hk, Nat.mul_add_mod, Nat.mod_eq_of_lt (by omega)]

/-- The module asks for patience before it answers in two frames. -/
theorem located_iff_example :
    let bus : BusId := ⟨1, by decide⟩
    let entry : PollEntry := ⟨0x7e0, 0x7e8, 0x22, 0xf190, [], #v[1, 0, 0, 0], 1, .isoTp⟩
    let e := (Engine.new bus "ecu" false ⟨0, 25, .strict, 0, 0⟩).run [.setList (some [entry]) none, .tick true]
    let patience := EcuFrame.single bus 0x7e8 [0x7f, 0x22, 0x78]
    let first := EcuFrame.first bus 0x7e8 9 [0x62, 0xf1, 0x90, 1, 2, 3]
    let last := EcuFrame.consecutive bus 0x7e8 1 [4, 5, 6]
    (e.Polls ∧ e.job.mlOffset = 0 ∧ e.Lasts [.frame patience, .frame first, .frame last] ∧
        (e.run [.frame patience]).BeginsResponse first) ∧
      ∀ earlier r later, repliesSince (e.run [.frame patience])
        (e.run [.frame patience, .frame first, .frame last]) = earlier ++ r :: later →
          r.job.mlOffset.toNat = payloadBytes earlier := by
  intro bus entry e patience first last
  have hp : e.Polls := ⟨by decide, by decide, by decide⟩
  have hl : e.Lasts [.frame patience, .frame first, .frame last] := by
    refine forall_splits_cons.2 ⟨⟨by decide, fun h => absurd h.exists_mem_take (by decide), ?_⟩,
      forall_splits_cons.2 ⟨⟨by decide, fun h => absurd h.exists_mem_take (by decide), ?_⟩,
        forall_splits_cons.2 ⟨⟨by decide, fun h => absurd h.exists_mem_take (by decide), ?_⟩, by simp⟩⟩⟩
    all_goals
      rintro frame ⟨⟩
      decide
  have hfirst : (e.run [.frame patience]).HasSegment first (.first 9 [0x62, 0xf1, 0x90, 1, 2, 3]) :=
    ⟨by decide, by decide, by decide, by decide, by decide, by decide⟩
  have ho : (e.run [.frame patience]).BeginsResponse first := ⟨_, _, [1, 2, 3], .first hfirst, by decide⟩
  have hno : ∀ mid frame after, [Operation.frame last] = mid ++ .frame frame :: after →
      ¬ (e.run ([.frame patience] ++ .frame first :: mid)).BeginsResponse frame := by
    intro mid frame after heq
    cases mid with
    | cons op mid => simp at heq
    | nil =>
      cases heq
      exact not_beginsResponse_of_read
        (show _ = some (Segment.consecutive 1 [4, 5, 6, 0x55, 0x55, 0x55, 0x55]) by decide) (by decide)
  have h0 : e.job.mlOffset = 0 := by decide
  have hdvd : 65536 ∣ payloadBytes (repliesSince e (e.run [.frame patience])) := by decide
  exact ⟨⟨hp, h0, hl, ho⟩, (located_iff hp h0 hl ho hno).2 hdvd⟩

/-- The first frame comes twice. The reply to the second one is the first of its response, but says that three bytes
came before. -/
theorem not_located_example :
    let bus : BusId := ⟨1, by decide⟩
    let entry : PollEntry := ⟨0x7e0, 0x7e8, 0x22, 0xf190, [], #v[1, 1, 1, 1], 1, .isoTp⟩
    let e := (Engine.new bus "ecu" false ⟨0, 25, .strict, 0, 0⟩).run [.setList (some [entry]) none, .tick true]
    let first := EcuFrame.first bus 0x7e8 20 [0x62, 0xf1, 0x90, 1, 2, 3]
    let e₁ := e.run [.frame first]
    (e.Polls ∧ e.job.mlOffset = 0 ∧ e.Lasts [.frame first, .frame first] ∧ e₁.BeginsResponse first) ∧
      ¬ ∀ earlier r later, repliesSince e₁ (e₁.run [.frame first]) = earlier ++ r :: later →
        r.job.mlOffset.toNat = payloadBytes earlier := by
  intro bus entry e first e₁
  have hl : e.Lasts [.frame first, .frame first] := by
    refine forall_splits_cons.2 ⟨⟨by decide, fun h => absurd h.exists_mem_take (by decide), ?_⟩,
      forall_splits_cons.2 ⟨⟨by decide, fun h => absurd h.exists_mem_take (by decide), ?_⟩, by simp⟩⟩
    all_goals
      rintro frame ⟨⟩
      decide
  have hfirst : e₁.HasSegment first (.first 20 [0x62, 0xf1, 0x90, 1, 2, 3]) :=
    ⟨by decide, by decide, by decide, by decide, by decide, by decide⟩
  refine ⟨⟨⟨by decide, by decide, by decide⟩, by decide, hl, _, _, [1, 2, 3], .first hfirst, by decide⟩, ?_⟩
  intro hlocated
  have hone : repliesSince e₁ (e₁.run [.frame first]) =
      [⟨{ e₁.job with received := 0x7e8, mlRemain := 14 }, [1, 2, 3], 14⟩] := by decide
  exact absurd (hlocated [] _ [] hone) (by decide)

end Engine

end EcuPoll
