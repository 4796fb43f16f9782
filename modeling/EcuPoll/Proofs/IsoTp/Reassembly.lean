import EcuPoll.Proofs.Engine.Addressing
import EcuPoll.Proofs.IsoTp.Bystanders
import EcuPoll.Proofs.IsoTp.Delivery

/-!
# How a response is put together

`Reception k e` says that an engine has taken the first `k` frames of the answer to the poll in flight.
What the engine has to ignore leaves it there (`Reception.ignore`), the next frame takes it on
(`Reception.next`), and the last one hands out the rest of the body (`Reception.last`). By induction the
body is handed out whole, however the frames are spread over a run: `reassembly`.
-/

namespace EcuPoll.Engine
variable {entry : PollEntry} {a : entry.Answer} {k : Nat} {e₀ e : Engine} {new : List Stamped}

/-! ### Taking the frames of an answer -/

/-- Leave to go on, on a bus that takes it. -/
theorem sendFlowControl_eq (ha : (e.line.write e.now).1 = true) (hb : e.job.isBroadcast = false)
    (id : UInt32) : e.sendFlowControl id = { e with
      line := (e.line.write e.now).2
      results := if e.reports then e.results
        else e.results ++ [(e.isoTpFrame e.job.sent (Segment.flowGoOn e.septime), true)]
      log := ⟨e.now, .wrote .flowControl (e.isoTpFrame e.job.sent (Segment.flowGoOn e.septime)) true⟩ ::
        e.log } := by
  simp only [sendFlowControl, isoTpTarget, hb, Bool.false_eq_true, if_false, transmit_eq, ha,
    Bool.true_and]

/-- The engine has taken the first `k` frames of the answer since `e₀`, and waits for more. -/
structure Reception (a : entry.Answer) (e₀ : Engine) (k : Nat) (e : Engine) : Prop where
  bus_eq : e.bus = e₀.bus
  septime_eq : e.septime = e₀.septime
  asks : e.job.Asks entry
  sent_eq : e.job.sent = entry.tx
  range_eq : (e.job.low, e.job.high) = (entry.rx, entry.rx)
  closed : e.channel.state = .closed
  wait_pos : 0 < e.wait
  remaining : e.out.remaining = 0
  allSent : e.AllSent
  queue : e.single.isSome = true ∨ e.queued = []
  line : k = 0 → ¬ a.parcel.FitsSingle → ∀ now, e.now ≤ now → (e.line.write now).1 = true
  frame_eq : k ≠ 0 → e.job.mlFrame = UInt16.ofNat k
  offset_eq : e.job.mlOffset = UInt16.ofNat (a.got k)
  remain_eq : k ≠ 0 →
    e.job.mlRemain = UInt16.ofNat (a.parcel.message.length - a.parcel.taken k)
  log : ∃ new, e.log = new ++ e₀.log ∧ Given a (a.got k) e.single new e₀.single ∧
    flowControls new = if k = 0 then []
      else [entry.protocol.isoTpFrame e₀.bus entry.tx (Segment.flowGoOn e₀.septime)]

namespace Reception

/-- What is no part of the answer may change: time passes, the wait goes on, the schedule throttles and
sent frames are reported. -/
theorem update (h : Reception a e₀ k e) (now wait : Nat) (schedule : Schedule) (received : UInt32)
    (results : List (Frame × Bool)) (new : List Stamped) (hnow : e.now ≤ now) (hw : 0 < wait)
    (hr : ∀ r ∈ results, r.2 = true) (hn : ∀ s ∈ new, s.event.IsSent) :
    Reception a e₀ k { e with
      now, wait, schedule, results, job := { e.job with received }, log := new ++ e.log } := by
  obtain ⟨old, hold, hgiven, hflow⟩ := h.log
  have hq : ∀ s ∈ new, s.event.IsQuiet := fun s hs => (hn s hs).isQuiet
  exact { h with
    asks := h.asks
    wait_pos := hw
    allSent := hr
    line := fun hk hfits now' hnow' => h.line hk hfits now' (Nat.le_trans hnow hnow')
    log := ⟨new ++ old, by rw [List.append_assoc, ← hold], hgiven.append (replies_of_quiet hq),
      by rw [flowControls_append, flowControls_of_quiet hq, List.append_nil, hflow]⟩ }

theorem waiting (h : Reception a e₀ k e) {wait : Nat} (hw : 0 < wait) :
    Reception a e₀ k { e with wait } :=
  h.update e.now wait e.schedule e.job.received e.results [] (Nat.le_refl _) hw h.allSent (by simp)

theorem settle (h : Reception a e₀ k e) : Reception a e₀ k e.settle := by
  obtain ⟨received, new, heq, hnew⟩ := settle_good h.allSent h.queue
  rw [heq]
  exact h.update e.now e.wait e.schedule received [] new (Nat.le_refl _) h.wait_pos (by simp) hnew

theorem isVwtp (h : Reception a e₀ k e) (hx : entry.Answerable) : e.job.isVwtp = false := by
  rw [PollJob.isVwtp, h.asks.protocol, beq_eq_false_iff_ne]
  exact hx.isoTp

theorem isBroadcast (h : Reception a e₀ k e) (hx : entry.Answerable) : e.job.isBroadcast = false := by
  rw [PollJob.isBroadcast, h.sent_eq, beq_eq_false_iff_ne]
  exact hx.oneToOne.2

theorem accepts_iff (h : Reception a e₀ k e) (id : UInt32) : e.job.accepts id = true ↔ id = entry.rx :=
  PollJob.accepts_iff h.range_eq

theorem entry_eq (h : Reception a e₀ k e) : e.job.entry = some entry := congrArg (·.1) h.asks

theorem step_frame (h : Reception a e₀ k e) {frame : Frame} (hb : frame.bus = e₀.bus) :
    e.step (.frame frame) = (e.receiveOther frame).settle := by
  have hchannel : e.isChannelFrame frame = false := by
    simp [isChannelFrame, Channel.isOpen, h.closed]
  exact step_frame_other (hb.trans h.bus_eq.symm) hchannel

/-- A frame from the responder is read; no other is. -/
theorem receiveOther (h : Reception a e₀ k e) (hx : entry.Answerable) (frame : Frame) :
    e.receiveOther frame = if entry.protocol.isoTpSender frame = entry.rx then
      e.receiveIsoTp frame entry.rx else e := by
  have hid : e.responseId frame = entry.protocol.isoTpSender frame := by
    rw [responseId, h.asks.protocol]
  have haccepts := h.accepts_iff (entry.protocol.isoTpSender frame)
  unfold Engine.receiveOther
  rw [hid, h.isVwtp hx, h.entry_eq]
  by_cases hs : entry.protocol.isoTpSender frame = entry.rx
  · rw [if_pos hs, if_pos (by simp [h.wait_pos, haccepts.2 hs]), hs]
  · rw [if_neg hs, if_neg (by simp [mt haccepts.1 hs])]

/-! ### What is no part of the answer -/

theorem receiveIsoTp_beside (h : Reception a e₀ k e) {frame : Frame} {segment : Segment}
    (hs : Segment.ofBytes? (entry.protocol.isoTpData frame) = some segment)
    (hb : entry.IsBeside segment) (id : UInt32) :
    ∃ wait, 0 < wait ∧ e.receiveIsoTp frame id = { e with wait } := by
  unfold Engine.receiveIsoTp
  rw [h.asks.protocol, hs]
  cases hb with
  | single hd => exact receiveOpening_beside h.asks h.wait_pos hd ..
  | first total hd => exact receiveOpening_beside h.asks h.wait_pos hd ..
  | flow command blockSize septime =>
    refine ⟨e.wait, h.wait_pos, ?_⟩
    show e.isoTpFlow id command blockSize septime = e
    unfold isoTpFlow
    rw [if_pos h.remaining]

theorem step_elsewhere (h : Reception a e₀ k e) {frame : Frame} (hb : frame.bus ≠ e₀.bus) :
    e.step (.frame frame) = e :=
  if_pos (by rw [h.bus_eq]; exact hb)

theorem ignore_frame (h : Reception a e₀ k e) (hx : entry.Answerable) {frame : Frame}
    (hr : ∃ wait, 0 < wait ∧ e.receiveIsoTp frame entry.rx = { e with wait }) :
    Reception a e₀ k (e.step (.frame frame)) := by
  by_cases hb : frame.bus = e₀.bus
  · rw [h.step_frame hb, h.receiveOther hx]
    split
    · obtain ⟨wait, hw, heq⟩ := hr
      rw [heq]
      exact (h.waiting hw).settle
    · exact h.settle
  · rw [h.step_elsewhere hb]
    exact h

theorem ignore (h : Reception a e₀ k e) (hx : entry.Answerable) {op : Operation}
    (hop : entry.Ignores e₀.bus op) : Reception a e₀ k (e.step op) := by
  cases hop with
  | tick =>
    have heq : e.step (.tick false) = { e with schedule := e.schedule.resetSequence }.settle := by
      show ({ e with schedule := e.schedule.resetSequence }.sendNext false).settle = _
      unfold sendNext
      rw [if_pos h.wait_pos]
    rw [heq]
    refine settle ?_
    exact h.update e.now e.wait e.schedule.resetSequence e.job.received e.results [] (Nat.le_refl _)
      h.wait_pos h.allSent (by simp)
  | elapse ms =>
    exact h.update (e.now + ms) e.wait e.schedule e.job.received e.results [] (Nat.le_add_right ..)
      h.wait_pos h.allSent (by simp)
  | sent frame =>
    obtain ⟨received, new, heq, hnew⟩ := judgeResult_good e frame
    show Reception a e₀ k (e.judgeResult frame true).settle
    rw [heq]
    refine settle ?_
    exact h.update e.now e.wait e.schedule received e.results new (Nat.le_refl _) h.wait_pos h.allSent hnew
  | bus hb =>
    rw [h.step_elsewhere hb]
    exact h
  | @sender frame hs =>
    by_cases hb : frame.bus = e₀.bus
    · rw [h.step_frame hb, h.receiveOther hx, if_neg hs]
      exact h.settle
    · rw [h.step_elsewhere hb]
      exact h
  | unknown hs =>
    refine h.ignore_frame hx ⟨e.wait, h.wait_pos, ?_⟩
    unfold Engine.receiveIsoTp
    rw [h.asks.protocol, hs]
  | beside hs hb => exact h.ignore_frame hx (h.receiveIsoTp_beside hs hb _)

/-! ### The frames of the answer -/

/-- What a frame of the answer does, up to what follows its payload. -/
theorem receive (h : Reception a e₀ k e) (hx : entry.Answerable) (hk : k ≤ a.parcel.pieces)
    {frame : Frame} (hf : a.Brings e₀.bus k frame) :
    e.receiveIsoTp frame entry.rx =
      (e.deliverSegment entry.rx (a.payload k) (UInt16.ofNat (a.body.length - a.got (k + 1)))).afterSegment
        entry.rx (decide (k = 0 ∧ ¬ a.parcel.FitsSingle)) (a.payload k).length := by
  refine receiveIsoTp_brings h.asks hx.recognisable hk hf.bringsFrom h.frame_eq h.remain_eq fun hne => .inl ?_
  rw [Nat.add_sub_cancel' (Nat.one_le_iff_ne_zero.2 hne)]

theorem taken (h : Reception a e₀ k e) (line : Line) {single : Option Capture}
    {results : List (Frame × Bool)} (hr : ∀ r ∈ results, r.2 = true)
    (hg : Given a (a.got (k + 1)) single new e₀.single)
    (hf : flowControls new = [entry.protocol.isoTpFrame e₀.bus entry.tx (Segment.flowGoOn e₀.septime)]) :
    Reception a e₀ (k + 1) { e with
      line, single, results
      wait := 2
      log := new ++ e₀.log
      job := { a.handing k e.job with
        mlFrame := UInt16.ofNat (k + 1)
        mlOffset := UInt16.ofNat (a.got (k + 1)) } } := by
  obtain ⟨_, -, hgiven, -⟩ := h.log
  exact { h with
    asks := h.asks
    wait_pos := Nat.zero_lt_two
    allSent := hr
    queue := by
      rw [hg.isSome, ← hgiven.isSome]
      exact h.queue
    line := fun hk' => absurd hk' (Nat.succ_ne_zero k)
    frame_eq := fun _ => rfl
    offset_eq := rfl
    remain_eq := fun _ => by rw [a.to_come]; rfl
    log := ⟨new, rfl, hg, hf⟩ }

/-- A frame of the answer is read, whatever else the engine has to do. -/
theorem step_brings (h : Reception a e₀ k e) (hx : entry.Answerable) (hk : k ≤ a.parcel.pieces)
    {frame : Frame} (hf : a.Brings e₀.bus k frame) :
    e.step (.frame frame) =
      (({ e with job := a.handing k e.job }.deliverReply (a.payload k)).afterSegment entry.rx
        (decide (k = 0 ∧ ¬ a.parcel.FitsSingle)) (a.payload k).length).settle := by
  rw [h.step_frame hf.bus_eq, h.receiveOther hx, if_pos hf.sender_eq, h.receive hx hk hf]
  rfl

theorem hands (h : Reception a e₀ k e) : Hands a k (a.handing k e.job) :=
  ⟨h.entry_eq, h.offset_eq, rfl⟩

theorem deliverReply (h : Reception a e₀ k e) (hk : k < a.parcel.pieces) :
    ∃ single new', { e with job := a.handing k e.job }.deliverReply (a.payload k) =
        { e with single, job := a.handing k e.job, log := new' ++ e₀.log } ∧
      Given a (a.got (k + 1)) single new' e₀.single ∧
      flowControls new' = if k = 0 then []
        else [entry.protocol.isoTpFrame e₀.bus entry.tx (Segment.flowGoOn e₀.septime)] := by
  obtain ⟨new, hnew, hgiven, hflow⟩ := h.log
  obtain ⟨single, new', hdeliver, hgiven', hflow'⟩ :=
    Given.deliverReply (e := { e with job := a.handing k e.job }) hgiven h.hands (a.got_ne hk)
  refine ⟨single, new' ++ new, ?_, hgiven', ?_⟩
  · rw [List.append_assoc, ← hnew]
    exact hdeliver
  · rw [flowControls_append, hflow', List.append_nil, hflow]

/-- The next frame of the answer. The first of several is followed by leave to go on. -/
theorem next (h : Reception a e₀ k e) (hx : entry.Answerable) (hk : k < a.parcel.pieces) {frame : Frame}
    (hf : a.Brings e₀.bus k frame) : Reception a e₀ (k + 1) (e.step (.frame frame)) := by
  have hremain := mt h.hands.remain_eq_zero_iff.1 (a.got_ne hk)
  have hoffset : e.job.mlOffset + UInt16.ofNat (a.payload k).length = UInt16.ofNat (a.got (k + 1)) := by
    rw [h.offset_eq, ← UInt16.ofNat_add, a.length_payload, Nat.add_sub_cancel' (a.got_le_succ k)]
  obtain ⟨single, new, hdeliver, hgiven, hflow⟩ := h.deliverReply hk
  rw [h.step_brings hx (Nat.le_of_lt hk) hf, hdeliver]
  unfold afterSegment
  rw [if_neg hremain]
  cases k with
  | zero =>
    have hfits : ¬ a.parcel.FitsSingle := fun hfits => by
      rw [a.parcel.pieces_of_fitsSingle hfits] at hk
      cases hk
    have haccept := h.line rfl hfits e.now (Nat.le_refl _)
    have hframe : e.isoTpFrame e.job.sent (Segment.flowGoOn e.septime) =
        entry.protocol.isoTpFrame e₀.bus entry.tx (Segment.flowGoOn e₀.septime) := by
      rw [isoTpFrame, h.asks.protocol, h.bus_eq, h.sent_eq, h.septime_eq]
    have ht := @taken _ _ _ _ _ (⟨e.now, .wrote .flowControl (e.isoTpFrame e.job.sent
      (Segment.flowGoOn e.septime)) true⟩ :: new) h (e.line.write e.now).2 single
      (if e.reports then e.results
        else e.results ++ [(e.isoTpFrame e.job.sent (Segment.flowGoOn e.septime), true)]) ?_ ?_ ?_
    · simp only [hfits, not_false_eq_true, and_self, decide_true, if_true]
      rw [sendFlowControl_eq (by exact haccept) (by exact h.isBroadcast hx)]
      rw [← hoffset] at ht
      exact ht.settle
    · split
      · exact h.allSent
      · intro r hr
        rcases List.mem_append.1 hr with hr | hr
        · exact h.allSent r hr
        · rw [List.mem_singleton.1 hr]
    · exact @Given.append _ _ _ _ _ _ hgiven [_] rfl
    · rw [← List.singleton_append, flowControls_append, hflow, hframe]
      rfl
  | succ k =>
    have hnumber : e.job.mlFrame + 1 = UInt16.ofNat (k + 1 + 1) := by
      rw [h.frame_eq (Nat.succ_ne_zero k), UInt16.ofNat_add (k + 1)]
      rfl
    rw [if_neg (Nat.succ_ne_zero k)] at hflow
    have ht := h.taken e.line h.allSent hgiven hflow
    rw [← hnumber, ← hoffset] at ht
    exact ht.settle

/-- The last frame of the answer. What the engine does next is no part of this poll. -/
theorem last (h : Reception a e₀ a.parcel.pieces e) (hx : entry.Answerable) {frame : Frame}
    (hf : a.Brings e₀.bus a.parcel.pieces frame) :
    ∃ new, (e.step (.frame frame)).log = new ++ e₀.log ∧ GivenAll a new e₀.single ∧
      flowControls new = if a.parcel.FitsSingle then []
        else [entry.protocol.isoTpFrame e₀.bus entry.tx (Segment.flowGoOn e₀.septime)] := by
  obtain ⟨new, hnew, hgiven, hflow⟩ := h.log
  have hlast := (a.got_eq_iff (Nat.le_refl _)).2 rfl
  have hremain := h.hands.remain_eq_zero_iff.2 hlast
  have hjob := (Delivers.deliverReply { e with job := a.handing a.parcel.pieces e.job }
    (a.payload a.parcel.pieces)).job
  obtain ⟨new', hlog, hgiven', hflow'⟩ :=
    Given.deliverLast (e := { e with job := a.handing a.parcel.pieces e.job }) hgiven h.hands hlast
  have hfits : a.parcel.pieces = 0 ↔ a.parcel.FitsSingle :=
    ⟨a.parcel.fitsSingle_of_pieces, a.parcel.pieces_of_fitsSingle⟩
  rw [h.step_brings hx (Nat.le_refl _) hf]
  generalize Engine.deliverReply _ _ = e' at hjob hlog
  have hafter (first : Bool) (length : Nat) :
      e'.afterSegment entry.rx first length = { e' with wait := 0 }.pollNext := by
    have hbroadcast : e'.job.isBroadcast = false := by
      rw [hjob]
      exact h.isBroadcast hx
    unfold afterSegment
    rw [if_pos (by rw [hjob]; exact hremain)]
    dsimp only
    rw [hbroadcast]
    rfl
  rw [hafter]
  -- the next poll neither delivers replies nor lets a responder go on
  obtain ⟨tail, htail, hquiet⟩ := ((Turns.refl { e' with wait := 0 }).pollNext rfl).settle.quiet
  refine ⟨tail ++ (new' ++ new), ?_, hgiven'.append (replies_of_quiet hquiet), ?_⟩
  · rw [htail, List.append_assoc, List.append_assoc, ← hnew]
    exact congrArg (tail ++ ·) hlog
  · rw [flowControls_append, flowControls_append, flowControls_of_quiet hquiet, hflow', hflow,
      List.append_nil, List.append_nil]
    simp only [hfits]

/-- However the frames of the answer are spread over a run, the whole body is handed on. -/
theorem arrives (h : Reception a e₀ k e) (hx : entry.Answerable) {ops : List Operation}
    (ha : a.Arrives e₀.bus k ops) :
    ∃ new, (e.run ops).log = new ++ e₀.log ∧ GivenAll a new e₀.single ∧
      flowControls new = if a.parcel.FitsSingle then []
        else [entry.protocol.isoTpFrame e₀.bus entry.tx (Segment.flowGoOn e₀.septime)] := by
  induction ha generalizing e with
  | last hk hf =>
    subst hk
    exact h.last hx hf
  | next hf ht ih => exact ih (h.next hx ht.le_pieces hf)
  | ignore hop _ ih => exact ih (h.ignore hx hop)

end Reception

/-! ### Every run -/

/-- The request for the entry is out, and nothing of its answer has come in. -/
structure Awaits (entry : PollEntry) (e : Engine) : Prop where
  entry_eq : e.job.entry = some entry
  wait_pos : 0 < e.wait
  remaining : e.out.remaining = 0
  fresh : e.job.mlOffset = 0
  accepts : e.job.accepts entry.rx = true
  closed : e.channel.state = .closed

theorem Awaits.reception {bus : BusId} {stray : Prop} (h : Awaits entry e) (hx : entry.Answerable)
    (hr : Routes bus stray e) (hrest : e.AtRest) (a : entry.Answer)
    (hl : a.parcel.FitsSingle ∨ ∀ now, e.now ≤ now → (e.line.write now).1 = true) :
    Reception a e 0 e := by
  have hids := (hr.isoTp entry h.entry_eq hx.isoTp).2
  have htarget : entry.target = entry.tx := if_pos hx.oneToOne.1
  have hresponders : entry.responders = (entry.rx, entry.rx) := if_pos hx.oneToOne.1
  refine ⟨rfl, rfl, hr.asks entry h.entry_eq, hids.sent.trans htarget, ?_, h.closed, h.wait_pos,
    h.remaining, hrest.allSent, hrest.queue, fun _ hfits => hl.resolve_left hfits,
    fun hk => absurd rfl hk, ?_,
    fun hk => absurd rfl hk, [], rfl, ?_, rfl⟩
  · rcases hids.range with hrange | hrange
    · rw [hrange, hresponders]
    · obtain ⟨hlow, hhigh⟩ := Prod.mk.inj hrange
      have haccepts := h.accepts
      rw [PollJob.accepts, hlow, hhigh, Bool.and_eq_true, decide_eq_true_iff, decide_eq_true_iff] at haccepts
      exact absurd (UInt32.le_antisymm haccepts.2 haccepts.1) hx.oneToOne.1
  · rw [h.fresh, PollEntry.Answer.got, Parcel.taken, Nat.zero_sub]
    rfl
  · rw [PollEntry.Answer.got, Parcel.taken, Nat.zero_sub]
    exact .start a e.single

/-- When the answer to a poll comes in, its replies are the body, in order and each in its place, or the
single request ends with the body. Leave to go on is given once, after the first of several frames. -/
theorem reassembly (bus : BusId) (name : String) (reports : Bool) (settings : EngineSettings)
    (before : List Operation) (e : Engine) (he : e = (Engine.new bus name reports settings).run before)
    (entry : PollEntry) (hx : entry.Answerable) (hw : e.Awaits entry) (a : entry.Answer)
    (hl : a.parcel.FitsSingle ∨ ∀ now, e.now ≤ now → (e.line.write now).1 = true)
    (ops : List Operation) (ha : a.Arrives bus 0 ops) :
    ∃ new, (e.run ops).log = new ++ e.log ∧
      (e.single = none → HandOut entry a.body (replies new)) ∧
      (∀ capture, e.single = some capture → replies new = [] ∧ ∃ s ∈ new,
        s.event = .singleResolved capture.request.ticket (.ok (capture.response ++ a.body))) ∧
      flowControls new = if a.parcel.FitsSingle then []
        else [entry.protocol.isoTpFrame bus entry.tx (Segment.flowGoOn e.septime)] := by
  have hr := (routes_new bus name reports settings).run before
  have hrest : ((Engine.new bus name reports settings).run before).AtRest :=
    AtRest.run ⟨rfl, .inr rfl⟩ before
  rw [← he] at hr hrest
  obtain rfl := hr.bus_eq
  obtain ⟨new, hnew, hgiven, hflow⟩ := (hw.reception hx hr hrest a hl).arrives hx ha
  refine ⟨new, hnew, fun hs => ?_, fun capture hs => ?_, hflow⟩ <;> rw [hs] at hgiven <;> exact hgiven

/-- An answer of 13 bytes in extended addressing. The module asks for patience first, and a secondary tick
and a frame of another module come in between. -/
theorem reassembly_example :
    let bus : BusId := ⟨1, by decide⟩
    let entry : PollEntry := ⟨0x60f1, 0x6f112, 0x22, 0xd100, [], #v[1, 0, 0, 0], 1, .isoTpExtAddr⟩
    let body : List UInt8 := [1, 2, 3, 4, 5, 6, 7, 8, 9, 10]
    let e := (Engine.new bus "ecu" false ⟨0, 25, .strict, 0, 0⟩).run
      [.setList (some [entry]) none, .tick true]
    let frame := fun bytes => Operation.frame (EcuFrame.padded bus 0x6f1 (0x12 :: bytes))
    let ops : List Operation := [frame [0x03, 0x7f, 0x22, 0x78], frame [0x10, 13, 0x62, 0xd1, 0x00, 1, 2],
      .tick false, frame [0x21, 3, 4, 5, 6, 7, 8],
      .frame (EcuFrame.padded bus 0x6f1 [0x13, 0x22, 1, 2, 3]), frame [0x22, 9, 10]]
    ∃ new, (e.run ops).log = new ++ e.log ∧ HandOut entry body (replies new) ∧
      flowControls new = [EcuFrame.padded bus 0x60 [0xf1, 0x30, 0, 25]] := by
  intro bus entry body e frame ops
  have hx : entry.Answerable := ⟨by decide, by decide, by decide, nofun⟩
  have hw : e.Awaits entry := ⟨by decide, by decide, by decide, by decide, by decide, by decide⟩
  have hline : e.line = .free := by decide
  let a : entry.Answer := ⟨body, by decide⟩
  have hpending : entry.Ignores bus (frame [0x03, 0x7f, 0x22, 0x78]) :=
    .beside rfl (.single (.inr ⟨[], rfl⟩))
  have hother : entry.Ignores bus (.frame (EcuFrame.padded bus 0x6f1 [0x13, 0x22, 1, 2, 3])) :=
    .sender (by decide)
  have hlast : a.Brings bus 2 (EcuFrame.padded bus 0x6f1 [0x12, 0x22, 9, 10]) :=
    ⟨rfl, by decide, by decide⟩
  have ha : a.Arrives bus 0 ops :=
    .ignore hpending (.next ⟨rfl, by decide, by decide⟩ (.ignore .tick
      (.next ⟨rfl, by decide, by decide⟩ (.ignore hother (.last (by decide) hlast)))))
  obtain ⟨new, hnew, hgiven, -, hflow⟩ := reassembly bus "ecu" false _ _ e rfl entry hx hw a
    (.inr fun now _ => by rw [hline]; rfl) ops ha
  exact ⟨new, hnew, hgiven (by decide), hflow.trans (by decide)⟩

end EcuPoll.Engine
