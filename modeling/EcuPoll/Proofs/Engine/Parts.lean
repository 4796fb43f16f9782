import EcuPoll.Proofs.Diag.Responses
import EcuPoll.Proofs.Engine.Fates
import EcuPoll.Proofs.Vwtp.Beside

/-!
# What a frame does to the single request

`Takes` are the frames that an engine takes for a part of the response to the poll in flight, over ISO-TP or on
the channel. Such a frame adds to the response of the single request that has the bus, or completes it; a
channel that goes away answers the request with what there is; all else leaves the response alone: `Handled`.
-/

namespace EcuPoll

namespace Engine
variable {e e' e'' : Engine} {frame : Frame}

/-! ### Parts of a response -/

/-- The frame carries a segment for the ISO-TP poll in flight. -/
structure HasSegment (e : Engine) (frame : Frame) (segment : Segment) : Prop where
  bus_eq : frame.bus = e.bus
  aside : e.isChannelFrame frame = false
  isoTp : e.job.isVwtp = false
  wait_pos : 0 < e.wait
  accepted : e.job.accepts (e.responseId frame) = true
  read : Segment.ofBytes? (e.job.protocol.isoTpData frame) = some segment

/-- The frame carries the next data on the channel. -/
structure HasData (e : Engine) (frame : Frame) : Prop where
  bus_eq : frame.bus = e.bus
  onChannel : e.isChannelFrame frame = true
  state_eq : e.channel.state = .receive
  opcode_lt : Frame.leadByte frame.data < 0x40
  number_eq : Frame.leadByte frame.data &&& 0x0f = e.channel.rxSeq &&& 0x0f

/-- The length of a message that begins with this data frame. -/
def announced (frame : Frame) : UInt16 :=
  Envelope.word (frame.payload.getD 1 0 &&& 0x0f) (frame.payload.getD 2 0)

/-- The frame begins a message of `total` bytes with this segment. -/
inductive Opens (e : Engine) (frame : Frame) : Nat → List UInt8 → Prop
  | single {data : List UInt8} (hf : e.HasSegment frame (.single data)) : Opens e frame data.length data
  | first {total : UInt16} {data : List UInt8} (hf : e.HasSegment frame (.first total data)) :
    Opens e frame total.toNat data
  | data (hf : e.HasData frame) (hm : e.job.mlFrame = 0) :
    Opens e frame (announced frame).toNat (frame.payload.drop 3)

/-- The frame continues a message with this data. -/
inductive GoesOn (e : Engine) (frame : Frame) : List UInt8 → Prop
  | consecutive {index : UInt8} {data : List UInt8} (hf : e.HasSegment frame (.consecutive index data))
    (hn : e.isNumberOk index = true) : GoesOn e frame (data.take e.job.mlRemain.toNat)
  | data (hf : e.HasData frame) (hm : e.job.mlFrame ≠ 0) : GoesOn e frame (frame.payload.drop 1)

/-- The frame is taken for a part of the response, of which `left` bytes are to come then. -/
inductive Takes (e : Engine) (frame : Frame) : List UInt8 → Nat → Prop
  | opening {total : Nat} {segment payload : List UInt8} (ho : e.Opens frame total segment)
    (hj : e.judge segment = .answer payload) : Takes e frame payload (total - segment.length)
  | more {data : List UInt8} (hg : e.GoesOn frame data) :
    Takes e frame data (e.job.mlRemain.toNat - data.length)

/-- The module of the channel turns it down. -/
structure Rejects (e : Engine) (frame : Frame) : Prop where
  bus_eq : frame.bus = e.bus
  onChannel : e.isChannelFrame frame = true
  state_eq : e.channel.state = .setup
  dlc_eq : frame.dlc = 7
  accept_lt : Opcode.setupAccept < frame.data.toList.getD 1 0
  le_max : frame.data.toList.getD 1 0 ≤ Opcode.setupRejectMax

instance (e : Engine) (frame : Frame) : Decidable (e.Rejects frame) :=
  decidable_of_iff (frame.bus = e.bus ∧ e.isChannelFrame frame = true ∧ e.channel.state = .setup ∧
    frame.dlc = 7 ∧ Opcode.setupAccept < frame.data.toList.getD 1 0 ∧
    frame.data.toList.getD 1 0 ≤ Opcode.setupRejectMax)
    ⟨fun ⟨hb, hc, hs, hl, ha, hm⟩ => ⟨hb, hc, hs, hl, ha, hm⟩, fun ⟨hb, hc, hs, hl, ha, hm⟩ =>
      ⟨hb, hc, hs, hl, ha, hm⟩⟩

/-- The module of the channel closes it. -/
structure Disconnects (e : Engine) (frame : Frame) : Prop where
  bus_eq : frame.bus = e.bus
  onChannel : e.isChannelFrame frame = true
  state_eq : e.channel.state = .params ∧ frame.dlc ≠ 0 ∨ e.channel.state = .transmit ∧ frame.dlc = 1 ∨
    e.channel.state = .idle ∨ e.channel.state = .receive
  opcode_eq : Frame.leadByte frame.data = Opcode.disconnect

instance (e : Engine) (frame : Frame) : Decidable (e.Disconnects frame) :=
  decidable_of_iff (frame.bus = e.bus ∧ e.isChannelFrame frame = true ∧
    (e.channel.state = .params ∧ frame.dlc ≠ 0 ∨ e.channel.state = .transmit ∧ frame.dlc = 1 ∨
      e.channel.state = .idle ∨ e.channel.state = .receive) ∧ Frame.leadByte frame.data = Opcode.disconnect)
    ⟨fun ⟨hb, hc, hs, ho⟩ => ⟨hb, hc, hs, ho⟩, fun ⟨hb, hc, hs, ho⟩ => ⟨hb, hc, hs, ho⟩⟩

/-- The segment would be taken. -/
def TakesSegment (e : Engine) : Segment → Prop
  | .single data | .first _ data => ∃ payload, e.judge data = .answer payload
  | .consecutive index _ => e.isNumberOk index = true
  | .flow _ _ _ => False

theorem Takes.aside {data : List UInt8} {left : Nat} (h : e.Takes frame data left)
    (hc : e.isChannelFrame frame = false) : ∃ segment, e.HasSegment frame segment ∧ e.TakesSegment segment := by
  have hno (hf : e.HasData frame) : False := by
    have := hf.onChannel
    rw [hc] at this
    cases this
  cases h with
  | opening ho hj =>
    cases ho with
    | single hf | first hf => exact ⟨_, hf, _, hj⟩
    | data hf => exact (hno hf).elim
  | more hg =>
    cases hg with
    | consecutive hf hn => exact ⟨_, hf, hn⟩
    | data hf => exact (hno hf).elim

theorem Takes.onChannel {data : List UInt8} {left : Nat} (h : e.Takes frame data left)
    (hc : e.isChannelFrame frame = true) :
    e.HasData frame ∧ (e.job.mlFrame = 0 → ∃ payload, e.judge (frame.payload.drop 3) = .answer payload) := by
  have hno {segment : Segment} (hf : e.HasSegment frame segment) : False := by
    have := hf.aside
    rw [hc] at this
    cases this
  cases h with
  | opening ho hj =>
    cases ho with
    | single hf | first hf => exact (hno hf).elim
    | data hf hm => exact ⟨hf, fun _ => ⟨_, hj⟩⟩
  | more hg =>
    cases hg with
    | consecutive hf => exact (hno hf).elim
    | data hf hm => exact ⟨hf, fun h0 => absurd h0 hm⟩

theorem Takes.bus_eq {data : List UInt8} {left : Nat} (h : e.Takes frame data left) : frame.bus = e.bus := by
  cases hc : e.isChannelFrame frame with
  | true => exact (h.onChannel hc).1.bus_eq
  | false =>
    obtain ⟨_, hf, -⟩ := h.aside hc
    exact hf.bus_eq

/-! ### One frame -/

/-- The event answers no single request, or this one with this data. -/
def OnlyAnswers (ticket : Nat) (data : List UInt8) (event : Event) : Prop :=
  ∀ ticket' data', event = .singleResolved ticket' (.ok data') → ticket' = ticket ∧ data' = data

theorem onlyAnswers_of_isSingle {event : Event} (h : event.isSingle = false) (ticket : Nat)
    (data : List UInt8) : OnlyAnswers ticket data event := fun ticket' data' heq => by
  rw [heq] at h
  cases h

theorem onlyAnswers_finishSingle {capture : Capture} (hc : e.single = some capture) (data : List UInt8) :
    Adds (OnlyAnswers capture.request.ticket data) e (e.finishSingle (.ok data)) := by
  refine ⟨[⟨e.now, .singleResolved capture.request.ticket (.ok data)⟩], ?_, ?_⟩
  · simp [finishSingle, hc, Engine.emit]
  · rw [List.forall_mem_singleton]
    intro ticket' data' heq
    cases heq
    exact ⟨rfl, rfl⟩

/-- No part of the response to the single request comes in. -/
def Ignores (e : Engine) (frame : Frame) : Prop :=
  e.single ≠ none → ∀ data left, ¬ e.Takes frame data left

/-- The number that the next frame of the response is to have after this one. -/
def nextAfter (e : Engine) (frame : Frame) : Nat :=
  if e.isChannelFrame frame then ((Frame.leadByte frame.data &&& 0x0f).toNat + 1) % 16
  else
    match Segment.ofBytes? (e.job.protocol.isoTpData frame) with
    | some (.consecutive _ _) => (e.nextNumber + 1) % 16
    | _ => 1

/-- What a frame does to the single request before the engine goes on. -/
inductive Handled (e : Engine) (frame : Frame) (e' : Engine) : Prop
  | fate (hf : Fate e e') (hn : e.Ignores frame)
  /-- A part of the response, which is not the last. -/
  | part {capture : Capture} {payload : List UInt8} {left : Nat} (hc : e.single = some capture)
    (ht : e.Takes frame payload left) (hl : left ≠ 0)
    (hs : e'.single = some { capture with response := capture.response ++ payload })
    (hq : e'.queued = e.queued) (ha : e'.job.asked = e.job.asked) (hr : e'.job.mlRemain.toNat = left)
    (hi : e.isChannelFrame frame = false → e'.job.received = e.responseId frame)
    (hx : e.isChannelFrame frame = e.job.isVwtp → e'.nextNumber = e.nextAfter frame)
    (hlog : Adds (fun event => event.isSingle = false) e e')
  /-- The last part of the response. -/
  | whole {capture : Capture} {payload : List UInt8} (hc : e.single = some capture)
    (ht : e.Takes frame payload 0) (hs : e'.single = none) (hq : e'.queued = e.queued)
    (hlog : Adds (OnlyAnswers capture.request.ticket (capture.response ++ payload)) e e')
  /-- The channel has gone, and the request is answered with what there is. -/
  | lost {capture : Capture} (hc : e.single = some capture)
    (hf : e.Rejects frame ∨ e.job.isVwtp = true ∧ e.Disconnects frame) (hs : e'.single = none)
    (hq : e'.queued = e.queued) (hlog : Adds (OnlyAnswers capture.request.ticket capture.response) e e')

theorem Handled.of_same (h : e.Serving) (hs : Same e e') (hn : e.Ignores frame) : Handled e frame e' :=
  .fate (.of_same h hs) hn

/-- The poll in flight is still that of the single request; one that only closes the channel has no response. -/
theorem Handled.serving (h : Handled e frame e') (hserving : e.Serving)
    (hcloses : ∀ capture, e.single = some capture → capture.request.entry.ClosesOnly →
      ∀ payload left, ¬ e.Takes frame payload left) : e'.Serving := by
  cases h with
  | fate hf => exact hf.serving
  | @part capture payload left hc ht hl hs hq ha =>
    refine ⟨fun capture' hc' => ?_, fun capture' hc' hcl => ?_⟩
    · cases hs.symm.trans hc'
      exact ha.trans (hserving.asks capture hc)
    · cases hs.symm.trans hc'
      exact absurd ht (hcloses capture hc hcl payload left)
  | whole hc ht hs => exact .of_none hs
  | lost hc hf hs => exact .of_none hs

/-! ### Delivery -/

/-- Nothing happens to the single request, and the response is where it was. -/
structure Unmoved (e e' : Engine) : Prop where
  single : e'.single = e.single
  queued : e'.queued = e.queued
  asked : e'.job.asked = e.job.asked
  received : e'.job.received = e.job.received
  mlRemain : e'.job.mlRemain = e.job.mlRemain
  log : Adds (fun event => event.isSingle = false) e e'

theorem Unmoved.refl (e : Engine) : Unmoved e e := ⟨rfl, rfl, rfl, rfl, rfl, .refl e⟩

theorem unmoved_afterData (e : Engine) (length : Nat) : Unmoved e (e.afterData length) := by
  unfold afterData goIdle
  split
  · split <;> exact ⟨rfl, rfl, rfl, rfl, rfl, .of_log rfl⟩
  · exact ⟨rfl, rfl, rfl, rfl, rfl, .of_log rfl⟩

/-- A part of the response is delivered once it is noted what is left of it. -/
theorem handled_deliver {payload : List UInt8} {left : Nat} (ht : e.Takes frame payload left)
    {e₀ e₂ : Engine} (hs : e₀.single = e.single) (hq : e₀.queued = e.queued)
    (ha : e₀.job.asked = e.job.asked) (hr : e₀.job.mlRemain.toNat = left)
    (hi : e.isChannelFrame frame = false → e₀.job.received = e.responseId frame)
    (hlog : Adds (fun event => event.isSingle = false) e e₀) (h₂ : Unmoved (e₀.deliverReply payload) e₂)
    (hx : e₀.job.mlRemain ≠ 0 → e.isChannelFrame frame = e.job.isVwtp → e₂.nextNumber = e.nextAfter frame) :
    Handled e frame e₂ := by
  have hd := deliverReply_delivered e₀ payload
  generalize e₀.deliverReply payload = e₁ at hd h₂
  cases hd with
  | report hnone =>
    have hrep : Adds (fun event => event.isSingle = false) e₀
        (e₀.emit (.reply e₀.job payload e₀.job.mlRemain)) := (Adds.refl e₀).emit rfl
    refine .fate (.of_none (h₂.single.trans hnone) ?_ (((hlog.trans hrep).trans h₂.log).mono ?_))
      fun hsome => absurd (hs.symm.trans hnone) hsome
    · rw [h₂.queued]
      exact hq ▸ List.suffix_refl _
    · intro event hev ticket data heq
      rw [heq] at hev
      cases hev
  | @whole capture hc hrem =>
    obtain rfl : left = 0 := by rw [← hr, hrem]; rfl
    have hfirst := hlog.mono fun event hev =>
      onlyAnswers_of_isSingle hev capture.request.ticket (capture.response ++ payload)
    have hlast := h₂.log.mono fun event hev =>
      onlyAnswers_of_isSingle hev capture.request.ticket (capture.response ++ payload)
    refine .whole (hs ▸ hc) ht (h₂.single.trans (single_finishSingle ..)) ?_
      ((hfirst.trans (onlyAnswers_finishSingle hc _)).trans hlast)
    rw [h₂.queued, (Delivers.finishSingle ..).queued, hq]
  | @part capture hc hrem =>
    have hleft : left ≠ 0 := fun h0 => hrem (by rw [← UInt16.toNat_inj, hr, h0]; rfl)
    refine .part (hs ▸ hc) ht hleft h₂.single (h₂.queued.trans hq) (h₂.asked.trans ha) ?_ (fun hc => ?_) (hx hrem) ?_
    · rw [h₂.mlRemain]
      exact hr
    · exact h₂.received.trans (hi hc)
    · exact hlog.trans ((Adds.of_log rfl).trans h₂.log)

theorem rxSeq_afterData (e : Engine) (length : Nat) :
    (e.afterData length).channel.rxSeq = e.channel.rxSeq := by
  unfold afterData goIdle
  split
  · split <;> rfl
  · rfl

/-! ### Over ISO-TP -/

theorem fate_afterSegment (h : e.Serving) (hr : e.job.mlRemain = 0) (id : UInt32) (first : Bool)
    (length : Nat) : Fate e (e.afterSegment id first length) := by
  have hw : Fate e { e with wait := 0 } := .of_same h ((Same.refl e).update ..)
  unfold afterSegment
  rw [if_pos hr]
  dsimp only
  split
  · exact hw
  · exact hw.trans (Turns.fate hw.serving ((Turns.refl _).pollNext rfl))

theorem unmoved_afterSegment (hr : e.job.mlRemain ≠ 0) (id : UInt32) (first : Bool) (length : Nat) :
    Unmoved e (e.afterSegment id first length) ∧ (e.job.isVwtp = false →
      (e.afterSegment id first length).nextNumber = (if first then 1 else e.job.mlFrame + 1).toNat % 16) := by
  unfold afterSegment
  rw [if_neg hr]
  cases first with
  | true =>
    refine ⟨?_, fun hj => ?_⟩
    · dsimp only
      rw [if_pos rfl, if_pos rfl]
      unfold sendFlowControl
      rw [transmit_eq]
      exact ⟨rfl, rfl, rfl, rfl, rfl, [_], rfl, by simp [Event.isSingle]⟩
    · dsimp only
      rw [if_pos rfl, if_pos rfl, nextNumber_isoTp]
      · rfl
      · unfold sendFlowControl
        rw [transmit_eq]
        exact hj
  | false => exact ⟨⟨rfl, rfl, rfl, rfl, rfl, .of_log rfl⟩, fun hj => nextNumber_isoTp hj⟩

/-- The frame is handled, and then nothing more is taken for a response. -/
def HandledThen (e : Engine) (frame : Frame) (e' : Engine) : Prop :=
  ∃ e₁, Handled e frame e₁ ∧ (e₁.Serving → Fate e₁ e')

theorem HandledThen.of_fate (hf : Fate e e') (hn : e.Ignores frame) : HandledThen e frame e' :=
  ⟨e', .fate hf hn, fun hs => .of_same hs (.refl e')⟩

theorem handledThen_deliverSegment (hj : e.job.isVwtp = false) {payload : List UInt8} {remain : UInt16}
    (ht : e.Takes frame payload remain.toNat) (first : Bool) (length : Nat)
    (hx : remain ≠ 0 → e.nextAfter frame = (if first then 1 else e.job.mlFrame + 1).toNat % 16) :
    HandledThen e frame
      ((e.deliverSegment (e.responseId frame) payload remain).afterSegment (e.responseId frame) first length) := by
  have hjob : (e.deliverSegment (e.responseId frame) payload remain).job =
      { e.job with received := e.responseId frame, mlRemain := remain } := by
    unfold deliverSegment
    rw [(Delivers.deliverReply ..).job]
  have hdelivered {e₂ : Engine} (h₂ : Unmoved (e.deliverSegment (e.responseId frame) payload remain) e₂)
      (hx : remain ≠ 0 → e.isChannelFrame frame = e.job.isVwtp → e₂.nextNumber = e.nextAfter frame) :
      Handled e frame e₂ := by
    unfold deliverSegment at h₂
    refine handled_deliver ht ?_ ?_ ?_ ?_ ?_ ?_ h₂ hx
    · rfl
    · rfl
    · rfl
    · rfl
    · exact fun _ => rfl
    · exact .of_log rfl
  have hrem : (e.deliverSegment (e.responseId frame) payload remain).job.mlRemain = remain := by rw [hjob]
  by_cases hr : remain = 0
  · exact ⟨_, hdelivered (.refl _) fun hne => absurd hr hne,
      fun hs => fate_afterSegment hs (hrem.trans hr) ..⟩
  · obtain ⟨hu, hnumber⟩ := unmoved_afterSegment (by rw [hrem]; exact hr) (e.responseId frame) first length
    refine ⟨_, hdelivered hu fun _ _ => ?_, fun hs => .of_same hs (.refl _)⟩
    rw [hnumber (by rw [hjob]; exact hj), hx hr, hjob]

theorem handledThen_receiveOpening (h : e.Serving) (hj : e.job.isVwtp = false) {total : UInt16}
    {segment : List UInt8} (first : Bool)
    (ht : ∀ payload, e.judge segment = .answer payload → e.Takes frame payload (total.toNat - segment.length))
    (hn : ∀ data left, e.Takes frame data left → ∃ payload, e.judge segment = .answer payload)
    (hx : total.toNat - segment.length ≠ 0 → first = true ∧ e.nextAfter frame = 1) :
    HandledThen e frame (e.receiveOpening (e.responseId frame) total segment first) := by
  unfold receiveOpening
  rcases hv : e.judge segment with payload | code | _
  · rw [← toNat_lessLength] at ht hx
    refine handledThen_deliverSegment hj (ht payload hv) first _ fun hr => ?_
    obtain ⟨rfl, hnext⟩ := hx fun h0 => hr (UInt16.toNat_inj.1 h0)
    exact hnext
  · have hno : e.Ignores frame := fun _ data left ht => by
      obtain ⟨payload, ha⟩ := hn data left ht
      rw [hv] at ha
      cases ha
    dsimp only
    split
    · exact .of_fate (.of_same h ((Same.refl e).update ..)) hno
    · have hdone : Same e { e with
          job := PollJob.resetMultiframe { e.job with received := e.responseId frame } } :=
        .of_done ((Works.refl e).update ..) rfl (not_expectsMore rfl rfl)
      have hfate := (Fate.of_same h hdone).trans
        (@Fate.deliverFailure _ (h.same hdone) (.negative code) (by simp))
      refine ⟨_, .fate hfate hno, fun hs => fate_afterSegment hs ?_ ..⟩
      rw [(Delivers.deliverFailure ..).job]
      rfl
  · refine .of_fate (.of_same h (.refl e)) fun _ data left ht => ?_
    obtain ⟨payload, ha⟩ := hn data left ht
    rw [hv] at ha
    cases ha

theorem handledThen_receiveConsecutive (h : e.Serving) (hc : e.isChannelFrame frame = false)
    (hj : e.job.isVwtp = false) {index : UInt8} {data : List UInt8}
    (hf : e.HasSegment frame (.consecutive index data)) :
    HandledThen e frame (e.receiveConsecutive (e.responseId frame) index data) := by
  unfold receiveConsecutive
  by_cases hbad : (!e.isNumberOk index) = true
  · rw [if_pos hbad]
    refine .of_fate (.of_same h (.rejectResponse e)) fun _ _ _ ht => ?_
    obtain ⟨_, hf', htake⟩ := ht.aside hc
    cases hf.read.symm.trans hf'.read
    rw [show e.isNumberOk index = true from htake] at hbad
    cases hbad
  · rw [if_neg hbad]
    refine handledThen_deliverSegment hj ?_ false _ fun _ => ?_
    · rw [toNat_lessLength]
      exact .more (.consecutive hf (by simpa using hbad))
    · have hone : (1 : UInt16).toNat = 1 := rfl
      simp only [nextAfter, hc, hf.read, nextNumber_isoTp hj, Bool.false_eq_true, if_false, UInt16.toNat_add, hone]
      omega

theorem handledThen_receiveIsoTp (h : e.Serving) (hc : e.isChannelFrame frame = false)
    (hseg : ∀ segment, Segment.ofBytes? (e.job.protocol.isoTpData frame) = some segment →
      e.HasSegment frame segment) (hj : e.job.isVwtp = false) :
    HandledThen e frame (e.receiveIsoTp frame (e.responseId frame)) := by
  unfold receiveIsoTp
  cases hread : Segment.ofBytes? (e.job.protocol.isoTpData frame) with
  | none =>
    refine .of_fate (.of_same h (.refl e)) fun _ data left ht => ?_
    obtain ⟨_, hf, -⟩ := ht.aside hc
    cases hread.symm.trans hf.read
  | some segment =>
    cases segment with
    | flow =>
      refine .of_fate (.of_same h (.isoTpFlow e ..)) fun _ data left ht => ?_
      obtain ⟨_, hf, htake⟩ := ht.aside hc
      cases hread.symm.trans hf.read
      exact htake
    | single data =>
      have hf := hseg _ hread
      have hzero : (UInt16.ofNat data.length).toNat - data.length = 0 := by
        rw [UInt16.toNat_ofNat']
        have := Nat.mod_le data.length (2 ^ 16)
        omega
      refine handledThen_receiveOpening h hj false (fun payload hv => ?_) (fun _ _ ht => ?_)
        fun hne => absurd hzero hne
      · rw [hzero, ← Nat.sub_self data.length]
        exact .opening (.single hf) hv
      · obtain ⟨_, hf, htake⟩ := ht.aside hc
        cases hread.symm.trans hf.read
        exact htake
    | first total data =>
      refine handledThen_receiveOpening h hj true (fun payload hv => .opening (.first (hseg _ hread)) hv)
        (fun _ _ ht => ?_) fun _ => ⟨rfl, ?_⟩
      · obtain ⟨_, hf, htake⟩ := ht.aside hc
        cases hread.symm.trans hf.read
        exact htake
      · simp [nextAfter, hc, hread]
    | consecutive index data => exact handledThen_receiveConsecutive h hc hj (hseg _ hread)

theorem handledThen_receiveOther (h : e.Serving) (hb : frame.bus = e.bus) (hc : e.isChannelFrame frame = false) :
    HandledThen e frame (e.receiveOther frame) := by
  unfold receiveOther
  by_cases hcond : (!e.job.isVwtp && 0 < e.wait && e.job.entry.isSome && e.job.accepts (e.responseId frame)) = true
  · rw [if_pos hcond]
    simp only [Bool.and_eq_true, Bool.not_eq_true', decide_eq_true_eq] at hcond
    obtain ⟨⟨⟨hj, hw⟩, -⟩, hacc⟩ := hcond
    exact handledThen_receiveIsoTp h hc (fun _ hread => ⟨hb, hc, hj, hw, hacc, hread⟩) hj
  · rw [if_neg hcond]
    refine .of_fate (.of_same h (.refl e)) fun hsome data left ht => hcond ?_
    obtain ⟨capture, hs⟩ := Option.ne_none_iff_exists'.1 hsome
    have hentry : e.job.entry = some capture.request.entry := congrArg (·.1) (h.asks capture hs)
    obtain ⟨_, hf, -⟩ := ht.aside hc
    simp [hf.isoTp, hf.wait_pos, hf.accepted, hentry]

/-! ### On the channel -/

theorem ignores_of_state (hc : e.isChannelFrame frame = true) (hs : e.channel.state ≠ .receive) :
    e.Ignores frame := fun _ _ _ ht => hs (ht.onChannel hc).1.state_eq

theorem handled_gone (h : e.Serving) (hs : Same e e')
    (hf : e.Rejects frame ∨ e.job.isVwtp = true ∧ e.Disconnects frame) (hn : e.Ignores frame) :
    Handled e frame (e'.deliverFailure .channelClosed) := by
  unfold deliverFailure
  cases hc : e'.single with
  | none => exact .fate ((Fate.of_same h hs).trans (.emit (h.same hs) rfl)) hn
  | some capture =>
    have hlog : Adds (OnlyAnswers capture.request.ticket capture.response) e e' :=
      hs.log.mono fun _ hev => onlyAnswers_of_isSingle hev _ _
    refine .lost (hs.single ▸ hc) hf (single_finishSingle ..) ?_ (hlog.trans (onlyAnswers_finishSingle hc _))
    rw [(Delivers.finishSingle ..).queued]
    exact hs.queued

theorem handled_peerClose (h : e.Serving) (hd : e.Disconnects frame) (hn : e.Ignores frame) :
    Handled e frame e.peerClose := by
  have hs := (Same.requestClose e).trans (.shutChannel _)
  unfold peerClose
  dsimp only
  by_cases hon : e.requestClose.shutChannel.isOnChannel = true
  · rw [if_pos hon]
    have hj : e.requestClose.shutChannel.job.isVwtp = true := by simp_all [isOnChannel]
    exact handled_gone h hs (.inr ⟨hs.isVwtp ▸ hj, hd⟩) hn
  · rw [if_neg hon]
    exact .of_same h hs hn

theorem handled_receiveSetup (h : e.Serving) (hb : frame.bus = e.bus) (hc : e.isChannelFrame frame = true)
    (hs : e.channel.state = .setup) : Handled e frame (e.receiveSetup (min frame.dlc 8) frame.data).2 := by
  have hn : e.Ignores frame := ignores_of_state hc (by rw [hs]; decide)
  unfold receiveSetup
  by_cases hl : min frame.dlc 8 ≠ 7 ∨ frame.data[1] < Opcode.setupAccept ∨ Opcode.setupRejectMax < frame.data[1]
  · rw [if_pos hl]
    exact .of_same h (.refl e) hn
  · rw [if_neg hl]
    simp only [not_or, Decidable.not_not, UInt8.not_lt] at hl
    by_cases hne : frame.data[1] ≠ Opcode.setupAccept
    · rw [if_pos hne]
      refine handled_gone h (.loseChannel e) (.inl ⟨hb, hc, hs, by omega, ?_, ?_⟩) hn
      · rw [getD_one]
        exact UInt8.lt_of_le_of_ne hl.2.1 (Ne.symm hne)
      · rw [getD_one]
        exact hl.2.2
    · rw [if_neg hne]
      have hids (rxId txId : UInt32) : Same e { e with channel := { e.channel with rxId, txId } } :=
        .of_place ((Works.refl e).update ..) rfl fun h => ⟨h, rfl⟩
      exact .of_same h ((hids ..).trans (.requestParams _)) hn

theorem handled_receiveParams (h : e.Serving) (hb : frame.bus = e.bus) (hc : e.isChannelFrame frame = true)
    (hs : e.channel.state = .params) : Handled e frame (e.receiveParams (min frame.dlc 8) frame.data).2 := by
  have hn : e.Ignores frame := ignores_of_state hc (by rw [hs]; decide)
  unfold receiveParams
  by_cases hl : min frame.dlc 8 = 0
  · rw [if_pos hl]
    exact .of_same h (.refl e) hn
  · rw [if_neg hl]
    split
    · have hagree (blockSize : UInt8) (ackTime sepTime : Nat) :
          Same e { e with channel := { e.channel with blockSize, ackTime, sepTime } } :=
        .of_place ((Works.refl e).update ..) rfl fun h => ⟨h, rfl⟩
      exact .of_same h ((hagree ..).trans (.sendRequest _)) hn
    · by_cases hd : Frame.leadByte frame.data = Opcode.disconnect
      · rw [if_pos hd]
        exact handled_peerClose h ⟨hb, hc, .inl ⟨hs, by omega⟩, hd⟩ hn
      · rw [if_neg hd]
        exact .of_same h (.refl e) hn

/-- A request without a module is answered once the channel is closed. -/
theorem handled_receiveClosing (h : e.Serving) (hc : e.isChannelFrame frame = true)
    (hs : e.channel.state = .closing) (length : Nat) (d : Vector UInt8 8) :
    Handled e frame (e.receiveClosing length d).2 := by
  have hn : e.Ignores frame := ignores_of_state hc (by rw [hs]; decide)
  have hshut := Same.shutChannel e
  have hserving := h.same hshut
  unfold receiveClosing
  split
  · exact .of_same h (.refl e) hn
  · dsimp only
    generalize e.shutChannel = e₁ at hshut hserving
    by_cases hon : (!e₁.isOnChannel) = true
    · rw [if_pos hon]
      exact .of_same h hshut hn
    · rw [if_neg hon]
      by_cases hrx : e₁.job.entry.any (·.rx ≠ 0) = true
      · rw [if_pos hrx]
        exact .of_same h (hshut.trans (.requestSetup _)) hn
      · rw [if_neg hrx]
        refine .fate ((Fate.of_same h hshut).trans ?_) hn
        unfold deliverFailure
        cases hcapture : e₁.single with
        | none => exact .emit hserving rfl
        | some capture =>
          have hasks := hserving.asks capture hcapture
          have hentry : e₁.job.entry = some capture.request.entry := congrArg (·.1) hasks
          have hcloses : capture.request.entry.ClosesOnly := by
            refine ⟨?_, by simpa [hentry] using hrx⟩
            rw [← hasks.protocol]
            exact eq_of_beq (by simp_all [isOnChannel, PollJob.isVwtp])
          exact .answer hcapture hcloses (hserving.nothing capture hcapture hcloses)

theorem handled_receiveIdle (h : e.Serving) (hb : frame.bus = e.bus) (hc : e.isChannelFrame frame = true)
    (hs : e.channel.state = .idle) : Handled e frame (e.receiveIdle (Frame.leadByte frame.data)) := by
  have hn : e.Ignores frame := ignores_of_state hc (by rw [hs]; decide)
  unfold receiveIdle
  split
  · exact .of_same h (.sendPong e) hn
  · by_cases hd : Frame.leadByte frame.data = Opcode.disconnect
    · rw [if_pos hd]
      exact handled_peerClose h ⟨hb, hc, .inr (.inr (.inl hs)), hd⟩ hn
    · rw [if_neg hd]
      split
      · exact .of_same h (.refuseData (by rw [hs]; rfl)) hn
      · exact .of_same h (.refl e) hn

theorem handled_receiveAck (h : e.Serving) (hb : frame.bus = e.bus) (hc : e.isChannelFrame frame = true)
    (hs : e.channel.state = .transmit) {opcode : UInt8} (hop : opcode = Opcode.disconnect →
      frame.dlc = 1 ∧ Frame.leadByte frame.data = Opcode.disconnect) :
    Handled e frame (e.receiveAck opcode) := by
  have hn : e.Ignores frame := ignores_of_state hc (by rw [hs]; decide)
  have ht : e.channel.state.isTransfer = true := by rw [hs]; rfl
  have hclear : Same e { e with out := e.out.clear } := (Same.refl e).update ..
  unfold receiveAck
  split
  · split
    · exact .of_same h (.sendBlock ht) hn
    · exact .of_same h (.awaitResponse ht) hn
  · split
    · exact .of_same h (hclear.trans (.goIdle _)) hn
    · split
      · exact .of_same h (.sendPong e) hn
      · by_cases hd : opcode = Opcode.disconnect
        · rw [if_pos hd]
          obtain ⟨hl, hd⟩ := hop hd
          exact handled_peerClose h ⟨hb, hc, .inr (.inl ⟨hs, hl⟩), hd⟩ hn
        · rw [if_neg hd]
          exact .of_same h (.refl e) hn

/-! ### Data on the channel -/

theorem toNat_nibble (b : UInt8) : (b &&& 0x0f).toNat = b.toNat % 16 := by
  rw [UInt8.toNat_and]
  exact Nat.and_two_pow_sub_one_eq_mod _ 4

theorem Works.acknowledge (h : Works e e') (opcode : UInt8) : Works e (e'.acknowledge opcode) := by
  unfold Engine.acknowledge
  split
  · exact h.sendAck
  · exact h

theorem job_acknowledge (e : Engine) (opcode : UInt8) : (e.acknowledge opcode).job = e.job := by
  unfold Engine.acknowledge
  split
  · unfold sendAck
    rw [transmit_eq]
  · rfl

theorem handled_deliverData {e₀ : Engine} (hw : Works e e₀) (ha : e₀.job.asked = e.job.asked)
    (hseq : e₀.channel.rxSeq = e.channel.rxSeq + 1) (hf : e.HasData frame) {segment payload : List UInt8}
    (ht : e.Takes frame payload (e₀.job.mlRemain.toNat - segment.length)) (opcode : UInt8) :
    Handled e frame (e₀.deliverData opcode segment payload) := by
  have hc := hf.onChannel
  have hack := hw.acknowledge opcode
  have hjob := job_acknowledge e₀ opcode
  have hchannel := channel_acknowledge e₀ opcode
  unfold deliverData deliverSegment
  dsimp only
  generalize e₀.acknowledge opcode = e₁ at hack hjob hchannel
  refine handled_deliver ht ?_ ?_ ?_ ?_ (fun hc' => ?_) ?_ (unmoved_afterData ..) fun _ hv => ?_
  · exact hack.single
  · exact hack.queued
  · exact (congrArg PollJob.asked hjob).trans ha
  · rw [← toNat_lessLength, ← hjob]
  · rw [hc] at hc'
    cases hc'
  · exact (hack.log.mono fun event hev => by cases event <;> first | rfl | exact hev.elim).trans (.of_log rfl)
  · have hasked : e₁.job.asked = e.job.asked := (congrArg PollJob.asked hjob).trans ha
    have hnumber : (e.channel.rxSeq + 1).toNat % 16 = ((e.channel.rxSeq &&& 0x0f).toNat + 1) % 16 := by
      rw [toNat_nibble, UInt8.toNat_add]
      show (e.channel.rxSeq.toNat + 1) % 256 % 16 = _
      omega
    rw [nextNumber_vwtp, nextAfter, if_pos hc, hf.number_eq, ← hnumber]
    · rw [rxSeq_afterData, (Delivers.deliverReply ..).channel, hchannel, hseq]
    · rw [isVwtp_of_asked (unmoved_afterData ..).asked, (Delivers.deliverReply ..).job]
      exact (isVwtp_of_asked hasked).trans (hv.symm.trans hc)

theorem handled_receiveFirstData (h : e.Serving) (hf : e.HasData frame) (hm : e.job.mlFrame = 0) :
    Handled e frame (e.countData.receiveFirstData (Frame.leadByte frame.data) (announced frame)
      (frame.payload.drop 3)).2 := by
  have hc := hf.onChannel
  have hw : Works e { e.countData with job := { e.countData.job with mlRemain := announced frame } } :=
    (Works.refl e).update ..
  unfold receiveFirstData
  dsimp only
  have hjudge : Engine.judge { e.countData with job := { e.countData.job with mlRemain := announced frame } }
      (frame.payload.drop 3) = e.judge (frame.payload.drop 3) := rfl
  rw [hjudge]
  rcases hv : e.judge (frame.payload.drop 3) with payload | code | _
  · exact handled_deliverData hw rfl rfl hf (.opening (.data hf hm) hv) _
  · have hn : e.Ignores frame := fun _ _ _ ht => by
      obtain ⟨payload, ha⟩ := (ht.onChannel hc).2 hm
      rw [hv] at ha
      cases ha
    have hack := hw.acknowledge (Frame.leadByte frame.data)
    have hjob : (Engine.acknowledge { e.countData with job := { e.countData.job with mlRemain := announced frame } }
        (Frame.leadByte frame.data)).job = { e.job with mlRemain := announced frame } := job_acknowledge ..
    dsimp only
    generalize Engine.acknowledge _ _ = e₁ at hack hjob ⊢
    have hasked : e₁.job.asked = e.job.asked := by rw [hjob]; rfl
    have hframe : e₁.job.mlFrame = 0 := by rw [hjob]; exact hm
    split
    · exact .of_same h (.of_done (hack.update ..) hasked (not_expectsMore rfl rfl)) hn
    · have hdone : Same e { e₁ with job := { e₁.job with received := e₁.job.sent, mlRemain := 0 } } :=
        .of_done (hack.update ..) hasked (not_expectsMore hframe rfl)
      have hfate := (Fate.of_same h hdone).trans
        (@Fate.deliverFailure _ (h.same hdone) (.negative code) (by simp))
      exact .fate (hfate.trans (.of_same hfate.serving (.goIdle _))) hn
  · refine .of_same h (.of_done hw.abortTransfer (asked_abortTransfer _) (not_more_abortTransfer _)) ?_
    intro _ _ _ ht
    obtain ⟨payload, ha⟩ := (ht.onChannel hc).2 hm
    rw [hv] at ha
    cases ha

theorem handled_receiveResponse (h : e.Serving) (hb : frame.bus = e.bus) (hc : e.isChannelFrame frame = true)
    (hs : e.channel.state = .receive) :
    Handled e frame (e.receiveResponse (Frame.leadByte frame.data) frame.payload).2 := by
  have hn (hop : ¬ Frame.leadByte frame.data < 0x40) : e.Ignores frame := fun _ _ _ ht =>
    hop (ht.onChannel hc).1.opcode_lt
  unfold receiveResponse
  by_cases hd : Frame.leadByte frame.data = Opcode.ping
  · rw [if_pos hd]
    exact .of_same h (.sendPong e) (hn (by rw [hd]; decide))
  · rw [if_neg hd]
    by_cases hd : Frame.leadByte frame.data = Opcode.disconnect
    · rw [if_pos hd]
      exact handled_peerClose h ⟨hb, hc, .inr (.inr (.inr hs)), hd⟩ (hn (by rw [hd]; decide))
    · rw [if_neg hd]
      by_cases hop : Frame.leadByte frame.data < 0x40
      · rw [if_pos hop]
        unfold receiveData
        by_cases hseq : Frame.leadByte frame.data &&& 0x0f ≠ e.channel.rxSeq &&& 0x0f
        · rw [if_pos hseq]
          have hw : Works e e.countData := (Works.refl e).update ..
          exact .of_same h (.of_done hw.abortTransfer (asked_abortTransfer _) (not_more_abortTransfer _))
            fun _ _ _ ht => hseq (ht.onChannel hc).1.number_eq
        · rw [if_neg hseq]
          have hf : e.HasData frame := ⟨hb, hc, hs, hop, Decidable.not_not.1 hseq⟩
          by_cases hm : e.job.mlFrame ≠ 0
          · rw [if_pos hm]
            have hw : Works e e.countData := (Works.refl e).update ..
            exact handled_deliverData hw rfl rfl hf (.more (.data hf hm)) _
          · rw [if_neg hm]
            exact handled_receiveFirstData h hf (Decidable.not_not.1 hm)
      · rw [if_neg hop]
        exact .of_same h (.refl e) (hn hop)

theorem handled_channelStep (h : e.Serving) (hb : frame.bus = e.bus) (hc : e.isChannelFrame frame = true) :
    Handled e frame (e.channelStep frame).2 := by
  have hn (hs : e.channel.state ≠ .receive) : Handled e frame e := .of_same h (.refl e) (ignores_of_state hc hs)
  unfold channelStep
  dsimp only
  cases hs : e.channel.state with
  | setup => exact handled_receiveSetup h hb hc hs
  | params => exact handled_receiveParams h hb hc hs
  | closing => exact handled_receiveClosing h hc hs ..
  | idle => exact handled_receiveIdle h hb hc hs
  | transmit =>
    refine handled_receiveAck h hb hc hs fun hd => ?_
    split at hd
    · exact ⟨by omega, hd⟩
    · exact absurd hd (by decide)
  | receive => exact handled_receiveResponse h hb hc hs
  | closed | startPoll | abort => exact hn (by rw [hs]; decide)

end Engine

end EcuPoll
