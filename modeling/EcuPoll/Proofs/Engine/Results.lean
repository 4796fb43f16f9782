import EcuPoll.Proofs.Engine.Parts
import Mathlib.Data.List.Induction

/-!
# What a single request is answered with

`Gathers` says that the frames taken since a request began are those of one response to it, and `Answered` that
it was answered with the whole of that, or with nothing because its own channel went away. The engine does not
keep it so at all costs: `Mishap` lists the frames that bring a request a part of something else, or an end that is
not its own. Unless one of them comes in while the request has the bus, its answer is right:
`answers_right`.
-/

namespace EcuPoll

namespace PollEntry

/-- The id may answer the request. -/
def Responds (entry : PollEntry) (id : UInt32) : Prop :=
  entry.responders.1 ≤ id ∧ id ≤ entry.responders.2

def answerHeader (entry : PollEntry) : List UInt8 :=
  responseHeader entry.service entry.pid

/-- The number of a frame that begins a response to the request. -/
def firstNumber (entry : PollEntry) (frame : Frame) : Nat :=
  if entry.protocol = .vwtp20 then (Frame.leadByte frame.data &&& 0x0f).toNat else 0

end PollEntry

namespace Engine
variable {e e' e'' e₀ start : Engine} {frame : Frame} {capture : Capture} {request : SingleRequest}
  {ops before after : List Operation} {starter op : Operation} {bus : BusId} {stray : Prop}

/-! ### One response -/

/-- The bytes of a segment in this frame that have come in. -/
def arrived (e : Engine) (frame : Frame) : Nat :=
  frame.payload.length - (8 - e.job.protocol.isoTpRoom)

/-- The frame says that it holds more of a response than has come in. -/
inductive Short (e : Engine) (frame : Frame) : Prop
  | single {data : List UInt8} (hf : e.HasSegment frame (.single data))
    (hs : e.arrived frame < 1 + ((e.job.protocol.isoTpData frame).headD 0 &&& 0x0f).toNat)
  | first {total : UInt16} {data : List UInt8} (hf : e.HasSegment frame (.first total data))
    (hs : e.arrived frame < 2 + data.length)
  | consecutive {index : UInt8} {data : List UInt8} (hf : e.HasSegment frame (.consecutive index data))
    (hs : e.arrived frame < 1 + (data.take e.job.mlRemain.toNat).length)

/-- The frame comes from a sender that the request may be answered by: a module with one of its ids, or its own
module on the channel. -/
inductive IsFrom (e : Engine) (entry : PollEntry) (frame : Frame) (sender : UInt32) : Prop
  | responder (hp : entry.protocol ≠ .vwtp20) (hc : e.isChannelFrame frame = false)
    (hs : entry.protocol.isoTpSender frame = sender) (hr : entry.Responds sender)
  | module (hp : entry.protocol = .vwtp20) (hc : e.isChannelFrame frame = true)
    (hf : e.channel.isFor entry.tx entry.rx = true) (hs : sender = entry.rx)

/-- A response to the request may go on with this frame when the number `next` is due. A lenient engine also takes
lower numbers over ISO-TP. -/
def InOrder (e : Engine) (entry : PollEntry) (frame : Frame) (next : Nat) : Prop :=
  if entry.protocol = .vwtp20 then (Frame.leadByte frame.data &&& 0x0f).toNat = next
  else ∃ index data, Segment.ofBytes? (entry.protocol.isoTpData frame) = some (.consecutive index data) ∧
    (index.toNat = next ∨ e.policy = .lenient ∧ index.toNat ≤ next)

/-- Of all that was taken for a response since `e₀`, the last is one message from `sender`, of `total` bytes. So
far these bytes of it have come in, in frames that count modulo 16, and the number `next` is due. -/
inductive Gathers (e₀ : Engine) (entry : PollEntry) (sender : UInt32) (total : Nat) :
    List Operation → Nat → List UInt8 → Prop
  | opens {ops : List Operation} {frame : Frame} {segment : List UInt8}
    (hf : (e₀.run ops).IsFrom entry frame sender) (ho : (e₀.run ops).Opens frame total segment)
    (hs : ¬ (e₀.run ops).Short frame) :
    Gathers e₀ entry sender total (ops ++ [.frame frame]) ((entry.firstNumber frame + 1) % 16) segment
  | goesOn {ops : List Operation} {next : Nat} {message : List UInt8} {frame : Frame} {data : List UInt8}
    (h : Gathers e₀ entry sender total ops next message) (hf : (e₀.run ops).IsFrom entry frame sender)
    (hg : (e₀.run ops).GoesOn frame data) (hn : (e₀.run ops).InOrder entry frame next)
    (hs : ¬ (e₀.run ops).Short frame) :
    Gathers e₀ entry sender total (ops ++ [.frame frame]) ((next + 1) % 16) (message ++ data)
  | waits {ops : List Operation} {next : Nat} {message : List UInt8}
    (h : Gathers e₀ entry sender total ops next message) (op : Operation)
    (hn : ∀ frame, op = .frame frame → ∀ data left, ¬ (e₀.run ops).Takes frame data left) :
    Gathers e₀ entry sender total (ops ++ [op]) next message

/-- The request, which has had the bus since `e₀`, is answered rightly. -/
inductive Answered (e₀ : Engine) (entry : PollEntry) (ops : List Operation) (data : List UInt8) : Prop
  /-- All of one response to its own service and PID has come in. -/
  | response {sender : UInt32} {total next : Nat}
    (h : Gathers e₀ entry sender total ops next (entry.answerHeader ++ data))
    (hl : entry.answerHeader.length + data.length = total)
  /-- The channel to its own module was turned down or closed. -/
  | lost {before : List Operation} {frame : Frame} (h : ops = before ++ [.frame frame])
    (hp : entry.protocol = .vwtp20)
    (hf : (e₀.run before).Rejects frame ∨ (e₀.run before).Disconnects frame)
    (hc : (e₀.run before).channel.isFor entry.tx entry.rx = true) (hd : data = [])

/-- The frame does harm to the single request that has the bus. -/
inductive Mishap (e : Engine) (capture : Capture) (frame : Frame) : Prop
  /-- Data on the channel is taken for a response to a request over ISO-TP. -/
  | crossed {data : List UInt8} {left : Nat} (hj : e.job.isVwtp = false) (hc : e.isChannelFrame frame = true)
    (ht : e.Takes frame data left)
  /-- A channel that the request has no part in is turned down. -/
  | turnedDown (hj : e.job.isVwtp = false) (hr : e.Rejects frame)
  /-- The channel goes away in the middle of the response. -/
  | cut (hj : e.job.isVwtp = true) (hf : e.Rejects frame ∨ e.Disconnects frame) (hr : capture.response ≠ [])
  /-- A response begins when a part of another has come in. -/
  | again {total : Nat} {segment payload : List UInt8} (ho : e.Opens frame total segment)
    (hj : e.judge segment = .answer payload) (hr : capture.response ≠ [])
  /-- A part of a response comes from an id that is none of those that may answer. -/
  | foreign {data : List UInt8} {left : Nat} (hc : e.isChannelFrame frame = false) (ht : e.Takes frame data left)
    (hs : ¬ capture.request.entry.Responds (e.responseId frame))
  /-- The response goes on with a frame from another module. -/
  | mixed {data : List UInt8} (hc : e.isChannelFrame frame = false) (hg : e.GoesOn frame data)
    (hs : e.responseId frame ≠ e.job.received)
  /-- The response begins with more than it announces. -/
  | overfull {total : Nat} {segment payload : List UInt8} (ho : e.Opens frame total segment)
    (hj : e.judge segment = .answer payload) (hl : total < segment.length)
  /-- The response goes on with more than is to come. -/
  | beyond {data : List UInt8} (hg : e.GoesOn frame data) (hl : e.job.mlRemain.toNat < data.length)
  | short {data : List UInt8} {left : Nat} (ht : e.Takes frame data left) (hs : e.Short frame)

/-- No frame of the run does harm to the single request that has the bus then. -/
def Unharmed (e₀ : Engine) (ops : List Operation) : Prop :=
  ∀ earlier frame later capture, ops = earlier ++ .frame frame :: later →
    (e₀.run earlier).single = some capture → ¬ (e₀.run earlier).Mishap capture frame

theorem Unharmed.of_concat (h : e₀.Unharmed (ops ++ [op])) : e₀.Unharmed ops :=
  fun earlier frame later capture heq =>
    h earlier frame (later ++ [op]) capture (by rw [heq, List.append_assoc, List.cons_append])

theorem Unharmed.last (h : e₀.Unharmed (ops ++ [.frame frame])) (hc : (e₀.run ops).single = some capture) :
    ¬ (e₀.run ops).Mishap capture frame :=
  h ops frame [] capture rfl hc

/-- Who answers the request with this frame. -/
def sender (e : Engine) (entry : PollEntry) (frame : Frame) : UInt32 :=
  if e.job.isVwtp then entry.rx else e.responseId frame

/-- A part of the response to the request that has the bus has come in, and nothing else. -/
def Halfway (e₀ : Engine) (ops : List Operation) (e : Engine) (capture : Capture) : Prop :=
  ∃ sender total,
    Gathers e₀ capture.request.entry sender total ops e.nextNumber
      (capture.request.entry.answerHeader ++ capture.response) ∧
    capture.request.entry.answerHeader.length +
      capture.response.length + e.job.mlRemain.toNat = total ∧
    sender = if e.job.isVwtp then capture.request.entry.rx else e.job.received

/-! ### Taking a part -/

/-- Unless it does harm, a part of the response comes in over the transport of the poll. -/
theorem Takes.isChannelFrame_eq {data : List UInt8} {left : Nat} (ht : e.Takes frame data left)
    (hm : ¬ e.Mishap capture frame) : e.isChannelFrame frame = e.job.isVwtp := by
  cases hc : e.isChannelFrame frame with
  | true =>
    by_contra hj
    exact hm (.crossed (by simpa using Ne.symm hj) hc ht)
  | false =>
    obtain ⟨_, hf, -⟩ := ht.aside hc
    exact hf.isoTp.symm

theorem isFrom_takes {data : List UInt8} {left : Nat} (hr : Routes bus stray e) (h : e.Serving)
    (hc : e.single = some capture) (hm : ¬ e.Mishap capture frame) (ht : e.Takes frame data left) :
    e.IsFrom capture.request.entry frame (e.sender capture.request.entry frame) := by
  have hasks := h.asks capture hc
  have hv := isVwtp_iff hasks.protocol
  have hx := ht.isChannelFrame_eq hm
  unfold sender
  by_cases hj : e.job.isVwtp = true
  · rw [if_pos hj]
    have hlive : e.channel.state.isLive = true := by
      rw [(ht.onChannel (hx.trans hj)).1.state_eq]
      rfl
    exact .module (hv.1 hj) (hx.trans hj) (hr.module _ (congrArg (·.1) hasks) (hv.1 hj) hlive) rfl
  · rw [if_neg hj]
    have hchannel : e.isChannelFrame frame = false := hx.trans (by simpa using hj)
    refine .responder (fun hp => hj (hv.2 hp)) hchannel ?_ ?_
    · rw [responseId, hasks.protocol]
    · by_contra hs
      exact hm (.foreign hchannel ht hs)

theorem nextAfter_opens {entry : PollEntry} (hp : e.job.protocol = entry.protocol)
    (hx : e.isChannelFrame frame = e.job.isVwtp) {total : Nat} {segment : List UInt8}
    (ho : e.Opens frame total segment) : e.nextAfter frame = (entry.firstNumber frame + 1) % 16 := by
  have hv := isVwtp_iff hp
  unfold nextAfter PollEntry.firstNumber
  cases ho with
  | single hf | first hf =>
    have hne : entry.protocol ≠ .vwtp20 := fun heq => by
      have := hf.isoTp
      rw [hv.2 heq] at this
      cases this
    simp [hf.aside, hf.read, hne]
  | data hf => simp [hf.onChannel, hv.1 (hx.symm.trans hf.onChannel)]

theorem number_of_isNumberOk {index : UInt8} (hj : e.job.isVwtp = false) (h : e.isNumberOk index = true) :
    index.toNat = e.nextNumber ∨ e.policy = .lenient ∧ index.toNat ≤ e.nextNumber := by
  have hexpected : ((e.job.mlFrame &&& 0x0f).toUInt8).toNat = e.nextNumber := by
    have hlow := Segment.low_ofNat e.job.mlFrame.toNat
    rw [UInt16.ofNat_toNat] at hlow
    rw [hlow, UInt8.toNat_ofNat', nextNumber_isoTp hj]
    omega
  unfold isNumberOk at h
  rw [Bool.and_eq_true] at h
  obtain ⟨-, h⟩ := h
  rw [← hexpected]
  cases hp : e.policy with
  | lenient =>
    rw [hp] at h
    exact .inr ⟨rfl, UInt8.le_iff_toNat_le.1 (of_decide_eq_true h)⟩
  | strict =>
    rw [hp] at h
    exact .inl (congrArg UInt8.toNat (eq_of_beq h))

theorem inOrder_goesOn {entry : PollEntry} (hp : e.job.protocol = entry.protocol)
    (hx : e.isChannelFrame frame = e.job.isVwtp) {data : List UInt8} (hg : e.GoesOn frame data) :
    e.ExpectsMore ∧ e.InOrder entry frame e.nextNumber ∧ e.nextAfter frame = (e.nextNumber + 1) % 16 := by
  have hv := isVwtp_iff hp
  unfold nextAfter InOrder
  cases hg with
  | consecutive hf hn =>
    have hne : entry.protocol ≠ .vwtp20 := fun heq => by
      have := hf.isoTp
      rw [hv.2 heq] at this
      cases this
    rw [expectsMore_isoTp hf.isoTp, if_neg hne, ← hp]
    refine ⟨?_, ⟨_, _, hf.read, number_of_isNumberOk hf.isoTp hn⟩, by simp [hf.aside, hf.read]⟩
    simp only [isNumberOk, Bool.and_eq_true, bne_iff_ne] at hn
    exact hn.1
  | data hf hframe =>
    have hj := hx.symm.trans hf.onChannel
    rw [expectsMore_vwtp hj, if_pos hf.onChannel, if_pos (hv.1 hj), nextNumber_vwtp hj, hf.number_eq, toNat_nibble]
    exact ⟨⟨by rw [hf.state_eq]; rfl, hframe⟩, rfl, rfl⟩

/-- What is taken belongs to one response to the request. -/
theorem gathers_takes {payload : List UInt8} {left : Nat} (hr : Routes bus stray (e₀.run ops))
    (h : (e₀.run ops).Serving) (hc : (e₀.run ops).single = some capture)
    (hm : ¬ (e₀.run ops).Mishap capture frame)
    (hp : (e₀.run ops).ExpectsMore → e₀.Halfway ops (e₀.run ops) capture)
    (ht : (e₀.run ops).Takes frame payload left) :
    ∃ total, Gathers e₀ capture.request.entry ((e₀.run ops).sender capture.request.entry frame) total
        (ops ++ [.frame frame]) ((e₀.run ops).nextAfter frame)
        (capture.request.entry.answerHeader ++ (capture.response ++ payload)) ∧
      capture.request.entry.answerHeader.length + (capture.response ++ payload).length + left = total := by
  have hfrom := isFrom_takes hr h hc hm ht
  have hshort : ¬ (e₀.run ops).Short frame := fun hs => hm (.short ht hs)
  have hasks := h.asks capture hc
  have hx := ht.isChannelFrame_eq hm
  cases ht with
  | @opening total segment payload ho hj =>
    have hnil : capture.response = [] := by
      by_contra hresponse
      exact hm (.again ho hj hresponse)
    have hle : segment.length ≤ total := by
      by_contra hl
      exact hm (.overfull ho hj (by omega))
    have hseg : segment = capture.request.entry.answerHeader ++ payload := by
      rw [eq_of_judge_answer hj, hasks.service, hasks.pid]
      rfl
    rw [hnil, List.nil_append, ← List.length_append, ← hseg, nextAfter_opens hasks.protocol hx ho]
    exact ⟨total, .opens hfrom ho hshort, by omega⟩
  | more hg =>
    obtain ⟨hmore, horder, hnext⟩ := inOrder_goesOn hasks.protocol hx hg
    have hle : payload.length ≤ (e₀.run ops).job.mlRemain.toNat := by
      by_contra hl
      exact hm (.beyond hg (by omega))
    obtain ⟨sender, total, hgathers, htotal, hsender⟩ := hp hmore
    have hsame : sender = (e₀.run ops).sender capture.request.entry frame := by
      rw [hsender]
      unfold Engine.sender
      by_cases hj : (e₀.run ops).job.isVwtp = true
      · rw [if_pos hj, if_pos hj]
      · rw [if_neg hj, if_neg hj]
        by_contra hs
        exact hm (.mixed (hx.trans (by simpa using hj)) hg (Ne.symm hs))
    rw [← hsame] at hfrom ⊢
    rw [← List.append_assoc, hnext]
    refine ⟨total, .goesOn hgathers hfrom hg horder hshort, ?_⟩
    rw [List.length_append]
    omega

/-! ### Runs -/

/-- Within the run `starter` has given the bus to the request, and it has had it since. -/
structure Holds (start : Engine) (ops : List Operation) (request : SingleRequest) (before : List Operation)
    (starter : Operation) (after : List Operation) : Prop where
  split : ops = before ++ starter :: after
  started : Shows (fun event => event = .singleStarted request.ticket) (start.run before)
    (start.run (before ++ [starter]))
  held : ∀ earlier, earlier <+: after → (start.run (before ++ starter :: earlier)).captured = some request

theorem run_concat (start : Engine) (ops : List Operation) (op : Operation) :
    start.run (ops ++ [op]) = (start.run ops).step op := by
  rw [run_append]
  rfl

theorem Holds.run_eq (h : Holds start ops request before starter after) :
    (start.run (before ++ [starter])).run after = start.run ops := by
  rw [h.split, ← run_append, List.append_assoc]
  rfl

theorem Holds.concat (h : Holds start ops request before starter after)
    (hc : (start.run (ops ++ [op])).captured = some request) :
    Holds start (ops ++ [op]) request before starter (after ++ [op]) where
  split := by rw [h.split, List.append_assoc, List.cons_append]
  started := h.started
  held earlier hp := by
    rcases List.prefix_concat_iff.1 hp with rfl | hp
    · rw [h.split, List.append_assoc, List.cons_append] at hc
      exact hc
    · exact h.held earlier hp

/-- The single request that has the bus after a run has no response in progress but its own, if it is unharmed. -/
structure Traced (start : Engine) (ops : List Operation) : Prop where
  serving : (start.run ops).Serving
  single : ∀ capture, (start.run ops).single = some capture → ∃ before starter after,
    Holds start ops capture.request before starter after ∧
      ((start.run (before ++ [starter])).Unharmed after → (start.run ops).ExpectsMore →
        (start.run (before ++ [starter])).Halfway after (start.run ops) capture)

/-- A single request that is answered in the operation `op` is answered rightly. -/
def Right (start : Engine) (ops : List Operation) (op : Operation) (ticket : Nat) (data : List UInt8) : Prop :=
  ∃ request ∈ submitted (ops ++ [op]), request.ticket = ticket ∧
    (request.entry.ClosesOnly ∧ data = [] ∨ ∃ before starter after, Holds start ops request before starter after ∧
      ((start.run (before ++ [starter])).Unharmed (after ++ [op]) →
        Answered (start.run (before ++ [starter])) request.entry (after ++ [op]) data))

/-- What holds in the course of the operation `op`, at the state `e`. -/
structure Trace (start : Engine) (ops : List Operation) (op : Operation) (e : Engine) : Prop where
  serving : e.Serving
  grows : (start.run ops).log <:+ e.log
  queued : e.queued ⊆ submitted (ops ++ [op])
  known : ∀ request, e.captured = some request → request ∈ submitted (ops ++ [op])
  single : ∀ capture, e.single = some capture →
    ¬ e.ExpectsMore ∧ Shows (fun event => event = .singleStarted capture.request.ticket) (start.run ops) e ∨
    ∃ before starter after, Holds start ops capture.request before starter after ∧
      ((start.run (before ++ [starter])).Unharmed (after ++ [op]) → e.ExpectsMore →
        (start.run (before ++ [starter])).Halfway (after ++ [op]) e capture)
  answers : ∀ ticket data, Answers ticket data (start.run ops) e → Right start ops op ticket data

theorem Halfway.congr (h : e₀.Halfway ops e capture) (hj : e'.job.isVwtp = e.job.isVwtp)
    (hc : Continues e e') : e₀.Halfway ops e' capture := by
  unfold Halfway
  rw [hj, hc.mlRemain, hc.received, hc.number]
  exact h

theorem isVwtp_of_asks (h : e.Serving) (h' : e'.Serving) (hs : e'.single = e.single)
    (hc : e.single = some capture) : e'.job.isVwtp = e.job.isVwtp :=
  isVwtp_of_asked ((h'.asks capture (hs.trans hc)).trans (h.asks capture hc).symm)

namespace Trace

theorem fate (h : Trace start ops op e) (hf : Fate e e') : Trace start ops op e' where
  serving := hf.serving
  grows := h.grows.trans hf.grows
  queued := List.Subset.trans hf.queued.subset h.queued
  known request hc := by
    rcases hf.single with ⟨hs, -⟩ | hs | ⟨capture, hs, -, hst⟩
    · exact h.known request (by rwa [captured, hs] at hc)
    · rw [captured, hs] at hc
      cases hc
    · rw [captured, hs] at hc
      obtain rfl : capture.request = request := Option.some.inj hc
      exact h.queued hst.1
  single capture hc := by
    rcases hf.single with ⟨hs, hmore⟩ | hs | ⟨capture', hs, hno, hst⟩
    · have hc' := hs ▸ hc
      rcases h.single capture hc' with ⟨hno, hshow⟩ | ⟨before, starter, after, hholds, hhalf⟩
      · exact .inl ⟨fun hm => hno (hmore hm).more, hshow.grows hf.grows⟩
      · refine .inr ⟨before, starter, after, hholds, fun hu hm => ?_⟩
        exact (hhalf hu (hmore hm).more).congr (isVwtp_of_asks h.serving hf.serving hs hc') (hmore hm)
    · rw [hs] at hc
      cases hc
    · obtain rfl : capture' = capture := Option.some.inj (hs.symm.trans hc)
      exact .inl ⟨hno, hst.2.of_grows h.grows⟩
  answers ticket data ha := by
    rcases ha.split h.grows hf.grows with ha | ha
    · exact h.answers ticket data ha
    · obtain ⟨hd, request, ht, hcloses, ho⟩ := hf.answers ticket data ha
      refine ⟨request, ?_, ht, .inl ⟨hcloses, hd⟩⟩
      rcases ho with ho | ho
      · exact h.known request ho
      · exact h.queued ho.1

theorem traced (h : Trace start ops op (start.run (ops ++ [op]))) : Traced start (ops ++ [op]) where
  serving := h.serving
  single capture hc := by
    have hcaptured : (start.run (ops ++ [op])).captured = some capture.request := by rw [captured, hc]; rfl
    rcases h.single capture hc with ⟨hno, hshow⟩ | ⟨before, starter, after, hholds, hhalf⟩
    · refine ⟨ops, op, [], ⟨rfl, hshow, fun earlier hp => ?_⟩, fun _ hm => absurd hm hno⟩
      rw [List.prefix_nil.1 hp]
      exact hcaptured
    · exact ⟨before, starter, after ++ [op], hholds.concat hcaptured, hhalf⟩

end Trace

theorem submitted_append (ops ops' : List Operation) : submitted (ops ++ ops') = submitted ops ++ submitted ops' :=
  List.filterMap_append

theorem submitted_frame (ops : List Operation) (frame : Frame) :
    submitted (ops ++ [.frame frame]) = submitted ops := by
  rw [submitted_append]
  exact List.append_nil _

theorem Serves.queued_subset {requests : List SingleRequest} (h : Serves requests e) : e.queued ⊆ requests := by
  obtain ⟨ended, -, hrequests⟩ := h.story
  rw [hrequests]
  exact List.subset_append_right ..

theorem Serves.mem_of_captured {requests : List SingleRequest} (h : Serves requests e)
    (hc : e.captured = some request) : request ∈ requests := by
  obtain ⟨ended, -, hrequests⟩ := h.story
  rw [hrequests, hc]
  exact List.mem_append_left _ (List.mem_append_right _ (List.mem_singleton.2 rfl))

theorem Traced.trace (h : Traced start ops) (hserves : Serves (submitted ops) (start.run ops)) (op : Operation)
    (hn : ∀ frame, op = .frame frame → (start.run ops).Ignores frame) :
    Trace start ops op { start.run ops with queued := (start.run ops).queued ++ submitted [op] } := by
  refine ⟨⟨h.serving.asks, h.serving.nothing⟩, List.suffix_refl _, ?_, fun request hc => ?_, fun capture hc => ?_,
    fun ticket data ha => ?_⟩
  · rw [submitted_append]
    exact List.append_subset.2 ⟨List.subset_append_of_subset_left _ hserves.queued_subset,
      List.subset_append_right ..⟩
  · rw [submitted_append]
    exact List.mem_append_left _ (hserves.mem_of_captured hc)
  · obtain ⟨before, starter, after, hholds, hhalf⟩ := h.single capture hc
    refine .inr ⟨before, starter, after, hholds, fun hu hm => ?_⟩
    obtain ⟨sender, total, hgathers, htotal, hsender⟩ := hhalf (Unharmed.of_concat hu) hm
    refine ⟨sender, total, .waits hgathers op fun frame hop => ?_, htotal, hsender⟩
    rw [hholds.run_eq]
    exact hn frame hop (by rw [show (start.run ops).single = some capture from hc]; nofun)
  · have hnone : Adds (fun event => event ≠ .singleResolved ticket (.ok data)) (start.run ops)
        { start.run ops with queued := (start.run ops).queued ++ submitted [op] } := .of_log rfl
    exact absurd hnone (ha.not_adds fun _ hev hno => hno hev)

/-! ### Frames -/

/-- A channel to its module is all that a request without a module could get a response on. -/
theorem not_takes_closesOnly (hr : Routes bus stray e) (howned : e.channel.Owned) (h : e.Serving)
    (hc : e.single = some capture) (hcloses : capture.request.entry.ClosesOnly) {data : List UInt8} {left : Nat} :
    ¬ e.Takes frame data left := by
  intro ht
  have hasks := h.asks capture hc
  have hj : e.job.isVwtp = true := (isVwtp_iff hasks.protocol).2 hcloses.1
  cases hchannel : e.isChannelFrame frame with
  | true =>
    have hlive : e.channel.state.isLive = true := by
      rw [(ht.onChannel hchannel).1.state_eq]
      rfl
    obtain ⟨hbound, -, hmodule⟩ := isFor_iff.1 (hr.module _ (congrArg (·.1) hasks) hcloses.1 hlive)
    exact howned.moduleId hbound (hmodule.trans hcloses.2)
  | false =>
    obtain ⟨_, hf, -⟩ := ht.aside hchannel
    have := hf.isoTp
    rw [hj] at this
    cases this

theorem isLive_of_gone (hf : e.Rejects frame ∨ e.Disconnects frame) : e.channel.state.isLive = true := by
  rcases hf with hf | hf
  · rw [hf.state_eq]
    rfl
  · rcases hf.state_eq with ⟨hs, -⟩ | ⟨hs, -⟩ | hs | hs <;> (rw [hs]; rfl)

theorem Traced.trace_frame (h : Traced start ops) (hserves : Serves (submitted ops) (start.run ops))
    (hn : (start.run ops).Ignores frame) : Trace start ops (.frame frame) (start.run ops) := by
  have htrace := h.trace hserves (.frame frame) fun frame' heq => by cases heq; exact hn
  rwa [show submitted [.frame frame] = [] from rfl, List.append_nil] at htrace

theorem Holds.not_mishap (hholds : Holds start ops request before starter after)
    (hu : (start.run (before ++ [starter])).Unharmed (after ++ [.frame frame]))
    (hc : (start.run ops).single = some capture) : ¬ (start.run ops).Mishap capture frame := by
  rw [← hholds.run_eq] at hc ⊢
  exact hu.last hc

/-- When the request has been unharmed, what is taken has come in since it began, as one response. -/
theorem Holds.gathers (hholds : Holds start ops capture.request before starter after)
    (hr : Routes bus stray (start.run ops)) (h : (start.run ops).Serving) (hc : (start.run ops).single = some capture)
    (hhalf : (start.run (before ++ [starter])).Unharmed after → (start.run ops).ExpectsMore →
      (start.run (before ++ [starter])).Halfway after (start.run ops) capture)
    (hu : (start.run (before ++ [starter])).Unharmed (after ++ [.frame frame])) {payload : List UInt8} {left : Nat}
    (ht : (start.run ops).Takes frame payload left) :
    ∃ total, Gathers (start.run (before ++ [starter])) capture.request.entry
        ((start.run ops).sender capture.request.entry frame) total (after ++ [.frame frame])
        ((start.run ops).nextAfter frame)
        (capture.request.entry.answerHeader ++ (capture.response ++ payload)) ∧
      capture.request.entry.answerHeader.length + (capture.response ++ payload).length + left = total := by
  have hm := hholds.not_mishap hu hc
  rw [← hholds.run_eq] at hr h hc hhalf ht hm ⊢
  exact gathers_takes hr h hc hm (hhalf (Unharmed.of_concat hu)) ht

/-- An unharmed request whose channel goes away is answered with nothing, and the channel was its own. -/
theorem Holds.answered_lost (hholds : Holds start ops capture.request before starter after)
    (hr : Routes bus stray (start.run ops)) (h : (start.run ops).Serving) (hc : (start.run ops).single = some capture)
    (hu : (start.run (before ++ [starter])).Unharmed (after ++ [.frame frame]))
    (hf : (start.run ops).Rejects frame ∨ (start.run ops).job.isVwtp = true ∧ (start.run ops).Disconnects frame) :
    Answered (start.run (before ++ [starter])) capture.request.entry (after ++ [.frame frame]) capture.response := by
  have hm := hholds.not_mishap hu hc
  have hj : (start.run ops).job.isVwtp = true := by
    rcases hf with hf | ⟨hj, -⟩
    · by_contra hj
      exact hm (.turnedDown (by simpa using hj) hf)
    · exact hj
  have hgone : (start.run ops).Rejects frame ∨ (start.run ops).Disconnects frame := hf.imp id (·.2)
  have hnil : capture.response = [] := by
    by_contra hne
    exact hm (.cut hj hgone hne)
  have hasks := h.asks capture hc
  have hp := (isVwtp_iff hasks.protocol).1 hj
  have hfor := hr.module _ (congrArg (·.1) hasks) hp (isLive_of_gone hgone)
  rw [← hholds.run_eq] at hgone hfor
  exact .lost rfl hp hgone hfor hnil

theorem Trace.ended (hserves : Serves (submitted ops) (start.run ops)) (hc : (start.run ops).single = some capture)
    (hs : e.single = none) (hq : e.queued = (start.run ops).queued) {data : List UInt8}
    (hlog : Adds (OnlyAnswers capture.request.ticket data) (start.run ops) e)
    (hholds : Holds start ops capture.request before starter after)
    (hright : (start.run (before ++ [starter])).Unharmed (after ++ [.frame frame]) →
      Answered (start.run (before ++ [starter])) capture.request.entry (after ++ [.frame frame]) data) :
    Trace start ops (.frame frame) e := by
  obtain ⟨new, hnew, honly⟩ := hlog
  refine ⟨.of_none hs, ⟨new, hnew.symm⟩, ?_, fun request hc' => ?_, fun capture' hc' => ?_,
    fun ticket data' ha => ?_⟩
  · rw [hq, submitted_frame]
    exact hserves.queued_subset
  · rw [captured, hs] at hc'
    cases hc'
  · rw [hs] at hc'
    cases hc'
  · obtain ⟨new', hnew', s, hmem, hev⟩ := ha
    obtain rfl := List.append_cancel_right (hnew'.symm.trans hnew)
    obtain ⟨rfl, rfl⟩ := honly s hmem ticket data' hev
    refine ⟨capture.request, ?_, rfl, .inr ⟨before, starter, after, hholds, hright⟩⟩
    rw [submitted_frame]
    exact hserves.mem_of_captured (by rw [captured, hc]; rfl)

theorem Traced.handled (h : Traced start ops) (hserves : Serves (submitted ops) (start.run ops))
    (hr : Routes bus stray (start.run ops)) (howned : (start.run ops).channel.Owned)
    (hh : Handled (start.run ops) frame e) : Trace start ops (.frame frame) e := by
  have hserving : e.Serving := hh.serving h.serving fun capture hc hcloses _ _ =>
    not_takes_closesOnly hr howned h.serving hc hcloses
  cases hh with
  | fate hf hn => exact (h.trace_frame hserves hn).fate hf
  | @part capture payload left hc ht hl hs hq ha hrem hi hx hlog =>
    obtain ⟨before, starter, after, hholds, hhalf⟩ := h.single capture hc
    have hgrows : (start.run ops).log <:+ e.log := let ⟨new, hnew, _⟩ := hlog; ⟨new, hnew.symm⟩
    refine ⟨hserving, hgrows, ?_, fun request hc' => ?_, fun capture' hc' => .inr ?_, fun ticket data hans => ?_⟩
    · rw [hq, submitted_frame]
      exact hserves.queued_subset
    · rw [captured, hs] at hc'
      cases hc'
      rw [submitted_frame]
      exact hserves.mem_of_captured (by rw [captured, hc]; rfl)
    · cases hs.symm.trans hc'
      refine ⟨before, starter, after, hholds, fun hu _ => ?_⟩
      obtain ⟨total, hgathers, htotal⟩ := hholds.gathers hr h.serving hc hhalf hu ht
      have hchannel := ht.isChannelFrame_eq (hholds.not_mishap hu hc)
      refine ⟨_, total, hx hchannel ▸ hgathers, hrem ▸ htotal, ?_⟩
      unfold sender
      rw [isVwtp_of_asked ha]
      by_cases hj : (start.run ops).job.isVwtp = true
      · rw [if_pos hj, if_pos hj]
      · rw [if_neg hj, if_neg hj]
        exact (hi (hchannel.trans (by simpa using hj))).symm
    · refine absurd hlog (hans.not_adds fun event hev => ?_)
      rw [hev]
      exact Bool.noConfusion
  | @whole capture payload hc ht hs hq hlog =>
    obtain ⟨before, starter, after, hholds, hhalf⟩ := h.single capture hc
    refine .ended hserves hc hs hq hlog hholds fun hu => ?_
    obtain ⟨total, hgathers, htotal⟩ := hholds.gathers hr h.serving hc hhalf hu ht
    exact .response hgathers htotal
  | @lost capture hc hf hs hq hlog =>
    obtain ⟨before, starter, after, hholds, -⟩ := h.single capture hc
    exact .ended hserves hc hs hq hlog hholds fun hu => hholds.answered_lost hr h.serving hc hu hf

/-! ### Operations -/

theorem HandledThen.turns (h : HandledThen e frame e') (ht : Turns e' e'') : HandledThen e frame e'' := by
  obtain ⟨e₁, hh, hf⟩ := h
  exact ⟨e₁, hh, fun hs => (hf hs).trans (ht.fate (hf hs).serving)⟩

theorem handledThen_step (h : e.Serving) (hbound : e.channel.state ≠ .closed → e.channel.bound = true)
    (frame : Frame) : HandledThen e frame (e.step (.frame frame)) := by
  by_cases hb : frame.bus = e.bus
  · cases hc : e.isChannelFrame frame with
    | true =>
      have hopen : e.channel.state ≠ .closed := by
        simp only [isChannelFrame, Channel.isOpen, Bool.and_eq_true] at hc
        simpa using hc.1.1
      rw [step_frame_channel hb hc (hbound hopen)]
      exact ⟨_, handled_channelStep h hb hc, fun hs => ((turns_chained ..).settle).fate hs⟩
    | false =>
      have hstep : e.step (.frame frame) = (e.receiveOther frame).settle := by
        show e.handleFrame frame = _
        rw [handleFrame, if_neg (not_not_intro hb), hc]
        rfl
      rw [hstep]
      exact (handledThen_receiveOther h hb hc).turns (Turns.refl _).settle
  · have hstep : e.step (.frame frame) = e := if_pos hb
    rw [hstep]
    exact .of_fate (.of_same h (.refl e)) fun _ _ _ ht => hb ht.bus_eq

theorem fate_tick (h : e.Serving) (primary : Bool) : Fate e (e.tick primary) := by
  have hb : Fate e (if primary then e.emit (.stateTicker e.bus) else e) := by
    split
    · exact .emit h rfl
    · exact .of_same h (.refl e)
  have hs : Fate e { (if primary then e.emit (.stateTicker e.bus) else e) with
      schedule := (if primary then e.emit (.stateTicker e.bus) else e).schedule.resetSequence } :=
    hb.trans (.of_same hb.serving (.of_eq rfl rfl rfl rfl rfl))
  exact hs.trans (Turns.fate hs.serving ((Turns.refl _).pollSend primary).settle)

theorem fate_sendSuccess (h : e.Serving) : Fate e e.sendSuccess := by
  have hd : Fate e { e with successDue := none } := .of_same h (.of_eq rfl rfl rfl rfl rfl)
  unfold sendSuccess
  split
  · dsimp only
    refine hd.trans (Turns.fate hd.serving ?_)
    split
    · exact ((Turns.refl _).pollSend false).settle
    · exact (Turns.refl _).settle
  · exact .of_same h (.refl e)

theorem fate_refuseQueued (hs : e.single = none) : Fate e e.refuseQueued := by
  obtain ⟨new, heq, hnew⟩ := refuseQueued_eq e
  rw [heq]
  refine .of_none hs (List.nil_suffix ..) ⟨new, rfl, fun s hmem ticket data hev => ?_⟩
  have hsingle : s ∈ singleEvents new := by simp [singleEvents, hmem, hev, Event.isSingle]
  rw [hnew] at hsingle
  obtain ⟨request, -, rfl⟩ := List.mem_map.1 hsingle
  cases hev

theorem fate_shutdown (h : e.Serving) : Fate e e.shutdown := by
  have hend : Fate e (e.finishSingle (.error .unavailable)) := .finishSingle h (by simp)
  have hrefuse := hend.trans (fate_refuseQueued (single_finishSingle ..))
  unfold shutdown
  dsimp only
  generalize (e.finishSingle (.error .unavailable)).refuseQueued = e₁ at hrefuse
  refine hrefuse.trans (.of_same hrefuse.serving ?_)
  split
  · exact ((Same.requestClose e₁).trans (.shutChannel _)).trans (.of_eq rfl rfl rfl rfl rfl)
  · exact .of_eq rfl rfl rfl rfl rfl

theorem same_setState (e : Engine) (state : Nat) : Same e (e.setState state) := by
  unfold setState
  dsimp only
  split <;> exact .of_eq rfl rfl rfl rfl rfl

/-- An operation in which no frame comes in takes nothing for a response. -/
theorem fate_step (h : e.Serving) (hf : ∀ frame, op ≠ .frame frame)
    (hl : ∀ list bus, op = .setList list bus → e.single = none) :
    Fate { e with queued := e.queued ++ submitted [op] } (e.step op) := by
  have hsame {e' : Engine} (hs : Same e e') : Fate { e with queued := e.queued ++ [] } e' := by
    rw [List.append_nil]
    exact .of_same h hs
  have hfate {e' : Engine} (hf : Fate e e') : Fate { e with queued := e.queued ++ [] } e' := by
    rw [List.append_nil]
    exact hf
  cases op with
  | frame frame => exact absurd rfl (hf frame)
  | tick primary => exact hfate (fate_tick h primary)
  | txComplete frame success => exact hfate (Turns.fate h ((Turns.refl e).judgeResult frame success).settle)
  | sendSuccess => exact hfate (fate_sendSuccess h)
  | submit request =>
    have hq : Serving { e with queued := e.queued ++ [request] } := ⟨h.asks, h.nothing⟩
    exact Turns.fate hq (Turns.refl _).settle
  | setList list defaultBus =>
    have hs := hl list defaultBus rfl
    refine hsame ?_
    show Same e (e.setList list defaultBus)
    unfold setList
    rw [hs]
    exact .of_eq hs.symm rfl rfl rfl rfl
  | setState state => exact hsame (same_setState e state)
  | shutdown => exact hfate (fate_shutdown h)
  | setPaused | setSequenceMax | setSeptime | setKeepalive | setBetween | elapse | setRoom =>
    exact hsame (.of_eq rfl rfl rfl rfl rfl)

theorem Trace.setList (h : Trace start ops op e) (list : Option (List PollEntry)) (defaultBus : Option BusId)
    (hc : e.single = some capture) : Trace start ops op (e.setList list defaultBus) := by
  unfold Engine.setList
  rw [hc]
  dsimp only
  have hcaptured : e.captured = some capture.request := by rw [captured, hc]; rfl
  refine ⟨⟨fun capture' hc' => ?_, fun capture' hc' => ?_⟩, h.grows, h.queued, fun request hr => ?_,
    fun capture' hc' => ?_, h.answers⟩
  · cases hc'
    exact h.serving.asks capture hc
  · cases hc'
    exact h.serving.nothing capture hc
  · exact h.known request (hcaptured.trans hr)
  · cases hc'
    exact h.single capture hc

theorem Traced.course (h : Traced start ops) (hserves : Serves (submitted ops) (start.run ops))
    (hr : Routes bus stray (start.run ops)) (howned : (start.run ops).channel.Owned) (op : Operation) :
    Trace start ops op (start.run (ops ++ [op])) := by
  rw [run_concat]
  by_cases hframe : ∃ frame, op = .frame frame
  · obtain ⟨frame, rfl⟩ := hframe
    obtain ⟨e₁, hh, hf⟩ := handledThen_step h.serving howned.bound frame
    have htrace := h.handled hserves hr howned hh
    exact htrace.fate (hf htrace.serving)
  · have htrace := h.trace hserves op fun frame hop => absurd ⟨frame, hop⟩ hframe
    by_cases hlist : ∃ list defaultBus capture, op = .setList list defaultBus ∧
        (start.run ops).single = some capture
    · obtain ⟨list, defaultBus, capture, rfl, hc⟩ := hlist
      rw [show submitted [.setList list defaultBus] = [] from rfl, List.append_nil] at htrace
      exact htrace.setList list defaultBus hc
    · refine htrace.fate (fate_step h.serving (fun frame hop => hframe ⟨frame, hop⟩) fun list defaultBus hop => ?_)
      by_contra hs
      obtain ⟨capture, hc⟩ := Option.ne_none_iff_exists'.1 hs
      exact hlist ⟨list, defaultBus, capture, hop, hc⟩

/-! ### Every run -/

theorem course_run (bus : BusId) (name : String) (reports : Bool) (settings : EngineSettings)
    (ops : List Operation) (op : Operation) :
    Trace (Engine.new bus name reports settings) ops op ((Engine.new bus name reports settings).run (ops ++ [op])) := by
  have hcourse (ops : List Operation) (h : Traced (Engine.new bus name reports settings) ops) (op : Operation) :=
    h.course ((serves_new bus name reports settings).run ops) ((routes_new bus name reports settings).run ops)
      (owned_run Channel.owned_shut ops) op
  have htraced : Traced (Engine.new bus name reports settings) ops := by
    induction ops using List.reverseRecOn with
    | nil => exact ⟨.of_none rfl, fun capture hc => by cases hc⟩
    | append_singleton ops op ih => exact (hcourse ops ih op).traced
  exact hcourse ops htraced op

/-- In every run a single request that is answered with data has the whole of one response to its own service and
PID, of those frames that came in since it began, or nothing, and then its own channel has gone; unless one of the
frames did it harm. A request that only closes the channel is answered with nothing. -/
theorem answers_right (bus : BusId) (name : String) (reports : Bool) (settings : EngineSettings)
    (ops : List Operation) (op : Operation) (ticket : Nat) (data : List UInt8)
    (h : Answers ticket data ((Engine.new bus name reports settings).run ops)
      ((Engine.new bus name reports settings).run (ops ++ [op]))) :
    Right (Engine.new bus name reports settings) ops op ticket data :=
  (course_run bus name reports settings ops op).answers ticket data h

theorem not_mishap_single {data : List UInt8} (hf : e.HasSegment frame (.single data))
    (hn : capture.response = []) (hr : capture.request.entry.Responds (e.responseId frame))
    (hw : 1 + ((e.job.protocol.isoTpData frame).headD 0 &&& 0x0f).toNat ≤ e.arrived frame) :
    ¬ e.Mishap capture frame := by
  have hchannel (hc : e.isChannelFrame frame = true) : False := by
    rw [hf.aside] at hc
    cases hc
  have hread {segment : Segment} (hf' : e.HasSegment frame segment) : segment = .single data :=
    Option.some.inj (hf'.read.symm.trans hf.read)
  have hopens {total : Nat} {segment : List UInt8} (ho : e.Opens frame total segment) : total = segment.length := by
    cases ho with
    | single => rfl
    | first hf' => cases hread hf'
    | data hf' => exact (hchannel hf'.onChannel).elim
  have hgoes {segment : List UInt8} (hg : e.GoesOn frame segment) : False := by
    cases hg with
    | consecutive hf' => cases hread hf'
    | data hf' => exact hchannel hf'.onChannel
  intro h
  cases h with
  | crossed hj hc => exact hchannel hc
  | turnedDown hj hr' => exact hchannel hr'.onChannel
  | cut hj =>
    rw [hf.isoTp] at hj
    cases hj
  | again ho hj hne => exact hne hn
  | foreign hc ht hs => exact hs hr
  | mixed hc hg => exact hgoes hg
  | overfull ho hj hl =>
    have := hopens ho
    omega
  | beyond hg => exact hgoes hg
  | short ht hs =>
    cases hs with
    | single hf' hs => omega
    | first hf' | consecutive hf' => cases hread hf'

/-- The speed is asked for and comes in a single frame. -/
theorem answers_right_example :
    let bus : BusId := ⟨1, by decide⟩
    let speed : PollEntry := ⟨0x7e0, 0x7e8, 0x22, 0xf40d, [], #v[999, 999, 999, 999], 0, .isoTp⟩
    let request : SingleRequest := ⟨1, speed, 9000, none⟩
    let answer := EcuFrame.single bus 0x7e8 [0x62, 0xf4, 0x0d, 0x30]
    let start := Engine.new bus "ecu" false ⟨0, 25, .strict, 0, 0⟩
    Answers 1 [0x30] (start.run [.submit request]) (start.run [.submit request, .frame answer]) ∧
      Answered (start.run [.submit request]) speed [.frame answer] [0x30] := by
  intro bus speed request answer start
  have hgrows : (start.run [.submit request]).log <:+ (start.run [.submit request, .frame answer]).log :=
    (course_run bus "ecu" false ⟨0, 25, .strict, 0, 0⟩ [.submit request] (.frame answer)).grows
  have h : Answers 1 [0x30] (start.run [.submit request]) (start.run [.submit request, .frame answer]) :=
    answers_of_findSome? hgrows (by decide) (by decide)
  have hf : (start.run [.submit request]).HasSegment answer (.single [0x62, 0xf4, 0x0d, 0x30]) := by
    refine ⟨?_, ?_, ?_, ?_, ?_, ?_⟩ <;> decide
  have hwhole : 1 + (((start.run [.submit request]).job.protocol.isoTpData answer).headD 0 &&& 0x0f).toNat ≤
    (start.run [.submit request]).arrived answer := by decide
  have hcaptured :
      (start.run [.submit request]).single.map (fun c => (c.response, c.request)) = some ([], request) := by
    decide
  have hright := answers_right bus "ecu" false ⟨0, 25, .strict, 0, 0⟩ [.submit request] (.frame answer) 1 [0x30] h
  refine ⟨h, ?_⟩
  obtain ⟨request', hmem, -, ⟨hcloses, -⟩ | ⟨before, starter, after, hholds, hright⟩⟩ := hright
  · obtain rfl : request' = request := List.mem_singleton.1 hmem
    cases hcloses.1
  · obtain rfl : request' = request := List.mem_singleton.1 hmem
    have hsplit := hholds.split
    rcases before with _ | ⟨first, before⟩
    · obtain ⟨rfl, rfl⟩ := List.cons.inj hsplit
      refine hright fun earlier frame later capture heq hc => ?_
      rcases earlier with _ | ⟨first, earlier⟩
      · obtain ⟨hframe, -⟩ := List.cons.inj heq
        cases hframe
        have hc : (start.run [.submit request]).single = some capture := hc
        rw [hc] at hcaptured
        obtain ⟨hn, hrequest⟩ := Prod.mk.inj (Option.some.inj hcaptured)
        refine not_mishap_single hf hn ?_ hwhole
        rw [hrequest]
        exact ⟨by decide, by decide⟩
      · obtain ⟨-, htail⟩ := List.cons.inj heq
        simp at htail
    · simp at hsplit

theorem Gathers.exists_opens {entry : PollEntry} {sender : UInt32} {total next : Nat} {message : List UInt8}
    (h : Gathers e₀ entry sender total ops next message) : ∃ earlier frame later segment,
      ops = earlier ++ .frame frame :: later ∧ (e₀.run earlier).Opens frame total segment := by
  have hlater {ops : List Operation} {op : Operation} (h : ∃ earlier frame later segment,
      ops = earlier ++ .frame frame :: later ∧ (e₀.run earlier).Opens frame total segment) :
      ∃ earlier frame later segment,
        ops ++ [op] = earlier ++ .frame frame :: later ∧ (e₀.run earlier).Opens frame total segment := by
    obtain ⟨earlier, frame, later, segment, rfl, ho⟩ := h
    exact ⟨earlier, frame, later ++ [op], segment, by rw [List.append_assoc, List.cons_append], ho⟩
  induction h with
  | opens hf ho hs => exact ⟨_, _, [], _, rfl, ho⟩
  | goesOn h hf hg hn hs ih => exact hlater ih
  | waits h op hn ih => exact hlater ih

/-- A channel is being opened when the speed is asked for over ISO-TP; its module turns it down, and the request
is answered with nothing. -/
theorem not_right_example :
    let bus : BusId := ⟨1, by decide⟩
    let read : PollEntry := ⟨0x200, 1, 0x22, 0xf190, [], #v[1, 1, 1, 1], 1, .vwtp20⟩
    let speed : PollEntry := ⟨0x7e0, 0x7e8, 0x22, 0xf40d, [], #v[999, 999, 999, 999], 0, .isoTp⟩
    let reject := EcuFrame.channel bus 0x201 [0x00, 0xd5, 0x00, 0x03, 0x40, 0x07, 0x01]
    let start := Engine.new bus "ecu" false ⟨0, 25, .strict, 0, 0⟩
    let ops : List Operation := [.setList (some [read]) none, .tick true, .submit ⟨1, speed, 9000, none⟩]
    Answers 1 [] (start.run ops) (start.run (ops ++ [.frame reject])) ∧
      ¬ ∃ request ∈ submitted (ops ++ [.frame reject]), request.ticket = 1 ∧
        (request.entry.ClosesOnly ∨ ∃ before starter after, Holds start ops request before starter after ∧
          Answered (start.run (before ++ [starter])) request.entry (after ++ [.frame reject]) []) := by
  intro bus read speed reject start ops
  have hgrows : (start.run ops).log <:+ (start.run (ops ++ [.frame reject])).log :=
    (course_run bus "ecu" false ⟨0, 25, .strict, 0, 0⟩ ops (.frame reject)).grows
  refine ⟨answers_of_findSome? hgrows (by decide) (by decide), ?_⟩
  rintro ⟨request, hmem, -, hcloses | ⟨before, starter, after, hholds, hanswered⟩⟩
  · obtain rfl : request = ⟨1, speed, 9000, none⟩ := List.mem_singleton.1 hmem
    cases hcloses.1
  · obtain rfl : request = ⟨1, speed, 9000, none⟩ := List.mem_singleton.1 hmem
    cases hanswered with
    | lost _ hp => cases hp
    | response hgathers =>
      obtain ⟨earlier, frame, later, segment, heq, ho⟩ := hgathers.exists_opens
      -- the module's answer is the only frame
      have hno (frame : Frame) : Operation.frame frame ∉ after := fun hframe => by
        have hmem : Operation.frame frame ∈ ops := by
          rw [hholds.split]
          exact List.mem_append_right _ (List.mem_cons_of_mem _ hframe)
        simp [ops] at hmem
      obtain ⟨rfl, rfl⟩ : after = earlier ∧ reject = frame := by
        rcases List.eq_nil_or_concat later with rfl | ⟨later', op, rfl⟩
        · obtain ⟨hafter, hlast⟩ := List.append_inj' heq rfl
          cases hlast
          exact ⟨hafter, rfl⟩
        · rw [List.concat_eq_append, ← List.cons_append, ← List.append_assoc] at heq
          refine absurd ?_ (hno frame)
          rw [List.append_inj_left' heq rfl]
          exact List.mem_append_right _ (List.mem_cons_self ..)
      rw [hholds.run_eq] at ho
      have hchannel : (start.run ops).isChannelFrame reject = true := by decide
      have hstate : (start.run ops).channel.state = .setup := by decide
      cases ho with
      | single hf | first hf => exact absurd (hchannel.symm.trans hf.aside) (by decide)
      | data hf => exact absurd (hstate.symm.trans hf.state_eq) (by decide)

end Engine

end EcuPoll
