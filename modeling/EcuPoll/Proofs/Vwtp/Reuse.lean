import EcuPoll.Proofs.Engine.Parts
import EcuPoll.Proofs.Vwtp.Responses
import Mathlib.Data.List.Chain

/-!
# One channel for all polls of a module

As long as nothing but polls of one module is sent, and the module answers each of them in time, the channel
that the first of them opens serves them all: it is asked for once, its parameters are offered once, and the
data frames of all requests are numbered through.

`Stage` says how far the channel has come. A poll asks for the channel or, once that is open, sends its
request on it (`Stage.dispatch`); a frame on the channel takes it to the next stage (`Stage.channelStep`);
whatever else may happen leaves it where it is.
-/

namespace EcuPoll

/-! ### What a log says -/

namespace Event

/-- The parameters of a channel are offered. -/
def isParams : Event → Bool
  | .wrote .params _ _ => true
  | _ => false

/-- The number that a data frame of a request carries in its first byte. -/
def dataNumber? : Event → Option Nat
  | .wrote (.data _) frame _ => some (Frame.leadByte frame.data &&& 0x0f).toNat
  | _ => none

/-- Not the dispatch of a poll, no request for a channel or its parameters, and no data frame of a request. -/
def IsPlain : Event → Prop
  | .dispatched _ _ _ | .wrote (.setup _ _) _ _ | .wrote .params _ _ | .wrote (.data _) _ _ => False
  | _ => True

theorem IsSent.isPlain {event : Event} (h : event.IsSent) : event.IsPlain := by
  cases event <;> first | exact h.elim | trivial

theorem IsPlain.uncounted {event : Event} (h : event.IsPlain) : event.isDispatch = false ∧
    event.isSetup = false ∧ event.isParams = false ∧ event.dataNumber? = none := by
  cases event with
  | wrote kind => cases kind <;> first | exact h.elim | exact ⟨rfl, rfl, rfl, rfl⟩
  | dispatched => exact h.elim
  | _ => exact ⟨rfl, rfl, rfl, rfl⟩

/-- If a poll is dispatched, it is one of the module of these ids, over the channel. -/
def Polls (baseId moduleId : UInt32) : Event → Prop
  | .dispatched entry _ _ => entry.protocol = .vwtp20 ∧ entry.tx = baseId ∧ entry.rx = moduleId
  | _ => True

instance (baseId moduleId : UInt32) : DecidablePred (Polls baseId moduleId)
  | .dispatched _ _ _ => inferInstanceAs (Decidable (_ ∧ _ ∧ _))
  | .wrote _ _ _ | .reply _ _ _ | .failed _ _ | .sent _ _ | .passFinished _ | .stateTicker _
  | .singleStarted _ | .singleDropped _ | .singleResolved _ _ => .isTrue trivial

end Event

/-- The numbers of the data frames of all requests, in the order in which they were written. -/
def dataNumbers (log : List Stamped) : List Nat :=
  log.reverse.filterMap (·.event.dataNumber?)

/-- Each number follows the one before it, modulo 16. -/
def Consecutive (numbers : List Nat) : Prop :=
  numbers.IsChain fun a b => b = (a + 1) % 16

/-- The numbers are consecutive, and go on with the low nibble of `next`. -/
structure CountedTo (next : UInt8) (numbers : List Nat) : Prop where
  consecutive : Consecutive numbers
  next_eq : ∀ last ∈ numbers.getLast?, (next &&& 0x0f).toNat = (last + 1) % 16

theorem dataNumbers_append (new log : List Stamped) :
    dataNumbers (new ++ log) = dataNumbers log ++ dataNumbers new := by
  simp [dataNumbers]

theorem CountedTo.nil (next : UInt8) : CountedTo next [] := ⟨.nil, nofun⟩

/-- One more frame carries the number that is due. -/
theorem CountedTo.snoc {next : UInt8} {numbers : List Nat} (h : CountedTo next numbers) :
    CountedTo (next + 1) (numbers ++ [(next &&& 0x0f).toNat]) := by
  refine ⟨h.consecutive.append (.singleton _) fun last hlast b hb => ?_, fun last hlast => ?_⟩
  · obtain rfl : (next &&& 0x0f).toNat = b := Option.some.inj hb
    exact h.next_eq last hlast
  · rw [List.getLast?_concat] at hlast
    obtain rfl : (next &&& 0x0f).toNat = last := Option.some.inj hlast
    rw [Engine.toNat_nibble, Engine.toNat_nibble, UInt8.toNat_add]
    show (next.toNat + 1) % 256 % 16 = _
    omega

/-- A data frame carries the low nibble of its number. -/
theorem leadByte_data (bus : BusId) (id : UInt32) (kind : DataKind) (number : UInt8) (bytes : List UInt8) :
    Frame.leadByte (Frame.cut bus id false (Opcode.numbered kind.opcode number :: bytes)).data &&& 0x0f =
      number &&& 0x0f := by
  have hkind : kind.opcode &&& 0x0f = 0 := by cases kind <;> rfl
  have hsplit : (kind.opcode ||| (number &&& 0x0f)) &&& 0x0f =
      kind.opcode &&& 0x0f ||| (number &&& 0x0f) &&& 0x0f := UInt8.toBitVec_inj.1 BitVec.and_or_distrib_right
  rw [leadByte_cut, Opcode.numbered, hsplit, hkind, UInt8.zero_or, UInt8.and_assoc, UInt8.and_self]

namespace Channel

/-- Whose the channel is, and the number of its next data frame. -/
def course (c : Channel) : Bool × UInt32 × UInt32 × UInt8 := (c.bound, c.baseId, c.moduleId, c.txSeq)

end Channel

namespace Engine
variable {e₀ e e' e'' : Engine} {n setups params : Nat} {baseId moduleId : UInt32}

/-! ### Traffic -/

/-- Since `e₀` this many polls were dispatched, this often the channel was asked for and its parameters
offered, and the data frames of all requests were numbered up to the channel's counter. No single request is
there. -/
structure Traffic (e₀ e : Engine) (n setups params : Nat) : Prop where
  line : e.line.TakesAll
  allSent : e.AllSent
  single : e.single = none
  queued : e.queued = []
  log : ∃ new, e.log = new ++ e₀.log ∧ new.countP (·.event.isDispatch) = n ∧
    new.countP (·.event.isSetup) = setups ∧ new.countP (·.event.isParams) = params ∧
    CountedTo e.channel.txSeq (dataNumbers new)

namespace Traffic
variable (h : Traffic e₀ e n setups params)
include h

/-- What is neither traffic nor the channel's counter may change. -/
theorem plain (hl : e'.line.TakesAll) (hr : e'.AllSent) (hs : e'.single = e.single) (hq : e'.queued = e.queued)
    (hn : e'.channel.txSeq = e.channel.txSeq) (hlog : Adds Event.IsPlain e e') :
    Traffic e₀ e' n setups params := by
  obtain ⟨old, hold, hcount, hsetup, hparams, hnumbers⟩ := h.log
  obtain ⟨new, hnew, hplain⟩ := hlog
  have hnone : ∀ p : Event → Bool, (∀ s ∈ new, p s.event = false) →
      (new ++ old).countP (fun s => p s.event) = old.countP (fun s => p s.event) := by
    intro p hp
    rw [List.countP_append, List.countP_eq_zero.2 fun s hs => by simp [hp s hs], Nat.zero_add]
  have hsame : dataNumbers (new ++ old) = dataNumbers old := by
    have hnil : dataNumbers new = [] := by
      rw [dataNumbers, List.filterMap_eq_nil_iff]
      exact fun s hs => (hplain s (List.mem_reverse.1 hs)).uncounted.2.2.2
    rw [dataNumbers_append, hnil, List.append_nil]
  refine ⟨hl, hr, hs.trans h.single, hq.trans h.queued, new ++ old, by rw [hnew, hold, List.append_assoc],
    ?_, ?_, ?_, ?_⟩
  · rw [hnone _ fun s hs => (hplain s hs).uncounted.1, hcount]
  · rw [hnone _ fun s hs => (hplain s hs).uncounted.2.1, hsetup]
  · rw [hnone _ fun s hs => (hplain s hs).uncounted.2.2.1, hparams]
  · rw [hsame, hn]
    exact hnumbers

/-- One more event; the channel's counter may have moved on with it. -/
theorem event (e' : Engine) (hl : e'.line.TakesAll) (hr : e'.AllSent) (hs : e'.single = e.single)
    (hq : e'.queued = e.queued) {s : Stamped} (hlog : e'.log = s :: e.log)
    (hn : ∀ numbers, CountedTo e.channel.txSeq numbers →
      CountedTo e'.channel.txSeq (numbers ++ s.event.dataNumber?.toList)) :
    Traffic e₀ e' (n + s.event.isDispatch.toNat) (setups + s.event.isSetup.toNat)
      (params + s.event.isParams.toNat) := by
  obtain ⟨old, hold, hcount, hsetup, hparams, hnumbers⟩ := h.log
  have hone : ∀ p : Event → Bool, (s :: old).countP (fun s => p s.event) =
      old.countP (fun s => p s.event) + (p s.event).toNat := by
    intro p
    rw [List.countP_cons]
    cases p s.event <;> rfl
  have hnext : dataNumbers (s :: old) = dataNumbers old ++ s.event.dataNumber?.toList := by
    rw [dataNumbers, List.reverse_cons, List.filterMap_append, dataNumbers]
    cases hd : s.event.dataNumber? <;> simp [hd]
  refine ⟨hl, hr, hs.trans h.single, hq.trans h.queued, s :: old, by rw [hlog, hold, List.cons_append],
    ?_, ?_, ?_, ?_⟩
  · rw [hone, hcount]
  · rw [hone, hsetup]
  · rw [hone, hparams]
  · rw [hnext]
    exact hn _ hnumbers

/-- A frame is written, as the poll in flight and the channel move on. -/
theorem write {now wait : Nat} {job : PollJob} {out : Outbound} {channel : Channel} (kind : FrameKind)
    (frame : Frame)
    (hn : ∀ numbers, CountedTo e.channel.txSeq numbers →
      CountedTo channel.txSeq (numbers ++ (Event.wrote kind frame true).dataNumber?.toList)) :
    Traffic e₀ ({ e with now, wait, job, out, channel }.transmit kind frame) n
      (setups + (Event.wrote kind frame true).isSetup.toNat)
      (params + (Event.wrote kind frame true).isParams.toNat) := by
  obtain ⟨line, results, heq, hline, hresults⟩ := transmit_written
    (e := { e with now, wait, job, out, channel }) h.line h.allSent kind frame
  rw [heq]
  exact h.event { e with
    now, wait, job, out, channel, line, results
    log := ⟨now, .wrote kind frame true⟩ :: e.log } hline hresults rfl rfl rfl hn

theorem assign (entry : PollEntry) : Traffic e₀ (e.assign entry) (n + 1) setups params :=
  h.event (e.assign entry) h.line h.allSent rfl rfl rfl fun numbers hn =>
    (List.append_nil numbers).symm ▸ hn

omit h in
theorem start (hl : e.line.TakesAll) (hr : e.AllSent) (hs : e.single = none) (hq : e.queued = []) :
    Traffic e e 0 0 0 :=
  ⟨hl, hr, hs, hq, [], rfl, rfl, rfl, rfl, .nil _⟩

end Traffic

/-! ### The poll in flight -/

/-- Besides, the poll in flight runs over the channel of this module. -/
structure Talks (baseId moduleId : UInt32) (e₀ e : Engine) (n setups params : Nat) : Prop extends
    Traffic e₀ e n setups params where
  isFor : e.channel.isFor baseId moduleId = true
  entry : ∃ entry, e.job.entry = some entry
  isVwtp : e.job.isVwtp = true

namespace Talks
variable (h : Talks baseId moduleId e₀ e n setups params)
include h

theorem plain (hl : e'.line.TakesAll) (hr : e'.AllSent) (hs : e'.single = e.single) (hq : e'.queued = e.queued)
    (hj : e'.job.asked = e.job.asked) (hc : e'.channel.course = e.channel.course)
    (hlog : Adds Event.IsPlain e e') : Talks baseId moduleId e₀ e' n setups params := by
  obtain ⟨hbound, hrest⟩ := Prod.mk.inj hc
  obtain ⟨hbase, hrest⟩ := Prod.mk.inj hrest
  obtain ⟨hmodule, hn⟩ := Prod.mk.inj hrest
  refine ⟨h.toTraffic.plain hl hr hs hq hn hlog, ?_, ?_, (isVwtp_of_asked hj).trans h.isVwtp⟩
  · rw [Channel.isFor, hbound, hbase, hmodule]
    exact h.isFor
  · rw [show e'.job.entry = e.job.entry from congrArg (·.1) hj]
    exact h.entry

theorem update {now wait : Nat} {job : PollJob} {active : Bool} {out : Outbound} {channel : Channel}
    (hj : job.asked = e.job.asked) (hc : channel.course = e.channel.course) :
    Talks baseId moduleId e₀ { e with now, job, active, wait, out, channel } n setups params :=
  h.plain h.line h.allSent rfl rfl hj hc (.of_log rfl)

theorem transmit {kind : FrameKind} {frame : Frame} (hk : (Event.wrote kind frame true).IsPlain) :
    Talks baseId moduleId e₀ (e.transmit kind frame) n setups params := by
  obtain ⟨line, results, heq, hline, hresults⟩ := transmit_written h.line h.allSent kind frame
  rw [heq]
  exact h.plain hline hresults rfl rfl rfl rfl ⟨[_], rfl, List.forall_mem_singleton.2 hk⟩

/-- A frame is written, as the poll in flight and the channel move on. -/
theorem write {now wait : Nat} {job : PollJob} {out : Outbound} {channel : Channel} (kind : FrameKind)
    (frame : Frame) (hj : job.asked = e.job.asked)
    (hf : channel.isFor baseId moduleId = e.channel.isFor baseId moduleId)
    (hn : ∀ numbers, CountedTo e.channel.txSeq numbers →
      CountedTo channel.txSeq (numbers ++ (Event.wrote kind frame true).dataNumber?.toList)) :
    Talks baseId moduleId e₀ ({ e with now, wait, job, out, channel }.transmit kind frame) n
      (setups + (Event.wrote kind frame true).isSetup.toNat)
      (params + (Event.wrote kind frame true).isParams.toNat) := by
  refine ⟨h.toTraffic.write kind frame hn, ?_, ?_, ?_⟩ <;> rw [transmit_eq]
  · exact hf.trans h.isFor
  · exact (show job.entry = e.job.entry from congrArg (·.1) hj) ▸ h.entry
  · exact (show job.isVwtp = e.job.isVwtp from congrArg (·.2.1 == .vwtp20) hj).trans h.isVwtp

theorem expectOnChannel : Talks baseId moduleId e₀ e.expectOnChannel n setups params := by
  unfold Engine.expectOnChannel
  split
  · exact h.update rfl rfl
  · exact h

theorem acknowledge (opcode : UInt8) : Talks baseId moduleId e₀ (e.acknowledge opcode) n setups params := by
  unfold Engine.acknowledge
  split
  · exact h.transmit trivial
  · exact h

theorem deliverSegment (id : UInt32) (payload : List UInt8) (remain : UInt16) :
    Talks baseId moduleId e₀ (e.deliverSegment id payload remain) n setups params := by
  simp only [Engine.deliverSegment, deliverReply, h.single]
  exact h.plain h.line h.allSent h.single.symm rfl rfl rfl ⟨[_], rfl, by simp [Event.IsPlain]⟩

theorem deliverFailure (failure : PollFailure) :
    Talks baseId moduleId e₀ (e.deliverFailure failure) n setups params := by
  simp only [Engine.deliverFailure, h.single]
  exact h.plain h.line h.allSent rfl rfl rfl rfl ⟨[_], rfl, by simp [Event.IsPlain]⟩

theorem abortTransfer (hs : e.channel.state = .receive) :
    Talks baseId moduleId e₀ e.abortTransfer n setups params := by
  obtain ⟨line, results, job, heq, hj, hline, hresults⟩ := abortTransfer_written hs h.line h.allSent
  rw [heq]
  exact h.plain hline hresults rfl rfl hj rfl ⟨[_], rfl, by simp [Event.IsPlain]⟩

theorem sendFrame (header : List UInt8) (left : Nat) :
    Talks baseId moduleId e₀ (e.sendFrame header left) n setups params := by
  unfold Engine.sendFrame
  dsimp only
  refine h.write (.data e.out.frame) _ rfl rfl fun numbers hn => ?_
  show CountedTo (e.channel.txSeq + 1) (numbers ++ [_])
  rw [channelFrame, List.cons_append, leadByte_data]
  exact hn.snoc

theorem sendFrames (header : List UInt8) (left : Nat) :
    Talks baseId moduleId e₀ (Engine.sendFrames header left e) n setups params := by
  induction left generalizing e with
  | zero => exact h
  | succ left ih =>
    unfold Engine.sendFrames
    dsimp only
    split
    · exact h.sendFrame header left
    · exact ih (h.sendFrame header left)

theorem awaitAck : Talks baseId moduleId e₀ e.awaitAck n setups params := by
  unfold Engine.awaitAck
  exact h.expectOnChannel.update rfl rfl

end Talks

/-! ### Stages -/

/-- How far the channel of the module has come, since it was closed at `e₀`. -/
inductive Stage (baseId moduleId : UInt32) (e₀ e : Engine) : Prop
  /-- No poll was sent yet. -/
  | closed (h : Traffic e₀ e 0 0 0) (hs : e.channel.state = .closed) (hw : e.wait = 0)
  /-- The channel has been asked for. -/
  | opening {n : Nat} (h : Talks baseId moduleId e₀ e (n + 1) 1 0) (hs : e.channel.state = .setup)
    (hw : 0 < e.wait)
  /-- The module owes its parameters, an acknowledgement or a response. -/
  | busy {n : Nat} (h : Talks baseId moduleId e₀ e (n + 1) 1 1)
    (hs : e.channel.state = .params ∨ e.channel.state = .transmit ∨ e.channel.state = .receive)
    (hw : 0 < e.wait)
  /-- All polls are answered. -/
  | idle {n : Nat} (h : Talks baseId moduleId e₀ e (n + 1) 1 1) (hs : e.channel.state = .idle)
    (hw : e.wait = 0)

namespace Talks

theorem requestParams (h : Talks baseId moduleId e₀ e (n + 1) 1 0) (hs : e.channel.state = .setup) :
    Stage baseId moduleId e₀ e.requestParams := by
  unfold Engine.requestParams
  rw [if_neg (by rw [hs]; decide)]
  refine .busy (h.expectOnChannel.write .params _ rfl rfl fun numbers hn => ?_) (.inl ?_) ?_
  · exact (List.append_nil numbers).symm ▸ hn
  · rw [transmit_eq]
  · rw [transmit_eq]
    exact Nat.zero_lt_two

section
variable (h : Talks baseId moduleId e₀ e (n + 1) 1 1)
include h

theorem sendBlock : Stage baseId moduleId e₀ e.sendBlock := by
  obtain ⟨entry, he⟩ := h.entry
  simp only [Engine.sendBlock, he]
  exact .busy (h.sendFrames ..).awaitAck (.inr (.inl rfl)) Nat.zero_lt_two

theorem sendRequest : Stage baseId moduleId e₀ e.sendRequest := by
  obtain ⟨entry, he⟩ := h.entry
  simp only [Engine.sendRequest, he]
  exact sendBlock (h.update rfl rfl)

theorem goIdle (hs : e.channel.state ≠ .idle) : Stage baseId moduleId e₀ e.goIdle := by
  unfold Engine.goIdle
  rw [if_neg hs]
  exact .idle (h.update rfl rfl) rfl rfl

end

end Talks

namespace Traffic

/-- The poll in flight asks for the channel of its module. -/
theorem requestSetup (h : Traffic e₀ e (n + 1) 0 0) {entry : PollEntry} (he : e.job.entry = some entry)
    (hv : e.job.isVwtp = true) (hs : e.channel.state = .closed) :
    Stage entry.tx entry.rx e₀ e.requestSetup := by
  obtain ⟨txId, sent, low, high, hx⟩ :=
    expectOnChannel_eq_update { e with channel := e.channel.request entry.tx entry.rx }
  unfold Engine.requestSetup
  rw [he]
  dsimp only
  rw [if_neg (by simp [hs, hv]), hx]
  refine .opening ⟨h.write (.setup entry.tx entry.rx) _ fun numbers hn => ?_, ?_, ?_, ?_⟩ ?_ ?_
  · exact (List.append_nil numbers).symm ▸ hn
  · rw [channel_transmit]
    simp [Channel.isFor, Channel.touch, Channel.request]
  · rw [transmit_eq]
    exact ⟨entry, he⟩
  · rw [transmit_eq]
    exact hv
  · rw [channel_transmit]
    rfl
  · rw [transmit_eq]
    exact Nat.zero_lt_two

end Traffic

/-! ### Polls -/

/-- The channel has come to a stage, unless another poll was sent. -/
def Reuses (baseId moduleId : UInt32) (e₀ e : Engine) : Prop :=
  Stage baseId moduleId e₀ e ∨ Shows (¬ ·.Polls baseId moduleId) e₀ e

namespace Stage
variable (h : Stage baseId moduleId e₀ e)
include h

theorem traffic : ∃ n setups params, Traffic e₀ e n setups params := by
  cases h with
  | closed h => exact ⟨_, _, _, h⟩
  | opening h | busy h | idle h => exact ⟨_, _, _, h.toTraffic⟩

theorem grows : e₀.log <:+ e.log :=
  let ⟨_, _, _, h⟩ := h.traffic
  let ⟨new, hnew, _⟩ := h.log
  ⟨new, hnew.symm⟩

/-- What is no part of the traffic may change. -/
theorem plain (hl : e.line.TakesAll → e'.line.TakesAll) (hr : e.AllSent → e'.AllSent)
    (hs : e'.single = e.single) (hq : e'.queued = e.queued) (hj : e'.job.asked = e.job.asked)
    (hc : e'.channel = e.channel) (hw : e'.wait = 0 ↔ e.wait = 0) (hlog : Adds Event.IsPlain e e') :
    Stage baseId moduleId e₀ e' := by
  have hcourse : e'.channel.course = e.channel.course := congrArg Channel.course hc
  cases h with
  | closed h hs' hw' =>
    exact .closed (h.plain (hl h.line) (hr h.allSent) hs hq (congrArg Channel.txSeq hc) hlog)
      (hc ▸ hs') (hw.2 hw')
  | opening h hs' hw' =>
    exact .opening (h.plain (hl h.line) (hr h.allSent) hs hq hj hcourse hlog) (hc ▸ hs') (by omega)
  | busy h hs' hw' =>
    exact .busy (h.plain (hl h.line) (hr h.allSent) hs hq hj hcourse hlog) (hc ▸ hs') (by omega)
  | idle h hs' hw' =>
    exact .idle (h.plain (hl h.line) (hr h.allSent) hs hq hj hcourse hlog) (hc ▸ hs') (hw.2 hw')

theorem update {now : Nat} {schedule : Schedule} {active paused : Bool} {septime : UInt8}
    {keepalive between : Nat} {successDue : Option Nat} : Stage baseId moduleId e₀
      { e with now, schedule, active, paused, septime, keepalive, between, successDue } :=
  h.plain id id rfl rfl rfl rfl .rfl (.of_log rfl)

theorem emit {event : Event} (hev : event.IsPlain) : Stage baseId moduleId e₀ (e.emit event) :=
  h.plain id id rfl rfl rfl rfl .rfl ((Adds.refl e).emit hev)

theorem transmit {kind : FrameKind} {frame : Frame} (hk : (Event.wrote kind frame true).IsPlain) :
    Stage baseId moduleId e₀ (e.transmit kind frame) := by
  obtain ⟨_, _, _, ht⟩ := h.traffic
  obtain ⟨line, results, heq, hline, hresults⟩ := transmit_written ht.line ht.allSent kind frame
  rw [heq]
  exact h.plain (fun _ => hline) (fun _ => hresults) rfl rfl rfl rfl .rfl
    ⟨[_], rfl, List.forall_mem_singleton.2 hk⟩

theorem settle : Stage baseId moduleId e₀ e.settle := by
  obtain ⟨_, _, _, ht⟩ := h.traffic
  obtain ⟨received, new, heq, hnew⟩ := settle_good ht.allSent (.inr ht.queued)
  rw [heq]
  exact h.plain id (fun _ => .of_nil rfl) rfl rfl rfl rfl .rfl ⟨new, rfl, fun s hs => (hnew s hs).isPlain⟩

/-- A poll of the module is sent, over the channel that is there or is asked for. -/
theorem dispatch (hw : e.wait = 0) (hm : moduleId ≠ 0) {entry : PollEntry} (hp : entry.protocol = .vwtp20)
    (ht : entry.tx = baseId) (hr : entry.rx = moduleId) : Stage baseId moduleId e₀ (e.dispatch entry) := by
  have hv : (e.assign entry).job.isVwtp = true := by
    simp [assign, Engine.emit, PollJob.isVwtp, PollJob.start, PollJob.resetMultiframe, hp]
  have hstart : ChannelStart (e.assign entry).touchChannel entry (e.assign entry).startVwtp :=
    startVwtp_start (e.assign entry) rfl
  have hsame : (e.assign entry).touchChannel.channel.state = e.channel.state := rfl
  rw [dispatch_vwtp hp]
  generalize (e.assign entry).startVwtp = e' at hstart
  subst ht hr
  cases h with
  | closed h hs =>
    have ht : Traffic e₀ (e.assign entry).touchChannel 1 0 0 :=
      (h.assign entry).plain h.line h.allSent rfl rfl rfl (.of_log rfl)
    have hreq : Stage entry.tx entry.rx e₀ (e.assign entry).touchChannel.requestSetup :=
      ht.requestSetup rfl hv hs
    -- A closed channel may still bear the ids of this module. It is asked for either way.
    cases hstart with
    | again | setup => exact hreq
    | request _ hs' => simp [hsame, hs, ChannelState.isHalfOpen] at hs'
    | close _ hs' => exact absurd hs hs'
    | nothing _ hr => exact absurd hr hm
  | opening | busy => omega
  | @idle n h hs =>
    have ht : Talks entry.tx entry.rx e₀ (e.assign entry).touchChannel (n + 2) 1 1 :=
      ⟨(h.assign entry).plain h.line h.allSent rfl rfl rfl (.of_log rfl), h.isFor, ⟨entry, rfl⟩, hv⟩
    have hidle : (e.assign entry).touchChannel.channel.state = .idle := hs
    cases hstart with
    | again _ hs' => simp [hidle, ChannelState.isHalfOpen] at hs'
    | request =>
      rw [interrupt_still (by rw [hidle]; rfl)]
      exact ht.sendRequest
    | close hc => exact absurd (hc.symm.trans ht.isFor) (by decide)
    | setup hs' | nothing hs' => rw [hidle] at hs'; cases hs'

theorem pollList (hw : e.wait = 0) (hm : moduleId ≠ 0) : Reuses baseId moduleId e₀ e.pollList := by
  have ha : Stage baseId moduleId e₀ e.advance := h.update
  unfold Engine.pollList
  cases e.schedule.next.1 with
  | due entry =>
    by_cases hp : entry.protocol = .vwtp20 ∧ entry.tx = baseId ∧ entry.rx = moduleId
    · exact .inl (ha.dispatch hw hm hp.1 hp.2.1 hp.2.2)
    · -- The dispatch of another poll stays in the log, whatever that poll then does to the channel.
      have hother : Shows (¬ ·.Polls baseId moduleId) e.advance (e.advance.assign entry) :=
        ⟨[_], rfl, _, List.mem_singleton.2 rfl, hp⟩
      have hgrows : Grows (e.advance.assign entry) (e.advance.dispatch entry) :=
        .of_stays (Stays.dispatch entry (.refl _))
      exact .inr (.of_grows ha.grows (hother.grows hgrows.log))
  | passComplete =>
    dsimp only
    split
    · exact .inl ha
    · exact .inl (ha.emit trivial)
  | empty => exact .inl ha

theorem startPass : Stage baseId moduleId e₀ e.startPass := by
  have hp : Stage baseId moduleId e₀ { e with schedule := e.schedule.startNextPass } := h.update
  unfold Engine.startPass
  dsimp only
  split
  · exact hp.emit trivial
  · exact hp

theorem sendNext (hm : moduleId ≠ 0) (primary : Bool) : Reuses baseId moduleId e₀ (e.sendNext primary) := by
  have hlist : ∀ e : Engine, Stage baseId moduleId e₀ e → e.wait = 0 →
      Reuses baseId moduleId e₀ (if e.paused || !e.schedule.canPoll then e else e.pollList) := by
    intro e h hw
    split
    · exact .inl h
    · exact h.pollList hw hm
  obtain ⟨_, _, _, ht⟩ := h.traffic
  have hr : Stage baseId moduleId e₀ { e with active := false } := h.update
  have hsent := sendNext_sent e primary
  generalize e.sendNext primary = e' at hsent ⊢
  cases hsent with
  | waits => exact .inl h
  | held _ hs => simp [ht.single] at hs
  | single _ _ hq =>
    rw [ht.queued] at hq
    cases hq
  | list hw _ _ hp =>
    rcases hp with rfl | ⟨-, rfl⟩
    · exact hlist _ hr hw
    · have hsame (e : Engine) : e.startPass.wait = e.wait := by
        unfold Engine.startPass
        dsimp only
        split <;> rfl
      exact hlist _ hr.startPass ((hsame _).trans hw)

theorem pollNext (hm : moduleId ≠ 0) : Reuses baseId moduleId e₀ e.pollNext := by
  have hr : Stage baseId moduleId e₀ { e with active := false } := h.update
  unfold Engine.pollNext
  dsimp only
  split
  · exact .inl hr
  · split
    · exact hr.sendNext hm false
    · exact .inl hr.update

theorem chained (hm : moduleId ≠ 0) (after : AfterFrame) : Reuses baseId moduleId e₀ (e.chained after) := by
  unfold Engine.chained
  split
  · split
    · exact h.pollNext hm
    · exact .inl h
  · exact .inl h

end Stage

theorem Reuses.settle (h : Reuses baseId moduleId e₀ e) : Reuses baseId moduleId e₀ e.settle :=
  h.imp Stage.settle fun h => h.grows (Grows.turns (Turns.refl e).settle).log

/-! ### Frames on the channel -/

namespace Talks
variable (h : Talks baseId moduleId e₀ e (n + 1) 1 1) (hs : e.channel.state = .receive)
include h hs

theorem deliverData (opcode : UInt8) (segment payload : List UInt8) :
    Stage baseId moduleId e₀ (e.deliverData opcode segment payload) := by
  have ha := h.acknowledge opcode
  have hchannel := channel_acknowledge e opcode
  unfold Engine.deliverData
  dsimp only
  generalize e.acknowledge opcode = e₁ at ha hchannel
  have hd := ha.deliverSegment e₁.channel.rxId payload (lessLength e₁.job.mlRemain segment)
  have hstate : (e₁.deliverSegment e₁.channel.rxId payload
      (lessLength e₁.job.mlRemain segment)).channel.state = .receive := by
    unfold Engine.deliverSegment
    rw [(Delivers.deliverReply ..).channel, hchannel]
    exact hs
  unfold afterData
  split
  · exact hd.goIdle (by rw [hstate]; decide)
  · exact .busy (hd.update rfl rfl) (.inr (.inr hstate)) Nat.zero_lt_two

/-- A response is broken off, and the channel idle. -/
theorem breakOff : Stage baseId moduleId e₀ e.abortTransfer := by
  refine .idle (h.abortTransfer hs) (state_abortTransfer e) ?_
  unfold Engine.abortTransfer
  dsimp only
  rw [transmit_eq]

theorem receiveFirstData (opcode : UInt8) (total : UInt16) (segment : List UInt8) :
    Stage baseId moduleId e₀ (e.receiveFirstData opcode total segment).2 := by
  have hl : Talks baseId moduleId e₀ { e with job := { e.job with mlRemain := total } } (n + 1) 1 1 :=
    h.update rfl rfl
  have ha := hl.acknowledge opcode
  have hchannel := channel_acknowledge { e with job := { e.job with mlRemain := total } } opcode
  unfold Engine.receiveFirstData
  dsimp only
  generalize Engine.judge _ segment = verdict
  cases verdict with
  | foreign => exact hl.breakOff hs
  | answer payload => exact hl.deliverData hs ..
  | refused code =>
    dsimp only
    generalize Engine.acknowledge _ _ = e₁ at ha hchannel
    have hstate : e₁.channel.state = .receive := by rw [hchannel]; exact hs
    split
    · exact .busy (ha.update rfl rfl) (.inr (.inr hstate)) Nat.zero_lt_two
    · have hf : Talks baseId moduleId e₀
          { e₁ with job := { e₁.job with received := e₁.job.sent, mlRemain := 0 } } (n + 1) 1 1 :=
        ha.update rfl rfl
      refine (hf.deliverFailure (.negative code)).goIdle ?_
      rw [(Delivers.deliverFailure ..).channel, hstate]
      decide

theorem receiveData (opcode : UInt8) (data : List UInt8) :
    Stage baseId moduleId e₀ (e.receiveData opcode data).2 := by
  have hc : Talks baseId moduleId e₀ e.countData (n + 1) 1 1 := h.update rfl rfl
  unfold Engine.receiveData
  split
  · exact hc.breakOff hs
  · split
    · exact hc.deliverData hs ..
    · exact hc.receiveFirstData hs ..

end Talks

namespace Stage

theorem receiveSetup (h : Talks baseId moduleId e₀ e (n + 1) 1 0) (hs : e.channel.state = .setup)
    (hw : 0 < e.wait) {frame : Frame} (hb : frame.bus = e.bus) (hc : e.isChannelFrame frame = true)
    (hr : ¬ e.Rejects frame) :
    Stage baseId moduleId e₀ (e.receiveSetup (min frame.dlc 8) frame.data).2 := by
  unfold Engine.receiveSetup
  by_cases hl : min frame.dlc 8 ≠ 7 ∨ frame.data[1] < Opcode.setupAccept ∨ Opcode.setupRejectMax < frame.data[1]
  · rw [if_pos hl]
    exact .opening h hs hw
  · rw [if_neg hl]
    simp only [not_or, Decidable.not_not, UInt8.not_lt] at hl
    by_cases hne : frame.data[1] ≠ Opcode.setupAccept
    · rw [if_pos hne]
      refine absurd ⟨hb, hc, hs, by omega, ?_, ?_⟩ hr
      · rw [getD_one]
        exact UInt8.lt_of_le_of_ne hl.2.1 (Ne.symm hne)
      · rw [getD_one]
        exact hl.2.2
    · rw [if_neg hne]
      refine Talks.requestParams (h.plain h.line h.allSent rfl rfl rfl ?_ (.of_log rfl)) hs
      rfl

theorem receiveParams (h : Talks baseId moduleId e₀ e (n + 1) 1 1) (hs : e.channel.state = .params)
    (hw : 0 < e.wait) {frame : Frame} (hb : frame.bus = e.bus) (hc : e.isChannelFrame frame = true)
    (hd : ¬ e.Disconnects frame) :
    Stage baseId moduleId e₀ (e.receiveParams (min frame.dlc 8) frame.data).2 := by
  unfold Engine.receiveParams
  by_cases hl : min frame.dlc 8 = 0
  · rw [if_pos hl]
    exact .busy h (.inl hs) hw
  · rw [if_neg hl]
    split
    · refine Talks.sendRequest (h.plain h.line h.allSent rfl rfl rfl ?_ (.of_log rfl))
      rfl
    · by_cases hop : Frame.leadByte frame.data = Opcode.disconnect
      · rw [if_pos hop]
        exact absurd ⟨hb, hc, .inl ⟨hs, by omega⟩, hop⟩ hd
      · rw [if_neg hop]
        exact .busy h (.inl hs) hw

theorem receiveAck (h : Talks baseId moduleId e₀ e (n + 1) 1 1) (hs : e.channel.state = .transmit)
    (hw : 0 < e.wait) {opcode : UInt8} (hd : opcode ≠ Opcode.disconnect) :
    Stage baseId moduleId e₀ (e.receiveAck opcode) := by
  have hstay : Stage baseId moduleId e₀ e := .busy h (.inr (.inl hs)) hw
  unfold Engine.receiveAck
  rw [if_neg hd]
  split
  · split
    · exact h.sendBlock
    · unfold awaitResponse
      rw [if_neg (by rw [hs]; decide)]
      exact .busy (h.update rfl rfl) (.inr (.inr rfl)) Nat.zero_lt_two
  · split
    · have hl : Talks baseId moduleId e₀ { e with out := e.out.clear } (n + 1) 1 1 := h.update rfl rfl
      exact hl.goIdle (by rw [hs]; decide)
    · split
      · exact hstay.transmit trivial
      · exact hstay

theorem receiveResponse (h : Talks baseId moduleId e₀ e (n + 1) 1 1) (hs : e.channel.state = .receive)
    (hw : 0 < e.wait) {opcode : UInt8} (hd : opcode ≠ Opcode.disconnect) (data : List UInt8) :
    Stage baseId moduleId e₀ (e.receiveResponse opcode data).2 := by
  have hstay : Stage baseId moduleId e₀ e := .busy h (.inr (.inr hs)) hw
  unfold Engine.receiveResponse
  rw [if_neg hd]
  split
  · exact hstay.transmit trivial
  · split
    · exact h.receiveData hs ..
    · exact hstay

theorem receiveIdle (h : Talks baseId moduleId e₀ e (n + 1) 1 1) (hs : e.channel.state = .idle)
    (hw : e.wait = 0) {opcode : UInt8} (hd : opcode ≠ Opcode.disconnect) :
    Stage baseId moduleId e₀ (e.receiveIdle opcode) := by
  have hstay : Stage baseId moduleId e₀ e := .idle h hs hw
  unfold Engine.receiveIdle
  rw [if_neg hd]
  split
  · exact hstay.transmit trivial
  · split
    · have hc : Stage baseId moduleId e₀
          { e with channel := { e.channel with rxSeq := e.channel.rxSeq + 1 } } :=
        .idle (h.update rfl rfl) hs hw
      exact hc.transmit trivial
    · exact hstay

/-- A frame on the channel moves it on, as long as the module neither turns it down nor closes it. -/
theorem channelStep (h : Stage baseId moduleId e₀ e) {frame : Frame} (hb : frame.bus = e.bus)
    (hc : e.isChannelFrame frame = true) (hr : ¬ e.Rejects frame) (hd : ¬ e.Disconnects frame) :
    Stage baseId moduleId e₀ (e.channelStep frame).2 := by
  cases h with
  | closed h hs => simp [isChannelFrame, Channel.isOpen, hs] at hc
  | opening h hs hw =>
    simp only [Engine.channelStep, hs]
    exact receiveSetup h hs hw hb hc hr
  | busy h hs hw =>
    rcases hs with hs | hs | hs <;> simp only [Engine.channelStep, hs]
    · exact receiveParams h hs hw hb hc hd
    · refine receiveAck h hs hw fun hop => ?_
      split at hop
      · exact hd ⟨hb, hc, .inr (.inl ⟨hs, by omega⟩), hop⟩
      · exact absurd hop (by decide)
    · exact receiveResponse h hs hw (fun hop => hd ⟨hb, hc, .inr (.inr (.inr hs)), hop⟩) _
  | idle h hs hw =>
    simp only [Engine.channelStep, hs]
    exact receiveIdle h hs hw fun hop => hd ⟨hb, hc, .inr (.inr (.inl hs)), hop⟩

end Stage

/-! ### Operations -/

/-- The operation leaves the channel to the polls of the module. The module neither turns the channel down nor
closes it. A primary tick finds either an answer that is still to come in time, or a channel that was used within
the keepalive. Every write succeeds, and there are no single requests and no other list or poll state. -/
def Orderly (e : Engine) : Operation → Prop
  | .frame frame => ¬ e.Rejects frame ∧ ¬ e.Disconnects frame
  | .tick primary => primary = true → (0 < e.wait → e.Outlasts) ∧
    (e.channel.state = .idle → e.keepalive = 0 ∨ e.channel.unusedFor e.now e.keepalive = false)
  | .txComplete _ success => success = true
  | .setState state => Schedule.clampState state = e.schedule.state
  | .submit _ | .setList _ _ | .shutdown | .setRoom _ => False
  | _ => True

instance (e : Engine) : DecidablePred e.Orderly
  | .frame _ => inferInstanceAs (Decidable (¬ _ ∧ ¬ _))
  | .tick primary => inferInstanceAs (Decidable (primary = true → (_ → _) ∧ (_ → _)))
  | .txComplete _ success => inferInstanceAs (Decidable (success = true))
  | .setState _ => inferInstanceAs (Decidable (_ = _))
  | .submit _ | .setList _ _ | .shutdown | .setRoom _ => .isFalse id
  | .sendSuccess | .setPaused _ | .setSequenceMax _ | .setSeptime _ | .setKeepalive _ | .setBetween _
  | .elapse _ => .isTrue trivial

/-- All operations of the run are orderly when they come. -/
def Undisturbed : Engine → List Operation → Prop
  | _, [] => True
  | e, op :: ops => e.Orderly op ∧ Undisturbed (e.step op) ops

instance decidableUndisturbed : (e : Engine) → (ops : List Operation) → Decidable (Undisturbed e ops)
  | _, [] => .isTrue trivial
  | e, op :: ops =>
    have := decidableUndisturbed (e.step op) ops
    inferInstanceAs (Decidable (_ ∧ _))

namespace Stage
variable (h : Stage baseId moduleId e₀ e)
include h

theorem frame (hm : moduleId ≠ 0) {frame : Frame} (hop : e.Orderly (.frame frame)) :
    Reuses baseId moduleId e₀ (e.step (.frame frame)) := by
  have hother : e.receiveOther frame = e := by
    unfold receiveOther
    cases h with
    | closed h hs hw => simp [hw]
    | opening h | busy h | idle h => simp [h.isVwtp]
  by_cases hc : frame.bus = e.bus ∧ e.isChannelFrame frame = true
  · obtain ⟨hb, hc⟩ := hc
    have hbound : e.channel.bound = true := by
      cases h with
      | closed h hs => simp [isChannelFrame, Channel.isOpen, hs] at hc
      | opening h | busy h | idle h =>
        have hfor := h.isFor
        simp only [Channel.isFor, Bool.and_eq_true] at hfor
        exact hfor.1.1
    rw [step_frame_channel hb hc hbound]
    exact ((h.channelStep hb hc hop.1 hop.2).chained hm _).settle
  · show Reuses baseId moduleId e₀ (e.handleFrame frame)
    unfold handleFrame
    by_cases hb : frame.bus ≠ e.bus
    · rw [if_pos hb]
      exact .inl h
    · rw [if_neg hb]
      rw [if_neg fun hc' => hc ⟨Decidable.not_not.1 hb, hc'⟩, hother]
      exact .inl h.settle

theorem countDown (hop : e.Orderly (.tick true)) :
    Stage baseId moduleId e₀ e.countDown := by
  obtain ⟨hlasts, hkeep⟩ := hop rfl
  obtain ⟨_, _, _, ht⟩ := h.traffic
  by_cases hw : 0 < e.wait
  · have hstate : e.channel.state ≠ .closing := by
      cases h with
      | closed h hs | opening h hs | idle h hs => rw [hs]; decide
      | busy h hs => rcases hs with hs | hs | hs <;> (rw [hs]; decide)
    obtain ⟨wait, hpos, heq⟩ := (hlasts hw).countDown fun hc => absurd hc hstate
    rw [heq]
    refine h.plain id id rfl rfl rfl rfl ?_ (.of_log rfl)
    show wait = 0 ↔ e.wait = 0
    omega
  · -- Nothing is awaited, so that `keepChannel` can only close a channel that is unused.
    have hw : e.wait = 0 := by omega
    have hstate : e.channel.state = .closed ∨ e.channel.state = .idle := by
      cases h with
      | closed h hs => exact .inl hs
      | idle h hs => exact .inr hs
      | opening | busy => omega
    have hrest : { e with wait := 0 }.keepChannel = { e with wait := 0 } := by
      unfold keepChannel timeOutChannel closeUnused
      rcases hstate with hs | hs
      · simp [hs]
      · rcases hkeep hs with hk | hk <;> simp [hs, hk]
    have heq : e.countDown = { e with wait := 0 } := by
      unfold Engine.countDown expireSingle
      rw [hw, hrest, ht.single]
    rw [heq]
    refine h.plain id id rfl rfl rfl rfl ?_ (.of_log rfl)
    exact ⟨fun _ => hw, fun _ => rfl⟩

theorem tick (hm : moduleId ≠ 0) {primary : Bool}
    (hop : e.Orderly (.tick primary)) : Reuses baseId moduleId e₀ (e.tick primary) := by
  cases primary with
  | false =>
    have hs : Stage baseId moduleId e₀ { e with schedule := e.schedule.resetSequence } := h.update
    exact (hs.sendNext hm false).settle
  | true =>
    have hb : Stage baseId moduleId e₀ (e.emit (.stateTicker e.bus)) := h.emit trivial
    have hs : Stage baseId moduleId e₀
        { e.emit (.stateTicker e.bus) with schedule := e.schedule.resetSequence } := hb.update
    refine ((hs.countDown fun _ => ⟨fun hw => ?_, (hop rfl).2⟩).sendNext hm true).settle
    obtain ⟨hwait, hcoming, hsingle⟩ := (hop rfl).1 hw
    exact ⟨hwait, hcoming, hsingle⟩

theorem sendSuccess (hm : moduleId ≠ 0) : Reuses baseId moduleId e₀ e.sendSuccess := by
  have hd : Stage baseId moduleId e₀ { e with successDue := none } := h.update
  unfold Engine.sendSuccess
  split
  · dsimp only
    split
    · exact (hd.sendNext hm false).settle
    · exact .inl hd.settle
  · exact .inl h

theorem step (hm : moduleId ≠ 0) {op : Operation} (hop : e.Orderly op) :
    Reuses baseId moduleId e₀ (e.step op) := by
  cases op with
  | frame frame => exact h.frame hm hop
  | tick primary => exact h.tick hm hop
  | txComplete frame success =>
    obtain rfl : success = true := hop
    obtain ⟨received, new, heq, hnew⟩ := judgeResult_good e frame
    show Reuses baseId moduleId e₀ (e.judgeResult frame true).settle
    rw [heq]
    refine .inl (Stage.settle ?_)
    exact h.plain id id rfl rfl rfl rfl .rfl ⟨new, rfl, fun s hs => (hnew s hs).isPlain⟩
  | sendSuccess => exact h.sendSuccess hm
  | setState state =>
    have hsame : e.setState state = { e with schedule := e.schedule.setState state } := by
      unfold setState
      rw [show Schedule.clampState state = e.schedule.state from hop]
      simp
    show Reuses baseId moduleId e₀ (e.setState state)
    rw [hsame]
    exact .inl h.update
  | submit | setList | shutdown | setRoom => exact hop.elim
  | setPaused | setSequenceMax | setSeptime | setKeepalive | setBetween | elapse => exact .inl h.update

end Stage

theorem Reuses.run (h : Reuses baseId moduleId e₀ e) (hm : moduleId ≠ 0) {ops : List Operation}
    (hops : Undisturbed e ops) : Reuses baseId moduleId e₀ (e.run ops) := by
  induction ops generalizing e with
  | nil => exact h
  | cons op ops ih =>
    refine ih ?_ hops.2
    rcases h with h | h
    · exact h.step hm hops.1
    · exact .inr (h.grows (Grows.step e op).log)

/-! ### Every run -/

end Engine

end EcuPoll
