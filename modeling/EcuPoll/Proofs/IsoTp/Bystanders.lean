import EcuPoll.Proofs.Engine.Fates
import EcuPoll.Proofs.IsoTp.Answers
import EcuPoll.Proofs.Vwtp.Waiting

/-!
# What passes by a poll over ISO-TP

While the responder of a poll is awaited, much may happen that is no business of the poll: time passes, ticks
count the wait down, the rest of the request goes out, frames of others come in. Such an operation (`PassesBy`)
leaves the poll, the single request and the replies what they are (`Lingers`). `Incoming` says that frames come in
one after the other with nothing else in between; unless the poll accepts one of them, all of this passes by
(`Incoming.lingers`).
-/

namespace EcuPoll

/-- A tick begins, a frame of the poll in flight is on the bus, or a frame is written that does not let a response
go on. -/
def Event.IsPassing (event : Event) : Prop :=
  event.IsMinor ∨ event.IsWork

theorem Event.IsPassing.isQuiet {event : Event} (h : event.IsPassing) : event.IsQuiet :=
  h.elim IsMinor.isQuiet IsWork.isQuiet

namespace Engine
variable {entry : PollEntry} {e e' e'' : Engine} {frame : Frame} {frames : List Frame} {ops : List Operation}

/-- The poll for the entry runs over ISO-TP, its responder is awaited, and the bus takes every write. -/
structure Pending (entry : PollEntry) (e : Engine) : Prop where
  isoTp : entry.protocol ≠ .vwtp20
  asks : e.job.Asks entry
  wait_pos : 0 < e.wait
  line : e.line.TakesAll
  allSent : e.AllSent
  queue : e.single.isSome = true ∨ e.queued = []

/-- The poll in flight and the single request stay what they are, and the responder is still awaited. -/
structure Lingers (e e' : Engine) : Prop where
  bus : e'.bus = e.bus
  job : ∃ received, e'.job = { e.job with received }
  single : e'.single = e.single
  wait_pos : 0 < e'.wait
  line : e'.line.TakesAll
  allSent : e'.AllSent
  queue : e'.single.isSome = true ∨ e'.queued = []
  log : Adds Event.IsPassing e e'

namespace Pending

theorem isVwtp (h : Pending entry e) : e.job.isVwtp = false := by
  rw [PollJob.isVwtp, h.asks.protocol, beq_eq_false_iff_ne]
  exact h.isoTp

theorem entry_eq (h : Pending entry e) : e.job.entry = some entry := congrArg (·.1) h.asks

theorem responseId (h : Pending entry e) (frame : Frame) :
    e.responseId frame = entry.protocol.isoTpSender frame := by
  rw [Engine.responseId, h.asks.protocol]

theorem lingers (h : Pending entry e) : Lingers e e :=
  ⟨rfl, ⟨e.job.received, rfl⟩, rfl, h.wait_pos, h.line, h.allSent, h.queue, .refl e⟩

theorem of_lingers (h : Pending entry e) (hl : Lingers e e') : Pending entry e' := by
  obtain ⟨received, hj⟩ := hl.job
  refine ⟨h.isoTp, ?_, hl.wait_pos, hl.line, hl.allSent, hl.queue⟩
  rw [hj]
  exact h.asks

theorem receiveOther (h : Pending entry e) (frame : Frame) : e.receiveOther frame =
    if e.job.accepts (entry.protocol.isoTpSender frame) then
      e.receiveIsoTp frame (entry.protocol.isoTpSender frame) else e := by
  unfold Engine.receiveOther
  rw [h.responseId, h.isVwtp, h.entry_eq]
  simp only [Bool.not_false, h.wait_pos, decide_true, Option.isSome_some, Bool.true_and]

end Pending

namespace Lingers

theorem accepts (h : Lingers e e') (id : UInt32) : e'.job.accepts id = e.job.accepts id := by
  obtain ⟨received, hj⟩ := h.job
  rw [hj]
  rfl

theorem trans (h : Lingers e e') (h' : Lingers e' e'') : Lingers e e'' where
  bus := h'.bus.trans h.bus
  job := by
    obtain ⟨received, hj⟩ := h.job
    obtain ⟨received', hj'⟩ := h'.job
    exact ⟨received', by rw [hj', hj]⟩
  single := h'.single.trans h.single
  wait_pos := h'.wait_pos
  line := h'.line
  allSent := h'.allSent
  queue := h'.queue
  log := h.log.trans h'.log

theorem of_waited (hl : e.line.TakesAll) (h : Waited e e') : Lingers e e' where
  bus := h.bus
  job := h.job
  single := h.single
  wait_pos := h.wait_pos
  line := h.line ▸ hl
  allSent := h.allSent
  queue := h.queue
  log := h.log.mono fun _ => .inl

theorem settle (h : Lingers e e') : Lingers e e'.settle := by
  obtain ⟨received, new, heq, hnew⟩ := settle_good h.allSent h.queue
  refine h.trans ?_
  rw [heq]
  exact ⟨rfl, ⟨received, rfl⟩, rfl, h.wait_pos, h.line, .of_nil rfl, h.queue, new, rfl,
    fun s hs => .inl (hnew s hs).isMinor⟩

theorem update (h : Lingers e e') (now : Nat) {wait : Nat} (hw : 0 < wait) (out : Outbound) :
    Lingers e { e' with now, wait, out } :=
  h.trans ⟨rfl, ⟨e'.job.received, rfl⟩, rfl, hw, h.line, h.allSent, h.queue, .of_log rfl⟩

theorem waiting (h : Lingers e e') {wait : Nat} (hw : 0 < wait) : Lingers e { e' with wait } :=
  h.update e'.now hw e'.out

theorem transmit (h : Lingers e e') {kind : FrameKind} (hk : kind ≠ .flowControl) (frame : Frame) :
    Lingers e (e'.transmit kind frame) := by
  have hsent := h.allSent.transmit h.line kind frame
  rw [transmit_good h.line] at hsent ⊢
  refine h.trans ⟨rfl, ⟨e'.job.received, rfl⟩, rfl, h.wait_pos, h.line.asOf _, hsent, h.queue, [_], rfl, ?_⟩
  simpa [Event.IsPassing, Event.IsWork] using .inr hk

/-! ### The rest of the request -/

theorem sendConsecutive (h : Lingers e e') (target : UInt32) : Lingers e (e'.sendConsecutive target) :=
  (h.update e'.now h.wait_pos _).transmit (by nofun) _

theorem burst (target : UInt32) (delay count : Nat) (h : Lingers e e') :
    Lingers e (Engine.burst target delay count e') := by
  induction count generalizing e' with
  | zero => exact h
  | succ count ih =>
    have hone := h.sendConsecutive target
    unfold Engine.burst
    split
    · exact h
    · dsimp only
      split
      · exact hone
      · exact ih (hone.update _ hone.wait_pos _)

theorem isoTpFlow (h : Lingers e e') (id : UInt32) (command blockSize septime : UInt8) :
    Lingers e (e'.isoTpFlow id command blockSize septime) := by
  unfold Engine.isoTpFlow
  split
  · exact h
  · split
    · exact h
    · exact h.waiting (by omega)
    · exact h.update e'.now h.wait_pos _
    · dsimp only
      split
      · exact (h.burst ..).waiting Nat.zero_lt_two
      · exact h.burst ..

end Lingers

/-! ### Frames of others -/

theorem receiveOpening_beside (ha : e.job.Asks entry) (hw : 0 < e.wait) {data : List UInt8}
    (hd : entry.IsForeign data ∨ entry.IsPending data) (id : UInt32) (total : UInt16) (first : Bool) :
    ∃ wait, 0 < wait ∧ e.receiveOpening id total data first = { e with wait } := by
  have hservice := ha.service
  have hpid := ha.pid
  unfold receiveOpening
  rcases hd with ⟨hanswer, hrefusal⟩ | ⟨rest, hrest⟩
  · rw [judge_foreign (by rw [hservice, hpid]; exact hanswer) (by rw [hservice]; exact hrefusal)]
    exact ⟨e.wait, hw, rfl⟩
  · rw [← hrest, List.cons_append, List.cons_append, List.cons_append, ← hservice, judge_refused]
    exact ⟨min 255 (e.wait + 1), by omega, rfl⟩

/-- The frame has nothing to say to the poll in flight, be it for its sender or for what it holds. -/
inductive Disregards (entry : PollEntry) (e : Engine) (frame : Frame) : Prop
  | sender (h : e.job.accepts (entry.protocol.isoTpSender frame) = false)
  | unknown (h : Segment.ofBytes? (entry.protocol.isoTpData frame) = none)
  | beside {segment : Segment} (h : Segment.ofBytes? (entry.protocol.isoTpData frame) = some segment)
    (hb : entry.IsBeside segment)

theorem Pending.receiveOther_disregarded (h : Pending entry e) (hd : Disregards entry e frame) :
    Lingers e (e.receiveOther frame) := by
  have hl := h.lingers
  rw [h.receiveOther]
  by_cases haccepts : e.job.accepts (entry.protocol.isoTpSender frame) = true
  · rw [if_pos haccepts]
    unfold Engine.receiveIsoTp
    rw [h.asks.protocol]
    cases hd with
    | sender hs => simp [hs] at haccepts
    | unknown hs => rw [hs]; exact hl
    | beside hs hb =>
      rw [hs]
      cases hb with
      | single hd | first _ hd =>
        obtain ⟨wait, hw, heq⟩ := receiveOpening_beside h.asks h.wait_pos hd
          (entry.protocol.isoTpSender frame) _ _
        dsimp only
        rw [heq]
        exact hl.waiting hw
      | flow => exact hl.isoTpFlow ..
  · rw [if_neg haccepts]
    exact hl

/-- The operation is no business of the poll in flight, and does not end its wait. -/
def PassesBy (entry : PollEntry) (e : Engine) : Operation → Prop
  | .frame frame => frame.bus ≠ e.bus ∨ e.isChannelFrame frame = false ∧ Disregards entry e frame
  | .txComplete frame success => success = true ∨ frame.id ≠ e.job.txId
  | .setRoom room => room = none
  | op => e.Abides op ∧ (op = .tick true → e.ClosesLater)

theorem PassesBy.lingers (h : Pending entry e) {op : Operation} (hop : PassesBy entry e op) :
    Lingers e (e.step op) := by
  have hl := h.lingers
  have haside (hab : e.Abides op ∧ (op = .tick true → e.ClosesLater)) (hf : ∀ frame, op ≠ .frame frame) :
      Lingers e (e.step op) :=
    .of_waited h.line (Abides.aside h.wait_pos h.allSent h.queue hab.1 hf hab.2)
  cases op with
  | frame frame =>
    by_cases hb : frame.bus = e.bus
    · obtain ⟨hc, hd⟩ := hop.resolve_left (not_not_intro hb)
      rw [step_frame_other hb hc]
      exact (h.receiveOther_disregarded hd).settle
    · rw [show e.step (.frame frame) = e from if_pos hb]
      exact hl
  | txComplete frame success =>
    show Lingers e (e.judgeResult frame success).settle
    rcases hop with rfl | hi
    · obtain ⟨received, new, heq, hnew⟩ := judgeResult_good e frame
      have hsent : Lingers e { e with job := { e.job with received }, log := new ++ e.log } :=
        ⟨rfl, ⟨received, rfl⟩, rfl, h.wait_pos, h.line, h.allSent, h.queue, new, rfl,
          fun s hs => .inl (hnew s hs).isMinor⟩
      rw [heq]
      exact hsent.settle
    · rw [judgeResult_other hi]
      exact hl.settle
  | setRoom room =>
    obtain rfl : room = none := hop
    refine ⟨rfl, hl.job, rfl, h.wait_pos, ⟨h.line.1, fun change hc => ?_⟩, h.allSent, h.queue, .of_log rfl⟩
    rcases List.mem_append.1 hc with hc | hc
    · exact h.line.2 change hc
    · rw [List.mem_singleton.1 hc]
  | _ => exact haside hop nofun

/-! ### Frames that come in one after the other -/

/-- The frames come in, in order and none of them on the channel, and everything else passes by. -/
inductive Incoming (entry : PollEntry) : List Frame → Engine → List Operation → Prop
  | nil (e : Engine) : Incoming entry [] e []
  | frame {frame : Frame} {frames : List Frame} {e : Engine} {ops : List Operation}
    (hc : e.isChannelFrame frame = false) (ht : Incoming entry frames (e.step (.frame frame)) ops) :
    Incoming entry (frame :: frames) e (.frame frame :: ops)
  | aside {frames : List Frame} {e : Engine} {op : Operation} {ops : List Operation}
    (h : PassesBy entry e op) (ht : Incoming entry frames (e.step op) ops) : Incoming entry frames e (op :: ops)

namespace Incoming

theorem snoc (h : Incoming entry frames e ops) (hc : (e.run ops).isChannelFrame frame = false) :
    Incoming entry (frames ++ [frame]) e (ops ++ [.frame frame]) := by
  induction h with
  | nil e => exact .frame hc (.nil _)
  | frame hc' _ ih => exact .frame hc' (ih hc)
  | aside hop _ ih => exact .aside hop (ih hc)

theorem uncons (h : Incoming entry (frame :: frames) e ops) : ∃ before after,
    ops = before ++ .frame frame :: after ∧ Incoming entry [] e before ∧
      (e.run before).isChannelFrame frame = false ∧
      Incoming entry frames (e.run (before ++ [.frame frame])) after := by
  generalize hall : frame :: frames = all at h
  induction h with
  | nil => cases hall
  | @frame _ _ e ops hc ht =>
    cases hall
    exact ⟨[], ops, rfl, .nil e, hc, ht⟩
  | aside hop _ ih =>
    obtain ⟨before, after, rfl, hbefore, hc, hafter⟩ := ih hall
    exact ⟨_ :: before, after, rfl, .aside hop hbefore, hc, hafter⟩

/-- If the poll accepts none of the frames, they pass by as well. -/
theorem lingers (hp : Pending entry e) (h : Incoming entry frames e ops)
    (hno : ∀ frame ∈ frames, e.job.accepts (entry.protocol.isoTpSender frame) = false) :
    Lingers e (e.run ops) := by
  induction h with
  | nil e => exact hp.lingers
  | @frame frame frames e ops hc _ ih =>
    rw [List.forall_mem_cons] at hno
    have hl : Lingers e (e.step (.frame frame)) :=
      PassesBy.lingers hp (.inr ⟨hc, .sender hno.1⟩)
    exact hl.trans (ih (hp.of_lingers hl) fun frame hmem => (hl.accepts _).trans (hno.2 frame hmem))
  | aside hop _ ih =>
    have hl := PassesBy.lingers hp hop
    exact hl.trans (ih (hp.of_lingers hl) fun frame hmem => (hl.accepts _).trans (hno frame hmem))

end Incoming

end Engine

end EcuPoll
