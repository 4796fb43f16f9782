import EcuPoll.Engine.Operation
import EcuPoll.Proofs.Engine.Settled
import EcuPoll.Proofs.IsoTp.Pieces

/-!
# How a request is sent in segments

`Transfer sent e` says that the opening of a request and `sent` of its consecutive frames are on the bus,
and nothing else of it. A flow control frame moves an engine from `sent` to a later place
(`Transfer.flow`), so that any exchange with the responder sends a part of the message, from its start and
in order: `segmentation`.
-/

namespace EcuPoll

/-- What the receiver of a request says in a flow control frame. -/
inductive Flow
  | goOn (blockSize septime : UInt8)
  | wait (blockSize septime : UInt8)
deriving DecidableEq, Repr

namespace Flow

def segment : Flow → Segment
  | goOn blockSize septime => .flow 0 blockSize septime
  | wait blockSize septime => .flow 1 blockSize septime

/-- The consecutive frames that it lets through when `left` are needed; a block size of zero stands for
all of them. -/
def more (left : Nat) : Flow → Nat
  | goOn blockSize _ => if blockSize = 0 then left else min blockSize.toNat left
  | wait _ _ => 0

/-- The least time between these frames, in µs. -/
def delay : Flow → Nat
  | goOn _ septime => separationDelay septime
  | wait _ _ => 0

/-- The same in whole ms: a pause never ends early. -/
def gap (flow : Flow) : Nat := (flow.delay + 999) / 1000

/-- The consecutive frames that have been let through, of which `sent` were before. -/
def granted (needed : Nat) (flows : List Flow) (sent : Nat) : Nat :=
  flows.foldl (fun sent flow => sent + flow.more (needed - sent)) sent

theorem delay_le (flow : Flow) : flow.delay ≤ 1000 * flow.gap := by
  unfold gap
  omega

theorem more_le (left : Nat) (flow : Flow) : flow.more left ≤ left := by
  unfold more
  split
  · split
    · exact Nat.le_refl _
    · exact Nat.min_le_right ..
  · exact Nat.zero_le _

end Flow

namespace PollEntry

/-- Where consecutive frames go after a frame from `id`: to the responder of a broadcast, or to the
module that the request was sent to. -/
def consecutiveTarget (entry : PollEntry) (id : UInt32) : UInt32 :=
  if entry.target = broadcastTx then id - 8 else entry.target

/-- A flow control frame from a module that may answer the request. -/
structure Hears (entry : PollEntry) (bus : BusId) (frame : Frame) (flow : Flow) : Prop where
  bus_eq : frame.bus = bus
  low_le : entry.responders.1 ≤ entry.protocol.isoTpSender frame
  le_high : entry.protocol.isoTpSender frame ≤ entry.responders.2
  content : Segment.ofBytes? (entry.protocol.isoTpData frame) = some flow.segment

/-- Flow control frames come in, at any time, and nothing else happens. -/
inductive Exchange (entry : PollEntry) (bus : BusId) : List Operation → List Flow → Prop
  | nil : Exchange entry bus [] []
  | elapse {ops : List Operation} {flows : List Flow} (ms : Nat) (h : Exchange entry bus ops flows) :
    Exchange entry bus (.elapse ms :: ops) flows
  | frame {ops : List Operation} {flows : List Flow} {frame : Frame} {flow : Flow}
    (hf : entry.Hears bus frame flow) (h : Exchange entry bus ops flows) :
    Exchange entry bus (.frame frame :: ops) (flow :: flows)

/-- The message bytes in all frames of a log, padding included. -/
def carried (entry : PollEntry) (log : List Stamped) : List UInt8 :=
  (writes log).flatMap fun w => entry.protocol.carried w.frame

theorem carried_append (entry : PollEntry) (new log : List Stamped) :
    entry.carried (new ++ log) = entry.carried log ++ entry.carried new := by
  rw [carried, writes_append, List.flatMap_append, carried, carried]

end PollEntry

namespace Engine
variable {entry : PollEntry} {bus : BusId} {base : List Stamped} {sent : Nat} {e : Engine}

/-- The opening and `sent` consecutive frames of the request are on the bus, since the log `base`. -/
structure Transfer (entry : PollEntry) (bus : BusId) (base : List Stamped) (sent : Nat) (e : Engine) :
    Prop where
  bus_eq : e.bus = bus
  entry_eq : e.job.entry = some entry
  protocol_eq : e.job.protocol = entry.protocol
  isoTp : entry.protocol ≠ .vwtp20
  sent_eq : e.job.sent = entry.target
  low_eq : e.job.low = entry.responders.1
  high_eq : e.job.high = entry.responders.2
  closed : e.channel.state = .closed
  wait_pos : 0 < e.wait
  line : e.line.TakesAll
  allSent : e.AllSent
  queue : e.single.isSome = true ∨ e.queued = []
  carries : e.out.Carries entry
  frame_eq : e.out.frame = UInt16.ofNat sent
  offset_eq : entry.header.length + e.out.offset = min (entry.parcel.reach sent) entry.parcel.message.length
  le_pieces : sent ≤ entry.parcel.pieces
  log : ∃ new, e.log = new ++ base ∧ entry.carried new = entry.parcel.padded (entry.parcel.reach sent)

namespace Transfer

theorem remaining (h : Transfer entry bus base sent e) :
    e.out.remaining = entry.parcel.message.length - entry.parcel.reach sent := by
  rw [h.carries.remaining, h.offset_eq, ← entry.message_parcel]
  omega

theorem remaining_eq_zero_iff (h : Transfer entry bus base sent e) :
    e.out.remaining = 0 ↔ sent = entry.parcel.pieces := by
  have hle := h.le_pieces
  have hlt := entry.parcel.lt_pieces_iff sent
  rw [h.remaining]
  omega

/-- Fewer frames than bytes are needed for the rest. -/
theorem pieces_le_remaining (h : Transfer entry bus base sent e) :
    entry.parcel.pieces - sent ≤ e.out.remaining := by
  have hstride := entry.parcel.stride_bounds
  rw [h.remaining]
  rcases Nat.eq_zero_or_pos (entry.parcel.pieces - sent) with h0 | hpos
  · omega
  · have hlast := (entry.parcel.lt_pieces_iff (entry.parcel.pieces - 1)).1 (by omega)
    have hreach : entry.parcel.reach (entry.parcel.pieces - 1) =
        entry.parcel.reach sent + (entry.parcel.pieces - 1 - sent) * entry.parcel.stride := by
      rw [Parcel.reach, Parcel.reach, Nat.add_assoc, ← Nat.add_mul]
      congr 2
      omega
    have hmul : entry.parcel.pieces - 1 - sent ≤ (entry.parcel.pieces - 1 - sent) * entry.parcel.stride :=
      Nat.le_mul_of_pos_right _ (by omega)
    omega

/-- What is not part of the transfer may change: time passes, the wait goes on, and sent frames are
reported. -/
theorem update (h : Transfer entry bus base sent e) (now wait : Nat) (received : UInt32)
    (results : List (Frame × Bool)) (new : List Stamped) (hw : 0 < wait)
    (hr : ∀ r ∈ results, r.2 = true) (hn : ∀ s ∈ new, s.event.IsSent) :
    Transfer entry bus base sent { e with
      now, wait, results, job := { e.job with received }, log := new ++ e.log } := by
  obtain ⟨old, hold, hc⟩ := h.log
  have hnil : entry.carried new = [] := by
    rw [PollEntry.carried, writes_eq_nil fun s hs => (hn s hs).not_isWrite]
    rfl
  exact { h with
    wait_pos := hw
    allSent := hr
    log := ⟨new ++ old, by rw [List.append_assoc, ← hold],
      by rw [entry.carried_append, hnil, List.append_nil, hc]⟩ }

theorem settle (h : Transfer entry bus base sent e) : Transfer entry bus base sent e.settle ∧
    ∃ new, e.settle.log = new ++ e.log ∧ writes new = [] := by
  obtain ⟨received, new, heq, hnew⟩ := settle_good h.allSent h.queue
  rw [heq]
  exact ⟨h.update e.now e.wait received [] new h.wait_pos (by simp) hnew, new, rfl,
    writes_eq_nil fun s hs => (hnew s hs).not_isWrite⟩

theorem later (h : Transfer entry bus base sent e) (now : Nat) :
    Transfer entry bus base sent { e with now } :=
  h.update now e.wait e.job.received e.results [] h.wait_pos h.allSent (by simp)

/-! ### Consecutive frames -/

/-- The next consecutive frame carries the next piece of the message. -/
theorem sendConsecutive (h : Transfer entry bus base sent e) (hs : sent < entry.parcel.pieces)
    (target : UInt32) : Transfer entry bus base (sent + 1) (e.sendConsecutive target) ∧
      (e.sendConsecutive target).now = e.now ∧
      ∃ s, (e.sendConsecutive target).log = s :: e.log ∧ s.write? = some ⟨e.now, .consecutive,
        entry.protocol.isoTpFrame bus target (entry.parcel.consecutive sent)⟩ := by
  have hlt := (entry.parcel.lt_pieces_iff sent).1 hs
  have hoff : entry.header.length + e.out.offset = entry.parcel.reach sent := by
    rw [h.offset_eq, Nat.min_eq_left (Nat.le_of_lt hlt)]
  have hnum : e.out.frame + 1 = UInt16.ofNat (sent + 1) := by
    rw [h.frame_eq, UInt16.ofNat_add]
    rfl
  have hbytes : Segment.consecutiveHeader (e.out.frame + 1) ++ e.out.chunk entry.parcel.stride =
      entry.parcel.consecutive sent := by
    rw [hnum, Segment.consecutiveHeader_ofNat, h.carries.chunk, hoff]
    rfl
  have heq : e.sendConsecutive target = { e with
      out := (e.out.advance entry.parcel.stride).countFrame }.transmit .consecutive
        (entry.protocol.isoTpFrame bus target (entry.parcel.consecutive sent)) := by
    unfold Engine.sendConsecutive
    dsimp only [isoTpFrame, isoTpRoom]
    rw [h.protocol_eq, h.bus_eq]
    exact congrArg (fun bytes => Engine.transmit _ _ (entry.protocol.isoTpFrame bus target bytes)) hbytes
  have hall : ({ e with out := (e.out.advance entry.parcel.stride).countFrame }.transmit .consecutive
      (entry.protocol.isoTpFrame bus target (entry.parcel.consecutive sent))).AllSent :=
    AllSent.transmit (e := { e with out := (e.out.advance entry.parcel.stride).countFrame }) h.allSent
      h.line _ _
  rw [heq]
  rw [transmit_good (by exact h.line)] at hall ⊢
  obtain ⟨old, hold, hc⟩ := h.log
  refine ⟨{ h with
    line := h.line.asOf _
    allSent := hall
    carries := (h.carries.advance _).countFrame
    frame_eq := hnum
    offset_eq := ?_
    le_pieces := hs
    log := ⟨_ :: old, congrArg (_ :: ·) hold, ?_⟩ }, rfl, _, rfl, rfl⟩
  · show entry.header.length + (e.out.offset + min entry.parcel.stride e.out.remaining) = _
    rw [h.remaining, entry.parcel.reach_succ]
    omega
  · rw [← List.singleton_append, entry.carried_append, hc, ← entry.parcel.padded_piece hs,
      ← entry.carried_consecutive bus target sent]
    exact congrArg (_ ++ ·) (List.append_nil _)

/-- A burst sends the next frames, as many as are allowed and needed, each a pause after the one
before. -/
theorem burst (h : Transfer entry bus base sent e) (target : UInt32) (delay count : Nat) :
    Transfer entry bus base (sent + min count (entry.parcel.pieces - sent))
      (Engine.burst target delay count e) ∧
    ∃ new, (Engine.burst target delay count e).log = new ++ e.log ∧
      writes new = (List.range (min count (entry.parcel.pieces - sent))).map fun i =>
        ⟨e.now + i * ((delay + 999) / 1000), .consecutive,
          entry.protocol.isoTpFrame bus target (entry.parcel.consecutive (sent + i))⟩ := by
  induction count generalizing e sent with
  | zero =>
    rw [Nat.zero_min]
    exact ⟨h, [], rfl, rfl⟩
  | succ count ih =>
    unfold Engine.burst
    by_cases hrem : e.out.remaining = 0
    · rw [if_pos hrem]
      rw [(h.remaining_eq_zero_iff.1 hrem), Nat.sub_self, Nat.min_zero]
      exact ⟨(h.remaining_eq_zero_iff.1 hrem) ▸ h, [], rfl, rfl⟩
    · rw [if_neg hrem]
      have hle := h.le_pieces
      have hs : sent < entry.parcel.pieces := by
        have := mt h.remaining_eq_zero_iff.2 hrem
        omega
      obtain ⟨hnext, hnow, s, hlog, hwrite⟩ := h.sendConsecutive hs target
      have hsingle : writes [s] = [⟨e.now, .consecutive,
          entry.protocol.isoTpFrame bus target (entry.parcel.consecutive sent)⟩] := by
        simp [writes, hwrite]
      dsimp only
      by_cases hstop : (e.sendConsecutive target).out.remaining = 0 ∨ count = 0
      · rw [if_pos hstop]
        have hone : min (count + 1) (entry.parcel.pieces - sent) = 1 := by
          rcases hstop with hrem' | hcount
          · have := hnext.remaining_eq_zero_iff.1 hrem'
            omega
          · omega
        rw [hone]
        exact ⟨hnext, [s], hlog, by simp [hsingle]⟩
      · rw [if_neg hstop]
        have hmin : min (count + 1) (entry.parcel.pieces - sent) =
            min count (entry.parcel.pieces - (sent + 1)) + 1 := by omega
        obtain ⟨hlast, new, hnew, hw⟩ := ih (hnext.later (e.now + (delay + 999) / 1000))
        have hpause : (e.sendConsecutive target).pause delay =
            { e.sendConsecutive target with now := e.now + (delay + 999) / 1000 } := by
          rw [pause, hnow]
        rw [hmin, hpause]
        refine ⟨?_, new ++ [s], ?_, ?_⟩
        · rw [Nat.add_comm _ 1, ← Nat.add_assoc]
          exact hlast
        · rw [hnew, List.append_assoc]
          exact congrArg (new ++ ·) hlog
        · rw [writes_append, hw, hsingle, List.range_succ_eq_map, List.map_cons, List.map_map,
            List.singleton_append, Nat.zero_mul]
          refine congrArg (_ :: ·) (List.map_congr_left fun i _ => ?_)
          simp only [Function.comp, Nat.succ_eq_add_one, Nat.add_mul, Nat.one_mul]
          rw [Nat.add_assoc sent, Nat.add_comm 1 i, Nat.add_assoc e.now, Nat.add_comm (i * _)]

/-! ### Flow control -/

theorem isoTpTarget (h : Transfer entry bus base sent e) (id : UInt32) :
    e.isoTpTarget id = entry.consecutiveTarget id := by
  unfold Engine.isoTpTarget PollEntry.consecutiveTarget PollJob.isBroadcast
  rw [h.sent_eq]
  simp

theorem min_allowedFrames (h : Transfer entry bus base sent e) (blockSize septime : UInt8) :
    min (e.allowedFrames blockSize) (entry.parcel.pieces - sent) =
      (Flow.goOn blockSize septime).more (entry.parcel.pieces - sent) := by
  unfold allowedFrames Flow.more
  dsimp only
  split
  · exact Nat.min_eq_right h.pieces_le_remaining
  · rfl

theorem isoTpFlow (h : Transfer entry bus base sent e) (id : UInt32) (flow : Flow) {command b s : UInt8}
    (hflow : flow.segment = .flow command b s) :
    Transfer entry bus base (sent + flow.more (entry.parcel.pieces - sent)) (e.isoTpFlow id command b s) ∧
    ∃ new, (e.isoTpFlow id command b s).log = new ++ e.log ∧
      writes new = (List.range (flow.more (entry.parcel.pieces - sent))).map fun i =>
        ⟨e.now + i * flow.gap, .consecutive,
          entry.protocol.isoTpFrame bus (entry.consecutiveTarget id)
            (entry.parcel.consecutive (sent + i))⟩ := by
  by_cases hrem : e.out.remaining = 0
  · have hsent := h.remaining_eq_zero_iff.1 hrem
    have hmore : flow.more (entry.parcel.pieces - sent) = 0 := by
      have := flow.more_le (entry.parcel.pieces - sent)
      omega
    have heq : e.isoTpFlow id command b s = e := by
      unfold Engine.isoTpFlow
      rw [if_pos hrem]
    rw [heq, hmore]
    exact ⟨h, [], rfl, rfl⟩
  · cases flow with
    | wait blockSize septime =>
      obtain ⟨rfl, rfl, rfl⟩ := Segment.flow.inj hflow
      have heq : e.isoTpFlow id 1 blockSize septime = { e with wait := min 255 (e.wait + 1) } := by
        unfold Engine.isoTpFlow
        rw [if_neg hrem]
        rfl
      rw [heq]
      refine ⟨h.update e.now _ e.job.received e.results [] ?_ h.allSent (by simp), [], rfl, rfl⟩
      omega
    | goOn blockSize septime =>
      obtain ⟨rfl, rfl, rfl⟩ := Segment.flow.inj hflow
      obtain ⟨hlast, new, hnew, hw⟩ :=
        h.burst (e.isoTpTarget id) (separationDelay septime) (e.allowedFrames blockSize)
      rw [h.min_allowedFrames blockSize septime] at hlast hw
      rw [h.isoTpTarget] at hlast hw hnew
      generalize hb : Engine.burst (entry.consecutiveTarget id) (separationDelay septime)
        (e.allowedFrames blockSize) e = e' at hlast hnew
      have heq : e.isoTpFlow id 0 blockSize septime =
          if 0 < e'.out.remaining then { e' with wait := 2 } else e' := by
        unfold Engine.isoTpFlow
        rw [if_neg hrem, h.isoTpTarget, ← hb]
        rfl
      rw [heq]
      split
      · exact ⟨hlast.update e'.now 2 e'.job.received e'.results [] (by omega) hlast.allSent (by simp),
          new, hnew, hw⟩
      · exact ⟨hlast, new, hnew, hw⟩

/-- A flow control frame is taken for one, whatever else the engine has to do. -/
theorem handleFrame (h : Transfer entry bus base sent e) {frame : Frame} {flow : Flow}
    (hf : entry.Hears bus frame flow) :
    ∃ command b s, flow.segment = .flow command b s ∧ e.handleFrame frame =
      (e.isoTpFlow (entry.protocol.isoTpSender frame) command b s).settle := by
  obtain ⟨command, b, s, hflow⟩ : ∃ command b s, flow.segment = .flow command b s := by
    cases flow <;> exact ⟨_, _, _, rfl⟩
  refine ⟨command, b, s, hflow, ?_⟩
  have hiso : e.job.isVwtp = false := by
    rw [PollJob.isVwtp, h.protocol_eq, beq_eq_false_iff_ne]
    exact h.isoTp
  have haccepts : e.job.accepts (entry.protocol.isoTpSender frame) = true := by
    rw [PollJob.accepts, h.low_eq, h.high_eq]
    simpa using ⟨hf.low_le, hf.le_high⟩
  have hchannel : e.isChannelFrame frame = false := by
    simp [isChannelFrame, Channel.isOpen, h.closed]
  have hother : e.receiveOther frame =
      e.isoTpFlow (entry.protocol.isoTpSender frame) command b s := by
    simp only [receiveOther, responseId, h.protocol_eq, hiso, h.wait_pos, h.entry_eq, haccepts,
      receiveIsoTp, hf.content, hflow, Bool.not_false, decide_true, Option.isSome_some, Bool.and_self,
      if_true]
  unfold Engine.handleFrame
  rw [if_neg (by rw [hf.bus_eq, h.bus_eq]; simp), hchannel, hother]
  rfl

theorem flow (h : Transfer entry bus base sent e) {frame : Frame} {flow : Flow}
    (hf : entry.Hears bus frame flow) :
    Transfer entry bus base (sent + flow.more (entry.parcel.pieces - sent)) (e.step (.frame frame)) ∧
    ∃ new, (e.step (.frame frame)).log = new ++ e.log ∧
      writes new = (List.range (flow.more (entry.parcel.pieces - sent))).map fun i =>
        ⟨e.now + i * flow.gap, .consecutive, entry.protocol.isoTpFrame bus
          (entry.consecutiveTarget (entry.protocol.isoTpSender frame))
          (entry.parcel.consecutive (sent + i))⟩ := by
  obtain ⟨command, b, s, hflow, hhandle⟩ := h.handleFrame hf
  obtain ⟨hlast, new, hnew, hw⟩ := h.isoTpFlow (entry.protocol.isoTpSender frame) flow hflow
  obtain ⟨hsettled, new', hnew', hw'⟩ := hlast.settle
  have hstep : e.step (.frame frame) = _ := hhandle
  rw [hstep]
  refine ⟨hsettled, new' ++ new, by rw [hnew', hnew, List.append_assoc], ?_⟩
  rw [writes_append, hw', List.append_nil, hw]

theorem exchange (h : Transfer entry bus base sent e) {ops : List Operation} {flows : List Flow}
    (hx : entry.Exchange bus ops flows) :
    Transfer entry bus base (Flow.granted entry.parcel.pieces flows sent) (e.run ops) := by
  induction hx generalizing e sent with
  | nil => exact h
  | elapse ms _ ih => exact ih (h.later (e.now + ms))
  | frame hf _ ih => exact ih (h.flow hf).1

end Transfer

/-! ### The opening -/

/-- The dispatch of an entry puts the opening of its request on the bus. -/
theorem transfer_dispatch (hp : entry.protocol ≠ .vwtp20) (hc : e.channel.state = .closed)
    (hl : e.line.TakesAll) (hs : e.AllSent) (hq : e.single.isSome = true ∨ e.queued = []) :
    Transfer entry e.bus e.log 0 (e.dispatch entry) ∧
    ∃ new, (e.dispatch entry).log = new ++ e.log ∧ writes new =
      [⟨e.now, .opening, entry.protocol.isoTpFrame e.bus entry.target entry.parcel.opening⟩] := by
  have hall := hs.transmit hl .opening (entry.protocol.isoTpFrame e.bus entry.target entry.parcel.opening)
  rw [transmit_good hl] at hall
  rw [dispatch_isoTp hp, startIsoTp_eq entry rfl rfl, transmit_good (by exact hl)]
  refine ⟨⟨rfl, rfl, rfl, hp, rfl, rfl, rfl, hc, Nat.zero_lt_two, hl.asOf _, hall, hq, .load entry _, rfl,
    ?_, Nat.zero_le _, [_, _], rfl, ?_⟩, [_, _], rfl, rfl⟩
  · have hcount := isoTpOpeningCount_eq entry
    have hle := entry.parcel.openingCount_le
    have hlen : entry.parcel.message.length = _ := entry.length_message
    show entry.header.length + min (entry.parcel.openingCount - entry.header.length)
      (min entry.payload.length (payloadLimit entry.header)) =
        min (entry.parcel.reach 0) entry.parcel.message.length
    rw [Parcel.reach, Nat.zero_mul]
    omega
  · rw [← entry.carried_opening e.bus entry.target]
    exact List.append_nil _

/-- However the responder of an ISO-TP request deals out its leave to send, it gets the message from its
start and in order. The request begins with one frame; each flow control frame then lets through the
consecutive frames that it allows, as far as the message needs them, and no other frame is written. -/
theorem segmentation (hp : entry.protocol ≠ .vwtp20) (hc : e.channel.state = .closed)
    (hl : e.line.TakesAll) (hs : e.AllSent) (hq : e.single.isSome = true ∨ e.queued = []) :
    (∃ new, (e.dispatch entry).settle.log = new ++ e.log ∧ writes new =
      [⟨e.now, .opening, entry.protocol.isoTpFrame e.bus entry.target entry.parcel.opening⟩]) ∧
    ∀ ops flows, entry.Exchange e.bus ops flows → ∀ e' sent,
      e' = (e.dispatch entry).settle.run ops → sent = Flow.granted entry.parcel.pieces flows 0 →
      (∃ new, e'.log = new ++ e.log ∧
        (entry.carried new).take entry.message.length = entry.message.take (entry.parcel.reach sent) ∧
        (sent = entry.parcel.pieces → (entry.carried new).take entry.message.length = entry.message)) ∧
      ∀ frame flow, entry.Hears e.bus frame flow →
        flow.delay ≤ 1000 * flow.gap ∧
        ∃ new, (e'.step (.frame frame)).log = new ++ e'.log ∧
          writes new = (List.range (flow.more (entry.parcel.pieces - sent))).map fun i =>
            ⟨e'.now + i * flow.gap, .consecutive, entry.protocol.isoTpFrame e.bus
              (entry.consecutiveTarget (entry.protocol.isoTpSender frame))
              (entry.parcel.consecutive (sent + i))⟩ := by
  obtain ⟨hopen, new, hnew, hw⟩ := transfer_dispatch hp hc hl hs hq
  obtain ⟨hstart, new', hnew', hw'⟩ := hopen.settle
  refine ⟨⟨new' ++ new, ?_, ?_⟩, ?_⟩
  · rw [hnew', hnew, List.append_assoc]
  · rw [writes_append, hw', List.append_nil, hw]
  rintro ops flows hx e' sent rfl rfl
  have h := hstart.exchange hx
  refine ⟨?_, fun frame flow hf => ⟨flow.delay_le, (h.flow hf).2⟩⟩
  obtain ⟨all, hall, hcarried⟩ := h.log
  have htake := congrArg (List.take entry.parcel.message.length) hcarried
  rw [entry.parcel.take_padded] at htake
  refine ⟨all, hall, htake, fun hdone => ?_⟩
  have hreach := mt (entry.parcel.lt_pieces_iff _).2 (Nat.not_lt.2 (Nat.le_of_eq hdone.symm))
  exact htake.trans (List.take_of_length_le (by omega))

/-- A request of 13 bytes in extended addressing. Its responder allows one frame, then has the sender
wait, then allows the rest. -/
theorem segmentation_example :
    let bus : BusId := ⟨1, by decide⟩
    let entry : PollEntry := ⟨0x60f1, 0x6f112, 0x2e, 0xd100, [1, 2, 3, 4, 5, 6, 7, 8, 9, 10], #v[1, 0, 0, 0], 1,
      .isoTpExtAddr⟩
    let e := Engine.new bus "ecu" false ⟨0, 25, .strict, 0, 0⟩
    let one := EcuFrame.padded bus 0x6f1 [0x12, 0x30, 1, 0]
    let wait := EcuFrame.padded bus 0x6f1 [0x12, 0x31, 0, 0]
    let rest := EcuFrame.padded bus 0x6f1 [0x12, 0x30, 0, 20]
    let e' := (e.dispatch entry).settle.run [.frame one, .elapse 40, .frame wait]
    entry.parcel.pieces = 2 ∧
    (∃ new, e'.log = new ++ e.log ∧ (entry.carried new).take 13 = entry.message.take 11) ∧
    ∃ new, (e'.step (.frame rest)).log = new ++ e'.log ∧
      writes new = [⟨40, .consecutive, entry.protocol.isoTpFrame bus 0x60f1 [0x22, 9, 10]⟩] := by
  intro bus entry e one wait rest e'
  have hone : entry.Hears bus one (.goOn 1 0) := ⟨rfl, by decide, by decide, rfl⟩
  have hwait : entry.Hears bus wait (.wait 0 0) := ⟨rfl, by decide, by decide, rfl⟩
  have hrest : entry.Hears bus rest (.goOn 0 20) := ⟨rfl, by decide, by decide, rfl⟩
  obtain ⟨-, hseg⟩ := @segmentation entry e (by decide) rfl ⟨rfl, nofun⟩ nofun (.inr rfl)
  obtain ⟨⟨new, hnew, hcarried, -⟩, hmore⟩ :=
    hseg _ _ (.frame hone (.elapse 40 (.frame hwait .nil))) e' 1 rfl (by decide)
  obtain ⟨-, new', hnew', hw⟩ := hmore rest _ hrest
  exact ⟨by decide, ⟨new, hnew, hcarried⟩, new', hnew', hw.trans (by decide)⟩

end Engine

end EcuPoll
