import EcuPoll.Proofs.Engine.Deeds
import EcuPoll.Proofs.Engine.Results
import EcuPoll.Proofs.IsoTp.Bystanders
import EcuPoll.Proofs.IsoTp.Delivery
import Mathlib.Data.List.Forall2

/-!
# Taking an answer frame by frame

`Uptake a id e₀ k e` says that an engine has taken the first `k` frames of an answer from `id` since `e₀`. As long
as their numbers are admitted, one frame after the other is taken (`Uptake.walk`), and with the last one the body
is complete (`Uptake.whole`). After a number that is not admitted nothing more from `id` is taken
(`Pending.refuses`): what was handed on before stays all there is (`Handed`).
-/

namespace EcuPoll

theorem PollEntry.Answer.BringsFrom.consecutive {entry : PollEntry} {a : entry.Answer} {bus : BusId} {id : UInt32}
    {start k : Nat} {frame : Frame} (h : a.BringsFrom bus id start (k + 1) frame) :
    ∃ rest, (a.parcel.piece k ++ rest).length = a.parcel.stride ∧
      Segment.ofBytes? (entry.protocol.isoTpData frame) =
        some (.consecutive (UInt8.ofNat ((start + k) % 16)) (a.parcel.piece k ++ rest)) := by
  obtain ⟨rest, hrest⟩ := h.data
  -- What pads the last frame is read as data, too.
  refine ⟨rest, ?_, ?_⟩
  · have hlen := entry.protocol.length_isoTpData frame
    rw [← hrest, Parcel.numbered, List.cons_append, List.length_cons] at hlen
    show _ = entry.protocol.isoTpRoom - 1
    omega
  · rw [← hrest]
    exact Segment.ofBytes?_consecutive _ _

theorem PollEntry.Answer.senders {entry : PollEntry} {a : entry.Answer} {bus : BusId} {id : UInt32} {start : Nat}
    {numbers : List Nat} {frames : List Frame} (h : List.Forall₂ (a.BringsFrom bus id start) numbers frames) :
    ∀ f ∈ frames, entry.protocol.isoTpSender f = id := by
  induction h with
  | nil => exact List.forall_mem_nil _
  | cons hf _ ih => exact List.forall_mem_cons.2 ⟨hf.sender_eq, ih⟩

namespace Engine
variable {entry : PollEntry} {a : entry.Answer} {id : UInt32} {start k : Nat} {e₀ e e' : Engine} {bytes : List UInt8}
  {new : List Stamped} {single single₀ : Option Capture} {frame : Frame} {frames rest : List Frame}
  {ops : List Operation}

/-! ### What has been handed on of a response that is not complete -/

/-- These bytes have been handed on, in replies of which none is the last, or to the single request that had the
bus at the start and still has it. -/
def HandedOn (bytes : List UInt8) (single : Option Capture) (new : List Stamped) : Option Capture → Prop
  | none => single = none ∧ (replies new).flatMap (·.data) = bytes ∧ ∀ r ∈ replies new, r.remain ≠ 0
  | some capture => replies new = [] ∧ single = some { capture with response := capture.response ++ bytes }

/-- Since `e₀` the engine has handed on `bytes`, and the response is not complete. -/
def Handed (bytes : List UInt8) (e₀ e : Engine) : Prop :=
  ∃ new, e.log = new ++ e₀.log ∧ HandedOn bytes e.single new e₀.single

theorem Given.handedOn {n : Nat} (h : Given a n single new single₀) :
    HandedOn (a.body.take n) single new single₀ := by
  rcases single₀ with _ | capture
  · exact ⟨h.1, h.2.1.concat, h.2.2⟩
  · exact h

theorem HandedOn.append (h : HandedOn bytes single new single₀) {new' : List Stamped} (hn : replies new' = []) :
    HandedOn bytes single (new' ++ new) single₀ := by
  have hr : replies (new' ++ new) = replies new := by
    rw [replies_append, hn, List.append_nil]
  rcases single₀ with _ | capture
  · simp only [HandedOn, hr]
    exact h
  · exact ⟨hr.trans h.1, h.2⟩

theorem HandedOn.isSome (h : HandedOn bytes single new single₀) : single.isSome = single₀.isSome := by
  rcases single₀ with _ | capture
  · rw [h.1]
  · rw [h.2]
    rfl

theorem HandedOn.deliverReply (h : HandedOn bytes e.single new single₀) (hm : e.job.mlRemain ≠ 0)
    (data : List UInt8) : ∃ single new', e.deliverReply data = { e with single, log := new' ++ e.log } ∧
      HandedOn (bytes ++ data) single (new' ++ new) single₀ := by
  rcases single₀ with _ | capture
  · obtain ⟨hnone, hdata, hremain⟩ := h
    refine ⟨e.single, [⟨e.now, .reply e.job data e.job.mlRemain⟩], deliverReply_none hnone data, hnone, ?_⟩
    rw [List.singleton_append, replies_reply]
    refine ⟨?_, fun r hr => ?_⟩
    · rw [List.flatMap_append, hdata, List.flatMap_singleton]
    · rcases List.mem_append.1 hr with hr | hr
      · exact hremain r hr
      · rw [List.mem_singleton.1 hr]
        exact hm
  · obtain ⟨hnil, hsome⟩ := h
    refine ⟨some { capture with response := capture.response ++ bytes ++ data }, [], ?_, hnil, ?_⟩
    · simp only [Engine.deliverReply, hsome, if_neg hm, List.nil_append]
    · rw [List.append_assoc]

theorem Handed.passing (h : Handed bytes e₀ e) (hs : e'.single = e.single) (hl : Adds Event.IsPassing e e') :
    Handed bytes e₀ e' := by
  obtain ⟨new, hnew, hh⟩ := h
  obtain ⟨new', hnew', hpass⟩ := hl
  refine ⟨new' ++ new, by rw [hnew', hnew, List.append_assoc], ?_⟩
  rw [hs]
  exact hh.append (replies_of_quiet fun s hmem => (hpass s hmem).isQuiet)

/-! ### Consecutive frames -/

theorem Pending.step_consecutive (h : Pending entry e) (hb : frame.bus = e.bus)
    (hc : e.isChannelFrame frame = false) (hs : entry.protocol.isoTpSender frame = id)
    (ha : e.job.accepts id = true) {index : UInt8} {data : List UInt8}
    (hd : Segment.ofBytes? (entry.protocol.isoTpData frame) = some (.consecutive index data)) :
    e.step (.frame frame) = (e.receiveConsecutive id index data).settle := by
  rw [step_frame_other hb hc, h.receiveOther, hs, if_pos ha, receiveIsoTp, h.asks.protocol, hd]

theorem accepts_rejectResponse (e : Engine) (hid : id ≠ 0) : e.rejectResponse.job.accepts id = false := by
  rw [Bool.eq_false_iff]
  intro ha
  rw [PollJob.accepts, Bool.and_eq_true, decide_eq_true_iff, decide_eq_true_iff] at ha
  exact hid (UInt32.le_antisymm ha.2 ha.1)

/-- Once the number of a frame is not admitted, nothing from its sender is taken any more. -/
theorem Pending.refuses (h : Pending entry e) (hr : e.AtRest) (hid : id ≠ 0) (ha : e.job.accepts id = true)
    (hb : frame.bus = e.bus) (hs : ∀ f ∈ frame :: rest, entry.protocol.isoTpSender f = id) {index : UInt8}
    {data : List UInt8}
    (hd : Segment.ofBytes? (entry.protocol.isoTpData frame) = some (.consecutive index data))
    (hno : e.isNumberOk index = false) (hin : Incoming entry (frame :: rest) e ops) :
    (e.run ops).single = e.single ∧ Adds Event.IsPassing e (e.run ops) := by
  obtain ⟨before, after, rfl, hbefore, hc, hafter⟩ := hin.uncons
  have hl := hbefore.lingers h (List.forall_mem_nil _)
  have hp := h.of_lingers hl
  have hpolicy := policy_run hr before
  rw [run_append] at hafter ⊢
  set e₁ := e.run before with he₁
  have hno : e₁.isNumberOk index = false := by
    obtain ⟨received, hj⟩ := hl.job
    rw [isNumberOk, hj, hpolicy]
    exact hno
  have hreject : Pending entry e₁.rejectResponse :=
    ⟨hp.isoTp, hp.asks, Nat.zero_lt_two, hp.line, hp.allSent, hp.queue⟩
  have hstep : e₁.step (.frame frame) = e₁.rejectResponse.settle := by
    rw [hp.step_consecutive (hb.trans hl.bus.symm) hc (hs frame (List.mem_cons_self ..))
      ((hl.accepts id).trans ha) hd, receiveConsecutive, hno]
    rfl
  have hsettle : Lingers e₁.rejectResponse (e₁.step (.frame frame)) := by
    rw [hstep]
    exact hreject.lingers.settle
  -- No id is accepted now, so what is left of the response passes by.
  have hrest : Lingers (e₁.step (.frame frame)) ((e₁.step (.frame frame)).run after) := by
    refine hafter.lingers (hreject.of_lingers hsettle) fun f hf => ?_
    rw [hs f (List.mem_cons_of_mem _ hf), hsettle.accepts]
    exact accepts_rejectResponse e₁ hid
  have hall := hsettle.trans hrest
  exact ⟨hall.single.trans hl.single, hl.log.trans hall.log⟩

/-- So none of these frames of an answer is taken if the number of the first is not admitted. -/
theorem Pending.refusesFrom (h : Pending entry e) (hr : e.AtRest) (hid : id ≠ 0) (ha : e.job.accepts id = true)
    {expected number left : Nat} (he : e.job.mlFrame = UInt16.ofNat expected)
    (hn : left ≠ 0 → ¬ e.policy.Admits expected (start + number))
    (hf : List.Forall₂ (a.BringsFrom e.bus id start) (List.range' (number + 1) left) frames)
    (hin : Incoming entry frames e ops) :
    (e.run ops).single = e.single ∧ Adds Event.IsPassing e (e.run ops) := by
  cases left with
  | zero =>
    rw [List.range'_zero, List.forall₂_nil_left_iff] at hf
    subst hf
    have hl := hin.lingers h (List.forall_mem_nil _)
    exact ⟨hl.single, hl.log⟩
  | succ left =>
    have hs := PollEntry.Answer.senders hf
    rw [List.range'_succ, List.forall₂_cons_left_iff] at hf
    obtain ⟨frame, rest, hone, -, rfl⟩ := hf
    obtain ⟨_, -, hd⟩ := hone.consecutive
    have hno := isNumberOk_eq_false he (hn (Nat.succ_ne_zero left))
    exact h.refuses hr hid ha hone.bus_eq hs hd hno hin

/-- A consecutive frame that is taken, and is shorter than what is to come. -/
theorem Handed.step_taken (h : Handed bytes e₀ e) (hp : Pending entry e) (hb : frame.bus = e.bus)
    (hc : e.isChannelFrame frame = false) (hs : entry.protocol.isoTpSender frame = id)
    (ha : e.job.accepts id = true) {index : UInt8} {data : List UInt8}
    (hd : Segment.ofBytes? (entry.protocol.isoTpData frame) = some (.consecutive index data))
    (hn : e.isNumberOk index = true) (hm : data.length < e.job.mlRemain.toNat) :
    Handed (bytes ++ data) e₀ (e.step (.frame frame)) ∧ Pending entry (e.step (.frame frame)) ∧
      (e.step (.frame frame)).bus = e.bus ∧
      (e.step (.frame frame)).job.mlFrame = e.job.mlFrame + 1 ∧
      ∀ id, (e.step (.frame frame)).job.accepts id = e.job.accepts id := by
  obtain ⟨new, hnew, hh⟩ := h
  have hmore : lessLength e.job.mlRemain data ≠ 0 := by
    rw [Ne, ← UInt16.toNat_inj, toNat_lessLength]
    show _ ≠ 0
    omega
  obtain ⟨single, new', hdeliver, hh'⟩ := HandedOn.deliverReply
    (e := { e with job := { e.job with received := id, mlRemain := lessLength e.job.mlRemain data } }) hh hmore data
  set e₁ : Engine := { e with
    single
    log := new' ++ e.log
    job := { e.job with
      received := id
      mlRemain := lessLength e.job.mlRemain data
      mlFrame := e.job.mlFrame + 1
      mlOffset := e.job.mlOffset + UInt16.ofNat data.length }
    wait := 2 } with he₁
  have hqueue : single.isSome = true ∨ e.queued = [] := by
    rw [hh'.isSome, ← hh.isSome]
    exact hp.queue
  have hp₁ : Pending entry e₁ := ⟨hp.isoTp, hp.asks, Nat.zero_lt_two, hp.line, hp.allSent, hqueue⟩
  have hstep : e.step (.frame frame) = e₁.settle := by
    rw [hp.step_consecutive hb hc hs ha hd, receiveConsecutive, hn, List.take_of_length_le (Nat.le_of_lt hm)]
    simp only [Bool.not_true, Bool.false_eq_true, if_false, deliverSegment, hdeliver]
    rw [afterSegment, if_neg hmore]
    rfl
  have hl : Lingers e₁ (e.step (.frame frame)) := by
    rw [hstep]
    exact hp₁.lingers.settle
  refine ⟨?_, hp₁.of_lingers hl, hl.bus, ?_, hl.accepts⟩
  · refine Handed.passing (e := e₁) ⟨new' ++ new, ?_, hh'⟩ hl.single hl.log
    rw [List.append_assoc, ← hnew]
  · obtain ⟨received, hj⟩ := hl.job
    rw [hj]

/-! ### One frame after the other -/

/-- The request for the entry is out, and this id may answer it. Nothing of its answer has come in. -/
structure Expects (entry : PollEntry) (id : UInt32) (e : Engine) : Prop where
  entry_eq : e.job.entry = some entry
  isoTp : entry.protocol ≠ .vwtp20
  responds : entry.Responds id
  accepts : e.job.accepts id = true
  wait_pos : 0 < e.wait
  fresh : e.job.mlOffset = 0

/-- The engine has taken the first `k` frames of the answer from `id` since `e₀`, and waits for more. -/
structure Uptake (a : entry.Answer) (id : UInt32) (e₀ : Engine) (k : Nat) (e : Engine) : Prop where
  pending : Pending entry e
  bus_eq : e.bus = e₀.bus
  accepts : e.job.accepts id = true
  frame_eq : k ≠ 0 → e.job.mlFrame = UInt16.ofNat k
  offset_eq : e.job.mlOffset = UInt16.ofNat (a.got k)
  remain_eq : k ≠ 0 → e.job.mlRemain = UInt16.ofNat (a.parcel.message.length - a.parcel.taken k)
  log : ∃ new, e.log = new ++ e₀.log ∧ Given a (a.got k) e.single new e₀.single

theorem Expects.id_ne (h : Expects entry id e) : id ≠ 0 := by
  rintro rfl
  obtain ⟨hlow, -⟩ := h.responds
  unfold PollEntry.responders at hlow
  by_cases hrx : entry.rx ≠ 0
  · rw [if_pos hrx] at hlow
    exact hrx (UInt32.le_antisymm hlow (UInt32.zero_le))
  · rw [if_neg hrx] at hlow
    exact absurd hlow (by decide)

theorem Expects.uptake (h : Expects entry id e) (he : e.Reached) (hl : e.line.TakesAll) (a : entry.Answer) :
    Uptake a id e 0 e := by
  have hrest := he.atRest
  have hgot : a.got 0 = 0 := Nat.zero_sub _
  refine ⟨⟨h.isoTp, he.asks h.entry_eq, h.wait_pos, hl, hrest.allSent, hrest.queue⟩, rfl, h.accepts,
    fun hk => absurd rfl hk, ?_, fun hk => absurd rfl hk, [], rfl, ?_⟩
  · rw [hgot]
    exact h.fresh
  · rw [hgot]
    exact .start a e.single

namespace Uptake

theorem handed (h : Uptake a id e₀ k e) : Handed (a.body.take (a.got k)) e₀ e := by
  obtain ⟨new, hnew, hgiven⟩ := h.log
  exact ⟨new, hnew, hgiven.handedOn⟩

theorem lingers (h : Uptake a id e₀ k e) (hl : Lingers e e') : Uptake a id e₀ k e' := by
  obtain ⟨received, hj⟩ := hl.job
  obtain ⟨new, hnew, hgiven⟩ := h.log
  obtain ⟨new', hnew', hpass⟩ := hl.log
  refine ⟨h.pending.of_lingers hl, hl.bus.trans h.bus_eq, (hl.accepts id).trans h.accepts, ?_, ?_, ?_,
    new' ++ new, by rw [hnew', hnew, List.append_assoc], ?_⟩
  · rw [hj]
    exact h.frame_eq
  · rw [hj]
    exact h.offset_eq
  · rw [hj]
    exact h.remain_eq
  · rw [hl.single]
    exact hgiven.append (replies_of_quiet fun s hs => (hpass s hs).isQuiet)

theorem toNat_remain (h : Uptake a id e₀ (k + 1) e) (hk : k < a.parcel.pieces) :
    e.job.mlRemain.toNat = a.parcel.message.length - a.parcel.reach k := by
  have hmax := a.parcel.length_le
  have hlt := (a.parcel.lt_pieces_iff k).1 hk
  have htaken : a.parcel.taken (k + 1) = a.parcel.reach k := Nat.min_eq_left (Nat.le_of_lt hlt)
  rw [h.remain_eq (Nat.succ_ne_zero k), htaken, toNat_ofNat_of_le (by omega)]

theorem isNumberOk_iff (h : Uptake a id e₀ (k + 1) e) (hk : k < a.parcel.pieces) (number : Nat) :
    e.isNumberOk (UInt8.ofNat (number % 16)) = true ↔ e.policy.Admits (k + 1) number := by
  have hlt := (a.parcel.lt_pieces_iff k).1 hk
  have hremain := h.toNat_remain hk
  refine Engine.isNumberOk_iff ?_ (h.frame_eq (Nat.succ_ne_zero k)) number
  rw [Ne, ← UInt16.toNat_inj, hremain]
  show _ ≠ 0
  omega

theorem hands (h : Uptake a id e₀ k e) : Hands a k { e.job with
    received := id, mlRemain := UInt16.ofNat (a.body.length - a.got (k + 1)) } :=
  ⟨h.pending.entry_eq, h.offset_eq, rfl⟩

theorem step_brings (h : Uptake a id e₀ k e) (hx : entry.Recognisable) (hk : k ≤ a.parcel.pieces)
    (hf : a.BringsFrom e₀.bus id start k frame) (hc : e.isChannelFrame frame = false)
    (hn : k ≠ 0 → e.policy.Admits k (start + (k - 1))) : e.step (.frame frame) =
      (({ e with job := { e.job with
          received := id
          mlRemain := UInt16.ofNat (a.body.length - a.got (k + 1)) } }.deliverReply (a.payload k)).afterSegment id
        (decide (k = 0 ∧ ¬ a.parcel.FitsSingle)) (a.payload k).length).settle := by
  rw [step_frame_other (hf.bus_eq.trans h.bus_eq.symm) hc, h.pending.receiveOther, hf.sender_eq,
    if_pos h.accepts, receiveIsoTp_brings h.pending.asks hx hk hf h.frame_eq h.remain_eq hn]
  rfl

theorem taken (h : Uptake a id e₀ k e) {line : Line} {results : List (Frame × Bool)} (hl : line.TakesAll)
    (hr : ∀ r ∈ results, r.2 = true) (hg : Given a (a.got (k + 1)) single new e₀.single) :
    Uptake a id e₀ (k + 1) { e with
      line, single, results
      wait := 2
      log := new ++ e₀.log
      job := { e.job with
        received := id
        mlRemain := UInt16.ofNat (a.body.length - a.got (k + 1))
        mlFrame := UInt16.ofNat (k + 1)
        mlOffset := UInt16.ofNat (a.got (k + 1)) } } := by
  obtain ⟨_, -, hgiven⟩ := h.log
  have hqueue : single.isSome = true ∨ e.queued = [] := by
    rw [hg.isSome, ← hgiven.isSome]
    exact h.pending.queue
  exact ⟨⟨h.pending.isoTp, h.pending.asks, Nat.zero_lt_two, hl, hr, hqueue⟩, h.bus_eq, h.accepts, fun _ => rfl,
    rfl, fun _ => by rw [a.to_come], new, rfl, hg⟩

/-- The next frame of the answer. The first of several is followed by leave to go on. -/
theorem next (h : Uptake a id e₀ k e) (hx : entry.Recognisable) (hk : k < a.parcel.pieces)
    (hf : a.BringsFrom e₀.bus id start k frame) (hc : e.isChannelFrame frame = false)
    (hn : k ≠ 0 → e.policy.Admits k (start + (k - 1))) : Uptake a id e₀ (k + 1) (e.step (.frame frame)) := by
  have hremain := mt h.hands.remain_eq_zero_iff.1 (a.got_ne hk)
  have hoffset : e.job.mlOffset + UInt16.ofNat (a.payload k).length = UInt16.ofNat (a.got (k + 1)) := by
    rw [h.offset_eq, ← UInt16.ofNat_add, a.length_payload, Nat.add_sub_cancel' (a.got_le_succ k)]
  obtain ⟨new, hnew, hgiven⟩ := h.log
  obtain ⟨single, new', hdeliver, hgiven', -⟩ := Given.deliverReply (e := { e with job := { e.job with
    received := id
    mlRemain := UInt16.ofNat (a.body.length - a.got (k + 1)) } }) hgiven h.hands (a.got_ne hk)
  have hlog : new' ++ e.log = new' ++ new ++ e₀.log := by rw [hnew, List.append_assoc]
  have hsettled : ∀ {e'}, Uptake a id e₀ (k + 1) e' → Uptake a id e₀ (k + 1) e'.settle :=
    fun h' => h'.lingers h'.pending.lingers.settle
  rw [h.step_brings hx (Nat.le_of_lt hk) hf hc hn, hdeliver]
  refine hsettled ?_
  unfold afterSegment
  rw [if_neg hremain]
  cases k with
  | zero =>
    have hfits : ¬ a.parcel.FitsSingle := fun hfits => by
      rw [a.parcel.pieces_of_fitsSingle hfits] at hk
      cases hk
    have hsent (frame : Frame) := h.pending.allSent.transmit h.pending.line .flowControl frame
    have hwrote (frame : Frame) : Given a (a.got (0 + 1)) single
        ([⟨e.now, .wrote .flowControl frame true⟩] ++ (new' ++ new)) e₀.single := hgiven'.append rfl
    simp only [transmit_good h.pending.line] at hsent
    simp only [hfits, not_false_eq_true, and_self, decide_true, if_true, sendFlowControl]
    rw [transmit_good (by exact h.pending.line), hoffset, hlog]
    exact h.taken (h.pending.line.asOf e.now) (hsent _) (hwrote _)
  | succ k =>
    have hnumber : e.job.mlFrame + 1 = UInt16.ofNat (k + 1 + 1) := by
      rw [h.frame_eq (Nat.succ_ne_zero k), UInt16.ofNat_add (k + 1)]
      rfl
    have ht := h.taken h.pending.line h.pending.allSent hgiven'
    rw [← hnumber, ← hoffset, ← hlog] at ht
    exact ht

/-- The last frame of the answer. What the engine does next is no part of this poll. -/
theorem last (h : Uptake a id e₀ a.parcel.pieces e) (hx : entry.Recognisable)
    (hf : a.BringsFrom e₀.bus id start a.parcel.pieces frame) (hc : e.isChannelFrame frame = false)
    (hn : a.parcel.pieces ≠ 0 → e.policy.Admits a.parcel.pieces (start + (a.parcel.pieces - 1))) :
    ∃ new, (e.step (.frame frame)).log = new ++ e₀.log ∧ GivenAll a new e₀.single := by
  obtain ⟨new, hnew, hgiven⟩ := h.log
  have hlast := (a.got_eq_iff (Nat.le_refl _)).2 rfl
  have hremain := h.hands.remain_eq_zero_iff.2 hlast
  rw [h.step_brings hx (Nat.le_refl _) hf hc hn]
  set handing : Engine := { e with job := { e.job with
    received := id
    mlRemain := UInt16.ofNat (a.body.length - a.got (a.parcel.pieces + 1)) } } with hhanding
  have hjob := (Delivers.deliverReply handing (a.payload a.parcel.pieces)).job
  obtain ⟨new', hlog, hgiven', -⟩ := Given.deliverLast (e := handing) hgiven h.hands hlast
  generalize handing.deliverReply (a.payload a.parcel.pieces) = e' at hjob hlog
  have hquiet (first : Bool) (length : Nat) : Quiet e' (e'.afterSegment id first length).settle := by
    have hw : Quiet e' { e' with wait := 0 } := .of_log rfl
    unfold afterSegment
    rw [if_pos (by rw [hjob]; exact hremain)]
    dsimp only
    split
    · exact hw.trans (Turns.refl _).settle.quiet
    · exact hw.trans ((Turns.refl _).pollNext rfl).settle.quiet
  obtain ⟨tail, htail, hall⟩ := hquiet (decide (a.parcel.pieces = 0 ∧ ¬ a.parcel.FitsSingle))
    (a.payload a.parcel.pieces).length
  refine ⟨tail ++ (new' ++ new), ?_, hgiven'.append (replies_of_quiet hall)⟩
  rw [htail, hlog, List.append_assoc, List.append_assoc, ← hnew]

/-- One frame after the other is taken as long as their numbers are admitted. -/
theorem walk (hx : entry.Recognisable) (hr : e.AtRest) (h : Uptake a id e₀ k e) {n : Nat}
    (hf : List.Forall₂ (a.BringsFrom e₀.bus id start) (List.range' k n) frames) (hk : k + n ≤ a.parcel.pieces)
    (hn : ∀ j, j < k + n → j ≠ 0 → e.policy.Admits j (start + (j - 1)))
    (hin : Incoming entry (frames ++ rest) e ops) :
    ∃ before after, ops = before ++ after ∧ Uptake a id e₀ (k + n) (e.run before) ∧
      Incoming entry rest (e.run before) after := by
  induction n generalizing k e frames ops with
  | zero =>
    rw [List.range'_zero, List.forall₂_nil_left_iff] at hf
    subst hf
    exact ⟨[], ops, rfl, h, hin⟩
  | succ n ih =>
    rw [List.range'_succ, List.forall₂_cons_left_iff] at hf
    obtain ⟨frame, frames, hone, hf, rfl⟩ := hf
    obtain ⟨before, after, rfl, hbefore, hc, hafter⟩ := hin.uncons
    -- What comes before the frame passes by, so that the number that is due is still `k`.
    have hpolicy := policy_run hr before
    have hstep : e.run (before ++ [.frame frame]) = (e.run before).step (.frame frame) := run_append ..
    have htaken : Uptake a id e₀ k (e.run before) :=
      h.lingers (hbefore.lingers h.pending (List.forall_mem_nil _))
    have hnext := htaken.next hx (by omega) hone hc fun hne => by
      rw [hpolicy]
      exact hn k (by omega) hne
    rw [← hstep] at hnext
    obtain ⟨first, second, rfl, hu, hrest⟩ := ih (hr.run _) hnext hf (by omega) (fun j hj hne => by
      rw [policy_run hr]
      exact hn j (by omega) hne) hafter
    refine ⟨before ++ [.frame frame] ++ first, second, by simp, ?_, ?_⟩
    · rw [run_append, show k + (n + 1) = k + 1 + n by omega]
      exact hu
    · rw [run_append]
      exact hrest

/-- A consecutive frame whose number is not admitted ends the response for good. -/
theorem refused (h : Uptake a id e₀ (k + 1) e) (hr : e.AtRest) (hid : id ≠ 0) {number left : Nat}
    (hn : left ≠ 0 → ¬ e.policy.Admits (k + 1) (start + number))
    (hf : List.Forall₂ (a.BringsFrom e₀.bus id start) (List.range' (number + 1) left) frames)
    (hin : Incoming entry frames e ops) : Handed (a.body.take (a.got (k + 1))) e₀ (e.run ops) := by
  rw [← h.bus_eq] at hf
  obtain ⟨hsingle, hpass⟩ := h.pending.refusesFrom hr hid h.accepts (h.frame_eq (Nat.succ_ne_zero k)) hn hf hin
  exact h.handed.passing hsingle hpass

/-- Frames are taken up to the first number that is not admitted. -/
theorem stops (hx : entry.Recognisable) (hr : e.AtRest) (hid : id ≠ 0) (h : Uptake a id e₀ 0 e) {n left : Nat}
    (hf : List.Forall₂ (a.BringsFrom e₀.bus id start) (List.range (n + 1 + left)) frames) (hk : n < a.parcel.pieces)
    (hn : ∀ j, j < n + 1 → j ≠ 0 → e.policy.Admits j (start + (j - 1)))
    (hno : left ≠ 0 → ¬ e.policy.Admits (n + 1) (start + n)) (hin : Incoming entry frames e ops) :
    Handed (a.body.take (a.got (n + 1))) e₀ (e.run ops) := by
  rw [List.range_eq_range', ← List.range'_append_1, Nat.zero_add] at hf
  have htaken := List.forall₂_take (n + 1) hf
  have hleft := List.forall₂_drop (n + 1) hf
  rw [List.take_left' List.length_range'] at htaken
  rw [List.drop_left' List.length_range'] at hleft
  rw [← List.take_append_drop (n + 1) frames] at hin
  obtain ⟨first, second, rfl, hu, hsecond⟩ := h.walk hx hr htaken (by omega)
    (fun j hj => hn j (by omega)) hin
  rw [Nat.zero_add] at hu
  rw [run_append]
  refine hu.refused (hr.run first) hid (fun hmore => ?_) hleft hsecond
  rw [policy_run hr]
  exact hno hmore

/-- If the numbers of all frames are admitted, the whole body is handed on. -/
theorem whole (hx : entry.Recognisable) (hr : e.AtRest) (h : Uptake a id e₀ 0 e)
    (hf : List.Forall₂ (a.BringsFrom e₀.bus id start) (List.range a.parcel.pieces) frames)
    (hl : a.BringsFrom e₀.bus id start a.parcel.pieces frame)
    (hn : ∀ j, j ≤ a.parcel.pieces → j ≠ 0 → e.policy.Admits j (start + (j - 1)))
    (hin : Incoming entry frames e ops) (hc : (e.run ops).isChannelFrame frame = false) :
    ∃ new, (e.run (ops ++ [.frame frame])).log = new ++ e₀.log ∧ GivenAll a new e₀.single := by
  rw [List.range_eq_range'] at hf
  rw [← List.append_nil frames] at hin
  obtain ⟨before, after, rfl, hu, hrest⟩ := h.walk hx hr hf (by omega) (fun j hj => hn j (by omega)) hin
  rw [Nat.zero_add] at hu
  have htaken := hu.lingers (hrest.lingers hu.pending (List.forall_mem_nil _))
  rw [← run_append] at htaken
  rw [run_append]
  refine htaken.last hx hl hc fun hne => ?_
  rw [policy_run hr]
  exact hn _ (Nat.le_refl _) hne

end Uptake

end Engine

end EcuPoll
