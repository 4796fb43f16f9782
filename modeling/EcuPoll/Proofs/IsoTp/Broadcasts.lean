import EcuPoll.Proofs.IsoTp.Uptake
import EcuPoll.Proofs.Vwtp.Beside

/-!
# Answers to a broadcast

Every OBD module may answer a broadcast, so that a complete answer chains no poll: the next one may follow. But it
ends the wait like any other, and without a wait no frame is taken. Of the answers in single frames that come in
before the next tick only the first is handed on (`replies_broadcast`).
-/

namespace EcuPoll

namespace PollEntry
variable {entry : PollEntry}

/-- What one module answers, in a single frame. -/
structure Voice (entry : PollEntry) where
  id : UInt32
  responds : entry.Responds id
  answer : entry.Answer
  fits : answer.parcel.FitsSingle

/-- The reply is the whole of this answer, and says who gave it. -/
structure Voice.HandedOn (v : entry.Voice) (r : Reply) : Prop where
  entry_eq : r.job.entry = some entry
  received : r.job.received = v.id
  data : r.data = v.answer.body
  remain : r.remain = 0

namespace Answer
variable {a : entry.Answer}

theorem got_one (h : a.parcel.FitsSingle) : a.got 1 = a.body.length :=
  (a.got_eq_iff (Nat.zero_le _)).2 (a.parcel.pieces_of_fitsSingle h).symm

theorem payload_zero (h : a.parcel.FitsSingle) : a.payload 0 = a.body := by
  have htake := a.take_got 0
  have hgot : a.got 0 = 0 := Nat.zero_sub _
  rw [got_one h, hgot, List.take_length, List.take_zero, List.nil_append] at htake
  exact htake.symm

end Answer

end PollEntry

namespace Engine
variable {entry : PollEntry} {v : entry.Voice} {voices : List entry.Voice} {e : Engine} {frame : Frame}
  {op : Operation} {ops : List Operation}

theorem Reached.addresses (hr : e.Reached) (he : e.job.entry = some entry) (hp : entry.protocol ≠ .vwtp20) :
    e.job.Addresses entry := by
  obtain ⟨bus, name, reports, settings, ops, rfl⟩ := hr
  exact (((routes_new bus name reports settings).run ops).isoTp entry he hp).2

/-- A broadcast of the poll list is in flight, and its responders are accepted. -/
structure Broadcasts (entry : PollEntry) (e : Engine) : Prop where
  isoTp : entry.protocol ≠ .vwtp20
  broadcast : entry.rx = 0
  entry_eq : e.job.entry = some entry
  periodic : e.single = none
  wait_pos : 0 < e.wait
  range : (e.job.low, e.job.high) = entry.responders

theorem Broadcasts.accepts (h : Broadcasts entry e) {id : UInt32} (hid : entry.Responds id) :
    e.job.accepts id = true := by
  obtain ⟨hlow, hhigh⟩ := hid
  rw [← h.range] at hlow hhigh
  exact Bool.and_eq_true_iff.2 ⟨decide_eq_true hlow, decide_eq_true hhigh⟩

/-- The operation has nothing to do with the poll in flight: time passes, a frame of ours is on the bus, or a frame
comes in that is not for the poll. -/
def Unrelated (e : Engine) : Operation → Prop
  | .elapse _ => True
  | .txComplete _ success => success = true
  | .frame frame => frame.bus ≠ e.bus ∨
      e.isChannelFrame frame = false ∧ e.job.accepts (e.responseId frame) = false
  | _ => False

/-- These answers come in, each in its frame and in this order, and all else is unrelated to the poll. -/
inductive Voices : List entry.Voice → Engine → List Operation → Prop
  | nil (e : Engine) : Voices [] e []
  | voice {v : entry.Voice} {voices : List entry.Voice} {e : Engine} {frame : Frame} {ops : List Operation}
    (hf : v.answer.BringsFrom e.bus v.id 1 0 frame) (hc : e.isChannelFrame frame = false)
    (ht : Voices voices (e.step (.frame frame)) ops) : Voices (v :: voices) e (.frame frame :: ops)
  | aside {voices : List entry.Voice} {e : Engine} {op : Operation} {ops : List Operation} (h : e.Unrelated op)
    (ht : Voices voices (e.step op) ops) : Voices voices e (op :: ops)

theorem step_unrelated (hr : e.AtRest) (h : e.Unrelated op) : ∃ received now new,
    e.step op = { e with job := { e.job with received }, now, log := new ++ e.log } ∧
      ∀ s ∈ new, s.event.IsSent := by
  have hsame : ∃ received now new, e = { e with job := { e.job with received }, now, log := new ++ e.log } ∧
      ∀ s ∈ new, s.event.IsSent := ⟨e.job.received, e.now, [], rfl, List.forall_mem_nil _⟩
  cases op with
  | frame frame =>
    by_cases hb : frame.bus = e.bus
    · obtain ⟨hc, ha⟩ := h.resolve_left (not_not_intro hb)
      have hother : e.receiveOther frame = e := by simp [receiveOther, ha]
      rw [step_frame_other hb hc, hother, settle_atRest hr]
      exact hsame
    · rw [show e.step (.frame frame) = e from if_pos hb]
      exact hsame
  | txComplete frame success =>
    obtain rfl : success = true := h
    obtain ⟨received, new, heq, hnew⟩ := judgeResult_good e frame
    show ∃ _ _ _, (e.judgeResult frame true).settle = _ ∧ _
    rw [heq]
    exact ⟨received, e.now, new, settle_atRest ⟨hr.results, hr.queue⟩, hnew⟩
  | elapse ms => exact ⟨e.job.received, e.now + ms, [], rfl, List.forall_mem_nil _⟩
  | _ => exact h.elim

/-- The first answer is handed on, and ends the wait. -/
theorem Broadcasts.step_voice (h : Broadcasts entry e) (hr : e.Reached) (hx : entry.Recognisable)
    (hf : v.answer.BringsFrom e.bus v.id 1 0 frame) (hc : e.isChannelFrame frame = false) :
    (e.step (.frame frame)).wait = 0 ∧ (e.step (.frame frame)).single = none ∧
      ∃ s r, (e.step (.frame frame)).log = s :: e.log ∧ s.reply? = some r ∧ v.HandedOn r := by
  have hasks := hr.asks h.entry_eq
  have hrest := hr.atRest
  have hsent : e.job.sent = broadcastTx := by
    rw [(hr.addresses h.entry_eq h.isoTp).sent, PollEntry.target, if_neg (not_not_intro h.broadcast)]
  have hother : e.receiveOther frame = e.receiveIsoTp frame v.id := by
    have hid : e.responseId frame = v.id := by rw [responseId, hasks.protocol, hf.sender_eq]
    have hvwtp : e.job.isVwtp = false := by
      rw [PollJob.isVwtp, hasks.protocol, beq_eq_false_iff_ne]
      exact h.isoTp
    simp [receiveOther, hid, hvwtp, h.wait_pos, h.entry_eq, h.accepts v.responds]
  have hreceive := receiveIsoTp_brings hasks hx (Nat.zero_le _) hf (absurd rfl) (absurd rfl) (absurd rfl)
  rw [PollEntry.Answer.got_one v.fits, PollEntry.Answer.payload_zero v.fits, Nat.sub_self] at hreceive
  have hdeliver : e.deliverSegment v.id v.answer.body 0 =
      { e with
        job := { e.job with received := v.id, mlRemain := 0 }
        log := ⟨e.now, .reply { e.job with received := v.id, mlRemain := 0 } v.answer.body 0⟩ :: e.log } :=
    deliverReply_none (e := { e with job := { e.job with received := v.id, mlRemain := 0 } }) h.periodic _
  -- More answers may follow, so that no poll is chained; but none is waited for.
  have hstep : e.step (.frame frame) = { e with
      job := { e.job with received := v.id, mlRemain := 0 }
      wait := 0
      log := ⟨e.now, .reply { e.job with received := v.id, mlRemain := 0 } v.answer.body 0⟩ :: e.log } := by
    rw [step_frame_other hf.bus_eq hc, hother, hreceive, show UInt16.ofNat 0 = 0 from rfl, hdeliver, afterSegment,
      if_pos rfl, if_pos (by simp [PollJob.isBroadcast, hsent])]
    exact settle_atRest ⟨hrest.results, hrest.queue⟩
  rw [hstep]
  exact ⟨rfl, h.periodic, _, _, rfl, rfl, h.entry_eq, rfl, rfl, rfl⟩

/-- Without a wait nothing comes of the answers. -/
theorem Voices.unheard (hr : e.AtRest) (hs : e.single = none) (hw : e.wait = 0) (h : Voices voices e ops) :
    ∃ new, (e.run ops).log = new ++ e.log ∧ replies new = [] := by
  induction h with
  | nil e => exact ⟨[], rfl, rfl⟩
  | @voice v voices e frame ops hf hc ht ih =>
    have hstep : e.step (.frame frame) = e := by
      have hother : e.receiveOther frame = e := by simp [receiveOther, hw]
      rw [step_frame_other hf.bus_eq hc, hother, settle_atRest hr]
    rw [hstep] at ih
    show ∃ new, ((e.step (.frame frame)).run ops).log = _ ∧ _
    rw [hstep]
    exact ih hr hs hw
  | @aside voices e op ops hop ht ih =>
    obtain ⟨received, now, new, heq, hnew⟩ := step_unrelated hr hop
    show ∃ new, ((e.step op).run ops).log = _ ∧ _
    obtain ⟨new', hnew', hnone⟩ := ih (hr.step op) (by rw [heq]; exact hs) (by rw [heq]; exact hw)
    refine ⟨new' ++ new, ?_, ?_⟩
    · rw [hnew', heq, List.append_assoc]
    · rw [replies_append, hnone, replies_of_quiet fun s hmem => (hnew s hmem).isQuiet]
      rfl

theorem Broadcasts.unrelated (h : Broadcasts entry e) (hr : e.AtRest) (hop : e.Unrelated op) :
    Broadcasts entry (e.step op) := by
  obtain ⟨received, now, new, heq, -⟩ := step_unrelated hr hop
  rw [heq]
  exact ⟨h.isoTp, h.broadcast, h.entry_eq, h.periodic, h.wait_pos, h.range⟩

theorem Voices.first (h : Broadcasts entry e) (hr : e.Reached) (hx : entry.Recognisable)
    (hin : Voices voices e ops) : ∃ new, (e.run ops).log = new ++ e.log ∧
      List.Forall₂ PollEntry.Voice.HandedOn (voices.take 1) (replies new) := by
  induction hin with
  | nil e => exact ⟨[], rfl, .nil⟩
  | @voice v voices e frame ops hf hc ht _ =>
    obtain ⟨hw, hs, s, r, hlog, hreply, hv⟩ := h.step_voice hr hx hf hc
    obtain ⟨new, hnew, hnone⟩ := ht.unheard (hr.step _).atRest hs hw
    refine ⟨new ++ [s], ?_, ?_⟩
    · show ((e.step (.frame frame)).run ops).log = _
      rw [hnew, hlog, List.append_assoc]
      rfl
    · have hone : replies [s] = [r] := by simp [replies, hreply]
      rw [replies_append, hnone, hone]
      exact .cons hv .nil
  | @aside voices e op ops hop ht ih =>
    obtain ⟨received, now, new, heq, hnew⟩ := step_unrelated hr.atRest hop
    obtain ⟨new', hnew', hfirst⟩ := ih (h.unrelated hr.atRest hop) (hr.step op)
    refine ⟨new' ++ new, ?_, ?_⟩
    · show ((e.step op).run ops).log = _
      rw [hnew', heq, List.append_assoc]
    · rw [replies_append, replies_of_quiet fun s hmem => (hnew s hmem).isQuiet]
      exact hfirst

/-- While a broadcast of the poll list is in flight, any number of modules answer it in single frames, in any order
and before the next tick. The first of them is handed on, with the id of its module and nothing to come, and no other:
each is handed on just if there is at most one. -/
theorem replies_broadcast (hr : e.Reached) (h : Broadcasts entry e) (hx : entry.Recognisable)
    (hin : Voices voices e ops) (hids : (voices.map (·.id)).Nodup) : ∃ new, (e.run ops).log = new ++ e.log ∧
      List.Forall₂ PollEntry.Voice.HandedOn (voices.take 1) (replies new) ∧
      ((∀ v ∈ voices, ∃ r ∈ replies new, v.HandedOn r) ↔ voices.length ≤ 1) := by
  obtain ⟨new, hnew, hfirst⟩ := hin.first h hr hx
  refine ⟨new, hnew, hfirst, ?_⟩
  match voices, hids, hfirst with
  | [], _, _ => exact iff_of_true (List.forall_mem_nil _) (Nat.zero_le 1)
  | [v], _, hfirst =>
    obtain ⟨r, _, hv, -, hreplies⟩ := List.forall₂_cons_left_iff.1 hfirst
    refine iff_of_true (List.forall_mem_singleton.2 ⟨r, ?_, hv⟩) (Nat.le_refl 1)
    rw [hreplies]
    exact List.mem_cons_self ..
  | v :: w :: rest, hids, hfirst =>
    obtain ⟨r, _, hv, hnil, hreplies⟩ := List.forall₂_cons_left_iff.1 hfirst
    rw [List.forall₂_nil_left_iff.1 hnil] at hreplies
    refine iff_of_false (fun hall => ?_) (by simp)
    obtain ⟨r', hmem, hw⟩ := hall w (List.mem_cons_of_mem _ (List.mem_cons_self ..))
    rw [hreplies, List.mem_singleton] at hmem
    have hne : v.id ≠ w.id := fun heq => by simp [heq] at hids
    exact hne (hv.received.symm.trans (hmem ▸ hw.received))

/-- Two modules answer, with a frame of a third module in between. Only the first answer is handed on. -/
theorem replies_broadcast_example :
    let bus : BusId := ⟨1, by decide⟩
    let entry : PollEntry := ⟨0x7df, 0, 0x01, 0x0c, [], #v[1, 1, 1, 1], 1, .isoTp⟩
    let e := (Engine.new bus "ecu" false ⟨0, 25, .strict, 0, 0⟩).run [.setList (some [entry]) none, .tick true]
    let ops : List Operation := [.frame (EcuFrame.padded bus 0x7e9 [0x04, 0x41, 0x0c, 0x1a, 0xf8]), .elapse 5,
      .frame (EcuFrame.padded bus 0x123 [0x01]), .frame (EcuFrame.padded bus 0x7e8 [0x04, 0x41, 0x0c, 0x0f, 0xa0])]
    ∃ new r, (e.run ops).log = new ++ e.log ∧ replies new = [r] ∧
      r.job.received = 0x7e9 ∧ r.data = [0x1a, 0xf8] ∧ r.remain = 0 := by
  intro bus entry e ops
  let first : entry.Voice := ⟨0x7e9, ⟨by decide, by decide⟩, ⟨[0x1a, 0xf8], by decide⟩, by decide⟩
  let second : entry.Voice := ⟨0x7e8, ⟨by decide, by decide⟩, ⟨[0x0f, 0xa0], by decide⟩, by decide⟩
  have hreached : e.Reached := ⟨bus, "ecu", false, _, _, rfl⟩
  have hb : Broadcasts entry e := ⟨by decide, rfl, by decide, by decide, by decide, by decide⟩
  have hin : Voices [first, second] e ops :=
    .voice ⟨by decide, by decide, by decide⟩ (by decide) (.aside trivial (.aside (.inr ⟨by decide, by decide⟩)
      (.voice ⟨by decide, by decide, by decide⟩ (by decide) (.nil _))))
  obtain ⟨new, hnew, hone, -⟩ := replies_broadcast hreached hb ⟨by decide, fun _ => by decide⟩ hin (by decide)
  obtain ⟨r, _, hv, hnil, hreplies⟩ := List.forall₂_cons_left_iff.1 hone
  rw [List.forall₂_nil_left_iff.1 hnil] at hreplies
  exact ⟨new, r, hnew, hreplies, hv.received, hv.data, hv.remain⟩

/-- Of two answers the second is not handed on. -/
theorem not_all_replies_broadcast_example :
    let bus : BusId := ⟨1, by decide⟩
    let entry : PollEntry := ⟨0x7df, 0, 0x01, 0x0c, [], #v[1, 1, 1, 1], 1, .isoTp⟩
    let e := (Engine.new bus "ecu" false ⟨0, 25, .strict, 0, 0⟩).run [.setList (some [entry]) none, .tick true]
    let ops : List Operation := [.frame (EcuFrame.padded bus 0x7e8 [0x04, 0x41, 0x0c, 0x1a, 0xf8]),
      .frame (EcuFrame.padded bus 0x7e9 [0x04, 0x41, 0x0c, 0x0f, 0xa0])]
    (replies (e.run ops).log).map (fun r => (r.job.received, r.data, r.remain)) = [(0x7e8, [0x1a, 0xf8], 0)] ∧
      ¬ ∃ r ∈ replies (e.run ops).log, r.job.received = 0x7e9 := by
  decide +kernel

end Engine

end EcuPoll
