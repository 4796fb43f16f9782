import EcuPoll.Proofs.Engine.Accounts
import EcuPoll.Proofs.Engine.Conclusions
import EcuPoll.Proofs.IsoTp.Uptake

/-!
# Preempting a response

A single request may take the bus while the response to a poll is still coming in. The frames that are left of it come
from the id that is to answer the request. The first of them is refused as out of sequence, and with it all that
comes from there after it: the request is answered just if no such frame is on its way (`answered_iff_none_late`).
-/

namespace EcuPoll

theorem Protocol.isoTp_congr {p q : Protocol} (h : p.isoTpRoom = q.isoTpRoom) :
    p.isoTpSender = q.isoTpSender ∧ p.isoTpData = q.isoTpData := by
  cases p <;> cases q <;> first | exact ⟨rfl, rfl⟩ | exact absurd h (by decide)

theorem Event.IsPassing.resolved {event : Event} (h : event.IsPassing) : event.resolved? = none := by
  cases event <;> first | rfl | exact (h.elim id id).elim

namespace Engine
variable {e e' : Engine} {request : SingleRequest} {frames late : List Frame} {last : Frame} {ops : List Operation}

theorem Reached.serves (hr : e.Reached) : ∃ requests, Serves requests e := by
  obtain ⟨bus, name, reports, settings, ops, rfl⟩ := hr
  exact ⟨_, (serves_new bus name reports settings).run ops⟩

theorem startIsoTp_good {entry : PollEntry} (he : e.job.entry = some entry) (hp : e.job.protocol = entry.protocol)
    (hl : e.line.TakesAll) (hr : e.results = []) : e.startIsoTp.AllSent ∧ ∃ out txId results frame,
      e.startIsoTp = { e with
        out, results
        line := e.line.asOf e.now
        wait := 2
        log := ⟨e.now, .wrote .opening frame true⟩ :: e.log
        job := { e.job with
          sent := entry.target
          low := entry.responders.1
          high := entry.responders.2
          txId }.resetMultiframe } := by
  rw [startIsoTp_eq entry he hp]
  exact ⟨AllSent.transmit (.of_nil (by exact hr)) (by exact hl) _ _, _, _, _, _, transmit_good (by exact hl) _ _⟩

/-- The single request has the bus and is out, and nothing of its answer has come in. -/
structure Preempts (request : SingleRequest) (e e' : Engine) : Prop where
  expects : Expects request.entry request.entry.rx e'
  single : e'.single = some ⟨request, [], e.schedule.snapshot⟩
  bus : e'.bus = e.bus
  line : e'.line.TakesAll
  remain : e'.job.mlRemain = 0
  log : Adds (fun event => event.resolved? = none) e e'

theorem startSingle_isSingle {requests : List SingleRequest} (hs : Serves requests e)
    (hgone : request.isGone e.now = false) (hsingle : request.entry.IsSingle) :
    e.startSingle request = (e.capture request).advance.dispatch request.entry := by
  have hnext := Schedule.next_isSingle hsingle hs.state_lt
  rw [hs.bus_eq] at hnext
  unfold startSingle
  rw [if_neg (by simp [hgone])]
  dsimp only
  rw [show (e.capture request).schedule.next.1 = .due request.entry from hnext]

theorem submit_preempts (hr : e.Reached) (hs : e.single = none) (hl : e.line.TakesAll)
    (hgone : request.isGone e.now = false) (hsingle : request.entry.IsSingle) (hx : request.entry.Answerable) :
    Preempts request e (e.step (.submit request)) := by
  obtain ⟨requests, hserves⟩ := hr.serves
  have hrest := hr.atRest
  have hresponders : request.entry.responders = (request.entry.rx, request.entry.rx) := if_pos hx.oneToOne.1
  set e₀ := (e.capture request).advance.assign request.entry
  obtain ⟨hsent, out, txId, results, frame, hstart⟩ := startIsoTp_good (e := e₀) rfl rfl hl hrest.results
  obtain ⟨received, new, hjudge, hnew⟩ := judgeResults_noneFailed hsent.noneFailed
  have hopened : Adds (·.resolved? = none) e e₀.startIsoTp := by
    rw [hstart]
    refine ⟨[_, _, _], rfl, fun s hmem => ?_⟩
    simp only [List.mem_cons, List.not_mem_nil, or_false] at hmem
    rcases hmem with rfl | rfl | rfl <;> rfl
  have hjudged : Adds (·.resolved? = none) e₀.startIsoTp e₀.startIsoTp.judgeResults := by
    rw [hjudge]
    exact ⟨new, rfl, fun s hmem => Event.IsPassing.resolved (.inl (hnew s hmem).isMinor)⟩
  have hlog := hopened.trans hjudged
  rw [hjudge, hstart, hresponders] at hlog
  rw [step_submit hrest hs, startSingle_isSingle hserves hgone hsingle, dispatch_isoTp hx.isoTp, hjudge, hstart,
    hresponders]
  refine ⟨⟨rfl, hx.isoTp, ?_, ?_, Nat.zero_lt_two, rfl⟩, rfl, rfl, ?_, rfl, ?_⟩
  · show request.entry.responders.1 ≤ _ ∧ _ ≤ request.entry.responders.2
    rw [hresponders]
    exact ⟨UInt32.le_refl _, UInt32.le_refl _⟩
  · show (decide (request.entry.rx ≤ request.entry.rx) && decide (request.entry.rx ≤ request.entry.rx)) = true
    simp
  · exact hl.asOf _
  · exact hlog

/-- A request is answered with a body that comes in for it just if no consecutive frame of another response comes
first, whichever poll was in flight. In another addressing such frames are not from this id: they pass by. -/
theorem answered_iff_none_late (hr : e.Reached) (hs : e.single = none) (hl : e.line.TakesAll)
    (hgone : request.isGone e.now = false) (hsingle : request.entry.IsSingle) (hx : request.entry.Answerable)
    {old : PollEntry} (b : old.Answer) (hrx : old.rx = request.entry.rx)
    (hroom : old.protocol.isoTpRoom = request.entry.protocol.isoTpRoom)
    (hlate : ∀ frame ∈ late, ∃ k, b.BringsFrom e.bus old.rx 1 (k + 1) frame) (a : request.entry.Answer)
    (hframes : List.Forall₂ (a.BringsFrom e.bus request.entry.rx 1) (List.range a.parcel.pieces) frames)
    (hlast : a.BringsFrom e.bus request.entry.rx 1 a.parcel.pieces last)
    (hin : Incoming request.entry (late ++ frames) (e.step (.submit request)) ops)
    (hc : ((e.step (.submit request)).run ops).isChannelFrame last = false) :
    ∃ new, (e.run (.submit request :: (ops ++ [.frame last]))).log = new ++ e.log ∧
      ((∃ s ∈ new, s.event = .singleResolved request.ticket (.ok a.body)) ↔ late = []) := by
  have hp := submit_preempts hr hs hl hgone hsingle hx
  have hreached := hr.step (.submit request)
  obtain ⟨started, hstarted, hnone⟩ := hp.log
  show ∃ new, ((e.step (.submit request)).run (ops ++ [.frame last])).log = new ++ e.log ∧ _
  generalize e.step (.submit request) = e₁ at *
  rw [← hp.bus] at hframes hlast hlate
  have hu := hp.expects.uptake hreached hp.line a
  cases late with
  | nil =>
    obtain ⟨new, hnew, hgiven⟩ := hu.whole hx.recognisable hreached.atRest hframes hlast
      (fun j _ hne => .inl (by omega)) hin hc
    rw [hp.single] at hgiven
    obtain ⟨-, s, hmem, hev⟩ := hgiven
    refine ⟨new ++ started, by rw [hnew, hstarted, List.append_assoc], ?_⟩
    exact iff_of_true ⟨s, List.mem_append_left _ hmem, hev⟩ rfl
  | cons frame late =>
    have hall : List.Forall₂ (a.BringsFrom e₁.bus request.entry.rx 1) (List.range a.parcel.pieces ++ [a.parcel.pieces])
        (frames ++ [last]) := List.rel_append hframes (.cons hlast .nil)
    obtain ⟨hsender, hdata⟩ := Protocol.isoTp_congr hroom
    have hsenders : ∀ f ∈ frame :: (late ++ (frames ++ [last])),
        request.entry.protocol.isoTpSender f = request.entry.rx := by
      intro f hmem
      rw [← List.cons_append] at hmem
      rcases List.mem_append.1 hmem with hmem | hmem
      · obtain ⟨k, hf⟩ := hlate f hmem
        rw [← hsender, hf.sender_eq, hrx]
      · exact PollEntry.Answer.senders hall f hmem
    -- No bytes are to come yet, so the first late frame is out of sequence whatever its number.
    obtain ⟨k, hf⟩ := hlate frame (List.mem_cons_self ..)
    obtain ⟨_, -, hd⟩ := hf.consecutive
    rw [hdata] at hd
    have hsnoc := hin.snoc hc
    rw [List.append_assoc, List.cons_append] at hsnoc
    obtain ⟨-, new, hnew, hpass⟩ := hu.pending.refuses hreached.atRest hp.expects.id_ne hp.expects.accepts hf.bus_eq
      hsenders hd (by rw [isNumberOk, hp.remain]; rfl) hsnoc
    refine ⟨new ++ started, by rw [hnew, hstarted, List.append_assoc], iff_of_false ?_ (List.cons_ne_nil _ _)⟩
    rintro ⟨s, hmem, hev⟩
    have hquiet : s.event.resolved? = none :=
      (List.mem_append.1 hmem).elim (fun hmem => (hpass s hmem).resolved) (hnone s)
    rw [hev] at hquiet
    cases hquiet

/-- The first frame of an answer to the list has come in. Then a request is answered if its answer is next, but not if
one more frame of the old answer is. -/
theorem answered_iff_none_late_example :
    let bus : BusId := ⟨1, by decide⟩
    let ident : PollEntry := ⟨0x7e0, 0x7e8, 0x22, 0x1111, [], #v[1, 1, 1, 1], 1, .isoTp⟩
    let vin : PollEntry := ⟨0x7e0, 0x7e8, 0x22, 0xf190, [], #v[999, 999, 999, 999], 0, .isoTp⟩
    let e := (Engine.new bus "ecu" false ⟨0, 25, .strict, 0, 0⟩).run [.setList (some [ident]) none, .tick true,
      .frame (EcuFrame.padded bus 0x7e8 [0x10, 12, 0x62, 0x11, 0x11, 1, 2, 3])]
    let submit := Operation.submit ⟨1, vin, 3000, none⟩
    let late := EcuFrame.padded bus 0x7e8 [0x21, 4, 5, 6, 7, 8, 9]
    let answer := EcuFrame.padded bus 0x7e8 [0x04, 0x62, 0xf1, 0x90, 7]
    (∃ new, (e.run [submit, .frame answer]).log = new ++ e.log ∧
        ∃ s ∈ new, s.event = .singleResolved 1 (.ok [7])) ∧
      ∃ new, (e.run [submit, .frame late, .frame answer]).log = new ++ e.log ∧
        ¬ ∃ s ∈ new, s.event = .singleResolved 1 (.ok [7]) := by
  intro bus ident vin e submit late answer
  let a : vin.Answer := ⟨[7], by decide⟩
  let b : ident.Answer := ⟨[1, 2, 3, 4, 5, 6, 7, 8, 9], by decide⟩
  let request : SingleRequest := ⟨1, vin, 3000, none⟩
  have hreached : e.Reached := ⟨bus, "ecu", false, _, _, rfl⟩
  have hfree : e.line = .free := by decide
  have hbus : e.bus = bus := by decide
  have hpieces : a.parcel.pieces = 0 := by decide
  have hgone : request.isGone e.now = false := by decide
  have hvin : vin.IsSingle := ⟨0x7e0, 0x7e8, [0x22, 0xf1, 0x90], .isoTp, by decide⟩
  have hx : vin.Answerable := ⟨by decide, by decide, by decide, nofun⟩
  have hlate : b.BringsFrom e.bus 0x7e8 1 1 late := ⟨hbus.symm, by decide, by decide⟩
  have hlast : a.BringsFrom e.bus 0x7e8 1 0 answer := ⟨hbus.symm, by decide, by decide⟩
  have hnext : Incoming vin [] (e.step submit) [] := .nil _
  have hafter : Incoming vin [late] (e.step submit) [.frame late] := .frame (by decide) (.nil _)
  constructor
  · obtain ⟨new, hnew, hiff⟩ := answered_iff_none_late hreached (by decide) (hfree ▸ Line.takesAll_free) hgone hvin
      hx b rfl rfl (List.forall_mem_nil _) a (hpieces ▸ .nil) (hpieces ▸ hlast) hnext (by decide)
    exact ⟨new, hnew, hiff.2 rfl⟩
  · obtain ⟨new, hnew, hiff⟩ := answered_iff_none_late hreached (by decide) (hfree ▸ Line.takesAll_free) hgone hvin
      hx b rfl rfl (List.forall_mem_singleton.2 ⟨0, hlate⟩) a (hpieces ▸ .nil) (hpieces ▸ hlast) hafter (by decide)
    exact ⟨new, hnew, fun h => absurd (hiff.1 h) (List.cons_ne_nil _ _)⟩

/-- The answer that comes in after the late frame is passed over, though it is still waited for. -/
theorem not_answered_late_example :
    let bus : BusId := ⟨1, by decide⟩
    let ident : PollEntry := ⟨0x7e0, 0x7e8, 0x22, 0x1111, [], #v[1, 1, 1, 1], 1, .isoTp⟩
    let vin : PollEntry := ⟨0x7e0, 0x7e8, 0x22, 0xf190, [], #v[999, 999, 999, 999], 0, .isoTp⟩
    let frame := fun bytes => Operation.frame (EcuFrame.padded bus 0x7e8 bytes)
    let e := (Engine.new bus "ecu" false ⟨0, 25, .strict, 0, 0⟩).run
      [.setList (some [ident]) none, .tick true, frame [0x10, 12, 0x62, 0x11, 0x11, 1, 2, 3],
        .submit ⟨1, vin, 3000, none⟩, frame [0x21, 4, 5, 6, 7, 8, 9], frame [0x04, 0x62, 0xf1, 0x90, 7]]
    e.wait = 2 ∧ e.singleTicket = some 1 ∧ ¬ ∃ s ∈ e.log, s.event = .singleResolved 1 (.ok [7]) := by
  intro bus ident vin frame e
  have hnone : e.log.filterMap (·.event.resolved?) = [] := by decide
  refine ⟨by decide, by decide, ?_⟩
  rintro ⟨s, hmem, hev⟩
  have hquiet : s.event.resolved? = none := List.filterMap_eq_nil_iff.1 hnone s hmem
  rw [hev] at hquiet
  cases hquiet

end Engine

end EcuPoll
