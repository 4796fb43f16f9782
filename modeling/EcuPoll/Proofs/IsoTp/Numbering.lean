import EcuPoll.Proofs.IsoTp.Uptake

/-!
# Numbers that wrap

Consecutive frames are numbered modulo 16, and a lenient engine also takes a number below the one that is due, so
that a device may count from 0. It compares the numbers as they are, not where they stand in the cycle. So the
response of such a device is taken up to the first wrap only (`counted_from_zero`), and where the number of a lost
frame is 15 the frame after it, whose number is 0, is taken in its place (`handed_of_lost_frame`).
-/

namespace EcuPoll.Engine
variable {entry : PollEntry} {a : entry.Answer} {id : UInt32} {k : Nat} {e₀ e : Engine}
  {frames before after : List Frame} {last : Frame} {ops : List Operation}

/-- The number of the lost frame is 15, and the frame after it has a lower number, which a lenient engine takes. -/
structure Slips (e : Engine) (a : entry.Answer) (lost : Nat) : Prop where
  lenient : e.policy = .lenient
  number : lost % 16 = 14
  more : lost + 1 < a.parcel.pieces

/-- A device that counts from 0 is understood by a lenient engine if its response has at most 15 consecutive
frames. The next one has the number 15 where 0 is due: it is refused, and the response never completed. -/
theorem counted_from_zero (he : e.Reached) (hl : e.line.TakesAll) (hp : e.policy = .lenient)
    (hw : e.Expects entry id) (hx : entry.Recognisable) (a : entry.Answer)
    (hf : List.Forall₂ (a.BringsFrom e.bus id 0) (List.range a.parcel.pieces) frames)
    (hlast : a.BringsFrom e.bus id 0 a.parcel.pieces last) (hin : Incoming entry frames e ops)
    (hc : (e.run ops).isChannelFrame last = false) :
    (a.parcel.pieces ≤ 15 → ∃ new, (e.run (ops ++ [.frame last])).log = new ++ e.log ∧ GivenAll a new e.single) ∧
      (15 < a.parcel.pieces → Handed (a.body.take (a.got 16)) e (e.run (ops ++ [.frame last]))) := by
  have hu := hw.uptake he hl a
  have hrest := he.atRest
  have hadmits : ∀ j, j < 16 → j ≠ 0 → e.policy.Admits j (0 + (j - 1)) := fun j hj hne => .inr ⟨hp, by omega⟩
  constructor
  · intro hfew
    exact hu.whole hx hrest hf hlast (fun j hj => hadmits j (by omega)) hin hc
  · intro hmany
    have hall : List.Forall₂ (a.BringsFrom e.bus id 0) (List.range (a.parcel.pieces + 1)) (frames ++ [last]) := by
      rw [List.range_succ]
      exact List.rel_append hf (.cons hlast .nil)
    rw [show a.parcel.pieces + 1 = 15 + 1 + (a.parcel.pieces - 15) by omega] at hall
    refine hu.stops hx hrest hw.id_ne hall hmany hadmits (fun _ => ?_) (hin.snoc hc)
    -- The frame has the number 15, where 0 is due.
    rintro (hsame | ⟨-, hlt⟩)
    · exact absurd hsame (by decide)
    · exact absurd hlt (by decide)

/-- Two consecutive frames with the numbers 0 and 1, and a secondary tick between them. -/
theorem counted_from_zero_example :
    let bus : BusId := ⟨1, by decide⟩
    let entry : PollEntry := ⟨0x7e0, 0x7e8, 0x22, 0xf190, [], #v[1, 0, 0, 0], 1, .isoTp⟩
    let body : List UInt8 := [1, 2, 3, 4, 5, 6, 7, 8, 9, 10, 11, 12]
    let e := (Engine.new bus "ecu" false ⟨0, 25, .lenient, 0, 0⟩).run
      [.setList (some [entry]) none, .tick true]
    let first := EcuFrame.padded bus 0x7e8 [0x10, 15, 0x62, 0xf1, 0x90, 1, 2, 3]
    let second := EcuFrame.padded bus 0x7e8 [0x20, 4, 5, 6, 7, 8, 9, 10]
    let last := EcuFrame.padded bus 0x7e8 [0x21, 11, 12]
    ∃ new, (e.run ([.frame first, .frame second, .tick false] ++ [.frame last])).log = new ++ e.log ∧
      HandOut entry body (replies new) := by
  intro bus entry body e first second last
  let a : entry.Answer := ⟨body, by decide⟩
  have hreached : e.Reached := ⟨bus, "ecu", false, _, _, rfl⟩
  have hfree : e.line = .free := by decide
  have hbus : e.bus = bus := by decide
  have hs : e.single = none := by decide
  have hpieces : a.parcel.pieces = 2 := by decide
  have hw : e.Expects entry 0x7e8 := ⟨by decide, by decide, ⟨by decide, by decide⟩, by decide, by decide, by decide⟩
  have hin : Incoming entry [first, second] e [.frame first, .frame second, .tick false] :=
    .frame (by decide) (.frame (by decide) (.aside ⟨nofun, nofun⟩ (.nil _)))
  have hfirst : a.BringsFrom e.bus 0x7e8 0 0 first := ⟨hbus.symm, by decide, by decide⟩
  have hsecond : a.BringsFrom e.bus 0x7e8 0 1 second := ⟨hbus.symm, by decide, by decide⟩
  have hlast : a.BringsFrom e.bus 0x7e8 0 2 last := ⟨hbus.symm, by decide, by decide⟩
  have hdone := (counted_from_zero hreached (hfree ▸ Line.takesAll_free) (by decide) hw ⟨by decide, nofun⟩ a
    (hpieces ▸ .cons hfirst (.cons hsecond .nil)) (hpieces ▸ hlast) hin (by decide)).1 (by decide)
  rw [hs] at hdone
  exact hdone

/-- With sixteen consecutive frames the last byte is missing. -/
theorem not_counted_from_zero_example :
    let bus : BusId := ⟨1, by decide⟩
    let entry : PollEntry := ⟨0x7e0, 0x7e8, 0x22, 0xf190, [], #v[1, 0, 0, 0], 1, .isoTp⟩
    let a : entry.Answer := ⟨(List.range 109).map UInt8.ofNat, by decide⟩
    let e := (Engine.new bus "ecu" false ⟨0, 25, .lenient, 0, 0⟩).run
      [.setList (some [entry]) none, .tick true]
    let ops := (List.range 17).map fun k => Operation.frame (EcuFrame.padded bus 0x7e8 (a.parcel.numbered 0 k))
    replies e.log = [] ∧ (replies (e.run ops).log).flatMap (·.data) = a.body.take 108 ∧
      ∀ r ∈ replies (e.run ops).log, r.remain ≠ 0 := by
  decide +kernel

/-- The frame whose number is 15 is lost. A lenient engine takes the next one, whose number is 0, in its place. What
follows is refused. -/
theorem Uptake.slips (h : Uptake a id e₀ (k + 1) e) (hr : e.AtRest) (hid : id ≠ 0) (hs : e.Slips a k) {left : Nat}
    (hf : List.Forall₂ (a.BringsFrom e₀.bus id 1) (List.range' (k + 2) (left + 1)) frames)
    (hin : Incoming entry frames e ops) :
    ∃ rest, Handed (a.body.take (a.got (k + 1)) ++ (a.parcel.piece (k + 1) ++ rest)) e₀ (e.run ops) := by
  obtain ⟨hlenient, hnumber, hmore⟩ := hs
  rw [List.range'_succ, List.forall₂_cons_left_iff] at hf
  obtain ⟨frame, others, hone, hothers, rfl⟩ := hf
  obtain ⟨before, after, rfl, hbefore, hc, hafter⟩ := hin.uncons
  obtain ⟨rest, hlen, hd⟩ := hone.consecutive
  have hu := h.lingers (hbefore.lingers h.pending (List.forall_mem_nil _))
  have hlt : k < a.parcel.pieces := Nat.lt_of_succ_lt hmore
  have hadmits : (e.run before).policy.Admits (k + 1) (1 + (k + 1)) :=
    .inr ⟨(policy_run hr before).trans hlenient, by omega⟩
  have hshort : (a.parcel.piece (k + 1) ++ rest).length < (e.run before).job.mlRemain.toNat := by
    have hreach := (a.parcel.lt_pieces_iff (k + 1)).1 hmore
    rw [a.parcel.reach_succ] at hreach
    rw [hu.toNat_remain hlt, hlen]
    omega
  obtain ⟨hhanded, hpending, hbus, hframe, haccepts⟩ := hu.handed.step_taken hu.pending
    (hone.bus_eq.trans hu.bus_eq.symm) hc hone.sender_eq hu.accepts hd ((hu.isNumberOk_iff hlt _).2 hadmits) hshort
  rw [hu.frame_eq (Nat.succ_ne_zero k), show UInt16.ofNat (k + 1) + 1 = UInt16.ofNat (k + 2) from
    (UInt16.ofNat_add (k + 1) 1).symm] at hframe
  rw [← hu.bus_eq, ← hbus] at hothers
  rw [run_append] at hafter
  have hwrong : left ≠ 0 → ¬ ((e.run before).step (.frame frame)).policy.Admits (k + 2) (1 + (k + 2)) := by
    -- The next frame has the number 1, where 0 is due.
    rintro - (hsame | ⟨-, hlt⟩) <;> omega
  obtain ⟨hsingle, hpass⟩ := hpending.refusesFrom ((hr.run before).step _) hid ((haccepts id).trans hu.accepts)
    hframe hwrong hothers hafter
  refine ⟨rest, ?_⟩
  rw [List.append_cons, run_append, run_append]
  exact hhanded.passing hsingle hpass

/-- A consecutive frame is lost, all others come in, of a device that counts from 1. What was handed on before the
gap is right, and the response is never complete. Bytes from behind the gap are handed on just if the lost frame has
the number 15, there is a next one, and the engine is lenient. -/
theorem handed_of_lost_frame (he : e.Reached) (hl : e.line.TakesAll) (hw : e.Expects entry id) (hx : entry.Recognisable)
    (a : entry.Answer) {lost : Nat} (hlost : lost < a.parcel.pieces)
    (hbefore : List.Forall₂ (a.BringsFrom e.bus id 1) (List.range (lost + 1)) before)
    (hafter : List.Forall₂ (a.BringsFrom e.bus id 1) (List.range' (lost + 2) (a.parcel.pieces - (lost + 1))) after)
    (hin : Incoming entry (before ++ after) e ops) :
    ∃ extra, Handed (a.body.take (a.got (lost + 1)) ++ extra) e (e.run ops) ∧
      (e.Slips a lost → a.parcel.piece (lost + 1) <+: extra) ∧ (¬ e.Slips a lost → extra = []) := by
  have hrest := he.atRest
  rw [List.range_eq_range'] at hbefore
  obtain ⟨first, second, rfl, hu, hsecond⟩ := (hw.uptake he hl a).walk hx hrest hbefore (by omega)
    (fun j _ hne => .inl (by omega)) hin
  have hpolicy := policy_run hrest first
  rw [Nat.zero_add] at hu
  rw [run_append]
  by_cases hslips : e.Slips a lost
  · have hs : (e.run first).Slips a lost := ⟨hpolicy.trans hslips.lenient, hslips.number, hslips.more⟩
    have hmore := hslips.more
    rw [show a.parcel.pieces - (lost + 1) = a.parcel.pieces - (lost + 2) + 1 by omega] at hafter
    obtain ⟨rest, hhanded⟩ := hu.slips (hrest.run first) hw.id_ne hs hafter hsecond
    exact ⟨_, hhanded, fun _ => ⟨rest, rfl⟩, fun h => absurd hslips h⟩
  · refine ⟨[], ?_, fun h => absurd h hslips, fun _ => rfl⟩
    rw [List.append_nil]
    refine hu.refused (hrest.run first) hw.id_ne (fun hmore => ?_) hafter hsecond
    rw [hpolicy]
    rintro (hsame | ⟨hp, hlt⟩)
    · omega
    · exact hslips ⟨hp, by omega, by omega⟩

/-- The second of three consecutive frames is lost. -/
theorem handed_of_lost_frame_example :
    let bus : BusId := ⟨1, by decide⟩
    let entry : PollEntry := ⟨0x7e0, 0x7e8, 0x22, 0xf190, [], #v[1, 0, 0, 0], 1, .isoTp⟩
    let e := (Engine.new bus "ecu" false ⟨0, 25, .lenient, 0, 0⟩).run
      [.setList (some [entry]) none, .tick true]
    let first := EcuFrame.padded bus 0x7e8 [0x10, 22, 0x62, 0xf1, 0x90, 1, 2, 3]
    let second := EcuFrame.padded bus 0x7e8 [0x21, 4, 5, 6, 7, 8, 9, 10]
    let last := EcuFrame.padded bus 0x7e8 [0x23, 18, 19]
    Handed [1, 2, 3, 4, 5, 6, 7, 8, 9, 10] e (e.run [.frame first, .frame second, .tick false, .frame last]) := by
  intro bus entry e first second last
  let a : entry.Answer := ⟨[1, 2, 3, 4, 5, 6, 7, 8, 9, 10, 11, 12, 13, 14, 15, 16, 17, 18, 19], by decide⟩
  have hreached : e.Reached := ⟨bus, "ecu", false, _, _, rfl⟩
  have hfree : e.line = .free := by decide
  have hbus : e.bus = bus := by decide
  have hpieces : a.parcel.pieces = 3 := by decide
  have hw : e.Expects entry 0x7e8 := ⟨by decide, by decide, ⟨by decide, by decide⟩, by decide, by decide, by decide⟩
  have hin : Incoming entry ([first, second] ++ [last]) e [.frame first, .frame second, .tick false, .frame last] :=
    .frame (by decide) (.frame (by decide) (.aside ⟨nofun, nofun⟩ (.frame (by decide) (.nil _))))
  have hfirst : a.BringsFrom e.bus 0x7e8 1 0 first := ⟨hbus.symm, by decide, by decide⟩
  have hsecond : a.BringsFrom e.bus 0x7e8 1 1 second := ⟨hbus.symm, by decide, by decide⟩
  have hlast : a.BringsFrom e.bus 0x7e8 1 3 last := ⟨hbus.symm, by decide, by decide⟩
  obtain ⟨extra, hhanded, -, hnone⟩ := handed_of_lost_frame hreached (hfree ▸ Line.takesAll_free) hw
    ⟨by decide, nofun⟩ a (show 1 < a.parcel.pieces by decide) (.cons hfirst (.cons hsecond .nil))
    (hpieces ▸ .cons hlast .nil) hin
  rw [hnone fun h => absurd h.number (by decide), List.append_nil] at hhanded
  exact hhanded

/-- The frame with the number 15 is lost. The bytes of the one after it stand in the place of its own. -/
theorem not_prefix_of_lost_frame_example :
    let bus : BusId := ⟨1, by decide⟩
    let entry : PollEntry := ⟨0x7e0, 0x7e8, 0x22, 0xf190, [], #v[1, 0, 0, 0], 1, .isoTp⟩
    let a : entry.Answer := ⟨(List.range 115).map UInt8.ofNat, by decide⟩
    let e := (Engine.new bus "ecu" false ⟨0, 25, .lenient, 0, 0⟩).run
      [.setList (some [entry]) none, .tick true]
    let ops := (List.range 15 ++ [16]).map fun k =>
      Operation.frame (EcuFrame.padded bus 0x7e8 (a.parcel.numbered 1 k))
    (replies (e.run ops).log).flatMap (·.data) = a.body.take 101 ++ a.body.drop 108 ∧
      ¬ (replies (e.run ops).log).flatMap (·.data) <+: a.body := by
  decide +kernel

end EcuPoll.Engine
