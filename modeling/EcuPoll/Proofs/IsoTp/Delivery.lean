import EcuPoll.Proofs.Engine.Quiet
import EcuPoll.Proofs.Engine.Routes
import EcuPoll.Proofs.IsoTp.Answers

/-!
# Handing on a body

The body of an answer goes out in replies, or is collected for the single request that has the bus.
`HandOut` says of replies that they are the body, in order and each in its place. `Given` says the same of
what has been handed on so far, and `GivenAll` in the end. What is handed on with a frame of the answer is its
share of the body, if its number is acceptable (`receiveIsoTp_brings`).
-/

namespace EcuPoll

/-! ### Replies -/

/-- A reply: the poll it belongs to, which says where it has its place, and the bytes still to come. -/
structure Reply where
  job : PollJob
  data : List UInt8
  remain : UInt16
deriving DecidableEq, Repr

def Stamped.reply? (s : Stamped) : Option Reply :=
  match s.event with
  | .reply job data remain => some ⟨job, data, remain⟩
  | _ => none

/-- The replies, oldest first, in a log with the newest event first. -/
def replies (log : List Stamped) : List Reply :=
  log.reverse.filterMap Stamped.reply?

theorem replies_append (new log : List Stamped) : replies (new ++ log) = replies log ++ replies new := by
  simp [replies]

/-- The replies hand out the first `n` bytes of `body` for the entry: each says how many bytes came
before it and how many are to come. -/
structure HandsOn (entry : PollEntry) (body : List UInt8) (n : Nat) (rs : List Reply) : Prop where
  concat : rs.flatMap (·.data) = body.take n
  place : ∀ before r after, rs = before ++ r :: after → r.job.entry = some entry ∧
    r.job.mlOffset.toNat = (before.flatMap (·.data)).length ∧
    r.remain.toNat = body.length - ((before.flatMap (·.data)).length + r.data.length)

/-- The replies hand out the whole `body` for the entry, and only the last says that nothing is to
come. -/
structure HandOut (entry : PollEntry) (body : List UInt8) (rs : List Reply) : Prop where
  concat : rs.flatMap (·.data) = body
  place : ∀ before r after, rs = before ++ r :: after → r.job.entry = some entry ∧
    r.job.mlOffset.toNat = (before.flatMap (·.data)).length ∧
    r.remain.toNat = (after.flatMap (·.data)).length
  last : ∃ init last, rs = init ++ [last] ∧ last.remain = 0 ∧ ∀ r ∈ init, r.remain ≠ 0

namespace HandsOn
variable {entry : PollEntry} {body : List UInt8} {n : Nat} {rs : List Reply} {r : Reply}

theorem nil : HandsOn entry body 0 [] :=
  ⟨rfl, fun _ _ _ h => by simp at h⟩

theorem snoc (h : HandsOn entry body n rs) (hn : n + r.data.length ≤ body.length)
    (he : r.job.entry = some entry) (ho : r.job.mlOffset.toNat = n)
    (hr : r.remain.toNat = body.length - (n + r.data.length))
    (hd : body.take (n + r.data.length) = body.take n ++ r.data) :
    HandsOn entry body (n + r.data.length) (rs ++ [r]) := by
  have hlen : (rs.flatMap (·.data)).length = n := by
    rw [h.concat, List.length_take]
    omega
  refine ⟨?_, fun before r' after heq => ?_⟩
  · rw [List.flatMap_append, h.concat, hd, List.flatMap_singleton]
  rcases List.eq_nil_or_concat after with rfl | ⟨after, last, rfl⟩
  · obtain ⟨rfl, hlast⟩ := List.append_inj' heq rfl
    obtain rfl := (List.cons.inj hlast).1
    rw [hlen]
    exact ⟨he, ho, hr⟩
  · have heq' : rs ++ [r] = (before ++ r' :: after) ++ [last] := by
      rw [heq, List.append_assoc, List.cons_append, List.concat_eq_append]
    exact h.place before r' after (List.append_inj' heq' rfl).1

theorem handOut {init : List Reply} {last : Reply} (h : HandsOn entry body body.length (init ++ [last]))
    (hl : last.remain = 0) (hi : ∀ r ∈ init, r.remain ≠ 0) : HandOut entry body (init ++ [last]) := by
  have hconcat := h.concat
  rw [List.take_length] at hconcat
  refine ⟨hconcat, fun before r after heq => ?_, init, last, rfl, hl, hi⟩
  obtain ⟨he, ho, hr⟩ := h.place before r after heq
  refine ⟨he, ho, ?_⟩
  have hlen := congrArg List.length hconcat
  rw [heq, List.flatMap_append, List.flatMap_cons, List.length_append, List.length_append] at hlen
  omega

end HandsOn

/-! ### Leave to go on -/

/-- The frames that let a responder go on, oldest first. -/
def flowControls (log : List Stamped) : List Frame :=
  ((writes log).filter (·.kind = .flowControl)).map (·.frame)

theorem flowControls_append (new log : List Stamped) :
    flowControls (new ++ log) = flowControls log ++ flowControls new := by
  rw [flowControls, writes_append, List.filter_append, List.map_append, flowControls, flowControls]

theorem replies_of_quiet {new : List Stamped} (h : ∀ s ∈ new, s.event.IsQuiet) : replies new = [] := by
  simp only [replies, List.filterMap_eq_nil_iff, List.mem_reverse]
  intro s hs
  have := h s hs
  unfold Stamped.reply?
  cases heq : s.event with
  | reply _ _ _ =>
    rw [heq] at this
    exact this.elim
  | _ => rfl

theorem flowControls_of_quiet {new : List Stamped} (h : ∀ s ∈ new, s.event.IsQuiet) :
    flowControls new = [] := by
  simp only [flowControls, List.map_eq_nil_iff, List.filter_eq_nil_iff, writes, List.mem_filterMap,
    List.mem_reverse]
  rintro w ⟨s, hs, hw⟩
  have := h s hs
  unfold Stamped.write? at hw
  cases heq : s.event with
  | wrote kind frame accepted =>
    rw [heq] at hw this
    cases hw
    simpa [Event.IsQuiet] using this
  | _ =>
    rw [heq] at hw
    cases hw

theorem Event.IsSent.isQuiet {event : Event} (h : event.IsSent) : event.IsQuiet := by
  cases event <;> first | exact h.elim | trivial

namespace Engine
variable {entry : PollEntry} {a : entry.Answer} {k n : Nat} {e : Engine} {single single₀ : Option Capture}
  {new : List Stamped}

/-! ### What has been handed on -/

/-- The first `n` bytes of the body have been handed on: in replies, or to the single request that had
the bus at the start. -/
def Given (a : entry.Answer) (n : Nat) (single : Option Capture) (new : List Stamped) :
    Option Capture → Prop
  | none => single = none ∧ HandsOn entry a.body n (replies new) ∧ ∀ r ∈ replies new, r.remain ≠ 0
  | some capture => replies new = [] ∧
      single = some { capture with response := capture.response ++ a.body.take n }

/-- The whole body has been handed on, and a single request has ended with it. -/
def GivenAll (a : entry.Answer) (new : List Stamped) : Option Capture → Prop
  | none => HandOut entry a.body (replies new)
  | some capture => replies new = [] ∧
      ∃ s ∈ new, s.event = .singleResolved capture.request.ticket (.ok (capture.response ++ a.body))

theorem Given.start (a : entry.Answer) (single : Option Capture) : Given a 0 single [] single := by
  rcases single with _ | capture
  · exact ⟨rfl, .nil, nofun⟩
  · refine ⟨rfl, ?_⟩
    rw [List.take_zero, List.append_nil]

theorem Given.append (h : Given a n single new single₀) {new' : List Stamped} (hn : replies new' = []) :
    Given a n single (new' ++ new) single₀ := by
  have hr : replies (new' ++ new) = replies new := by
    rw [replies_append, hn, List.append_nil]
  rcases single₀ with _ | capture
  · simp only [Given, hr]
    exact h
  · exact ⟨hr.trans h.1, h.2⟩

theorem GivenAll.append (h : GivenAll a new single₀) {new' : List Stamped} (hn : replies new' = []) :
    GivenAll a (new' ++ new) single₀ := by
  have hr : replies (new' ++ new) = replies new := by
    rw [replies_append, hn, List.append_nil]
  rcases single₀ with _ | capture
  · simp only [GivenAll, hr]
    exact h
  · obtain ⟨hnil, s, hmem, hev⟩ := h
    exact ⟨hr.trans hnil, s, List.mem_append_right _ hmem, hev⟩

/-- A single request keeps the bus while the body comes in. -/
theorem Given.isSome (h : Given a n single new single₀) : single.isSome = single₀.isSome := by
  rcases single₀ with _ | capture
  · rw [h.1]
  · rw [h.2]
    rfl

theorem toNat_ofNat_of_le {m : Nat} (h : m ≤ isoTpMax) : (UInt16.ofNat m).toNat = m := by
  rw [UInt16.toNat_ofNat', Nat.mod_eq_of_lt (Nat.lt_of_le_of_lt h (by decide))]

/-- The poll has its place after `n` bytes of the body, and is about to hand on `data`. -/
structure HandsPiece (a : entry.Answer) (n : Nat) (data : List UInt8) (job : PollJob) : Prop where
  entry_eq : job.entry = some entry
  offset_eq : job.mlOffset = UInt16.ofNat n
  remain_eq : job.mlRemain = UInt16.ofNat (a.body.length - (n + data.length))
  length_le : n + data.length ≤ a.body.length
  take_eq : a.body.take (n + data.length) = a.body.take n ++ data

namespace HandsPiece
variable {job : PollJob} {data : List UInt8}

theorem toNat_remain (h : HandsPiece a n data job) :
    job.mlRemain.toNat = a.body.length - (n + data.length) := by
  have := a.length_body_le
  rw [h.remain_eq, toNat_ofNat_of_le (by omega)]

theorem remain_eq_zero_iff (h : HandsPiece a n data job) :
    job.mlRemain = 0 ↔ n + data.length = a.body.length := by
  have := h.length_le
  rw [← UInt16.toNat_inj, h.toNat_remain]
  show _ = 0 ↔ _
  omega

theorem handsOn (h : HandsPiece a n data job) {rs : List Reply} (hr : HandsOn entry a.body n rs) :
    HandsOn entry a.body (n + data.length) (rs ++ [⟨job, data, job.mlRemain⟩]) := by
  have hbody := a.length_body_le
  have hle := h.length_le
  refine hr.snoc (r := ⟨job, data, job.mlRemain⟩) hle h.entry_eq ?_ h.toNat_remain h.take_eq
  rw [h.offset_eq, toNat_ofNat_of_le (by omega)]

end HandsPiece

/-- The poll has its place in the answer before the frame that follows `k` others, whose payload it is
about to hand on. -/
structure Hands (a : entry.Answer) (k : Nat) (job : PollJob) : Prop where
  entry_eq : job.entry = some entry
  offset_eq : job.mlOffset = UInt16.ofNat (a.got k)
  remain_eq : job.mlRemain = UInt16.ofNat (a.body.length - a.got (k + 1))

namespace Hands
variable {job : PollJob}

theorem got_add (a : entry.Answer) (k : Nat) : a.got k + (a.payload k).length = a.got (k + 1) := by
  have := a.got_le_succ k
  rw [a.length_payload]
  omega

theorem piece (h : Hands a k job) : HandsPiece a (a.got k) (a.payload k) job := by
  refine ⟨h.entry_eq, h.offset_eq, ?_, ?_, ?_⟩ <;> rw [got_add]
  · exact h.remain_eq
  · exact a.got_le (k + 1)
  · exact a.take_got k

theorem remain_eq_zero_iff (h : Hands a k job) :
    job.mlRemain = 0 ↔ a.got (k + 1) = a.body.length := by
  rw [h.piece.remain_eq_zero_iff, got_add]

end Hands

theorem deliverReply_none (hs : e.single = none) (data : List UInt8) :
    e.deliverReply data = e.emit (.reply e.job data e.job.mlRemain) := by
  simp only [deliverReply, hs]

theorem replies_reply (time : Nat) (job : PollJob) (data : List UInt8) (remain : UInt16) :
    replies (⟨time, .reply job data remain⟩ :: new) = replies new ++ [⟨job, data, remain⟩] :=
  replies_append [_] new

/-- More of the body is handed on. -/
theorem Given.deliverPiece (h : Given a n e.single new single₀) {data : List UInt8}
    (hj : HandsPiece a n data e.job) (hmore : n + data.length ≠ a.body.length) :
    ∃ single new', e.deliverReply data = { e with single, log := new' ++ e.log } ∧
      Given a (n + data.length) single (new' ++ new) single₀ ∧ writes new' = [] := by
  have hremain : e.job.mlRemain ≠ 0 := mt hj.remain_eq_zero_iff.1 hmore
  rcases single₀ with _ | capture
  · obtain ⟨hnone, hhands, hrest⟩ := h
    refine ⟨e.single, [⟨e.now, .reply e.job data e.job.mlRemain⟩],
      deliverReply_none hnone _, ⟨hnone, ?_⟩, rfl⟩
    rw [List.singleton_append, replies_reply]
    refine ⟨hj.handsOn hhands, fun r hr => ?_⟩
    rcases List.mem_append.1 hr with hr | hr
    · exact hrest r hr
    · rw [List.mem_singleton.1 hr]
      exact hremain
  · obtain ⟨hnil, hsome⟩ := h
    refine ⟨some { capture with response := capture.response ++ a.body.take (n + data.length) }, [], ?_,
      ⟨hnil, rfl⟩, rfl⟩
    simp only [Engine.deliverReply, hsome, if_neg hremain, hj.take_eq, List.append_assoc,
      List.nil_append]

/-- The rest of the body is handed on. -/
theorem Given.deliverRest (h : Given a n e.single new single₀) {data : List UInt8}
    (hj : HandsPiece a n data e.job) (hlast : n + data.length = a.body.length) :
    ∃ new', (e.deliverReply data).log = new' ++ e.log ∧ GivenAll a (new' ++ new) single₀ ∧
      writes new' = [] := by
  have hremain : e.job.mlRemain = 0 := hj.remain_eq_zero_iff.2 hlast
  rcases single₀ with _ | capture
  · obtain ⟨hnone, hhands, hrest⟩ := h
    refine ⟨[⟨e.now, .reply e.job data e.job.mlRemain⟩], ?_, ?_, rfl⟩
    · rw [deliverReply_none hnone]
      rfl
    · have hall := hj.handsOn hhands
      rw [hlast] at hall
      rw [List.singleton_append, GivenAll, replies_reply]
      exact hall.handOut hremain hrest
  · obtain ⟨hnil, hsome⟩ := h
    have hresponse : capture.response ++ a.body.take n ++ data = capture.response ++ a.body := by
      rw [List.append_assoc, ← hj.take_eq, hlast, List.take_length]
    refine ⟨[⟨e.now, .singleResolved capture.request.ticket (.ok (capture.response ++ a.body))⟩], ?_,
      ⟨?_, _, List.mem_append_left _ (List.mem_singleton_self _), rfl⟩, rfl⟩
    · simp only [Engine.deliverReply, finishSingle, hsome, hremain, if_true, emit, hresponse]
      rfl
    · rw [replies_append, hnil]
      rfl

theorem flowControls_of_writes (h : writes new = []) : flowControls new = [] := by
  rw [flowControls, h]
  rfl

/-- More of the body is handed on, with a frame of the answer over ISO-TP. -/
theorem Given.deliverReply (h : Given a (a.got k) e.single new single₀) (hj : Hands a k e.job)
    (hmore : a.got (k + 1) ≠ a.body.length) :
    ∃ single new', e.deliverReply (a.payload k) = { e with single, log := new' ++ e.log } ∧
      Given a (a.got (k + 1)) single (new' ++ new) single₀ ∧ flowControls new' = [] := by
  rw [← Hands.got_add] at hmore ⊢
  obtain ⟨single, new', heq, hgiven, hwrites⟩ := h.deliverPiece hj.piece hmore
  exact ⟨single, new', heq, hgiven, flowControls_of_writes hwrites⟩

/-- The rest of the body is handed on, with the last frame of the answer over ISO-TP. -/
theorem Given.deliverLast (h : Given a (a.got k) e.single new single₀) (hj : Hands a k e.job)
    (hlast : a.got (k + 1) = a.body.length) :
    ∃ new', (e.deliverReply (a.payload k)).log = new' ++ e.log ∧ GivenAll a (new' ++ new) single₀ ∧
      flowControls new' = [] := by
  rw [← Hands.got_add] at hlast
  obtain ⟨new', hlog, hgiven, hwrites⟩ := h.deliverRest hj.piece hlast
  exact ⟨new', hlog, hgiven, flowControls_of_writes hwrites⟩

end Engine

/-! ### Reading the frames of an answer -/

/-- A consecutive frame of this number is taken when the number `expected` is due. -/
def SequencePolicy.Admits (policy : SequencePolicy) (expected number : Nat) : Prop :=
  number % 16 = expected % 16 ∨ policy = .lenient ∧ number % 16 < expected % 16

namespace Engine
variable {entry : PollEntry} {e : Engine}

theorem isNumberOk_iff {expected : Nat} (hm : e.job.mlRemain ≠ 0) (hf : e.job.mlFrame = UInt16.ofNat expected)
    (number : Nat) : e.isNumberOk (UInt8.ofNat (number % 16)) = true ↔ e.policy.Admits expected number := by
  have hexpected : (UInt8.ofNat (expected % 16)).toNat = expected % 16 := by
    rw [UInt8.toNat_ofNat']
    omega
  have hnumber : (UInt8.ofNat (number % 16)).toNat = number % 16 := by
    rw [UInt8.toNat_ofNat']
    omega
  unfold isNumberOk SequencePolicy.Admits
  rw [hf, Segment.low_ofNat]
  cases e.policy with
  | lenient =>
    simp only [bne_iff_ne, ne_eq, hm, not_false_eq_true, decide_eq_true_eq, Bool.and_eq_true, true_and,
      UInt8.le_iff_toNat_le, hexpected, hnumber]
    omega
  | strict =>
    simp only [bne_iff_ne, ne_eq, hm, not_false_eq_true, Bool.and_eq_true, true_and, beq_iff_eq,
      ← UInt8.toNat_inj, hexpected, hnumber, reduceCtorEq, false_and, or_false]

theorem isNumberOk_eq_false {expected number : Nat} (hf : e.job.mlFrame = UInt16.ofNat expected)
    (hn : ¬ e.policy.Admits expected number) : e.isNumberOk (UInt8.ofNat (number % 16)) = false := by
  by_cases hm : e.job.mlRemain = 0
  · rw [isNumberOk, hm]
    rfl
  · exact Bool.eq_false_iff.2 (mt (isNumberOk_iff hm hf number).1 hn)

theorem lessLength_ofNat {m : Nat} (hm : m ≤ isoTpMax) {segment : List UInt8} (h : segment.length ≤ m) :
    lessLength (UInt16.ofNat m) segment = UInt16.ofNat (m - segment.length) := by
  rw [lessLength, toNat_ofNat_of_le hm, if_pos h, UInt16.ofNat_sub h]

theorem receiveOpening_answer (hj : e.job.Asks entry) (hx : entry.Recognisable) (a : entry.Answer) (id : UInt32)
    (first : Bool) : e.receiveOpening id (UInt16.ofNat a.parcel.message.length)
        (a.parcel.message.take a.parcel.openingCount) first =
      (e.deliverSegment id (a.payload 0) (UInt16.ofNat (a.body.length - a.got 1))).afterSegment id first
        (a.payload 0).length := by
  have hcount := a.parcel.openingCount_le
  have hcome := a.to_come 0
  have htaken : a.parcel.taken 1 = a.parcel.openingCount := by
    simp only [Parcel.taken, a.parcel.reach_zero]
    omega
  have hlen : (a.parcel.message.take a.parcel.openingCount).length = a.parcel.openingCount := by
    rw [List.length_take]
    omega
  have hjudge : e.judge (a.parcel.message.take a.parcel.openingCount) = .answer (a.payload 0) := by
    rw [a.take_openingCount, ← hj.service, ← hj.pid]
    refine judge_answer ?_ ?_ _
    · rw [hj.service]
      exact hx.service
    · rw [hj.service, hj.pid]
      exact hx.pid
  have hless : lessLength (UInt16.ofNat a.parcel.message.length)
      (a.parcel.message.take a.parcel.openingCount) = UInt16.ofNat (a.body.length - a.got 1) := by
    rw [lessLength_ofNat a.parcel.length_le (by omega), hlen, ← hcome, htaken]
  unfold receiveOpening
  rw [hjudge]
  exact congrArg (fun remain => (e.deliverSegment id _ remain).afterSegment ..) hless

/-- A consecutive frame with an acceptable number and the piece that is due. -/
theorem receiveConsecutive_piece {a : entry.Answer} {k : Nat} (hk : k < a.parcel.pieces)
    (hremain : e.job.mlRemain = UInt16.ofNat (a.parcel.message.length - a.parcel.taken (k + 1)))
    {index : UInt8} (hn : e.isNumberOk index = true) {rest : List UInt8}
    (hrest : (a.parcel.piece k ++ rest).length = a.parcel.stride) (id : UInt32) :
    e.receiveConsecutive id index (a.parcel.piece k ++ rest) =
      (e.deliverSegment id (a.payload (k + 1))
        (UInt16.ofNat (a.body.length - a.got (k + 1 + 1)))).afterSegment id false
        (a.payload (k + 1)).length := by
  have hlt := (a.parcel.lt_pieces_iff k).1 hk
  have hmax := a.parcel.length_le
  have hpiece := a.parcel.length_piece k
  have htaken : a.parcel.taken (k + 1) = a.parcel.reach k := Nat.min_eq_left (Nat.le_of_lt hlt)
  have hnat : e.job.mlRemain.toNat = a.parcel.message.length - a.parcel.reach k := by
    rw [hremain, htaken, toNat_ofNat_of_le (by omega)]
  -- a piece that is not the last fills its frame
  have hsegment : (a.parcel.piece k ++ rest).take e.job.mlRemain.toNat = a.parcel.piece k := by
    rw [hnat]
    rcases Nat.le_total a.parcel.stride (a.parcel.message.length - a.parcel.reach k) with hfull | hlast
    · rw [List.length_append] at hrest
      have hnil : rest = [] := List.eq_nil_of_length_eq_zero (by omega)
      rw [hnil, List.append_nil]
      exact List.take_of_length_le (by omega)
    · exact List.take_left' (by omega)
  have hless : lessLength e.job.mlRemain (a.parcel.piece k) =
      UInt16.ofNat (a.body.length - a.got (k + 1 + 1)) := by
    have hcome := a.to_come (k + 1)
    have hsucc := a.parcel.reach_succ k
    have htaken' : a.parcel.taken (k + 1 + 1) = min (a.parcel.reach (k + 1)) a.parcel.message.length := rfl
    rw [hremain, htaken, lessLength_ofNat (by omega) (by omega), ← hcome]
    congr 1
    omega
  rw [a.piece_eq hk] at hsegment hless ⊢
  simp only [receiveConsecutive, hn, hsegment, hless, Bool.not_true, Bool.false_eq_true, if_false]

/-- What a frame of the answer does, up to what follows its payload. -/
theorem receiveIsoTp_brings (hj : e.job.Asks entry) (hx : entry.Recognisable) {a : entry.Answer} {k start : Nat}
    (hk : k ≤ a.parcel.pieces) {bus : BusId} {id : UInt32} {frame : Frame} (hf : a.BringsFrom bus id start k frame)
    (hframe : k ≠ 0 → e.job.mlFrame = UInt16.ofNat k)
    (hremain : k ≠ 0 → e.job.mlRemain = UInt16.ofNat (a.parcel.message.length - a.parcel.taken k))
    (hn : k ≠ 0 → e.policy.Admits k (start + (k - 1))) : e.receiveIsoTp frame id =
      (e.deliverSegment id (a.payload k) (UInt16.ofNat (a.body.length - a.got (k + 1)))).afterSegment id
        (decide (k = 0 ∧ ¬ a.parcel.FitsSingle)) (a.payload k).length := by
  obtain ⟨rest, hrest⟩ := hf.data
  have hlen : (a.parcel.numbered start k ++ rest).length = a.parcel.room := by
    rw [hrest, entry.protocol.length_isoTpData]
    rfl
  unfold receiveIsoTp
  rw [hj.protocol, ← hrest]
  cases k with
  | zero =>
    rw [Parcel.numbered, a.parcel.ofBytes?_opening hlen]
    by_cases hfits : a.parcel.FitsSingle
    · have hall : a.parcel.message.take a.parcel.openingCount = a.parcel.message := by
        rw [Parcel.openingCount, if_pos hfits, List.take_length]
      have hopening := receiveOpening_answer hj hx a id false
      rw [hall] at hopening
      simpa [hfits] using hopening
    · simpa [hfits] using receiveOpening_answer hj hx a id true
  | succ k =>
    have hne := Nat.succ_ne_zero k
    have hlt := (a.parcel.lt_pieces_iff k).1 hk
    have hmore : e.job.mlRemain ≠ 0 := by
      have hmax := a.parcel.length_le
      have htaken : a.parcel.taken (k + 1) = a.parcel.reach k := Nat.min_eq_left (Nat.le_of_lt hlt)
      rw [hremain hne, htaken, Ne, ← UInt16.toNat_inj, toNat_ofNat_of_le (by omega)]
      show _ ≠ 0
      omega
    have hok := (isNumberOk_iff hmore (hframe hne) _).2 (hn hne)
    have hroom : (a.parcel.piece k ++ rest).length = a.parcel.stride := by
      rw [Parcel.numbered, List.cons_append, List.length_cons] at hlen
      rw [Parcel.stride]
      omega
    rw [Parcel.numbered, List.cons_append, Segment.ofBytes?_consecutive]
    simpa using receiveConsecutive_piece hk (hremain hne) hok hroom id

end Engine

end EcuPoll
