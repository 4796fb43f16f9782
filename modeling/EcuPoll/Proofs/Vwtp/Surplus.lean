import EcuPoll.Proofs.Engine.Parts
import EcuPoll.Proofs.Engine.Standing

/-!
# The length of a response over TP 2.0

The first data frame of a response says how long the response is, and each data frame takes off what it holds. But what
it holds is handed on whole, however little was to come. What was handed on and what is to come add up to the length of
the payload exactly if no data frame holds more than was to come (`accounted_iff`).
-/

namespace EcuPoll

namespace Engine
variable {e e' d : Engine} {frame : Frame} {op : Operation} {ops : List Operation} {rs : List Reply}
  {frames remain : UInt16} {body handed : Nat}

/-- A poll of the list is in flight, and its response comes in on the channel. -/
structure Draws (e : Engine) : Prop where
  periodic : e.single = none
  isVwtp : e.job.isVwtp = true
  state_eq : e.channel.state = .receive

/-- Before every operation a response comes in, and no other poll has begun. -/
def Drawing (e : Engine) (ops : List Operation) : Prop :=
  ∀ before op after, ops = before ++ op :: after →
    (e.run before).channel.state = .receive ∧ ¬ Shows (·.beginsPoll = true) e (e.run before)

/-- The operation is a data frame after which what is handed on and what is to come do not add up to `body` bytes, of
which `handed` were handed on before. -/
inductive Spoils (body handed : Nat) (e : Engine) : Operation → Prop
  /-- It holds more than was to come. -/
  | surplus {frame : Frame} (hf : e.HasData frame) (hm : e.job.mlFrame ≠ 0)
    (hlt : e.job.mlRemain.toNat < (frame.payload.drop 1).length) : Spoils body handed e (.frame frame)
  /-- The count of frames has wrapped, so that the frame is taken for the first one, and announces something else. -/
  | again {frame : Frame} {payload : List UInt8} (hf : e.HasData frame) (hm : e.job.mlFrame = 0)
    (hj : e.judge (frame.payload.drop 3) = .answer payload)
    (hne : handed + payload.length + ((announced frame).toNat - (frame.payload.drop 3).length) ≠ body) :
    Spoils body handed e (.frame frame)

/-! ### One operation -/

/-- A part of a response over the channel is in a data frame. -/
theorem Takes.hasData {payload : List UInt8} {left : Nat} (ht : e.Takes frame payload left)
    (hv : e.job.isVwtp = true) : e.HasData frame := by
  cases hc : e.isChannelFrame frame with
  | true => exact (ht.onChannel hc).1
  | false =>
    obtain ⟨_, hf, -⟩ := ht.aside hc
    cases hv.symm.trans hf.isoTp

/-- Once a frame was taken, what is to come and what was handed on add up. -/
def Tallies (body handed : Nat) (frames remain : UInt16) : Prop :=
  frames ≠ 0 → remain.toNat + handed = body

/-- The sum stays what it is exactly if the frame does not spoil it. -/
theorem Takes.tallies_iff {payload : List UInt8} {left : Nat} (ht : e.Takes frame payload left)
    (hv : e.job.isVwtp = true) (h : Tallies body handed e.job.mlFrame e.job.mlRemain) :
    handed + payload.length + left = body ↔ ¬ e.Spoils body handed (.frame frame) := by
  have hf := ht.hasData hv
  cases ht with
  | @opening total segment payload ho hj =>
    cases ho with
    | single hf' | first hf' => cases hv.symm.trans hf'.isoTp
    | data _ hm =>
      constructor
      · intro hsum hs
        cases hs with
        | surplus _ hm' => exact hm' hm
        | again _ _ hj' hne =>
          cases hj.symm.trans hj'
          exact hne hsum
      · intro hs
        exact Decidable.not_not.1 fun hne => hs (.again hf hm hj hne)
  | more hg =>
    cases hg with
    | consecutive hf' => cases hv.symm.trans hf'.isoTp
    | data _ hm =>
      have hsum := h hm
      constructor
      · intro heq hs
        cases hs with
        | surplus _ _ hlt => omega
        | again _ hm' => exact hm hm'
      · intro hs
        have hle : (frame.payload.drop 1).length ≤ e.job.mlRemain.toNat :=
          Nat.le_of_not_lt fun hlt => hs (.surplus hf hm hlt)
        omega

theorem not_spoils_of_not_takes (hno : ∀ frame payload left, op = .frame frame → ¬ e.Takes frame payload left) :
    ¬ e.Spoils body handed op := by
  intro hs
  cases hs with
  | surplus hf hm => exact hno _ _ _ rfl (.more (.data hf hm))
  | again hf hm hj => exact hno _ _ _ rfl (.opening (.data hf hm) hj)

/-- The response stands here. -/
structure DrawsAt (frames remain : UInt16) (e : Engine) : Prop where
  draws : e.Draws
  frame_eq : e.job.mlFrame = frames
  remain_eq : e.job.mlRemain = remain

/-- These replies were made, and if the response still comes in, it stands here. -/
structure Leaves (e d : Engine) (rs : List Reply) (frames remain : UInt16) : Prop where
  replies : repliesSince e d = rs
  grows : e.log <:+ d.log
  single : d.single = none
  isVwtp : d.job.isVwtp = true
  stands : d.channel.state = .receive → d.job.mlFrame = frames ∧ d.job.mlRemain = remain

/-- What an operation makes of the response. -/
inductive Gets (e : Engine) : Operation → List Reply → UInt16 → UInt16 → Prop
  | part {frame : Frame} {left : Nat} {r : Reply} (ht : e.Takes frame r.data left) (hr : r.remain.toNat = left) :
    Gets e (.frame frame) [r] (e.job.mlFrame + 1) r.remain
  | nothing {op : Operation} {frames remain : UInt16}
    (hno : ∀ frame payload left, op = .frame frame → ¬ e.Takes frame payload left)
    (hstay : frames ≠ 0 → e.job.mlFrame = frames ∧ e.job.mlRemain = remain) : Gets e op [] frames remain

theorem state_goIdle (e : Engine) : e.goIdle.channel.state = .idle := by
  unfold goIdle
  split
  · assumption
  · rfl

theorem log_afterData (e : Engine) (length : Nat) : (e.afterData length).log = e.log := by
  unfold afterData goIdle
  split
  · split <;> rfl
  · rfl

/-- If more of the response is to come, one more of its frames was taken. -/
theorem mlFrame_afterData {length : Nat} (h : (e.afterData length).channel.state = .receive) :
    (e.afterData length).job.mlFrame = e.job.mlFrame + 1 := by
  unfold afterData at h ⊢
  by_cases h0 : e.job.mlRemain = 0
  · rw [if_pos h0]
    rw [if_pos h0, state_goIdle] at h
    cases h
  · rw [if_neg h0]

namespace Leaves

/-- What comes after the work of an operation leaves the response alone. -/
theorem handsOut (h : Leaves e d rs frames remain) (hb : Bides d e') :
    HandsOut e e' rs fun e' => e'.channel.state = .receive → DrawsAt frames remain e' :=
  .of_bides h.replies h.grows hb fun hs hstate => by
    obtain ⟨hl, hstanding⟩ := hs.standing (.inr hstate)
    have hvwtp := (isVwtp_of_asked hs.asked).trans h.isVwtp
    obtain ⟨hframe, hremain⟩ := h.stands (hl.resolve_left (by simp [h.isVwtp]))
    obtain ⟨-, hrest⟩ := Prod.mk.inj hstanding
    obtain ⟨hframe', hrest⟩ := Prod.mk.inj hrest
    obtain ⟨-, hremain'⟩ := Prod.mk.inj hrest
    exact ⟨⟨hs.single, hvwtp, hstate⟩, hframe'.trans hframe, hremain'.trans hremain⟩

theorem refl (hd : e.Draws) : Leaves e e [] e.job.mlFrame e.job.mlRemain :=
  ⟨repliesSince_self e, List.suffix_refl _, hd.periodic, hd.isVwtp, fun _ => ⟨rfl, rfl⟩⟩

theorem of_quiet (hd : e.Draws) (hq : Quiet e d) (hs : d.single = none) (ha : d.job.asked = e.job.asked)
    (hstay : d.channel.state = .receive → d.job.mlFrame = frames ∧ d.job.mlRemain = remain) :
    Leaves e d [] frames remain := by
  have hlog : Adds (·.isReply = false) e d := hq.mono fun _ => Event.IsQuiet.not_isReply
  exact ⟨repliesSince_of_adds hlog, hlog.suffix, hs, (isVwtp_of_asked ha).trans hd.isVwtp, hstay⟩

theorem sendPong (hd : e.Draws) : Leaves e e.sendPong [] e.job.mlFrame e.job.mlRemain := by
  have hjob : e.sendPong.job = e.job := by
    unfold Engine.sendPong
    rw [transmit_eq]
  have hw : Works e e.sendPong := (Works.refl e).sendPong
  refine .of_quiet hd (Quiet.works (.refl e) hw) (hw.single.trans hd.periodic) (by rw [hjob]) fun _ => ?_
  rw [hjob]
  exact ⟨rfl, rfl⟩

theorem abortTransfer (hd : e.Draws) (hw : Works e d) (ha : d.job.asked = e.job.asked) :
    Leaves e d.abortTransfer [] frames remain := by
  refine .of_quiet hd (Quiet.works (.refl e) hw.abortTransfer) (hw.abortTransfer.single.trans hd.periodic)
    ((asked_abortTransfer d).trans ha) fun hstate => ?_
  rw [state_abortTransfer] at hstate
  cases hstate

/-- The channel is closed, and the poll fails. -/
theorem peerClose (hd : e.Draws) : Leaves e e.peerClose [] frames remain := by
  have hs : e.requestClose.shutChannel.single = none :=
    (Same.shutChannel _).single.trans ((Same.requestClose e).single.trans hd.periodic)
  have ha : e.requestClose.shutChannel.job.asked = e.job.asked :=
    (Same.shutChannel _).asked.trans (Same.requestClose e).asked
  have hq : Quiet e e.requestClose.shutChannel := Quiet.works (.refl e) (Works.refl e).requestClose.shutChannel
  have hclosed := channel_shutChannel e.requestClose
  unfold Engine.peerClose
  dsimp only
  generalize e.requestClose.shutChannel = e₁ at hs ha hq hclosed ⊢
  have hno {c : Channel} (hc : c = e₁.channel) : c.state ≠ .receive := by
    rw [hc, hclosed]
    nofun
  split
  · have hd₁ := Delivers.deliverFailure e₁ .channelClosed
    exact .of_quiet hd (hq.deliverFailure _) (by rw [deliverFailure_none hs]; exact hs) (by rw [hd₁.job, ha])
      fun h => absurd h (hno hd₁.channel)
  · exact .of_quiet hd hq hs ha fun h => absurd h (hno rfl)

/-- The module turns the poll down. -/
theorem refused (hd : e.Draws) (hq : Quiet e d) (hs : d.single = none) (ha : d.job.asked = e.job.asked)
    (failure : PollFailure) : Leaves e (d.deliverFailure failure).goIdle [] frames remain := by
  have hd₁ := Delivers.deliverFailure d failure
  have hidle := Same.goIdle (d.deliverFailure failure)
  refine .of_quiet hd ((hq.deliverFailure failure).works (Works.refl _).goIdle) (hidle.single.trans ?_)
    (hidle.asked.trans (by rw [hd₁.job, ha])) fun hstate => ?_
  · rw [deliverFailure_none hs]
    exact hs
  · rw [state_goIdle] at hstate
    cases hstate

/-- A part of the response is handed on. -/
theorem deliverData (hd : e.Draws) (hq : Quiet e d) (hs : d.single = none) (ha : d.job.asked = e.job.asked)
    (opcode : UInt8) (segment payload : List UInt8) : ∃ r, r.data = payload ∧
      r.remain = lessLength d.job.mlRemain segment ∧
      Leaves e (d.deliverData opcode segment payload) [r] (d.job.mlFrame + 1) r.remain := by
  have hack := (Works.refl d).acknowledge opcode
  have hjob := job_acknowledge d opcode
  unfold Engine.deliverData
  dsimp only
  generalize d.acknowledge opcode = e₁ at hack hjob ⊢
  have hs₁ : e₁.single = none := hack.single.trans hs
  have hquiet : Adds (·.isReply = false) e e₁ := (hq.works hack).mono fun _ => Event.IsQuiet.not_isReply
  rw [← hjob]
  generalize lessLength e₁.job.mlRemain segment = remain
  obtain ⟨job, hj⟩ : ∃ job : PollJob, job = { e₁.job with received := e₁.channel.rxId, mlRemain := remain } := ⟨_, rfl⟩
  have ha₁ : job.asked = e.job.asked := by
    rw [hj, ← ha, ← hjob]
    rfl
  have hlog : e₁.log <:+ ({ e₁ with job }.emit (.reply job payload remain)).log := List.suffix_cons ..
  rw [deliverSegment_none hs₁ _ _ _ hj]
  refine ⟨⟨job, payload, remain⟩, rfl, rfl, ?_⟩
  have hu := unmoved_afterData ({ e₁ with job }.emit (.reply job payload remain)) payload.length
  refine ⟨?_, ?_, hu.single.trans hs₁, (isVwtp_of_asked (hu.asked.trans ha₁)).trans hd.isVwtp, fun hstate => ⟨?_, ?_⟩⟩
  · rw [repliesSince, log_afterData, ← repliesSince, repliesSince_trans hquiet.suffix hlog,
      repliesSince_of_adds hquiet]
    exact repliesSince_of_log (show _ = [⟨e₁.now, .reply job payload remain⟩] ++ e₁.log from rfl)
  · rw [log_afterData]
    exact hquiet.suffix.trans hlog
  · rw [mlFrame_afterData hstate]
    show job.mlFrame + 1 = _
    rw [hj]
  · rw [hu.mlRemain]
    show job.mlRemain = _
    rw [hj]

end Leaves

/-- The first data frame of a response, or what is taken for it. -/
theorem receiveFirstData_gets (hd : e.Draws) (hf : e.HasData frame) (hm : e.job.mlFrame = 0) :
    ∃ rs frames remain, e.Gets (.frame frame) rs frames remain ∧
      Leaves e (e.countData.receiveFirstData (Frame.leadByte frame.data) (announced frame)
        (frame.payload.drop 3)).2 rs frames remain := by
  have hw : Works e { e.countData with job := { e.countData.job with mlRemain := announced frame } } :=
    (Works.refl e).update ..
  have hnothing {frames remain : UInt16} (hno : ∀ payload, e.judge (frame.payload.drop 3) ≠ .answer payload)
      (hstay : frames ≠ 0 → e.job.mlFrame = frames ∧ e.job.mlRemain = remain) :
      e.Gets (.frame frame) [] frames remain := by
    refine .nothing (fun frame' payload left heq ht => ?_) hstay
    cases heq
    obtain ⟨payload, ha⟩ := (ht.onChannel hf.onChannel).2 hm
    exact hno payload ha
  unfold receiveFirstData
  dsimp only
  have hjudge : Engine.judge { e.countData with job := { e.countData.job with mlRemain := announced frame } }
      (frame.payload.drop 3) = e.judge (frame.payload.drop 3) := rfl
  rw [hjudge]
  rcases hv : e.judge (frame.payload.drop 3) with payload | code | _
  · have hq : Quiet e { e.countData with job := { e.countData.job with mlRemain := announced frame } } := .of_log rfl
    obtain ⟨r, rfl, hr, hl⟩ := Leaves.deliverData hd hq hd.periodic rfl (Frame.leadByte frame.data)
      (frame.payload.drop 3) payload
    exact ⟨_, _, _, .part (.opening (.data hf hm) hv) (by rw [hr, toNat_lessLength]), hl⟩
  · have hack := hw.acknowledge (Frame.leadByte frame.data)
    have hjob : (Engine.acknowledge { e.countData with job := { e.countData.job with mlRemain := announced frame } }
        (Frame.leadByte frame.data)).job = { e.job with mlRemain := announced frame } := job_acknowledge ..
    dsimp only
    generalize Engine.acknowledge _ _ = e₁ at hack hjob ⊢
    have hs₁ : e₁.single = none := hack.single.trans hd.periodic
    have ha₁ : e₁.job.asked = e.job.asked := by rw [hjob]; rfl
    have hq : Quiet e e₁ := .works (.refl e) hack
    refine ⟨[], 0, 0, hnothing (by rw [hv]; nofun) fun h => absurd rfl h, ?_⟩
    split
    · exact .of_quiet hd (hq.trans (.of_log rfl)) hs₁ ha₁ fun _ => ⟨rfl, rfl⟩
    · refine .refused hd ?_ ?_ ?_ _
      · exact hq.trans (.of_log rfl)
      · exact hs₁
      · exact ha₁
  · exact ⟨[], 0, 0, hnothing (by rw [hv]; nofun) fun h => absurd rfl h, .abortTransfer hd hw rfl⟩

/-- A frame on the channel brings a part of the response, or it leaves the response where it stands, or at its
beginning. -/
theorem channelStep_gets (hd : e.Draws) (hb : frame.bus = e.bus) (hc : e.isChannelFrame frame = true) :
    ∃ rs frames remain, e.Gets (.frame frame) rs frames remain ∧
      Leaves e (e.channelStep frame).2 rs frames remain := by
  have hnothing (hno : ¬ e.HasData frame) : e.Gets (.frame frame) [] e.job.mlFrame e.job.mlRemain := by
    refine .nothing (fun frame' payload left heq ht => ?_) fun _ => ⟨rfl, rfl⟩
    cases heq
    exact hno (ht.onChannel hc).1
  unfold channelStep
  dsimp only
  rw [hd.state_eq]
  dsimp only
  unfold receiveResponse
  by_cases hop : Frame.leadByte frame.data = Opcode.ping
  · rw [if_pos hop]
    refine ⟨_, _, _, hnothing fun hf => absurd hf.opcode_lt ?_, .sendPong hd⟩
    rw [hop]
    decide
  · rw [if_neg hop]
    by_cases hop : Frame.leadByte frame.data = Opcode.disconnect
    · rw [if_pos hop]
      refine ⟨_, _, _, hnothing fun hf => absurd hf.opcode_lt ?_, .peerClose hd⟩
      rw [hop]
      decide
    · rw [if_neg hop]
      by_cases hop : Frame.leadByte frame.data < 0x40
      · rw [if_pos hop]
        have hw : Works e e.countData := (Works.refl e).update ..
        unfold receiveData
        by_cases hseq : Frame.leadByte frame.data &&& 0x0f ≠ e.channel.rxSeq &&& 0x0f
        · rw [if_pos hseq]
          exact ⟨_, _, _, hnothing fun hf => hseq hf.number_eq, .abortTransfer hd hw rfl⟩
        · rw [if_neg hseq]
          have hf : e.HasData frame := ⟨hb, hc, hd.state_eq, hop, Decidable.not_not.1 hseq⟩
          by_cases hm : e.job.mlFrame ≠ 0
          · rw [if_pos hm]
            obtain ⟨r, hdata, hr, hl⟩ := Leaves.deliverData (d := e.countData) hd (.of_log rfl) hd.periodic rfl
              (Frame.leadByte frame.data) (frame.payload.drop 1) (frame.payload.drop 1)
            have hmore : e.GoesOn frame r.data := by
              rw [hdata]
              exact .data hf hm
            exact ⟨_, _, _, .part (.more hmore) (by rw [hr, toNat_lessLength, hdata]; rfl), hl⟩
          · rw [if_neg hm]
            exact receiveFirstData_gets hd hf (Decidable.not_not.1 hm)
      · rw [if_neg hop]
        exact ⟨_, _, _, hnothing fun hf => hop hf.opcode_lt, .refl hd⟩

theorem step_gets (hr : e.Reached) (hd : e.Draws) (op : Operation) :
    ∃ rs frames remain, e.Gets op rs frames remain ∧
      HandsOut e (e.step op) rs fun e' => e'.channel.state = .receive → DrawsAt frames remain e' := by
  have hnothing (hno : ∀ frame, op = .frame frame → ¬ e.HasData frame) (hb : Bides e (e.step op)) :
      ∃ rs frames remain, e.Gets op rs frames remain ∧
        HandsOut e (e.step op) rs fun e' => e'.channel.state = .receive → DrawsAt frames remain e' := by
    refine ⟨_, _, _, .nothing (fun frame payload left heq ht => ?_) fun _ => ⟨rfl, rfl⟩, (Leaves.refl hd).handsOut hb⟩
    exact hno frame heq (ht.hasData hd.isVwtp)
  cases op with
  | frame frame =>
    by_cases hb : frame.bus = e.bus
    · by_cases hc : e.isChannelFrame frame = true
      · obtain ⟨rs, frames, remain, hg, hl⟩ := channelStep_gets hd hb hc
        have hbound := hr.owned.bound (by rw [hd.state_eq]; nofun)
        refine ⟨rs, frames, remain, hg, ?_⟩
        rw [step_frame_channel hb hc hbound]
        exact hl.handsOut (.turns hl.single (turns_chained _ _).settle)
      · rw [Bool.not_eq_true] at hc
        refine hnothing (fun frame' heq hf => ?_) ?_
        · cases heq
          rw [hf.onChannel] at hc
          cases hc
        · have hother : e.receiveOther frame = e := by simp [receiveOther, hd.isVwtp]
          rw [step_frame_other hb hc, hother]
          exact (Bides.refl hd.periodic).settle
    · refine hnothing (fun frame' heq hf => ?_) ?_
      · cases heq
        exact hb hf.bus_eq
      · rw [show e.step (.frame frame) = e from if_pos hb]
        exact .refl hd.periodic
  | _ => exact hnothing nofun (.step hd.periodic nofun)

/-! ### In a run -/

/-- The replies are accounted for: with what was handed on before it, each of them and what it says is to come add up
to `body` bytes, if `handed` were handed on before the first. -/
def AccountedFor (body handed : Nat) (rs : List Reply) : Prop :=
  ∀ earlier r later, rs = earlier ++ r :: later →
    handed + payloadBytes earlier + r.data.length + r.remain.toNat = body

theorem accountedFor_nil : AccountedFor body handed [] := fun _ _ _ h => by simp at h

theorem accountedFor_cons (r : Reply) (rs : List Reply) : AccountedFor body handed (r :: rs) ↔
    handed + r.data.length + r.remain.toNat = body ∧ AccountedFor body (handed + r.data.length) rs := by
  constructor
  · intro h
    refine ⟨by simpa [payloadBytes] using h [] r rs rfl, fun earlier r' later heq => ?_⟩
    have := h (r :: earlier) r' later (by rw [heq]; rfl)
    rw [payloadBytes_cons] at this
    omega
  · rintro ⟨hfirst, hrest⟩ earlier r' later heq
    cases earlier with
    | nil =>
      cases heq
      simpa [payloadBytes] using hfirst
    | cons r₀ earlier =>
      obtain ⟨rfl, htail⟩ := List.cons.inj heq
      have := hrest earlier r' later htail
      rw [payloadBytes_cons]
      omega

theorem Drawing.tail (h : e.Drawing (op :: ops)) : (e.step op).Drawing ops := by
  intro before op' after heq
  obtain ⟨hstate, hb⟩ := h (op :: before) op' after (by rw [heq]; rfl)
  exact ⟨hstate, fun hsh => hb (.of_grows (Grows.step e op).log hsh)⟩

/-- The first operation of a run takes its part, and if there are more operations, the response goes on. -/
theorem Drawing.step (hl : e.Drawing (op :: ops)) (hr : e.Reached) (hd : e.Draws) :
    ∃ rs frames remain, e.Gets op rs frames remain ∧
      (∀ ops, repliesSince e (e.run (op :: ops)) = rs ++ repliesSince (e.step op) ((e.step op).run ops)) ∧
      (ops = [] ∨ DrawsAt frames remain (e.step op)) := by
  obtain ⟨rs, frames, remain, hg, ho⟩ := step_gets hr hd op
  refine ⟨rs, frames, remain, hg, ho.run_cons, ?_⟩
  cases ops with
  | nil => exact .inl rfl
  | cons op' ops =>
    obtain ⟨hstate, hb⟩ := hl [op] op' ops rfl
    exact .inr (ho.next.resolve_left hb hstate)

/-- The replies of a run are accounted for exactly if no frame of it spoils the sum. -/
theorem accountedFor_run_iff (hr : e.Reached) (hd : e.Draws) (hl : e.Drawing ops)
    (h : Tallies body handed e.job.mlFrame e.job.mlRemain) :
    AccountedFor body handed (repliesSince e (e.run ops)) ↔ ∀ before op after, ops = before ++ op :: after →
      ¬ (e.run before).Spoils body (handed + payloadBytes (repliesSince e (e.run before))) op := by
  induction ops generalizing e handed with
  | nil =>
    rw [show e.run [] = e from rfl, repliesSince_self]
    exact iff_of_true accountedFor_nil fun _ _ _ heq => by simp at heq
  | cons op ops ih =>
    obtain ⟨rs, frames, remain, hg, hcons, hrest⟩ := hl.step hr hd
    have hlater {handed' : Nat} (h' : Tallies body handed' frames remain) :
        AccountedFor body handed' (repliesSince (e.step op) ((e.step op).run ops)) ↔
          ∀ before op' after, ops = before ++ op' :: after → ¬ ((e.step op).run before).Spoils body
            (handed' + payloadBytes (repliesSince (e.step op) ((e.step op).run before))) op' := by
      rcases hrest with rfl | hat
      · rw [show (e.step op).run [] = e.step op from rfl, repliesSince_self]
        exact iff_of_true accountedFor_nil fun _ _ _ heq => by simp at heq
      · exact ih (hr.step op) hat.draws hl.tail (by rw [hat.frame_eq, hat.remain_eq]; exact h')
    have hsplit (before : List Operation) (op' : Operation) :
        ¬ (e.run (op :: before)).Spoils body (handed + payloadBytes (repliesSince e (e.run (op :: before)))) op' ↔
          ¬ ((e.step op).run before).Spoils body (handed + payloadBytes rs +
            payloadBytes (repliesSince (e.step op) ((e.step op).run before))) op' := by
      rw [hcons, payloadBytes_append, ← Nat.add_assoc]
      rfl
    have hfirst : ¬ (e.run []).Spoils body (handed + payloadBytes (repliesSince e (e.run []))) op ↔
        ¬ e.Spoils body handed op := by
      rw [show e.run [] = e from rfl, repliesSince_self]
      rfl
    rw [hcons ops, forall_splits_cons (p := fun before op' =>
      ¬ (e.run before).Spoils body (handed + payloadBytes (repliesSince e (e.run before))) op'), hfirst]
    simp only [hsplit]
    cases hg with
    | nothing hno hstay =>
      rw [and_iff_right (not_spoils_of_not_takes hno)]
      refine hlater fun h0 => ?_
      obtain ⟨hframe, hremain⟩ := hstay h0
      rw [← hremain]
      exact h (by rwa [hframe])
    | @part frame left r ht hleft =>
      rw [List.singleton_append, accountedFor_cons, hleft, ht.tallies_iff hd.isVwtp h]
      refine and_congr_right fun hspares => ?_
      have hsum := (ht.tallies_iff hd.isVwtp h).2 hspares
      rw [payloadBytes_singleton]
      exact hlater fun _ => by omega

/-- The replies of a response, which begins with the data frame `first`, are accounted for: what was handed on and what
is to come add up to the announced length without the header. This holds exactly if the first frame holds no more than
it announces and no later one spoils the sum. -/
theorem accounted_iff (hr : e.Reached) (hd : e.Draws) {first : Frame} (hf : e.HasData first) (hm : e.job.mlFrame = 0)
    {payload : List UInt8} (hj : e.judge (first.payload.drop 3) = .answer payload)
    (hlen : (responseHeader e.job.service e.job.pid).length ≤ (announced first).toNat)
    {rest : List Operation} (hl : e.Drawing (.frame first :: rest)) {body : Nat}
    (hbody : body = (announced first).toNat - (responseHeader e.job.service e.job.pid).length) :
    AccountedFor body 0 (repliesSince e (e.run (.frame first :: rest))) ↔
      (first.payload.drop 3).length ≤ (announced first).toNat ∧
      ∀ mid op after, rest = mid ++ op :: after →
        ¬ (e.run (.frame first :: mid)).Spoils body
          (payloadBytes (repliesSince e (e.run (.frame first :: mid)))) op := by
  have hfirst : ¬ e.Spoils body 0 (.frame first) ↔ (first.payload.drop 3).length ≤ (announced first).toNat := by
    have hsegment : (first.payload.drop 3).length =
        (responseHeader e.job.service e.job.pid).length + payload.length := by
      rw [← List.length_append, ← eq_of_judge_answer hj]
    rw [← Takes.tallies_iff (.opening (.data hf hm) hj) hd.isVwtp (fun h0 => absurd hm h0)]
    omega
  rw [accountedFor_run_iff hr hd hl fun h0 => absurd hm h0, forall_splits_cons (p := fun before op =>
    ¬ (e.run before).Spoils body (0 + payloadBytes (repliesSince e (e.run before))) op), ← hfirst]
  simp only [Nat.zero_add]
  refine and_congr_left fun _ => ?_
  rw [show e.run [] = e from rfl, repliesSince_self]
  rfl

/-- A response of ten bytes in two data frames, the second of which holds the five that are to come. -/
theorem accounted_iff_example :
    let bus : BusId := ⟨1, by decide⟩
    let read : PollEntry := ⟨0x200, 1, 0x22, 0xf190, [], #v[1, 1, 1, 1], 1, .vwtp20⟩
    let frame := fun bytes => EcuFrame.channel bus 0x300 bytes
    let e := (Engine.new bus "ecu" false ⟨0, 25, .strict, 0, 0⟩).run [.setList (some [read]) none, .tick true,
      .frame (EcuFrame.channel bus 0x201 [0x00, 0xd0, 0x00, 0x03, 0x40, 0x07, 0x01]),
      .frame (frame [0xa1, 0x0f, 0x8a, 0xff, 0x00, 0xff]), .frame (frame [0xb1])]
    let first := frame [0x20, 0x00, 0x0a, 0x62, 0xf1, 0x90, 1, 2]
    let last := frame [0x11, 3, 4, 5, 6, 7]
    (e.Draws ∧ e.HasData first ∧ e.job.mlFrame = 0 ∧ e.judge (first.payload.drop 3) = .answer [1, 2] ∧
        e.Drawing [.frame first, .frame last]) ∧
      AccountedFor 7 0 (repliesSince e (e.run [.frame first, .frame last])) := by
  intro bus read frame e first last
  have hd : e.Draws := ⟨by decide, by decide, by decide⟩
  have hf : e.HasData first := ⟨by decide, by decide, by decide, by decide, by decide⟩
  have hj : e.judge (first.payload.drop 3) = .answer [1, 2] := by decide
  have hl : e.Drawing [.frame first, .frame last] :=
    forall_splits_cons.2 ⟨⟨by decide, fun h => absurd h.exists_mem_take (by decide)⟩,
      forall_splits_cons.2 ⟨⟨by decide, fun h => absurd h.exists_mem_take (by decide)⟩, by simp⟩⟩
  refine ⟨⟨hd, hf, by decide, hj, hl⟩, ?_⟩
  refine (accounted_iff ⟨bus, "ecu", false, _, _, rfl⟩ hd hf (by decide) hj (by decide) hl (by decide)).2
    ⟨by decide, forall_splits_cons.2 ⟨fun hs => ?_, by simp⟩⟩
  cases hs with
  | surplus _ _ hlt => exact absurd hlt (by decide)
  | again _ hm => exact absurd hm (by decide)

/-- The same response, but the second data frame is filled up to eight bytes. Nine bytes are handed on, of seven. -/
theorem not_accounted_example :
    let bus : BusId := ⟨1, by decide⟩
    let read : PollEntry := ⟨0x200, 1, 0x22, 0xf190, [], #v[1, 1, 1, 1], 1, .vwtp20⟩
    let frame := fun bytes => EcuFrame.channel bus 0x300 bytes
    let e := (Engine.new bus "ecu" false ⟨0, 25, .strict, 0, 0⟩).run [.setList (some [read]) none, .tick true,
      .frame (EcuFrame.channel bus 0x201 [0x00, 0xd0, 0x00, 0x03, 0x40, 0x07, 0x01]),
      .frame (frame [0xa1, 0x0f, 0x8a, 0xff, 0x00, 0xff]), .frame (frame [0xb1])]
    let first := frame [0x20, 0x00, 0x0a, 0x62, 0xf1, 0x90, 1, 2]
    let last := frame [0x11, 3, 4, 5, 6, 7, 0x55, 0x55]
    (e.Draws ∧ e.HasData first ∧ e.job.mlFrame = 0 ∧ e.judge (first.payload.drop 3) = .answer [1, 2] ∧
        e.Drawing [.frame first, .frame last]) ∧
      ¬ AccountedFor 7 0 (repliesSince e (e.run [.frame first, .frame last])) := by
  intro bus read frame e first last
  have hl : e.Drawing [.frame first, .frame last] :=
    forall_splits_cons.2 ⟨⟨by decide, fun h => absurd h.exists_mem_take (by decide)⟩,
      forall_splits_cons.2 ⟨⟨by decide, fun h => absurd h.exists_mem_take (by decide)⟩, by simp⟩⟩
  refine ⟨⟨⟨by decide, by decide, by decide⟩, ⟨by decide, by decide, by decide, by decide, by decide⟩, by decide,
    by decide, hl⟩, fun h => ?_⟩
  have hparts : (repliesSince e (e.run [.frame first, .frame last])).map (fun r => (r.data.length, r.remain)) =
      [(2, 5), (7, 0)] := by decide
  obtain ⟨r₁, rest, hrs, hfirst, hrest⟩ := List.map_eq_cons_iff.1 hparts
  obtain ⟨r₂, _, rfl, hsecond, -⟩ := List.map_eq_cons_iff.1 hrest
  have hsum := h [r₁] r₂ _ hrs
  simp only [Prod.mk.injEq] at hfirst hsecond
  simp [payloadBytes, hfirst, hsecond] at hsum

end Engine

end EcuPoll
