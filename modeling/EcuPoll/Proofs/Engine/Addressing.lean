import EcuPoll.Proofs.Engine.Course
import EcuPoll.Proofs.Engine.Routes
import Mathlib.Tactic.Set

/-!
# Requests reach the module they are for

Every move of an engine keeps `Routes`, and the log `Addressed` as long as no stray answer comes in. A
stray answer makes the engine send the request of an ISO-TP poll over the channel, so that a log is
`Addressed` just when there was none: `addressed_iff`.
-/

namespace EcuPoll

/-- The request in the buffer is under way on a channel. -/
structure Outbound.UnderWay (entry : PollEntry) (o : Outbound) : Prop where
  carries : o.Carries entry
  onGrid : o.OnGrid entry
  started : o.frame ≠ 0

namespace Engine
variable {bus : BusId} {stray : Prop} {entry : PollEntry} {e e' : Engine}

/-- The log says which poll is in flight and which module the channel is for. -/
structure Tracks (bus : BusId) (stray : Prop) (e : Engine) : Prop where
  bus_eq : e.bus = bus
  entry_eq : lastEntry e.log = e.job.entry
  asks : ∀ entry, e.job.entry = some entry → e.job.Asks entry
  ids : e.channel.state.isLive = true → e.channel.bound = true ∧ e.job.entry.isSome = true ∧
    setupIds e.log = some (e.channel.baseId, e.channel.moduleId)
  log : ¬ stray → Addressed bus e.log

/-- The request of the poll in flight and the channel belong together. -/
structure Routes (bus : BusId) (stray : Prop) (e : Engine) : Prop extends Tracks bus stray e where
  module : ∀ entry, e.job.entry = some entry → entry.protocol = .vwtp20 →
    e.channel.state.isLive = true → e.channel.isFor entry.tx entry.rx = true
  underWay : ∀ entry, e.job.entry = some entry → entry.protocol = .vwtp20 →
    e.channel.state = .transmit → e.out.UnderWay entry
  isoTp : ∀ entry, e.job.entry = some entry → entry.protocol ≠ .vwtp20 →
    e.out.Carries entry ∧ e.job.Addresses entry

theorem isVwtp_iff (h : e.job.protocol = entry.protocol) :
    e.job.isVwtp = true ↔ entry.protocol = .vwtp20 := by
  rw [PollJob.isVwtp, h, beq_iff_eq]

theorem isFor_iff {c : Channel} {baseId moduleId : UInt32} : c.isFor baseId moduleId = true ↔
    c.bound = true ∧ c.baseId = baseId ∧ c.moduleId = moduleId := by
  simp [Channel.isFor, and_assoc]

namespace Tracks

theorem protocol_eq (h : Tracks bus stray e) (entry : PollEntry) (he : e.job.entry = some entry) :
    e.job.protocol = entry.protocol :=
  (h.asks entry he).protocol

theorem keeps (h : Tracks bus stray e) (hk : Keeps e e') : Tracks bus stray e' where
  bus_eq := hk.bus.trans h.bus_eq
  entry_eq := by
    obtain ⟨new, hnew, haside⟩ := hk.log
    rw [hnew, lastEntry_append haside, h.entry_eq, hk.entry]
  asks entry he := hk.asked.trans (h.asks entry (hk.entry ▸ he))
  ids hl := by
    rw [hk.bound hl, hk.baseId hl, hk.moduleId hl, hk.setupIds hl, hk.entry]
    exact h.ids (hk.live hl)
  log hs := by
    obtain ⟨new, hnew, haside⟩ := hk.log
    rw [hnew]
    exact (h.log hs).append (h.bus_eq ▸ haside)

theorem congr (h : Tracks bus stray e) (hb : e'.bus = e.bus) (ha : e'.job.asked = e.job.asked)
    (hs : e'.channel.state.isLive = true → e.channel.state.isLive = true)
    (hc : e'.channel.bound = e.channel.bound) (hi : e'.channel.baseId = e.channel.baseId)
    (hm : e'.channel.moduleId = e.channel.moduleId) (hl : e'.log = e.log) : Tracks bus stray e' := by
  have hj : e'.job.entry = e.job.entry := congrArg (·.1) ha
  refine ⟨hb.trans h.bus_eq, ?_, fun entry he => ?_, fun hlive => ?_, fun hstray => ?_⟩
  · rw [hl, hj]; exact h.entry_eq
  · exact ha.trans (h.asks entry (hj ▸ he))
  · rw [hl, hj, hc, hi, hm]; exact h.ids (hs hlive)
  · rw [hl]; exact h.log hstray

/-- If the poll in flight runs over the channel, only the channel matters. -/
theorem routes (h : Tracks bus stray e) (he : e.job.entry = some entry)
    (hv : entry.protocol = .vwtp20)
    (hc : e.channel.state.isLive = true → e.channel.isFor entry.tx entry.rx = true)
    (ht : e.channel.state ≠ .transmit) : Routes bus stray e where
  toTracks := h
  module entry' he' _ hl := by
    obtain rfl : entry' = entry := Option.some.inj (he'.symm.trans he)
    exact hc hl
  underWay _ _ _ ht' := absurd ht' ht
  isoTp entry' he' hv' := by
    obtain rfl : entry' = entry := Option.some.inj (he'.symm.trans he)
    exact absurd hv hv'

/-- A frame with request data is written; it speaks of no ids. -/
theorem transmit_request (h : Tracks bus stray e) {kind : FrameKind} (frame : Frame)
    (hk : kind = .opening ∨ kind = .consecutive ∨ ∃ number, kind = .data number)
    (hr : ¬ stray → Routed bus e.log frame kind) : Tracks bus stray (e.transmit kind frame) := by
  have hentry : lastEntry (e.transmit kind frame).log = lastEntry e.log := by
    rw [transmit_eq]
    rfl
  have hids : setupIds (e.transmit kind frame).log = setupIds e.log := by
    rw [transmit_eq]
    refine setupIds_append [_] ?_
    rw [List.forall_mem_singleton]
    obtain rfl | rfl | ⟨number, rfl⟩ := hk <;> rfl
  refine ⟨?_, ?_, ?_, ?_, fun hs => ?_⟩
  · rw [transmit_eq]; exact h.bus_eq
  · rw [hentry, transmit_eq]; exact h.entry_eq
  · rw [transmit_eq]; exact h.asks
  · rw [hids, transmit_eq]; exact h.ids
  · rw [transmit_eq]
    refine addressed_cons.2 ⟨fun kind' frame' accepted heq => ?_, h.log hs⟩
    cases heq
    exact hr hs

end Tracks

namespace Routes

theorem keeps (h : Routes bus stray e) (hk : Keeps e e') : Routes bus stray e' where
  toTracks := h.toTracks.keeps hk
  module entry he hv hl := by
    rw [hk.isFor hl]
    exact h.module entry (hk.entry ▸ he) hv (hk.live hl)
  underWay entry he hv ht := by
    have hu := h.underWay entry (hk.entry ▸ he) hv (hk.transmit ht)
    rcases hk.out with ho | ho <;> rw [ho]
    · exact hu
    · exact ⟨hu.carries.clear, .clear hu.started, hu.started⟩
  isoTp entry he hv := by
    have he : e.job.entry = some entry := hk.entry ▸ he
    have hiso : e.job.isVwtp = false := by
      rw [Bool.eq_false_iff]
      exact fun hv' => hv ((isVwtp_iff (h.protocol_eq entry he)).1 hv')
    obtain ⟨hc, hids⟩ := h.isoTp entry he hv
    refine ⟨?_, hids.keepsIds (hk.ids hiso)⟩
    rcases hk.out with ho | ho <;> rw [ho]
    · exact hc
    · exact hc.clear

end Routes

/-! ### Data frames -/

/-- The request of `entry` is being sent on the channel. -/
structure Sending (bus : BusId) (stray : Prop) (entry : PollEntry) (e : Engine) : Prop where
  tracks : Tracks bus stray e
  entry_eq : e.job.entry = some entry
  live : e.channel.state.isLive = true
  carries : e.out.Carries entry
  module : entry.protocol = .vwtp20 → e.channel.isFor entry.tx entry.rx = true
  onGrid : entry.protocol = .vwtp20 → e.out.OnGrid entry
  ids : entry.protocol ≠ .vwtp20 → e.job.Addresses entry

namespace Sending

/-- What a data frame carries is the piece of the message that has its number. -/
theorem routed (h : Sending bus stray entry e) (hv : entry.protocol = .vwtp20)
    (hmore : e.out.frame = 0 ∨ 0 < e.out.remaining) (opcode : UInt8) :
    Routed bus e.log (e.channelFrame (opcode :: e.dataLead entry.header ++
      e.out.chunk (7 - (e.dataLead entry.header).length))) (.data e.out.frame) := by
  have hlive := (h.tracks.ids h.live).2.2
  obtain ⟨-, hbase, hmodule⟩ := isFor_iff.1 (h.module hv)
  refine ⟨entry, h.tracks.entry_eq.trans h.entry_eq, hv, by rw [hlive, hbase, hmodule], ?_⟩
  have hlead : (e.dataLead entry.header).length ≤ 7 := by
    have := entry.length_header_le
    rw [length_dataLead]
    split <;> omega
  have hlen : (opcode :: e.dataLead entry.header ++
      e.out.chunk (7 - (e.dataLead entry.header).length)).length ≤ 8 := by
    rw [List.length_append, List.length_cons, Outbound.length_chunk h.carries.inBounds]
    omega
  rw [channelFrame, Frame.payload_cut _ _ _ _ hlen]
  exact dataLead_chunk h.carries (h.onGrid hv) hmore

theorem sendFrame (h : Sending bus stray entry e) (left : Nat)
    (hmore : e.out.frame = 0 ∨ 0 < e.out.remaining) (hv : entry.protocol = .vwtp20 ∨ stray) :
    Sending bus stray entry (e.sendFrame entry.header left) := by
  have hjob : (e.sendFrame entry.header left).job = e.job := by
    unfold Engine.sendFrame
    rw [transmit_eq]
  have hstate : (e.sendFrame entry.header left).channel.state = e.channel.state := by
    unfold Engine.sendFrame
    rw [transmit_eq]
  have hcarries : (e.sendFrame entry.header left).out.Carries entry := by
    unfold Engine.sendFrame
    rw [transmit_eq]
    exact (h.carries.advance _).countFrame
  refine ⟨?_, by rw [hjob]; exact h.entry_eq, by rw [hstate]; exact h.live, hcarries, fun hp => ?_,
    fun hp => (onGrid_sendFrame left h.carries (h.onGrid hp) hmore).2.1,
    by rw [hjob]; exact h.ids⟩
  · refine Tracks.transmit_request ?_ _ (.inr (.inr ⟨_, rfl⟩)) fun hs => ?_
    · exact h.tracks.congr rfl rfl id rfl rfl rfl rfl
    · exact h.routed (hv.resolve_right hs) hmore _
  · unfold Engine.sendFrame
    rw [transmit_eq]
    exact h.module hp

theorem sendFrames (h : Sending bus stray entry e) (left : Nat)
    (hmore : e.out.frame = 0 ∨ 0 < e.out.remaining) (hv : entry.protocol = .vwtp20 ∨ stray) :
    Sending bus stray entry (Engine.sendFrames entry.header left e) := by
  induction left generalizing e with
  | zero => exact h
  | succ left ih =>
    have hnext := h.sendFrame left hmore hv
    unfold Engine.sendFrames
    dsimp only
    split
    · exact hnext
    · exact ih hnext (.inr (by omega))

/-- A block has at least one frame, so that the request has been started after it. -/
theorem started (h : Sending bus stray entry e) (hp : entry.protocol = .vwtp20) {left : Nat}
    (hmore : e.out.frame = 0 ∨ 0 < e.out.remaining) (hleft : 0 < left) :
    (Engine.sendFrames entry.header left e).out.frame ≠ 0 := by
  induction left generalizing e with
  | zero => omega
  | succ left ih =>
    have hnext := h.sendFrame left hmore (.inl hp)
    have hfirst := (onGrid_sendFrame left h.carries (h.onGrid hp) hmore).2.2
    unfold Engine.sendFrames
    dsimp only
    split
    · exact hfirst
    · cases left with
      | zero => exact hfirst
      | succ left => exact ih hnext (.inr (by omega)) (by omega)

/-- A block leaves the channel waiting for its acknowledgement. -/
theorem awaitAck (h : Sending bus stray entry e)
    (hstarted : entry.protocol = .vwtp20 → e.out.frame ≠ 0) : Routes bus stray e.awaitAck := by
  have hx := (Keeps.refl e).expectOnChannel
  have hentry : e.expectOnChannel.job.entry = some entry := hx.entry.trans h.entry_eq
  refine ⟨(h.tracks.keeps hx).congr rfl rfl ?_ rfl rfl rfl rfl,
    fun entry' he' hp _ => ?_, fun entry' he' hp _ => ?_, fun entry' he' hp => ?_⟩
  · rw [channel_expectOnChannel]
    exact fun _ => h.live
  all_goals obtain rfl : entry' = entry := Option.some.inj (he'.symm.trans hentry)
  · show e.expectOnChannel.channel.isFor entry'.tx entry'.rx = true
    rw [channel_expectOnChannel]
    exact h.module hp
  · show e.expectOnChannel.out.UnderWay entry'
    rw [out_expectOnChannel]
    exact ⟨h.carries, h.onGrid hp, hstarted hp⟩
  · have hiso : e.job.isVwtp = false := by
      rw [Bool.eq_false_iff]
      exact fun hv' => hp ((isVwtp_iff (h.tracks.protocol_eq entry' h.entry_eq)).1 hv')
    refine ⟨?_, (h.ids hp).keepsIds (hx.ids hiso)⟩
    show e.expectOnChannel.out.Carries entry'
    rw [out_expectOnChannel]
    exact h.carries

theorem sendBlock (h : Sending bus stray entry e) (hmore : e.out.frame = 0 ∨ 0 < e.out.remaining)
    (hv : entry.protocol = .vwtp20 ∨ stray) : Routes bus stray e.sendBlock := by
  simp only [Engine.sendBlock, h.entry_eq]
  exact (h.sendFrames _ hmore hv).awaitAck fun hp => h.started hp hmore (by omega)

end Sending

namespace Tracks

/-- The first block of a request, whatever was in the buffer before. -/
theorem sendRequest (h : Tracks bus stray e) (he : e.job.entry = some entry)
    (hlive : e.channel.state.isLive = true)
    (hmodule : entry.protocol = .vwtp20 → e.channel.isFor entry.tx entry.rx = true)
    (hids : entry.protocol ≠ .vwtp20 → e.job.Addresses entry)
    (hv : entry.protocol = .vwtp20 ∨ stray) : Routes bus stray e.sendRequest := by
  simp only [Engine.sendRequest, he]
  refine @Sending.sendBlock _ _ entry _ ?_ (.inl rfl) hv
  exact ⟨h.congr rfl rfl id rfl rfl rfl rfl, he, hlive, .load entry 0, hmodule,
    fun _ => .load entry _, fun hp => (hids hp).keepsIds ⟨rfl, .inl rfl⟩⟩

/-- A channel that is set up belongs to the poll in flight. -/
theorem requestSetup (h : Tracks bus stray e) (he : e.job.entry = some entry)
    (hv : entry.protocol = .vwtp20)
    (hs : e.channel.state = .setup → e.channel.isFor entry.tx entry.rx = true) :
    Routes bus stray e.requestSetup := by
  have hvw : e.job.isVwtp = true := (isVwtp_iff (h.protocol_eq entry he)).2 hv
  by_cases hstate : e.channel.state = .setup
  · have heq : e.requestSetup = e := by simp [Engine.requestSetup, he, hstate]
    rw [heq]
    exact h.routes he hv (fun _ => hs hstate) (by rw [hstate]; decide)
  · set e₁ := { e with channel := e.channel.request entry.tx entry.rx }.expectOnChannel
    have hreq : e.requestSetup = { e₁ with
        wait := 2
        channel := { e₁.channel with state := .setup }.touch e₁.now }.transmit
          (.setup entry.tx entry.rx)
          (e₁.channelFrame (Channel.setupRequest entry.tx entry.rx)) := by
      simp [Engine.requestSetup, he, hstate, hvw, e₁]
    have hc : e₁.channel = e.channel.request entry.tx entry.rx := channel_expectOnChannel _
    have hx : Keeps { e with channel := e.channel.request entry.tx entry.rx } e₁ :=
      (Keeps.refl _).expectOnChannel
    have hlog : e₁.log = e.log := log_expectOnChannel _
    have hentry : e₁.job.entry = some entry := hx.entry.trans he
    rw [hreq, transmit_eq]
    refine Tracks.routes ⟨hx.bus.trans h.bus_eq, ?_, fun entry' he' => ?_, fun _ => ?_, fun hs => ?_⟩
      hentry hv (fun _ => ?_) (by simp [Channel.touch])
    · exact (congrArg lastEntry hlog).trans (h.entry_eq.trans (he.trans hentry.symm))
    · exact hx.asked.trans (h.asks entry' (hx.entry.symm.trans he'))
    · refine ⟨congrArg Channel.bound hc, Option.isSome_of_eq_some hentry, ?_⟩
      show some (entry.tx, entry.rx) = some (e₁.channel.baseId, e₁.channel.moduleId)
      rw [hc]
      rfl
    · refine addressed_cons.2 ⟨fun kind frame accepted heq => ?_, by rw [hlog]; exact h.log hs⟩
      cases heq
      show e₁.channelFrame _ = _
      rw [channelFrame, hx.bus, hc]
      exact congrArg (Frame.cut · _ _ _) h.bus_eq
    · show e₁.channel.isFor entry.tx entry.rx = true
      rw [hc, isFor_iff]
      exact ⟨rfl, rfl, rfl⟩

theorem startVwtp (h : Tracks bus stray e) (he : e.job.entry = some entry)
    (hv : entry.protocol = .vwtp20) : Routes bus stray e.startVwtp := by
  have hk := (Keeps.refl e).touchChannel
  have ht : Tracks bus stray e.touchChannel := h.keeps hk
  have hst := startVwtp_start e he
  generalize e.startVwtp = e' at hst ⊢
  cases hst with
  | again hc hs => exact ht.requestSetup he hv fun _ => hc
  | request hc hs =>
    have hlive : e.touchChannel.channel.state.isLive = true := by
      cases hstate : e.touchChannel.channel.state <;> simp_all [ChannelState.isHalfOpen, ChannelState.isLive]
    have hi := (Keeps.refl e.touchChannel).interrupt
    have hl := isLive_interrupt hlive
    refine (ht.keeps hi).sendRequest (hi.entry.trans he) hl (fun _ => ?_) (absurd hv) (.inl hv)
    rw [hi.isFor hl]
    exact hc
  | close hc hs =>
    have hclose := (Keeps.refl e.touchChannel).requestClose
    have hstate := state_requestClose e.touchChannel
    exact (ht.keeps hclose).routes (hclose.entry.trans he) hv (by rw [hstate]; exact fun hl => by cases hl)
      (by rw [hstate]; decide)
  | setup hs => exact ht.requestSetup he hv (by rw [hs]; exact fun hs' => by cases hs')
  | nothing hs =>
    have hd := Delivers.deliverFailure e.touchChannel .channelClosed
    refine (ht.keeps ((Keeps.refl _).delivers hd)).routes (by rw [hd.job]; exact he) hv ?_ ?_
    · rw [hd.channel, hs]; exact fun hl => by cases hl
    · rw [hd.channel, hs]; decide

/-- The first frame of an ISO-TP request loads the buffer and sets the request id. -/
theorem startIsoTp (h : Tracks bus stray e) (he : e.job.entry = some entry)
    (hv : entry.protocol ≠ .vwtp20) : Routes bus stray e.startIsoTp := by
  rw [startIsoTp_eq entry he (h.protocol_eq entry he)]
  refine ⟨Tracks.transmit_request ?_ _ (.inl rfl) fun _ => ?_, ?_, ?_, ?_⟩
  · exact h.congr rfl rfl id rfl rfl rfl rfl
  · exact ⟨entry, h.entry_eq.trans he, hv, by rw [h.bus_eq]⟩
  all_goals
    rw [transmit_eq]
    intro entry' he' hp
    obtain rfl : entry' = entry := Option.some.inj (he'.symm.trans he)
  · exact absurd hp hv
  · exact absurd hp hv
  · exact ⟨.load entry' _, rfl, .inl rfl⟩

/-- The entry becomes the poll in flight; the channel is left as it is. -/
theorem assign (h : Tracks bus stray e) (entry : PollEntry) : Tracks bus stray (e.assign entry) := by
  refine ⟨h.bus_eq, rfl, fun entry' he' => ?_, fun hl => ⟨(h.ids hl).1, rfl, ?_⟩, fun hs => ?_⟩
  · obtain rfl := Option.some.inj he'
    rfl
  · exact (setupIds_append [_] (by simp [Event.setup?])).trans (h.ids hl).2.2
  · exact addressed_cons.2 ⟨nofun, h.log hs⟩

theorem dispatch (h : Tracks bus stray e) (entry : PollEntry) : Routes bus stray (e.dispatch entry) := by
  have ha := h.assign entry
  by_cases hv : entry.protocol = .vwtp20
  · rw [dispatch_vwtp hv]
    exact ha.startVwtp rfl hv
  · rw [dispatch_isoTp hv]
    exact ha.startIsoTp rfl hv

end Tracks

/-! ### Consecutive frames -/

namespace Routes

theorem sendConsecutive (h : Routes bus stray e) (he : e.job.entry = some entry)
    (hv : entry.protocol ≠ .vwtp20) {target : UInt32}
    (ht : entry.IsOneToOne → target = entry.tx) : Routes bus stray (e.sendConsecutive target) := by
  obtain ⟨hc, hids⟩ := h.isoTp entry he hv
  have hprot := h.protocol_eq entry he
  refine ⟨Tracks.transmit_request ?_ _ (.inr (.inl rfl)) fun _ => ?_, ?_, ?_, ?_⟩
  · exact h.toTracks.congr rfl rfl id rfl rfl rfl rfl
  · refine ⟨entry, h.entry_eq.trans he, hv, target, e.out.frame + 1,
      entry.header.length + e.out.offset, ht, ?_⟩
    show e.job.protocol.isoTpFrame e.bus target (_ ++ e.out.chunk (e.job.protocol.isoTpRoom - 1)) = _
    rw [hc.chunk, hprot, h.bus_eq]
  all_goals
    unfold Engine.sendConsecutive
    rw [transmit_eq]
    intro entry' he' hp
    obtain rfl : entry' = entry := Option.some.inj (he'.symm.trans he)
  · exact absurd hp hv
  · exact absurd hp hv
  · exact ⟨(hc.advance _).countFrame, hids⟩

theorem burst (h : Routes bus stray e) (he : e.job.entry = some entry)
    (hv : entry.protocol ≠ .vwtp20) {target : UInt32} (ht : entry.IsOneToOne → target = entry.tx)
    (delay count : Nat) : Routes bus stray (Engine.burst target delay count e) := by
  induction count generalizing e with
  | zero => exact h
  | succ count ih =>
    have hnext := h.sendConsecutive he hv ht
    have hentry : (e.sendConsecutive target).job.entry = some entry := by
      unfold Engine.sendConsecutive
      rw [transmit_eq]
      exact he
    unfold Engine.burst
    split
    · exact h
    · dsimp only
      split
      · exact hnext
      · exact ih (hnext.keeps (.of_eq rfl rfl rfl rfl rfl rfl rfl)) hentry

theorem isoTpFlow (h : Routes bus stray e) (hj : e.job.isVwtp = false)
    (he : e.job.entry.isSome = true) (id : UInt32) (command blockSize septime : UInt8) :
    Routes bus stray (e.isoTpFlow id command blockSize septime) := by
  obtain ⟨entry, he⟩ := Option.isSome_iff_exists.1 he
  have hv : entry.protocol ≠ .vwtp20 := fun hv => by
    rw [(isVwtp_iff (h.protocol_eq entry he)).2 hv] at hj
    cases hj
  have ht : entry.IsOneToOne → e.isoTpTarget id = entry.tx := by
    rintro ⟨hrx, htx⟩
    have hsent : e.job.sent = entry.tx := by
      rw [(h.isoTp entry he hv).2.sent, PollEntry.target, if_pos hrx]
    have hone : e.job.isBroadcast = false := by
      rw [PollJob.isBroadcast, hsent, beq_eq_false_iff_ne]
      exact htx
    rw [isoTpTarget, hone, hsent]
    rfl
  have hb := h.burst he hv ht (separationDelay septime) (e.allowedFrames blockSize)
  unfold Engine.isoTpFlow
  split
  · exact h
  · split
    · exact h
    · exact h.keeps (.of_eq rfl rfl rfl rfl rfl rfl rfl)
    · exact h.keeps (Keeps.refl e).clear
    · dsimp only
      split
      · exact hb.keeps (.of_eq rfl rfl rfl rfl rfl rfl rfl)
      · exact hb

/-! ### Moves -/

theorem startVwtp (h : Routes bus stray e) (hj : e.job.isVwtp = true) :
    Routes bus stray e.startVwtp := by
  rcases he : e.job.entry with _ | entry
  · simp only [Engine.startVwtp, he]
    exact h
  · exact h.toTracks.startVwtp he ((isVwtp_iff (h.protocol_eq entry he)).1 hj)

theorem requestSetup (h : Routes bus stray e) (hs : e.channel.state = .closed)
    (hj : e.job.isVwtp = true) : Routes bus stray e.requestSetup := by
  rcases he : e.job.entry with _ | entry
  · simp only [Engine.requestSetup, he]
    exact h
  · refine h.toTracks.requestSetup he ((isVwtp_iff (h.protocol_eq entry he)).1 hj) ?_
    rw [hs]
    nofun

/-- The poll in flight may send its request over the channel, or a stray answer has made it. -/
theorem vwtp20_or_stray (h : Routes bus stray e) (he : e.job.entry = some entry)
    (hj : e.job.isVwtp = true ∨ stray) : entry.protocol = .vwtp20 ∨ stray :=
  hj.imp (isVwtp_iff (h.protocol_eq entry he)).1 id

theorem sendRequest (h : Routes bus stray e) (hl : e.channel.state.isLive = true)
    (hj : e.job.isVwtp = true ∨ stray) : Routes bus stray e.sendRequest := by
  rcases he : e.job.entry with _ | entry
  · simp only [Engine.sendRequest, he]
    exact h
  · exact h.toTracks.sendRequest he hl (fun hv => h.module entry he hv hl)
      (fun hv => (h.isoTp entry he hv).2) (h.vwtp20_or_stray he hj)

theorem sendBlock (h : Routes bus stray e) (hs : e.channel.state = .transmit)
    (ho : 0 < e.out.remaining) (hj : e.job.isVwtp = true ∨ stray) : Routes bus stray e.sendBlock := by
  have hl : e.channel.state.isLive = true := by rw [hs]; rfl
  rcases he : e.job.entry with _ | entry
  · simp only [Engine.sendBlock, he]
    exact h
  · refine Sending.sendBlock ⟨h.toTracks, he, hl, ?_, fun hv => h.module entry he hv hl,
      fun hv => (h.underWay entry he hv hs).onGrid, fun hv => (h.isoTp entry he hv).2⟩ (.inr ho)
      (h.vwtp20_or_stray he hj)
    by_cases hv : entry.protocol = .vwtp20
    · exact (h.underWay entry he hv hs).carries
    · exact (h.isoTp entry he hv).1

theorem startSingle (h : Routes bus stray e) (request : SingleRequest) :
    Routes bus stray (e.startSingle request) := by
  have hc : Keeps e { e with
      schedule := e.schedule.setList (some [request.entry]) (some e.bus)
      single := some ⟨request, [], e.schedule.snapshot⟩
      wait := 0
      job := e.job.resetMultiframe } := .of_eq rfl rfl rfl rfl rfl rfl rfl
  have hk : Keeps e (e.capture request).advance :=
    (hc.report (show (Event.singleStarted request.ticket).IsReport from trivial)).trans
      (.of_eq rfl rfl rfl rfl rfl rfl rfl)
  unfold Engine.startSingle
  split
  · exact h.keeps ((Keeps.refl e).report trivial)
  · dsimp only
    split
    · exact (h.toTracks.keeps hk).dispatch _
    · exact h.keeps (hk.delivers (.finishSingle ..))

theorem startPass (h : Routes bus stray e) : Routes bus stray e.startPass := by
  have hk : Keeps e { e with schedule := e.schedule.startNextPass } := .of_eq rfl rfl rfl rfl rfl rfl rfl
  unfold Engine.startPass
  dsimp only
  split
  · exact h.keeps (hk.report trivial)
  · exact h.keeps hk

theorem pollList (h : Routes bus stray e) : Routes bus stray e.pollList := by
  have hk : Keeps e e.advance := .of_eq rfl rfl rfl rfl rfl rfl rfl
  unfold Engine.pollList
  split
  · exact (h.toTracks.keeps hk).dispatch _
  · split
    · exact h.keeps hk
    · exact h.keeps (hk.report trivial)
  · exact h.keeps hk

theorem turn (h : Routes bus stray e) (ht : Turn e e') : Routes bus stray e' := by
  have hr := Keeps.refl e
  cases ht with
  | shut => exact h.keeps hr.shutChannel
  | reopen hs hj => exact h.startVwtp (by simp_all [isOnChannel])
  | close => exact h.keeps hr.requestClose
  | expire => exact h.keeps (hr.delivers (.expireSingle e))
  | @single request queued hs hq =>
    have hq : Keeps e { e with queued } := .of_eq rfl rfl rfl rfl rfl rfl rfl
    exact (h.keeps hq).startSingle request
  | pass => exact h.startPass
  | poll => exact h.pollList
  | fail => exact h.keeps hr.failTransmission
  | sent success => exact h.keeps (hr.reportSent success)
  | count | grace | release | arm | take => exact h.keeps (.of_eq rfl rfl rfl rfl rfl rfl rfl)

theorem move {stray' : Prop} (h : Routes bus stray e) (hm : Move stray' e e') (hs : stray' → stray) :
    Routes bus stray e' := by
  have hr := Keeps.refl e
  cases hm with
  | turn ht => exact h.turn ht
  | begin => exact h.keeps (hr.report trivial)
  | refuse => exact h.keeps hr.refuseQueued
  | unavailable => exact h.keeps (hr.delivers (.finishSingle ..))
  | reject => exact h.keeps hr.rejectResponse
  | reply data => exact h.keeps (hr.delivers (.deliverReply ..))
  | failure failure => exact h.keeps (hr.delivers (.deliverFailure ..))
  | allow hj id => exact h.keeps (hr.sendFlowControl id)
  | flow hj he hi => exact h.isoTpFlow hj he ..
  | lose => exact h.keeps hr.loseChannel
  | shut => exact h.keeps hr.shutChannel
  | close => exact h.keeps hr.requestClose
  | assignIds ht rxId txId => exact h.keeps (hr.channel e.wait _ id id rfl rfl rfl)
  | params ht => exact h.keeps (hr.requestParams (by rw [ht]; rfl))
  | agree ht => exact h.keeps (hr.channel e.wait _ id id rfl rfl rfl)
  | request ht hj => exact h.sendRequest (by rw [ht]; rfl) (hj.imp id hs)
  | setup ht hj => exact h.requestSetup ht (by simp_all [isOnChannel])
  | block ht ho hj => exact h.sendBlock ht ho (hj.imp id hs)
  | await ht => exact h.keeps (hr.awaitResponse (by rw [ht]; rfl))
  | drop => exact h.keeps hr.clear
  | receive => exact h.keeps hr.countData
  | abort ht => exact h.keeps (hr.abortTransfer (by rw [ht]; rfl))
  | idle ht => exact h.keeps (hr.goIdle (by rcases ht with ht | ht <;> rw [ht] <;> rfl))
  | ack => exact h.keeps hr.sendAck
  | pong => exact h.keeps hr.sendPong
  | refuseData => exact h.keeps hr.refuseData
  | elapse | adjust | throttle | disarm | halt | progress =>
    exact h.keeps (.of_eq rfl rfl rfl rfl rfl rfl rfl)

theorem moves {stray' : Prop} (h : Routes bus stray e) (hm : Moves stray' e e')
    (hs : stray' → stray) : Routes bus stray e' := by
  induction hm with
  | refl => exact h
  | tail _ hm ih => exact ih.move hm hs

/-- With a stray answer less is known. -/
theorem mono {stray' : Prop} (h : Routes bus stray e) (hs : stray → stray') : Routes bus stray' e :=
  { h with log := fun hn => h.log fun hstray => hn (hs hstray) }

end Routes

/-! ### Stray answers -/

/-- A stray answer comes in during the run. -/
def Strayed (e : Engine) (ops : List Operation) : Prop :=
  ∃ before frame after, ops = before ++ .frame frame :: after ∧ (e.run before).StrayAnswer frame

theorem strayed_cons {op : Operation} {ops : List Operation} :
    e.Strayed (op :: ops) ↔ e.Strays op ∨ (e.step op).Strayed ops := by
  constructor
  · rintro ⟨before, frame, after, hops, hstray⟩
    cases before with
    | nil =>
      obtain ⟨rfl, -⟩ := List.cons.inj hops
      exact .inl hstray
    | cons op' before =>
      obtain ⟨rfl, rfl⟩ := List.cons.inj hops
      exact .inr ⟨before, frame, after, rfl, hstray⟩
  · rintro (hstray | ⟨before, frame, after, rfl, hstray⟩)
    · cases op with
      | frame frame => exact ⟨[], frame, ops, rfl, hstray⟩
      | _ => exact hstray.elim
    · exact ⟨op :: before, frame, after, rfl, hstray⟩

/-- A block begins with a data frame, whatever poll is in flight. -/
theorem exists_data_sendBlock (he : e.job.entry = some entry) :
    ∃ time frame accepted,
      ⟨time, .wrote (.data e.out.frame) frame accepted⟩ :: e.log <:+ e.sendBlock.log := by
  obtain ⟨left, hleft⟩ : ∃ left, max 1 e.channel.blockSize.toNat = left + 1 :=
    ⟨max 1 e.channel.blockSize.toNat - 1, by omega⟩
  have hx (e : Engine) : e.awaitAck.log = e.log := log_expectOnChannel e
  have hfirst : ∃ time frame accepted, (e.sendFrame entry.header left).log =
      ⟨time, .wrote (.data e.out.frame) frame accepted⟩ :: e.log := by
    unfold sendFrame
    rw [transmit_eq]
    exact ⟨_, _, _, rfl⟩
  obtain ⟨time, frame, accepted, hfirst⟩ := hfirst
  refine ⟨time, frame, accepted, ?_⟩
  simp only [sendBlock, he]
  rw [hx, hleft, sendFrames, ← hfirst]
  split
  · exact List.suffix_refl _
  · obtain ⟨new, hnew, -⟩ := ((Works.refl _).sendFrames entry.header left).log
    exact ⟨new, hnew.symm⟩

/-- After a stray answer the request of an ISO-TP poll is in a data frame. -/
theorem Routes.not_addressed (h : Routes bus stray e) {frame : Frame} (hs : e.StrayAnswer frame) :
    ¬ Addressed bus (e.step (.frame frame)).log := by
  obtain ⟨hb, hc, hj, hstate⟩ := hs
  have hl : e.channel.state.isLive = true := by
    rcases hstate with ⟨hs, -⟩ | ⟨hs, -⟩ <;> rw [hs] <;> rfl
  obtain ⟨hbound, hsome, -⟩ := h.ids hl
  obtain ⟨entry, he⟩ := Option.isSome_iff_exists.1 hsome
  -- the answer makes the engine send a block
  have hblock : ∃ e' : Engine, e'.job.entry = some entry ∧ lastEntry e'.log = some entry ∧
      e.channelStep frame = (.chain, e'.sendBlock) := by
    rcases hstate with ⟨hs, hd, ha⟩ | ⟨hs, hd, ha, ho⟩
    · have hlen : min frame.dlc 8 ≠ 0 := by omega
      simp only [channelStep, hs, receiveParams, if_neg hlen, ha, if_true, Engine.sendRequest, he]
      refine ⟨_, ?_, ?_, rfl⟩
      · exact he
      · exact h.entry_eq.trans he
    · have hlen : min frame.dlc 8 = 1 := by omega
      simp only [channelStep, hs, hlen, if_true, receiveAck, ha, if_pos ho]
      exact ⟨e, he, h.entry_eq.trans he, rfl⟩
  obtain ⟨e', he', hlast, hstep⟩ := hblock
  have hreceive : e.receiveVwtp frame = e'.sendBlock := by
    simp only [receiveVwtp, hbound, Bool.not_true, Bool.false_eq_true, if_false, hstep]
    rw [if_neg (by rw [wait_sendBlock he']; decide)]
  have hfinal : e.step (.frame frame) = e'.sendBlock.settle := by
    show e.handleFrame frame = _
    simp only [handleFrame, hb, hc, hreceive, ne_eq, not_true_eq_false, if_false, if_true]
  obtain ⟨time, data, accepted, hdata⟩ := exists_data_sendBlock he'
  have hgrows := (Grows.moves (@Moves.refl stray e'.sendBlock).settle).log
  rw [hfinal]
  intro haddr
  obtain ⟨entry', hentry', hv, -⟩ := haddr _ _ _ _ _ (hdata.trans hgrows)
  obtain rfl : entry' = entry := Option.some.inj (hentry'.symm.trans hlast)
  rw [(isVwtp_iff (h.protocol_eq entry' he)).2 hv] at hj
  cases hj

/-! ### Every run -/

theorem Routes.step (h : Routes bus stray e) (op : Operation) :
    Routes bus (stray ∨ e.Strays op) (e.step op) := by
  have h := h.mono (Or.inl (b := e.Strays op))
  cases op with
  | setList list defaultBus =>
    refine h.keeps ?_
    show Keeps e (e.setList list defaultBus)
    unfold setList
    split <;> exact .of_eq rfl rfl rfl rfl rfl rfl rfl
  | setState state =>
    refine h.keeps ?_
    show Keeps e (e.setState state)
    unfold setState
    dsimp only
    split <;> exact .of_eq rfl rfl rfl rfl rfl rfl rfl
  | submit request =>
    have hq : Keeps e { e with queued := e.queued ++ [request] } := .of_eq rfl rfl rfl rfl rfl rfl rfl
    exact (h.keeps hq).moves (submit_moves e request) id
  | _ => exact h.moves (step_moves e (by simp) (by simp) (by simp)) .inr

theorem Routes.run (h : Routes bus stray e) (ops : List Operation) :
    Routes bus (stray ∨ e.Strayed ops) (e.run ops) := by
  induction ops generalizing e stray with
  | nil => exact h.mono .inl
  | cons op ops ih =>
    refine (ih (h.step op)).mono ?_
    rw [strayed_cons, or_assoc]
    exact id

theorem Routes.not_addressed_run (h : Routes bus stray e) {ops : List Operation}
    (hs : e.Strayed ops) : ¬ Addressed bus (e.run ops).log := by
  obtain ⟨before, frame, after, rfl, hstray⟩ := hs
  intro haddr
  refine (h.run before).not_addressed hstray (haddr.suffix ?_)
  rw [run_append]
  exact (Grows.run _ after).log

theorem routes_new (bus : BusId) (name : String) (reports : Bool) (settings : EngineSettings) :
    Routes bus False (Engine.new bus name reports settings) where
  bus_eq := rfl
  entry_eq := rfl
  asks := nofun
  ids := nofun
  log _ := fun _ _ _ _ _ hb => nomatch List.suffix_nil.1 hb
  module := nofun
  underWay := nofun
  isoTp := nofun

/-- In every run without a stray answer all request data goes to the module it is meant for; a stray
answer always sends the request of an ISO-TP poll over the channel. -/
theorem addressed_iff_not_strayed (bus : BusId) (name : String) (reports : Bool)
    (settings : EngineSettings) (ops : List Operation) :
    Addressed bus ((Engine.new bus name reports settings).run ops).log ↔
      ¬ (Engine.new bus name reports settings).Strayed ops := by
  have h := routes_new bus name reports settings
  constructor
  · intro haddr hs
    exact h.not_addressed_run hs haddr
  · intro hno
    exact (h.run ops).log fun hs => hs.elim id hno

/-- A channel is being opened when the list is replaced and an ISO-TP request is dispatched; then the
module of the channel answers. -/
theorem not_addressed_example :
    let bus : BusId := ⟨1, by decide⟩
    let read : PollEntry := ⟨0x200, 1, 0x22, 0xf190, [], #v[1, 1, 1, 1], 1, .vwtp20⟩
    let write : PollEntry :=
      ⟨0x7e0, 0x7e8, 0x2e, 0x1234, [0xaa, 0xbb, 0xcc, 0xdd, 0xee, 0xff], #v[1, 1, 1, 1], 1, .isoTp⟩
    let answer := EcuFrame.channel bus 0x300 [0xa1, 0x0f, 0x8a, 0xff, 0x0a, 0xff]
    let before : List Operation := [.setList (some [read]) none, .tick true,
      .frame (EcuFrame.channel bus 0x201 [0x00, 0xd0, 0x00, 0x03, 0x40, 0x07, 0x01]),
      .setList (some [write]) none, .tick false]
    ¬ Addressed bus
      ((Engine.new bus "ecu" false ⟨0, 25, .strict, 0, 0⟩).run (before ++ [.frame answer])).log := by
  intro bus read write answer before
  have hstray : ((Engine.new bus "ecu" false ⟨0, 25, .strict, 0, 0⟩).run before).StrayAnswer answer := by
    decide
  exact (routes_new ..).not_addressed_run ⟨before, answer, [], rfl, hstray⟩

end Engine

end EcuPoll
