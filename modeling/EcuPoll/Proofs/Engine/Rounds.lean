import EcuPoll.Proofs.Engine.Ownership
import EcuPoll.Proofs.Engine.Routes
import Mathlib.Tactic.Set

/-!
# How often a request is sent

Since its dispatch an entry has opened at most one request over ISO-TP, and started at most one over the
channel for each time that the channel was asked for: `requested_once`. A poll whose channel is closed
while it is still in flight asks for it anew and sends its request again; `renewals` counts that.

`Rounds` is the invariant behind this. A round begins with a dispatch or a request for a channel. While
the channel is being opened, and as long as the buffer counts no frame, the message of this round has not
been started.
-/

namespace EcuPoll

/-! ### What a log says -/

namespace Event

def isDispatch : Event → Bool
  | .dispatched _ _ _ => true
  | _ => false

/-- The single or first frame of an ISO-TP request. -/
def isOpening : Event → Bool
  | .wrote .opening _ _ => true
  | _ => false

/-- The data frame that starts a message. -/
def isStart : Event → Bool
  | .wrote (.data number) _ _ => number == 0
  | _ => false

/-- The channel is asked for. -/
def isSetup : Event → Bool
  | .wrote (.setup _ _) _ _ => true
  | _ => false

/-- Neither the beginning of a round nor the beginning of a request. -/
def isMute (event : Event) : Bool :=
  !event.isDispatch && !event.isSetup && !event.isOpening && !event.isStart

theorem IsAside.isMute {bus : BusId} {event : Event} (h : event.IsAside bus) : event.isMute = true := by
  cases event with
  | wrote kind frame accepted =>
    have hk := h.1
    cases kind <;> first | rfl | cases hk
  | dispatched => exact h.elim
  | _ => rfl

end Event

/-- The events since the last dispatch, newest first like the log. -/
def sinceDispatch (log : List Stamped) : List Stamped :=
  log.takeWhile (!·.event.isDispatch)

/-- The events since the last dispatch or request for a channel. -/
def thisRound (log : List Stamped) : List Stamped :=
  log.takeWhile fun s => !s.event.isDispatch && !s.event.isSetup

/-- How often the channel was asked for after a message had been started. -/
def renewals : List Stamped → Nat
  | [] => 0
  | s :: log => renewals log + if s.event.isSetup && log.any (·.event.isStart) then 1 else 0

/-- No request has been opened since the last dispatch. -/
def Unopened (log : List Stamped) : Prop :=
  ∀ s ∈ sinceDispatch log, s.event.isOpening = false

/-- No message has been started in this round. -/
def Unstarted (log : List Stamped) : Prop :=
  ∀ s ∈ thisRound log, s.event.isStart = false

/-- No request was opened twice after one dispatch, and no message started twice in one round. -/
def Once (log : List Stamped) : Prop :=
  ∀ s before, s :: before <:+ log →
    (s.event.isOpening = true → Unopened before) ∧ (s.event.isStart = true → Unstarted before)

variable {log new : List Stamped} {s : Stamped}

theorem once_cons : Once (s :: log) ↔
    (s.event.isOpening = true → Unopened log) ∧ (s.event.isStart = true → Unstarted log) ∧ Once log := by
  constructor
  · intro h
    obtain ⟨ho, hs⟩ := h s log (List.suffix_refl _)
    exact ⟨ho, hs, fun s' before hb => h s' before (hb.trans (List.suffix_cons ..))⟩
  · rintro ⟨ho, hs, h⟩ s' before hb
    rcases List.suffix_cons_iff.1 hb with heq | hb
    · obtain ⟨rfl, rfl⟩ := List.cons.inj heq
      exact ⟨ho, hs⟩
    · exact h s' before hb

theorem Once.append (h : Once log) (hnew : ∀ s ∈ new, s.event.isMute = true) : Once (new ++ log) := by
  induction new with
  | nil => exact h
  | cons s new ih =>
    rw [List.forall_mem_cons] at hnew
    refine once_cons.2 ⟨fun ho => ?_, fun hs => ?_, ih hnew.2⟩ <;> simp_all [Event.isMute]

theorem Unstarted.cons (h : Unstarted log) (hs : s.event.isStart = false) : Unstarted (s :: log) := by
  rw [Unstarted, thisRound, List.takeWhile_cons]
  split
  · exact List.forall_mem_cons.2 ⟨hs, h⟩
  · exact List.forall_mem_nil _

theorem Unstarted.append (h : Unstarted log) (hnew : ∀ s ∈ new, s.event.isMute = true) :
    Unstarted (new ++ log) := by
  induction new with
  | nil => exact h
  | cons s new ih =>
    rw [List.forall_mem_cons] at hnew
    exact (ih hnew.2).cons (by simp_all [Event.isMute])

theorem Unstarted.of_begins (hs : s.event.isDispatch = true ∨ s.event.isSetup = true) :
    Unstarted (s :: log) := by
  have hround : thisRound (s :: log) = [] := by
    rcases hs with hs | hs <;> simp [thisRound, hs]
  rw [Unstarted, hround]
  exact List.forall_mem_nil _

/-- If no two elements with `q` stand together in a stretch of `p`, the first stretch holds at most one. -/
theorem countP_takeWhile_le {α : Type} {p q : α → Bool} {l : List α}
    (h : ∀ a before, a :: before <:+ l → q a = true → ∀ b ∈ before.takeWhile p, q b = false) :
    (l.takeWhile p).countP q ≤ 1 := by
  induction l with
  | nil => exact Nat.zero_le _
  | cons a l ih =>
    have hl := ih fun b before hb => h b before (hb.trans (List.suffix_cons ..))
    rw [List.takeWhile_cons]
    split
    · rw [List.countP_cons]
      by_cases hq : q a = true
      · rw [if_pos hq]
        have hzero : (l.takeWhile p).countP q = 0 :=
          List.countP_eq_zero.2 fun b hb => by simp [h a l (List.suffix_refl _) hq b hb]
        omega
      · rw [if_neg hq]
        exact hl
    · exact Nat.zero_le _

theorem Once.opened_le (h : Once log) : (sinceDispatch log).countP (·.event.isOpening) ≤ 1 :=
  countP_takeWhile_le fun s before hb => (h s before hb).1

theorem Once.suffix {log' : List Stamped} (h : Once log) (hs : log' <:+ log) : Once log' :=
  fun s before hb => h s before (hb.trans hs)

/-- The messages started since the last dispatch: one in each round but this one. -/
theorem Once.started_le_round (h : Once log) : (sinceDispatch log).countP (·.event.isStart) ≤
    renewals (sinceDispatch log) + (thisRound log).countP (·.event.isStart) := by
  induction log with
  | nil => exact Nat.zero_le _
  | cons s log ih =>
    have hlog := h.suffix (List.suffix_cons ..)
    have hcount := ih hlog
    have hround : (thisRound log).countP (·.event.isStart) ≤ 1 :=
      countP_takeWhile_le fun s before hb => (hlog s before hb).2
    cases hd : s.event.isDispatch with
    | true => simp [sinceDispatch, hd]
    | false =>
      have hsince : sinceDispatch (s :: log) = s :: sinceDispatch log := by simp [sinceDispatch, hd]
      rw [hsince, List.countP_cons, renewals]
      cases hs : s.event.isSetup with
      | true =>
        have hno : s.event.isStart = false := by
          cases hev : s.event with
          | wrote kind => cases kind <;> first | rfl | (rw [hev] at hs; cases hs)
          | _ => rfl
        rw [hno]
        by_cases hany : (sinceDispatch log).any (·.event.isStart) = true
        · simp only [hany, Bool.and_true, if_true, Bool.false_eq_true, if_false]
          omega
        · have hzero : (sinceDispatch log).countP (·.event.isStart) = 0 := by
            simpa [List.countP_eq_zero] using hany
          simp [hzero]
      | false =>
        have hnext : thisRound (s :: log) = s :: thisRound log := by simp [thisRound, hd, hs]
        rw [hnext, List.countP_cons]
        simp only [Bool.false_and, Bool.false_eq_true, if_false]
        omega

theorem Once.started_le (h : Once log) :
    (sinceDispatch log).countP (·.event.isStart) ≤ 1 + renewals (sinceDispatch log) := by
  have hround : (thisRound log).countP (·.event.isStart) ≤ 1 :=
    countP_takeWhile_le fun s before hb => (h s before hb).2
  have := h.started_le_round
  omega

/-! ### The buffer -/

namespace Outbound
variable {o : Outbound}

/-- The frames are counted without a wrap: each of them but the first takes a byte. -/
structure Counts (o : Outbound) : Prop where
  frame : o.frame.toNat ≤ o.offset + 1
  offset : o.offset ≤ o.stop
  stop : o.stop ≤ isoTpMax

theorem Counts.load (payload : List UInt8) (sent : Nat) (header : List UInt8) :
    (Outbound.load payload sent (payloadLimit header)).Counts := by
  refine ⟨Nat.zero_le _, Nat.min_le_right .., ?_⟩
  simp only [Outbound.load, payloadLimit]
  omega

theorem Counts.clear (h : o.Counts) : o.clear.Counts :=
  ⟨h.frame.trans (Nat.add_le_add_right h.offset 1), Nat.le_refl _, h.stop⟩

/-- One more frame is sent: the first of all, or one with some of the rest. -/
theorem Counts.next (h : o.Counts) {room : Nat} (hroom : 0 < room)
    (hmore : o.frame = 0 ∨ 0 < o.remaining) :
    (o.advance room).countFrame.Counts ∧ (o.advance room).countFrame.frame ≠ 0 := by
  obtain ⟨hframe, hoffset, hstop⟩ := h
  have hone : (1 : UInt16).toNat = 1 := rfl
  have hsucc : (o.frame + 1).toNat = o.frame.toNat + 1 := by
    rw [isoTpMax] at hstop
    rw [UInt16.toNat_add, hone, Nat.mod_eq_of_lt (by omega)]
  have hfirst : o.frame = 0 → o.frame.toNat = 0 := fun h0 => by rw [h0]; rfl
  simp only [remaining] at hmore
  refine ⟨⟨?_, ?_, hstop⟩, fun h0 => ?_⟩
  · show (o.frame + 1).toNat ≤ o.offset + min room (o.stop - o.offset) + 1
    rw [hsucc]
    rcases hmore with h0 | hmore
    · have := hfirst h0
      omega
    · omega
  · show o.offset + min room (o.stop - o.offset) ≤ o.stop
    omega
  · have h0 : (o.frame + 1).toNat = 0 := congrArg UInt16.toNat h0
    omega

end Outbound

/-! ### What sends nothing of a request -/

namespace Engine
variable {e e' e'' : Engine}

/-- Nothing is sent of a request and no round begins. The rest of the request may be given up, and the
channel may stop to be opened. -/
structure Mute (e e' : Engine) : Prop where
  out : e'.out = e.out ∨ e'.out = e.out.clear
  coming : e'.channel.state.isComing = true → e.channel.state.isComing = true
  log : Adds (·.isMute = true) e e'

namespace Mute

theorem of_keeps (h : Keeps e e')
    (hc : e'.channel.state.isComing = true → e.channel.state.isComing = true) : Mute e e' :=
  ⟨h.out, hc, h.log.mono fun _ => Event.IsAside.isMute⟩

theorem of_eq (ho : e'.out = e.out) (hc : e'.channel.state = e.channel.state) (hl : e'.log = e.log) :
    Mute e e' :=
  ⟨.inl ho, fun h => hc ▸ h, .of_log hl⟩

/-- The channel ends up in a state in which it is not being opened. -/
theorem of_state (h : Keeps e e') {state : ChannelState} (hs : e'.channel.state = state)
    (hc : state.isComing = false) : Mute e e' :=
  .of_keeps h fun h' => by rw [hs, hc] at h'; cases h'

theorem of_channel (h : Keeps e e') (hc : e'.channel.state = e.channel.state) : Mute e e' :=
  .of_keeps h fun h' => hc ▸ h'

theorem delivers (h : Delivers e e') : Mute e e' :=
  .of_channel ((Keeps.refl e).delivers h) (by rw [h.channel])

theorem requestClose (e : Engine) : Mute e e.requestClose :=
  .of_state (Keeps.refl e).requestClose (state_requestClose e) rfl

theorem shutChannel (e : Engine) : Mute e e.shutChannel :=
  .of_state (Keeps.refl e).shutChannel (channel_shutChannel e) rfl

theorem failTransmission (e : Engine) : Mute e e.failTransmission := by
  refine .of_keeps (Keeps.refl e).failTransmission fun h => ?_
  unfold Engine.failTransmission at h
  rw [(Delivers.deliverFailure ..).channel] at h
  dsimp only at h
  split at h
  · cases h
  · exact h

theorem interrupt (e : Engine) : Mute e e.interrupt := by
  refine .of_keeps (Keeps.refl e).interrupt fun h => ?_
  unfold Engine.interrupt at h
  split at h
  · rw [state_abortTransfer] at h
    cases h
  · have hs : e.abortTransfer.channel.state.isComing = true := h
    rw [state_abortTransfer] at hs
    cases hs
  · exact h

end Mute

/-! ### The invariant -/

/-- As long as the buffer counts no frame, the message of this round has not been started. -/
structure Paced (e : Engine) : Prop where
  counts : e.out.Counts
  begun : e.out.frame = 0 → Unstarted e.log
  log : Once e.log

/-- While the channel is being opened, the message of this round has not been started. -/
structure Rounds (e : Engine) : Prop extends Paced e where
  coming : e.channel.state.isComing = true → Unstarted e.log

namespace Paced

theorem mute (h : Paced e) (ho : e'.out = e.out ∨ e'.out = e.out.clear)
    (hl : Adds (·.isMute = true) e e') : Paced e' := by
  obtain ⟨new, hnew, hmute⟩ := hl
  refine ⟨?_, fun h0 => ?_, by rw [hnew]; exact h.log.append hmute⟩
  · rcases ho with ho | ho <;> rw [ho]
    · exact h.counts
    · exact h.counts.clear
  · rw [hnew]
    refine (h.begun ?_).append hmute
    rcases ho with ho | ho <;> (rw [ho] at h0; exact h0)

/-- A frame of the request is written, of which it is the first if the buffer counts none. -/
theorem send (h : Paced e) {kind : FrameKind} (frame : Frame) (room : Nat) (hroom : 0 < room)
    (hmore : e.out.frame = 0 ∨ 0 < e.out.remaining)
    (hk : kind = .consecutive ∨ kind = .data e.out.frame)
    (ho : e'.out = (e.out.advance room).countFrame) (hl : e'.log = e.log) :
    Paced (e'.transmit kind frame) := by
  obtain ⟨hcounts, hpos⟩ := h.counts.next hroom hmore
  rw [transmit_eq]
  refine ⟨ho ▸ hcounts, fun h0 => absurd (ho ▸ h0) hpos, ?_⟩
  rw [hl]
  refine once_cons.2 ⟨fun hop => ?_, fun hs => ?_, h.log⟩
  · rcases hk with rfl | rfl <;> cases hop
  · rcases hk with rfl | rfl
    · cases hs
    · exact h.begun (by simpa [Event.isStart] using hs)

theorem sendFrame (h : Paced e) (entry : PollEntry) (left : Nat)
    (hmore : e.out.frame = 0 ∨ 0 < e.out.remaining) : Paced (e.sendFrame entry.header left) := by
  refine h.send _ _ ?_ hmore (.inr rfl) rfl rfl
  have := entry.length_header_le
  rw [length_dataLead]
  split <;> omega

theorem sendFrames (h : Paced e) (entry : PollEntry) (left : Nat)
    (hmore : e.out.frame = 0 ∨ 0 < e.out.remaining) :
    Paced (Engine.sendFrames entry.header left e) := by
  induction left generalizing e with
  | zero => exact h
  | succ left ih =>
    have hnext := h.sendFrame entry left hmore
    unfold Engine.sendFrames
    dsimp only
    split
    · exact hnext
    · exact ih hnext (.inr (by omega))

end Paced

namespace Rounds

theorem mute (h : Rounds e) (hm : Mute e e') : Rounds e' where
  toPaced := h.toPaced.mute hm.out hm.log
  coming hc := by
    obtain ⟨new, hnew, hmute⟩ := hm.log
    rw [hnew]
    exact (h.coming (hm.coming hc)).append hmute

/-- A round has just begun. -/
theorem of_begun (hc : e.out.Counts) (hu : Unstarted e.log) (hl : Once e.log) : Rounds e :=
  ⟨⟨hc, fun _ => hu, hl⟩, fun _ => hu⟩

/-! ### The channel -/

theorem requestSetup (h : Rounds e) : Rounds e.requestSetup := by
  unfold Engine.requestSetup
  split
  · exact h
  · split
    · exact h
    · dsimp only
      rw [transmit_eq]
      refine .of_begun ?_ (.of_begins (.inr rfl)) (once_cons.2 ⟨nofun, nofun, ?_⟩)
      · exact (out_expectOnChannel _).symm ▸ h.counts
      · exact (log_expectOnChannel _).symm ▸ h.log

theorem sendBlock (h : Paced e) {entry : PollEntry} (he : e.job.entry = some entry)
    (hmore : e.out.frame = 0 ∨ 0 < e.out.remaining) : Rounds e.sendBlock := by
  simp only [Engine.sendBlock, he]
  set e₁ := Engine.sendFrames entry.header (max 1 e.channel.blockSize.toNat) e
  have hx := (Keeps.refl e₁).expectOnChannel
  have hp : Paced e₁.expectOnChannel :=
    (h.sendFrames entry _ hmore).mute hx.out (hx.log.mono fun _ => Event.IsAside.isMute)
  exact ⟨hp.mute (.inl rfl) (.of_log rfl), fun hc => by cases hc⟩

theorem sendRequest (h : Rounds e) (hu : Unstarted e.log) : Rounds e.sendRequest := by
  unfold Engine.sendRequest
  cases he : e.job.entry with
  | none => exact h
  | some entry =>
    have hload : Paced { e with
        out := .load entry.payload 0 (payloadLimit entry.header)
        job := e.job.resetMultiframe } := ⟨.load .., fun _ => hu, h.log⟩
    exact sendBlock hload he (.inl rfl)

/-- A poll is brought onto the channel: its request is sent at once only if it has not been sent yet. -/
theorem startVwtp (h : Rounds e) (hu : e.channel.state.isHalfOpen = true ∨ Unstarted e.log) :
    Rounds e.startVwtp := by
  have ht : Rounds e.touchChannel := h.mute (.of_eq rfl rfl rfl)
  rcases hj : e.job.entry with _ | entry
  · simp only [Engine.startVwtp, hj]
    exact h
  · have hst := startVwtp_start e hj
    generalize e.startVwtp = e' at hst ⊢
    cases hst with
    | again => exact ht.requestSetup
    | request hc hs =>
      have hi := Mute.interrupt e.touchChannel
      obtain ⟨new, hnew, hmute⟩ := hi.log
      refine (ht.mute hi).sendRequest ?_
      rw [hnew]
      refine Unstarted.append (hu.resolve_left fun ho => ?_) hmute
      rw [show e.touchChannel.channel.state = e.channel.state from rfl, ho] at hs
      cases hs
    | close => exact ht.mute (.requestClose _)
    | setup => exact ht.requestSetup
    | nothing => exact ht.mute (.delivers (.deliverFailure ..))

/-! ### ISO-TP -/

theorem sendConsecutive (h : Rounds e) (target : UInt32) (hmore : 0 < e.out.remaining) :
    Rounds (e.sendConsecutive target) := by
  refine ⟨h.toPaced.send _ (e.isoTpRoom - 1) ?_ (.inr hmore) (.inl rfl) rfl rfl, fun hc => ?_⟩
  · simp only [Engine.isoTpRoom, Protocol.isoTpRoom]
    split <;> omega
  · unfold Engine.sendConsecutive at hc ⊢
    rw [transmit_eq] at hc ⊢
    exact (h.coming hc).cons rfl

theorem burst (h : Rounds e) (target : UInt32) (delay count : Nat) :
    Rounds (Engine.burst target delay count e) := by
  induction count generalizing e with
  | zero => exact h
  | succ count ih =>
    unfold Engine.burst
    by_cases hmore : e.out.remaining = 0
    · rw [if_pos hmore]
      exact h
    · rw [if_neg hmore]
      have hnext := h.sendConsecutive target (by omega)
      dsimp only
      split
      · exact hnext
      · exact ih (hnext.mute (.of_eq rfl rfl rfl))

theorem isoTpFlow (h : Rounds e) (id : UInt32) (command blockSize septime : UInt8) :
    Rounds (e.isoTpFlow id command blockSize septime) := by
  have hb := h.burst (e.isoTpTarget id) (separationDelay septime) (e.allowedFrames blockSize)
  unfold Engine.isoTpFlow
  split
  · exact h
  · split
    · exact h
    · exact h.mute (.of_eq rfl rfl rfl)
    · exact h.mute ⟨.inr rfl, fun hc => hc, .of_log rfl⟩
    · dsimp only
      split
      · exact hb.mute (.of_eq rfl rfl rfl)
      · exact hb

/-- The request of an entry that has just been dispatched is opened. -/
theorem startIsoTp (h : Rounds e) (hu : Unstarted e.log) (ho : Unopened e.log) : Rounds e.startIsoTp := by
  unfold Engine.startIsoTp
  split
  · exact h
  · dsimp only
    rw [transmit_eq]
    exact .of_begun (.load ..) (hu.cons rfl) (once_cons.2 ⟨fun _ => ho, nofun, h.log⟩)

theorem dispatch (h : Rounds e) (entry : PollEntry) : Rounds (e.dispatch entry) := by
  have hu : Unstarted (e.assign entry).log := .of_begins (.inl rfl)
  have ho : Unopened (e.assign entry).log := List.forall_mem_nil _
  have ha : Rounds (e.assign entry) := .of_begun h.counts hu (once_cons.2 ⟨nofun, nofun, h.log⟩)
  unfold Engine.dispatch
  split
  · exact ha.startVwtp (.inr hu)
  · exact ha.startIsoTp hu ho

/-! ### Moves -/

theorem emit (h : Rounds e) {event : Event} (hev : event.isMute = true) : Rounds (e.emit event) :=
  h.mute ⟨.inl rfl, fun hc => hc, (Adds.refl e).emit hev⟩

theorem startSingle (h : Rounds e) (request : SingleRequest) : Rounds (e.startSingle request) := by
  have hc : Rounds (e.capture request).advance :=
    h.mute ⟨.inl rfl, fun hc => hc, [_], rfl, by simp [Event.isMute, Event.isDispatch, Event.isSetup,
      Event.isOpening, Event.isStart]⟩
  unfold Engine.startSingle
  split
  · exact h.emit rfl
  · dsimp only
    split
    · exact hc.dispatch _
    · exact hc.mute (.delivers (.finishSingle ..))

theorem startPass (h : Rounds e) : Rounds e.startPass := by
  have hp : Rounds { e with schedule := e.schedule.startNextPass } := h.mute (.of_eq rfl rfl rfl)
  unfold Engine.startPass
  dsimp only
  split
  · exact hp.emit rfl
  · exact hp

theorem pollList (h : Rounds e) : Rounds e.pollList := by
  have ha : Rounds e.advance := h.mute (.of_eq rfl rfl rfl)
  unfold Engine.pollList
  split
  · exact ha.dispatch _
  · split
    · exact ha
    · exact ha.emit rfl
  · exact ha

theorem turn (h : Rounds e) (ht : Turn e e') : Rounds e' := by
  cases ht with
  | shut => exact h.mute (.shutChannel e)
  | reopen hs => exact h.startVwtp (.inl (by rw [hs]; rfl))
  | close => exact h.mute (.requestClose e)
  | expire => exact h.mute (.delivers (.expireSingle e))
  | @single request queued =>
    have hq : Rounds { e with queued } := h.mute (.of_eq rfl rfl rfl)
    exact hq.startSingle request
  | pass => exact h.startPass
  | poll => exact h.pollList
  | fail => exact h.mute (.failTransmission e)
  | sent success =>
    have hr : Rounds { e with job := { e.job with received := 0 } } := h.mute (.of_eq rfl rfl rfl)
    exact hr.emit rfl
  | count | grace | release | arm | take => exact h.mute (.of_eq rfl rfl rfl)

theorem move {stray : Prop} (h : Rounds e) (hm : Move stray e e') : Rounds e' := by
  have hr := Keeps.refl e
  cases hm with
  | turn ht => exact h.turn ht
  | begin => exact h.emit rfl
  | refuse =>
    obtain ⟨new, heq, -⟩ := refuseQueued_eq e
    exact h.mute (.of_channel hr.refuseQueued (by rw [heq]))
  | unavailable => exact h.mute (.delivers (.finishSingle ..))
  | reply data => exact h.mute (.delivers (.deliverReply ..))
  | failure failure => exact h.mute (.delivers (.deliverFailure ..))
  | allow hj id => exact h.mute (.of_channel (hr.sendFlowControl id) (by rw [sendFlowControl, channel_transmit]))
  | flow => exact h.isoTpFlow ..
  | lose => exact h.mute (.of_state hr.loseChannel rfl rfl)
  | shut => exact h.mute (.shutChannel e)
  | close => exact h.mute (.requestClose e)
  | params hs => exact h.mute (.of_keeps (hr.requestParams (by rw [hs]; rfl)) fun _ => by rw [hs]; rfl)
  | request hs => exact h.sendRequest (h.coming (by rw [hs]; rfl))
  | setup => exact h.requestSetup
  | block hs ho =>
    rcases he : e.job.entry with _ | entry
    · simp only [Engine.sendBlock, he]
      exact h
    · exact .sendBlock h.toPaced he (.inr ho)
  | await hs => exact h.mute (.of_keeps (hr.awaitResponse (by rw [hs]; rfl)) fun hc => by
      unfold awaitResponse at hc
      split at hc
      · exact hc
      · cases hc)
  | drop => exact h.mute ⟨.inr rfl, fun hc => hc, .of_log rfl⟩
  | abort hs => exact h.mute (.of_state (hr.abortTransfer (by rw [hs]; rfl)) (state_abortTransfer e) rfl)
  | idle hs =>
    refine h.mute (.of_keeps (hr.goIdle (by rcases hs with hs | hs <;> rw [hs] <;> rfl)) fun hc => ?_)
    unfold goIdle at hc
    split at hc
    · exact hc
    · cases hc
  | ack => exact h.mute (.of_channel hr.sendAck (by rw [sendAck, channel_transmit]))
  | pong => exact h.mute (.of_channel hr.sendPong (by rw [sendPong, channel_transmit]))
  | refuseData =>
    exact h.mute (.of_channel hr.refuseData (by unfold Engine.refuseData; dsimp only; rw [channel_transmit]))
  | elapse | adjust | throttle | disarm | halt | progress | reject | assignIds | agree | receive =>
    exact h.mute (.of_eq rfl rfl rfl)

theorem moves {stray : Prop} (h : Rounds e) (hm : Moves stray e e') : Rounds e' := by
  induction hm with
  | refl => exact h
  | tail _ hm ih => exact ih.move hm

theorem step (h : Rounds e) (op : Operation) : Rounds (e.step op) := by
  cases op with
  | setList list defaultBus =>
    refine h.mute ?_
    show Mute e (e.setList list defaultBus)
    unfold setList
    split <;> exact .of_eq rfl rfl rfl
  | setState state =>
    refine h.mute ?_
    show Mute e (e.setState state)
    unfold setState
    dsimp only
    split <;> exact .of_eq rfl rfl rfl
  | submit request =>
    have hq : Rounds { e with queued := e.queued ++ [request] } := h.mute (.of_eq rfl rfl rfl)
    exact hq.moves (@submit_moves False e request)
  | _ => exact h.moves (step_moves e (by simp) (by simp) (by simp))

theorem run (h : Rounds e) (ops : List Operation) : Rounds (e.run ops) := by
  induction ops generalizing e with
  | nil => exact h
  | cons op ops ih => exact ih (h.step op)

end Rounds

/-! ### Every run -/

theorem rounds_new (bus : BusId) (name : String) (reports : Bool) (settings : EngineSettings) :
    Rounds (Engine.new bus name reports settings) :=
  .of_begun ⟨Nat.zero_le _, Nat.le_refl _, Nat.zero_le _⟩ (List.forall_mem_nil _) fun _ _ hb => by
    simp [Engine.new] at hb

/-- At every moment of a run, the entry dispatched last has opened at most one request over ISO-TP, and
started at most one message over the channel and one more for each time that the channel was asked for
anew after that. -/
def RequestedOnce (log : List Stamped) : Prop :=
  ∀ log', log' <:+ log →
    (sinceDispatch log').countP (·.event.isOpening) ≤ 1 ∧
      (sinceDispatch log').countP (·.event.isStart) ≤ 1 + renewals (sinceDispatch log')

/-- In every run each dispatch has its request sent at most once, unless the channel is asked for anew. -/
theorem requested_once (bus : BusId) (name : String) (reports : Bool) (settings : EngineSettings)
    (ops : List Operation) : RequestedOnce ((Engine.new bus name reports settings).run ops).log := by
  intro log hlog
  have h := ((rounds_new bus name reports settings).run ops).log.suffix hlog
  exact ⟨h.opened_le, h.started_le⟩

/-- A module takes a request over its channel and never answers. When the wait has run out the channel is
closed, but the poll is still in flight: it asks for the channel anew and sends its request once more. -/
theorem not_once_example :
    let bus : BusId := ⟨1, by decide⟩
    let write : PollEntry := ⟨0x200, 1, 0x2e, 0x1234, [0xaa], #v[1, 1, 1, 1], 1, .vwtp20⟩
    let accept := Operation.frame
      (EcuFrame.channel bus 0x201 [0x00, 0xd0, 0x00, 0x03, 0x40, 0x07, 0x01])
    let agree := Operation.frame (EcuFrame.channel bus 0x300 [0xa1, 0x0f, 0x8a, 0xff, 0x00, 0xff])
    let log := ((Engine.new bus "ecu" false ⟨0, 25, .strict, 0, 0⟩).run
      [.setList (some [write]) none, .tick true, accept, agree,
        .frame (EcuFrame.channel bus 0x300 [0xb1]), .elapse 1000, .tick true, .elapse 1000, .tick true,
        .frame (EcuFrame.channel bus 0x300 [0xa8]), accept, agree]).log
    (sinceDispatch log).countP (·.event.isStart) = 2 ∧
      (sinceDispatch log).countP (·.event.isSetup) = 2 ∧ renewals (sinceDispatch log) = 1 := by
  decide

end Engine

end EcuPoll
