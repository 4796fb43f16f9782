import EcuPoll.Proofs.Engine.Quiet
import EcuPoll.Proofs.Engine.Routes

/-!
# Waiting for the module of a channel

While an engine waits for the module of its channel, much may happen that does not concern the poll in
flight: time passes, ticks count the wait down, frames for others come in, settings change. Such an
operation (`Abides`) leaves the poll, the channel and the single request what they are: `Abides.waited`.
-/

namespace EcuPoll

/-- A tick begins, or a frame of the poll in flight is on the bus. -/
def Event.IsMinor : Event → Prop
  | .stateTicker _ | .sent _ _ => True
  | _ => False

theorem Event.IsSent.isMinor {event : Event} (h : event.IsSent) : event.IsMinor := by
  cases event <;> first | exact h.elim | trivial

theorem Event.IsMinor.isQuiet {event : Event} (h : event.IsMinor) : event.IsQuiet := by
  cases event <;> first | exact h.elim | trivial

theorem Event.IsMinor.not_isWrite {event : Event} (h : event.IsMinor) : ¬ event.IsWrite := by
  cases event <;> first | exact h.elim | exact id

namespace Engine
variable {e e' e'' : Engine}

/-- The engine goes on waiting: the poll in flight, its request, the channel and the single request stay
what they are, and nothing is written. -/
structure Waited (e e' : Engine) : Prop where
  bus : e'.bus = e.bus
  line : e'.line = e.line
  job : ∃ received, e'.job = { e.job with received }
  active : e'.active = e.active
  out : e'.out = e.out
  channel : e'.channel = e.channel
  single : e'.single = e.single
  wait_pos : 0 < e'.wait
  allSent : e'.AllSent
  queue : e'.single.isSome = true ∨ e'.queued = []
  log : Adds Event.IsMinor e e'

namespace Waited

theorem trans (h : Waited e e') (h' : Waited e' e'') : Waited e e'' where
  bus := h'.bus.trans h.bus
  line := h'.line.trans h.line
  job := by
    obtain ⟨received, hj⟩ := h.job
    obtain ⟨received', hj'⟩ := h'.job
    exact ⟨received', by rw [hj', hj]⟩
  active := h'.active.trans h.active
  out := h'.out.trans h.out
  channel := h'.channel.trans h.channel
  single := h'.single.trans h.single
  wait_pos := h'.wait_pos
  allSent := h'.allSent
  queue := h'.queue
  log := h.log.trans h'.log

/-- An operation ends with reports of frames that were sent. -/
theorem settle (h : Waited e e') : Waited e e'.settle := by
  obtain ⟨received, new, heq, hnew⟩ := settle_good h.allSent h.queue
  refine h.trans ?_
  rw [heq]
  exact ⟨rfl, rfl, ⟨received, rfl⟩, rfl, rfl, rfl, rfl, h.wait_pos, by simp [AllSent], h.queue,
    new, rfl, fun s hs => (hnew s hs).isMinor⟩

end Waited

/-- A primary tick leaves something to wait for: the wait does not run out, that for a channel to open began
just now, and the caller of a single request is there. -/
structure Outlasts (e : Engine) : Prop where
  wait : 2 ≤ e.wait
  coming : e.channel.state.isComing = true → e.wait = 2 ∧ e.channel.usedWithin e.now waitGrace = true
  single : ∀ capture ∈ e.single, capture.request.isGone e.now = false

instance (e : Engine) : Decidable e.Outlasts :=
  decidable_of_iff (2 ≤ e.wait ∧ (e.channel.state.isComing = true →
      e.wait = 2 ∧ e.channel.usedWithin e.now waitGrace = true) ∧
    ∀ capture ∈ e.single, capture.request.isGone e.now = false)
    ⟨fun ⟨hw, hc, hs⟩ => ⟨hw, hc, hs⟩, fun ⟨hw, hc, hs⟩ => ⟨hw, hc, hs⟩⟩

/-- The wait of the poll in flight does not end with this operation: it is no frame on the channel, no tick
that the wait runs out in, and no failed write, and it does not take the poll away. -/
def Abides (e : Engine) : Operation → Prop
  | .frame frame => frame.bus ≠ e.bus ∨ e.isChannelFrame frame = false
  | .tick primary => primary = true → e.Outlasts
  | .txComplete _ success => success = true
  | .submit _ | .setState _ => e.single.isSome = true
  | .setList _ _ | .shutdown | .setRoom _ => False
  | _ => True

/-- The wait for a channel to close began just now, if there is one. -/
def ClosesLater (e : Engine) : Prop :=
  e.channel.state = .closing → e.wait = 2 ∧ e.channel.usedWithin e.now waitGrace = true

/-- All that such a tick does is to count. -/
theorem Outlasts.countDown (h : e.Outlasts) (hs : e.ClosesLater) :
    ∃ wait, 0 < wait ∧ e.countDown = { e with wait } := by
  have hw := h.wait
  have hkeep : ∃ wait, 0 < wait ∧ { e with wait := e.wait - 1 }.keepChannel = { e with wait } := by
    unfold keepChannel
    by_cases hgrace : (e.wait - 1 = 1 && e.channel.usedWithin e.now waitGrace) = true
    · rw [if_pos hgrace]
      exact ⟨2, Nat.zero_lt_two, rfl⟩
    · rw [if_neg hgrace]
      have hcoming : e.channel.state.isComing = false := by
        rw [Bool.eq_false_iff]
        intro hc
        obtain ⟨htwo, hused⟩ := h.coming hc
        exact hgrace (by simp [htwo, hused])
      have hclosing : e.channel.state ≠ .closing := fun hc => by
        obtain ⟨htwo, hused⟩ := hs hc
        exact hgrace (by simp [htwo, hused])
      have htime : { e with wait := e.wait - 1 }.timeOutChannel = { e with wait := e.wait - 1 } := by
        unfold timeOutChannel
        rw [if_pos (show 0 < e.wait - 1 by omega)]
        cases hstate : e.channel.state <;> simp_all [ChannelState.isComing]
      rw [htime]
      unfold closeUnused
      rw [if_neg (by simp; omega)]
      exact ⟨e.wait - 1, by omega, rfl⟩
  obtain ⟨wait, hpos, hkeep⟩ := hkeep
  refine ⟨wait, hpos, ?_⟩
  unfold Engine.countDown expireSingle
  rw [hkeep]
  cases hsingle : e.single with
  | none => rfl
  | some capture =>
    have hne : ¬ wait = 0 := by omega
    simp [h.single capture hsingle, hne]

namespace Abides
variable (hw : 0 < e.wait) (hr : e.AllSent) (hq : e.single.isSome = true ∨ e.queued = [])
include hw hr hq

/-- What is no part of the poll in flight may change. -/
theorem update (now : Nat) (schedule : Schedule) (paused : Bool) (septime : UInt8)
    (keepalive between : Nat) (successDue : Option Nat) : Waited e { e with
      now, schedule, paused, septime, keepalive, between, successDue } :=
  ⟨rfl, rfl, ⟨e.job.received, rfl⟩, rfl, rfl, rfl, rfl, hw, hr, hq, .of_log rfl⟩

theorem tick {primary : Bool} (hop : e.Abides (.tick primary)) (hs : primary = true → e.ClosesLater) :
    Waited e (e.tick primary) := by
  have hsend : ∀ (e : Engine) (primary : Bool), 0 < e.wait → e.sendNext primary = e :=
    fun e primary hw => if_pos hw
  cases primary with
  | false =>
    show Waited e ({ e with schedule := e.schedule.resetSequence }.sendNext false).settle
    rw [hsend _ false (by exact hw)]
    exact (update hw hr hq e.now _ e.paused e.septime e.keepalive e.between e.successDue).settle
  | true =>
    obtain ⟨htwo, hcoming, hsingle⟩ := hop rfl
    have hbegin : Outlasts { e.emit (.stateTicker e.bus) with schedule := e.schedule.resetSequence } :=
      ⟨htwo, hcoming, hsingle⟩
    obtain ⟨wait, hpos, hdown⟩ := hbegin.countDown (hs rfl)
    show Waited e (({ e.emit (.stateTicker e.bus) with
      schedule := e.schedule.resetSequence }.countDown).sendNext true).settle
    rw [hdown, hsend _ true hpos]
    have hlater : Waited e
        { e.emit (.stateTicker e.bus) with schedule := e.schedule.resetSequence, wait } :=
      ⟨rfl, rfl, ⟨e.job.received, rfl⟩, rfl, rfl, rfl, rfl, hpos, hr, hq, [_], rfl,
        by simp [Event.IsMinor]⟩
    exact hlater.settle

/-- Whatever the transport of the poll in flight: an operation that is no frame and does not end the wait leaves
the poll alone. -/
theorem aside {op : Operation} (hop : e.Abides op) (hf : ∀ frame, op ≠ .frame frame)
    (hs : op = .tick true → e.ClosesLater) : Waited e (e.step op) := by
  have hset := fun now schedule paused septime keepalive between successDue =>
    update hw hr hq now schedule paused septime keepalive between successDue
  cases op with
  | frame frame => exact absurd rfl (hf frame)
  | tick primary => exact tick hw hr hq hop fun hp => hs (by rw [hp])
  | txComplete frame success =>
    obtain rfl : success = true := hop
    obtain ⟨received, new, heq, hnew⟩ := judgeResult_good e frame
    show Waited e (e.judgeResult frame true).settle
    rw [heq]
    have hsent : Waited e { e with job := { e.job with received }, log := new ++ e.log } :=
      ⟨rfl, rfl, ⟨received, rfl⟩, rfl, rfl, rfl, rfl, hw, hr, hq, new, rfl,
        fun s hs => (hnew s hs).isMinor⟩
    exact hsent.settle
  | sendSuccess =>
    show Waited e e.sendSuccess
    have hbusy : e.mayChain = false := by
      simp only [mayChain, Bool.and_eq_false_iff, beq_eq_false_iff_ne]
      exact .inl (by omega)
    unfold sendSuccess
    split
    · show Waited e (ite (e.mayChain = true) _ _ : Engine).settle
      rw [hbusy, if_neg (by simp)]
      exact (hset e.now e.schedule e.paused e.septime e.keepalive e.between none).settle
    · exact hset ..
  | submit request =>
    have hqueue : Waited e { e with queued := e.queued ++ [request] } :=
      ⟨rfl, rfl, ⟨e.job.received, rfl⟩, rfl, rfl, rfl, rfl, hw, hr, .inl hop, .of_log rfl⟩
    exact hqueue.settle
  | setState state =>
    show Waited e (e.setState state)
    have hsome : e.single.isNone = false := by
      rw [← Option.not_isSome, show e.single.isSome = true from hop]
      rfl
    unfold setState
    dsimp only
    rw [hsome, if_neg (by simp)]
    exact hset e.now _ e.paused e.septime e.keepalive e.between e.successDue
  | setList | shutdown | setRoom => exact hop.elim
  | setPaused | setSequenceMax | setSeptime | setKeepalive | setBetween | elapse => exact hset ..

end Abides

/-- An operation that does not end the wait leaves a poll over the channel alone. -/
theorem Abides.waited (hj : e.job.isVwtp = true) (hs : e.channel.state ≠ .closing) (hw : 0 < e.wait)
    (hr : e.AllSent) (hq : e.single.isSome = true ∨ e.queued = []) {op : Operation} (hop : e.Abides op) :
    Waited e (e.step op) := by
  cases op with
  | frame frame =>
    show Waited e (e.handleFrame frame)
    have hsame : Waited e e :=
      update hw hr hq e.now e.schedule e.paused e.septime e.keepalive e.between e.successDue
    have hother : e.receiveOther frame = e := by simp [receiveOther, hj]
    unfold handleFrame
    by_cases hb : frame.bus ≠ e.bus
    · rw [if_pos hb]
      exact hsame
    · rw [if_neg hb]
      rw [if_neg (by simpa using hop.resolve_left hb), hother]
      exact hsame.settle
  | _ => exact aside hw hr hq hop nofun fun _ hc => absurd hc hs

end Engine

end EcuPoll
