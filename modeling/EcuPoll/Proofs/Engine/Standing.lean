import EcuPoll.Proofs.Engine.Aftermath
import EcuPoll.Proofs.Engine.Fates
import EcuPoll.Proofs.Engine.Sequels
import EcuPoll.Proofs.IsoTp.Delivery
import EcuPoll.Proofs.Vwtp.HalfOpen

/-!
# Where a response stands

How far the response to a poll of the list has come is kept with the poll: the frames that were taken, the place of the
next one, and the bytes to come. Only a frame of the response moves these on. Whatever else an engine does leaves them
alone until another poll begins (`Bides`), except that a poll over the channel has no use for them any more once its
channel has left the state in which the response comes in.
-/

namespace EcuPoll

/-- The poll, and where its response stands. -/
def PollJob.standing (j : PollJob) : (Option PollEntry × Protocol × UInt8 × UInt16) × UInt16 × UInt16 × UInt16 :=
  (j.asked, j.mlFrame, j.mlOffset, j.mlRemain)

/-- The receiver of results is called with a part of a response. -/
def Event.isReply : Event → Bool
  | .reply _ _ _ => true
  | _ => false

theorem Event.IsQuiet.not_isReply {event : Event} (h : event.IsQuiet) : event.isReply = false := by
  cases event <;> first | rfl | exact h.elim

theorem Event.IsSilent.not_isReply {event : Event} (h : event.IsSilent) : event.isReply = false := by
  cases event <;> first | rfl | cases h.2

theorem Stamped.reply?_of_not_isReply {s : Stamped} (h : s.event.isReply = false) : s.reply? = none := by
  unfold Stamped.reply?
  cases heq : s.event with
  | reply _ _ _ =>
    rw [heq] at h
    cases h
  | _ => rfl

/-- The payload bytes in the replies. -/
def payloadBytes (rs : List Reply) : Nat :=
  (rs.flatMap (·.data)).length

theorem payloadBytes_cons (r : Reply) (rs : List Reply) : payloadBytes (r :: rs) = r.data.length + payloadBytes rs := by
  simp [payloadBytes]

theorem payloadBytes_singleton (r : Reply) : payloadBytes [r] = r.data.length := by
  simp [payloadBytes]

theorem payloadBytes_append (rs rs' : List Reply) : payloadBytes (rs ++ rs') = payloadBytes rs + payloadBytes rs' := by
  simp [payloadBytes]

namespace Engine
variable {e e' e'' : Engine} {op : Operation} {ops : List Operation}

/-! ### Replies between two moments -/

/-- The replies between two moments of a run. -/
def repliesSince (e e' : Engine) : List Reply :=
  (replies e'.log).drop (replies e.log).length

theorem repliesSince_of_log {new : List Stamped} (h : e'.log = new ++ e.log) : repliesSince e e' = replies new := by
  rw [repliesSince, h, replies_append, List.drop_left]

theorem repliesSince_self (e : Engine) : repliesSince e e = [] := List.drop_length ..

theorem repliesSince_trans (h : e.log <:+ e'.log) (h' : e'.log <:+ e''.log) :
    repliesSince e e'' = repliesSince e e' ++ repliesSince e' e'' := by
  obtain ⟨new, hnew⟩ := h
  obtain ⟨new', hnew'⟩ := h'
  have hboth : e''.log = (new' ++ new) ++ e.log := by rw [← hnew', ← hnew, List.append_assoc]
  rw [repliesSince_of_log hnew.symm, repliesSince_of_log hnew'.symm, repliesSince_of_log hboth, replies_append]

theorem repliesSince_of_adds (h : Adds (·.isReply = false) e e') : repliesSince e e' = [] := by
  obtain ⟨new, hnew, hno⟩ := h
  rw [repliesSince_of_log hnew, replies, List.filterMap_eq_nil_iff]
  exact fun s hs => Stamped.reply?_of_not_isReply (hno s (List.mem_reverse.1 hs))

theorem Renews.shows (h : Renews e e') : Shows (·.beginsPoll = true) e e' := by
  obtain ⟨e₁, s, ⟨mid, hmid, -⟩, hs, later, hlater⟩ := h
  refine ⟨later ++ s :: mid, ?_, s, by simp, hs⟩
  rw [← hlater, hmid]
  simp

/-- A part of the response to a poll of the list goes to the receiver of results. -/
theorem deliverSegment_none (hs : e.single = none) (id : UInt32) (payload : List UInt8) (remain : UInt16)
    {job : PollJob} (hj : job = { e.job with received := id, mlRemain := remain }) :
    e.deliverSegment id payload remain = { e with job }.emit (.reply job payload remain) := by
  subst hj
  simp only [deliverSegment, deliverReply, hs]

/-! ### What leaves a response where it stands -/

/-- More of the response to the poll in flight could be taken. -/
def Listens (e : Engine) : Prop := e.job.isVwtp = false ∨ e.channel.state = .receive

/-- No single request takes the bus, the poll stays what it is, and if more of its response can be taken, it stands
where it stood. -/
structure Stands (e e' : Engine) : Prop where
  single : e'.single = none
  asked : e'.job.asked = e.job.asked
  standing : e'.Listens → e.Listens ∧ e'.job.standing = e.job.standing

/-- No reply is made, and the response stays where it stands until another poll begins. -/
structure Bides (e e' : Engine) : Prop where
  log : Adds (·.isReply = false) e e'
  stands : Shows (·.beginsPoll = true) e e' ∨ Stands e e'

namespace Stands

theorem refl (hs : e.single = none) : Stands e e := ⟨hs, rfl, fun h => ⟨h, rfl⟩⟩

theorem trans (h : Stands e e') (h' : Stands e' e'') : Stands e e'' where
  single := h'.single
  asked := h'.asked.trans h.asked
  standing hl := by
    obtain ⟨hl', hst'⟩ := h'.standing hl
    obtain ⟨hl, hst⟩ := h.standing hl'
    exact ⟨hl, hst'.trans hst⟩

theorem of_eq (hs : e'.single = none) (hj : e'.job.standing = e.job.standing)
    (hc : e'.channel.state = .receive → e.channel.state = .receive) : Stands e e' := by
  have hv := isVwtp_of_asked (congrArg (·.1) hj)
  exact ⟨hs, congrArg (·.1) hj, fun h => ⟨h.imp (hv.symm.trans ·) hc, hj⟩⟩

/-- The channel is left in a state in which no response comes in. -/
theorem of_state (hs : e'.single = none) (ha : e'.job.asked = e.job.asked)
    (hj : e.job.isVwtp = false → e'.job.standing = e.job.standing) (hc : e'.channel.state ≠ .receive) :
    Stands e e' := by
  refine ⟨hs, ha, fun h => ?_⟩
  have hv : e.job.isVwtp = false := by
    rw [← isVwtp_of_asked ha]
    exact h.resolve_right hc
  exact ⟨.inl hv, hj hv⟩

end Stands

theorem expectOnChannel_isoTp (hj : e.job.isVwtp = false) : e.expectOnChannel = e := by
  unfold expectOnChannel
  rw [if_neg (by simp [hj])]

theorem stands_requestClose (hs : e.single = none) : Stands e e.requestClose := by
  refine .of_state ((Same.requestClose e).single.trans hs) (Same.requestClose e).asked (fun hj => ?_) ?_
  · unfold requestClose
    split
    · rfl
    · dsimp only
      rw [transmit_eq, expectOnChannel_isoTp hj]
  · rw [state_requestClose]
    nofun

theorem stands_shutChannel (hs : e.single = none) : Stands e e.shutChannel := by
  refine .of_state ((Same.shutChannel e).single.trans hs) (Same.shutChannel e).asked (fun _ => ?_) ?_
  · rw [job_shutChannel]
  · rw [channel_shutChannel]
    nofun

/-- A poll whose channel is closed asks for it anew, or ends. -/
theorem stands_startVwtp (hs : e.single = none) (hc : e.channel.state = .closed) (hj : e.job.isVwtp = true) :
    Stands e e.startVwtp := by
  have hno {P : Prop} (hj' : e.job.isVwtp = false) : P := by
    rw [hj] at hj'
    cases hj'
  cases he : e.job.entry with
  | none =>
    have heq : e.startVwtp = e := by simp only [startVwtp, he]
    rw [heq]
    exact .refl hs
  | some entry =>
    have hclosed : e.touchChannel.channel.state = .closed := hc
    have hsetup : Stands e e.touchChannel.requestSetup := by
      refine .of_state ((Same.requestSetup _).single.trans hs) (Same.requestSetup e.touchChannel).asked hno ?_
      rw [state_requestSetup (e := e.touchChannel) he hj]
      decide
    have hst := startVwtp_start e he
    generalize e.startVwtp = e' at hst ⊢
    cases hst with
    | again => exact hsetup
    | request hfor hopen =>
      rw [hclosed] at hopen
      cases hopen
    | close hfor hopen => exact absurd hclosed hopen
    | setup => exact hsetup
    | nothing =>
      have hd := Delivers.deliverFailure e.touchChannel .channelClosed
      refine .of_state ?_ (by rw [hd.job]; rfl) hno (by rw [hd.channel, hclosed]; decide)
      rw [deliverFailure_none (e := e.touchChannel) hs]
      exact hs

theorem stands_failTransmission (hs : e.single = none) : Stands e e.failTransmission := by
  have hd := Delivers.deliverFailure { (if e.job.isVwtp then e.loseChannel else e) with wait := 0 } .transmitFailed
  have hjob : e.failTransmission.job = e.job := by
    refine hd.job.trans ?_
    dsimp only
    split <;> rfl
  refine ⟨single_failTransmission hs, by rw [hjob], fun h => ⟨?_, by rw [hjob]⟩⟩
  refine .inl ?_
  cases hv : e.job.isVwtp with
  | false => rfl
  | true =>
    have hclosed : e.failTransmission.channel.state = .closed := by
      unfold failTransmission
      rw [(Delivers.deliverFailure ..).channel, hv]
      rfl
    rcases h with h | h
    · rw [hjob, hv] at h
      cases h
    · rw [hclosed] at h
      cases h

theorem stands_shutdown (hs : e.single = none) : Stands e e.shutdown := by
  have hfinish : e.finishSingle (.error .unavailable) = e := by simp [finishSingle, hs]
  obtain ⟨new, heq, -⟩ := refuseQueued_eq e
  have hrefuse : Stands e e.refuseQueued := by
    rw [heq]
    exact .of_eq hs rfl id
  unfold shutdown
  rw [hfinish]
  dsimp only
  split
  · have hclose := hrefuse.trans (stands_requestClose hrefuse.single)
    have hshut := hclose.trans (stands_shutChannel hclose.single)
    exact hshut.trans (.of_eq hshut.single rfl id)
  · exact hrefuse.trans (.of_eq hrefuse.single rfl id)

namespace Bides

theorem refl (hs : e.single = none) : Bides e e := ⟨.refl e, .inr (.refl hs)⟩

theorem of_stands (hl : Quiet e e') (h : Stands e e') : Bides e e' :=
  ⟨hl.mono fun _ => Event.IsQuiet.not_isReply, .inr h⟩

theorem of_renews (hl : Quiet e e') (h : Renews e e') : Bides e e' :=
  ⟨hl.mono fun _ => Event.IsQuiet.not_isReply, .inl h.shows⟩

theorem trans (h : Bides e e') (hl : Adds (·.isReply = false) e' e'') (h' : e'.single = none → Bides e' e'') :
    Bides e e'' where
  log := h.log.trans hl
  stands := by
    rcases h.stands with hb | hs
    · exact .inl (hb.grows hl.suffix)
    · rcases (h' hs.single).stands with hb' | hs'
      · exact .inl (.of_grows h.log.suffix hb')
      · exact .inr (hs.trans hs')

theorem startSingle (hs : e.single = none) (request : SingleRequest) : Bides e (e.startSingle request) := by
  cases hg : request.isGone e.now with
  | false => exact .of_renews (Quiet.startSingle (.refl e) request) (.startSingle hg)
  | true =>
    rw [startSingle_gone hg]
    exact .of_stands ((Adds.refl e).emit trivial) (.of_eq hs rfl id)

theorem pollList (hs : e.single = none) : Bides e e.pollList := by
  have ha : Quiet e e.advance := .of_log rfl
  unfold Engine.pollList
  split
  · exact .of_renews (ha.dispatch _) (.of_incidental (.of_log rfl) (.dispatch e.advance _))
  · split
    · exact .of_stands (.of_log rfl) (.of_eq hs rfl id)
    · exact .of_stands ⟨[_], rfl, by simp [Event.IsQuiet]⟩ (.of_eq hs rfl id)
  · exact .of_stands (.of_log rfl) (.of_eq hs rfl id)

theorem turn (hs : e.single = none) (ht : Turn e e') : Bides e e' := by
  have hq := ht.quiet
  cases ht with
  | shut => exact .of_stands hq (stands_shutChannel hs)
  | reopen hc hj => exact .of_stands hq (stands_startVwtp hs hc (by simp_all [isOnChannel]))
  | close => exact .of_stands hq (stands_requestClose hs)
  | expire =>
    have heq : e.expireSingle = e := by simp [expireSingle, hs]
    rw [heq]
    exact refl hs
  | @single request queued =>
    have htake : Bides e { e with queued } := .of_stands (.of_log rfl) (.of_eq hs rfl id)
    have hstart := startSingle (e := { e with queued }) hs request
    exact htake.trans hstart.log fun _ => hstart
  | pass =>
    refine .of_stands hq ?_
    unfold startPass
    dsimp only
    split <;> exact .of_eq hs rfl id
  | poll => exact pollList hs
  | fail => exact .of_stands hq (stands_failTransmission hs)
  | count | grace | release | arm | take | sent => exact .of_stands hq (.of_eq hs rfl id)

theorem turns (hs : e.single = none) (ht : Turns e e') : Bides e e' := by
  induction ht with
  | refl => exact .refl hs
  | tail _ ht ih => exact ih.trans (ht.quiet.mono fun _ => Event.IsQuiet.not_isReply) fun hs' => turn hs' ht

/-- What comes after the work of an operation. -/
theorem then_turns (h : Bides e e') (ht : Turns e' e'') : Bides e e'' :=
  h.trans (ht.quiet.mono fun _ => Event.IsQuiet.not_isReply) fun hs => turns hs ht

theorem settle (h : Bides e e') : Bides e e'.settle := h.then_turns (Turns.refl e').settle

/-- What is no frame leaves the response where it stands. -/
theorem step (hs : e.single = none) (hop : ∀ frame, op ≠ .frame frame) : Bides e (e.step op) := by
  have hadjust {e' : Engine} (hs' : e'.single = none) (hj : e'.job = e.job) (hc : e'.channel = e.channel)
      (hl : e'.log = e.log) : Bides e e' :=
    .of_stands (.of_log hl) (.of_eq hs' (by rw [hj]) fun h => by rw [← hc]; exact h)
  cases op with
  | frame frame => exact absurd rfl (hop frame)
  | tick primary =>
    cases primary with
    | false =>
      have hready : Bides e { e with schedule := e.schedule.resetSequence } := hadjust hs rfl rfl rfl
      exact hready.then_turns ((Turns.refl _).pollSend false).settle
    | true =>
      have hready : Bides e { e.emit (.stateTicker e.bus) with schedule := e.schedule.resetSequence } :=
        .of_stands ⟨[_], rfl, by simp [Event.IsQuiet]⟩ (.of_eq hs rfl id)
      exact hready.then_turns ((Turns.refl _).pollSend true).settle
  | txComplete frame success => exact (refl hs).then_turns ((Turns.refl e).judgeResult frame success).settle
  | sendSuccess =>
    have hdue : Bides e { e with successDue := none } := hadjust hs rfl rfl rfl
    show Bides e e.sendSuccess
    unfold sendSuccess
    split
    · dsimp only
      split
      · exact hdue.then_turns ((Turns.refl _).pollSend false).settle
      · exact hdue.settle
    · exact refl hs
  | submit request =>
    have hq : Bides e { e with queued := e.queued ++ [request] } := hadjust hs rfl rfl rfl
    exact hq.settle
  | setList list defaultBus =>
    show Bides e (e.setList list defaultBus)
    rw [setList_periodic hs]
    exact hadjust hs rfl rfl rfl
  | setState state =>
    show Bides e (e.setState state)
    unfold setState
    dsimp only
    split <;> exact hadjust hs rfl rfl rfl
  | shutdown =>
    refine ⟨(silent_shutdown e).mono fun _ => Event.IsSilent.not_isReply, .inr ?_⟩
    exact stands_shutdown hs
  | _ => exact hadjust hs rfl rfl rfl

end Bides

/-! ### What an operation makes of a response -/

/-- These are the replies, and unless another poll begins, `P` holds then. -/
structure HandsOut (e e' : Engine) (rs : List Reply) (P : Engine → Prop) : Prop where
  replies : repliesSince e e' = rs
  grows : e.log <:+ e'.log
  next : Shows (·.beginsPoll = true) e e' ∨ P e'

namespace HandsOut
variable {P : Engine → Prop} {d : Engine} {rs : List Reply}

theorem of_bides (hr : repliesSince e d = rs) (hg : e.log <:+ d.log) (hb : Bides d e') (hP : Stands d e' → P e') :
    HandsOut e e' rs P where
  replies := by rw [repliesSince_trans hg hb.log.suffix, hr, repliesSince_of_adds hb.log, List.append_nil]
  grows := hg.trans hb.log.suffix
  next := hb.stands.imp (.of_grows hg) hP

theorem run_cons (h : HandsOut e (e.step op) rs P) (ops : List Operation) :
    repliesSince e (e.run (op :: ops)) = rs ++ repliesSince (e.step op) ((e.step op).run ops) := by
  rw [← h.replies]
  exact repliesSince_trans h.grows (Grows.run _ ops).log

end HandsOut

end Engine

end EcuPoll
