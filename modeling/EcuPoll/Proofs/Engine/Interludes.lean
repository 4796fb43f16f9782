import EcuPoll.Proofs.Engine.Accounts
import EcuPoll.Proofs.Engine.Aftermath

/-!
# Lists and states that change during a single request

While a single request has the bus, a new list is only put aside and a new poll state is only selected; both
take effect when the request ends. The schedule should then be as if they had been called directly
(`Schedule.follow`). It is, unless the poll state has changed and come back in between (`Schedule.ComesBack`):
then the list goes on where it stood, and does not restart.
-/

namespace EcuPoll

namespace Schedule
variable {start s : Schedule} {ops : List Operation} {saved : Snapshot} {state : Nat}

/-- What an operation does to a schedule directly. -/
def apply (s : Schedule) : Operation → Schedule
  | .setList list defaultBus => s.setList list defaultBus
  | .setState state => s.setState state
  | _ => s

def follow (s : Schedule) (ops : List Operation) : Schedule :=
  ops.foldl apply s

theorem follow_snoc (s : Schedule) (ops : List Operation) (op : Operation) :
    s.follow (ops ++ [op]) = (s.follow ops).apply op := by
  simp [follow]

/-- The list has not begun. -/
def Snapshot.AtStart (p : Snapshot) : Prop :=
  p.cursor = 0 ∧ p.ticker = 0 ∧ p.passComplete = false

theorem Snapshot.AtStart.eq {p q : Snapshot} (hp : p.AtStart) (hq : q.AtStart) (hl : p.list = q.list)
    (hb : p.defaultBus = q.defaultBus) (hs : p.state = q.state) : p = q := by
  obtain ⟨hc, ht, hp⟩ := hp
  obtain ⟨hc', ht', hp'⟩ := hq
  cases p
  cases q
  simp_all

theorem setState_same (h : clampState state = s.state) : s.setState state = s := if_pos h

/-- A change of the poll state restarts the list. -/
theorem atStart_setState (h : s.snapshot.AtStart ∨ clampState state ≠ s.state) :
    (s.setState state).snapshot.AtStart := by
  by_cases hs : clampState state = s.state
  · rw [setState_same hs]
    exact h.resolve_right (not_not_intro hs)
  · rw [setState, if_neg hs]
    exact ⟨rfl, rfl, rfl⟩

theorem atStart_restore {p : Snapshot} (h : p.AtStart ∨ p.state ≠ s.state) : (s.restore p).snapshot.AtStart := by
  by_cases hs : p.state = s.state
  · rw [snapshot_restore hs]
    exact h.resolve_right (not_not_intro hs)
  · rw [restore, if_neg hs]
    exact ⟨rfl, rfl, rfl⟩

/-- In a list that has begun and is not replaced, the poll state changes and comes back. -/
structure ComesBack (start : Schedule) (ops : List Operation) : Prop where
  begun : ¬ start.snapshot.AtStart
  kept : ∀ list defaultBus, .setList list defaultBus ∉ ops
  changed : ∃ state, .setState state ∈ ops ∧ clampState state ≠ start.state
  back : (start.follow ops).state = start.state

/-- The place that is put aside, next to where the operations would have led directly. -/
inductive Parked (start : Schedule) (ops : List Operation) (saved : Snapshot) : Prop
  | unchanged (hs : saved = start.snapshot) (hf : start.follow ops = start)
    (hk : ∀ list defaultBus, .setList list defaultBus ∉ ops)
    (hc : ∀ state, .setState state ∈ ops → clampState state = start.state)
  /-- The poll state has changed. -/
  | changed (hs : saved = start.snapshot) (hl : (start.follow ops).list = start.list)
    (hb : (start.follow ops).defaultBus = start.defaultBus) (hf : (start.follow ops).snapshot.AtStart)
    (hk : ∀ list defaultBus, .setList list defaultBus ∉ ops)
    (hc : ∃ state, .setState state ∈ ops ∧ clampState state ≠ start.state)
  /-- There is a new list. -/
  | renewed (hl : saved.list = (start.follow ops).list) (hb : saved.defaultBus = (start.follow ops).defaultBus)
    (hs : saved.AtStart) (hf : (start.follow ops).snapshot.AtStart)
    (hn : ∃ list defaultBus, .setList list defaultBus ∈ ops)

namespace Parked

theorem nil (s : Schedule) : Parked s [] s.snapshot :=
  .unchanged rfl rfl (fun _ _ => List.not_mem_nil) fun _ h => absurd h List.not_mem_nil

theorem setList (start : Schedule) (ops : List Operation) (list : Option (List PollEntry))
    (defaultBus : Option BusId) (state : Nat) :
    Parked start (ops ++ [.setList list defaultBus]) (.atStart list defaultBus state) := by
  refine .renewed ?_ ?_ ⟨rfl, rfl, rfl⟩ ?_ ⟨list, defaultBus, by simp⟩ <;> rw [follow_snoc]
  · rfl
  · rfl
  · exact ⟨rfl, rfl, rfl⟩

theorem setState (h : Parked start ops saved) (state : Nat) : Parked start (ops ++ [.setState state]) saved := by
  have hfollow : start.follow (ops ++ [.setState state]) = (start.follow ops).setState state := follow_snoc ..
  cases h with
  | unchanged hs hf hk hc =>
    by_cases hst : clampState state = start.state
    · refine .unchanged hs ?_ (by simpa using hk) fun state' hmem => ?_
      · rw [hfollow, hf, setState_same hst]
      · rcases List.mem_append.1 hmem with hmem | hmem
        · exact hc state' hmem
        · obtain rfl : state' = state := by simpa using hmem
          exact hst
    · rw [hf] at hfollow
      refine .changed hs ?_ ?_ ?_ (by simpa using hk) ⟨state, by simp, hst⟩ <;> rw [hfollow]
      · exact list_setState start state
      · exact defaultBus_setState start state
      · exact atStart_setState (.inr hst)
  | changed hs hl hb hf hk hc =>
    obtain ⟨state', hmem, hne⟩ := hc
    refine .changed hs ?_ ?_ ?_ (by simpa using hk) ⟨state', List.mem_append_left _ hmem, hne⟩ <;> rw [hfollow]
    · rw [list_setState, hl]
    · rw [defaultBus_setState, hb]
    · exact atStart_setState (.inl hf)
  | renewed hl hb hs hf hn =>
    obtain ⟨list, defaultBus, hmem⟩ := hn
    refine .renewed ?_ ?_ hs ?_ ⟨list, defaultBus, List.mem_append_left _ hmem⟩ <;> rw [hfollow]
    · rw [list_setState, hl]
    · rw [defaultBus_setState, hb]
    · exact atStart_setState (.inl hf)

/-- All other operations are none of the schedule's business. -/
theorem other (h : Parked start ops saved) {op : Operation}
    (hl : ∀ list defaultBus, op ≠ .setList list defaultBus) (hs : ∀ state, op ≠ .setState state) :
    Parked start (ops ++ [op]) saved := by
  have hfollow : start.follow (ops ++ [op]) = start.follow ops := by
    rw [follow_snoc]
    cases op with
    | setList list defaultBus => exact absurd rfl (hl list defaultBus)
    | setState state => exact absurd rfl (hs state)
    | _ => rfl
  have hlists : ∀ list defaultBus, .setList list defaultBus ∈ ops ++ [op] ↔ .setList list defaultBus ∈ ops :=
    fun list defaultBus => by simp [(hl list defaultBus).symm]
  have hstates : ∀ state, .setState state ∈ ops ++ [op] ↔ .setState state ∈ ops :=
    fun state => by simp [(hs state).symm]
  cases h with
  | unchanged hs hf hk hc =>
    exact .unchanged hs (hfollow.trans hf) (by simpa only [hlists] using hk) (by simpa only [hstates] using hc)
  | changed hs hl hb hf hk hc =>
    rw [← hfollow] at hl hb hf
    exact .changed hs hl hb hf (by simpa only [hlists] using hk) (by simpa only [hstates] using hc)
  | renewed hl hb hs hf hn =>
    rw [← hfollow] at hl hb hf
    exact .renewed hl hb hs hf (by simpa only [hlists] using hn)

/-- The place is taken up again as if all had been called directly, unless the poll state has come back. -/
theorem snapshot_restore_iff (h : Parked start ops saved) (hs : s.state = (start.follow ops).state) :
    (s.restore saved).snapshot = (start.follow ops).snapshot ↔ ¬ ComesBack start ops := by
  have hstate : (s.restore saved).snapshot.state = (start.follow ops).snapshot.state :=
    (state_restore s saved).trans hs
  cases h with
  | unchanged hsaved hf hk hc =>
    rw [hf] at hs ⊢
    refine iff_of_true ?_ fun ⟨_, _, ⟨state, hmem, hne⟩, _⟩ => hne (hc state hmem)
    rw [snapshot_restore (by rw [hsaved]; exact hs.symm), hsaved]
  | changed hsaved hl hb hf hk hc =>
    have hlist : (s.restore saved).snapshot.list = (start.follow ops).snapshot.list := by
      show (s.restore saved).list = _
      rw [list_restore, hsaved]
      exact hl.symm
    have hbus : (s.restore saved).snapshot.defaultBus = (start.follow ops).snapshot.defaultBus := by
      show (s.restore saved).defaultBus = _
      rw [defaultBus_restore, hsaved]
      exact hb.symm
    -- only the last poll state is compared with the one that was saved
    by_cases hback : (start.follow ops).state = start.state
    · have hsame : saved.state = s.state := by rw [hsaved, hs, hback]; rfl
      constructor
      · intro heq hcomes
        rw [snapshot_restore hsame, hsaved] at heq
        exact hcomes.begun (heq ▸ hf)
      · intro hno
        have hstart : start.snapshot.AtStart := Classical.not_not.1 fun hbegun => hno ⟨hbegun, hk, hc, hback⟩
        exact (atStart_restore (.inl (hsaved ▸ hstart))).eq hf hlist hbus hstate
    · refine iff_of_true ?_ fun hcomes => hback hcomes.back
      refine (atStart_restore (.inr ?_)).eq hf hlist hbus hstate
      rw [hsaved, hs]
      exact Ne.symm hback
  | renewed hl hb hsaved hf hn =>
    obtain ⟨list, defaultBus, hmem⟩ := hn
    refine iff_of_true ?_ fun hcomes => hcomes.kept list defaultBus hmem
    exact (atStart_restore (.inl hsaved)).eq hf ((list_restore s saved).trans hl)
      ((defaultBus_restore s saved).trans hb) hstate

end Parked

end Schedule

namespace Engine
variable {stray : Prop} {e e' e'' : Engine} {start : Schedule} {ops : List Operation}

/-! ### What one move does -/

/-- The single request keeps the bus, if one has it, or ends and the list is taken up again. -/
inductive Yields (e e' : Engine) : Prop
  | keeps (hs : e'.single.map (·.saved) = e.single.map (·.saved)) (hst : e'.schedule.state = e.schedule.state)
  | ends {capture : Capture} (hc : e.single = some capture) (hs : e'.single = none)
    (hr : e'.schedule = e.schedule.restore capture.saved)
    (hl : Shows (fun event => event.resolved?.isSome = true) e e')

namespace Yields

theorem of_eq (hs : e'.single = e.single) (hst : e'.schedule.state = e.schedule.state) : Yields e e' :=
  .keeps (by rw [hs]) hst

theorem of_works (hw : Works e e') : Yields e e' := .of_eq hw.single (by rw [hw.schedule])

/-- What comes before leaves the single request and the schedule alone. -/
theorem before (h : Yields e' e'') (hs : e'.single = e.single) (hsched : e'.schedule = e.schedule)
    (hg : e.log <:+ e'.log) : Yields e e'' := by
  cases h with
  | keeps hs' hst => exact .keeps (hs' ▸ hs ▸ rfl) (hst.trans (by rw [hsched]))
  | ends hc hs' hr hl => exact .ends (hs.symm.trans hc) hs' (hr.trans (by rw [hsched])) (Shows.of_grows hg hl)

theorem works (h : Yields e' e'') (hw : Works e e') : Yields e e'' :=
  let ⟨new, hnew, _⟩ := hw.log
  h.before hw.single hw.schedule ⟨new, hnew.symm⟩

theorem finishSingle (e : Engine) (result : SingleResult) : Yields e (e.finishSingle result) := by
  unfold Engine.finishSingle
  cases hc : e.single with
  | none => exact .of_eq rfl rfl
  | some _ =>
    exact .ends hc rfl rfl ⟨[_], rfl, _, List.mem_singleton.2 rfl, rfl⟩

theorem deliverReply (e : Engine) (data : List UInt8) : Yields e (e.deliverReply data) := by
  have hd := deliverReply_delivered e data
  generalize e.deliverReply data = e' at hd ⊢
  cases hd with
  | report => exact .of_eq rfl rfl
  | whole => exact finishSingle ..
  | part hs => exact .keeps (by rw [hs]; rfl) rfl

theorem deliverFailure (e : Engine) (failure : PollFailure) : Yields e (e.deliverFailure failure) := by
  unfold Engine.deliverFailure
  split
  · exact .of_eq rfl rfl
  · exact finishSingle ..

theorem expireSingle (e : Engine) : Yields e e.expireSingle := by
  unfold Engine.expireSingle
  split
  · exact .of_eq rfl rfl
  · split
    · exact finishSingle ..
    · exact .of_eq rfl rfl

theorem failTransmission (e : Engine) : Yields e e.failTransmission := by
  unfold Engine.failTransmission
  split
  · exact (deliverFailure ..).before rfl rfl (List.suffix_refl _)
  · exact (deliverFailure ..).before rfl rfl (List.suffix_refl _)

theorem startVwtp (e : Engine) : Yields e e.startVwtp := by
  have ht := (Works.refl e).touchChannel
  rcases hj : e.job.entry with _ | entry
  · simp only [Engine.startVwtp, hj]
    exact .of_eq rfl rfl
  · have hst := startVwtp_start e hj
    generalize e.startVwtp = e' at hst ⊢
    cases hst with
    | again => exact .of_works ht.requestSetup
    | request => exact .of_works ht.interrupt.sendRequest
    | close => exact .of_works ht.requestClose
    | setup => exact .of_works ht.requestSetup
    | nothing => exact (deliverFailure ..).works ht

theorem dispatch (e : Engine) (entry : PollEntry) : Yields e (e.dispatch entry) := by
  have hg : e.log <:+ (e.assign entry).log := List.suffix_cons ..
  unfold Engine.dispatch
  split
  · exact (startVwtp _).before rfl rfl hg
  · exact (of_works (Works.refl _).startIsoTp).before rfl rfl hg

theorem refuseQueued (e : Engine) : Yields e e.refuseQueued := by
  have h : e.refuseQueued.single = e.single ∧ e.refuseQueued.schedule = e.schedule :=
    refuseQueued_keeps (P := fun e' => e'.single = e.single ∧ e'.schedule = e.schedule) ⟨rfl, rfl⟩ fun _ _ h => h
  exact .of_eq h.1 (congrArg Schedule.state h.2)

theorem startPass (e : Engine) : Yields e e.startPass := by
  have hst : e.schedule.startNextPass.state = e.schedule.state := Schedule.state_startNextPass _
  unfold Engine.startPass
  dsimp only
  split <;> exact .of_eq rfl hst

theorem pollList (hs : e.single = none) : Yields e e.pollList := by
  have hst : e.advance.schedule.state = e.schedule.state := Schedule.next_state _
  unfold Engine.pollList
  cases e.schedule.next.1 with
  | due entry =>
    cases dispatch e.advance entry with
    | keeps hs' hst' => exact .keeps hs' (hst'.trans hst)
    | ends hc => exact absurd (hs.symm.trans hc) (by nofun)
  | passComplete =>
    dsimp only
    split <;> exact .of_eq rfl hst
  | empty => exact .of_eq rfl hst

end Yields

/-- Only a request that starts takes the bus. -/
theorem Turn.yields (h : Turn e e') : Yields e e' ∨ e.single = none ∧ ∃ request queued,
    e' = { e with queued }.startSingle request := by
  have hw := Works.refl e
  cases h with
  | shut => exact .inl (.of_works hw.shutChannel)
  | reopen => exact .inl (.startVwtp e)
  | close => exact .inl (.of_works hw.requestClose)
  | expire => exact .inl (.expireSingle e)
  | @single request queued hs => exact .inr ⟨hs, request, queued, rfl⟩
  | pass => exact .inl (.startPass e)
  | poll _ hs => exact .inl (.pollList hs)
  | fail => exact .inl (.failTransmission e)
  | count | grace | release | arm | take | sent => exact .inl (.of_eq rfl rfl)

theorem Move.yields (h : Move stray e e') : Yields e e' ∨ e.single = none ∧ ∃ request queued,
    e' = { e with queued }.startSingle request := by
  have hw := Works.refl e
  cases h with
  | turn h => exact h.yields
  | refuse => exact .inl (.refuseQueued e)
  | unavailable => exact .inl (.finishSingle ..)
  | reply => exact .inl (.deliverReply ..)
  | failure => exact .inl (.deliverFailure ..)
  | reject => exact .inl (.of_works hw.rejectResponse)
  | allow hj id =>
    refine .inl ?_
    unfold sendFlowControl
    rw [transmit_eq]
    exact .of_eq rfl rfl
  | flow => exact .inl (.of_works (hw.isoTpFlow ..))
  | lose => exact .inl (.of_works hw.loseChannel)
  | shut => exact .inl (.of_works hw.shutChannel)
  | close => exact .inl (.of_works hw.requestClose)
  | params => exact .inl (.of_works hw.requestParams)
  | request => exact .inl (.of_works hw.sendRequest)
  | setup => exact .inl (.of_works hw.requestSetup)
  | block => exact .inl (.of_works hw.sendBlock)
  | await => exact .inl (.of_works hw.awaitResponse)
  | abort => exact .inl (.of_works hw.abortTransfer)
  | idle => exact .inl (.of_works hw.goIdle)
  | ack => exact .inl (.of_works hw.sendAck)
  | pong => exact .inl (.of_works hw.sendPong)
  | refuseData => exact .inl (.of_works hw.refuseData)
  | throttle | begin | elapse | adjust | disarm | halt | progress | assignIds | agree | drop | receive =>
    exact .inl (.of_eq rfl rfl)

/-! ### The time of a single request -/

/-- A piece of what an engine does in an operation. -/
inductive Act (e : Engine) : Engine → Prop
  | move {stray : Prop} {e' : Engine} (h : Move stray e e') : Act e e'
  /-- Another single request is handed in. -/
  | queue (queued : List SingleRequest) : Act e { e with queued }
  -- the rest of the start of a single request
  | advance : Act e e.advance
  | dispatch (entry : PollEntry) : Act e (e.dispatch entry)
  | finish (result : SingleResult) : Act e (e.finishSingle result)

theorem Act.yields (h : Act e e') : Yields e e' ∨ e.single = none ∧ ∃ request queued,
    e' = { e with queued }.startSingle request := by
  cases h with
  | move h => exact h.yields
  | queue => exact .inl (.of_eq rfl rfl)
  | advance => exact .inl (.of_eq rfl (Schedule.next_state _))
  | dispatch entry => exact .inl (.dispatch e entry)
  | finish result => exact .inl (.finishSingle e result)

/-- A single request took the bus when the schedule was `start` and still has it. The operations are those since
then. -/
inductive Interlude (start : Schedule) : List Operation → Engine → Prop
  | capture {e : Engine} (hs : e.single = none) (heq : e.schedule = start) (request : SingleRequest) :
    Interlude start [] (e.capture request)
  /-- Within an operation. -/
  | act {ops : List Operation} {e e' : Engine} (h : Interlude start ops e) (ha : Act e e')
    (hs : e'.single.isSome = true) : Interlude start ops e'
  /-- A whole operation during which no single request is resolved. -/
  | step {ops : List Operation} {e : Engine} (h : Interlude start ops e) (op : Operation)
    (hn : Adds (·.resolved? = none) e (e.step op)) : Interlude start (ops ++ [op]) (e.step op)

/-- If no single request is resolved, the one that has the bus keeps it. -/
theorem Moves.keeps {saved : Schedule.Snapshot} (h : Moves stray e e') (hc : e.single.map (·.saved) = some saved)
    (hn : Adds (·.resolved? = none) e e') :
    e'.single.map (·.saved) = some saved ∧ e'.schedule.state = e.schedule.state := by
  induction h with
  | refl => exact ⟨hc, rfl⟩
  | @tail e₁ e₂ h hm ih =>
    obtain ⟨hfirst, hlast⟩ := hn.split (Grows.moves h).log (Grows.move hm).log
    obtain ⟨hs, hst⟩ := ih hfirst
    rcases hm.yields with hy | ⟨hnone, -⟩
    · cases hy with
      | keeps hs' hst' => exact ⟨hs'.trans hs, hst'.trans hst⟩
      | ends _ _ _ hl =>
        exact absurd hlast (hl.not_adds fun event hsome hnone => by simp [hnone] at hsome)
    · rw [hnone] at hs
      cases hs

/-- The list is put aside at this place, for the end of the single request that has the bus. -/
structure Parks (start : Schedule) (ops : List Operation) (saved : Schedule.Snapshot) (e : Engine) : Prop where
  saved_eq : e.single.map (·.saved) = some saved
  state_eq : e.schedule.state = (start.follow ops).state
  parked : Schedule.Parked start ops saved

namespace Parks
variable {saved : Schedule.Snapshot} {op : Operation}

theorem isSome (h : Parks start ops saved e) : e.single.isSome = true := by
  rw [← Option.isSome_map, h.saved_eq]
  rfl

theorem act (h : Parks start ops saved e) (ha : Act e e') (hs : e'.single.isSome = true) :
    Parks start ops saved e' := by
  rcases ha.yields with hy | ⟨hnone, -⟩
  · cases hy with
    | keeps hs' hst => exact ⟨hs'.trans h.saved_eq, hst.trans h.state_eq, h.parked⟩
    | ends _ hnone => simp [hnone] at hs
  · simpa [hnone] using h.isSome

theorem setList (h : Parks start ops saved e) (list : Option (List PollEntry)) (defaultBus : Option BusId) :
    Parks start (ops ++ [.setList list defaultBus]) (.atStart list defaultBus e.schedule.state)
      (e.step (.setList list defaultBus)) := by
  obtain ⟨capture, hc⟩ := Option.isSome_iff_exists.1 h.isSome
  have heq : e.step (.setList list defaultBus) = { e with
      single := some { capture with saved := .atStart list defaultBus e.schedule.state } } := by
    show e.setList list defaultBus = _
    simp only [Engine.setList, hc]
  rw [heq]
  refine ⟨rfl, ?_, .setList ..⟩
  rw [Schedule.follow_snoc]
  exact h.state_eq

theorem setState (h : Parks start ops saved e) (state : Nat) :
    Parks start (ops ++ [.setState state]) saved (e.step (.setState state)) := by
  have heq : e.step (.setState state) = { e with schedule := e.schedule.setState state } := by
    refine if_neg fun hno => ?_
    have hnone : e.single = none := Option.isNone_iff_eq_none.1 hno.2
    simpa [hnone] using h.isSome
  rw [heq]
  refine ⟨h.saved_eq, ?_, h.parked.setState state⟩
  rw [Schedule.follow_snoc]
  -- what comes of the poll state depends on nothing else in the schedule
  show (e.schedule.setState state).state = ((start.follow ops).setState state).state
  rw [Schedule.state_setState, Schedule.state_setState]

/-- The other operations leave what is put aside alone, if they resolve no single request. -/
theorem other (h : Parks start ops saved e) (hl : ∀ list defaultBus, op ≠ .setList list defaultBus)
    (hs : ∀ state, op ≠ .setState state) (hm : Moves stray e e') (hn : Adds (·.resolved? = none) e e') :
    Parks start (ops ++ [op]) saved e' := by
  obtain ⟨hkeep, hst⟩ := hm.keeps h.saved_eq hn
  refine ⟨hkeep, ?_, h.parked.other hl hs⟩
  rw [Schedule.follow_snoc, hst, h.state_eq]
  cases op with
  | setList list defaultBus => exact absurd rfl (hl list defaultBus)
  | setState state => exact absurd rfl (hs state)
  | _ => rfl

end Parks

namespace Interlude

theorem parks (h : Interlude start ops e) : ∃ saved, Parks start ops saved e := by
  induction h with
  | @capture e hs heq request =>
    subst heq
    exact ⟨e.schedule.snapshot, rfl, rfl, .nil _⟩
  | act h ha hs ih =>
    obtain ⟨saved, hp⟩ := ih
    exact ⟨saved, hp.act ha hs⟩
  | @step ops e h op hn ih =>
    obtain ⟨saved, hp⟩ := ih
    cases op with
    | setList list defaultBus => exact ⟨_, hp.setList list defaultBus⟩
    | setState state => exact ⟨saved, hp.setState state⟩
    | submit request =>
      -- a request that is handed in waits in the queue first
      have hq : Parks start ops saved { e with queued := e.queued ++ [request] } := ⟨hp.1, hp.2, hp.3⟩
      exact ⟨saved, hq.other (by simp) (by simp) (@submit_moves False e request) hn⟩
    | _ => exact ⟨saved, hp.other (by simp) (by simp) (step_moves e (by simp) (by simp) (by simp)) hn⟩

theorem moves (h : Interlude start ops e) (hm : Moves stray e e') : Interlude start ops e' ∨
    ∃ e₁ e₂, Interlude start ops e₁ ∧ Act e₁ e₂ ∧ e₂.single = none ∧ Moves stray e₂ e' := by
  induction hm with
  | refl => exact .inl h
  | @tail e₁ e₂ _ hm ih =>
    rcases ih with hi | ⟨e₃, e₄, hi, ha, hs, hrest⟩
    · cases hs : e₂.single with
      | some capture => exact .inl (hi.act (.move hm) (by rw [hs]; rfl))
      | none => exact .inr ⟨e₁, e₂, hi, .move hm, hs, .refl e₂⟩
    · exact .inr ⟨e₃, e₄, hi, ha, hs, hrest.move hm⟩

/-- However a single request ends in an operation, there is a moment at which it does. -/
theorem step_cases (h : Interlude start ops e) (op : Operation) : (∃ ops', Interlude start ops' (e.step op)) ∨
    ∃ e₁ e₂, Interlude start ops e₁ ∧ Act e₁ e₂ ∧ e₂.single = none ∧ e₂.log <:+ (e.step op).log := by
  have hmoves : ∀ {stray e'}, Interlude start ops e' → Moves stray e' (e.step op) →
      (∃ ops', Interlude start ops' (e.step op)) ∨
        ∃ e₁ e₂, Interlude start ops e₁ ∧ Act e₁ e₂ ∧ e₂.single = none ∧ e₂.log <:+ (e.step op).log := by
    intro stray e' hi hm
    rcases hi.moves hm with hi | ⟨e₁, e₂, hi, ha, hs, hrest⟩
    · exact .inl ⟨ops, hi⟩
    · exact .inr ⟨e₁, e₂, hi, ha, hs, (Grows.moves hrest).log⟩
  cases op with
  | setList list defaultBus => exact .inl ⟨_, h.step _ (.of_log (log_setList ..))⟩
  | setState state => exact .inl ⟨_, h.step _ (.of_log (log_setState ..))⟩
  | submit request =>
    obtain ⟨saved, hp⟩ := h.parks
    exact hmoves (h.act (.queue (e.queued ++ [request])) hp.isSome) (@submit_moves False e request)
  | _ => exact hmoves h (step_moves e (by simp) (by simp) (by simp))

end Interlude

/-! ### Every run -/

theorem interlude_startSingle (hs : e.single = none) {request : SingleRequest}
    (hk : (e.startSingle request).single.isSome = true) :
    Interlude e.schedule [] (e.startSingle request) := by
  have hc : Interlude e.schedule [] (e.capture request).advance :=
    (Interlude.capture hs rfl request).act .advance rfl
  unfold startSingle at hk ⊢
  by_cases hg : request.isGone e.now = true
  · rw [if_pos hg] at hk
    rw [show (e.emit (.singleDropped request.ticket)).single = none from hs] at hk
    cases hk
  · rw [if_neg hg] at hk
    rw [if_neg hg]
    dsimp only at hk ⊢
    split at hk
    · exact hc.act (.dispatch _) hk
    · rw [single_finishSingle] at hk
      cases hk

/-- If a single request has the bus, it took it some time. -/
def Explained (e : Engine) : Prop :=
  e.single.isSome = true → ∃ start ops, Interlude start ops e

namespace Explained

theorem move (h : e.Explained) (hm : Move stray e e') : e'.Explained := by
  intro hk
  cases hs : e.single with
  | some capture =>
    obtain ⟨start, ops, hi⟩ := h (by rw [hs]; rfl)
    exact ⟨start, ops, hi.act (.move hm) hk⟩
  | none =>
    rcases hm.yields with hy | ⟨-, request, queued, rfl⟩
    · cases hy with
      | keeps hs' =>
        rw [hs, Option.map_none, Option.map_eq_none_iff] at hs'
        rw [hs'] at hk
        cases hk
      | ends hc => exact absurd (hs.symm.trans hc) (by nofun)
    · exact ⟨_, _, interlude_startSingle (e := { e with queued }) hs hk⟩

theorem moves (h : e.Explained) (hm : Moves stray e e') : e'.Explained := by
  induction hm with
  | refl => exact h
  | tail _ hm ih => exact ih.move hm

theorem step (h : e.Explained) (op : Operation) : (e.step op).Explained := by
  have hcall : (e.step op).log = e.log → (e.step op).single.isSome = e.single.isSome →
      (e.step op).Explained := by
    intro hlog hsome hk
    obtain ⟨start, ops, hi⟩ := h (hsome ▸ hk)
    exact ⟨start, _, hi.step op (.of_log hlog)⟩
  cases op with
  | setList list defaultBus => exact hcall (log_setList ..) (isSome_single_setList ..)
  | setState state => exact hcall (log_setState ..) (congrArg Option.isSome (single_setState ..))
  | submit request =>
    have hq : Explained { e with queued := e.queued ++ [request] } := fun hk =>
      let ⟨start, ops, hi⟩ := h hk
      ⟨start, ops, hi.act (.queue _) hk⟩
    exact hq.moves (@submit_moves False e request)
  | _ => exact h.moves (step_moves e (by simp) (by simp) (by simp))

end Explained

/-- Whenever a single request has the bus, its interlude began at some place of the schedule. -/
theorem Reached.interlude (hr : e.Reached) (hs : e.single.isSome = true) : ∃ start ops, Interlude start ops e := by
  obtain ⟨bus, name, reports, settings, ops, rfl⟩ := hr
  have hrun : ∀ (ops : List Operation) (e : Engine), e.Explained → (e.run ops).Explained := by
    intro ops
    induction ops with
    | nil => exact fun _ h => h
    | cons op ops ih => exact fun _ h => ih _ (h.step op)
  exact hrun ops (Engine.new bus name reports settings) nofun hs

/-- When the single request ends, the list goes on as if every new list and poll state had been called directly
on the schedule that it began with, unless the poll state has changed and come back. -/
theorem resumes_iff (h : Interlude start ops e) (ha : Act e e') (hs : e'.single = none) :
    e'.schedule.snapshot = (start.follow ops).snapshot ↔ ¬ start.ComesBack ops := by
  obtain ⟨saved, hp⟩ := h.parks
  rcases ha.yields with hy | ⟨hnone, -⟩
  · cases hy with
    | keeps hs' => simp [hs, hp.saved_eq] at hs'
    | @ends capture hc _ hr =>
      have hsaved : capture.saved = saved := by simpa [hc] using hp.saved_eq
      rw [hr, hsaved]
      exact hp.parked.snapshot_restore_iff hp.state_eq
  · simpa [hnone] using hp.isSome

/-- A single request takes the bus in the middle of the list, the poll state changes, and the request ends: when the
engine is shut down, and, as it is the case of every single request in a run, when it is answered in an operation. -/
theorem resumes_example :
    let bus : BusId := ⟨1, by decide⟩
    let ident : PollEntry := ⟨0x7e0, 0x7e8, 0x22, 0xf187, [], #v[1, 1, 1, 1], 1, .isoTp⟩
    let version : PollEntry := ⟨0x7e0, 0x7e8, 0x22, 0xf188, [], #v[1, 1, 1, 1], 1, .isoTp⟩
    let speed : PollEntry := ⟨0x7e1, 0x7e9, 0x22, 0xf40d, [], #v[999, 999, 999, 999], 1, .isoTp⟩
    let e := (Engine.new bus "ecu" false ⟨0, 25, .strict, 0, 0⟩).run
      [.setList (some [ident, version]) none, .tick true]
    let held := (e.startSingle ⟨1, speed, 3000, none⟩).step (.setState 1)
    let ended := held.finishSingle (.error .unavailable)
    let asked := (e.step (.submit ⟨1, speed, 3000, none⟩)).step (.setState 1)
    let answered := asked.step (.frame (EcuFrame.single bus 0x7e9 [0x62, 0xf4, 0x0d, 0x11]))
    (Interlude e.schedule [.setState 1] held ∧ Act held ended ∧ ended.single = none) ∧
      ended.schedule.snapshot = (e.schedule.follow [.setState 1]).snapshot ∧
      ∃ start ops e₁ e₂, Interlude start ops asked ∧ Interlude start ops e₁ ∧ Act e₁ e₂ ∧ e₂.single = none ∧
        e₂.log <:+ answered.log ∧
        (e₂.schedule.snapshot = (start.follow ops).snapshot ↔ ¬ start.ComesBack ops) := by
  intro bus ident version speed e held ended asked answered
  have hs : e.single = none := by decide
  have hk : (e.startSingle ⟨1, speed, 3000, none⟩).single.isSome = true := by decide
  have hback : (e.schedule.follow [.setState 1]).state ≠ e.schedule.state := by decide
  have hasked : asked.single.isSome = true := by decide
  have hanswered : answered.single = none := by decide
  have hr : e.Reached := ⟨bus, "ecu", false, ⟨0, 25, .strict, 0, 0⟩, _, rfl⟩
  clear_value e
  have hr : asked.Reached := (hr.step _).step _
  have hi : Interlude e.schedule [.setState 1] held :=
    (interlude_startSingle hs hk).step (.setState 1) (.of_log (log_setState ..))
  have ha : Act held ended := .finish _
  have hend : ended.single = none := single_finishSingle ..
  refine ⟨⟨hi, ha, hend⟩, (resumes_iff hi ha hend).2 fun hcomes => hback hcomes.back, ?_⟩
  obtain ⟨start, ops, hasks⟩ := hr.interlude hasked
  rcases hasks.step_cases (.frame (EcuFrame.single bus 0x7e9 [0x62, 0xf4, 0x0d, 0x11])) with ⟨ops', hon⟩ |
    ⟨e₁, e₂, hi₁, ha₁, hend₁, hlog⟩
  · obtain ⟨saved, hp⟩ := hon.parks
    have hsome : answered.single.isSome = true := hp.isSome
    rw [hanswered] at hsome
    cases hsome
  · exact ⟨start, ops, e₁, e₂, hasks, hi₁, ha₁, hend₁, hlog, resumes_iff hi₁ ha₁ hend₁⟩

/-- The poll state changes and comes back before the single request is answered. The list goes on where it
stood. -/
theorem not_resumed_example :
    let bus : BusId := ⟨1, by decide⟩
    let ident : PollEntry := ⟨0x7e0, 0x7e8, 0x22, 0xf187, [], #v[1, 1, 1, 1], 1, .isoTp⟩
    let version : PollEntry := ⟨0x7e0, 0x7e8, 0x22, 0xf188, [], #v[1, 1, 1, 1], 1, .isoTp⟩
    let speed : PollEntry := ⟨0x7e1, 0x7e9, 0x22, 0xf40d, [], #v[999, 999, 999, 999], 1, .isoTp⟩
    let e := (Engine.new bus "ecu" false ⟨0, 25, .strict, 0, 0⟩).run
      [.setList (some [ident, version]) none, .tick true]
    let calls : List Operation := [.setState 1, .setState 0]
    let held := (e.step (.submit ⟨1, speed, 3000, none⟩)).run (.setPaused true :: calls)
    let ended := held.step (.frame (EcuFrame.single bus 0x7e9 [0x62, 0xf4, 0x0d, 0x11]))
    e.single = none ∧ held.single.isSome = true ∧ ended.single = none ∧
      ended.schedule.snapshot ≠ (e.schedule.follow calls).snapshot := by
  decide

end Engine

end EcuPoll
