import EcuPoll.Proofs.Engine.Deeds
import EcuPoll.Proofs.Poll.Places
import EcuPoll.Proofs.Vwtp.Beside

/-!
# The end of a pass

A pass over the list ends when nothing more in it is due, which is reported at once, or when a primary tick finds
the cursor behind the last entry, which is reported as the ticker moves on. Either way the receiver of
results sees the polls of the pass and then, once, its end: `PassMark` lists what it sees, `Schedule.passMarks` all of a
pass. A single request that has the bus puts the list aside; `resumption` is the place where it will go on.
`Completes e n e'` says that from `e` to `e'` the ticker has moved on by `n`, and that what was seen is the rest of the
pass in progress, whole passes after it, and the part of the last one up to where the list stands. All deeds keep
this with `n = 0`; only `startPass` moves the ticker.
-/

namespace EcuPoll

/-- What the receiver of results sees of a pass. -/
inductive PassMark
  | poll (ticker : Nat) (entry : PollEntry)
  | finished
deriving DecidableEq, Repr

def Event.passMark? : Event → Option PassMark
  | .dispatched entry ticker none => some (.poll ticker entry)
  | .passFinished _ => some .finished
  | _ => none

/-- What was seen of passes, oldest first, in a log with the newest event first. -/
def marks (log : List Stamped) : List PassMark :=
  log.reverse.filterMap (·.event.passMark?)

theorem marks_append (new log : List Stamped) : marks (new ++ log) = marks log ++ marks new := by
  simp [marks]

theorem marks_eq_nil {new : List Stamped} (h : ∀ s ∈ new, s.event.passMark? = none) : marks new = [] := by
  simpa [marks] using h

theorem Event.IsNote.passMark? {event : Event} (h : event.IsNote) : event.passMark? = none := by
  cases event <;> first | rfl | exact h.elim

namespace Schedule
variable {bus : BusId} {list : List PollEntry} {defaultBus : Option BusId} {state : Nat} {s : Schedule}

/-- What is seen of polls. -/
def pollMarks (polls : List (Nat × PollEntry)) : List PassMark :=
  polls.map fun p => .poll p.1 p.2

theorem count_pollMarks (polls : List (Nat × PollEntry)) : (pollMarks polls).count .finished = 0 := by
  simp [pollMarks, List.count_eq_zero]

/-- What is seen of pass `pass` over the list: what it polls, and its end. -/
def passMarks (bus : BusId) (list : List PollEntry) (defaultBus : Option BusId) (state pass : Nat) :
    List PassMark :=
  pollMarks (passPolls bus list defaultBus state pass) ++ [.finished]

theorem polls_mod (pass k : Nat) (entry : PollEntry) : Polls bus defaultBus state (pass % tickerWrap + k) entry ↔
    Polls bus defaultBus state (pass + k) entry := by
  simp only [Polls, Nat.mod_add_mod]

theorem passMarks_mod (pass k : Nat) : passMarks bus list defaultBus state (pass % tickerWrap + k) =
    passMarks bus list defaultBus state (pass + k) := by
  simp only [passMarks, passPolls, polls_mod, Nat.mod_add_mod]

namespace Snapshot

/-- What has been seen of the pass in progress. -/
def heard (bus : BusId) (p : Snapshot) : List PassMark :=
  pollMarks (passPolls bus ((p.list.getD []).take p.cursor) p.defaultBus p.state p.ticker) ++
    if p.passComplete then [.finished] else []

end Snapshot

/-- Nothing is handed out of a pass that is complete. -/
theorem passComplete_next_due {entry : PollEntry} (h : s.next.1 = .due entry) :
    s.passComplete = false ∧ s.next.2.passComplete = false := by
  have hc : s.passComplete = false := by
    by_contra hc
    rw [Bool.not_eq_false] at hc
    unfold next at h
    rw [hc] at h
    split at h <;> cases h
  have hout := next_handout s
  generalize s.next = next at h hout ⊢
  cases hout with
  | due => exact ⟨hc, hc⟩
  | _ => cases h

theorem passComplete_next (h : s.next.1 = .passComplete) : s.next.2.passComplete = true := by
  have hout := next_handout s
  generalize s.next = next at h hout ⊢
  cases hout with
  | complete hc => exact hc
  | last => rfl
  | _ => cases h

theorem heard_next (h : s.snapshot.Sound) : s.next.2.snapshot.heard s.bus =
    pollMarks (passPolls s.bus (s.entries.take s.cursor) s.defaultBus s.state s.ticker) ++
      pollMarks (match s.next.1 with | .due entry => [(s.ticker, entry)] | _ => []) ++
      if s.next.2.passComplete then [.finished] else [] := by
  have ht : s.ticker = s.ticker % tickerWrap := (Nat.mod_eq_of_lt h.ticker_lt).symm
  have htake := passPolls_next ht
  show pollMarks (passPolls s.bus (s.next.2.entries.take s.next.2.cursor) s.next.2.defaultBus s.next.2.state
    s.next.2.ticker) ++ _ = _
  rw [next_entries, next_defaultBus, next_state, next_ticker, htake, pollMarks, List.map_append]
  rfl

/-- Of a pass that is not complete only polls have been seen. -/
theorem heard_open (hc : s.passComplete = false) : s.snapshot.heard s.bus =
    pollMarks (passPolls s.bus (s.entries.take s.cursor) s.defaultBus s.state s.ticker) := by
  show _ ++ (if s.passComplete then _ else _) = _
  rw [hc]
  exact List.append_nil _

theorem heard_next_due (h : s.snapshot.Sound) {entry : PollEntry} (hn : s.next.1 = .due entry) :
    s.next.2.snapshot.heard s.bus = s.snapshot.heard s.bus ++ [.poll s.ticker entry] := by
  obtain ⟨hc, hc'⟩ := passComplete_next_due hn
  rw [heard_next h, hn, hc', heard_open hc]
  exact List.append_nil _

theorem heard_next_complete (h : s.snapshot.Sound) (hn : s.next.1 = .passComplete) (hc : s.passComplete = false) :
    s.next.2.snapshot.heard s.bus = s.snapshot.heard s.bus ++ [.finished] := by
  rw [heard_next h, hn, passComplete_next hn, heard_open hc]
  simp [pollMarks]

/-- A pass that ends has been seen whole, once its end is reported. -/
theorem heard_passEnded (h : s.snapshot.Sound) (he : s.passEnded = true) :
    s.snapshot.heard s.bus ++ (if s.passComplete then [] else [.finished]) =
      passMarks s.bus s.entries s.defaultBus s.state s.ticker := by
  have hcur : s.cursor = s.entries.length := cursor_of_passEnded h.cursor_le h.complete he
  show pollMarks (passPolls s.bus (s.entries.take s.cursor) s.defaultBus s.state s.ticker) ++
    (if s.passComplete then _ else _) ++ _ = _
  rw [hcur, List.take_length, List.append_assoc]
  cases s.passComplete <;> rfl

theorem snapshot_restore_congr {s' : Schedule} (h : s'.state = s.state) (p : Snapshot) :
    (s'.restore p).snapshot = (s.restore p).snapshot := by
  unfold restore
  rw [h]
  split <;> simp only [snapshot, rewind]

end Schedule

namespace Engine
variable {takes passes : Prop} {e e' e'' : Engine} {n m : Nat}

/-- Where the list goes on, at once or when the single request that has the bus ends. -/
def resumption (e : Engine) : Schedule.Snapshot :=
  match e.single with
  | none => e.schedule.snapshot
  | some capture => (e.schedule.restore capture.saved).snapshot

theorem resumption_none (hs : e.single = none) : e.resumption = e.schedule.snapshot := by
  simp [resumption, hs]

theorem resumption_some {capture : Capture} (hs : e.single = some capture) :
    e.resumption = (e.schedule.restore capture.saved).snapshot := by
  simp [resumption, hs]

theorem sound_resumption (h : e.place.Sound) : e.resumption.Sound := by
  cases hs : e.single with
  | none =>
    rw [resumption_none hs, ← place_none hs]
    exact h
  | some capture =>
    rw [resumption_some hs]
    refine Schedule.sound_restore ?_ _
    simpa [place, hs] using h

/-- What has been seen of the pass in progress. -/
def heard (e : Engine) : List PassMark :=
  e.resumption.heard e.schedule.bus

/-- What is seen of pass `pass` over the list. -/
def passAt (e : Engine) (pass : Nat) : List PassMark :=
  Schedule.passMarks e.schedule.bus (e.resumption.list.getD []) e.resumption.defaultBus e.schedule.state pass

/-- From `e` to `e'` the ticker moves on `n` times, and what is seen are the passes over the list in order, up to
where it stands. -/
structure Completes (e : Engine) (n : Nat) (e' : Engine) : Prop where
  bus : e'.schedule.bus = e.schedule.bus
  state : e'.schedule.state = e.schedule.state
  list : e'.resumption.list = e.resumption.list
  defaultBus : e'.resumption.defaultBus = e.resumption.defaultBus
  sound : e'.place.Sound
  ticker : e'.resumption.ticker = (e.resumption.ticker + n) % tickerWrap
  seen : ∃ new, e'.log = new ++ e.log ∧ e.heard ++ marks new =
    (List.range n).flatMap (fun k => e.passAt (e.resumption.ticker + k)) ++ e'.heard

namespace Completes

/-- The ticker stays, and what is seen is a part of the pass in progress. -/
theorem within (hp : e'.place.Sound) (hb : e'.schedule.bus = e.schedule.bus)
    (hs : e'.schedule.state = e.schedule.state) (hl : e'.resumption.list = e.resumption.list)
    (hd : e'.resumption.defaultBus = e.resumption.defaultBus) (ht : e'.resumption.ticker = e.resumption.ticker)
    {new : List Stamped} (hnew : e'.log = new ++ e.log) (hseen : e.heard ++ marks new = e'.heard) :
    Completes e 0 e' :=
  ⟨hb, hs, hl, hd, hp, by rw [Nat.add_zero, ← ht, Nat.mod_eq_of_lt (sound_resumption hp).ticker_lt],
    new, hnew, hseen⟩

/-- The list stays where it is, and nothing is seen. -/
theorem of_eq (hp : e'.place.Sound) (hr : e'.resumption = e.resumption) (hb : e'.schedule.bus = e.schedule.bus)
    (hs : e'.schedule.state = e.schedule.state) (hl : Adds (·.passMark? = none) e e') : Completes e 0 e' := by
  obtain ⟨new, hnew, hnone⟩ := hl
  refine .within hp hb hs (by rw [hr]) (by rw [hr]) (by rw [hr]) hnew ?_
  rw [marks_eq_nil hnone, List.append_nil, heard, heard, hr, hb]

theorem refl (h : e.place.Sound) : Completes e 0 e := .of_eq h rfl rfl rfl (.refl e)

theorem trans (h : Completes e n e') (h' : Completes e' m e'') : Completes e (n + m) e'' := by
  obtain ⟨new, hnew, hseen⟩ := h.seen
  obtain ⟨new', hnew', hseen'⟩ := h'.seen
  have hpass : ∀ k, e'.passAt (e'.resumption.ticker + k) = e.passAt (e.resumption.ticker + (n + k)) := fun k => by
    simp only [passAt, h.bus, h.list, h.defaultBus, h.state]
    rw [h.ticker, Schedule.passMarks_mod, Nat.add_assoc]
  refine ⟨h'.bus.trans h.bus, h'.state.trans h.state, h'.list.trans h.list, h'.defaultBus.trans h.defaultBus,
    h'.sound, ?_, new' ++ new, ?_, ?_⟩
  · rw [h'.ticker, h.ticker, Nat.mod_add_mod, Nat.add_assoc]
  · rw [hnew', hnew, List.append_assoc]
  · rw [marks_append, ← List.append_assoc, hseen, List.append_assoc, hseen', List.range_add,
      List.flatMap_append, List.flatMap_map, List.append_assoc]
    simp only [hpass]

/-- The place, the schedule and the single request stay, and nothing is seen. -/
theorem same (h : e.place.Sound) (hs : e'.schedule = e.schedule)
    (hc : e'.single.map (·.saved) = e.single.map (·.saved)) (hl : Adds (·.passMark? = none) e e') :
    Completes e 0 e' := by
  have hboth : e'.place = e.place ∧ e'.resumption = e.resumption := by
    cases hsingle : e.single with
    | none =>
      have hsingle' : e'.single = none := by simpa [hsingle] using hc
      simp [place, resumption, hsingle, hsingle', hs]
    | some capture =>
      rw [hsingle, Option.map_some] at hc
      obtain ⟨capture', hsingle', hsaved⟩ := Option.map_eq_some_iff.1 hc
      simp [place, resumption, hsingle, hsingle', hs, hsaved]
  exact .of_eq (hboth.1 ▸ h) hboth.2 (by rw [hs]) (by rw [hs]) hl

/-- A single request takes the bus. -/
theorem capture (h : e.place.Sound) (hs : e.single = none) (request : SingleRequest) :
    Completes e 0 (e.capture request).advance := by
  have hstate : (e.capture request).advance.schedule.state = e.schedule.state := Schedule.next_state _
  have hplace : (e.capture request).advance.place = e.place := by
    rw [place_none hs]
    rfl
  have hresume : (e.capture request).advance.resumption = e.resumption := by
    rw [resumption_none hs]
    exact Schedule.snapshot_restore hstate.symm
  refine .of_eq (hplace ▸ h) hresume (Schedule.next_bus _) hstate ⟨[_], rfl, ?_⟩
  exact List.forall_mem_singleton.2 rfl

theorem finishSingle (h : e.place.Sound) (result : SingleResult) : Completes e 0 (e.finishSingle result) := by
  unfold Engine.finishSingle
  cases hs : e.single with
  | none => exact .refl h
  | some capture =>
    have hsaved : capture.saved.Sound := by simpa [place, hs] using h
    refine .of_eq (Schedule.sound_restore hsaved _) (resumption_some hs).symm (Schedule.bus_restore ..)
      (Schedule.state_restore ..) ⟨[_], rfl, ?_⟩
    exact List.forall_mem_singleton.2 rfl

/-- The list moves on within the pass. -/
theorem advance (h : e.place.Sound) (hs : e.single = none) {e' : Engine} (hs' : e'.single = none)
    (hsched : e'.schedule = e.schedule.next.2) {new : List Stamped} (hnew : e'.log = new ++ e.log)
    (hseen : e.schedule.next.2.snapshot.heard e.schedule.bus =
      e.schedule.snapshot.heard e.schedule.bus ++ marks new) : Completes e 0 e' := by
  rw [place_none hs] at h
  refine .within ?_ ?_ ?_ ?_ ?_ ?_ hnew ?_
  · rw [place_none hs', hsched]
    exact Schedule.sound_next h
  · rw [hsched, Schedule.next_bus]
  · rw [hsched, Schedule.next_state]
  · rw [resumption_none hs, resumption_none hs', hsched]
    exact Schedule.next_list _
  · rw [resumption_none hs, resumption_none hs', hsched]
    exact Schedule.next_defaultBus _
  · rw [resumption_none hs, resumption_none hs', hsched]
    exact Schedule.next_ticker _
  · rw [heard, heard, resumption_none hs, resumption_none hs', hsched, Schedule.next_bus]
    exact hseen.symm

theorem deed (h : e.place.Sound) (hd : Deed takes e e') : Completes e 0 e' := by
  cases hd with
  | adjust | queue | take => exact .same h rfl rfl (.of_log rfl)
  | collect hs => exact .same h rfl (by rw [hs]; rfl) (.of_log rfl)
  | write kind frame =>
    rw [transmit_eq]
    exact .same h rfl rfl ⟨[_], rfl, List.forall_mem_singleton.2 rfl⟩
  | note hev => exact .same h rfl rfl ⟨[_], rfl, List.forall_mem_singleton.2 hev.passMark?⟩
  | @call hs request entry hn =>
    have hc := Completes.capture h hs request
    have hlog : Adds (·.passMark? = none) (e.capture request).advance
        ((e.capture request).advance.assign entry) := ⟨[_], rfl, List.forall_mem_singleton.2 rfl⟩
    have hassign : Completes (e.capture request).advance 0 ((e.capture request).advance.assign entry) :=
      .same hc.sound rfl rfl hlog
    exact hc.trans hassign
  | @turnDown hs request => exact .capture h hs request
  | finish result => exact .finishSingle h result
  | @poll hs entry hn =>
    have hsound : e.schedule.snapshot.Sound := place_none hs ▸ h
    have hmark : marks [⟨e.now, .dispatched entry e.advance.schedule.ticker e.singleTicket⟩] =
        [.poll e.schedule.ticker entry] := by
      simp [marks, Event.passMark?, singleTicket, hs, Engine.advance, Schedule.next_ticker]
    exact .advance h hs hs rfl rfl (hmark ▸ Schedule.heard_next_due hsound hn)
  | conclude hs hn hp =>
    have hsound : e.schedule.snapshot.Sound := place_none hs ▸ h
    have hseen : e.schedule.next.2.snapshot.heard e.schedule.bus =
        e.schedule.snapshot.heard e.schedule.bus ++ marks [⟨e.now, .passFinished e.bus⟩] :=
      Schedule.heard_next_complete hsound hn hp
    exact .advance h hs hs rfl rfl hseen

theorem deeds (h : e.place.Sound) (hd : Deeds takes e e') : Completes e 0 e' := by
  induction hd with
  | refl => exact .refl h
  | tail _ hd ih => exact ih.trans (.deed ih.sound hd)

/-- A pass that has ended is over, and its end is reported unless it was before. -/
theorem startPass (h : e.place.Sound) (hs : e.single = none) : ∃ n ≤ 1, Completes e n e.startPass := by
  have hsound : e.schedule.snapshot.Sound := place_none hs ▸ h
  cases he : e.schedule.passEnded with
  | false =>
    have hsame : e.startPass = e := by
      simp [Engine.startPass, Schedule.startNextPass, he]
    rw [hsame]
    exact ⟨0, Nat.zero_le _, .refl h⟩
  | true =>
    have hsched : e.startPass.schedule = e.schedule.startNextPass := by
      unfold Engine.startPass
      dsimp only
      split <;> rfl
    have hsingle : e.startPass.single = none := by
      unfold Engine.startPass
      dsimp only
      split <;> exact hs
    have hlog : e.startPass.log =
        (if e.schedule.passComplete then [] else [⟨e.now, .passFinished e.bus⟩]) ++ e.log := by
      unfold Engine.startPass
      rw [he]
      cases e.schedule.passComplete <;> rfl
    have hmarks : marks (if e.schedule.passComplete then [] else [⟨e.now, .passFinished e.bus⟩]) =
        if e.schedule.passComplete then [] else [.finished] := by
      split <;> rfl
    have hnext : e.schedule.startNextPass = { e.schedule with
        passComplete := false, cursor := 0, ticker := (e.schedule.ticker + 1) % tickerWrap } := if_pos he
    have hplace : e.startPass.place.Sound := by
      rw [place_none hsingle, hsched]
      exact Schedule.sound_startNextPass hsound
    refine ⟨1, Nat.le_refl _, ?_, ?_, ?_, ?_, hplace, ?_, _, hlog, ?_⟩
    · rw [hsched, hnext]
    · rw [hsched, hnext]
    · rw [resumption_none hs, resumption_none hsingle, hsched, hnext]
      rfl
    · rw [resumption_none hs, resumption_none hsingle, hsched, hnext]
      rfl
    · rw [resumption_none hs, resumption_none hsingle, hsched, hnext]
      rfl
    · have hend : e.startPass.heard = [] := by
        rw [heard, resumption_none hsingle, hsched, hnext]
        rfl
      have hpass : e.passAt (e.resumption.ticker + 0) = Schedule.passMarks e.schedule.bus e.schedule.entries
          e.schedule.defaultBus e.schedule.state e.schedule.ticker := by
        rw [passAt, resumption_none hs]
        rfl
      rw [hmarks, hend, List.append_nil, List.range_one, List.flatMap_singleton, hpass, heard, resumption_none hs]
      exact Schedule.heard_passEnded hsound he

theorem spans (h : e.place.Sound) (hsp : Spans takes passes e e') :
    ∃ n ≤ 1, Completes e n e' := by
  obtain ⟨e₁, e₂, hbefore, hp, hafter⟩ := hsp
  have hfirst := Completes.deeds h hbefore
  rcases hp with rfl | ⟨-, hs, rfl⟩
  · exact ⟨0, Nat.zero_le _, hfirst.trans (.deeds hfirst.sound hafter)⟩
  · obtain ⟨n, hn, hpass⟩ := Completes.startPass hfirst.sound hs
    have hall := (hfirst.trans hpass).trans (.deeds hpass.sound hafter)
    rw [Nat.zero_add, Nat.add_zero] at hall
    exact ⟨n, hn, hall⟩

/-- The count of the schedule is nothing to the passes. -/
theorem uncounted (h : e.place.Sound) {schedule : Schedule} (hsnap : schedule.snapshot = e.schedule.snapshot)
    (hbus : schedule.bus = e.schedule.bus) : Completes e 0 { e with schedule } := by
  have hstate : schedule.state = e.schedule.state := congrArg Schedule.Snapshot.state hsnap
  have hplace : ({ e with schedule } : Engine).place = e.place := by
    simp only [place]
    split
    · exact hsnap
    · rfl
  have hresume : ({ e with schedule } : Engine).resumption = e.resumption := by
    simp only [resumption]
    split
    · exact hsnap
    · exact Schedule.snapshot_restore_congr hstate _
  exact .of_eq (hplace ▸ h) hresume hbus hstate (.of_log rfl)

/-- An operation moves the ticker at most once. -/
theorem step (h : e.place.Sound) (hr : e.AtRest) {op : Operation} (hop : op.KeepsList e.schedule.state) :
    ∃ n ≤ 1, Completes e n (e.step op) := by
  cases op with
  | setList => exact hop.elim
  | setState state =>
    have hsame : e.step (.setState state) = e := by
      show e.setState state = e
      simp [setState, Schedule.setState, show Schedule.clampState state = e.schedule.state from hop]
    rw [hsame]
    exact ⟨0, Nat.zero_le _, .refl h⟩
  | setSequenceMax sequenceMax => exact ⟨0, Nat.zero_le _, uncounted h rfl rfl⟩
  | tick primary =>
    have hready : Completes e 0 (e.readied (.tick primary)) := uncounted h rfl rfl
    have hspans : Spans True (Operation.tick primary = .tick true) (e.readied (.tick primary))
        (e.step (.tick primary)) := step_spans hr (by simp) (by simp) (by simp)
    obtain ⟨n, hn, htick⟩ := Completes.spans hready.sound hspans
    have hall := hready.trans htick
    rw [Nat.zero_add] at hall
    exact ⟨n, hn, hall⟩
  | _ => exact ⟨0, Nat.zero_le _, .deeds h (step_deeds hr (by simp) (by simp) (by simp) (by simp))⟩

end Completes

/-! ### Every run -/

theorem sound_step (h : e.place.Sound) (hr : e.AtRest) (op : Operation) : (e.step op).place.Sound := by
  by_cases hop : op.KeepsList e.schedule.state
  · obtain ⟨n, -, hstep⟩ := Completes.step h hr hop
    exact hstep.sound
  · cases op with
    | setList list defaultBus =>
      show (e.setList list defaultBus).place.Sound
      cases hs : e.single with
      | some capture =>
        simp only [setList, hs]
        exact Schedule.Snapshot.sound_atStart _ _ _
      | none =>
        have hs' : (e.setList list defaultBus).single = none := by simp [setList, hs]
        rw [place_none hs']
        simp only [setList, hs]
        exact Schedule.sound_rewind _
    | setState state =>
      have hsched : (e.setState state).schedule = e.schedule.setState state := by
        unfold setState
        dsimp only
        split <;> rfl
      have hsingle : (e.setState state).single = e.single := by
        unfold setState
        dsimp only
        split <;> rfl
      show (e.setState state).place.Sound
      cases hs : e.single with
      | some capture =>
        simp only [place, hsingle, hs] at h ⊢
        exact h
      | none =>
        rw [place_none (hsingle.trans hs), hsched, Schedule.setState,
          if_neg (show ¬Schedule.clampState state = e.schedule.state from hop)]
        exact Schedule.sound_rewind _
    | _ => exact absurd trivial hop

theorem sound_run (h : e.place.Sound) (hr : e.AtRest) (ops : List Operation) : (e.run ops).place.Sound := by
  induction ops generalizing e with
  | nil => exact h
  | cons op ops ih => exact ih (sound_step h hr op) (hr.step op)

theorem Reached.sound (hr : e.Reached) : e.place.Sound := by
  obtain ⟨bus, name, reports, settings, ops, rfl⟩ := hr
  have hstart : (Engine.new bus name reports settings).place.Sound := Schedule.Snapshot.sound_atStart none none 0
  exact sound_run hstart ⟨rfl, .inr rfl⟩ ops

/-- How many operations of the run move the ticker. -/
def advances (e : Engine) : List Operation → Nat
  | [] => 0
  | op :: ops =>
    (if (e.step op).resumption.ticker = e.resumption.ticker then 0 else 1) + (e.step op).advances ops

theorem Completes.run (h : e.place.Sound) (hr : e.AtRest) {ops : List Operation}
    (hops : ∀ op ∈ ops, op.KeepsList e.schedule.state) : Completes e (e.advances ops) (e.run ops) := by
  induction ops generalizing e with
  | nil => exact .refl h
  | cons op ops ih =>
    rw [List.forall_mem_cons] at hops
    obtain ⟨n, hn, hstep⟩ := Completes.step h hr hops.1
    have hone : (if (e.step op).resumption.ticker = e.resumption.ticker then 0 else 1) = n := by
      have hlt : e.resumption.ticker < 3600 := (sound_resumption h).ticker_lt
      have hmove : (e.step op).resumption.ticker = (e.resumption.ticker + n) % 3600 := hstep.ticker
      split <;> omega
    have hrest := ih hstep.sound (hr.step op) (hstep.state ▸ hops.2)
    show Completes e (_ + _) _
    rw [hone]
    exact hstep.trans hrest

/-- The end of the pass in progress has been reported this many times. -/
def ended (e : Engine) : Nat :=
  if e.resumption.passComplete then 1 else 0

theorem count_heard (e : Engine) : e.heard.count .finished = e.ended := by
  rw [heard, Schedule.Snapshot.heard, List.count_append, Schedule.count_pollMarks, Nat.zero_add, ended]
  split <;> rfl

theorem count_passAt (e : Engine) (pass : Nat) : (e.passAt pass).count .finished = 1 := by
  rw [passAt, Schedule.passMarks, List.count_append, Schedule.count_pollMarks]
  rfl

theorem ended_le (e : Engine) : e.ended ≤ 1 := by
  unfold ended
  split <;> omega

theorem Completes.count (h : Completes e n e') {new : List Stamped} (hnew : e'.log = new ++ e.log) :
    e.ended + (marks new).count .finished = n + e'.ended := by
  obtain ⟨new', hnew', hseen⟩ := h.seen
  obtain rfl := List.append_cancel_right (hnew.symm.trans hnew')
  have hcount := congrArg (List.count .finished) hseen
  rw [List.count_append, List.count_append, count_heard, count_heard, List.count_flatMap] at hcount
  simpa [Function.comp_def, count_passAt, List.map_const', List.sum_replicate_nat] using hcount

/-- As long as the list and the poll state stay, the receiver of results sees the passes over the list one after
the other: of each that ends all its polls and then, once, its end, before the first poll of the next pass; of the
one in progress as much as the list has come to. While the ticker stays no two ends are reported, and from one move of
it to the next only one besides that of the pass which is over by the first of them.

The report that `startPass` makes as it moves the ticker is of the pass that is over by this; a tick in which nothing
of the next pass is due reports the end of that one too, so there are as many reports as moves of the ticker, but for
the pass in progress at the beginning and the one at the end. -/
theorem passes_end_once (hr : e.Reached) {ops : List Operation}
    (hops : ∀ op ∈ ops, op.KeepsList e.schedule.state) :
    (e.run ops).resumption.ticker = (e.resumption.ticker + e.advances ops) % tickerWrap ∧
      ∃ new, (e.run ops).log = new ++ e.log ∧
        e.heard ++ marks new =
          (List.range (e.advances ops)).flatMap (fun k => e.passAt (e.resumption.ticker + k)) ++
            (e.run ops).heard ∧
        e.ended + (marks new).count .finished = e.advances ops + (e.run ops).ended ∧
        (e.advances ops = 0 → (marks new).count .finished ≤ 1) ∧
        ∀ first rest, ops = first :: rest → (e.step first).advances rest = 0 →
          e.ended + (marks new).count .finished ≤ e.advances [first] + 1 := by
  have h := Completes.run hr.sound hr.atRest hops
  obtain ⟨new, hnew, hseen⟩ := h.seen
  have hcount := h.count hnew
  have hend := ended_le (e.run ops)
  refine ⟨h.ticker, new, hnew, hseen, hcount, fun hstill => by omega, ?_⟩
  rintro first rest rfl hstill
  have hmoves : e.advances (first :: rest) = e.advances [first] := by
    rw [advances, hstill, advances, advances]
  omega

/-- Two entries, the second for every other pass. The first pass ends with a secondary tick after the answer to
its last poll; in the second a single request has the bus for a while. -/
theorem passes_end_once_example :
    let bus : BusId := ⟨1, by decide⟩
    let ident : PollEntry := ⟨0x7e0, 0x7e8, 0x22, 0xf187, [], #v[1, 1, 1, 1], 1, .isoTp⟩
    let version : PollEntry := ⟨0x7e0, 0x7e8, 0x22, 0xf188, [], #v[2, 2, 2, 2], 1, .isoTp⟩
    let speed : PollEntry := ⟨0x7e1, 0x7e9, 0x22, 0xf40d, [], #v[1, 1, 1, 1], 1, .isoTp⟩
    let e := (Engine.new bus "ecu" false ⟨2, 25, .strict, 0, 0⟩).step
      (.setList (some [ident, version]) (some bus))
    let ops : List Operation := [.tick true,
      .frame (EcuFrame.single bus 0x7e8 [0x62, 0xf1, 0x87, 0xcc]),
      .frame (EcuFrame.single bus 0x7e8 [0x62, 0xf1, 0x88, 0xdd]), .tick false,
      .tick true, .submit ⟨1, speed, 3000, none⟩, .frame (EcuFrame.single bus 0x7e8 [0x62, 0xf1, 0x87, 0xcc]),
      .frame (EcuFrame.single bus 0x7e9 [0x62, 0xf4, 0x0d, 0x11])]
    (∀ op ∈ ops, op.KeepsList e.schedule.state) ∧ e.advances ops = 1 ∧
      marks (e.run ops).log = [.poll 0 ident, .poll 0 version, .finished, .poll 1 ident, .finished] ∧
      ∃ new, (e.run ops).log = new ++ e.log ∧
        e.heard ++ marks new =
          (List.range (e.advances ops)).flatMap (fun k => e.passAt (e.resumption.ticker + k)) ++
            (e.run ops).heard := by
  intro bus ident version speed e ops
  have hops : ∀ op ∈ ops, op.KeepsList e.schedule.state := by simp [ops, Operation.KeepsList]
  have hr : e.Reached := ⟨bus, "ecu", false, ⟨2, 25, .strict, 0, 0⟩,
    [.setList (some [ident, version]) (some bus)], rfl⟩
  obtain ⟨-, new, hnew, hseen, -⟩ := passes_end_once hr hops
  exact ⟨hops, by decide, by decide, new, hnew, hseen⟩

/-- One entry, for every other pass. The throttled list has not come to its end when the second tick moves the ticker
on, so that this tick reports the end of the first pass, and, as nothing of the second is due, the end of that one
as well; the third tick moves the ticker on. -/
theorem not_ended_once_between_moves_example :
    ¬ ∀ (e : Engine) (first last : Operation) (rest : List Operation) (new : List Stamped), e.Reached →
      (∃ entry ∈ e.schedule.entries, e.schedule.isMine entry = true) →
      (∀ op ∈ first :: (rest ++ [last]), op.KeepsList e.schedule.state) →
      e.advances [first] = 1 → (e.step first).advances rest = 0 → (e.run (first :: rest)).advances [last] = 1 →
      (e.run (first :: rest)).log = new ++ e.log → (marks new).count .finished ≤ 1 := by
  intro honce
  let bus : BusId := ⟨1, by decide⟩
  let ident : PollEntry := ⟨0x7e0, 0x7e8, 0x22, 0xf187, [], #v[2, 2, 2, 2], 1, .isoTp⟩
  let ops : List Operation := [.setList (some [ident]) (some bus), .tick true,
    .frame (EcuFrame.single bus 0x7e8 [0x62, 0xf1, 0x87, 0xcc])]
  let e := (Engine.new bus "ecu" false ⟨1, 25, .strict, 0, 0⟩).run ops
  have hr : e.Reached := ⟨bus, "ecu", false, ⟨1, 25, .strict, 0, 0⟩, ops, rfl⟩
  obtain ⟨new, hnew⟩ := (Grows.run e [.tick true]).log
  have hcount : (marks (e.run [.tick true]).log).count .finished = (marks e.log).count .finished + 2 := by decide
  rw [← hnew, marks_append, List.count_append] at hcount
  have hone : (marks new).count .finished ≤ 1 :=
    honce e (.tick true) (.tick true) [] new hr ⟨ident, by decide, by decide⟩ (by simp [Operation.KeepsList])
      (by decide) rfl (by decide) hnew.symm
  omega

end Engine

end EcuPoll
