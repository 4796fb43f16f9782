import EcuPoll.CommandLine.Run
import Mathlib.Data.List.Nodup
import EcuPoll.Proofs.Poll.Passes
import EcuPoll.Proofs.Settings.Entries

/-!
# Which bus polls an entry

`DaemonSettings.engines` is one engine for each bus of the settings, with the whole poll table installed.
Valid settings lose no entry of the table: the list is kept to its end, and a schedule polls in each pass
whatever is due on its bus (`passes_eq`). The buses have different numbers, so that no entry has two of
them; but an entry may name a bus that is not there, and then it has none: `polled_once_iff`.
-/

namespace EcuPoll

namespace Schedule
variable {s : Schedule}

/-- Until nothing more is due, what is due from the cursor on is handed out in order. -/
theorem drain_eq {fuel : Nat} (hm : s.entries.any s.isMine = true) (hc : s.passComplete = false)
    (hle : s.cursor ≤ s.entries.length) (hf : s.entries.length < s.cursor + fuel) :
    ∃ handedOut, s.drain fuel = ((s.entries.drop s.cursor).filter s.isDue,
      { s with cursor := s.entries.length, passComplete := true, sequenceCount := handedOut }) := by
  induction fuel generalizing s with
  | zero => omega
  | succ fuel ih =>
    have hout := next_handout s
    rw [drain]
    generalize s.next = next at hout ⊢
    cases hout with
    | empty hnone =>
      obtain ⟨entry, hmem, hmine⟩ := List.any_eq_true.1 hm
      rw [hnone entry hmem] at hmine
      cases hmine
    | complete hc' =>
      rw [hc] at hc'
      cases hc'
    | @due skipped rest entry hd hskip hdue =>
      have hlen := congrArg List.length hd
      simp only [List.length_drop, List.length_append, List.length_cons] at hlen
      have hrest : s.entries.drop (s.cursor + skipped.length + 1) = rest := by
        rw [Nat.add_assoc, ← List.drop_drop, hd, ← List.drop_drop, List.drop_left, List.drop_one, List.tail_cons]
      obtain ⟨handedOut, hdrain⟩ := @ih { s with
        cursor := s.cursor + skipped.length + 1, sequenceCount := s.sequenceCount + 1 } hm hc
        (by show s.cursor + skipped.length + 1 ≤ s.entries.length; omega)
        (by show s.entries.length < s.cursor + skipped.length + 1 + fuel; omega)
      refine ⟨handedOut, ?_⟩
      have hnone : skipped.filter s.isDue = [] := by
        rw [List.filter_eq_nil_iff]
        intro x hx
        simp [hskip x hx]
      simp only [hdrain]
      rw [hd, List.filter_append, hnone, List.nil_append, List.filter_cons_of_pos hdue]
      exact congrArg (fun l => (entry :: l.filter s.isDue, _)) hrest
    | last _ hskip =>
      refine ⟨s.sequenceCount, ?_⟩
      have hnone : (s.entries.drop s.cursor).filter s.isDue = [] := by
        rw [List.filter_eq_nil_iff]
        intro x hx
        simp [hskip x hx]
      simp only [hnone, List.length_drop, Nat.add_sub_cancel' hle]

/-- What pass `pass` polls, with its ticker. -/
def passRow (bus : BusId) (list : List PollEntry) (defaultBus : Option BusId) (state pass : Nat) :
    Nat × List PollEntry :=
  (pass % tickerWrap, list.filter fun entry => Polls bus defaultBus state pass entry)

theorem isDue_row {pass : Nat} (ht : s.ticker = pass % tickerWrap) :
    (s.ticker, s.entries.filter s.isDue) = passRow s.bus s.entries s.defaultBus s.state pass := by
  refine Prod.ext ht (List.filter_congr fun entry _ => ?_)
  rw [Bool.eq_iff_iff, isDue_iff ht, decide_eq_true_iff]

/-- Without an entry of its own a schedule stands still. -/
theorem passes_of_none (hm : s.entries.any s.isMine = false) (hc : s.passComplete = false)
    (h0 : s.cursor = 0) (count : Nat) : (s.passes count).1 = [] := by
  induction count with
  | zero => rfl
  | succ count ih =>
    have hstill : s.finishPass = ([], s) := by
      simp [finishPass, drain, next, hm]
    have hend : s.startNextPass = s := by
      simp [startNextPass, passEnded, hc, h0]
    simp [passes, hstill, hend, ih]

/-- From the start of a pass on, each pass polls what is due in it. -/
theorem passes_from {pass : Nat} (hc : s.passComplete = false) (h0 : s.cursor = 0)
    (ht : s.ticker = pass % tickerWrap) (count : Nat) :
    (s.passes count).1 = ((List.range' pass count).map
      (passRow s.bus s.entries s.defaultBus s.state)).filter fun row => !row.2.isEmpty := by
  by_cases hm : s.entries.any s.isMine = true
  · induction count generalizing s pass with
    | zero => rfl
    | succ count ih =>
      obtain ⟨handedOut, hdrain⟩ := @drain_eq s (s.length + 1) hm hc (by omega)
        (by show s.length < _; omega)
      rw [h0, List.drop_zero] at hdrain
      let s' : Schedule := { s with
        cursor := 0, ticker := (s.ticker + 1) % tickerWrap, passComplete := false, sequenceCount := handedOut }
      have hnext : s.finishPass.2.startNextPass = s' := by
        rw [finishPass, hdrain]
        rfl
      have hlater := @ih s' (pass + 1) rfl rfl (by show (s.ticker + 1) % _ = _; rw [ht, Nat.mod_add_mod]) hm
      rw [passes]
      simp only [hnext, hlater]
      rw [finishPass, hdrain, List.range'_succ, List.map_cons, ← isDue_row ht, List.filter_cons]
      cases s.entries.filter s.isDue <;> rfl
  · rw [Bool.not_eq_true] at hm
    rw [passes_of_none hm hc h0, eq_comm, List.filter_eq_nil_iff]
    intro row hrow
    obtain ⟨pass, -, rfl⟩ := List.mem_map.1 hrow
    have hnone : (passRow s.bus s.entries s.defaultBus s.state pass).2 = [] := by
      rw [passRow, List.filter_eq_nil_iff]
      intro entry hmem hpoll
      have hmine := List.any_eq_false.1 hm entry hmem
      simp_all [isMine, Polls]
    simp [hnone]

end Schedule

namespace DaemonSettings
variable {s : DaemonSettings}

/-- An engine for each bus, with the list installed and the poll state set. -/
def engines (s : DaemonSettings) (reports : BusKind → Bool) (list : List PollEntry) (defaultBus : BusId)
    (state : Nat) : List Engine :=
  s.allBuses.filterMap fun b => (BusId.ofNat? b.number.toNat).map fun bus =>
    (Engine.new bus b.kind.name (reports b.kind) s.poller.engine).run
      [.setList (some list) (some defaultBus), .setState state]

/-! ### What valid settings say -/

theorem distinct_of_checkBuses {taken : List UInt8} {bs : List BusSettings} (h : checkBuses taken bs = .ok ()) :
    (∀ b ∈ bs, (BusId.ofNat? b.number.toNat).isSome) ∧ (bs.map (·.number)).Nodup ∧
      ∀ b ∈ bs, b.number ∉ taken := by
  induction bs generalizing taken with
  | nil => simp
  | cons b bs ih =>
    rw [checkBuses] at h
    by_cases hid : (BusId.ofNat? b.number.toNat).isNone = true
    · rw [if_pos hid] at h
      cases h
    rw [if_neg hid] at h
    by_cases htaken : b.number ∈ taken
    · rw [if_pos htaken] at h
      cases h
    rw [if_neg htaken] at h
    obtain ⟨hrange, hdistinct, hfresh⟩ := ih h
    refine ⟨?_, ?_, ?_⟩
    · simpa [Option.isSome_iff_ne_none] using ⟨by simpa using hid, by simpa [Option.isSome_iff_ne_none] using hrange⟩
    · rw [List.map_cons, List.nodup_cons]
      refine ⟨fun hmem => ?_, hdistinct⟩
      obtain ⟨b', hb', he⟩ := List.mem_map.1 hmem
      exact hfresh b' hb' (he ▸ List.mem_cons_self)
    · intro b' hb'
      rcases List.mem_cons.1 hb' with rfl | hb'
      · exact htaken
      · exact fun hmem => hfresh b' hb' (List.mem_cons_of_mem _ hmem)

theorem entries_of_pollList {polls : List PollSettings} {list : List PollEntry}
    (h : polls.mapM PollSettings.entry = .ok list) : List.Forall₂ (fun p e => p.entry = .ok e) polls list := by
  induction polls generalizing list with
  | nil => cases h; exact .nil
  | cons p polls ih =>
    rw [List.mapM_cons] at h
    cases hp : p.entry with
    | error fault => rw [hp] at h; cases h
    | ok e =>
    cases hps : polls.mapM PollSettings.entry with
    | error fault => rw [hp, hps] at h; cases h
    | ok es =>
    rw [hp, hps] at h
    cases h
    exact .cons hp (ih hps)

theorem defaultBusId_eq_ok_iff {bus : BusId} : s.defaultBusId = .ok bus ↔ s.defaultBus.toNat = bus.number := by
  rw [← BusId.ofNat?_eq_some_iff, defaultBusId]
  cases BusId.ofNat? s.defaultBus.toNat <;> simp

/-- What is known of settings that are in order. -/
theorem of_validate (h : s.validate = .ok ()) :
    ∃ list defaultBus, s.pollList = .ok list ∧ s.defaultBusId = .ok defaultBus ∧
      defaultBus.number ∈ s.allBuses.map (·.number.toNat) ∧ (s.allBuses.map (·.number.toNat)).Nodup ∧
      ∀ b ∈ s.allBuses, (BusId.ofNat? b.number.toNat).isSome := by
  unfold validate at h
  cases hp : s.poller.validate with
  | error fault => rw [hp] at h; cases h
  | ok =>
  cases hb : checkBuses [] s.buses with
  | error fault => rw [hp, hb] at h; cases h
  | ok =>
  cases hd : s.defaultBusId with
  | error fault => rw [hp, hb, hd] at h; cases h
  | ok defaultBus =>
  rw [hp, hb, hd] at h
  simp only [bind, Except.bind] at h
  by_cases hany : (!s.allBuses.any fun x => x.number.toNat = defaultBus.number) = true
  · rw [if_pos hany] at h
    cases h
  rw [if_neg hany] at h
  cases hl : s.pollList with
  | error fault => rw [hl] at h; cases h
  | ok list =>
  refine ⟨list, defaultBus, rfl, rfl, by simpa using hany, ?_⟩
  unfold allBuses
  split
  · simp [defaultBusId_eq_ok_iff.1 hd, BusId.ofNat?_number]
  · obtain ⟨hrange, hdistinct, -⟩ := distinct_of_checkBuses hb
    refine ⟨?_, hrange⟩
    rw [show s.buses.map (·.number.toNat) = (s.buses.map (·.number)).map (·.toNat) by simp]
    exact List.Nodup.map (fun _ _ => UInt8.toNat_inj.1) hdistinct

/-! ### Installing the list -/

/-- An engine on which the list has just been installed. -/
structure Installed (list : List PollEntry) (defaultBus : BusId) (state : Nat) (e : Engine) : Prop where
  bus : e.schedule.bus = e.bus
  entries : e.schedule.entries = list
  defaultBus : e.schedule.defaultBus = some defaultBus
  state : e.schedule.state = Schedule.clampState state
  cursor : e.schedule.cursor = 0
  ticker : e.schedule.ticker = 0
  passComplete : e.schedule.passComplete = false

theorem installed_run {list : List PollEntry} (hl : ∀ entry ∈ list, entry.isTerminator = false) (bus : BusId)
    (name : String) (reports : Bool) (settings : EngineSettings) (defaultBus : BusId) (state : Nat) :
    Installed list defaultBus state ((Engine.new bus name reports settings).run
      [.setList (some list) (some defaultBus), .setState state]) := by
  have htrim : trimList list = list := by
    rw [trimList, List.takeWhile_eq_self_iff]
    intro entry hmem
    simp [hl entry hmem]
  have hschedule : ((Engine.new bus name reports settings).run
      [.setList (some list) (some defaultBus), .setState state]).schedule =
        ((Schedule.new bus settings.sequenceMax).setList (some list) (some defaultBus)).setState state := by
    show (Engine.setState _ state).schedule = _
    unfold Engine.setState
    dsimp only
    split <;> rfl
  have hbus : ((Engine.new bus name reports settings).run
      [.setList (some list) (some defaultBus), .setState state]).bus = bus := by
    show (Engine.setState _ state).bus = _
    unfold Engine.setState
    dsimp only
    split <;> rfl
  have hstate : ((Schedule.new bus settings.sequenceMax).setList (some list) (some defaultBus)).setState state =
      { Schedule.new bus settings.sequenceMax with
        list := some list, defaultBus := some defaultBus, state := Schedule.clampState state } := by
    rw [Schedule.setState]
    by_cases hsame : Schedule.clampState state =
        ((Schedule.new bus settings.sequenceMax).setList (some list) (some defaultBus)).state
    · rw [if_pos hsame]
      rw [hsame]
      simp [Schedule.setList, Schedule.rewind, Schedule.new, htrim]
    · rw [if_neg hsame]
      simp [Schedule.setList, Schedule.rewind, Schedule.new, htrim]
  rw [hstate] at hschedule
  constructor <;> simp only [hschedule, hbus] <;> rfl

/-- Where all buses can be opened these are the engines of the program. -/
theorem engines_of_open {es : List Engine} (h : s.allBuses.mapM (·.open? s.poller.engine) = .ok es)
    (list : List PollEntry) (defaultBus : BusId) (state : Nat) :
    s.engines (fun _ => false) list defaultBus state =
      es.map (·.run [.setList (some list) (some defaultBus), .setState state]) := by
  unfold engines
  generalize s.allBuses = bs at h
  induction bs generalizing es with
  | nil => cases h; rfl
  | cons b bs ih =>
    rw [List.mapM_cons] at h
    cases hb : b.open? s.poller.engine with
    | error failure => rw [hb] at h; cases h
    | ok e =>
    cases hbs : bs.mapM (·.open? s.poller.engine) with
    | error failure => rw [hb, hbs] at h; cases h
    | ok es =>
    rw [hb, hbs] at h
    cases h
    obtain ⟨number, kind⟩ := b
    cases hid : BusId.ofNat? number.toNat with
    | none => simp [BusSettings.open?, hid] at hb
    | some bus =>
    cases kind with
    | socketCan interface => simp [BusSettings.open?, hid] at hb
    | mock name =>
      simp only [BusSettings.open?, hid, Except.ok.injEq] at hb
      subst hb
      rw [List.filterMap_cons_some (by rw [hid]; rfl), ih hbs]
      rfl

theorem installed_of_mem {reports : BusKind → Bool} {list : List PollEntry} {defaultBus : BusId} {state : Nat}
    (hl : ∀ entry ∈ list, entry.isTerminator = false) :
    ∀ e ∈ s.engines reports list defaultBus state, Installed list defaultBus state e := by
  intro e he
  obtain ⟨b, -, hb⟩ := List.mem_filterMap.1 he
  obtain ⟨bus, -, rfl⟩ := Option.map_eq_some_iff.1 hb
  exact installed_run hl ..

theorem numbers_engines (hrange : ∀ b ∈ s.allBuses, (BusId.ofNat? b.number.toNat).isSome)
    (reports : BusKind → Bool) (list : List PollEntry) (defaultBus : BusId) (state : Nat) :
    (s.engines reports list defaultBus state).map (·.bus.number) = s.allBuses.map (·.number.toNat) := by
  unfold engines
  generalize s.allBuses = bs at hrange ⊢
  induction bs with
  | nil => rfl
  | cons b bs ih =>
    rw [List.forall_mem_cons] at hrange
    obtain ⟨bus, hbus⟩ := Option.isSome_iff_exists.1 hrange.1
    rw [List.filterMap_cons_some (by rw [hbus]; rfl), List.map_cons, List.map_cons, ih hrange.2]
    refine congrArg (· :: _) ?_
    show (Engine.setState _ state).bus.number = _
    unfold Engine.setState
    dsimp only
    split <;> exact (BusId.ofNat?_eq_some_iff.1 hbus).symm

/-- The number of the bus on which the entry is to be polled. -/
def busNumber (defaultBus : BusId) (entry : PollEntry) : Nat :=
  if entry.bus = 0 then defaultBus.number else entry.bus

theorem Installed.isMine_iff {list : List PollEntry} {defaultBus : BusId} {state : Nat} {e : Engine}
    (h : Installed list defaultBus state e) (entry : PollEntry) :
    e.schedule.isMine entry = true ↔ busNumber defaultBus entry = e.bus.number := by
  rw [← BusId.ofNat?_eq_some_iff, Schedule.isMine, h.bus, h.defaultBus, beq_iff_eq, PollEntry.busIn, busNumber]
  split
  · rw [BusId.ofNat?_number]
  · rfl

/-- Of valid settings every poll is kept, each bus polls in each pass what is due on it, and exactly those
entries have a bus, and only one, that name none or one that is there. Where all buses can be opened, the engines are
those that the program opens. -/
theorem polled_once_iff (h : s.validate = .ok ()) (reports : BusKind → Bool) (state : Nat) :
    ∃ list defaultBus, s.pollList = .ok list ∧ s.defaultBusId = .ok defaultBus ∧
      List.Forall₂ (fun p entry => p.entry = .ok entry ∧ entry.isTerminator = false) s.polls list ∧
      (s.engines reports list defaultBus state).map (·.bus.number) = s.allBuses.map (·.number.toNat) ∧
      (∀ es, s.allBuses.mapM (·.open? s.poller.engine) = .ok es → s.engines (fun _ => false) list defaultBus state =
        es.map (·.run [.setList (some list) (some defaultBus), .setState state])) ∧
      (∀ e ∈ s.engines reports list defaultBus state, e.schedule.entries = list ∧ ∀ count,
        (e.schedule.passes count).1 = ((List.range count).map (Schedule.passRow e.bus list (some defaultBus)
          (Schedule.clampState state))).filter fun row => !row.2.isEmpty) ∧
      ∀ entry ∈ list, (s.engines reports list defaultBus state).countP (·.schedule.isMine entry) = 1 ↔
        entry.bus = 0 ∨ entry.bus ∈ s.allBuses.map (·.number.toNat) := by
  obtain ⟨list, defaultBus, hlist, hdefault, hmem, hdistinct, hrange⟩ := of_validate h
  have hkept : List.Forall₂ (fun p entry => p.entry = .ok entry ∧ entry.isTerminator = false) s.polls list := by
    refine (entries_of_pollList hlist).imp fun p entry hp => ⟨hp, ?_⟩
    simpa [PollEntry.isTerminator] using (PollSettings.writes_of_entry hp).2.1
  have hl : ∀ entry ∈ list, entry.isTerminator = false :=
    ((List.forall₂_and_left list s.polls).1 (.flip (hkept.imp fun _ _ hp => hp.symm))).1
  have hinst := @installed_of_mem s reports list defaultBus state hl
  refine ⟨list, defaultBus, hlist, hdefault, hkept, numbers_engines hrange .., ?_, ?_, ?_⟩
  · exact fun es hes => engines_of_open hes list defaultBus state
  · intro e he
    have hi := hinst e he
    refine ⟨hi.entries, fun count => ?_⟩
    rw [@Schedule.passes_from _ 0 hi.passComplete hi.cursor hi.ticker, hi.bus, hi.entries, hi.defaultBus,
      hi.state, List.range_eq_range']
  · intro entry _
    have hcount : (s.engines reports list defaultBus state).countP (·.schedule.isMine entry) =
        (s.allBuses.map (·.number.toNat)).count (busNumber defaultBus entry) := by
      rw [← numbers_engines hrange reports list defaultBus state, List.count, List.countP_map]
      refine List.countP_congr fun e he => ?_
      rw [(hinst e he).isMine_iff, Function.comp_apply, beq_iff_eq, eq_comm]
    rw [hcount, hdistinct.count]
    unfold busNumber
    split
    · simp_all
    · simp_all

theorem polled_once_iff_example :
    let s : DaemonSettings := {
      buses := [⟨1, .mock "engine"⟩, ⟨3, .socketCan "can1"⟩]
      polls := [{ txId := "7E0", service := "22" }, { txId := "0x7E1", service := "1", bus := 3 }] }
    s.validate = .ok () ∧ ∃ list defaultBus, s.pollList = .ok list ∧ s.defaultBusId = .ok defaultBus ∧
      ∀ entry ∈ list, (s.engines (fun _ => true) list defaultBus 0).countP (·.schedule.isMine entry) = 1 := by
  intro s
  have hvalid : s.validate = .ok () := rfl
  obtain ⟨list, defaultBus, hlist, hdefault, -, -, -, -, honce⟩ := polled_once_iff hvalid (fun _ => true) 0
  refine ⟨hvalid, list, defaultBus, hlist, hdefault, fun entry hentry => (honce entry hentry).2 ?_⟩
  have hread : s.pollList.map (List.map (·.bus)) = .ok [0, 3] := rfl
  rw [hlist] at hread
  have hbus : entry.bus ∈ [0, 3] := Except.ok.inj hread ▸ List.mem_map_of_mem hentry
  simp only [List.mem_cons, List.not_mem_nil, or_false] at hbus
  rcases hbus with h | h
  · exact .inl h
  · exact .inr (by simp [h, s, allBuses])

/-- An entry may name a bus that is not there. -/
theorem not_polled_once_example : ¬∀ s : DaemonSettings, s.validate = .ok () →
    ∃ list defaultBus, s.pollList = .ok list ∧ s.defaultBusId = .ok defaultBus ∧
      ∀ entry ∈ list, (s.engines (fun _ => false) list defaultBus 0).countP (·.schedule.isMine entry) = 1 := by
  intro h
  obtain ⟨list, defaultBus, hlist, hdefault, honce⟩ := h
    { polls := [{ txId := "0x7E0", service := "0x22", intervals := [1], bus := 3 }] } rfl
  obtain rfl : [⟨0x7e0, 0, 0x22, 0, [], #v[1, 0, 0, 0], 3, .isoTp⟩] = list := Except.ok.inj hlist
  obtain rfl : ⟨1, by decide⟩ = defaultBus := Except.ok.inj hdefault
  have hone := honce _ List.mem_cons_self
  revert hone
  decide

end DaemonSettings

end EcuPoll
