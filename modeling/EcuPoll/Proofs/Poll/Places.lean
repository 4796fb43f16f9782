import EcuPoll.Proofs.Poll.Passes

/-!
# Places in a poll list

A schedule stands somewhere in its list. The place can be saved, and put back at any later time and as often as
wanted, when other lists have been installed and other poll states selected; the start of a list is a place as well.
`Snapshot.Sound` says what holds of every place, and `Session.Kept` that this outlasts every `Use` of a schedule,
for the place where it stands and for all that were saved from it. From a sound place `next` hands out the first
entry from the cursor on that the pass polls, or there is none (`handsNext_next`). So it is throughout a session,
whatever is done in it: `keeps_place`.
-/

namespace EcuPoll.Schedule
variable {s : Schedule}

namespace Snapshot

/-- A place that a list can be in. -/
structure Sound (p : Snapshot) : Prop where
  ticker_lt : p.ticker < tickerWrap
  cursor_le : p.cursor ≤ (p.list.getD []).length
  complete : p.passComplete = true → p.cursor = (p.list.getD []).length

theorem sound_atStart (list : Option (List PollEntry)) (defaultBus : Option BusId) (state : Nat) :
    (atStart list defaultBus state).Sound :=
  ⟨Nat.zero_lt_succ _, Nat.zero_le _, nofun⟩

end Snapshot

theorem sound_rewind (s : Schedule) : s.rewind.snapshot.Sound :=
  ⟨Nat.zero_lt_succ _, Nat.zero_le _, nofun⟩

theorem sound_setState (h : s.snapshot.Sound) (state : Nat) : (s.setState state).snapshot.Sound := by
  unfold setState
  split
  · exact h
  · exact sound_rewind _

theorem sound_restore {p : Snapshot} (h : p.Sound) (s : Schedule) : (s.restore p).snapshot.Sound := by
  by_cases hs : p.state = s.state
  · rw [snapshot_restore hs]
    exact h
  · rw [restore, if_neg hs]
    exact sound_rewind _

theorem sound_startNextPass (h : s.snapshot.Sound) : s.startNextPass.snapshot.Sound := by
  unfold startNextPass
  split
  · exact ⟨Nat.mod_lt _ (Nat.zero_lt_succ _), Nat.zero_le _, nofun⟩
  · exact h

theorem sound_next (h : s.snapshot.Sound) : s.next.2.snapshot.Sound where
  ticker_lt := by
    show s.next.2.ticker < _
    rw [next_ticker]
    exact h.ticker_lt
  cursor_le := by
    show s.next.2.cursor ≤ s.next.2.entries.length
    rw [next_entries]
    exact next_cursor_le h.cursor_le
  complete := by
    show s.next.2.passComplete = true → s.next.2.cursor = s.next.2.entries.length
    rw [next_entries]
    exact next_complete h.cursor_le h.complete

/-! ### What comes next from a place -/

/-- The pass in progress polls the entry: it belongs to the bus, and its interval for the poll state divides the
ticker. -/
def PollsNow (s : Schedule) (entry : PollEntry) : Prop :=
  Polls s.bus s.defaultBus s.state s.ticker entry

theorem isDue_iff_pollsNow (h : s.snapshot.Sound) (entry : PollEntry) :
    s.isDue entry = true ↔ s.PollsNow entry :=
  isDue_iff (Nat.mod_eq_of_lt h.ticker_lt).symm entry

theorem not_pollsNow (h : s.snapshot.Sound) {entry : PollEntry} (hd : s.isDue entry = false) :
    ¬s.PollsNow entry := by
  rw [← isDue_iff_pollsNow h, hd]
  exact Bool.false_ne_true

/-- The entry at `i` is the first one from the cursor on that the pass in progress polls. -/
structure Upcoming (s : Schedule) (i : Nat) (entry : PollEntry) : Prop where
  cursor_le : s.cursor ≤ i
  entry_eq : s.entries[i]? = some entry
  polls : s.PollsNow entry
  skipped : ∀ j, s.cursor ≤ j → j < i → ∀ other, s.entries[j]? = some other → ¬s.PollsNow other

theorem upcoming_of_drop (h : s.snapshot.Sound) {skipped rest : List PollEntry} {entry : PollEntry}
    (hd : s.entries.drop s.cursor = skipped ++ entry :: rest) (hskip : ∀ x ∈ skipped, s.isDue x = false)
    (hdue : s.isDue entry = true) : s.Upcoming (s.cursor + skipped.length) entry where
  cursor_le := Nat.le_add_right _ _
  entry_eq := by
    rw [← List.getElem?_drop, hd, List.getElem?_append_right (Nat.le_refl _), Nat.sub_self,
      List.getElem?_cons_zero]
  polls := (isDue_iff_pollsNow h entry).1 hdue
  skipped := by
    intro j hj hlt other hother
    obtain ⟨k, rfl⟩ := Nat.exists_eq_add_of_le hj
    rw [← List.getElem?_drop, hd, List.getElem?_append_left (by omega)] at hother
    exact not_pollsNow h (hskip other (List.mem_of_getElem? hother))

/-- What the answer says of the schedule, and where it stands after it. -/
def HandsNext (s : Schedule) : NextPoll → Schedule → Prop
  | .due entry, s' => ∃ i, s.Upcoming i entry ∧ s'.snapshot = { s.snapshot with cursor := i + 1 }
  | .passComplete, s' => (∀ entry ∈ s.entries.drop s.cursor, ¬s.PollsNow entry) ∧
      s'.snapshot = { s.snapshot with cursor := s.length, passComplete := true }
  | .empty, s' => (∀ entry ∈ s.entries, entry.busIn s.defaultBus ≠ some s.bus) ∧ s'.snapshot = s.snapshot

theorem handsNext_next (h : s.snapshot.Sound) : s.HandsNext s.next.1 s.next.2 := by
  have hout := next_handout s
  generalize s.next = next at hout ⊢
  cases hout with
  | empty hm =>
    refine ⟨fun entry hmem hbus => ?_, rfl⟩
    have hmine := hm entry hmem
    rw [isMine, hbus, beq_self_eq_true] at hmine
    cases hmine
  | complete hc =>
    -- a complete pass has looked at the whole list, so that nothing lies behind the cursor
    have hcur : s.cursor = s.entries.length := h.complete hc
    refine ⟨fun entry hmem => ?_, ?_⟩
    · rw [List.drop_eq_nil_of_le (Nat.le_of_eq hcur.symm)] at hmem
      cases hmem
    · show s.snapshot = { s.snapshot with cursor := s.entries.length, passComplete := true }
      rw [← hcur, ← hc]
      rfl
  | due hd hskip hdue => exact ⟨_, upcoming_of_drop h hd hskip hdue, rfl⟩
  | last hc hskip =>
    refine ⟨fun entry hmem => not_pollsNow h (hskip entry hmem), ?_⟩
    have hle : s.cursor ≤ s.entries.length := h.cursor_le
    simp only [snapshot, length, List.length_drop, Nat.add_sub_cancel' hle]

/-! ### Sessions -/

/-- No entry of the list is a terminator. -/
def Trimmed (list : Option (List PollEntry)) : Prop :=
  ∀ entry ∈ list.getD [], entry.isTerminator = false

theorem trimmed_map (list : Option (List PollEntry)) : Trimmed (list.map trimList) := by
  intro entry hmem
  cases list with
  | none => cases hmem
  | some list => simpa using List.mem_takeWhile_imp hmem

/-- What can be done with a schedule and the places saved from it. -/
inductive Use
  | setList (list : Option (List PollEntry)) (defaultBus : Option BusId)
  | setState (state : Nat)
  | setSequenceMax (sequenceMax : UInt8)
  | resetSequence
  | next
  | startNextPass
  /-- Saves the place where the schedule stands. -/
  | snapshot
  /-- Saves the start of a list. -/
  | atStart (list : Option (List PollEntry)) (defaultBus : Option BusId) (state : Nat)
  /-- Puts back the place saved in this slot, if there is one. -/
  | restore (slot : Nat)

/-- A schedule, and the places saved so far, each in its slot. -/
structure Session where
  schedule : Schedule
  saved : List Snapshot

namespace Session

def start (bus : BusId) (sequenceMax : UInt8) : Session where
  schedule := .new bus sequenceMax
  saved := []

def step (x : Session) : Use → Session
  | .setList list defaultBus => { x with schedule := x.schedule.setList list defaultBus }
  | .setState state => { x with schedule := x.schedule.setState state }
  | .setSequenceMax sequenceMax => { x with schedule := x.schedule.setSequenceMax sequenceMax }
  | .resetSequence => { x with schedule := x.schedule.resetSequence }
  | .next => { x with schedule := x.schedule.next.2 }
  | .startNextPass => { x with schedule := x.schedule.startNextPass }
  | .snapshot => { x with saved := x.saved ++ [x.schedule.snapshot] }
  | .atStart list defaultBus state => { x with saved := x.saved ++ [.atStart list defaultBus state] }
  | .restore slot =>
    match x.saved[slot]? with
    | some p => { x with schedule := x.schedule.restore p }
    | none => x

def run (x : Session) (uses : List Use) : Session :=
  uses.foldl step x

/-- What holds throughout a session on a bus, of the schedule and of all that can be put back. -/
structure Kept (bus : BusId) (x : Session) : Prop where
  bus_eq : x.schedule.bus = bus
  state_lt : x.schedule.state < pollStates
  sound : x.schedule.snapshot.Sound
  trimmed : Trimmed x.schedule.list
  saved : ∀ p ∈ x.saved, p.Sound ∧ Trimmed p.list

namespace Kept
variable {bus : BusId} {x : Session}

theorem start (bus : BusId) (sequenceMax : UInt8) : Kept bus (.start bus sequenceMax) where
  bus_eq := rfl
  state_lt := Nat.zero_lt_succ _
  sound := ⟨Nat.zero_lt_succ _, Nat.zero_le _, nofun⟩
  trimmed := nofun
  saved := nofun

/-- The schedule may go to another place in the same list. -/
theorem go (h : Kept bus x) (hbus : s.bus = x.schedule.bus) (hstate : s.state = x.schedule.state)
    (hlist : s.list = x.schedule.list) (hs : s.snapshot.Sound) : Kept bus { x with schedule := s } :=
  ⟨hbus.trans h.bus_eq, hstate ▸ h.state_lt, hs, hlist ▸ h.trimmed, h.saved⟩

theorem save (h : Kept bus x) {p : Snapshot} (hs : p.Sound) (hp : Trimmed p.list) :
    Kept bus { x with saved := x.saved ++ [p] } := by
  refine ⟨h.bus_eq, h.state_lt, h.sound, h.trimmed, fun q hq => ?_⟩
  rcases List.mem_append.1 hq with hq | hq
  · exact h.saved q hq
  · rw [List.mem_singleton.1 hq]
    exact ⟨hs, hp⟩

theorem restore (h : Kept bus x) {p : Snapshot} (hp : p ∈ x.saved) :
    Kept bus { x with schedule := x.schedule.restore p } := by
  obtain ⟨hs, htrim⟩ := h.saved p hp
  refine ⟨(bus_restore _ p).trans h.bus_eq, ?_, sound_restore hs _, ?_, h.saved⟩
  · show (x.schedule.restore p).state < pollStates
    rw [state_restore]
    exact h.state_lt
  · show Trimmed (x.schedule.restore p).list
    rw [list_restore]
    exact htrim

theorem setState (h : Kept bus x) (state : Nat) :
    Kept bus { x with schedule := x.schedule.setState state } := by
  refine ⟨(bus_setState _ state).trans h.bus_eq, ?_, sound_setState h.sound state, ?_, h.saved⟩
  · show (x.schedule.setState state).state < pollStates
    rw [state_setState]
    exact clampState_lt state
  · show Trimmed (x.schedule.setState state).list
    rw [list_setState]
    exact h.trimmed

theorem step (h : Kept bus x) (use : Use) : Kept bus (x.step use) := by
  cases use with
  | setList list defaultBus => exact ⟨h.bus_eq, h.state_lt, sound_rewind _, trimmed_map list, h.saved⟩
  | setState state => exact h.setState state
  | setSequenceMax | resetSequence => exact h.go rfl rfl rfl h.sound
  | next => exact h.go (next_bus _) (next_state _) (next_list _) (sound_next h.sound)
  | startNextPass =>
    exact h.go (bus_startNextPass _) (state_startNextPass _) (list_startNextPass _) (sound_startNextPass h.sound)
  | snapshot => exact h.save h.sound h.trimmed
  | atStart list defaultBus state => exact h.save (Snapshot.sound_atStart ..) (trimmed_map list)
  | restore slot =>
    unfold Session.step
    dsimp only
    cases hslot : x.saved[slot]? with
    | some p =>
      exact h.restore (List.mem_of_getElem? hslot)
    | none => exact h

theorem run (h : Kept bus x) (uses : List Use) : Kept bus (x.run uses) := by
  induction uses generalizing x with
  | nil => exact h
  | cons use uses ih => exact ih (h.step use)

end Kept

end Session

/-- Whatever is done with a schedule, the cursor stays in the list and is at its end when the pass is complete, the
ticker and the poll state stay in their ranges, and no terminator is in the list. What is handed out next is the first
entry from the cursor on that belongs to the bus and is due; the pass completes only if there is none. -/
theorem keeps_place (bus : BusId) (sequenceMax : UInt8) (uses : List Use) :
    let s := ((Session.start bus sequenceMax).run uses).schedule
    s.bus = bus ∧ s.cursor ≤ s.length ∧ (s.passComplete = true → s.cursor = s.length) ∧
      s.ticker < tickerWrap ∧ s.state < pollStates ∧ (∀ entry ∈ s.entries, entry.isTerminator = false) ∧
      s.HandsNext s.next.1 s.next.2 := by
  intro s
  have h : Session.Kept bus ((Session.start bus sequenceMax).run uses) :=
    (Session.Kept.start bus sequenceMax).run uses
  have hs : s.snapshot.Sound := h.sound
  exact ⟨h.bus_eq, hs.cursor_le, hs.complete, hs.ticker_lt, h.state_lt, h.trimmed, handsNext_next hs⟩

/-- A place that is put back goes on behind what was handed out before it was saved. -/
example :
    let bus : BusId := ⟨1, by decide⟩
    let first : PollEntry := ⟨0x7e0, 0x7e8, 0x22, 1, [], .replicate 4 1, 0, .isoTp⟩
    let second : PollEntry := { first with pid := 2 }
    let x := (Session.start bus 0).run [.setList (some [first, second]) (some bus), .next, .snapshot,
      .setList (some [first]) (some bus), .next, .restore 0]
    x.schedule.next.1 = .due second := by
  decide

end EcuPoll.Schedule
