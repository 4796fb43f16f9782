import EcuPoll.Poll.Schedule
import Mathlib.Data.List.TakeWhile

/-!
# Passes over a poll list

`passPolls` says what a pass over a poll list polls: every entry of the list that belongs to the bus
and is due, in list order. `Snapshot.OnCourse` relates a place in the list to all polls that were
handed out up to it: those of the passes before, and those of the entries before the cursor. It holds
at the start of a list, and `next` and `startNextPass` keep it.
-/

namespace EcuPoll.Schedule
variable {bus : BusId} {list : List PollEntry} {defaultBus : Option BusId} {state : Nat} {s : Schedule}

/-- Pass `pass` polls the entry, in poll state `state` of a list with this default bus. -/
def Polls (bus : BusId) (defaultBus : Option BusId) (state pass : Nat) (entry : PollEntry) : Prop :=
  entry.busIn defaultBus = some bus ∧ 0 < entry.interval state ∧
    entry.interval state ∣ pass % tickerWrap

instance (pass : Nat) (entry : PollEntry) : Decidable (Polls bus defaultBus state pass entry) :=
  inferInstanceAs (Decidable (_ ∧ _ ∧ _))

/-- What pass `pass` over the list polls, each entry with the ticker. -/
def passPolls (bus : BusId) (list : List PollEntry) (defaultBus : Option BusId) (state pass : Nat) :
    List (Nat × PollEntry) :=
  (list.filter fun entry => Polls bus defaultBus state pass entry).map (pass % tickerWrap, ·)

theorem passPolls_append (xs ys : List PollEntry) (pass : Nat) :
    passPolls bus (xs ++ ys) defaultBus state pass =
      passPolls bus xs defaultBus state pass ++ passPolls bus ys defaultBus state pass := by
  simp [passPolls]

theorem passPolls_take_drop (list : List PollEntry) (n pass : Nat) :
    passPolls bus (list.take n) defaultBus state pass ++ passPolls bus (list.drop n) defaultBus state pass =
      passPolls bus list defaultBus state pass := by
  rw [← passPolls_append, List.take_append_drop]

theorem isDue_iff {pass : Nat} (ht : s.ticker = pass % tickerWrap) (entry : PollEntry) :
    s.isDue entry = true ↔ Polls s.bus s.defaultBus s.state pass entry := by
  simp [isDue, isMine, PollEntry.isDue, Polls, ht, Nat.dvd_iff_mod_eq_zero]

/-! ### Handing out -/

/-- What `next` hands out, and the schedule after it. -/
inductive Handout (s : Schedule) : NextPoll × Schedule → Prop
  | empty (hm : ∀ entry ∈ s.entries, s.isMine entry = false) : Handout s (.empty, s)
  | complete (hc : s.passComplete = true) : Handout s (.passComplete, s)
  | due {skipped rest : List PollEntry} {entry : PollEntry}
    (hd : s.entries.drop s.cursor = skipped ++ entry :: rest)
    (hskip : ∀ x ∈ skipped, s.isDue x = false) (hdue : s.isDue entry = true) :
    Handout s (.due entry, { s with
      cursor := s.cursor + skipped.length + 1
      sequenceCount := s.sequenceCount + 1 })
  | last (hc : s.passComplete = false) (hskip : ∀ x ∈ s.entries.drop s.cursor, s.isDue x = false) :
    Handout s (.passComplete, { s with
      cursor := s.cursor + (s.entries.drop s.cursor).length
      passComplete := true })

/-- A list falls into the part before its first element that satisfies `p`, and the rest. -/
theorem exists_skipped {α : Type} (p : α → Bool) (l : List α) :
    ∃ skipped rest, l = skipped ++ rest ∧ l.takeWhile (fun x => !p x) = skipped ∧
      (∀ x ∈ skipped, p x = false) ∧ ∀ x ∈ rest.head?, p x = true := by
  induction l with
  | nil => exact ⟨[], [], rfl, rfl, by simp, by simp⟩
  | cons a l ih =>
    cases hp : p a with
    | true => exact ⟨[], a :: l, rfl, by simp [hp], by simp, by simp [hp]⟩
    | false =>
      obtain ⟨skipped, rest, h1, h2, h3, h4⟩ := ih
      refine ⟨a :: skipped, rest, by rw [h1, List.cons_append], by simp [hp, h2], ?_, h4⟩
      intro x hx
      rcases List.mem_cons.1 hx with rfl | hx
      · exact hp
      · exact h3 x hx

theorem next_handout (s : Schedule) : Handout s s.next := by
  unfold next
  by_cases hm : (!s.entries.any s.isMine) = true
  · rw [if_pos hm]
    exact .empty (by simpa using hm)
  rw [if_neg hm]
  by_cases hc : s.passComplete = true
  · rw [if_pos hc]
    exact .complete hc
  rw [if_neg hc]
  obtain ⟨skipped, rest, hd, htake, hskip, hhead⟩ := exists_skipped s.isDue (s.entries.drop s.cursor)
  have hget : s.entries[s.cursor + skipped.length]? = rest.head? := by
    rw [← List.getElem?_drop, hd, List.getElem?_append_right (Nat.le_refl _), Nat.sub_self,
      List.head?_eq_getElem?]
  dsimp only
  rw [htake, hget]
  cases rest with
  | nil =>
    rw [List.append_nil] at hd
    subst hd
    exact .last (by simpa using hc) hskip
  | cons entry rest => exact .due hd hskip (hhead entry (by simp))

theorem next_bus (s : Schedule) : s.next.2.bus = s.bus := by
  have hout := next_handout s
  generalize s.next = next at hout ⊢
  cases hout <;> rfl

theorem next_state (s : Schedule) : s.next.2.state = s.state := by
  have hout := next_handout s
  generalize s.next = next at hout ⊢
  cases hout <;> rfl

theorem next_ticker (s : Schedule) : s.next.2.ticker = s.ticker := by
  have hout := next_handout s
  generalize s.next = next at hout ⊢
  cases hout <;> rfl

theorem next_list (s : Schedule) : s.next.2.list = s.list := by
  have hout := next_handout s
  generalize s.next = next at hout ⊢
  cases hout <;> rfl

theorem next_entries (s : Schedule) : s.next.2.entries = s.entries :=
  congrArg (·.getD []) (next_list s)

theorem next_defaultBus (s : Schedule) : s.next.2.defaultBus = s.defaultBus := by
  have hout := next_handout s
  generalize s.next = next at hout ⊢
  cases hout <;> rfl

theorem next_cursor_le (h : s.cursor ≤ s.entries.length) : s.next.2.cursor ≤ s.entries.length := by
  have hout := next_handout s
  generalize s.next = next at hout ⊢
  cases hout with
  | empty | complete => exact h
  | due hd =>
    have hlen := congrArg List.length hd
    simp only [List.length_drop, List.length_append, List.length_cons] at hlen
    dsimp only
    omega
  | last =>
    dsimp only
    rw [List.length_drop]
    omega

/-- A pass is complete only when the whole list has been looked at. -/
theorem next_complete (h : s.cursor ≤ s.entries.length) (hc : s.passComplete = true → s.cursor = s.entries.length) :
    s.next.2.passComplete = true → s.next.2.cursor = s.entries.length := by
  have hout := next_handout s
  generalize s.next = next at hout ⊢
  cases hout with
  | empty | complete => exact hc
  | @due skipped rest entry hd =>
    intro hp
    rw [List.drop_eq_nil_of_le (Nat.le_of_eq (hc hp).symm)] at hd
    cases skipped <;> cases hd
  | last =>
    intro _
    dsimp only
    rw [List.length_drop]
    omega

/-- What lies before the cursor has been polled, and what is handed out with it. -/
theorem passPolls_next {pass : Nat} (ht : s.ticker = pass % tickerWrap) :
    passPolls s.bus (s.entries.take s.next.2.cursor) s.defaultBus s.state pass =
      passPolls s.bus (s.entries.take s.cursor) s.defaultBus s.state pass ++
        match s.next.1 with | .due entry => [(s.ticker, entry)] | _ => [] := by
  have hnone : ∀ skipped : List PollEntry, (∀ x ∈ skipped, s.isDue x = false) →
      passPolls s.bus skipped s.defaultBus s.state pass = [] := fun skipped hskip => by
    simp only [passPolls, List.map_eq_nil_iff, List.filter_eq_nil_iff, decide_eq_true_eq, ← isDue_iff ht]
    exact fun x hx => by simp [hskip x hx]
  have hout := next_handout s
  generalize s.next = next at hout ⊢
  cases hout with
  | empty | complete => exact (List.append_nil _).symm
  | @due skipped rest entry hd hskip hentry =>
    have hlt : s.cursor < s.entries.length := by
      by_contra hle
      rw [List.drop_eq_nil_of_le (by omega)] at hd
      cases skipped <;> cases hd
    have hlist : s.entries = s.entries.take s.cursor ++ (skipped ++ [entry]) ++ rest := by
      rw [List.append_assoc, List.append_assoc, List.singleton_append, ← hd, List.take_append_drop]
    have hlen : (s.entries.take s.cursor ++ (skipped ++ [entry])).length = s.cursor + skipped.length + 1 := by
      simp only [List.length_append, List.length_take, List.length_singleton]
      omega
    have htake : s.entries.take (s.cursor + skipped.length + 1) =
        s.entries.take s.cursor ++ (skipped ++ [entry]) := by
      rw [← hlen]
      exact (congrArg _ hlist).trans List.take_left
    have hlast : passPolls s.bus [entry] s.defaultBus s.state pass = [(s.ticker, entry)] := by
      simp [passPolls, (isDue_iff ht entry).1 hentry, ht]
    show passPolls _ (s.entries.take (s.cursor + skipped.length + 1)) _ _ _ = _
    rw [htake, passPolls_append, passPolls_append, hnone skipped hskip, List.nil_append, hlast]
  | last hc hskip =>
    show passPolls _ (s.entries.take (s.cursor + (s.entries.drop s.cursor).length)) _ _ _ = _
    rw [List.take_of_length_le (by rw [List.length_drop]; omega), List.append_nil,
      ← passPolls_take_drop s.entries s.cursor, hnone _ hskip, List.append_nil]

/-! ### Places put back, poll states and passes -/

theorem snapshot_restore {p : Snapshot} (h : p.state = s.state) : (s.restore p).snapshot = p := by
  unfold restore
  rw [if_pos h]
  simp only [snapshot, ← h]

theorem list_restore (s : Schedule) (p : Snapshot) : (s.restore p).list = p.list := by
  unfold restore
  split <;> rfl

theorem defaultBus_restore (s : Schedule) (p : Snapshot) : (s.restore p).defaultBus = p.defaultBus := by
  unfold restore
  split <;> rfl

theorem bus_restore (s : Schedule) (p : Snapshot) : (s.restore p).bus = s.bus := by
  unfold restore
  split <;> rfl

theorem state_restore (s : Schedule) (p : Snapshot) : (s.restore p).state = s.state := by
  unfold restore
  split <;> rfl

theorem list_setState (s : Schedule) (state : Nat) : (s.setState state).list = s.list := by
  unfold setState
  split <;> rfl

theorem defaultBus_setState (s : Schedule) (state : Nat) : (s.setState state).defaultBus = s.defaultBus := by
  unfold setState
  split <;> rfl

theorem bus_setState (s : Schedule) (state : Nat) : (s.setState state).bus = s.bus := by
  unfold setState
  split <;> rfl

theorem state_setState (s : Schedule) (state : Nat) : (s.setState state).state = clampState state := by
  unfold setState
  by_cases h : clampState state = s.state
  · rw [if_pos h]
    exact h.symm
  · rw [if_neg h]
    rfl

theorem clampState_lt (state : Nat) : clampState state < pollStates :=
  Nat.lt_succ_of_le (Nat.min_le_right _ _)

theorem list_startNextPass (s : Schedule) : s.startNextPass.list = s.list := by
  unfold startNextPass
  split <;> rfl

theorem bus_startNextPass (s : Schedule) : s.startNextPass.bus = s.bus := by
  unfold startNextPass
  split <;> rfl

theorem state_startNextPass (s : Schedule) : s.startNextPass.state = s.state := by
  unfold startNextPass
  split <;> rfl

/-- Both ways in which the end of a pass shows put the cursor behind the last entry. -/
theorem cursor_of_passEnded (hle : s.cursor ≤ s.entries.length)
    (hc : s.passComplete = true → s.cursor = s.entries.length) (he : s.passEnded = true) :
    s.cursor = s.entries.length := by
  simp only [passEnded, Bool.or_eq_true, Bool.and_eq_true, decide_eq_true_eq] at he
  rcases he with hcomplete | ⟨-, hlast⟩
  · exact hc hcomplete
  · exact Nat.le_antisymm hle hlast

/-! ### The course over a list -/

/-- The place `p` in the list is the one after `polls`, the polls of all passes so far. -/
structure Snapshot.OnCourse (bus : BusId) (list : List PollEntry) (defaultBus : Option BusId)
    (state : Nat) (p : Snapshot) (polls : List (Nat × PollEntry)) : Prop where
  list_eq : p.list.getD [] = list
  defaultBus_eq : p.defaultBus = defaultBus
  state_eq : p.state = state
  cursor_le : p.cursor ≤ list.length
  complete : p.passComplete = true → p.cursor = list.length
  polls_eq : ∃ pass, p.ticker = pass % tickerWrap ∧
    polls = (List.range pass).flatMap (passPolls bus list defaultBus state) ++
      passPolls bus (list.take p.cursor) defaultBus state pass

namespace Snapshot.OnCourse
variable {polls : List (Nat × PollEntry)}

/-- At the start of a list nothing has been polled. -/
theorem start (list : Option (List PollEntry)) (defaultBus : Option BusId) (state : Nat) :
    (Snapshot.atStart list defaultBus state).OnCourse bus ((list.map trimList).getD []) defaultBus
      state [] :=
  ⟨rfl, rfl, rfl, Nat.zero_le _, by simp [Snapshot.atStart], 0, rfl,
    by simp [Snapshot.atStart, passPolls]⟩

/-- The polls of a course are the first polls of the passes over the list. -/
theorem polls_initial {p : Snapshot} (h : p.OnCourse bus list defaultBus state polls) :
    ∃ passes, polls <+: (List.range passes).flatMap (passPolls bus list defaultBus state) := by
  obtain ⟨pass, -, hpolls⟩ := h.polls_eq
  refine ⟨pass + 1, ?_⟩
  rw [hpolls, List.range_succ, List.flatMap_append, List.flatMap_singleton]
  exact (List.prefix_append_right_inj _).2 ⟨_, passPolls_take_drop list p.cursor pass⟩

/-- The next pass begins behind the last entry. -/
theorem startNextPass (h : s.snapshot.OnCourse s.bus list defaultBus state polls) :
    s.startNextPass.snapshot.OnCourse s.bus list defaultBus state polls := by
  unfold Schedule.startNextPass
  by_cases hend : s.passEnded = true
  · rw [if_pos hend]
    obtain ⟨pass, ht, hpolls⟩ := h.polls_eq
    have hent : s.entries = list := h.list_eq
    have hcur : s.cursor = list.length :=
      hent ▸ cursor_of_passEnded (hent ▸ h.cursor_le) (hent ▸ h.complete) hend
    refine ⟨h.list_eq, h.defaultBus_eq, h.state_eq, Nat.zero_le _, by simp [snapshot], pass + 1, ?_, ?_⟩
    · show (s.ticker + 1) % tickerWrap = _
      rw [show s.ticker = pass % tickerWrap from ht, Nat.mod_add_mod]
    · rw [hpolls, List.range_succ, List.flatMap_append, List.flatMap_singleton,
        show s.snapshot.cursor = list.length from hcur, List.take_length]
      simp [snapshot, passPolls]
  · rw [if_neg hend]
    exact h

/-- What is handed out is the next poll of the course. -/
theorem next (h : s.snapshot.OnCourse s.bus list defaultBus state polls) :
    s.next.2.snapshot.OnCourse s.bus list defaultBus state
      (match s.next.1 with | .due entry => polls ++ [(s.ticker, entry)] | _ => polls) := by
  have hent : s.entries = list := h.list_eq
  have hcur : s.cursor ≤ s.entries.length := hent ▸ h.cursor_le
  obtain ⟨pass, ht, hpolls⟩ := h.polls_eq
  have ht : s.ticker = pass % tickerWrap := ht
  have htake := passPolls_next ht
  rw [hent, show s.defaultBus = defaultBus from h.defaultBus_eq, show s.state = state from h.state_eq] at htake
  refine ⟨(next_entries s).trans h.list_eq, (next_defaultBus s).trans h.defaultBus_eq,
    (next_state s).trans h.state_eq, hent ▸ next_cursor_le hcur,
    hent ▸ next_complete hcur (hent ▸ h.complete), pass, (next_ticker s).trans ht, ?_⟩
  show _ = _ ++ passPolls _ (list.take s.next.2.cursor) _ _ _
  have hpolls : polls = _ ++ passPolls s.bus (list.take s.cursor) defaultBus state pass := hpolls
  rw [htake, ← List.append_assoc, ← hpolls]
  cases s.next.1 <;> simp

end Snapshot.OnCourse

end EcuPoll.Schedule
