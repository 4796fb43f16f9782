import EcuPoll.Proofs.Engine.Dropped

/-!
# What follows a result

When the result of a poll has been handed on, no single request has the bus and nothing is awaited, the engine goes on
to the next poll, at once or later. `Hushes` says that it hands on no other result before that poll begins, so that the
result is the only one among `firstResults`.
-/

namespace EcuPoll

namespace Event

/-- A result is handed on: to the receiver of results, or to the caller of a single request. -/
def givesResult : Event → Bool
  | .reply _ _ _ | .failed _ _ | .singleResolved _ _ => true
  | _ => false

/-- Another poll begins, or a single request. -/
def beginsPoll : Event → Bool
  | .dispatched _ _ _ | .singleStarted _ => true
  | _ => false

/-- No result is handed on, and no poll begins. -/
def IsIncidental (event : Event) : Prop :=
  event.givesResult = false ∧ event.beginsPoll = false

theorem IsSent.isIncidental {event : Event} (h : event.IsSent) : event.IsIncidental := by
  cases event <;> first | exact ⟨rfl, rfl⟩ | exact h.elim

end Event

/-- The results that are handed on before another poll begins, oldest first, in a log with the newest event first. -/
def firstResults (log : List Stamped) : List Event :=
  ((log.reverse.map (·.event)).takeWhile (!·.beginsPoll)).filter (·.givesResult)

theorem firstResults_append {new : List Stamped} (h : ∀ s ∈ new, s.event.beginsPoll = false) (later : List Stamped) :
    firstResults (later ++ new) = firstResults new ++ firstResults later := by
  have hall : ∀ event ∈ new.reverse.map (·.event), (!event.beginsPoll) = true := by
    intro event hmem
    obtain ⟨s, hs, rfl⟩ := List.mem_map.1 hmem
    rw [h s (List.mem_reverse.1 hs)]
    rfl
  unfold firstResults
  rw [List.reverse_append, List.map_append, List.takeWhile_append_of_pos hall, List.filter_append,
    List.takeWhile_eq_self_iff.2 hall]

theorem firstResults_incidental {new : List Stamped} (h : ∀ s ∈ new, s.event.IsIncidental) : firstResults new = [] := by
  unfold firstResults
  refine List.filter_eq_nil_iff.2 fun event hmem => ?_
  obtain ⟨s, hs, rfl⟩ := List.mem_map.1 ((List.takeWhile_sublist _).subset hmem)
  rw [(h s (List.mem_reverse.1 hs)).1]
  exact Bool.false_ne_true

/-- What comes after another poll has begun does not count. -/
theorem firstResults_begun {s : Stamped} (hs : s.event.beginsPoll = true) (later : List Stamped) :
    firstResults (later ++ [s]) = [] := by
  unfold firstResults
  rw [List.reverse_append, List.map_append]
  simp [hs]

namespace Engine
variable {e e' e'' : Engine}

/-- Another poll begins, and before that no result is handed on. -/
def Renews (e e' : Engine) : Prop :=
  ∃ e₁ s, Adds Event.IsIncidental e e₁ ∧ s.event.beginsPoll = true ∧ s :: e₁.log <:+ e'.log

namespace Renews

theorem grows (h : Renews e e') (hg : e'.log <:+ e''.log) : Renews e e'' := by
  obtain ⟨e₁, s, hadds, hs, hlog⟩ := h
  exact ⟨e₁, s, hadds, hs, hlog.trans hg⟩

theorem of_incidental (ha : Adds Event.IsIncidental e e') (h : Renews e' e'') : Renews e e'' := by
  obtain ⟨e₁, s, hadds, hs, hlog⟩ := h
  exact ⟨e₁, s, ha.trans hadds, hs, hlog⟩

theorem dispatch (e : Engine) (entry : PollEntry) : Renews e (e.dispatch entry) := by
  refine ⟨e, ⟨e.now, .dispatched entry e.schedule.ticker e.singleTicket⟩, .refl e, rfl, ?_⟩
  exact (Grows.of_stays (Stays.dispatch entry (.refl (e.assign entry)))).log

theorem startSingle {request : SingleRequest} (hg : request.isGone e.now = false) :
    Renews e (e.startSingle request) := by
  refine ⟨e, ⟨e.now, .singleStarted request.ticket⟩, .refl e, rfl, ?_⟩
  unfold Engine.startSingle
  rw [hg, if_neg Bool.false_ne_true]
  dsimp only
  cases (e.capture request).schedule.next.1 with
  | due entry =>
    have hdispatch := Grows.of_stays (Stays.dispatch entry (.refl ((e.capture request).advance.assign entry)))
    exact (List.suffix_cons ..).trans hdispatch.log
  | _ => exact List.suffix_cons ..

end Renews

/-- No single request has the bus and nothing is awaited, and that stays so without another result, until another poll
begins. -/
inductive Hushes (e e' : Engine) : Prop
  | still (hs : e'.single = none) (hw : e'.wait = 0) (h : Adds Event.IsIncidental e e')
  | renews (h : Renews e e')

namespace Hushes

theorem of_log (hs : e'.single = none) (hw : e'.wait = 0) (hl : e'.log = e.log) : Hushes e e' :=
  .still hs hw (.of_log hl)

theorem trans (h : Hushes e e') (hg : e'.log <:+ e''.log)
    (h' : e'.single = none → e'.wait = 0 → Hushes e' e'') : Hushes e e'' := by
  cases h with
  | renews h => exact .renews (h.grows hg)
  | still hs hw h =>
    cases h' hs hw with
    | renews h' => exact .renews (.of_incidental h h')
    | still hs' hw' h' => exact .still hs' hw' (h.trans h')

theorem firstResults_eq_nil (h : Hushes e e') : ∃ new, e'.log = new ++ e.log ∧ firstResults new = [] := by
  cases h with
  | still _ _ h =>
    obtain ⟨new, hnew, hnone⟩ := h
    exact ⟨new, hnew, firstResults_incidental hnone⟩
  | renews h =>
    obtain ⟨e₁, s, ⟨mid, hmid, hnone⟩, hs, later, hlater⟩ := h
    refine ⟨(later ++ [s]) ++ mid, ?_, ?_⟩
    · rw [← hlater, hmid]
      simp
    · rw [firstResults_append fun s hs => (hnone s hs).2, firstResults_incidental hnone, firstResults_begun hs]
      rfl

/-! ### Choosing the next poll -/

theorem startSingle (hs : e.single = none) (hw : e.wait = 0) (request : SingleRequest) :
    Hushes e (e.startSingle request) := by
  cases hg : request.isGone e.now with
  | false => exact .renews (.startSingle hg)
  | true =>
    rw [startSingle_gone hg]
    exact .still hs hw ((Adds.refl e).emit ⟨rfl, rfl⟩)

/-- The next request in the queue starts. -/
theorem start (h : Hushes e e') (hs : e'.single = none) (request : SingleRequest) :
    Hushes e (e'.startSingle request) :=
  h.trans (Grows.of_stays (Stays.startSingle (.refl e') hs request)).log fun hs hw => startSingle hs hw request

theorem pollList (hs : e.single = none) (hw : e.wait = 0) : Hushes e e.pollList := by
  unfold Engine.pollList
  split
  · exact .renews (.of_incidental (.of_log rfl) (.dispatch e.advance _))
  · split
    · exact .of_log hs hw rfl
    · exact .still hs hw ⟨[_], rfl, List.forall_mem_singleton.2 ⟨rfl, rfl⟩⟩
  · exact .of_log hs hw rfl

theorem sendNext (hs : e.single = none) (hw : e.wait = 0) : Hushes e (e.sendNext false) := by
  have hr : Hushes e { e with active := false } := .of_log hs hw rfl
  have hsent := sendNext_sent e false
  generalize e.sendNext false = e' at hsent ⊢
  cases hsent with
  | waits hwait => omega
  | held => exact hr
  | @single request queued =>
    have htake : Hushes e { e with active := false, queued } := .of_log hs hw rfl
    exact htake.start hs request
  | list _ _ _ hp =>
    obtain rfl := hp.resolve_right (by simp)
    split
    · exact hr
    · exact hr.trans (Grows.pollList _).log pollList

theorem pollNext (hs : e.single = none) (hw : e.wait = 0) : Hushes e e.pollNext := by
  have hr : Hushes e { e with active := false } := .of_log hs hw rfl
  unfold Engine.pollNext
  dsimp only
  split
  · exact hr
  · split
    · exact hr.trans (Grows.turns ((Turns.refl _).sendNext false)).log sendNext
    · exact .of_log hs hw rfl

/-- The results of writes do not count when nothing is awaited. -/
theorem judgeResults (hs : e.single = none) (hw : e.wait = 0) : Hushes e e.judgeResults := by
  rw [judgeResults_ended (.inl hw)]
  exact .of_log hs hw rfl

theorem settle (hs : e.single = none) (hw : e.wait = 0) : Hushes e e.settle := by
  have hqueue : ∀ (queued : List SingleRequest) (e : Engine), e.queued = queued → e.single = none →
      e.wait = 0 → Hushes e (startQueued queued e) := by
    intro queued
    induction queued with
    | nil => exact fun e _ hs hw => judgeResults hs hw
    | cons request queued ih =>
      intro e hq hs hw
      unfold startQueued
      dsimp only
      rw [judgeResults_ended (.inl hw), if_neg (by simp [hs])]
      have htake : Hushes e { e with results := [], queued } := .of_log hs hw rfl
      have hstart := htake.start hs request
      have hqueued : (Engine.startSingle { e with results := [], queued } request).queued = queued :=
        queued_startSingle ..
      generalize Engine.startSingle { e with results := [], queued } request = e' at hstart hqueued ⊢
      have hgrows : e'.log <:+ (startQueued queued e').log :=
        (Grows.turns (Turns.startQueued queued (.judgeResults (.refl e')) hqueued)).log
      exact hstart.trans hgrows (ih e' hqueued)
  exact hqueue e.queued e rfl hs hw

/-- The poll is over, and the next one follows. -/
theorem pollNext_settle (hs : e.single = none) (hw : e.wait = 0) : Hushes e e.pollNext.settle :=
  (pollNext hs hw).trans (Grows.turns (Turns.refl _).settle).log settle

end Hushes

end Engine

end EcuPoll
