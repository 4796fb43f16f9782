import EcuPoll.Proofs.Engine.Works

/-!
# Writes

`writes` are the frames in a log. On a line that takes every write (`Line.TakesAll`) no frame is refused,
and as long as no failed write is to be judged, `settle` only reports frames that were sent:
`settle_good`.
-/

namespace EcuPoll

namespace Line
variable {l : Line}

/-- The line takes every write, now and later. -/
def TakesAll (l : Line) : Prop :=
  l.room = none ∧ ∀ change ∈ l.later, change.2 = none

theorem takesAll_free : Line.free.TakesAll := ⟨rfl, List.forall_mem_nil _⟩

theorem TakesAll.asOf (h : l.TakesAll) (now : Nat) : (l.asOf now).TakesAll := by
  refine ⟨?_, fun change hc => h.2 change (List.mem_filter.1 hc).1⟩
  have hroom : ((l.later.filter (·.1 ≤ now)).getLast?.map (·.2)).getD l.room = none := by
    cases hlast : (l.later.filter (·.1 ≤ now)).getLast? with
    | none => simpa [hlast] using h.1
    | some change => simpa [hlast] using h.2 change (List.mem_filter.1 (List.mem_of_getLast? hlast)).1
  exact hroom

theorem TakesAll.write (h : l.TakesAll) (now : Nat) : l.write now = (true, l.asOf now) := by
  simp only [Line.write, (h.asOf now).1]

end Line

/-- A frame that was handed to the bus. -/
structure Write where
  /-- In ms. -/
  time : Nat
  kind : FrameKind
  frame : Frame
deriving DecidableEq, Repr

def Stamped.write? (s : Stamped) : Option Write :=
  match s.event with
  | .wrote kind frame _ => some ⟨s.time, kind, frame⟩
  | _ => none

/-- The frames that were handed to the bus, oldest first, in a log with the newest event first. -/
def writes (log : List Stamped) : List Write :=
  log.reverse.filterMap Stamped.write?

theorem writes_append (new log : List Stamped) : writes (new ++ log) = writes log ++ writes new := by
  simp [writes]

theorem writes_eq_nil {new : List Stamped} (h : ∀ s ∈ new, ¬ s.event.IsWrite) : writes new = [] := by
  simp only [writes, List.filterMap_eq_nil_iff, List.mem_reverse]
  intro s hs
  have := h s hs
  unfold Stamped.write?
  cases heq : s.event with
  | wrote _ _ _ =>
    exact absurd (heq ▸ trivial) this
  | _ => rfl

/-- A frame of the poll in flight is on the bus. -/
def Event.IsSent : Event → Prop
  | .sent _ _ => True
  | _ => False

theorem Event.IsSent.not_isWrite {event : Event} (h : event.IsSent) : ¬ event.IsWrite := by
  cases event <;> first | exact h.elim | exact id

namespace Engine
variable {e : Engine}

/-- All writes that are still to be judged succeeded. -/
def AllSent (e : Engine) : Prop :=
  ∀ r ∈ e.results, r.2 = true

theorem transmit_good (hl : e.line.TakesAll) (kind : FrameKind) (frame : Frame) :
    e.transmit kind frame = { e with
      line := e.line.asOf e.now
      results := if e.reports then e.results else e.results ++ [(frame, true)]
      log := ⟨e.now, .wrote kind frame true⟩ :: e.log } := by
  simp only [transmit_eq, hl.write, Bool.true_and]

theorem AllSent.of_nil (h : e.results = []) : e.AllSent := by
  rw [AllSent, h]
  exact List.forall_mem_nil _

theorem AllSent.transmit (hs : e.AllSent) (hl : e.line.TakesAll) (kind : FrameKind) (frame : Frame) :
    (e.transmit kind frame).AllSent := by
  rw [transmit_good hl]
  intro r hr
  dsimp only at hr
  split at hr
  · exact hs r hr
  · rcases List.mem_append.1 hr with hr | hr
    · exact hs r hr
    · rw [List.mem_singleton.1 hr]

theorem judgeResult_good (e : Engine) (frame : Frame) :
    ∃ received new, e.judgeResult frame true =
      { e with job := { e.job with received }, log := new ++ e.log } ∧
        ∀ s ∈ new, s.event.IsSent := by
  have hsame : ∃ received new, e =
      { e with job := { e.job with received }, log := new ++ e.log } ∧ ∀ s ∈ new, s.event.IsSent :=
    ⟨e.job.received, [], rfl, by simp⟩
  unfold judgeResult
  split
  · exact hsame
  · dsimp only
    split
    · exact ⟨0, [_], rfl, by simp [Event.IsSent]⟩
    · exact hsame

theorem judgeResult_other {frame : Frame} (hi : frame.id ≠ e.job.txId) (success : Bool) :
    e.judgeResult frame success = e := by
  unfold judgeResult
  rw [if_pos (by simp [hi])]

/-- The frames that the bus refused are none of the poll in flight. -/
def NoneFailed (e : Engine) : Prop :=
  ∀ r ∈ e.results, r.2 = true ∨ r.1.id ≠ e.job.txId

theorem AllSent.noneFailed (h : e.AllSent) : e.NoneFailed := fun r hr => .inl (h r hr)

theorem judgeResults_noneFailed (hs : e.NoneFailed) :
    ∃ received new, e.judgeResults =
      { e with job := { e.job with received }, results := [], log := new ++ e.log } ∧
        ∀ s ∈ new, s.event.IsSent := by
  have hfold : ∀ (results : List (Frame × Bool)) (e : Engine),
      (∀ r ∈ results, r.2 = true ∨ r.1.id ≠ e.job.txId) →
      ∃ received new, results.foldl (fun e r => e.judgeResult r.1 r.2) e =
        { e with job := { e.job with received }, log := new ++ e.log } ∧
          ∀ s ∈ new, s.event.IsSent := by
    intro results
    induction results with
    | nil => exact fun e _ => ⟨e.job.received, [], rfl, by simp⟩
    | cons r results ih =>
      intro e hall
      rw [List.forall_mem_cons] at hall
      rw [List.foldl_cons]
      rcases hall.1 with hsent | hother
      · obtain ⟨received, new, heq, hnew⟩ := judgeResult_good e r.1
        obtain ⟨received', new', heq', hnew'⟩ := ih (e.judgeResult r.1 true) (by rw [heq]; exact hall.2)
        refine ⟨received', new' ++ new, ?_, ?_⟩
        · rw [hsent, heq', heq, List.append_assoc]
        · intro s hs
          rcases List.mem_append.1 hs with hs | hs
          · exact hnew' s hs
          · exact hnew s hs
      · rw [judgeResult_other hother]
        exact ih e hall.2
  exact hfold e.results { e with results := [] } hs

/-- If no single request can start, only the results of writes are judged. -/
theorem settle_eq_judgeResults (hs : e.judgeResults.single = e.single)
    (hq : e.single.isSome = true ∨ e.queued = []) : e.settle = e.judgeResults := by
  unfold settle
  rcases hqueue : e.queued with _ | ⟨request, queued⟩
  · rfl
  · have hsingle : e.judgeResults.single.isSome = true := by
      rw [hs]
      exact hq.resolve_right (by simp [hqueue])
    unfold startQueued
    exact if_pos hsingle

/-- If no single request can start and no write for the poll in flight has failed, an operation ends with
reports of the frames that were sent. -/
theorem settle_noneFailed (hs : e.NoneFailed) (hq : e.single.isSome = true ∨ e.queued = []) :
    ∃ received new, e.settle =
      { e with job := { e.job with received }, results := [], log := new ++ e.log } ∧
        ∀ s ∈ new, s.event.IsSent := by
  obtain ⟨received, new, heq, hnew⟩ := judgeResults_noneFailed hs
  refine ⟨received, new, ?_, hnew⟩
  rw [settle_eq_judgeResults (by rw [heq]) hq, heq]

/-- If no single request can start and no write has failed, an operation ends with reports of the
frames that were sent. -/
theorem settle_good (hs : e.AllSent) (hq : e.single.isSome = true ∨ e.queued = []) :
    ∃ received new, e.settle =
      { e with job := { e.job with received }, results := [], log := new ++ e.log } ∧
        ∀ s ∈ new, s.event.IsSent :=
  settle_noneFailed hs.noneFailed hq

end Engine

end EcuPoll
