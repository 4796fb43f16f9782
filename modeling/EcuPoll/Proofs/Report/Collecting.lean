import EcuPoll.Report.Log
import Mathlib.Data.List.Induction

/-!
# What a logged response consists of

Responses come interleaved. For each key, `Latest` picks out of the events so far those since a response
with this key last began or ended; what the log has collected for the key is the pieces in them
(`exists_latest`). So a response is logged with its own pieces and nothing else: `responses_logged`.
-/

namespace EcuPoll
variable {key : ResponseKey} {e : Event}

namespace Event

/-- The piece of a response with this key. -/
def piece (key : ResponseKey) : Event → List UInt8
  | .reply job data _ => if job.responseKey = key then data else []
  | _ => []

/-- A response with this key begins. -/
def Opens (key : ResponseKey) : Event → Prop
  | .reply job _ _ => job.responseKey = key ∧ job.mlOffset = 0
  | _ => False

/-- A response with this key is complete, or has failed. -/
def Closes (key : ResponseKey) : Event → Prop
  | .reply job _ remain => job.responseKey = key ∧ remain = 0
  | .failed job _ => job.responseKey = key
  | _ => False

end Event

namespace ResponseLog
variable {l : ResponseLog}

/-! ### One event -/

theorem collected_record_closes (h : e.Closes key) : (l.record e).2.collected key = [] := by
  cases e with
  | reply job data remain =>
    obtain ⟨rfl, rfl⟩ := h
    simp [record, reply, collected_set]
  | failed job failure =>
    obtain rfl := h
    simp [record, collected_set]
  | _ => exact h.elim

theorem collected_record_opens (h : e.Opens key) (hc : ¬e.Closes key) :
    (l.record e).2.collected key = e.piece key := by
  cases e with
  | reply job data remain =>
    obtain ⟨rfl, hoff⟩ := h
    have hr : remain ≠ 0 := fun hr => hc ⟨rfl, hr⟩
    simp [record, reply, Event.piece, hoff, hr, collected_set]
  | _ => exact h.elim

theorem collected_record_goesOn (ho : ¬e.Opens key) (hc : ¬e.Closes key) :
    (l.record e).2.collected key = l.collected key ++ e.piece key := by
  cases e with
  | reply job data remain =>
    by_cases hk : job.responseKey = key
    · subst hk
      have hoff : job.mlOffset ≠ 0 := fun h0 => ho ⟨rfl, h0⟩
      have hr : remain ≠ 0 := fun hr => hc ⟨rfl, hr⟩
      simp [record, reply, Event.piece, hoff, hr, collected_set]
    · simp only [record, reply, Event.piece, if_neg hk, List.append_nil]
      split <;> simp [collected_set, Ne.symm hk]
  | failed job failure =>
    have hk : key ≠ job.responseKey := fun hk => hc hk.symm
    simp [record, Event.piece, collected_set, hk]
  | sent job success => cases success <;> simp [record, Event.piece]
  | _ => simp [record, Event.piece]

/-! ### All events -/

theorem recordAll_append (l : ResponseLog) (xs ys : List Event) :
    l.recordAll (xs ++ ys) =
      ((l.recordAll xs).1 ++ ((l.recordAll xs).2.recordAll ys).1, ((l.recordAll xs).2.recordAll ys).2) := by
  induction xs generalizing l with
  | nil => rfl
  | cons x xs ih => simp [recordAll, ih]

theorem recordAll_singleton (l : ResponseLog) (e : Event) : l.recordAll [e] = l.record e := by
  simp [recordAll]

/-- The end of the events that counts for a key: it begins with the latest piece at offset 0 or behind the
latest response or failure, whichever is later. -/
structure Latest (key : ResponseKey) (events run : List Event) : Prop where
  cut : ∃ before, events = before ++ run ∧
    (before = [] ∨ (∃ e ∈ before.getLast?, e.Closes key) ∨ ∃ e ∈ run.head?, e.Opens key)
  not_closes : ∀ e ∈ run, ¬e.Closes key
  not_opens : ∀ e ∈ run.tail, ¬e.Opens key

namespace Latest
variable {events run run' : List Event}

theorem nil : Latest key [] [] :=
  ⟨⟨[], rfl, .inl rfl⟩, by simp, by simp⟩

theorem closes (events : List Event) (h : e.Closes key) : Latest key (events ++ [e]) [] :=
  ⟨⟨events ++ [e], by simp, .inr (.inl ⟨e, by simp, h⟩)⟩, by simp, by simp⟩

theorem opens (events : List Event) (h : e.Opens key) (hc : ¬e.Closes key) :
    Latest key (events ++ [e]) [e] :=
  ⟨⟨events, rfl, .inr (.inr ⟨e, rfl, h⟩)⟩, by simpa using hc, by simp⟩

theorem goesOn (h : Latest key events run) (ho : ¬e.Opens key) (hc : ¬e.Closes key) :
    Latest key (events ++ [e]) (run ++ [e]) := by
  obtain ⟨before, rfl, hcut⟩ := h.cut
  refine ⟨⟨before, by simp, ?_⟩, fun x hx => ?_, fun x hx => ?_⟩
  · rcases hcut with hb | hb | ⟨x, hx, hopens⟩
    · exact .inl hb
    · exact .inr (.inl hb)
    · exact .inr (.inr ⟨x, by rw [List.head?_append, hx]; rfl, hopens⟩)
  · rcases List.mem_append.1 hx with hx | hx
    · exact h.not_closes x hx
    · rwa [List.mem_singleton.1 hx]
  · cases run with
    | nil => simp at hx
    | cons y run =>
      rcases List.mem_append.1 hx with hx | hx
      · exact h.not_opens x hx
      · rwa [List.mem_singleton.1 hx]

/-- Of two places to begin, the earlier would have a beginning or an end behind it. -/
theorem eq_nil_of_append {before mid : List Event} (h : Latest key (before ++ mid ++ run) (mid ++ run))
    (hcut : before ++ mid = [] ∨ (∃ e ∈ (before ++ mid).getLast?, e.Closes key) ∨ ∃ e ∈ run.head?, e.Opens key) :
    mid = [] := by
  by_contra hne
  obtain ⟨init, last, rfl⟩ := (List.eq_nil_or_concat mid).resolve_left hne
  rw [List.concat_eq_append] at *
  rcases hcut with hb | ⟨e, he, hcloses⟩ | ⟨e, he, hopens⟩
  · simp at hb
  · refine h.not_closes e ?_ hcloses
    rw [← List.append_assoc, List.getLast?_concat] at he
    obtain rfl := Option.some.inj he
    simp
  · refine h.not_opens e ?_ hopens
    obtain ⟨rest, rfl⟩ : ∃ rest, run = e :: rest := by
      cases run with
      | nil => cases he
      | cons x rest => obtain rfl := Option.some.inj he; exact ⟨rest, rfl⟩
    cases init <;> simp

theorem unique (h : Latest key events run) (h' : Latest key events run') : run = run' := by
  obtain ⟨before, heq, hcut⟩ := h.cut
  obtain ⟨before', heq', hcut'⟩ := h'.cut
  rcases List.append_eq_append_iff.1 (heq.symm.trans heq') with ⟨mid, rfl, rfl⟩ | ⟨mid, rfl, rfl⟩
  · rw [heq'] at h
    rw [h.eq_nil_of_append hcut', List.nil_append]
  · rw [heq] at h'
    rw [h'.eq_nil_of_append hcut, List.nil_append]

end Latest

/-- What has been collected are the pieces among the events that count. -/
theorem exists_latest (key : ResponseKey) (events : List Event) : ∃ run, Latest key events run ∧
    (empty.recordAll events).2.collected key = run.flatMap (·.piece key) := by
  induction events using List.reverseRecOn with
  | nil => exact ⟨[], .nil, rfl⟩
  | append_singleton events e ih =>
    obtain ⟨run, hrun, hcol⟩ := ih
    rw [recordAll_append, recordAll_singleton]
    by_cases hc : e.Closes key
    · exact ⟨[], .closes events hc, collected_record_closes hc⟩
    by_cases ho : e.Opens key
    · exact ⟨[e], .opens events ho hc, by simp [collected_record_opens ho hc]⟩
    · exact ⟨run ++ [e], hrun.goesOn ho hc, by simp [collected_record_goesOn ho hc, hcol]⟩

end ResponseLog

end EcuPoll
