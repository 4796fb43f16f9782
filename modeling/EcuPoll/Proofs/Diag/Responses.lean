import EcuPoll.Engine.Response
import EcuPoll.Proofs.IsoTp.Frames

/-!
# What a response begins with

`responseHeader` is what every positive response to a request begins with. An engine takes a segment
for the answer to its request just when the segment begins with this header, provided the PID fits its
width; a segment that begins otherwise is foreign, unless it is a negative response to the service.
`Envelope.answers_iff` says the same of envelopes on their own. A PID that does not fit is cut on its way
out, so that no response answers it.
-/

namespace EcuPoll

/-- The bytes of a positive response before its data. -/
def responseHeader (service : UInt8) (pid : UInt16) : List UInt8 :=
  (service + Envelope.positiveOffset) :: (PidWidth.of service).encode pid

/-- The PID has no more bytes than the responses of the service repeat. -/
def PidFits (service : UInt8) (pid : UInt16) : Prop :=
  PidWidth.of service = .byte → pid.toNat < 256

theorem length_responseHeader (service : UInt8) (pid : UInt16) :
    (responseHeader service pid).length = 1 + (PidWidth.of service).length := by
  rw [responseHeader, List.length_cons, PidWidth.length_encode, Nat.add_comm]

theorem length_responseHeader_le (service : UInt8) (pid : UInt16) :
    (responseHeader service pid).length ≤ 3 := by
  have := (PidWidth.of service).length_le_two
  rw [length_responseHeader]
  omega

/-! ### The PID on the wire -/

namespace PidWidth

theorem encode_word (hi lo : UInt8) : PidWidth.word.encode (Envelope.word hi lo) = [hi, lo] := by
  have hhi := hi.toNat_lt
  have hlo := lo.toNat_lt
  have hnat : (Envelope.word hi lo).toNat = hi.toNat * 256 + lo.toNat := Segment.toNat_word hi lo
  have hshift : (Envelope.word hi lo >>> 8).toNat = hi.toNat := by
    rw [UInt16.toNat_shiftRight, hnat, Nat.shiftRight_eq_div_pow]
    show (hi.toNat * 256 + lo.toNat) / 256 = _
    omega
  have hfirst : (Envelope.word hi lo >>> 8).toUInt8 = hi := by
    apply UInt8.toNat_inj.1
    rw [UInt16.toNat_toUInt8, hshift, Nat.mod_eq_of_lt hhi]
  have hsecond : (Envelope.word hi lo).toUInt8 = lo := by
    apply UInt8.toNat_inj.1
    rw [UInt16.toNat_toUInt8, hnat]
    omega
  rw [encode, hfirst, hsecond]

theorem word_encode (pid : UInt16) : Envelope.word (pid >>> 8).toUInt8 pid.toUInt8 = pid := by
  have hpid := pid.toNat_lt
  apply UInt16.toNat_inj.1
  have hnat := Segment.toNat_word (pid >>> 8).toUInt8 pid.toUInt8
  rw [UInt16.toNat_toUInt8, UInt16.toNat_toUInt8, UInt16.toNat_shiftRight, Nat.shiftRight_eq_div_pow] at hnat
  refine hnat.trans ?_
  show pid.toNat / 256 % 256 * 256 + pid.toNat % 256 = _
  omega

theorem readPid_encode {w : PidWidth} {pid : UInt16} (h : w = .byte → pid.toNat < 256)
    (rest : List UInt8) : Envelope.readPid pid w (w.encode pid ++ rest) = some pid := by
  cases w with
  | none => rfl
  | byte =>
    refine congrArg some (UInt16.toNat_inj.1 ?_)
    rw [UInt8.toNat_toUInt16, UInt16.toNat_toUInt8, Nat.mod_eq_of_lt (h rfl)]
  | word => exact congrArg some (word_encode pid)

/-- A PID that was read is no wider than it was on the wire. -/
theorem fits_of_readPid {w : PidWidth} {pid p : UInt16} {data : List UInt8}
    (h : Envelope.readPid pid w data = some p) (hw : w = .byte) : p.toNat < 256 := by
  subst hw
  rcases data with _ | ⟨b, rest⟩
  · cases h
  · obtain rfl := Option.some.inj h
    rw [UInt8.toNat_toUInt16]
    exact b.toNat_lt

theorem encode_of_readPid {w : PidWidth} {pid p : UInt16} {data : List UInt8}
    (h : Envelope.readPid pid w data = some p) : w.encode p <+: data := by
  cases w with
  | none => exact List.nil_prefix
  | byte =>
    rcases data with _ | ⟨b, rest⟩
    · cases h
    · obtain rfl := Option.some.inj h
      have hbyte : b.toUInt16.toUInt8 = b := by simp
      rw [encode, hbyte]
      exact ⟨rest, rfl⟩
  | word =>
    rcases data with _ | ⟨hi, _ | ⟨lo, rest⟩⟩
    · cases h
    · cases h
    · obtain rfl := Option.some.inj h
      rw [encode_word]
      exact ⟨rest, rfl⟩

end PidWidth

/-! ### Envelopes -/

namespace Envelope
variable {service responseType : UInt8} {pid p : UInt16} {code : NegativeCode} {data rest : List UInt8}

theorem ofSegment?_responseHeader (hs : service ≠ 0x3f) (hp : PidFits service pid) (rest : List UInt8) :
    ofSegment? pid (responseHeader service pid ++ rest) =
      some (.positive (service + positiveOffset) pid rest) := by
  have hback : service + positiveOffset - positiveOffset = service := UInt8.add_sub_cancel ..
  have htype : service + positiveOffset ≠ negativeType := by
    intro heq
    rw [heq] at hback
    exact hs hback.symm
  simp only [responseHeader, List.cons_append, ofSegment?, if_neg htype, hback,
    PidWidth.readPid_encode hp, Option.map_some]
  rw [List.drop_left' (PidWidth.length_encode ..)]

theorem negative_of_ofSegment? (h : ofSegment? pid data = some (.negative service code)) :
    [negativeType, service, code.byte] <+: data := by
  cases data with
  | nil => cases h
  | cons type data =>
    dsimp only [ofSegment?] at h
    by_cases htype : type = negativeType
    · rw [if_pos htype] at h
      split at h
      · cases h
        rw [htype]
        exact ⟨_, rfl⟩
      · cases h
    · rw [if_neg htype] at h
      obtain ⟨_, -, heq⟩ := Option.map_eq_some_iff.1 h
      cases heq

/-- A positive response holds its type, a PID as it was on the wire, and the data. -/
theorem positive_of_ofSegment? (h : ofSegment? pid data = some (.positive responseType p rest)) :
    data = responseType :: (PidWidth.of (responseType - positiveOffset)).encode p ++ rest ∧
      PidFits (responseType - positiveOffset) p := by
  unfold ofSegment? at h
  split at h
  · cases h
  · split at h
    · split at h <;> cases h
    · obtain ⟨p', hread, heq⟩ := Option.map_eq_some_iff.1 h
      cases heq
      obtain ⟨rest, rfl⟩ := PidWidth.encode_of_readPid hread
      rw [List.drop_left' (PidWidth.length_encode ..)]
      exact ⟨rfl, PidWidth.fits_of_readPid hread⟩

/-- What answers a request begins with the request's response header. -/
theorem segment_of_answers {envelope : Envelope} (h : ofSegment? pid data = some envelope)
    (ha : envelope.answers service pid) :
    PidFits service pid ∧ ∃ rest, data = responseHeader service pid ++ rest ∧
      envelope = .positive (service + positiveOffset) pid rest := by
  cases envelope with
  | negative => cases ha
  | positive responseType p rest =>
    simp only [answers, Bool.and_eq_true, beq_iff_eq] at ha
    obtain ⟨rfl, rfl⟩ := ha
    obtain ⟨hdata, hfits⟩ := positive_of_ofSegment? h
    rw [UInt8.add_sub_cancel] at hdata hfits
    exact ⟨hfits, rest, hdata, rfl⟩

theorem answers_positive (service : UInt8) (pid : UInt16) (rest : List UInt8) :
    (positive (service + positiveOffset) pid rest).answers service pid := by
  simp [answers]

theorem headerLength_positive (service : UInt8) (pid p : UInt16) (rest : List UInt8) :
    (positive (service + positiveOffset) p rest).headerLength = (responseHeader service pid).length := by
  rw [length_responseHeader, headerLength, positiveHeader, UInt8.add_sub_cancel]

/-- A segment answers a request just when it begins with the service's response type and then the bytes
that the request has behind its service, all of the PID being among them. The header is as long as this
beginning, and what follows is the data. -/
theorem answers_iff (hs : service ≠ 0x3f) (pid : UInt16) (segment : List UInt8) :
    let start := (service + positiveOffset) :: (encodeRequest service pid []).tail
    ((∃ envelope, ofSegment? pid segment = some envelope ∧ envelope.answers service pid) ↔
      start <+: segment ∧ PidFits service pid) ∧
    ∀ envelope, ofSegment? pid segment = some envelope → envelope.answers service pid →
      envelope.headerLength = start.length ∧
      envelope = .positive (service + positiveOffset) pid (segment.drop start.length) := by
  intro start
  have hstart : start = responseHeader service pid := by
    simp [start, responseHeader, encodeRequest, requestHeader]
  rw [hstart]
  refine ⟨⟨?_, ?_⟩, ?_⟩
  · rintro ⟨envelope, hread, hanswers⟩
    obtain ⟨hfits, rest, hsegment, -⟩ := segment_of_answers hread hanswers
    exact ⟨⟨rest, hsegment.symm⟩, hfits⟩
  · rintro ⟨⟨rest, rfl⟩, hfits⟩
    exact ⟨_, ofSegment?_responseHeader hs hfits rest, answers_positive service pid rest⟩
  · intro envelope hread hanswers
    obtain ⟨-, rest, rfl, rfl⟩ := segment_of_answers hread hanswers
    exact ⟨headerLength_positive .., by rw [List.drop_left]⟩

/-- A reading of PID F190 by identifier, and two bytes of data. -/
theorem answers_iff_example :
    let segment : List UInt8 := [0x62, 0xf1, 0x90, 0xaa, 0xbb]
    (0x22 : UInt8) ≠ 0x3f ∧ ∃ envelope, ofSegment? 0xf190 segment = some envelope ∧
      envelope.answers 0x22 0xf190 ∧ envelope.headerLength = 3 ∧
      envelope = .positive 0x62 0xf190 [0xaa, 0xbb] := by
  intro segment
  have hs : (0x22 : UInt8) ≠ 0x3f := by decide
  obtain ⟨hiff, hread⟩ := answers_iff hs 0xf190 segment
  obtain ⟨envelope, hsome, hanswers⟩ := hiff.2 ⟨by decide, fun hw => absurd hw (by decide)⟩
  obtain ⟨hlength, hdata⟩ := hread envelope hsome hanswers
  exact ⟨hs, envelope, hsome, hanswers, hlength, hdata⟩

/-- The PID 1234 is cut to one byte in a request of service 21. The response that repeats this byte does
not answer the request. -/
theorem not_answers_example :
    encodeRequest 0x21 0x1234 [] = [0x21, 0x34] ∧
    ¬ ∀ (service : UInt8) (pid : UInt16) (segment : List UInt8), service ≠ 0x3f →
      ((∃ envelope, ofSegment? pid segment = some envelope ∧ envelope.answers service pid) ↔
        (service + positiveOffset) :: (encodeRequest service pid []).tail <+: segment) := by
  refine ⟨by decide, fun h => ?_⟩
  have hiff := h 0x21 0x1234 [0x61, 0x34, 0xaa] (by decide)
  obtain ⟨envelope, hread, hanswers⟩ := hiff.2 (by decide)
  have heq : ofSegment? 0x1234 [0x61, 0x34, 0xaa] = some (.positive 0x61 0x34 [0xaa]) := by decide
  rw [heq] at hread
  obtain rfl := Option.some.inj hread
  exact absurd hanswers (by decide)

end Envelope

/-! ### Judging a segment -/

namespace Engine
variable {e : Engine} {data : List UInt8}

theorem judge_answer (hs : e.job.service ≠ 0x3f) (hp : PidFits e.job.service e.job.pid)
    (rest : List UInt8) : e.judge (responseHeader e.job.service e.job.pid ++ rest) = .answer rest := by
  simp only [judge, Envelope.ofSegment?_responseHeader hs hp, Envelope.answers_positive, if_true,
    Envelope.headerLength_positive _ e.job.pid, List.drop_left]

/-- What begins neither like the answer nor like a refusal of the service is foreign. -/
theorem judge_foreign (ha : ¬ responseHeader e.job.service e.job.pid <+: data)
    (hr : ∀ code, ¬ [Envelope.negativeType, e.job.service, code] <+: data) : e.judge data = .foreign := by
  unfold judge
  cases heq : Envelope.ofSegment? e.job.pid data with
  | none => rfl
  | some envelope =>
    cases envelope with
    | negative service code =>
      dsimp only
      by_cases hservice : service = e.job.service
      · rw [if_pos hservice]
        exact absurd (hservice ▸ Envelope.negative_of_ofSegment? heq) (hr code.byte)
      · rw [if_neg hservice]
    | positive responseType pid rest =>
      dsimp only
      by_cases hanswers : Envelope.answers e.job.service e.job.pid (.positive responseType pid rest) = true
      · rw [if_pos hanswers]
        obtain ⟨-, rest, hdata, -⟩ := Envelope.segment_of_answers heq hanswers
        exact absurd ⟨rest, hdata.symm⟩ ha
      · rw [if_neg hanswers]

/-- An answer begins with the service and the PID of the poll. -/
theorem eq_of_judge_answer {payload : List UInt8} (h : e.judge data = .answer payload) :
    data = responseHeader e.job.service e.job.pid ++ payload := by
  unfold judge at h
  cases heq : Envelope.ofSegment? e.job.pid data with
  | none =>
    rw [heq] at h
    cases h
  | some envelope =>
    rw [heq] at h
    cases envelope with
    | negative =>
      dsimp only at h
      split at h <;> cases h
    | positive responseType pid rest =>
      dsimp only at h
      by_cases hanswers : Envelope.answers e.job.service e.job.pid (.positive responseType pid rest) = true
      · rw [if_pos hanswers] at h
        cases h
        obtain ⟨-, rest, rfl, hpositive⟩ := Envelope.segment_of_answers heq hanswers
        rw [hpositive, Envelope.headerLength_positive _ e.job.pid, List.drop_left]
      · rw [if_neg hanswers] at h
        cases h

theorem judge_refused (code : UInt8) (rest : List UInt8) :
    e.judge (Envelope.negativeType :: e.job.service :: code :: rest) = .refused ⟨code⟩ := by
  simp only [judge, Envelope.ofSegment?, if_true]

theorem toNat_lessLength (remain : UInt16) (segment : List UInt8) :
    (lessLength remain segment).toNat = remain.toNat - segment.length := by
  have hlt := remain.toNat_lt
  unfold lessLength
  by_cases hle : segment.length ≤ remain.toNat
  · rw [if_pos hle]
    have hlen : (UInt16.ofNat segment.length).toNat = segment.length := by
      rw [UInt16.toNat_ofNat']
      omega
    rw [UInt16.toNat_sub_of_le _ _ (by rw [UInt16.le_iff_toNat_le, hlen]; exact hle), hlen]
  · rw [if_neg hle]
    show 0 = _
    omega

end Engine

end EcuPoll
