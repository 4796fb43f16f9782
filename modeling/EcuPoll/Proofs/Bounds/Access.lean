import EcuPoll.Engine.Operation
import EcuPoll.Proofs.IsoTp.Frames

/-!
# Bytes read and written with checks

The engine cuts, copies and counts bytes by lengths that come from the bus or from the poll list. `Checked`
renders these computations step by step, with `none` for an index or a range outside of the bytes, for a copy
between ranges of different lengths and for a difference below zero. Each is shown to give what the
definition without checks gives, for all bytes; the rest of a request has to be in bounds for that.
-/

namespace EcuPoll.Checked
variable {α : Type}

/-! ### Indices, ranges and differences -/

/-- The elements from `start` to before `stop`. -/
def part (xs : List α) (start stop : Nat) : Option (List α) :=
  if start ≤ stop ∧ stop ≤ xs.length then some ((xs.drop start).take (stop - start)) else none

/-- The elements from `start` on. -/
def rest (xs : List α) (start : Nat) : Option (List α) :=
  part xs start xs.length

/-- `x` written at `i`. -/
def put (xs : List α) (i : Nat) (x : α) : Option (List α) :=
  if i < xs.length then some (xs.set i x) else none

/-- `ys` copied over the elements from `start` to before `stop`. -/
def paste (xs : List α) (start stop : Nat) (ys : List α) : Option (List α) :=
  if start ≤ stop ∧ stop ≤ xs.length ∧ stop - start = ys.length then
    some (xs.take start ++ (ys ++ xs.drop stop))
  else none

def less (m n : Nat) : Option Nat :=
  if n ≤ m then some (m - n) else none

theorem part_of_le {xs : List α} {start stop : Nat} (h : start ≤ stop) (hs : stop ≤ xs.length) :
    part xs start stop = some ((xs.drop start).take (stop - start)) :=
  if_pos ⟨h, hs⟩

theorem part_zero {xs : List α} {stop : Nat} (h : stop ≤ xs.length) : part xs 0 stop = some (xs.take stop) :=
  part_of_le (Nat.zero_le _) h

theorem rest_of_le {xs : List α} {start : Nat} (h : start ≤ xs.length) : rest xs start = some (xs.drop start) := by
  rw [rest, part_of_le h (Nat.le_refl _), ← List.length_drop, List.take_length]

theorem put_of_lt {xs : List α} {i : Nat} (h : i < xs.length) (x : α) : put xs i x = some (xs.set i x) :=
  if_pos h

theorem less_of_le {m n : Nat} (h : n ≤ m) : less m n = some (m - n) :=
  if_pos h

/-! ### Buffers -/

/-- A buffer of `room` bytes that begins with `bytes`. -/
def buffer (filler : UInt8) (room : Nat) (bytes : List UInt8) : List UInt8 :=
  bytes ++ List.replicate (room - bytes.length) filler

section Buffer
variable {filler : UInt8} {room : Nat} {bytes : List UInt8}

theorem length_buffer (h : bytes.length ≤ room) : (buffer filler room bytes).length = room := by
  simp only [buffer, List.length_append, List.length_replicate]
  omega

@[simp] theorem length_blank : (buffer filler room []).length = room :=
  length_buffer (Nat.zero_le room)

theorem put_buffer {n : Nat} (hn : bytes.length = n) (h : n < room) (b : UInt8) :
    put (buffer filler room bytes) n b = some (buffer filler room (bytes ++ [b])) := by
  subst hn
  rw [put_of_lt (by rwa [length_buffer (Nat.le_of_lt h)]), buffer, buffer, List.set_append_right _ _ (Nat.le_refl _),
    Nat.sub_self, List.append_assoc, List.length_append, List.length_singleton, List.singleton_append,
    show room - bytes.length = room - (bytes.length + 1) + 1 by omega, List.replicate_succ, List.set_cons_zero]

theorem paste_buffer {more : List UInt8} (h : bytes.length + more.length ≤ room) :
    paste (buffer filler room bytes) bytes.length (bytes.length + more.length) more =
      some (buffer filler room (bytes ++ more)) := by
  rw [paste, if_pos ⟨by omega, by rw [length_buffer (by omega)]; exact h, by omega⟩, buffer, buffer,
    List.take_left, List.drop_append, List.drop_of_length_le (by omega), List.nil_append, List.drop_replicate,
    List.append_assoc, List.length_append]
  congr 4
  omega

theorem paste_blank {stop : Nat} (hs : bytes.length = stop) (h : stop ≤ room) :
    paste (buffer filler room []) 0 stop bytes = some (buffer filler room bytes) := by
  have hpaste := @paste_buffer filler room [] bytes (by rw [hs, List.length_nil]; omega)
  rwa [hs, List.length_nil, Nat.zero_add, List.nil_append] at hpaste

theorem rest_buffer {n : Nat} (hn : bytes.length = n) (h : n ≤ room) :
    rest (buffer filler room bytes) n = some (buffer filler (room - n) []) := by
  subst hn
  rw [rest_of_le (by rwa [length_buffer h]), buffer, List.drop_left]
  rfl

theorem take_buffer {n : Nat} (hn : bytes.length = n) (more : List UInt8) :
    (buffer filler room bytes).take n ++ buffer filler (room - n) more = buffer filler room (bytes ++ more) := by
  subst hn
  simp only [buffer, List.take_left, List.append_assoc, List.length_append, Nat.sub_sub]

theorem part_buffer {n : Nat} (hn : bytes.length = n) (h : n ≤ room) :
    part (buffer filler room bytes) 0 n = some bytes := by
  subst hn
  rw [part_zero (by rwa [length_buffer h]), buffer, List.take_left]

/-- The first byte of a buffer is written last. -/
theorem put_first (old first : UInt8) : put (buffer filler room (old :: bytes)) 0 first =
    some (buffer filler room (first :: bytes)) :=
  put_of_lt (Nat.succ_pos _) first

end Buffer

/-! ### Frames -/

theorem fill_take (filler : UInt8) (bytes : List UInt8) :
    Frame.fill filler (bytes.take 8) = Frame.fill filler bytes := by
  apply Vector.ext
  intro i hi
  simp [Frame.fill, List.getD_eq_getElem?_getD]

theorem fill_buffer (filler : UInt8) (room : Nat) (bytes : List UInt8) :
    Frame.fill filler (buffer filler room bytes) = Frame.fill filler bytes := by
  apply Vector.ext
  intro i hi
  simp only [Frame.fill, Vector.getElem_ofFn, List.getD_eq_getElem?_getD, buffer]
  by_cases h : i < bytes.length
  · rw [List.getElem?_append_left h]
  · rw [List.getElem?_append_right (by omega), List.getElem?_eq_none (by omega : bytes.length ≤ i),
      List.getElem?_replicate]
    split <;> rfl

/-- A frame cut to its data. -/
def cut (bus : BusId) (id : UInt32) (extended : Bool) (bytes : List UInt8) : Option Frame := do
  let length := min bytes.length 8
  let data ← paste (buffer 0 8 []) 0 length (← part bytes 0 length)
  return ⟨bus, id, extended, length, Frame.fill 0 data⟩

@[simp] theorem cut_eq (bus : BusId) (id : UInt32) (extended : Bool) (bytes : List UInt8) :
    cut bus id extended bytes = some (Frame.cut bus id extended bytes) := by
  have hlen : (bytes.take (min bytes.length 8)).length = min bytes.length 8 := by
    rw [List.length_take]
    omega
  have htake : Frame.fill 0 (bytes.take (min bytes.length 8)) = Frame.fill 0 bytes := by
    rcases Nat.le_total bytes.length 8 with h | h
    · rw [Nat.min_eq_left h, List.take_length]
    · rw [Nat.min_eq_right h, fill_take]
  simp only [cut, part_zero (Nat.min_le_left ..), Option.bind_eq_bind, Option.bind_some,
    paste_blank hlen (Nat.min_le_right ..), fill_buffer, htake]
  rfl

/-- The data of a frame that the log shows. -/
def shown (frame : Frame) : Option (List UInt8) :=
  part frame.data.toList 0 (min frame.dlc 8)

@[simp] theorem shown_eq (frame : Frame) : shown frame = some frame.payload := by
  rw [shown, part_zero (by rw [Vector.length_toList]; omega), Frame.payload]
  rcases Nat.le_total frame.dlc 8 with h | h
  · rw [Nat.min_eq_left h]
  · rw [Nat.min_eq_right h, List.take_of_length_le (by simp), List.take_of_length_le (by simpa using h)]

/-! ### Payloads -/

/-- A payload as an entry keeps it. -/
inductive Kept
  /-- In the entry itself, which has room for a few bytes. -/
  | inside (length : UInt8) (bytes : List UInt8)
  | shared (bytes : List UInt8)

/-- A copy of `bytes`. -/
def Kept.copy (bytes : List UInt8) : Option Kept :=
  if fitsInline bytes then do
    return .inside (.ofNat bytes.length) (← paste (buffer 0 inlinePayloadMax []) 0 bytes.length bytes)
  else some (.shared bytes)

def Kept.bytes : Kept → Option (List UInt8)
  | .inside length bytes => part bytes 0 length.toNat
  | .shared bytes => some bytes

/-- The payload read back from an entry. Whether it was copied or shared must not matter. -/
def readBack (payload : List UInt8) : Option (List UInt8) := do
  let copied ← (← Kept.copy payload).bytes
  let shared ← (Kept.shared payload).bytes
  if copied = shared then some copied else none

@[simp] theorem readBack_eq (payload : List UInt8) : readBack payload = some payload := by
  by_cases h : payload.length ≤ inlinePayloadMax
  · have hmax : payload.length ≤ 6 := h
    have hpaste := @paste_buffer 0 inlinePayloadMax [] payload (by simpa using h)
    simp only [List.length_nil, Nat.zero_add, List.nil_append] at hpaste
    have hnat : (UInt8.ofNat payload.length).toNat = payload.length :=
      UInt8.toNat_ofNat_of_lt' (by show _ < 256; omega)
    simp [readBack, Kept.copy, fitsInline, h, paste_blank, Kept.bytes, hnat, part_buffer]
  · simp [readBack, Kept.copy, fitsInline, h, Kept.bytes]

/-! ### Request headers -/

/-- The PID written over the start of `buf`. -/
def encodePid (pid : UInt16) (buf : List UInt8) : PidWidth → Option (List UInt8)
  | .none => some buf
  | .byte => put buf 0 pid.toUInt8
  | .word => do put (← put buf 0 (pid >>> 8).toUInt8) 1 pid.toUInt8

def header (service : UInt8) (pid : UInt16) : Option (List UInt8) := do
  let out ← put (buffer 0 (1 + (PidWidth.of service).length) []) 0 service
  let tail ← encodePid pid (← rest out 1) (PidWidth.of service)
  return out.take 1 ++ tail

@[simp] theorem header_eq (service : UInt8) (pid : UInt16) :
    header service pid = some (requestHeader service pid) := by
  unfold header requestHeader
  cases PidWidth.of service <;> rfl

/-! ### Received bytes -/

/-- The segment in the bytes of a frame, if there is one. -/
def segment (bytes : List UInt8) : Option (Option Segment) :=
  match bytes[0]? with
  | none => some none
  | some pci =>
    let low := pci &&& 0x0f
    match (pci >>> 4).toNat with
    | 0 => do
      let length := min low.toNat (← less bytes.length 1)
      return some (.single (← part bytes 1 (1 + length)))
    | 1 =>
      match bytes[1]? with
      | none => some none
      | some lo => do
        let total := low.toUInt16 <<< 8 ||| lo.toUInt16
        let length := min total.toNat (← less bytes.length 2)
        return some (.first total (← part bytes 2 (2 + length)))
    | 2 => do return some (.consecutive low (← rest bytes 1))
    | 3 => some (some (.flow low (bytes.getD 1 0) (bytes.getD 2 0)))
    | _ => some none

theorem part_min {xs : List α} {start : Nat} (h : start ≤ xs.length) (n : Nat) :
    part xs start (start + min n (xs.length - start)) = some ((xs.drop start).take n) := by
  rw [part_of_le (by omega) (by omega), Nat.add_sub_cancel_left]
  rcases Nat.le_total n (xs.length - start) with hn | hn
  · rw [Nat.min_eq_left hn]
  · rw [Nat.min_eq_right hn, ← List.length_drop, List.take_length, List.take_of_length_le (by simpa using hn)]

@[simp] theorem segment_eq (bytes : List UInt8) : segment bytes = some (Segment.ofBytes? bytes) := by
  cases bytes with
  | nil => rfl
  | cons pci data =>
    have hless : less (pci :: data).length 1 = some ((pci :: data).length - 1) := less_of_le (by simp)
    have hpart : ∀ n, part (pci :: data) 1 (1 + min n ((pci :: data).length - 1)) = some (data.take n) :=
      part_min (by simp)
    unfold segment Segment.ofBytes?
    rw [List.getElem?_cons_zero]
    dsimp only
    generalize (pci >>> 4).toNat = kind
    rcases kind with _ | _ | _ | _ | kind
    · simp only [hless, Option.bind_eq_bind, Option.bind_some, hpart]
      rfl
    · cases data with
      | nil => rfl
      | cons lo data =>
        have hless : less (pci :: lo :: data).length 2 = some ((pci :: lo :: data).length - 2) := less_of_le (by simp)
        have hpart : ∀ n, part (pci :: lo :: data) 2 (2 + min n ((pci :: lo :: data).length - 2)) =
            some (data.take n) := part_min (by simp)
        simp only [List.getElem?_cons_succ, List.getElem?_cons_zero, hless, Option.bind_eq_bind, Option.bind_some,
          hpart]
        rfl
    · have hrest : rest (pci :: data) 1 = some data := rest_of_le (by simp)
      simp [hrest]
    · rfl
    · rfl

/-- The PID behind the first byte of a response. -/
def readPid (requestPid : UInt16) (segment : List UInt8) : PidWidth → Option UInt16
  | .none => some requestPid
  | .byte => segment[1]?.map (·.toUInt16)
  | .word => do return Envelope.word (← segment[1]?) (← segment[2]?)

/-- The envelope at the start of a segment, if the segment is long enough. -/
def envelope (requestPid : UInt16) (segment : List UInt8) : Option (Option Envelope) :=
  match segment[0]? with
  | none => some none
  | some responseType =>
    if responseType = Envelope.negativeType then
      if segment.length < 3 then some none
      else do return some (.negative (← segment[1]?) ⟨← segment[2]?⟩)
    else
      let width := PidWidth.of (responseType - Envelope.positiveOffset)
      if segment.length < 1 + width.length then some none
      else do
        let pid ← readPid requestPid segment width
        return some (.positive responseType pid (← rest segment (1 + width.length)))

@[simp] theorem envelope_eq (requestPid : UInt16) (segment : List UInt8) :
    envelope requestPid segment = some (Envelope.ofSegment? requestPid segment) := by
  cases segment with
  | nil => rfl
  | cons responseType data =>
    unfold envelope Envelope.ofSegment?
    rw [List.getElem?_cons_zero]
    dsimp only
    split
    · rcases data with _ | ⟨service, _ | ⟨code, data⟩⟩ <;> simp
    · cases PidWidth.of (responseType - Envelope.positiveOffset) with
      | none => simp [PidWidth.length, rest_of_le, readPid, Envelope.readPid]
      | byte => cases data <;> simp [PidWidth.length, rest_of_le, readPid, Envelope.readPid]
      | word =>
        rcases data with _ | ⟨hi, _ | ⟨lo, data⟩⟩ <;>
          simp [PidWidth.length, rest_of_le, readPid, Envelope.readPid]

/-- What the envelope of a segment says about the poll in flight. -/
def judge (e : Engine) (segment : List UInt8) : Option Engine.Verdict := do
  match ← envelope e.job.pid segment with
  | none => return .foreign
  | some (.negative service code) => return if service = e.job.service then .refused code else .foreign
  | some (.positive responseType pid data) =>
    let envelope := Envelope.positive responseType pid data
    if envelope.answers e.job.service e.job.pid then return .answer (← rest segment envelope.headerLength)
    else return .foreign

theorem headerLength_le {requestPid pid : UInt16} {segment data : List UInt8} {responseType : UInt8}
    (h : Envelope.ofSegment? requestPid segment = some (.positive responseType pid data)) :
    (Envelope.positive responseType pid data).headerLength ≤ segment.length := by
  rcases segment with _ | ⟨lead, bytes⟩
  · cases h
  unfold Envelope.ofSegment? at h
  dsimp only at h
  split at h
  · split at h <;> cases h
  obtain ⟨read, hread, hpos⟩ := Option.map_eq_some_iff.1 h
  obtain rfl : lead = responseType := (Envelope.positive.inj hpos).1
  rw [Envelope.headerLength, Envelope.positiveHeader, List.length_cons, Nat.add_comm, Nat.add_le_add_iff_right]
  clear h hpos
  revert hread
  cases PidWidth.of (lead - Envelope.positiveOffset) with
  | none => simp [PidWidth.length]
  | byte => cases bytes <;> simp [PidWidth.length, Envelope.readPid]
  | word => rcases bytes with _ | ⟨hi, _ | ⟨lo, bytes⟩⟩ <;> simp [PidWidth.length, Envelope.readPid]

@[simp] theorem judge_eq (e : Engine) (segment : List UInt8) : judge e segment = some (e.judge segment) := by
  unfold judge Engine.judge
  rw [envelope_eq]
  simp only [Option.bind_eq_bind, Option.bind_some]
  cases henv : Envelope.ofSegment? e.job.pid segment with
  | none => rfl
  | some envelope =>
    cases envelope with
    | negative => rfl
    | positive responseType pid data =>
      dsimp only
      rw [rest_of_le (headerLength_le henv)]
      split <;> rfl

/-! ### Times -/

def separationDelay (septime : UInt8) : Option Nat :=
  if septime ≤ 127 then some (septime.toNat * 1000)
  else if 241 ≤ septime then do return (← less septime.toNat 240) * 100
  else some 0

@[simp] theorem separationDelay_eq (septime : UInt8) :
    separationDelay septime = some (EcuPoll.separationDelay septime) := by
  unfold separationDelay EcuPoll.separationDelay
  split
  · rfl
  · by_cases h : 241 ≤ septime
    · rw [if_pos h, if_pos h]
      have h : 241 ≤ septime.toNat := UInt8.le_iff_toNat_le.1 h
      simp [less_of_le (by omega : 240 ≤ septime.toNat)]
    · rw [if_neg h, if_neg h]

/-- The units of a timing parameter, in µs. -/
def timingUnits : List Nat := [100, 1000, 10000, 100000]

def decodeTiming (value : UInt8) : Option Nat := do
  return (value &&& 0x3f).toNat * (← timingUnits[(value >>> 6).toNat]?)

@[simp] theorem decodeTiming_eq (value : UInt8) : decodeTiming value = some (EcuPoll.decodeTiming value) := by
  have hlt : (value >>> 6).toNat < 4 := by
    have := value.toNat_lt
    rw [UInt8.toNat_shiftRight, show (6 : UInt8).toNat % 8 = 6 from rfl, Nat.shiftRight_eq_div_pow]
    omega
  unfold decodeTiming EcuPoll.decodeTiming
  obtain h | h | h | h : (value >>> 6).toNat = 0 ∨ (value >>> 6).toNat = 1 ∨ (value >>> 6).toNat = 2 ∨
      (value >>> 6).toNat = 3 := by omega
  all_goals
    rw [h]
    simp [timingUnits, Nat.mul_assoc]

/-! ### The rest of a request -/

namespace Outbound
variable {o : EcuPoll.Outbound}

def load (payload : List UInt8) (sent limit : Nat) : Option EcuPoll.Outbound := do
  let stop := min (← readBack payload).length limit
  return { payload, offset := min sent stop, stop, frame := 0 }

def remaining (o : EcuPoll.Outbound) : Option Nat :=
  less o.stop o.offset

/-- Fills `buf` from its start with the next bytes and says how many they are. -/
def fill (o : EcuPoll.Outbound) (buf : List UInt8) : Option (Nat × List UInt8 × EcuPoll.Outbound) := do
  let count := min buf.length (← remaining o)
  let next ← part (← readBack o.payload) o.offset (o.offset + count)
  let buf ← paste buf 0 count next
  return (count, buf, { o with offset := o.offset + count })

@[simp] theorem load_eq (payload : List UInt8) (sent limit : Nat) :
    load payload sent limit = some (.load payload sent limit) := by
  simp [load, EcuPoll.Outbound.load]

theorem remaining_eq (h : o.InBounds) : remaining o = some o.remaining :=
  less_of_le h.1

theorem fill_eq (h : o.InBounds) (buf : List UInt8) : fill o buf =
    some (min buf.length o.remaining, o.chunk buf.length ++ buf.drop (min buf.length o.remaining),
      o.advance buf.length) := by
  have hlen := EcuPoll.Outbound.length_chunk h buf.length
  have hpart : part o.payload o.offset (o.offset + min buf.length o.remaining) = some (o.chunk buf.length) := by
    obtain ⟨hoffset, hstop⟩ := h
    rw [part_of_le (by omega) (by simp only [EcuPoll.Outbound.remaining]; omega), Nat.add_sub_cancel_left]
    rfl
  have hpaste : paste buf 0 (min buf.length o.remaining) (o.chunk buf.length) =
      some (o.chunk buf.length ++ buf.drop (min buf.length o.remaining)) :=
    if_pos ⟨Nat.zero_le _, Nat.min_le_left .., by omega⟩
  simp only [fill, remaining_eq h, readBack_eq, hpart, hpaste, Option.bind_eq_bind, Option.bind_some]
  rfl

theorem fill_blank (h : o.InBounds) (filler : UInt8) (room : Nat) : fill o (buffer filler room []) =
    some (min room o.remaining, buffer filler room (o.chunk room), o.advance room) := by
  rw [fill_eq h, length_blank, buffer, buffer, EcuPoll.Outbound.length_chunk h, List.nil_append, List.length_nil,
    Nat.sub_zero, List.drop_replicate]

/-- What the transports do with the rest of a request. -/
inductive Call
  | load (payload : List UInt8) (sent limit : Nat)
  | fill (buf : List UInt8)
  | clear

def call (o : EcuPoll.Outbound) : Call → Option EcuPoll.Outbound
  | .load payload sent limit => load payload sent limit
  | .fill buf => do
    let (_, _, o) ← fill o buf
    return o
  | .clear => some o.clear

theorem call_inBounds (h : o.InBounds) (c : Call) : ∃ o', call o c = some o' ∧ o'.InBounds := by
  cases c with
  | load payload sent limit => exact ⟨_, load_eq .., EcuPoll.Outbound.inBounds_load ..⟩
  | fill buf => exact ⟨_, by rw [call, fill_eq h]; rfl, h.advance _⟩
  | clear => exact ⟨_, rfl, h.clear⟩

theorem calls_inBounds (h : o.InBounds) (calls : List Call) :
    ∃ o', calls.foldlM call o = some o' ∧ o'.InBounds := by
  induction calls generalizing o with
  | nil => exact ⟨o, rfl, h⟩
  | cons c calls ih =>
    obtain ⟨o', hc, hin⟩ := call_inBounds h c
    obtain ⟨last, hcalls, hlast⟩ := ih hin
    exact ⟨last, by rw [List.foldlM_cons, hc]; exact hcalls, hlast⟩

end Outbound

end EcuPoll.Checked
