import EcuPoll.Proofs.Text.Numerals
import EcuPoll.Settings.Poll

/-!
# Poll entries as they are written

`Field.Spells` and `Field.SpellsBytes` say which texts stand for a number and for a byte string. The
settings of a poll give an entry exactly if they write it (`PollSettings.Writes`); if they write none, the
first field that is not in order is reported: `entry_written`.
-/

namespace EcuPoll

namespace Field

/-- The text is the number: blanks at the ends, a mark or none, a plus sign or none, and a numeral. -/
def Spells (text : String) (n : Nat) : Prop :=
  ∃ before mark sign ds after : List Char, text.toList = before ++ (mark ++ (sign ++ ds)) ++ after ∧
    (∀ c ∈ before, Text.isBlank c = true) ∧ mark ∈ [[], ['0', 'x'], ['0', 'X']] ∧ sign ∈ [[], ['+']] ∧
    Hex.Numeral ds n ∧ ∀ c ∈ after, Text.isBlank c = true

/-- The text is the byte string: apart from blanks, a mark or none and two digits for each byte. -/
def SpellsBytes (text : String) (bytes : List UInt8) : Prop :=
  ∃ mark ds : List Char, Text.compact text.toList = mark ++ ds ∧ mark ∈ [[], ['0', 'x']] ∧
    Hex.BytePairs ds bytes

/-! ### Reading a number -/

theorem exists_mark (cs : List Char) : ∃ mark ∈ [[], ['0', 'x'], ['0', 'X']], cs = mark ++ dropMark cs := by
  unfold dropMark
  split <;> simp

theorem exists_lowerMark (cs : List Char) : ∃ mark ∈ [[], ['0', 'x']], cs = mark ++ dropLowerMark cs := by
  unfold dropLowerMark
  split <;> simp

/-- Behind a mark stands no `x`, so that it cannot be taken for another one. -/
theorem dropMark_append {mark cs : List Char} (hm : mark ∈ [[], ['0', 'x'], ['0', 'X']])
    (hcs : ∀ c ∈ cs, c ≠ 'x' ∧ c ≠ 'X') : dropMark (mark ++ cs) = cs := by
  simp only [List.mem_cons, List.not_mem_nil, or_false] at hm
  rcases hm with rfl | rfl | rfl
  · rw [List.nil_append]
    unfold dropMark
    split
    · exact absurd rfl (hcs 'x' (by simp)).1
    · exact absurd rfl (hcs 'X' (by simp)).2
    · rfl
  · rfl
  · rfl

theorem dropLowerMark_append {mark cs : List Char} (hm : mark ∈ [[], ['0', 'x']])
    (hcs : ∀ c ∈ cs, c ≠ 'x') : dropLowerMark (mark ++ cs) = cs := by
  simp only [List.mem_cons, List.not_mem_nil, or_false] at hm
  rcases hm with rfl | rfl
  · rw [List.nil_append]
    unfold dropLowerMark
    split
    · exact absurd rfl (hcs 'x' (by simp))
    · rfl
  · rfl

theorem signed_eq_ok_iff {cs : List Char} {n : Nat} : Hex.number cs = .ok n ↔
    ∃ sign ds, cs = sign ++ ds ∧ sign ∈ [[], ['+']] ∧ Hex.Numeral ds n ∧ n < UInt32.size := by
  constructor
  · intro h
    cases cs with
    | nil => cases h
    | cons c cs =>
      by_cases hc : c = '+'
      · subst hc
        cases cs with
        | nil => cases h
        | cons d ds =>
          exact ⟨['+'], d :: ds, rfl, by simp, (Hex.digits_eq_ok_iff (List.cons_ne_nil d ds)).1 h⟩
      · have hplain : Hex.number (c :: cs) = Hex.digits 0 (c :: cs) := by
          rw [Hex.number] <;> simp [hc]
        rw [hplain] at h
        exact ⟨[], c :: cs, rfl, by simp, (Hex.digits_eq_ok_iff (List.cons_ne_nil c cs)).1 h⟩
  · rintro ⟨sign, ds, rfl, hs, hn, hlt⟩
    have hds := (Hex.digits_eq_ok_iff hn.ne_nil).2 ⟨hn, hlt⟩
    obtain ⟨d, ds, rfl⟩ := List.exists_cons_of_ne_nil hn.ne_nil
    simp only [List.mem_cons, List.not_mem_nil, or_false] at hs
    rcases hs with rfl | rfl
    · obtain ⟨v, hv⟩ := hn.isDigit d (by simp)
      have hplus : d ≠ '+' := hv.ne_of_value?_eq_none (by decide)
      rw [List.nil_append, Hex.number]
      · exact hds
      · simp
      · simp [hplus]
      · simp [hplus]
    · exact hds

theorem number_eq_ok_iff {text : String} {n : Nat} :
    number text = .ok n ↔ Spells text n ∧ n < UInt32.size := by
  have hread : number text = .ok n ↔ Hex.number (dropMark (Text.trim text.toList)) = .ok n := by
    dsimp only [number]
    split <;> simp_all
  rw [hread, signed_eq_ok_iff]
  constructor
  · rintro ⟨sign, ds, hds, hs, hn, hlt⟩
    obtain ⟨before, after, htext, hb, ha⟩ := Text.exists_trim text.toList
    obtain ⟨mark, hm, htrim⟩ := exists_mark (Text.trim text.toList)
    rw [htrim, hds] at htext
    exact ⟨⟨before, mark, sign, ds, after, htext, hb, hm, hs, hn, ha⟩, hlt⟩
  · rintro ⟨⟨before, mark, sign, ds, after, htext, hb, hm, hs, hn, ha⟩, hlt⟩
    have hsign : ∀ c ∈ sign, c = '+' := by
      simp only [List.mem_cons, List.not_mem_nil, or_false] at hs
      rcases hs with rfl | rfl <;> simp
    have hmark : ∀ c ∈ mark, Text.isBlank c = false := by
      simp only [List.mem_cons, List.not_mem_nil, or_false] at hm
      rcases hm with rfl | rfl | rfl
      · exact List.forall_mem_nil _
      · exact List.forall_mem_cons.2 ⟨rfl, List.forall_mem_singleton.2 rfl⟩
      · exact List.forall_mem_cons.2 ⟨rfl, List.forall_mem_singleton.2 rfl⟩
    have hcore : ∀ c ∈ mark ++ (sign ++ ds), Text.isBlank c = false := by
      intro c hc
      rcases List.mem_append.1 hc with hc | hc
      · exact hmark c hc
      rcases List.mem_append.1 hc with hc | hc
      · rw [hsign c hc]; decide
      · obtain ⟨v, hv⟩ := hn.isDigit c hc
        exact hv.not_isBlank
    have hx : ∀ c ∈ sign ++ ds, c ≠ 'x' ∧ c ≠ 'X' := by
      intro c hc
      rcases List.mem_append.1 hc with hc | hc
      · rw [hsign c hc]; decide
      · obtain ⟨v, hv⟩ := hn.isDigit c hc
        exact ⟨hv.ne_of_value?_eq_none (by decide), hv.ne_of_value?_eq_none (by decide)⟩
    refine ⟨sign, ds, ?_, hs, hn, hlt⟩
    rw [htext, Text.trim_append hb hcore (by simp [hn.ne_nil]) ha, dropMark_append hm hx]

theorem Spells.marked (width n : Nat) : Spells ("0x" ++ Hex.upper width n) n :=
  ⟨[], ['0', 'x'], [], (Hex.upper width n).toList, [], by simp, by simp, by simp, by simp, .upper .., by simp⟩

/-! ### Reading a byte string -/

theorem bytes_eq_ok_iff {text : String} {bytes : List UInt8} :
    Field.bytes text = .ok bytes ↔ SpellsBytes text bytes := by
  have hread : Field.bytes text = .ok bytes ↔
      Hex.decode (dropLowerMark (Text.compact text.toList)) = .ok bytes := by
    unfold Field.bytes
    split <;> simp_all
  rw [hread, Hex.decode_eq_ok_iff]
  constructor
  · intro h
    obtain ⟨mark, hm, hcs⟩ := exists_lowerMark (Text.compact text.toList)
    exact ⟨mark, _, hcs, hm, h⟩
  · rintro ⟨mark, ds, hcs, hm, h⟩
    have hx : ∀ c ∈ ds, c ≠ 'x' := by
      intro c hc
      obtain ⟨v, hv⟩ := h.isDigit c hc
      exact hv.ne_of_value?_eq_none (by decide)
    rwa [hcs, dropLowerMark_append hm hx]

theorem SpellsBytes.encode (bytes : List UInt8) : SpellsBytes (Hex.encode bytes) bytes := by
  have h := Hex.BytePairs.encode bytes
  refine ⟨[], (Hex.encode bytes).toList, ?_, by simp, h⟩
  rw [List.nil_append, Text.compact, List.filter_eq_self]
  intro c hc
  obtain ⟨v, hv⟩ := h.isDigit c hc
  simp [hv.not_isBlank]

end Field

/-! ### Entries -/

/-- The fields of a poll's settings that can be at fault, in the order in which they are judged. -/
inductive PollField
  | txId
  | rxId
  | service
  | pid
  | intervals
  | data
  | bus
deriving DecidableEq, Repr

def PollField.all : List PollField := [.txId, .rxId, .service, .pid, .intervals, .data, .bus]

/-- The fault of a value that cannot be read. -/
def SettingFault.of? {α : Type} : Except SettingFault α → Option SettingFault
  | .ok _ => none
  | .error fault => some fault

namespace PollSettings

/-- Without a text there are no further bytes. -/
def SpellsPayload : Option String → List UInt8 → Prop
  | none, bytes => bytes = []
  | some text, bytes => Field.SpellsBytes text bytes

/-- The texts and values of the settings are those of the entry, in any style. -/
structure Writes (s : PollSettings) (e : PollEntry) : Prop where
  tx : Field.Spells s.txId e.tx.toNat
  rx : Field.Spells s.rxId e.rx.toNat
  service : Field.Spells s.service e.service.toNat
  pid : Field.Spells s.pid e.pid.toNat
  count : s.intervals.length ≤ pollStates
  intervals : ∀ (state : Nat) (h : state < 4), e.intervals[state] = s.intervals.getD state 0
  payload : SpellsPayload s.data e.payload
  bus : e.bus = s.bus.toNat
  protocol : e.protocol = s.protocol

/-- What is asked of a field. -/
def InOrder (s : PollSettings) : PollField → Prop
  | .txId => ∃ n, Field.Spells s.txId n ∧ n < UInt32.size ∧ n ≠ 0
  | .rxId => ∃ n, Field.Spells s.rxId n ∧ n < UInt32.size
  | .service => ∃ n, Field.Spells s.service n ∧ n < UInt8.size
  | .pid => ∃ n, Field.Spells s.pid n ∧ n < UInt16.size
  | .intervals => s.intervals.length ≤ pollStates
  | .data => ∃ bytes, SpellsPayload s.data bytes
  | .bus => s.bus.toNat ≤ BusId.max

/-- The fault of one field, whatever the others are. -/
def fault? (s : PollSettings) : PollField → Option SettingFault
  | .txId => (SettingFault.of? (Field.number s.txId)).or
    (if Field.number s.txId = .ok 0 then some .noTarget else none)
  | .rxId => SettingFault.of? (Field.number s.rxId)
  | .service => SettingFault.of? (bounded UInt8.size .service s.service)
  | .pid => SettingFault.of? (bounded UInt16.size .pid s.pid)
  | .intervals => if s.intervals.length ≤ pollStates then none else some .tooManyIntervals
  | .data => SettingFault.of? (payload s.data)
  | .bus => if s.bus.toNat ≤ BusId.max then none else some (.entryBus s.bus.toNat)

/-- The entry written out again, numbers in upper case behind a mark. -/
def ofEntry (e : PollEntry) : PollSettings where
  txId := "0x" ++ Hex.upper 1 e.tx.toNat
  rxId := "0x" ++ Hex.upper 1 e.rx.toNat
  service := "0x" ++ Hex.upper 2 e.service.toNat
  pid := "0x" ++ Hex.upper 1 e.pid.toNat
  data := some (Hex.encode e.payload)
  intervals := e.intervals.toList
  bus := .ofNat e.bus
  protocol := e.protocol

theorem bounded_eq_ok_iff {bound : Nat} (hb : bound ≤ UInt32.size) {fault : String → SettingFault}
    {text : String} {n : Nat} : bounded bound fault text = .ok n ↔ Field.Spells text n ∧ n < bound := by
  have hread : bounded bound fault text = .ok n ↔ Field.number text = .ok n ∧ n < bound := by
    unfold bounded
    cases Field.number text with
    | error => simp [bind, Except.bind]
    | ok m =>
      simp only [bind, Except.bind]
      split <;> simp <;> grind
  rw [hread, Field.number_eq_ok_iff]
  constructor
  · rintro ⟨⟨h, -⟩, hlt⟩; exact ⟨h, hlt⟩
  · rintro ⟨h, hlt⟩; exact ⟨⟨h, by omega⟩, hlt⟩

theorem payload_eq_ok_iff {data : Option String} {bytes : List UInt8} :
    payload data = .ok bytes ↔ SpellsPayload data bytes := by
  cases data with
  | none => simp [payload, SpellsPayload, eq_comm]
  | some text => exact Field.bytes_eq_ok_iff

/-- Either a field is at fault, and the first that is decides, or the fields are put together. -/
theorem entry_cases (s : PollSettings) :
    (∃ fault, s.entry = .error fault ∧ PollField.all.findSome? s.fault? = some fault) ∨
    ∃ tx rx service pid bytes, Field.number s.txId = .ok tx ∧ tx ≠ 0 ∧ Field.number s.rxId = .ok rx ∧
      bounded UInt8.size .service s.service = .ok service ∧ bounded UInt16.size .pid s.pid = .ok pid ∧
      s.intervals.length ≤ pollStates ∧ payload s.data = .ok bytes ∧ s.bus.toNat ≤ BusId.max ∧
      PollField.all.findSome? s.fault? = none ∧
      s.entry = .ok ⟨.ofNat tx, .ofNat rx, .ofNat service, .ofNat pid, bytes, allIntervals s.intervals,
        s.bus.toNat, s.protocol⟩ := by
  simp only [PollField.all, List.findSome?_cons, List.findSome?_nil, fault?, entry, bind, Except.bind]
  cases Field.number s.txId with
  | error fault => exact .inl ⟨fault, rfl, rfl⟩
  | ok tx =>
  by_cases htx : tx = 0
  · subst htx; exact .inl ⟨.noTarget, rfl, rfl⟩
  simp only [htx, ↓reduceIte, Except.ok.injEq, SettingFault.of?, Option.none_or]
  cases Field.number s.rxId with
  | error fault => exact .inl ⟨fault, rfl, rfl⟩
  | ok rx =>
  cases bounded UInt8.size .service s.service with
  | error fault => exact .inl ⟨fault, rfl, rfl⟩
  | ok service =>
  cases bounded UInt16.size .pid s.pid with
  | error fault => exact .inl ⟨fault, rfl, rfl⟩
  | ok pid =>
  simp only [← Nat.not_lt]
  by_cases hi : pollStates < s.intervals.length
  · simp only [hi, ↓reduceIte, not_true_eq_false]; exact .inl ⟨.tooManyIntervals, rfl, rfl⟩
  simp only [hi, ↓reduceIte, not_false_eq_true]
  cases payload s.data with
  | error fault => exact .inl ⟨fault, rfl, rfl⟩
  | ok bytes =>
  by_cases hb : BusId.max < s.bus.toNat
  · simp only [hb, ↓reduceIte, not_true_eq_false]; exact .inl ⟨.entryBus s.bus.toNat, rfl, rfl⟩
  simp only [hb, ↓reduceIte, not_false_eq_true]
  exact .inr ⟨tx, rx, service, pid, bytes, rfl, htx, rfl, rfl, rfl, trivial, rfl, trivial, trivial, rfl⟩

theorem fault?_eq_none_iff (s : PollSettings) (field : PollField) : s.fault? field = none ↔ s.InOrder field := by
  have hread : ∀ {α : Type} (r : Except SettingFault α), SettingFault.of? r = none ↔ ∃ v, r = .ok v := by
    intro α r
    cases r <;> simp [SettingFault.of?]
  cases field with
  | txId =>
    simp only [fault?, InOrder, Option.or_eq_none_iff, hread]
    constructor
    · rintro ⟨⟨n, hn⟩, h0⟩
      obtain ⟨hs, hlt⟩ := Field.number_eq_ok_iff.1 hn
      refine ⟨n, hs, hlt, ?_⟩
      rintro rfl
      simp [hn] at h0
    · rintro ⟨n, hs, hlt, h0⟩
      have hn := Field.number_eq_ok_iff.2 ⟨hs, hlt⟩
      exact ⟨⟨n, hn⟩, by simp [hn, h0]⟩
  | rxId => simp only [fault?, InOrder, hread, Field.number_eq_ok_iff]
  | service => simp only [fault?, InOrder, hread, bounded_eq_ok_iff (by decide : UInt8.size ≤ UInt32.size)]
  | pid => simp only [fault?, InOrder, hread, bounded_eq_ok_iff (by decide : UInt16.size ≤ UInt32.size)]
  | data => simp only [fault?, InOrder, hread, payload_eq_ok_iff]
  | intervals | bus => simp [fault?, InOrder]

theorem writes_of_entry {s : PollSettings} {e : PollEntry} (h : s.entry = .ok e) :
    s.Writes e ∧ e.tx ≠ 0 ∧ e.bus ≤ BusId.max := by
  rcases s.entry_cases with ⟨fault, he, -⟩ | ⟨tx, rx, service, pid, bytes, htx, h0, hrx, hs, hp, hi, hd, hb, -, he⟩
  · rw [he] at h; cases h
  rw [he] at h
  cases h
  obtain ⟨htx, hlt⟩ := Field.number_eq_ok_iff.1 htx
  obtain ⟨hrx, hrlt⟩ := Field.number_eq_ok_iff.1 hrx
  obtain ⟨hs, hslt⟩ := (bounded_eq_ok_iff (by decide)).1 hs
  obtain ⟨hp, hplt⟩ := (bounded_eq_ok_iff (by decide)).1 hp
  have htx' : (UInt32.ofNat tx).toNat = tx := UInt32.toNat_ofNat_of_lt' hlt
  refine ⟨⟨?_, ?_, ?_, ?_, hi, fun _ _ => Vector.getElem_ofFn .., payload_eq_ok_iff.1 hd, rfl, rfl⟩, ?_, hb⟩
  · rwa [htx']
  · rwa [UInt32.toNat_ofNat_of_lt' hrlt]
  · rwa [UInt8.toNat_ofNat_of_lt' hslt]
  · rwa [UInt16.toNat_ofNat_of_lt' hplt]
  · intro hzero
    have hzero := congrArg UInt32.toNat hzero
    rw [htx'] at hzero
    exact h0 hzero

theorem entry_of_writes {s : PollSettings} {e : PollEntry} (h : s.Writes e) (h0 : e.tx ≠ 0)
    (hb : e.bus ≤ BusId.max) : s.entry = .ok e := by
  have htx := Field.number_eq_ok_iff.2 ⟨h.tx, e.tx.toNat_lt⟩
  have hrx := Field.number_eq_ok_iff.2 ⟨h.rx, e.rx.toNat_lt⟩
  have hs := (@bounded_eq_ok_iff UInt8.size (by decide) .service ..).2 ⟨h.service, e.service.toNat_lt⟩
  have hp := (@bounded_eq_ok_iff UInt16.size (by decide) .pid ..).2 ⟨h.pid, e.pid.toNat_lt⟩
  have hd := payload_eq_ok_iff.2 h.payload
  have hint : allIntervals s.intervals = e.intervals :=
    Vector.ext fun state hstate => (Vector.getElem_ofFn ..).trans (h.intervals state hstate).symm
  have hnot : e.tx.toNat ≠ 0 := fun hzero => h0 (UInt32.toNat_inj.1 hzero)
  have hbus : ¬BusId.max < e.bus := Nat.not_lt.2 hb
  simp [entry, bind, Except.bind, pure, Except.pure, htx, hnot, hrx, hs, hp, hd, Nat.not_lt.2 h.count,
    hbus, hint, ← h.bus, ← h.protocol]

theorem ofEntry_writes {e : PollEntry} (hb : e.bus ≤ BusId.max) : (ofEntry e).Writes e where
  tx := .marked ..
  rx := .marked ..
  service := .marked ..
  pid := .marked ..
  count := by simp [ofEntry, pollStates]
  intervals state h := by simp [ofEntry, List.getD_eq_getElem?_getD, h]
  payload := .encode ..
  bus := by
    have hlt : e.bus < UInt8.size := Nat.lt_of_le_of_lt hb (by decide)
    exact (UInt8.toNat_ofNat_of_lt' hlt).symm
  protocol := rfl

/-- Settings give the entry that they write; if a field is not in order they give the fault of the first
such field. Every entry on a bus that may be can be written. -/
theorem entry_written (s : PollSettings) :
    (∀ e, s.entry = .ok e ↔ s.Writes e ∧ e.tx ≠ 0 ∧ e.bus ≤ BusId.max) ∧
    (∀ fault, s.entry = .error fault ↔ PollField.all.findSome? s.fault? = some fault) ∧
    (∀ field, s.fault? field = none ↔ s.InOrder field) ∧
    ∀ e : PollEntry, e.bus ≤ BusId.max → (ofEntry e).Writes e := by
  refine ⟨fun e => ⟨writes_of_entry, fun ⟨h, h0, hb⟩ => entry_of_writes h h0 hb⟩, fun fault => ?_,
    s.fault?_eq_none_iff, fun e => ofEntry_writes⟩
  rcases s.entry_cases with ⟨first, he, hf⟩ | ⟨tx, rx, service, pid, bytes, -, -, -, -, -, -, -, -, hf, he⟩
  · simp [he, hf]
  · simp [he, hf]

/-- Numbers in three styles, and a byte string with blanks even within its mark. -/
theorem entry_written_example :
    let s : PollSettings := {
      txId := " 0X+07e0\t", rxId := "7E8", service := "0x22", pid := "f40C ", data := some "0 x0 1 A b"
      intervals := [0, 10, 2], protocol := .isoTpExtFrame }
    let e : PollEntry := ⟨0x7e0, 0x7e8, 0x22, 0xf40c, [0x01, 0xab], #v[0, 10, 2, 0], 0, .isoTpExtFrame⟩
    s.entry = .ok e ∧ s.Writes e ∧ e.tx ≠ 0 ∧ e.bus ≤ BusId.max := by
  -- Without the names: through them the numbers would not be evaluated.
  dsimp only
  exact ⟨rfl, ((entry_written _).1 _).1 rfl⟩

end PollSettings

end EcuPoll
