import EcuPoll.Engine.IsoTp

/-!
# Reading ISO-TP frames

What `Segment.ofBytes?` reads from the headers that the protocol puts before its data, and what is left
of a frame's bytes in each addressing mode.
-/

namespace EcuPoll

/-! ### Bytes of a frame -/

theorem Frame.toList_fill (filler : UInt8) {bytes : List UInt8} (h : bytes.length ≤ 8) :
    (fill filler bytes).toList = bytes ++ List.replicate (8 - bytes.length) filler := by
  apply List.ext_getElem
  · simp
    omega
  · intro i h1 h2
    by_cases hi : i < bytes.length
    · simp [fill, List.getElem_append_left hi, List.getD_eq_getElem?_getD, List.getElem?_eq_getElem hi]
    · simp [fill, List.getElem_append_right (Nat.le_of_not_lt hi), List.getD_eq_getElem?_getD,
        List.getElem?_eq_none (Nat.le_of_not_lt hi)]

namespace Protocol

theorem isoTpRoom_bounds (p : Protocol) : 7 ≤ p.isoTpRoom ∧ p.isoTpRoom ≤ 8 := by
  unfold isoTpRoom
  split <;> omega

theorem length_isoTpData (p : Protocol) (frame : Frame) :
    (p.isoTpData frame).length = p.isoTpRoom := by
  have := p.isoTpRoom_bounds
  rw [isoTpData, List.length_drop, Vector.length_toList]
  omega

/-- A frame holds the bytes it was made from, and padding. -/
theorem isoTpData_isoTpFrame (p : Protocol) (bus : BusId) (target : UInt32) {bytes : List UInt8}
    (h : bytes.length ≤ p.isoTpRoom) : p.isoTpData (p.isoTpFrame bus target bytes) =
      bytes ++ List.replicate (p.isoTpRoom - bytes.length) Frame.padding := by
  cases p with
  | isoTpExtAddr =>
    have h : (target.toUInt8 :: bytes).length ≤ 8 := Nat.succ_le_succ h
    show (Frame.fill Frame.padding (target.toUInt8 :: bytes)).toList.drop 1 = _
    rw [Frame.toList_fill _ h, List.cons_append, List.drop_one, List.tail_cons,
      List.length_cons, Nat.add_comm, ← Nat.sub_sub]
    rfl
  | _ => exact Frame.toList_fill _ h

end Protocol

/-! ### Headers -/

namespace Segment

theorem toNat_word (hi lo : UInt8) :
    (hi.toUInt16 <<< 8 ||| lo.toUInt16).toNat = hi.toNat * 256 + lo.toNat := by
  have hhi := hi.toNat_lt
  have hlo := lo.toNat_lt
  have hshift : (hi.toUInt16 <<< 8).toNat = hi.toNat <<< 8 := by
    rw [UInt16.toNat_shiftLeft, UInt8.toNat_toUInt16]
    show (hi.toNat <<< 8) % 65536 = _
    rw [Nat.shiftLeft_eq, Nat.mod_eq_of_lt]
    omega
  rw [UInt16.toNat_or, hshift, UInt8.toNat_toUInt16, ← Nat.shiftLeft_add_eq_or_of_lt hlo,
    Nat.shiftLeft_eq]

/-- The two halves of the first byte. -/
theorem nibbles (high : UInt8) (n : Nat) (hh : high ∈ [0x00, 0x10, 0x20, 0x30]) (hn : n < 16) :
    ((high ||| UInt8.ofNat n) >>> 4).toNat = high.toNat / 16 ∧
      (high ||| UInt8.ofNat n) &&& 0x0f = UInt8.ofNat n := by
  have hall : ∀ high ∈ ([0x00, 0x10, 0x20, 0x30] : List UInt8), ∀ n : Fin 16,
      ((high ||| UInt8.ofNat n) >>> 4).toNat = high.toNat / 16 ∧
        (high ||| UInt8.ofNat n) &&& 0x0f = UInt8.ofNat n := by decide +kernel
  exact hall high hh ⟨n, hn⟩

theorem ofBytes?_single {data : List UInt8} (h : data.length < 16) (rest : List UInt8) :
    ofBytes? (singleHeader data.length ++ data ++ rest) = some (.single data) := by
  obtain ⟨hhigh, hlow⟩ := nibbles 0x00 data.length (by simp) h
  have hor : (0x00 : UInt8) ||| UInt8.ofNat data.length = UInt8.ofNat data.length := by
    simp
  rw [hor] at hhigh hlow
  have hnat : (UInt8.ofNat data.length).toNat = data.length := by
    rw [UInt8.toNat_ofNat']
    omega
  simp only [singleHeader, List.cons_append, List.nil_append, ofBytes?, hhigh, hlow, hnat]
  exact congrArg (some <| single ·) List.take_left

theorem ofBytes?_first {total : Nat} (h : total ≤ isoTpMax) (data : List UInt8) :
    ofBytes? (firstHeader total ++ data) = some (.first (UInt16.ofNat total) (data.take total)) := by
  have hmax : isoTpMax = 4095 := rfl
  obtain ⟨hhigh, hlow⟩ := nibbles 0x10 (total / 256 % 16) (by simp) (Nat.mod_lt _ (by omega))
  have hword : (UInt8.ofNat (total / 256 % 16)).toUInt16 <<< 8 ||| (UInt8.ofNat total).toUInt16 =
      UInt16.ofNat total := by
    apply UInt16.toNat_inj.1
    rw [toNat_word, UInt8.toNat_ofNat', UInt8.toNat_ofNat', UInt16.toNat_ofNat']
    omega
  have hnat : (UInt16.ofNat total).toNat = total := by
    rw [UInt16.toNat_ofNat']
    omega
  simp only [firstHeader, List.cons_append, List.nil_append, ofBytes?, hhigh, hlow, hword, hnat]
  rfl

theorem ofBytes?_consecutive (number : Nat) (data : List UInt8) :
    ofBytes? (((0x20 : UInt8) ||| UInt8.ofNat (number % 16)) :: data) =
      some (.consecutive (UInt8.ofNat (number % 16)) data) := by
  obtain ⟨hhigh, hlow⟩ := nibbles 0x20 (number % 16) (by simp) (Nat.mod_lt _ (by omega))
  simp only [ofBytes?, hhigh, hlow]
  rfl

/-- The number of a consecutive frame counts modulo 16. -/
theorem low_ofNat (number : Nat) :
    (UInt16.ofNat number &&& 0x0f).toUInt8 = UInt8.ofNat (number % 16) := by
  apply UInt8.toNat_inj.1
  rw [UInt16.toNat_toUInt8, UInt16.toNat_and, UInt16.toNat_ofNat', UInt8.toNat_ofNat']
  show (number % 65536 &&& (2 ^ 4 - 1)) % 256 = number % 16 % 256
  rw [Nat.and_two_pow_sub_one_eq_mod]
  omega

theorem consecutiveHeader_ofNat (number : Nat) :
    consecutiveHeader (UInt16.ofNat number) = [(0x20 : UInt8) ||| UInt8.ofNat (number % 16)] := by
  rw [consecutiveHeader, low_ofNat]

end Segment

end EcuPoll
