import EcuPoll.Text.Hex
import Mathlib.Data.List.TakeWhile
import Mathlib.Data.List.Induction

/-!
# Hexadecimal numerals

`Numeral` says which digits stand for a number, `BytePairs` which stand for a byte string. The readers of
`EcuPoll.Hex` accept exactly these: `digits_eq_ok_iff` and `decode_eq_ok_iff`. What `upper` and `encode`
write is among them.
-/

namespace EcuPoll

/-! ### Blanks -/

namespace Text

theorem trim_append {before core after : List Char} (hb : ∀ c ∈ before, isBlank c = true)
    (hc : ∀ c ∈ core, isBlank c = false) (hne : core ≠ []) (ha : ∀ c ∈ after, isBlank c = true) :
    trim (before ++ core ++ after) = core := by
  obtain ⟨c, cs, rfl⟩ := List.exists_cons_of_ne_nil hne
  have hleft : (before ++ (c :: cs) ++ after).dropWhile isBlank = (c :: cs) ++ after := by
    rw [List.append_assoc, List.dropWhile_append_of_pos hb, List.cons_append,
      List.dropWhile_cons_of_neg (by simp [hc c])]
  have hright : ((c :: cs) ++ after).reverse.dropWhile isBlank = (c :: cs).reverse := by
    rw [List.reverse_append, List.dropWhile_append_of_pos (by simpa using ha), List.dropWhile_eq_self_iff]
    intro hlt
    rw [hc _ (List.mem_reverse.1 (List.getElem_mem hlt))]
    decide
  rw [trim, hleft, hright, List.reverse_reverse]

theorem exists_trim (cs : List Char) : ∃ before after, cs = before ++ trim cs ++ after ∧
    (∀ c ∈ before, isBlank c = true) ∧ ∀ c ∈ after, isBlank c = true := by
  have hleft := List.takeWhile_append_dropWhile (p := isBlank) (l := cs)
  have hright := List.takeWhile_append_dropWhile (p := isBlank) (l := (cs.dropWhile isBlank).reverse)
  refine ⟨cs.takeWhile isBlank, ((cs.dropWhile isBlank).reverse.takeWhile isBlank).reverse, ?_,
    fun c hc => List.mem_takeWhile_imp hc, fun c hc => List.mem_takeWhile_imp (List.mem_reverse.1 hc)⟩
  rw [List.append_assoc, trim, ← List.reverse_append, hright, List.reverse_reverse, hleft]

end Text

namespace Hex

/-! ### Digits -/

/-- The digit of value `v`, in either case. -/
def IsDigit (c : Char) (v : Nat) : Prop :=
  v < 16 ∧ (c = v.digitChar ∨ c = v.digitChar.toUpper)

theorem isDigit_digitChar {v : Nat} (h : v < 16) : IsDigit v.digitChar v := ⟨h, .inl rfl⟩

theorem IsDigit.toUpper {c : Char} {v : Nat} (h : IsDigit c v) : IsDigit c.toUpper v := by
  have hup : ∀ v < 16, v.digitChar.toUpper.toUpper = v.digitChar.toUpper := by decide
  rcases h with ⟨hv, rfl | rfl⟩
  · exact ⟨hv, .inr rfl⟩
  · exact ⟨hv, .inr (hup v hv)⟩

theorem eq_ofNat_of_toNat {c : Char} {n : Nat} (h : c.toNat = n) : c = Char.ofNat n := by
  rw [← h, Char.ofNat_toNat]

theorem value?_eq_some_iff {c : Char} {v : Nat} : value? c = some v ↔ IsDigit c v := by
  have hlow : ∀ v < 10, Char.ofNat (48 + v) = v.digitChar := by decide
  have hlower : ∀ v < 16, 10 ≤ v → Char.ofNat (87 + v) = v.digitChar := by decide
  have hupper : ∀ v < 16, 10 ≤ v → Char.ofNat (55 + v) = v.digitChar.toUpper := by decide
  have hvalue : ∀ v < 16, value? v.digitChar = some v ∧ value? v.digitChar.toUpper = some v := by decide
  have hle : ∀ a b : Char, a ≤ b ↔ a.toNat ≤ b.toNat := fun _ _ => Iff.rfl
  constructor
  · intro h
    simp only [value?, hle, Char.reduceToNat] at h
    by_cases hc : 48 ≤ c.toNat ∧ c.toNat ≤ 57
    · rw [if_pos hc] at h
      obtain rfl := Option.some.inj h
      have hv : c.toNat = 48 + (c.toNat - 48) := by omega
      exact ⟨by omega, .inl ((eq_ofNat_of_toNat hv).trans (hlow _ (by omega)))⟩
    rw [if_neg hc] at h
    by_cases hc : 97 ≤ c.toNat ∧ c.toNat ≤ 102
    · rw [if_pos hc] at h
      obtain rfl := Option.some.inj h
      have hv : c.toNat = 87 + (c.toNat - 87) := by omega
      exact ⟨by omega, .inl ((eq_ofNat_of_toNat hv).trans (hlower _ (by omega) (by omega)))⟩
    rw [if_neg hc] at h
    by_cases hc : 65 ≤ c.toNat ∧ c.toNat ≤ 70
    · rw [if_pos hc] at h
      obtain rfl := Option.some.inj h
      have hv : c.toNat = 55 + (c.toNat - 55) := by omega
      exact ⟨by omega, .inr ((eq_ofNat_of_toNat hv).trans (hupper _ (by omega) (by omega)))⟩
    · rw [if_neg hc] at h
      cases h
  · rintro ⟨hv, rfl | rfl⟩
    · exact (hvalue v hv).1
    · exact (hvalue v hv).2

theorem IsDigit.ne_of_value?_eq_none {c d : Char} {v : Nat} (h : IsDigit c v) (hd : value? d = none) : c ≠ d := by
  rintro rfl
  rw [value?_eq_some_iff.2 h] at hd
  cases hd

/-- No digit is a blank. -/
theorem IsDigit.not_isBlank {c : Char} {v : Nat} (h : IsDigit c v) : Text.isBlank c = false := by
  have hblank : ∀ v < 16, Text.isBlank v.digitChar = false ∧ Text.isBlank v.digitChar.toUpper = false := by
    decide
  rcases h with ⟨hv, rfl | rfl⟩
  · exact (hblank v hv).1
  · exact (hblank v hv).2

theorem IsDigit.utf8Size {c : Char} {v : Nat} (h : IsDigit c v) : c.utf8Size = 1 := by
  have hsize : ∀ v < 16, v.digitChar.utf8Size = 1 ∧ v.digitChar.toUpper.utf8Size = 1 := by decide
  rcases h with ⟨hv, rfl | rfl⟩
  · exact (hsize v hv).1
  · exact (hsize v hv).2

/-! ### Numbers -/

/-- The digits stand for a number, the highest first. Zeros in front do not matter. -/
inductive Numeral : List Char → Nat → Prop
  | digit {c : Char} {v : Nat} (h : IsDigit c v) : Numeral [c] v
  | snoc {cs : List Char} {n : Nat} {c : Char} {v : Nat} (hn : Numeral cs n) (h : IsDigit c v) :
    Numeral (cs ++ [c]) (16 * n + v)

namespace Numeral
variable {cs : List Char} {n : Nat}

theorem ne_nil (h : Numeral cs n) : cs ≠ [] := by
  cases h <;> simp

theorem isDigit (h : Numeral cs n) : ∀ c ∈ cs, ∃ v, IsDigit c v := by
  induction h with
  | digit h => simpa using ⟨_, h⟩
  | snoc hn h ih =>
    intro c hc
    rcases List.mem_append.1 hc with hc | hc
    · exact ih c hc
    · rw [List.mem_singleton.1 hc]; exact ⟨_, h⟩

theorem zero_cons (h : Numeral cs n) : Numeral ('0' :: cs) n := by
  have hzero : Numeral ['0'] 0 := .digit (isDigit_digitChar (by decide))
  induction h with
  | digit h => simpa using hzero.snoc h
  | snoc hn h ih => exact ih.snoc h

theorem zeros_append (h : Numeral cs n) (k : Nat) : Numeral (List.replicate k '0' ++ cs) n := by
  induction k with
  | zero => exact h
  | succ k ih => exact ih.zero_cons

theorem map_toUpper (h : Numeral cs n) : Numeral (cs.map Char.toUpper) n := by
  induction h with
  | digit h => exact .digit h.toUpper
  | snoc hn h ih =>
    rw [List.map_append]
    exact ih.snoc h.toUpper

theorem toDigits (n : Nat) : Numeral (Nat.toDigits 16 n) n := by
  induction n using Nat.strongRecOn with
  | ind n ih =>
    rw [Nat.toDigits_eq_if (by decide)]
    by_cases hn : n < 16
    · rw [if_pos hn]
      exact .digit (isDigit_digitChar hn)
    · rw [if_neg hn]
      have h := (ih (n / 16) (by omega)).snoc (isDigit_digitChar (Nat.mod_lt n (by decide)))
      rwa [Nat.div_add_mod] at h

/-- What is written in upper case to some width is a numeral. -/
theorem upper (width n : Nat) : Numeral (upper width n).toList n := by
  simp only [Hex.upper, String.toList_ofList]
  exact (toDigits n).map_toUpper.zeros_append _

end Numeral

theorem digits_append (acc : Nat) (xs ys : List Char) :
    digits acc (xs ++ ys) = (digits acc xs).bind fun n => digits n ys := by
  induction xs generalizing acc with
  | nil => rfl
  | cons x xs ih =>
    simp only [List.cons_append, digits]
    split
    · rfl
    · split
      · exact ih _
      · rfl

theorem digits_singleton_eq_ok_iff {acc n : Nat} {c : Char} :
    digits acc [c] = .ok n ↔ ∃ v, IsDigit c v ∧ n = 16 * acc + v ∧ n < UInt32.size := by
  simp only [digits, ← value?_eq_some_iff]
  cases value? c with
  | none => simp
  | some v =>
    simp only [Option.some.injEq, exists_eq_left']
    split <;> simp <;> omega

theorem digits_eq_ok_iff {cs : List Char} (hne : cs ≠ []) {n : Nat} :
    digits 0 cs = .ok n ↔ Numeral cs n ∧ n < UInt32.size := by
  induction cs using List.reverseRecOn generalizing n with
  | nil => exact absurd rfl hne
  | append_singleton cs c ih =>
    rw [digits_append]
    constructor
    · intro h
      cases hm : digits 0 cs with
      | error fault => rw [hm] at h; cases h
      | ok m =>
        rw [hm] at h
        obtain ⟨v, hv, rfl, hlt⟩ := digits_singleton_eq_ok_iff.1 h
        refine ⟨?_, hlt⟩
        by_cases hcs : cs = []
        · subst hcs
          cases hm
          simpa using Numeral.digit hv
        · exact ((ih hcs).1 hm).1.snoc hv
    · rintro ⟨h, hlt⟩
      generalize hds : cs ++ [c] = ds at h
      cases h with
      | digit hd =>
        obtain ⟨rfl, hcd⟩ := List.append_inj' (hds.trans (List.nil_append _).symm) rfl
        obtain rfl := List.singleton_inj.1 hcd
        exact digits_singleton_eq_ok_iff.2 ⟨n, hd, by omega, hlt⟩
      | @snoc es m d v hm hd =>
        obtain ⟨rfl, hcd⟩ := List.append_inj' hds rfl
        obtain rfl := List.singleton_inj.1 hcd
        rw [(ih hm.ne_nil).2 ⟨hm, by omega⟩]
        exact digits_singleton_eq_ok_iff.2 ⟨v, hd, rfl, hlt⟩

/-! ### Bytes -/

/-- Two digits for each byte. -/
inductive BytePairs : List Char → List UInt8 → Prop
  | nil : BytePairs [] []
  | cons {hi lo : Char} {h l : Nat} {cs : List Char} {bytes : List UInt8} (hh : IsDigit hi h)
    (hl : IsDigit lo l) (hcs : BytePairs cs bytes) : BytePairs (hi :: lo :: cs) (.ofNat (16 * h + l) :: bytes)

theorem BytePairs.isDigit {cs : List Char} {bytes : List UInt8} (h : BytePairs cs bytes) :
    ∀ c ∈ cs, ∃ v, IsDigit c v := by
  induction h with
  | nil => simp
  | cons hh hl _ ih => simpa using ⟨⟨_, hh⟩, ⟨_, hl⟩, ih⟩

theorem pairs_eq_ok_iff {cs : List Char} {position : Nat} {bytes : List UInt8} :
    pairs position cs = .ok bytes ↔ BytePairs cs bytes := by
  constructor
  · intro h
    fun_induction pairs position cs generalizing bytes with
    | case1 => cases h; exact .nil
    | case2 | case3 | case4 | case5 => cases h
    | case6 position hi lo rest vh vl hvh hvl ih =>
      cases hrest : pairs (position + 2) rest with
      | error fault => rw [hrest] at h; cases h
      | ok more =>
        rw [hrest] at h
        cases h
        exact .cons (value?_eq_some_iff.1 hvl) (value?_eq_some_iff.1 hvh) (ih hrest)
  · intro h
    induction h generalizing position with
    | nil => rfl
    | cons hh hl _ ih =>
      rw [pairs, value?_eq_some_iff.2 hh, value?_eq_some_iff.2 hl]
      simp [ih, Except.map]

/-- Byte strings are of even length, counted in bytes as well as in characters. -/
theorem BytePairs.even {cs : List Char} {bytes : List UInt8} (h : BytePairs cs bytes) (n : Nat) :
    cs.foldl (fun n c => n + c.utf8Size) n = n + 2 * bytes.length := by
  induction h generalizing n with
  | nil => rfl
  | cons hh hl _ ih =>
    rw [List.foldl_cons, List.foldl_cons, ih, hh.utf8Size, hl.utf8Size, List.length_cons]
    omega

theorem decode_eq_ok_iff {cs : List Char} {bytes : List UInt8} :
    decode cs = .ok bytes ↔ BytePairs cs bytes := by
  unfold decode
  by_cases hodd : List.foldl (fun n c => n + c.utf8Size) 0 cs % 2 = 1
  · rw [if_pos hodd]
    constructor
    · intro h; cases h
    · intro h
      rw [h.even] at hodd
      omega
  · rw [if_neg hodd]
    exact pairs_eq_ok_iff

theorem BytePairs.encode (bytes : List UInt8) : BytePairs (encode bytes).toList bytes := by
  rw [Hex.encode, String.toList_ofList]
  exact pairs_eq_ok_iff.1 (pairs_encodeChars bytes 0)

end Hex

end EcuPoll
