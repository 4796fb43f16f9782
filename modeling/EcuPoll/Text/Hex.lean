import EcuPoll.Text.Blank

/-!
# Hexadecimal text

Three forms. A byte string is two lower-case digits per byte (`encode`); `decode` reads it in either
case and says which character is wrong. A number to be shown has upper-case digits and a least width
(`upper`). A number to be read has an optional `+` and at most 32 bits (`number`).
-/

namespace EcuPoll.Hex

/-- The digit of value `n`, which is below 16. -/
def digit (n : Nat) : Char :=
  if n < 10 then Char.ofNat (48 + n) else Char.ofNat (87 + n)

def value? (c : Char) : Option Nat :=
  if '0' ≤ c ∧ c ≤ '9' then some (c.toNat - 48)
  else if 'a' ≤ c ∧ c ≤ 'f' then some (c.toNat - 87)
  else if 'A' ≤ c ∧ c ≤ 'F' then some (c.toNat - 55)
  else none

/-! ### Bytes -/

def ofByte (b : UInt8) : List Char :=
  [digit (b.toNat / 16), digit (b.toNat % 16)]

def encodeChars (bytes : List UInt8) : List Char :=
  bytes.flatMap ofByte

def encode (bytes : List UInt8) : String :=
  String.ofList (encodeChars bytes)

/-- The first byte of a character's UTF-8 form. -/
def leadByte (c : Char) : Nat :=
  let n := c.toNat
  if n < 0x80 then n
  else if n < 0x800 then 0xc0 + n / 0x40
  else if n < 0x10000 then 0xe0 + n / 0x1000
  else 0xf0 + n / 0x40000

/-- Why a text is no byte string. A wrong character is given by the byte found in its place. -/
inductive ByteFault
  | oddLength
  | invalidDigit (byte : Nat) (position : Nat)
deriving DecidableEq, Repr

/-- Pairs of digits from byte `position` on. -/
def pairs (position : Nat) : List Char → Except ByteFault (List UInt8)
  | [] => .ok []
  | [c] =>
    match value? c with
    | some _ => .error .oddLength
    | none => .error (.invalidDigit (leadByte c) position)
  | hi :: lo :: rest =>
    match value? hi, value? lo with
    | none, _ => .error (.invalidDigit (leadByte hi) position)
    | some _, none => .error (.invalidDigit (leadByte lo) (position + 1))
    | some h, some l => (pairs (position + 2) rest).map (UInt8.ofNat (16 * h + l) :: ·)

/-- The length is judged first, in bytes, before any character is looked at. -/
def decode (cs : List Char) : Except ByteFault (List UInt8) :=
  if cs.foldl (fun n c => n + c.utf8Size) 0 % 2 = 1 then .error .oddLength else pairs 0 cs

/-! ### Numbers -/

/-- The digits of `n` in upper case, with zeros in front up to `width`. -/
def upper (width n : Nat) : String :=
  let digits := (Nat.toDigits 16 n).map Char.toUpper
  String.ofList (List.replicate (width - digits.length) '0' ++ digits)

/-- Why a text is no number. -/
inductive NumberFault
  | empty
  | invalidDigit
  | tooLarge
deriving DecidableEq, Repr

def NumberFault.message : NumberFault → String
  | .empty => "cannot parse integer from empty string"
  | .invalidDigit => "invalid digit found in string"
  | .tooLarge => "number too large to fit in target type"

/-- Digits after the value `acc`; the first digit that is wrong or leaves 32 bits decides. -/
def digits (acc : Nat) : List Char → Except NumberFault Nat
  | [] => .ok acc
  | c :: cs =>
    match value? c with
    | none => .error .invalidDigit
    | some d => if 16 * acc + d < UInt32.size then digits (16 * acc + d) cs else .error .tooLarge

/-- A number of at most 32 bits, with at most one `+` before its digits. -/
def number : List Char → Except NumberFault Nat
  | [] => .error .empty
  | ['+'] => .error .invalidDigit
  | '+' :: cs => digits 0 cs
  | cs => digits 0 cs

/-! ### Reading what was written -/

theorem value?_digit {n : Nat} (h : n < 16) : value? (digit n) = some n := by
  revert n; decide

theorem pairs_encodeChars (bytes : List UInt8) (position : Nat) :
    pairs position (encodeChars bytes) = .ok bytes := by
  induction bytes generalizing position with
  | nil => rfl
  | cons b bs ih =>
    have hb := b.toNat_lt
    have hcons : encodeChars (b :: bs) =
        digit (b.toNat / 16) :: digit (b.toNat % 16) :: encodeChars bs := rfl
    rw [hcons, pairs, value?_digit (by omega), value?_digit (by omega)]
    simp only [ih]
    rw [show 16 * (b.toNat / 16) + b.toNat % 16 = b.toNat by omega]
    simp [Except.map]

end EcuPoll.Hex
