import EcuPoll.Text.Hex
import EcuPoll.Toml.Reader

/-!
# Numbers

Digits may have single underscores between them. Integers have 64 bits with a sign; after `0x`, `0o` and
`0b` there is no sign, and otherwise no leading zero. Of a floating point number only the form is read:
its value must not be too large.
-/

namespace EcuPoll.Toml.Reader

def isDigit (base : Nat) (c : Char) : Bool :=
  (Hex.value? c).any (· < base)

def ofDigits (base : Nat) (digits : List Char) : Nat :=
  digits.foldl (fun n c => base * n + (Hex.value? c).getD 0) 0

/-- Further digits, each of which may have an underscore in front. -/
def moreDigits (base : Nat) : Reader (List Char) :=
  many (one (isDigit base) <|> do char '_'; one (isDigit base))

def digits (base : Nat) : Reader (List Char) := do
  let first ← one (isDigit base)
  return first :: (← moreDigits base)

/-- Decimal digits without a leading zero. -/
def decimal : Reader (List Char) :=
  (do char '0'; return ['0']) <|> digits 10

/-- Whether there is a minus sign; a plus sign is passed over. -/
def sign : Reader Bool :=
  (do char '-'; return true) <|> (do char '+'; return false) <|> pure false

/-! ### Integers -/

/-- The integers from here on, and those below its negative, do not fit. -/
def integerLimit : Nat := 0x8000000000000000

/-- An integer with the letter for its base. -/
def marked (mark : Char) (base : Nat) : Reader Int := do
  word ['0', mark]
  let n := ofDigits base (← digits base)
  if n < integerLimit then return n else failure

def signed : Reader Int := do
  let negative ← sign
  let n := ofDigits 10 (← decimal)
  if negative then
    if n ≤ integerLimit then return -n else failure
  else if n < integerLimit then return n else failure

def integer : Reader Int :=
  marked 'x' 16 <|> marked 'o' 8 <|> marked 'b' 2 <|> signed

/-! ### Floating point numbers -/

def fraction : Reader (List Char) := do
  char '.'
  digits 10

def exponent : Reader Int := do
  let _ ← one fun c => c == 'e' || c == 'E'
  let negative ← sign
  let n := ofDigits 10 (← digits 10)
  return if negative then -n else n

/-- The numbers from here on are nearer to 2 ^ 1024 than to any that a float can hold. -/
def floatLimit : Nat := 1 <<< 1024 - 1 <<< 970

/-- The digits, times this power of ten, are too large a number. All numbers of at most 308 digits are
small enough, and none of more than 309. -/
def overflows (digits : List Char) (power : Int) : Bool :=
  let significant := digits.dropWhile (· == '0')
  let width : Int := significant.length + power
  if significant.isEmpty ∨ width < 309 then false
  else if 309 < width then true
  else floatLimit * Nat.pow 10 (-power).toNat ≤ ofDigits 10 significant * Nat.pow 10 power.toNat

/-- A number with a fraction, an exponent or both. Negative ones may be too large. -/
def finite : Reader Unit := do
  let negative ← sign
  let front ← decimal
  let back ← optional fraction
  let power ← if back.isSome then optional exponent else some <$> exponent
  let back := back.getD []
  if !negative && overflows (front ++ back) (power.getD 0 - back.length) then failure

def special : Reader Unit := do
  let _ ← sign
  word ['i', 'n', 'f'] <|> word ['n', 'a', 'n']

def float : Reader Unit :=
  finite <|> special

end EcuPoll.Toml.Reader
