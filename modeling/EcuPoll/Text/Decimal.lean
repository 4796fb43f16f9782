/-!
# Decimal numbers in arguments

Digits with a sign in front, if any. Leading zeros do not matter.
-/

namespace EcuPoll.Decimal

/-- One or more digits. -/
def digits? (cs : List Char) : Option Nat :=
  if cs.isEmpty || !cs.all Char.isDigit then none
  else some (cs.foldl (fun n c => 10 * n + (c.toNat - 48)) 0)

/-- A number that may have a plus sign. -/
def natural? : List Char → Option Nat
  | '+' :: cs => digits? cs
  | cs => digits? cs

/-- A number that may have either sign. -/
def integer? : List Char → Option Int
  | '-' :: cs => (digits? cs).map fun n => -n
  | cs => (natural? cs).map fun n => n

/-- A number below `bound` that may have a plus sign. -/
def naturalBelow? (bound : Nat) (text : String) : Option Nat :=
  (natural? text.toList).filter (· < bound)

/-- A number from 0 on below `bound`; zero may be negative. -/
def integerBelow? (bound : Nat) (text : String) : Option Nat :=
  match integer? text.toList with
  | some n => if 0 ≤ n ∧ n < bound then some n.toNat else none
  | none => none

end EcuPoll.Decimal
