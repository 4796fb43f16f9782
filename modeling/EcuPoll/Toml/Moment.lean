import EcuPoll.Toml.Number

/-!
# Dates and times

A date, a time or both, with `T` or a blank between them and then perhaps an offset. Dates must exist;
a minute may have a second 60.
-/

namespace EcuPoll.Toml.Reader

/-- A number of two digits in a range. -/
def twoDigits (low high : Nat) : Reader Nat := do
  let n := ofDigits 10 (← exactly (isDigit 10) 2)
  if low ≤ n ∧ n ≤ high then return n else failure

def isLeapYear (year : Nat) : Bool :=
  year % 4 = 0 && (year % 100 ≠ 0 || year % 400 = 0)

def daysInMonth (year month : Nat) : Nat :=
  if month = 2 then if isLeapYear year then 29 else 28
  else if month ∈ [4, 6, 9, 11] then 30
  else 31

def date : Reader Unit := do
  let year := ofDigits 10 (← exactly (isDigit 10) 4)
  char '-'
  let month ← twoDigits 1 12
  char '-'
  let _ ← twoDigits 1 (daysInMonth year month)

def hourAndMinute : Reader Unit := do
  let _ ← twoDigits 0 23
  char ':'
  let _ ← twoDigits 0 59

def time : Reader Unit := do
  hourAndMinute
  char ':'
  let _ ← twoDigits 0 60
  let _ ← optional do
    char '.'
    let _ ← all1 (isDigit 10)

def offset : Reader Unit :=
  (do let _ ← one fun c => c == 'Z' || c == 'z') <|>
    (do let _ ← one fun c => c == '+' || c == '-'; hourAndMinute)

def datetime : Reader Unit :=
  (do
    date
    let _ ← optional do
      let _ ← one fun c => c == 'T' || c == 't' || c == ' '
      time
      let _ ← optional offset) <|>
    time

end EcuPoll.Toml.Reader
