/-!
# CAN buses

A bus is known by its number, 1 to 4. `Line` is what the engine sees of the wire behind it: whether
the next write is taken.
-/

namespace EcuPoll

/-- The number of a CAN bus. -/
structure BusId where
  number : Nat
  inRange : 1 ≤ number ∧ number ≤ 4
deriving DecidableEq, Repr

namespace BusId

/-- The highest bus number. -/
def max : Nat := 4

def ofNat? (n : Nat) : Option BusId :=
  if h : 1 ≤ n ∧ n ≤ 4 then some ⟨n, h⟩ else none

def label (b : BusId) : String :=
  "can" ++ toString b.number

theorem ofNat?_number (b : BusId) : ofNat? b.number = some b := by
  simp [ofNat?, b.inRange]

theorem ofNat?_eq_some_iff {n : Nat} {b : BusId} : ofNat? n = some b ↔ n = b.number := by
  constructor
  · intro h
    unfold ofNat? at h
    split at h
    · cases h; rfl
    · cases h
  · rintro rfl; exact ofNat?_number b

end BusId

/-- Failures of a bus. -/
inductive BusError
  | openFailed (reason : String)
  | offline
  | writeFailed (reason : String)
  | invalidId (reason : String)
  | invalidBus (number : Nat)
  | unsupported (reason : String)
deriving DecidableEq, Repr

def BusError.message : BusError → String
  | .openFailed reason => "Failed to open bus: " ++ reason
  | .offline => "Bus offline"
  | .writeFailed reason => "Write failed: " ++ reason
  | .invalidId reason => "Invalid CAN identifier: " ++ reason
  | .invalidBus number => "Invalid bus number: " ++ toString number
  | .unsupported reason => "Bus not supported: " ++ reason

/-! ### The line -/

/-- How many more writes a bus takes: `none` for any number, `some 0` when it is offline. -/
abbrev Room := Option Nat

/-- The wire of one bus: the room it has now, and the room it will have from later times on, in ms
and in order. -/
structure Line where
  room : Room
  later : List (Nat × Room)
deriving DecidableEq, Repr

namespace Line

/-- A line that takes every write. -/
def free : Line := ⟨none, []⟩

/-- The line at time `now`, with the changes up to it carried out. -/
def asOf (l : Line) (now : Nat) : Line where
  room := ((l.later.filter (·.1 ≤ now)).getLast?.map (·.2)).getD l.room
  later := l.later.filter (now < ·.1)

/-- A write at time `now`: whether it is taken, and the line after it. -/
def write (l : Line) (now : Nat) : Bool × Line :=
  let l := l.asOf now
  match l.room with
  | none => (true, l)
  | some 0 => (false, l)
  | some (n + 1) => (true, { l with room := some n })

/-- The line with this room from time `start` on. -/
def change (l : Line) (start : Nat) (room : Room) : Line :=
  { l with later := l.later ++ [(start, room)] }

end Line

end EcuPoll
