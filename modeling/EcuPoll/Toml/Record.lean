import EcuPoll.Toml.Document

/-!
# Typed values

Reading a TOML value as something that is expected: a text, a number in a range, a list, one of several
words, or a record. A record is a table with the names of its fields as keys, or an array with the fields
in order; fields may be missing, and all else in a table is ignored.
-/

namespace EcuPoll.Toml

def text? : Toml → Option String
  | .string text => some text
  | _ => none

/-- A number from 0 on below `bound`. -/
def natBelow? (bound : Nat) : Toml → Option Nat
  | .integer n => if 0 ≤ n ∧ n < bound then some n.toNat else none
  | _ => none

def byte? (t : Toml) : Option UInt8 :=
  (t.natBelow? UInt8.size).map .ofNat

def word16? (t : Toml) : Option UInt16 :=
  (t.natBelow? UInt16.size).map .ofNat

def items? : Toml → Option (List Toml)
  | .array items => some items
  | .tables items => some (items.map (.table .header))
  | _ => none

def list? {α : Type} (read : Toml → Option α) (t : Toml) : Option (List α) := do
  (← t.items?).mapM read

/-- A table, however it is written. -/
def entries? : Toml → Option Entries
  | .table _ entries | .inline entries => some entries
  | _ => none

/-- Nothing is in it. -/
def isHollow : Toml → Bool
  | .array items => items.isEmpty
  | .tables items => items.isEmpty
  | .table _ entries | .inline entries => entries.isEmpty
  | _ => false

/-- One of several words: a text, or a table that holds nothing but it as a hollow key. -/
def choice? : Toml → Option String
  | .string word => some word
  | .table _ [(word, value)] | .inline [(word, value)] => if value.isHollow then some word else none
  | _ => none

/-- The fields of a record by name. -/
abbrev Fields := String → Option Toml

/-- Of an array the first items are the fields in order. A date is a record without any. -/
def fields? (names : List String) : Toml → Option Fields
  | .table _ entries | .inline entries => some fun name => entries.lookup name
  | .array items => some fun name => (names.zip items).lookup name
  | .tables items => some fun name => (names.zip (items.map (.table .header))).lookup name
  | .datetime => some fun _ => none
  | _ => none

namespace Fields

/-- A field that must be there. -/
def get {α : Type} (fields : Fields) (name : String) (read : Toml → Option α) : Option α :=
  (fields name).bind read

/-- A field that may be missing. -/
def getD {α : Type} (fields : Fields) (name : String) (read : Toml → Option α) (default : α) :
    Option α :=
  match fields name with
  | some value => read value
  | none => some default

end Fields

/-- Reads a text whose table is a record. -/
def record? {α : Type} (read : Toml → Option α) (text : String) : Option α :=
  (ofText? text).bind fun entries => read (.table .header entries)

end EcuPoll.Toml
