import EcuPoll.Settings.Error

/-!
# Texts of single fields

Ids, services and PIDs are written as hexadecimal numbers, payloads as byte strings. Both may have a
`0x` in front and blanks: a number around it, a byte string anywhere. A number is quoted in its error
as it stands between the blanks, a byte string with all of them.
-/

namespace EcuPoll.Field

/-- A number without the `0x` or `0X` in front. -/
def dropMark : List Char → List Char
  | '0' :: 'x' :: cs | '0' :: 'X' :: cs => cs
  | cs => cs

/-- Byte strings know only the lower-case mark. -/
def dropLowerMark : List Char → List Char
  | '0' :: 'x' :: cs => cs
  | cs => cs

/-- A number of at most 32 bits. -/
def number (text : String) : Except SettingFault Nat :=
  let trimmed := Text.trim text.toList
  match Hex.number (dropMark trimmed) with
  | .ok n => .ok n
  | .error fault => .error (.number (String.ofList trimmed) fault)

def bytes (text : String) : Except SettingFault (List UInt8) :=
  match Hex.decode (dropLowerMark (Text.compact text.toList)) with
  | .ok bytes => .ok bytes
  | .error fault => .error (.data text fault)

end EcuPoll.Field
