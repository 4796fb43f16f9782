/-!
# Blank characters

`isBlank` is the property White_Space of the Unicode standard: 25 code points in ten ranges. Numbers
may be surrounded by blanks (`trim`) and byte texts may hold them anywhere (`compact`).
-/

namespace EcuPoll.Text

/-- The ranges of White_Space, first and last code point. -/
def blankRanges : List (Nat × Nat) :=
  [(0x09, 0x0d), (0x20, 0x20), (0x85, 0x85), (0xa0, 0xa0), (0x1680, 0x1680), (0x2000, 0x200a),
    (0x2028, 0x2029), (0x202f, 0x202f), (0x205f, 0x205f), (0x3000, 0x3000)]

def isBlank (c : Char) : Bool :=
  blankRanges.any fun r => r.1 ≤ c.toNat && c.toNat ≤ r.2

/-- The text without the blanks at both ends. -/
def trim (cs : List Char) : List Char :=
  ((cs.dropWhile isBlank).reverse.dropWhile isBlank).reverse

/-- The text without any blanks. -/
def compact (cs : List Char) : List Char :=
  cs.filter fun c => !isBlank c

end EcuPoll.Text
