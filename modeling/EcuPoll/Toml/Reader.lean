/-!
# Readers

A `Reader` reads something from the start of a text, or fails and reads nothing. `a <|> b` is `b` where
`a` fails. Repetition ends where nothing more can be read, at the latest at the end of the text.
-/

namespace EcuPoll.Toml

abbrev Reader := StateT (List Char) Option

namespace Reader

/-- Any character. -/
def next : Reader Char
  | [] => none
  | c :: cs => some (c, cs)

/-- A character of a class. -/
def one (p : Char → Bool) : Reader Char := do
  let c ← next
  if p c then return c else failure

def char (c : Char) : Reader Unit := do
  let _ ← one (· == c)

/-- These characters, in order. -/
def word : List Char → Reader Unit
  | [] => return
  | c :: cs => do
    char c
    word cs

/-- The characters of a class that come next. -/
def all (p : Char → Bool) : Reader (List Char) :=
  fun cs => some (cs.takeWhile p, cs.dropWhile p)

/-- At least one character of a class. -/
def all1 (p : Char → Bool) : Reader (List Char) := do
  let c ← one p
  return c :: (← all p)

/-- So many characters of a class. -/
def exactly (p : Char → Bool) : Nat → Reader (List Char)
  | 0 => return []
  | n + 1 => do
    let c ← one p
    return c :: (← exactly p n)

/-- At most `fuel` times. -/
def manyUpTo {α : Type} (r : Reader α) (fuel : Nat) : Reader (List α) :=
  match fuel with
  | 0 => return []
  | fuel + 1 => do
    match ← optional r with
    | none => return []
    | some a => return a :: (← manyUpTo r fuel)

/-- As often as it goes. What is repeated reads at least one character. -/
def many {α : Type} (r : Reader α) : Reader (List α) :=
  fun cs => manyUpTo r cs.length cs

/-- One or more, with `separator` in between. -/
def separated {α : Type} (separator : Reader Unit) (r : Reader α) : Reader (List α) := do
  let first ← r
  return first :: (← many do separator; r)

/-- The end of the text. -/
def finish : Reader Unit
  | [] => some ((), [])
  | _ :: _ => none

/-- Reads a text as a whole. -/
def whole {α : Type} (r : Reader α) (text : List Char) : Option α :=
  (r text).bind fun (a, rest) => if rest.isEmpty then some a else none

/-! ### Blanks, line ends and comments -/

def isBlank (c : Char) : Bool :=
  c == ' ' || c == '\t'

/-- Characters that stand for themselves: all but control characters other than the tab. -/
def isPlain (c : Char) : Bool :=
  c == '\t' || (' ' ≤ c && c ≠ '\x7f')

def blanks : Reader Unit := do
  let _ ← all isBlank

def newline : Reader Unit :=
  word ['\r', '\n'] <|> word ['\n']

def comment : Reader Unit := do
  char '#'
  let _ ← all isPlain

/-- The rest of a line on which nothing more stands. -/
def lineEnd : Reader Unit := do
  blanks
  let _ ← optional comment
  newline <|> finish

/-- Blanks, comments and line ends between the items of an array. -/
def gaps : Reader Unit := do
  blanks
  let _ ← many do
    let _ ← optional comment
    newline
    blanks

end Reader

end EcuPoll.Toml
