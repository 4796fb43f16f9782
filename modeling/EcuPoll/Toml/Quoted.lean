import EcuPoll.Toml.Number

/-!
# Quoted text

Between double quotes a backslash starts an escape; between single quotes each character stands for
itself. Three quotes on each side allow line ends within the text: the line end after the opening quotes
does not belong to it, and one or two quotes may stand in it, also before the closing ones.
-/

namespace EcuPoll.Toml.Reader

/-- A character by its code point in so many digits. -/
def codePoint (width : Nat) : Reader Char := do
  let n := ofDigits 16 (← exactly (isDigit 16) width)
  if n.isValidChar then return Char.ofNat n else failure

/-- An escape after its backslash. -/
def escape : Reader Char := do
  match ← next with
  | 'b' => return '\x08'
  | 't' => return '\t'
  | 'n' => return '\n'
  | 'f' => return '\x0c'
  | 'r' => return '\r'
  | '"' => return '"'
  | '\\' => return '\\'
  | 'u' => codePoint 4
  | 'U' => codePoint 8
  | _ => failure

/-- A backslash at the end of a line: it and all blanks and line ends after it do not count. -/
def continuation : Reader Unit := do
  char '\\'
  blanks
  newline
  let _ ← many (newline <|> do let _ ← all1 isBlank)

/-- A piece of text of which this quote is not part. -/
def piece (quote : Char) (escapes : Bool) : Reader (List Char) :=
  all1 (fun c => isPlain c && c ≠ quote && !(escapes && c == '\\')) <|>
    (if escapes then do char '\\'; return [← escape] else failure)

/-- A piece of text over several lines. -/
def longPiece (quote : Char) (escapes : Bool) : Reader (List Char) :=
  (if escapes then do continuation; return [] else failure) <|> piece quote escapes <|>
    do newline; return ['\n']

/-- One or two quotes, and then something else. -/
def innerQuotes (quote : Char) (escapes : Bool) : Reader (List Char) := do
  let quotes ← exactly (· == quote) 2 <|> exactly (· == quote) 1
  return quotes ++ (← longPiece quote escapes)

/-- The closing quotes, with at most two that are part of the text. -/
def closingQuotes (quote : Char) : Reader (List Char) :=
  exactly (· == quote) 5 *> pure [quote, quote] <|> exactly (· == quote) 4 *> pure [quote] <|>
    exactly (· == quote) 3 *> pure []

def short (quote : Char) (escapes : Bool) : Reader String := do
  char quote
  let pieces ← many (piece quote escapes)
  char quote
  return String.ofList pieces.flatten

def long (quote : Char) (escapes : Bool) : Reader String := do
  let _ ← exactly (· == quote) 3
  let _ ← optional newline
  let pieces ← many (longPiece quote escapes <|> innerQuotes quote escapes)
  return String.ofList (pieces.flatten ++ (← closingQuotes quote))

/-- Text on one line, as it may also stand for a key. -/
def quotedKey : Reader String :=
  short '"' true <|> short '\'' false

def quoted : Reader String :=
  long '"' true <|> short '"' true <|> long '\'' false <|> short '\'' false

end EcuPoll.Toml.Reader
