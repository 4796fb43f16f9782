import EcuPoll.Toml.Moment
import EcuPoll.Toml.Quoted
import EcuPoll.Toml.Value

/-!
# TOML texts

`Toml.ofText?` reads a text as a table. Keys have less than 80 parts, and arrays and tables in braces
stand less than 80 deep in each other.
-/

namespace EcuPoll.Toml.Reader

/-- Parts of a key and nested values stay below this number. -/
def depthLimit : Nat := 80

def isBareKeyChar (c : Char) : Bool :=
  c.isAlphanum || c == '_' || c == '-'

def bareKey : Reader String :=
  String.ofList <$> all1 isBareKeyChar

def keyPart : Reader String := do
  blanks
  let part ← quotedKey <|> bareKey
  blanks
  return part

/-- A key with the blanks around it. -/
def key : Reader Key := do
  let parts ← separated (char '.') keyPart
  match parts.getLast? with
  | some name => if parts.length < depthLimit then return ⟨parts.dropLast, name⟩ else failure
  | none => failure

/-! ### Values -/

def boolean : Reader Bool :=
  (do word ['t', 'r', 'u', 'e']; return true) <|> (do word ['f', 'a', 'l', 's', 'e']; return false)

def scalar : Reader Toml :=
  .string <$> quoted <|> (do datetime; return .datetime) <|> (do float; return .float) <|>
    .integer <$> integer <|> .boolean <$> boolean

/-- A line `key = value`, up to the end of the value. -/
def pair (value : Reader Toml) : Reader Pair := do
  let key ← key
  char '='
  blanks
  return ⟨key, ← value⟩

/-- An array, with line ends anywhere between its items and perhaps a comma after the last one. -/
def array (value : Reader Toml) : Reader Toml := do
  char '['
  let items ← optional do
    let items ← separated (char ',') do
      gaps
      let item ← value
      gaps
      return item
    let _ ← optional (char ',')
    return items
  gaps
  char ']'
  return .array (items.getD [])

/-- A table in braces, on one line. -/
def inline (value : Reader Toml) : Reader Toml := do
  char '\x7b'
  let pairs ← optional do
    separated (char ',') do
      let line ← pair value
      blanks
      return line
  blanks
  char '\x7d'
  match ofPairs? (pairs.getD []) with
  | some t => return t
  | none => failure

/-- A value with so many levels of arrays and tables in it. -/
def value : Nat → Reader Toml
  | 0 => scalar
  | depth + 1 => scalar <|> array (value depth) <|> inline (value depth)

/-! ### Lines -/

def header : Reader Header :=
  (do
    word ['[', '[']
    let key ← key
    word [']', ']']
    return .again key) <|>
  (do
    char '['
    let key ← key
    char ']'
    return .single key)

/-- What stands on a line, if anything. -/
def line : Reader (Option (Header ⊕ Pair)) := do
  blanks
  let content ← optional (.inl <$> header <|> .inr <$> pair (value (depthLimit - 1)))
  lineEnd
  return content

/-- The lines up to the end of the text, at most `fuel`. -/
def lines (fuel : Nat) : Reader (List (Header ⊕ Pair)) :=
  match fuel with
  | 0 => do finish; return []
  | fuel + 1 =>
    (do finish; return []) <|> do
      let content ← line
      return content.toList ++ (← lines fuel)

/-- Lines as sections: the lines before the first header, and the sections from there on. -/
def group : List (Header ⊕ Pair) → List Pair × List Section
  | [] => ([], [])
  | .inr pair :: rest => let (pairs, sections) := group rest; (pair :: pairs, sections)
  | .inl header :: rest => let (pairs, sections) := group rest; ([], ⟨header, pairs⟩ :: sections)

/-- The sections of a text, which may begin with a byte order mark. -/
def sections : Reader (List Section) := do
  let _ ← optional (char '\ufeff')
  let (pairs, sections) := group (← fun cs => lines cs.length cs)
  return ⟨.root, pairs⟩ :: sections

end EcuPoll.Toml.Reader

namespace EcuPoll.Toml

def ofText? (text : String) : Option Entries :=
  (Reader.whole Reader.sections text.toList).bind ofSections?

end EcuPoll.Toml
