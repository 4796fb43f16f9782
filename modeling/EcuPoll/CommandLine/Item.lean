/-!
# Options and positional arguments

An option is a word after two dashes or a letter after one. Its value is the next argument or follows
directly: after a word with `=` in between, after a letter also without. Letters may share one dash up to
the first that takes a value. After an argument `--` all others are positional. The value of an option
may not look like an option itself, unless it follows directly.
-/

namespace EcuPoll.CommandLine

/-- An option that a command knows. -/
structure Spec where
  word : String
  letter : Option Char
  hasValue : Bool
deriving DecidableEq, Repr

inductive Item
  /-- An option and its value, empty for one without. -/
  | given (word value : String)
  | positional (text : String)
deriving DecidableEq, Repr

/-- The items in one argument, and the option at its end that still needs its value. -/
abbrev Found := List Item × Option String

/-- Letters after one dash. -/
def cluster (specs : List Spec) : List Char → Option Found
  | [] => some ([], none)
  | letter :: cs => do
    let spec ← specs.find? (·.letter = some letter)
    if spec.hasValue then
      match cs with
      | [] => some ([], some spec.word)
      | '=' :: value => some ([.given spec.word (String.ofList value)], none)
      | value => some ([.given spec.word (String.ofList value)], none)
    else
      let (items, pending) ← cluster specs cs
      some (.given spec.word "" :: items, pending)

/-- A word after two dashes. -/
def long (specs : List Spec) (cs : List Char) : Option Found := do
  let word := String.ofList (cs.takeWhile (· ≠ '='))
  let spec ← specs.find? (·.word = word)
  match cs.dropWhile (· ≠ '='), spec.hasValue with
  | [], true => some ([], some word)
  | [], false => some ([.given word ""], none)
  | _ :: value, true => some ([.given word (String.ofList value)], none)
  | _ :: _, false => none

def argument (specs : List Spec) (arg : String) : Option Found :=
  match arg.toList with
  | '-' :: '-' :: cs => long specs cs
  | '-' :: c :: cs => cluster specs (c :: cs)
  | _ => some ([.positional arg], none)

/-- The argument looks like an option; a single dash does not. -/
def isOption (arg : String) : Bool :=
  match arg.toList with
  | '-' :: _ :: _ => true
  | _ => false

/-- The items of a command, up to the name of a command within it. First comes the value of the option
that still needs one. -/
def itemsFrom (specs : List Spec) (commands : List String) :
    Option String → List String → Option (List Item × List String)
  | none, [] => some ([], [])
  | some _, [] => none
  | some word, value :: rest =>
    if isOption value then none
    else do
      let (more, rest) ← itemsFrom specs commands none rest
      some (.given word value :: more, rest)
  | none, arg :: rest =>
    if arg ∈ commands then some ([], arg :: rest)
    else if arg = "--" then some (rest.map .positional, [])
    else do
      let (found, pending) ← argument specs arg
      let (more, rest) ← itemsFrom specs commands pending rest
      some (found ++ more, rest)

def items (specs : List Spec) (commands : List String) :
    List String → Option (List Item × List String) :=
  itemsFrom specs commands none

def positionals (items : List Item) : List String :=
  items.filterMap fun
    | .positional text => some text
    | .given .. => none

/-- The values of an option, in order. -/
def values (items : List Item) (word : String) : List String :=
  items.filterMap fun
    | .given w value => if w = word then some value else none
    | .positional _ => none

/-- No option is given twice. -/
def noneTwice (specs : List Spec) (items : List Item) : Bool :=
  specs.all fun spec => (values items spec.word).length ≤ 1

def isGiven (items : List Item) (word : String) : Bool :=
  !(values items word).isEmpty

/-- The value of an option, which must be readable, or else its default. -/
def valueD {α : Type} (items : List Item) (word : String) (read : String → Option α) (default : α) :
    Option α :=
  match values items word with
  | value :: _ => read value
  | [] => some default

end EcuPoll.CommandLine
