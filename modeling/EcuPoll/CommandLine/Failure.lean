import EcuPoll.Poll.Failure
import EcuPoll.Settings.Error

/-!
# How a run of the program fails

A `RunFailure` has a message and perhaps causes, from the outermost on. `RunFailure.report` is its text on
the error output: a single cause is indented, several are numbered.
-/

namespace EcuPoll

inductive RunFailure
  /-- There is no settings file at this path. -/
  | noSettings (path : String)
  | badSettings (path : String) (error : SettingsError)
  | busNumber (number : Nat)
  | bus (error : BusError)
  /-- An argument that cannot be used. -/
  | argument (fault : SettingFault)
  | request (error : SingleError)
deriving DecidableEq, Repr

namespace RunFailure

/-- What the system says about a missing file. -/
def noFileMessage : String :=
  "No such file or directory (os error 2)"

def message : RunFailure → String
  | .noSettings path | .badSettings path _ => "Failed to load config " ++ path
  | .busNumber number => "Invalid bus number " ++ toString number
  | .bus error => error.message
  | .argument fault => fault.message
  | .request error =>
    "Request failed: " ++ error.message ++ " (" ++ toString error.resultCode ++ ": " ++
      resultCodeName error.resultCode ++ ")"

def causes : RunFailure → List String
  | .noSettings path => ["Failed to read " ++ path ++ ": " ++ noFileMessage, noFileMessage]
  | .badSettings _ .parse => ["Failed to parse configuration"]
  | .badSettings _ (.invalid fault) => [fault.message]
  | _ => []

/-- A text whose further lines begin with `margin`. -/
def indented (margin text : String) : String :=
  ("\n" ++ margin).intercalate (text.splitOn "\n")

/-- The lines of the causes. -/
def causeLines (causes : List String) : List String :=
  match causes with
  | [cause] => ["    " ++ indented "    " cause]
  | _ => causes.zipIdx.map fun (cause, i) => "    " ++ toString i ++ ": " ++ indented "       " cause

def report (f : RunFailure) : String :=
  let head := "Error: " ++ f.message ++ "\n"
  if f.causes.isEmpty then head
  else head ++ "\nCaused by:\n" ++ String.join ((causeLines f.causes).map (· ++ "\n"))

end RunFailure

end EcuPoll
