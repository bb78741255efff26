import SqlSnippet.Text.Lower

/-!
# The journal

Operations report what they notice as records: the part of the program that speaks, how grave the
matter is, and a message. Operations return their records in order; who runs them decides which
to show (`Severity.ofName`, `Record.shownAt`).
-/

namespace SqlSnippet

/-- How grave a record is. -/
inductive Severity where
  | debug
  | info
  | warning
  | error
  deriving DecidableEq, Repr

/-- The rank of a severity: graver matters rank higher. -/
def Severity.rank : Severity → Nat
  | .debug => 10
  | .info => 20
  | .warning => 30
  | .error => 40

/-- The name of a severity in a record. -/
def Severity.name : Severity → String
  | .debug => "DEBUG"
  | .info => "INFO"
  | .warning => "WARNING"
  | .error => "ERROR"

/-- The severity that a setting names, in any case and with white space around it. -/
def Severity.ofName? (s : Text) : Option Severity :=
  match String.ofList (Text.trim s).lower with
  | "debug" => some .debug
  | "info" => some .info
  | "warn" => some .warning
  | "warning" => some .warning
  | "error" => some .error
  | _ => none

/-- Something noticed while the program ran. -/
structure Record where
  speaker : String
  severity : Severity
  message : String
  deriving DecidableEq, Repr

/-- The record on one line, or more if its message holds line breaks. -/
def Record.line (r : Record) : String :=
  r.speaker ++ " - " ++ r.severity.name ++ " - " ++ r.message

/-- Whether a record is shown when records below a severity are held back. -/
def Record.shownAt (least : Severity) (r : Record) : Bool :=
  least.rank ≤ r.severity.rank

end SqlSnippet
