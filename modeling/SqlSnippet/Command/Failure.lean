import SqlSnippet.Files.Fault
import SqlSnippet.Settings.Load

/-!
# Failures of commands

A command fails with an error of its own, which has a code and may say what helps, or with a fault
that nothing on the way has turned into one. Details about an error are kept in its context, in
order, and shown only on demand. `CommandError.ofFault` turns a fault into an error and keeps its
wording there.
-/

namespace SqlSnippet

/-- What a command's error is about. -/
inductive ErrorKind where
  | general
  | configuration
  | validation
  | runtime
  | missingFile
  deriving DecidableEq, Repr

/-- The name of a kind of error. -/
def ErrorKind.name : ErrorKind → String
  | .general => "CLIError"
  | .configuration => "CLIConfigError"
  | .validation => "CLIValidationError"
  | .runtime => "CLIRuntimeError"
  | .missingFile => "CLIFileNotFoundError"

/-- The code that a kind of error has of itself. -/
def ErrorKind.code? : ErrorKind → Option String
  | .general => none
  | .configuration => some "CLI_CONFIG_ERROR"
  | .validation => some "CLI_VALIDATION_ERROR"
  | .runtime => some "CLI_RUNTIME_ERROR"
  | .missingFile => some "CLI_FILE_NOT_FOUND"

/-- Details by their names, each name once. -/
abbrev Context := List (String × String)

/-- Set a detail: an old one keeps its place, a new one comes last. -/
def Context.set (name detail : String) : Context → Context
  | [] => [(name, detail)]
  | (n, d) :: c => if n = name then (n, detail) :: c else (n, d) :: Context.set name detail c

/-- An error of a command. -/
structure CommandError where
  kind : ErrorKind
  message : String
  code : String
  hint : Option String
  context : Context
  deriving DecidableEq, Repr

/-- Why a command fails. -/
inductive Failure where
  | error (e : CommandError)
  | fault (f : Fault)
  deriving DecidableEq, Repr

namespace CommandError

/-- An error with the code of its kind and nothing in its context. -/
def ofKind (kind : ErrorKind) (message : String) (hint : Option String) : CommandError :=
  ⟨kind, message, kind.code?.getD "", hint, []⟩

/-- Put the wording and the name of what caused an error into its context. -/
def withCause (e : CommandError) (name message : String) : CommandError :=
  { e with context := (e.context.set "original_exception" message).set "original_type" name }

/-- A fault in working with a file. -/
def ofFault (message : String) (hint : Option String) (f : Fault) : CommandError :=
  (ofKind .runtime message hint).withCause f.name f.message

/-- A problem with a configuration file. -/
def ofProblem (p : Problem) : CommandError :=
  { ofKind .configuration
      (match p.place? with
      | none => p.message
      | some place => p.message ++ " (" ++ place ++ ")")
      (some ((Problem.present? p.hint).getD "Fix the configuration file or pass --config")) with
    context := (p.path.map ("path", ·)).toList }

/-- The error on one line, and what may help on another. -/
def lines (e : CommandError) : List String :=
  ("Error [" ++ e.code ++ "]: " ++ e.message) ::
    ((Problem.present? e.hint).map ("Hint: " ++ ·)).toList

/-- The details of the error under a heading, if there are any. -/
def contextLines (e : CommandError) : List String :=
  if e.context.isEmpty then []
  else "\nContext:" :: e.context.map fun (name, detail) => "  " ++ name ++ ": " ++ detail

end CommandError

namespace Failure

/-- The name of the kind of failure. -/
def name : Failure → String
  | .error e => e.kind.name
  | .fault f => f.name

/-- The wording of the failure. -/
def message : Failure → String
  | .error e => e.message
  | .fault f => f.message

/-- A failure that has a name and a wording only, as it is reported. -/
def plainLine (name message : String) : String :=
  "Error: " ++ name ++ ": " ++ message

/-- The report of a failure, with details only if they are asked for. -/
def lines (details : Bool) : Failure → List String
  | .error e => e.lines ++ if details then e.contextLines else []
  | .fault f => [plainLine f.name f.message]

/-- What is printed of a failure. -/
def report (details : Bool) (f : Failure) : String :=
  "\n".intercalate (f.lines details)

/-- What is printed of a failure with its details and a trace of what led to it. -/
def reportWithTrace (trace : String) (f : Failure) : String :=
  f.report true ++ "\n\nTraceback:\n" ++ trace

end Failure

end SqlSnippet
