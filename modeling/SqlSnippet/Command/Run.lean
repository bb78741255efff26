import SqlSnippet.Command.Listing
import SqlSnippet.Command.Relayout
import SqlSnippet.Command.Rendering
import SqlSnippet.Version

/-!
# Runs of the program

A run reads the arguments, loads the settings of the workspace, carries out the command, and ends
with an exit code. A failure on the way is reported and ends the run with the code one, unless the
environment asks to leave it to the caller; refused arguments end it with the code two.
-/

namespace SqlSnippet

/-- Start the language server. -/
def serveJob (w : Surroundings) : Job Nat := do
  match w.server with
  | none =>
    throw (.error (.ofKind .runtime "pygls is not installed"
      (some "Install with: pip install complexsql[lsp]")))
  | some run =>
    tellLine ("Starting complexsql language server (pid=" ++ w.process ++ ")")
    match run with
    | .ends => return 0
    | .interrupted =>
      tellLine "Language server interrupted by user."
      return 0
    | .fails => throw (.fault .server)

/-- Carry out a command under settings. -/
def commandJob (w : Surroundings) (least : Severity) (c : Config) : Command → Job Nat
  | .highlight paths isWrapped output => highlightJob w least c paths isWrapped output
  | .format paths mode indent splitStatements =>
    formatJob w least c paths mode indent splitStatements
  | .tokens path asJson => tokensJob w least c path asJson
  | .serve => serveJob w

/-- Load the settings of the workspace. -/
def loadJob (w : Surroundings) (least : Severity) (i : Invocation) : Job Config := do
  let root := match i.workspace with
    | none => ⟨1, w.here⟩
    | some s => Path.ofText s
  let (notes, result) := Config.load (← get).tree w.here root (i.config.map Path.ofText)
  tellRecords w.clock least notes
  Job.ofExcept <| result.mapError fun
    | .problem p => .error (.ofProblem p)
    | .fault f => .fault f

/-- The job of an invocation. -/
def invocationJob (w : Surroundings) (i : Invocation) : Job Nat := do
  let least := w.environment.threshold i.logLevel
  let c ← loadJob w least i
  commandJob w least c i.command

/-- How a run of the program ends: with an exit code, or with a failure that is left to the
caller. -/
inductive Ending where
  | exit (code : Nat)
  | raised (f : Failure)
  deriving DecidableEq, Repr

/-- The error of a command for which no settings have been loaded. -/
def settingsMissing : CommandError :=
  { CommandError.ofKind .configuration
      "CLI context was not initialized before command execution"
      (some "This is an internal error - please report it") with
    code := "CLI_CONTEXT_NOT_INITIALIZED" }

/-- Report a failure, or leave it to the caller. -/
def endFailed (w : Surroundings) (isVerbose : Bool) (f : Failure) (s : Session) :
    Ending × Session :=
  if w.environment.reraises then (.raised f, s)
  else
    let report :=
      if w.environment.givesDetails isVerbose then f.reportWithTrace (w.trace f)
      else f.report false
    (.exit 1, { s with err := s.err ++ report.toList ++ ['\n'] })

/-- Do a job to its end. -/
def finish (w : Surroundings) (isVerbose : Bool) (job : Job Nat) (s : Session) :
    Ending × Session :=
  match job.run s with
  | (.ok code, s) => (.exit code, s)
  | (.error f, s) => endFailed w isVerbose f s

/-- The whole explanation of a command. -/
def Grammar.helpText (g : Grammar) : String :=
  g.usage ++ "\n" ++ g.manual

/-- What the program prints of its version. -/
def versionText : String :=
  Manual.program.program ++ " " ++ programVersion ++ "\n"

/-- Give what was asked for in place of a command, or say why the arguments are refused. -/
def halt (h : Halt) (s : Session) : Ending × Session :=
  match h with
  | .help g => (.exit 0, { s with out := s.out ++ g.helpText.toList })
  | .version => (.exit 0, { s with out := s.out ++ versionText.toList })
  | .refused g message =>
    let report := g.usage ++ g.program ++ ": error: " ++ message ++ "\n"
    (.exit 2, { s with err := s.err ++ report.toList })

/-- Run the program. Without a command it explains itself. -/
def runProgram (w : Surroundings) (args : List Text) (s : Session) : Ending × Session :=
  match Invocation.read args with
  | .error h => halt h s
  | .ok none => (.exit 1, { s with out := s.out ++ Manual.program.helpText.toList })
  | .ok (some i) => finish w i.isVerbose (invocationJob w i) s

end SqlSnippet
