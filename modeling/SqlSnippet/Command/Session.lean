import SqlSnippet.Command.Environment
import SqlSnippet.Command.Sources

/-!
# Sessions

A session is what a command works on and changes: the files, what is still to be read from the
standard input, and what has been printed. A job is a part of a command; what it printed and wrote
before it failed stays.
-/

namespace SqlSnippet

/-- What becomes of a language server that is started. -/
inductive ServerRun where
  | ends
  | interrupted
  | fails
  deriving DecidableEq, Repr

/-- What a command finds around it: the working directory, the environment, what a clock shows,
the number of the process, how a failure is traced, and the language server if there is one. -/
structure Surroundings where
  here : Place
  environment : Environment
  clock : String
  process : String
  trace : Failure → String
  server : Option ServerRun

/-- What a command works on and changes. -/
structure Session where
  tree : FileTree
  input : List UInt8
  out : Text
  err : Text

/-- A session in which nothing has been printed. -/
def Session.start (tree : FileTree) (input : List UInt8) : Session :=
  ⟨tree, input, [], []⟩

/-- A part of a command. -/
abbrev Job := ExceptT Failure (StateM Session)

/-- Print a text. -/
def putText (s : Text) : Job Unit :=
  modify fun w => { w with out := w.out ++ s }

/-- Print a loose text; nothing of it is printed if it is no text. -/
def putLoose (x : LooseText) : Job Unit :=
  match x.toText with
  | .ok s => putText s
  | .error e => throw (.fault (.strayHalves e))

/-- Print a line. -/
def putLine (s : String) : Job Unit :=
  putText (s.toList ++ ['\n'])

/-- Print a line for the attention of the user. -/
def tellLine (s : String) : Job Unit :=
  modify fun w => { w with err := w.err ++ s.toList ++ ['\n'] }

/-- Show the records that are grave enough. -/
def tellRecords (clock : String) (least : Severity) (rs : List Record) : Job Unit :=
  (rs.filter (Record.shownAt least)).forM fun r => tellLine (clock ++ " - " ++ r.line)

/-- Go on with a result, or fail. -/
def Job.ofExcept {α : Type} (r : Except Failure α) : Job α :=
  ExceptT.mk (pure r)

/-- Read the whole of the standard input; nothing is left for the next time. -/
def readInput : Job Text := do
  let w ← get
  set { w with input := [] }
  Job.ofExcept ((FileTree.textOfBytes w.input).mapError .fault)

/-- Read a source. -/
def readSource (here : Place) (source : Text) : Job Text := do
  if source = stdinName then readInput
  else
    let w ← get
    Job.ofExcept <| (w.tree.readText here (.ofText source)).mapError fun f =>
      .error (.ofFault ("Could not read " ++ String.ofList source)
        (some "Check that the file is readable UTF-8 text") f)

/-- Write a file, where an error tells of a fault. -/
def writeFile (here : Place) (path : Path) (s : Text) (tell : Fault → Failure) : Job Unit := do
  let w ← get
  let tree ← Job.ofExcept ((w.tree.writeText here path s).mapError tell)
  set { w with tree }

/-- Write a loose text to a file, where an error tells of a fault. The file is empty once it is
open, and stays so if the loose text is no text. -/
def writeLoose (here : Place) (path : Path) (x : LooseText) (tell : Fault → Failure) :
    Job Unit := do
  match x.toText with
  | .ok s => writeFile here path s tell
  | .error e =>
    writeFile here path [] tell
    throw (tell (.strayHalves e))

end SqlSnippet
