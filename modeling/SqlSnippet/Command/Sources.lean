import SqlSnippet.Command.Values
import SqlSnippet.Files.Tree

/-!
# Sources of SQL

The operands of a command name sources: a dash stands for the standard input, a file for itself,
and a directory for the SQL files below it, in ascending order. `collectSources` is the sources of
all operands, in their order; one that names nothing is an error.
-/

namespace SqlSnippet

/-- The name of the standard input. -/
def stdinName : Text := ['-']

/-- Whether a path is that of a SQL file, by the last extension of its name. -/
def isSqlPath (p : Path) : Bool :=
  Text.lower p.suffix = ".sql".toList

/-- The error of an operand that names no source. -/
def missingSource (message hint : String) : Failure :=
  .error (.ofKind .missingFile message (some hint))

/-- The error of a path that leads to nothing. -/
def nothingThere (p : Path) : Failure :=
  missingSource ("SQL source not found: " ++ String.ofList p.toText)
    "Pass an existing file, a directory or '-' for stdin"

/-- The first path that is too long, of those to all that is below a directory at a place. -/
def tooLongBelow? (t : FileTree) (place : Place) (p : Path) : Option Path :=
  ((t.entriesBelow place).map fun (names, _) => p.append ⟨0, names⟩).find? Path.isTooLong

/-- The SQL files below a directory at a place, which a path leads to. -/
def sqlFilesBelow (t : FileTree) (place : Place) (p : Path) : List Path :=
  ((t.filesBelow place).map fun names => p.append ⟨0, names⟩).filter isSqlPath

/-- The sources that an operand names. Everything below a directory is looked up by its path. -/
def sourcesOf (t : FileTree) (here : Place) (operand : Text) : Except Failure (List Text) :=
  if operand = stdinName then .ok [stdinName]
  else
    let p := Path.ofText operand
    match t.find? here p with
    | .error f => .error (.fault f)
    | .ok (some (place, .directory)) =>
      match tooLongBelow? t place p with
      | some q => .error (.fault (.file .nameTooLong q.toText))
      | none =>
        match sqlFilesBelow t place p with
        | [] => .error (missingSource ("No SQL files found in " ++ String.ofList p.toText)
            "Directories are searched recursively for *.sql files")
        | files => .ok (files.map Path.toText)
    | .ok (some (_, .file _)) => .ok [p.toText]
    | .ok none => .error (nothingThere p)

/-- The sources that operands name. -/
def collectSources (t : FileTree) (here : Place) (operands : List Text) :
    Except Failure (List Text) :=
  (operands.mapM (sourcesOf t here)).map List.flatten

/-- The sources that a loose text names. No file has a name with half of a surrogate pair. -/
def looseSourcesOf (t : FileTree) (here : Place) (operand : LooseText) :
    Except Failure (List Text) :=
  match operand.text? with
  | some s => sourcesOf t here s
  | none => .error (nothingThere (Path.ofText operand.shown))

/-- The sources that values name, each of which has to be a text. -/
def collectValueSources (t : FileTree) (here : Place) (vs : List Value) :
    Except Failure (List Text) :=
  (vs.mapM fun v => do looseSourcesOf t here (← pathText v)).map List.flatten

end SqlSnippet
