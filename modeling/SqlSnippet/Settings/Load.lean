import SqlSnippet.Data.Json
import SqlSnippet.Data.Toml
import SqlSnippet.Files.Tree
import SqlSnippet.Journal
import SqlSnippet.Settings.Config
import SqlSnippet.Settings.Problem
import SqlSnippet.Source.Position

/-!
# Loading settings

The settings of a workspace come from a file that is named, or else from the first configuration
file that its root directory holds; without any, the standard settings hold. A file whose name
ends in `.toml` is read as TOML and any other as JSON. What is wrong with the contents of the file
is a problem to report; that the file cannot be read as text at all is a fault.
-/

namespace SqlSnippet

/-- Why settings cannot be loaded. -/
inductive LoadError where
  | problem (p : Problem)
  | fault (f : Fault)
  deriving DecidableEq, Repr

namespace Config

/-- The names of configuration files, in the order in which they are looked for. -/
def fileNames : List Text :=
  ["complexsql.toml".toList, ".complexsqlrc".toList]

/-- The first of some paths that leads to something. -/
def firstPresent (t : FileTree) (here : Place) : List Path → Except Fault (Option Path)
  | [] => .ok none
  | p :: ps =>
    match t.find? here p with
    | .error f => .error f
    | .ok (some _) => .ok (some p)
    | .ok none => firstPresent t here ps

/-- Where the settings come from: the file that is named, if it is there, or a configuration file
of the root directory. -/
def locate (t : FileTree) (here : Place) (root : Path) (named : Option Path) :
    Except Fault (Option Path) :=
  firstPresent t here <|
    match named with
    | some p => [p]
    | none => fileNames.map fun n => root.append ⟨0, [n]⟩

/-- A problem with a configuration file. -/
def problemAt (path : Path) (message : String) (hint : Option String) : Problem where
  kind := .configuration
  message
  path := some (String.ofList path.toText)
  line := none
  column := none
  code := ProblemKind.configuration.code?
  hint

/-- The error of a text that is not JSON; its place is counted in lines and columns. -/
def jsonError (path : Path) (s : Text) (e : Stuck Json.Fault) : LoadError :=
  match e.cause with
  | .tooManyDigits n => .fault (.tooManyDigits n)
  | .listTooDeep => .fault (.tooDeep " while decoding a JSON array from a unicode string")
  | .tableTooDeep => .fault (.tooDeep " while decoding a JSON object from a unicode string")
  | cause =>
    let (line, column) := lineColumn s (e.offset s)
    .problem { problemAt path ("Invalid JSON configuration: " ++ cause.message) none with
      line := some (line + 1)
      column := some (column + 1) }

/-- The place of a fault in a TOML document. -/
def tomlPlace (s : Text) (e : Stuck Toml.Fault) : String :=
  if e.rest.isEmpty then "end of document"
  else
    let (line, column) := lineColumn s (e.offset s)
    "line " ++ toString (line + 1) ++ ", column " ++ toString (column + 1)

/-- The error of a text that is not TOML; its place is part of the message. -/
def tomlError (path : Path) (s : Text) (e : Stuck Toml.Fault) : LoadError :=
  match e.cause with
  | .tooManyDigits n => .fault (.tooManyDigits n)
  | .tooDeep => .fault (.tooDeep "")
  | cause =>
    .problem (problemAt path
      ("Invalid TOML configuration: " ++ cause.message ++ " (at " ++ tomlPlace s e ++ ")") none)

/-- The error of a file whose entries are no settings. -/
def configError (path : Path) (f : ConfigFault) : LoadError :=
  match f with
  | .unwritable => .fault .unwritable
  | f => .problem (problemAt path f.message f.hint?)

/-- Read a file as JSON. -/
def readJsonFile (t : FileTree) (here : Place) (path : Path) : Except LoadError Value :=
  match t.readText here path with
  | .error f => .error (.fault f)
  | .ok s => (Json.read s).mapError (jsonError path s)

/-- Read a file as TOML. -/
def readTomlFile (t : FileTree) (here : Place) (path : Path) : Except LoadError Value :=
  match t.readBytes here path with
  | .error f => .error (.fault f)
  | .ok bytes =>
    match Utf8.decode bytes with
    | .error m => .error (.fault (.encoding m))
    | .ok s =>
      let s := Toml.joinBreaks s
      (Toml.read s).mapError (tomlError path s)

/-- Read a configuration file in the format that its name tells. -/
def readFile (t : FileTree) (here : Place) (path : Path) : Except LoadError Value :=
  if path.suffix = ".toml".toList then readTomlFile t here path else readJsonFile t here path

/-- The record of a file that has been read. -/
def loadedRecord (path : Path) : Record :=
  ⟨"complexsql.config", .debug,
    "Loaded workspace configuration from " ++ String.ofList path.toText⟩

/-- The settings of a file, and what to record. -/
def loadFile (t : FileTree) (here : Place) (root path : Path) :
    List Record × Except LoadError Config :=
  match readFile t here path with
  | .error e => ([], .error e)
  | .ok (.table es) =>
    ([loadedRecord path], (ofEntries root path es).mapError (configError path))
  | .ok _ => ([], .error (.problem (problemAt path "Configuration root must be a table" none)))

/-- The settings of a workspace, and what to record. -/
def load (t : FileTree) (here : Place) (root : Path) (named : Option Path) :
    List Record × Except LoadError Config :=
  if root.hasNull then ([], .error (.fault .nullInPath))
  else
    let root := root.resolve here
    match locate t here root named with
    | .error f => ([], .error (.fault f))
    | .ok (some path) => loadFile t here root path
    | .ok none =>
      match named with
      | some p => ([], .error (.problem (problemAt p "Configuration file not found" none)))
      | none => ([], .ok (standard root))

end Config

end SqlSnippet
