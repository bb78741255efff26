import SqlSnippet.Editor.SemanticTokens
import SqlSnippet.Layout.Format
import SqlSnippet.Settings.Load
import SqlSnippet.Version

/-!
# The language server

The server keeps the documents that an editor has open and answers for them: it reports strings
and comments that are not closed, gives semantic tokens, and lays a document out. `Server.handle`
takes one message from the editor and gives the changed server back with the answer and the
records. The state of a document is that of the last message which opened or changed it, unless
one has closed it since.

A message is what the library that speaks the protocol hands on, after it has read it. The library
also tells which path a URI stands for; what it tells is a part of the surroundings
(`EditorHost.pathOf`).
-/

namespace SqlSnippet

/-- An open document. -/
structure Document where
  uri : Text
  text : Text
  version : Int
  deriving DecidableEq, Repr

/-- How grave a diagnostic is. -/
inductive DiagnosticSeverity where
  | error
  | warning
  | information
  | hint
  deriving DecidableEq, Repr

/-- The number of a severity in the protocol. -/
def DiagnosticSeverity.number : DiagnosticSeverity → Nat
  | .error => 1
  | .warning => 2
  | .information => 3
  | .hint => 4

/-- A report about a stretch of a document, with the name of the one who reports it. -/
structure Diagnostic where
  range : Range
  message : String
  severity : DiagnosticSeverity
  source : String
  deriving DecidableEq, Repr

/-- A change of a document: a stretch of it gives way to a text. -/
structure TextEdit where
  range : Range
  text : Text
  deriving DecidableEq, Repr

/-- What an editor sends. A message that opens a document gives its version; one that changes a
document may leave it out. -/
inductive Message where
  | opened (uri text : Text) (version : Int)
  | changed (uri : Text) (version : Option Int) (texts : List Text)
  | closed (uri : Text)
  | tokensWanted (uri : Text)
  | layoutWanted (uri : Text)
  | initialized (root : Option Text)
  deriving Repr

/-- What the server answers. -/
inductive Answer where
  | nothing
  | diagnostics (uri : Text) (ds : List Diagnostic)
  | tokens (numbers : List Nat)
  | edits (es : List TextEdit)
  | failed (f : Fault)
  deriving DecidableEq, Repr

/-- What the server finds around it: the files, the working directory, and the path that the
library knows a URI to stand for, if there is one. -/
structure EditorHost where
  tree : FileTree
  here : Place
  pathOf : Text → Except Fault (Option Text)

/-- The name of the server. -/
def serverName : String := "complexsql-lsp"

/-- The messages that the server handles, by their names in the protocol. -/
def serverFeatures : List String :=
  ["initialized", "textDocument/didChange", "textDocument/didClose", "textDocument/didOpen",
   "textDocument/formatting", "textDocument/semanticTokens/full"]

/-- The name that the server reports under. -/
def diagnosticSource : String := "complexsql"

/-- The warnings about a document: the strings and comments that are not closed. -/
def Document.diagnostics (d : Document) : List Diagnostic :=
  (unterminated d.text).map fun (start, r) =>
    { range := ⟨.ofOffset d.text start, .endOf d.text⟩
      message := "Unterminated " ++ r.kind.label
      severity := .warning
      source := diagnosticSource }

/-- The text of a document after layout. It ends with a line break if it did before and is not
empty. -/
def Document.laidOut (o : LayoutOptions) (d : Document) : Text :=
  let text := (formatDocument o d.text).text
  if text ≠ [] ∧ d.text.getLast? = some '\n' then text ++ ['\n'] else text

/-- The edits that lay a document out: none, or one that puts the new text in place of all. -/
def Document.layoutEdits (o : LayoutOptions) (d : Document) : List TextEdit :=
  let text := d.laidOut o
  if text = d.text then [] else [⟨⟨.zero, .endOf d.text⟩, text⟩]

/-- The settings in force, whether they are there to stay, and the open documents. -/
structure Server where
  config : Config
  pinned : Bool
  documents : List Document

namespace Server

/-- A server without documents. Settings that it is given stay in force; without any it starts
from the standard ones. -/
def start (here : Place) (given : Option Config) : Server :=
  ⟨given.getD (.standard ⟨1, here⟩), given.isSome, []⟩

/-- The open document of a URI. -/
def document? (s : Server) (uri : Text) : Option Document :=
  s.documents.find? (·.uri = uri)

/-- Close the document of a URI. -/
def close (s : Server) (uri : Text) : Server :=
  { s with documents := s.documents.filter (·.uri ≠ uri) }

/-- Keep a document, in place of an older state of it. -/
def keep (s : Server) (d : Document) : Server :=
  { s.close d.uri with documents := d :: (s.close d.uri).documents }

/-- Keep a document and report the warnings about it. -/
def publish (s : Server) (d : Document) : Server × Answer × List Record :=
  (s.keep d, .diagnostics d.uri d.diagnostics, scanNotes d.text)

/-- Give the semantic tokens of a document. -/
def answerTokens (s : Server) (d : Document) : Answer × List Record :=
  (.tokens (encodeTokens (classify s.config.vocabulary d.text)), scanNotes d.text)

/-- The record of a document that layout changes. -/
def layoutRecord (d : Document) : Record :=
  ⟨"complexsql.lsp.workspace", .debug,
    "Formatting " ++ String.ofList d.uri ++ " (version " ++ toString d.version ++ ")"⟩

/-- Give the edits that lay a document out. -/
def answerLayout (s : Server) (d : Document) : Answer × List Record :=
  match s.config.layout.checkIndent with
  | .error e => (.failed (.indent e), [])
  | .ok () =>
    let edits := d.layoutEdits s.config.layout
    let notes := if edits.isEmpty then [] else [layoutRecord d]
    (.edits edits, formatNotes s.config.layout d.text ++ notes)

/-- Load the settings of a root directory. Invalid ones are recorded and change nothing. -/
def reload (w : EditorHost) (s : Server) (root : Text) : Server × Answer × List Record :=
  let speaker := "complexsql.lsp.server"
  match Config.load w.tree w.here (.ofText root) none with
  | (notes, .ok config) =>
    ({ s with config }, .nothing, notes ++ [⟨speaker, .info,
      "Workspace configuration loaded from " ++ String.ofList root⟩])
  | (notes, .error (.problem p)) =>
    (s, .nothing, notes ++ [⟨speaker, .warning,
      "Ignoring invalid workspace configuration: " ++ p.format⟩])
  | (notes, .error (.fault f)) => (s, .failed f, notes)

/-- Handle a message. A change without a version gives the document the version zero, and one
without texts changes nothing. A root is looked at unless the settings are there to stay. -/
def handle (w : EditorHost) (s : Server) : Message → Server × Answer × List Record
  | .opened uri text version => s.publish ⟨uri, text, version⟩
  | .changed uri version texts =>
    match texts.getLast? with
    | none => (s, .nothing, [])
    | some text => s.publish ⟨uri, text, version.getD 0⟩
  | .closed uri => (s.close uri, .diagnostics uri [], [])
  | .tokensWanted uri =>
    match s.document? uri with
    | none => (s, .tokens [], [])
    | some d => (s, s.answerTokens d)
  | .layoutWanted uri =>
    match s.document? uri with
    | none => (s, .edits [], [])
    | some d => (s, s.answerLayout d)
  | .initialized root =>
    let root := root.getD []
    if s.pinned ∨ root = [] then (s, .nothing, [])
    else match w.pathOf root with
      | .error f => (s, .failed f, [])
      | .ok path =>
        let path := path.getD []
        if path = [] then (s, .nothing, []) else s.reload w path

end Server

end SqlSnippet
