import SqlSnippet.Command.Session
import SqlSnippet.Data.Json
import SqlSnippet.Source.Notes

/-!
# Listing tokens

The command that lists the tokens of sources, one on a line or as a JSON array.
-/

namespace SqlSnippet

/-- What a token is called in a listing. -/
def Token.label (t : Token) : String :=
  match t.category with
  | none => "plain"
  | some c => c.name

/-- A token on one line: what it is called and its text in quotes, with a tab between them. -/
def Token.line (t : Token) : Text :=
  t.label.toList ++ ['\t'] ++ quoted t.text ++ ['\n']

/-- A token as an item of a JSON array. -/
def Token.jsonItem (t : Token) : Text :=
  let category := match t.category with
    | none => "null".toList
    | some c => Json.writeString c.name.toList
  "  \x7b\n    \"text\": ".toList ++ Json.writeString t.text ++
    ",\n    \"category\": ".toList ++ category ++ "\n  \x7d".toList

/-- Tokens as a JSON array. -/
def jsonListing (ts : List Token) : Text :=
  if ts.isEmpty then "[]\n".toList
  else "[\n".toList ++ List.intercalate ",\n".toList (ts.map Token.jsonItem) ++ "\n]\n".toList

/-- The tokens of one source. -/
def sourceTokens (w : Surroundings) (least : Severity) (c : Config) (source : Text) :
    Job (List Token) := do
  let s ← readSource w.here source
  tellRecords w.clock least (scanNotes s)
  return classify c.vocabulary s

/-- List the tokens of sources. -/
def tokensJob (w : Surroundings) (least : Severity) (c : Config) (path : Text) (asJson : Bool) :
    Job Nat := do
  let sources ← Job.ofExcept (collectSources (← get).tree w.here [path])
  let ts := (← sources.mapM (sourceTokens w least c)).flatten
  putText (if asJson then jsonListing ts else ts.flatMap Token.line)
  return 0

end SqlSnippet
