import SqlSnippet.Command.Session
import SqlSnippet.Markup.Html
import SqlSnippet.Source.Notes

/-!
# Rendering sources

The command that renders each source as a fragment. The fragments are joined by line feeds and
printed, or written to a file, which takes that no class of theirs holds half of a surrogate pair.
Nothing is printed or written unless every source can be read.
-/

namespace SqlSnippet

/-- Render one source. -/
def highlightSource (w : Surroundings) (least : Severity) (c : Config) (isWrapped : Bool)
    (source : Text) : Job LooseText := do
  let s ← readSource w.here source
  let ts := classify c.vocabulary s
  tellRecords w.clock least <| scanNotes s ++
    [⟨"complexsql.cli.commands.highlight", .debug,
      "Classified " ++ String.ofList source ++ " into " ++ toString ts.length ++ " tokens"⟩]
  return renderLoose c.classNames (if isWrapped then some standardContainer else none) ts

/-- Render sources, to a file or to be printed. -/
def highlightJob (w : Surroundings) (least : Severity) (c : Config) (paths : List Text)
    (isWrapped : Bool) (output : Option Text) : Job Nat := do
  let sources ← Job.ofExcept (collectSources (← get).tree w.here paths)
  let fragments ← sources.mapM (highlightSource w least c isWrapped)
  let lineFeed : LooseText := [.char '\n']
  let text := List.intercalate lineFeed fragments ++ lineFeed
  match output with
  | none => putLoose text
  | some output =>
    let path := Path.ofText output
    let shown := String.ofList path.toText
    writeLoose w.here path text fun f =>
      if f.isFile then .error (.ofFault ("Could not write " ++ shown) none f) else .fault f
    let count := fragments.length
    putLine ("Wrote " ++ toString count ++ " " ++ plural "fragment" count ++ " to " ++ shown)
  return 0

end SqlSnippet
