import SqlSnippet.Command.Invocation
import SqlSnippet.Command.Session
import SqlSnippet.Layout.Format

/-!
# Laying out sources

The command that lays out sources. It prints them as they become, or only tells which of them
would change, or replaces those that do.
-/

namespace SqlSnippet

/-- The text of a file that is laid out, which ends with a line break unless it is empty. -/
def fileText (text : Text) : Text :=
  if text = [] then [] else text ++ ['\n']

/-- The value of a width that is asked for: a text, or an empty list if none is given. -/
def widthValue (width : Option Text) : Value :=
  match width with
  | none => .list []
  | some s => .text s.loose

/-- The options that layout goes by, where a command may change the settings. -/
def layoutOptions (c : Config) (indent : Option (Option Text)) (splitStatements : Bool) :
    Except Failure LayoutOptions := do
  let indentSize ← match indent with
    | none => .ok c.layout.indentSize
    | some width => indentWidth (widthValue width)
  let o := { c.layout with
    indentSize, splitStatements := c.layout.splitStatements || splitStatements }
  match o.checkIndent with
  | .ok () => .ok o
  | .error e => .error (.fault (.indent e))

/-- Lay out one source, and tell whether that changed it. -/
def formatSource (w : Surroundings) (least : Severity) (o : LayoutOptions) (mode : LayoutMode)
    (isOneOfMany : Bool) (source : Text) : Job Bool := do
  let shown := String.ofList source
  let s ← readSource w.here source
  tellRecords w.clock least (formatNotes o s)
  let formatted := formatDocument o s
  formatted.warnings.forM fun message => tellLine ("Warning in " ++ shown ++ ": " ++ message)
  let text := fileText formatted.text
  match mode with
  | .print =>
    if isOneOfMany then putLine ("-- " ++ shown)
    putText text
  | .check =>
    if text ≠ s then putLine ("Would reformat " ++ shown)
  | .write =>
    if text ≠ s then
      writeFile w.here (.ofText source) text .fault
      putLine ("Formatted " ++ shown)
  return text != s

/-- Lay out sources. The exit code is one if a check finds that layout would change some. -/
def formatJob (w : Surroundings) (least : Severity) (c : Config) (paths : List Text)
    (mode : LayoutMode) (indent : Option (Option Text)) (splitStatements : Bool) : Job Nat := do
  let o ← Job.ofExcept (layoutOptions c indent splitStatements)
  let sources ← Job.ofExcept (collectSources (← get).tree w.here paths)
  if mode ≠ .print ∧ stdinName ∈ sources then
    throw (.error (.ofKind .validation "--write and --check need file paths, not stdin"
      (some "Drop the flag to print the formatted SQL instead")))
  let changes ← sources.mapM (formatSource w least o mode (1 < sources.length))
  let count := changes.count true
  let files := toString count ++ " " ++ plural "file" count
  match mode with
  | .print => return 0
  | .check =>
    if count = 0 then
      putLine "All files are already formatted"
      return 0
    else
      putLine (files ++ " would be reformatted")
      return 1
  | .write =>
    putLine ("Formatted " ++ files)
    return 0

end SqlSnippet
