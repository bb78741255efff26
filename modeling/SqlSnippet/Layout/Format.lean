import SqlSnippet.Layout.Piece
import SqlSnippet.Source.Notes
import SqlSnippet.Source.Position
import SqlSnippet.Source.Statement

/-!
# Layout

`formatText` lays out one text: white space outside strings and comments is collapsed, every list
item and every clause gets its own line, and the result is trimmed. `formatDocument` lays out a
text as a whole or statement by statement, and says whether that changed it and what in it is not
closed.
-/

namespace SqlSnippet

/-- A text as laid out, whether it differs from what it was, and what to warn of. -/
structure Formatted where
  text : Text
  isChanged : Bool
  warnings : List String
  deriving Repr

/-- Lay out one text. -/
def formatText (o : LayoutOptions) (s : Text) : Text :=
  let k := Clauses.ofWords o.clauseWords
  trimPieces ((breakCommaPieces o 0 (pieces s)).map (Piece.breakClauses k))

/-- Lay out each statement of a script, with an empty line between them. -/
def formatScript (o : LayoutOptions) (s : Text) : Text :=
  List.intercalate ['\n', '\n'] (((statements s).map (formatText o)).filter (!·.isEmpty))

/-- A warning for each string or comment that is not closed, by line and column from one. -/
def warnings (s : Text) : List String :=
  (unterminated s).map fun (start, r) =>
    let (line, column) := lineColumn s start
    "Unterminated " ++ r.kind.label ++ " at line " ++ toString (line + 1) ++ ", column " ++
      toString (column + 1)

/-- Lay out a text or a script. -/
def formatDocument (o : LayoutOptions) (s : Text) : Formatted :=
  let text := if o.splitStatements then formatScript o s else formatText o s
  ⟨text, text != s, warnings s⟩

/-! ## Records -/

/-- The texts that are scanned to lay out a text, in order. -/
def scannedTexts (o : LayoutOptions) (s : Text) : List Text :=
  if o.splitStatements then s :: statements s else [s]

/-- The records of laying out a text: those of every scan, the last of which looks for warnings. -/
def formatNotes (o : LayoutOptions) (s : Text) : List Record :=
  let count := (unterminated s).length
  (scannedTexts o s ++ [s]).flatMap scanNotes ++
    if count = 0 then [] else [⟨"complexsql.formatting.core", .debug,
      "Formatting input has " ++ toString count ++ " unterminated region(s)"⟩]

end SqlSnippet
