import SqlSnippet.Journal
import SqlSnippet.Source.Region

/-!
# What a scan notices

Each scan of a text records the strings and block comments that it found unclosed.
-/

namespace SqlSnippet

/-- The name of a kind of region in a record. -/
def RegionKind.recordName : RegionKind → String
  | .code => "code"
  | .string => "string"
  | .lineComment => "line_comment"
  | .blockComment => "block_comment"

/-- What an unclosed region is called in messages to a reader. -/
def RegionKind.label : RegionKind → String
  | .string => "string literal"
  | .blockComment => "block comment"
  | _ => "region"

/-- The records of one scan of a text. -/
def scanNotes (s : Text) : List Record :=
  (unterminated s).map fun (start, r) =>
    ⟨"complexsql.lang.lexer", .debug,
      "Unterminated " ++ r.kind.recordName ++ " at offset " ++ toString start⟩

end SqlSnippet
