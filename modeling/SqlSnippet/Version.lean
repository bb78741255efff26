/-!
# Version

The version of the program, which its commands and its language server tell.
-/

namespace SqlSnippet

/-- The version of the program. -/
def programVersion : String := "0.3.0"

end SqlSnippet
