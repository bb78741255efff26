import SqlSnippet.Text.Blank

/-!
# Line breaks

A text read from a file or a stream has one kind of line break: the carriage return, alone or
with a line feed after it, is read as a line feed. `Text.lines` cuts a text at line breaks of all
three kinds.
-/

namespace SqlSnippet

/-- Read every line break as a line feed. -/
def Text.unifyBreaks : Text → Text
  | [] => []
  | '\r' :: '\n' :: r => '\n' :: Text.unifyBreaks r
  | '\r' :: r => '\n' :: Text.unifyBreaks r
  | c :: r => c :: Text.unifyBreaks r

/-- The lines of a text, without the line breaks between them; there is always one. -/
def Text.lines : Text → List Text
  | [] => [[]]
  | '\r' :: '\n' :: r => [] :: Text.lines r
  | '\r' :: r => [] :: Text.lines r
  | '\n' :: r => [] :: Text.lines r
  | c :: r =>
    match Text.lines r with
    | [] => [[c]]
    | l :: ls => (c :: l) :: ls

theorem Text.lines_ne_nil (s : Text) : Text.lines s ≠ [] := by
  fun_induction Text.lines s <;> simp

end SqlSnippet
