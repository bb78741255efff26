import SqlSnippet.Command.Failure

/-!
# Values of options

What a user gives for the width of an indent or for a path is checked before it is used.
-/

namespace SqlSnippet

/-- The plural of a word, unless there is one of what it counts. -/
def plural (word : String) (count : Int) : String :=
  if count = 1 then word else word ++ "s"

/-- The error of a value that is no indent width. -/
def indentError (message : String) : CommandError :=
  .ofKind .validation message (some "Use a positive integer such as 2 or 4")

/-- The whole number that a value stands for: a text is read, a fraction is cut off, and a truth
value counts as one or zero. -/
def wholeOf? : Value → Except Failure (Option Int)
  | .whole n => .ok (some n)
  | .bool b => .ok (some b.toInt)
  | .text s => .ok (s.text?.bind readWhole?)
  | .float (.infinite _) => .error (.fault .infiniteWidth)
  | .float x => .ok x.truncate?
  | _ => .ok none

/-- The width of an indent, which is a positive number. -/
def indentWidth (v : Value) : Except Failure Int :=
  match wholeOf? v with
  | .error f => .error f
  | .ok none =>
    .error (.error (indentError ("Invalid indent width: " ++ String.ofList v.literal)))
  | .ok (some n) =>
    if n < 1 then
      .error (.error (indentError ("Indent width must be positive, got " ++ toString n)))
    else .ok n

/-- The text of a value that is to be a path. -/
def pathText (v : Value) : Except Failure LooseText :=
  match v with
  | .text s => .ok s
  | v => .error <| .error <| .ofKind .validation
    ("Expected a SQL file or directory path, got " ++ v.kindName)
    (some "Pass a file, a directory or '-' for stdin")

end SqlSnippet
