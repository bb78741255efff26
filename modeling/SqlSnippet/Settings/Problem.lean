/-!
# Problems

A problem is reported to the user in one line: what is wrong, where in a file, by which code it is
known, and what may help.
-/

namespace SqlSnippet

/-- What a problem is about: anything, or a configuration file. -/
inductive ProblemKind where
  | general
  | configuration
  deriving DecidableEq, Repr

/-- The name of a kind of problem. -/
def ProblemKind.name : ProblemKind → String
  | .general => "ComplexSQLError"
  | .configuration => "ConfigError"

/-- The code that a kind of problem has of itself. -/
def ProblemKind.code? : ProblemKind → Option String
  | .general => none
  | .configuration => some "CONFIG_INVALID"

/-- Something to report; lines and columns count from one. -/
structure Problem where
  kind : ProblemKind
  message : String
  path : Option String
  line : Option Int
  column : Option Int
  code : Option String
  hint : Option String
  deriving DecidableEq, Repr

namespace Problem

/-- A text that is given and not empty. -/
def present? (s : Option String) : Option String :=
  s.filter (· ≠ "")

/-- Where the problem is: a column counts only with a line, and both only with a path. -/
def place? (p : Problem) : Option String :=
  (present? p.path).map fun path =>
    match p.line, p.column with
    | none, _ => path
    | some l, none => path ++ ":" ++ toString l
    | some l, some c => path ++ ":" ++ toString l ++ ":" ++ toString c

/-- Where the problem is, in words. -/
def describe (p : Problem) : String :=
  p.place?.getD "unknown location"

/-- The problem on one line. -/
def format (p : Problem) : String :=
  let notes := [p.place?, present? p.code].filterMap id
  let text :=
    if notes.isEmpty then p.message else p.message ++ " (" ++ "; ".intercalate notes ++ ")"
  match present? p.hint with
  | none => text
  | some hint => text ++ " Hint: " ++ hint

end Problem

end SqlSnippet
