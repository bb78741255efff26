import SqlSnippet.Source.Region

/-!
# Statements

A script falls into statements at the semicolons of its code; a semicolon inside a string or a
comment ends nothing. Each statement keeps the semicolon that ends it and the white space around
it. What follows the last semicolon is a statement unless it is blank.
-/

namespace SqlSnippet

/-- The characters of a region, each with the mark whether a statement ends with it. -/
def Region.marks (r : Region) : List (Char × Bool) :=
  r.text.map fun c => (c, !r.isProtected && c == ';')

/-- Cut a marked text after each mark. -/
def cutAfterMarks : List (Char × Bool) → List Text
  | [] => []
  | (c, true) :: r => [c] :: cutAfterMarks r
  | (c, false) :: r =>
    match cutAfterMarks r with
    | [] => [[c]]
    | p :: ps => (c :: p) :: ps

/-- Cutting after marks loses nothing. -/
theorem flatten_cutAfterMarks (ms : List (Char × Bool)) :
    (cutAfterMarks ms).flatten = ms.map Prod.fst := by
  fun_induction cutAfterMarks ms with
  | case1 => rfl
  | case2 c r ih => simp [ih]
  | case3 c r h ih => simp [h] at ih; simp [ih]
  | case4 c r p ps h ih => simp [h] at ih; simp [ih]

/-- The statements of a script, in order. -/
def statements (s : Text) : List Text :=
  (cutAfterMarks ((scan s).flatMap Region.marks)).filter (!Text.isBlank ·)

end SqlSnippet
