import SqlSnippet.Editor.Position
import SqlSnippet.Source.Token

/-!
# Semantic tokens

An editor colours a text by semantic tokens: stretches of one line with a category. Each line of
each token that is not plain is such a stretch, unless it is empty. They are sent as numbers, five
for a stretch: how many lines below the stretch before it, how far to the right of the start of
that one (or of the line, if it is another), its length, its category, and no modifiers.
-/

namespace SqlSnippet

/-- A stretch of one line with a category. -/
structure Stretch where
  start : Position
  length : Nat
  category : Category
  deriving DecidableEq, Repr

/-- The stretches of the lines of a token, the first of them at a position and the others at the
start of a line. -/
def lineStretches (category : Category) (p : Position) : List Text → List Stretch
  | [] => []
  | l :: ls =>
    let rest := lineStretches category ⟨p.line + 1, 0⟩ ls
    if Text.units l = 0 then rest else ⟨p, Text.units l, category⟩ :: rest

/-- The stretches of tokens that start at a position. -/
def stretches (p : Position) : List Token → List Stretch
  | [] => []
  | t :: ts =>
    let own := match t.category with
      | none => []
      | some c => lineStretches c p (Text.lines t.text)
    own ++ stretches (p.after t.text) ts

/-- The five numbers of a stretch after another that starts at `before`. -/
def Stretch.numbers (before : Position) (s : Stretch) : List Nat :=
  let lines := s.start.line - before.line
  let columns := if lines = 0 then s.start.column - before.column else s.start.column
  [lines, columns, s.length, s.category.index, 0]

/-- The numbers of stretches after another that starts at `before`. -/
def relativeNumbers (before : Position) : List Stretch → List Nat
  | [] => []
  | s :: ss => s.numbers before ++ relativeNumbers s.start ss

/-- The numbers that are sent for tokens. -/
def encodeTokens (ts : List Token) : List Nat :=
  relativeNumbers .zero (stretches .zero ts)

end SqlSnippet
