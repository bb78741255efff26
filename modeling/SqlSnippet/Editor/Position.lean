import SqlSnippet.Source.Position
import SqlSnippet.Text.Newline

/-!
# Positions in an editor

An editor counts lines and columns from zero; a line ends at any of the three line breaks, and
columns count UTF-16 code units, of which a character beyond the basic plane takes two.
`Position.after` moves a position over a text; the position of an offset is where the text before
it leads to from the start.
-/

namespace SqlSnippet

/-- How many UTF-16 code units a character takes. -/
def charUnits (c : Char) : Nat :=
  if c.toNat < 0x10000 then 1 else 2

/-- How many UTF-16 code units a text takes. -/
def Text.units : Text → Nat
  | [] => 0
  | c :: s => charUnits c + Text.units s

/-- A line and a column. -/
structure Position where
  line : Nat
  column : Nat
  deriving DecidableEq, Repr

/-- Two positions with the text between them. -/
structure Range where
  start : Position
  stop : Position
  deriving DecidableEq, Repr

namespace Position

/-- The start of a text. -/
def zero : Position :=
  ⟨0, 0⟩

/-- Move over a text. -/
def after (p : Position) (s : Text) : Position :=
  match Text.lines s with
  | [] => p
  | [l] => ⟨p.line, p.column + Text.units l⟩
  | _ :: ls => ⟨p.line + ls.length, Text.units (ls.getLastD [])⟩

/-- The position of an offset. Only the text before the offset counts, so a line break of two
characters that the offset parts counts by its first. -/
def ofOffset (s : Text) (offset : Int) : Position :=
  zero.after (Text.before s offset)

/-- The end of a text. -/
def endOf (s : Text) : Position :=
  ofOffset s s.length

end Position

end SqlSnippet
