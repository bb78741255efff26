import SqlSnippet.Text.Blank

/-!
# Lines and columns

A place in a text is an offset or a line and a column. Lines and columns count from zero, and only
the line feed ends a line. An offset may be negative, and then counts from the end of the text, or
lie beyond the end: either way it first settles how much of the text lies before the place, and
the column is then taken from the offset as given.
-/

namespace SqlSnippet

/-- The number of characters before an offset: a negative one counts from the end of the text,
and none reaches over the ends. -/
def Text.bound (s : Text) (offset : Int) : Nat :=
  if offset < 0 then (offset + s.length).toNat else min offset.toNat s.length

/-- The part of a text before an offset. -/
def Text.before (s : Text) (offset : Int) : Text :=
  s.take (Text.bound s offset)

theorem Text.bound_natCast (s : Text) (n : Nat) : Text.bound s n = min n s.length := by
  rw [Text.bound, if_neg (by omega), Int.toNat_natCast]

theorem Text.bound_of_le {s : Text} {n : Nat} (h : n ≤ s.length) : Text.bound s n = n := by
  rw [Text.bound_natCast, Nat.min_eq_left h]

theorem Text.before_natCast (s : Text) (n : Nat) : Text.before s n = s.take n := by
  rw [Text.before, Text.bound_natCast, ← List.take_eq_take_min]

/-- The part of a text after its last line feed. -/
def Text.lastLine (s : Text) : Text :=
  (s.reverse.takeWhile (· != '\n')).reverse

/-- Line and column of an offset. -/
def lineColumn (s : Text) (offset : Int) : Nat × Int :=
  let before := Text.before s offset
  (before.count '\n', offset - ((before.length - (Text.lastLine before).length : Nat) : Int))

end SqlSnippet
