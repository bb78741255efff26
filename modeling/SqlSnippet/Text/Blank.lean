/-!
# White space

White space is that of Unicode: the ASCII blanks, the four information separators, the line and
paragraph separators and the spaces of all widths, but neither the zero-width space nor the byte
order mark. This module strips it from the ends of a text and reads off the run of it that a
text starts with.
-/

namespace SqlSnippet

/-- A text is its list of characters: all offsets and lengths count characters. -/
abbrev Text := List Char

/-- Texts are compared character by character. -/
instance Text.lawfulBEq : LawfulBEq Text :=
  inferInstance

/-- White space by Unicode. -/
def isBlank (c : Char) : Bool :=
  let n := c.toNat
  (9 ≤ n && n ≤ 13) || (28 ≤ n && n ≤ 32) || n == 0x85 || n == 0xA0 || n == 0x1680 ||
    (0x2000 ≤ n && n ≤ 0x200A) || n == 0x2028 || n == 0x2029 || n == 0x202F || n == 0x205F ||
    n == 0x3000

/-- Whether a text holds nothing but white space. -/
def Text.isBlank (s : Text) : Bool :=
  s.all SqlSnippet.isBlank

/-- Drop the white space that a text starts with. -/
def Text.trimStart (s : Text) : Text :=
  s.dropWhile SqlSnippet.isBlank

/-- Drop the white space that a text ends with. -/
def Text.trimEnd (s : Text) : Text :=
  (s.reverse.dropWhile SqlSnippet.isBlank).reverse

/-- Drop the white space at both ends of a text. -/
def Text.trim (s : Text) : Text :=
  s.trimStart.trimEnd

theorem Text.trimStart_eq_nil_iff {s : Text} : s.trimStart = [] ↔ s.isBlank = true := by
  induction s with
  | nil => simp [Text.trimStart, Text.isBlank]
  | cons c r ih =>
    simp only [Text.trimStart, Text.isBlank] at ih
    by_cases h : SqlSnippet.isBlank c <;> simp_all [Text.trimStart, Text.isBlank]

/-- Put one space in place of every run of white space. -/
def Text.collapse : Text → Text
  | [] => []
  | c :: r =>
    if SqlSnippet.isBlank c then
      match r with
      | [] => [' ']
      | d :: _ => if SqlSnippet.isBlank d then Text.collapse r else ' ' :: Text.collapse r
    else c :: Text.collapse r

end SqlSnippet
