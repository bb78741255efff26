import SqlSnippet.Text.Blank
import SqlSnippet.Text.CaseTable

/-!
# Upper case

The full upper-case form of a text: each character is replaced by its own upper-case form, which
may be several characters long (a sharp s gives a pair of capitals).
-/

namespace SqlSnippet

/-- The upper-case form of a character, by Unicode 14. -/
def upperChar (c : Char) : Text :=
  if c.toNat < 128 then [c.toUpper]
  else match upperExpansions.lookup c.toNat with
    | some ns => ns.map Char.ofNat
    | none => [Char.ofNat (shiftCase upperRuns c.toNat)]

/-- The upper-case form of a text. -/
def Text.upper (s : Text) : Text :=
  s.flatMap upperChar

@[simp] theorem Text.upper_nil : Text.upper [] = [] := rfl

@[simp] theorem Text.upper_cons (c : Char) (s : Text) :
    Text.upper (c :: s) = upperChar c ++ Text.upper s := rfl

@[simp] theorem Text.upper_append (s t : Text) :
    Text.upper (s ++ t) = Text.upper s ++ Text.upper t := by
  simp [Text.upper]

end SqlSnippet
