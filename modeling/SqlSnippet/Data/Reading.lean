import SqlSnippet.Text.Blank

/-!
# Reading a text

A reader takes what it reads off the front of a text and gives the rest back. Where it cannot go
on it says why, together with the text that was left there: the place of the fault is the
distance of that rest from the end.
-/

namespace SqlSnippet

/-- Why a reader could not go on, and the text that was left there. -/
structure Stuck (κ : Type) where
  cause : κ
  rest : Text

/-- What a reader gives: a value and the rest of the text, or where it got stuck. -/
abbrev Reading (κ α : Type) := Except (Stuck κ) (α × Text)

/-- Get stuck. -/
def stuck {κ α : Type} (cause : κ) (rest : Text) : Except (Stuck κ) α :=
  .error ⟨cause, rest⟩

/-- The offset of the place in `s` where a reader got stuck. -/
def Stuck.offset {κ : Type} (e : Stuck κ) (s : Text) : Nat :=
  s.length - e.rest.length

/-- The value of a hexadecimal digit, in either case. -/
def hexValue? (c : Char) : Option Nat :=
  if c.isDigit then some (c.toNat - 48)
  else if 'a' ≤ c ∧ c ≤ 'f' then some (c.toNat - 87)
  else if 'A' ≤ c ∧ c ≤ 'F' then some (c.toNat - 55)
  else none

/-- The number that a list of hexadecimal digits writes. -/
def readHex? (s : Text) : Option Nat :=
  s.foldlM (fun n c => (hexValue? c).map (n * 16 + ·)) 0

end SqlSnippet
