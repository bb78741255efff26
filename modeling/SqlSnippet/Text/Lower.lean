import SqlSnippet.Text.Blank
import SqlSnippet.Text.CaseTable
import SqlSnippet.Text.SigmaContext

/-!
# Lower case

The lower-case form of a single character, which text comparison uses, and the full lower-case
form of a text. The two differ in two places: a capital I with a dot is written as an i and a
combining dot, and a capital sigma takes its final form at the end of a word.
-/

namespace SqlSnippet

/-- The one-character lower-case form of a character, by Unicode 14. -/
def lowerChar (c : Char) : Char :=
  if c.toNat < 128 then c.toLower else Char.ofNat (shiftCase lowerRuns c.toNat)

/-- Whether the nearest character that decides about a sigma is a cased letter. -/
def nextIsCased (s : Text) : Bool :=
  match s.dropWhile isCaseIgnorable with
  | [] => false
  | c :: _ => isCased c

/-- The lower-case form of a text whose characters before it are `before`, nearest first. -/
def lowerAfter (before : Text) : Text → Text
  | [] => []
  | c :: r =>
    let low : Text :=
      if c == 'Σ' then (if nextIsCased before && !nextIsCased r then ['ς'] else ['σ'])
      else if c == 'İ' then ['i', '\u0307']
      else [lowerChar c]
    low ++ lowerAfter (c :: before) r

/-- The lower-case form of a text. -/
def Text.lower (s : Text) : Text :=
  lowerAfter [] s

end SqlSnippet
