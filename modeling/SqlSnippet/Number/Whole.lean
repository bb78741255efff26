import SqlSnippet.Text.Blank

/-!
# Whole numbers

How a whole number is written in decimal: white space around it, a sign, and digits of any script,
with single underscores between them. The four information separators are no white space here. A
number of more than 4300 digits is refused.
-/

namespace SqlSnippet

/-- The code points of the digit zero of each script, by Unicode 14; the other nine digits
follow each of them. -/
def digitZeros : List Nat :=
  [0x30, 0x660, 0x6F0, 0x7C0, 0x966, 0x9E6, 0xA66, 0xAE6, 0xB66, 0xBE6, 0xC66, 0xCE6, 0xD66, 0xDE6,
   0xE50, 0xED0, 0xF20, 0x1040, 0x1090, 0x17E0, 0x1810, 0x1946, 0x19D0, 0x1A80, 0x1A90, 0x1B50,
   0x1BB0, 0x1C40, 0x1C50, 0xA620, 0xA8D0, 0xA900, 0xA9D0, 0xA9F0, 0xAA50, 0xABF0, 0xFF10, 0x104A0,
   0x10D30, 0x11066, 0x110F0, 0x11136, 0x111D0, 0x112F0, 0x11450, 0x114D0, 0x11650, 0x116C0,
   0x11730, 0x118E0, 0x11950, 0x11C50, 0x11D50, 0x11DA0, 0x16A60, 0x16AC0, 0x16B50, 0x1D7CE,
   0x1D7D8, 0x1D7E2, 0x1D7EC, 0x1D7F6, 0x1E140, 0x1E2F0, 0x1E950, 0x1FBF0]

/-- The value of a decimal digit. -/
def digitValue? (c : Char) : Option Nat :=
  (digitZeros.find? fun z => z ≤ c.toNat && c.toNat < z + 10).map (c.toNat - ·)

/-- White space that may stand around a number. -/
def isNumberBlank (c : Char) : Bool :=
  isBlank c && !(28 ≤ c.toNat && c.toNat ≤ 31)

/-- The most digits that a number may have. -/
def maxDigits : Nat := 4300

/-- The values of digits with single underscores between them. -/
def digitValues? : Text → Option (List Nat)
  | [] => none
  | [c] => (digitValue? c).map ([·])
  | c :: '_' :: r => do return (← digitValue? c) :: (← digitValues? r)
  | c :: r => do return (← digitValue? c) :: (← digitValues? r)

/-- The number that a list of digits writes. -/
def ofDigits (base : Nat) (ds : List Nat) : Nat :=
  ds.foldl (fun n d => n * base + d) 0

/-- Read a whole number. -/
def readWhole? (s : Text) : Option Int :=
  let body := ((s.dropWhile isNumberBlank).reverse.dropWhile isNumberBlank).reverse
  let (negative, digits) : Bool × Text := match body with
    | '-' :: r => (true, r)
    | '+' :: r => (false, r)
    | r => (false, r)
  match digitValues? digits with
  | none => none
  | some ds =>
    if maxDigits < ds.length then none
    else
      let n : Int := ofDigits 10 ds
      some (if negative then -n else n)

end SqlSnippet
