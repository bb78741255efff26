/-!
# Binary floating point

A number of 64-bit binary floating point is not a number, infinite, or a mantissa below 2 ^ 53
times a power of two. `ofDecimal` gives the number nearest to a decimal, and of two that are
equally near the one with an even mantissa; `literal` writes the shortest decimal that reads back
as the number.
-/

namespace SqlSnippet

/-- A number of 64-bit binary floating point; a finite one is `mantissa * 2 ^ exponent`. -/
inductive Binary64 where
  | nan
  | infinite (negative : Bool)
  | finite (negative : Bool) (mantissa : Nat) (exponent : Int)
  deriving DecidableEq, Repr

namespace Binary64

/-- What every mantissa is below. -/
def mantissaBound : Nat := Nat.pow 2 53

/-- The least exponent. -/
def minExponent : Int := -1074

/-- The greatest exponent. -/
def maxExponent : Int := 971

/-- How many decimal digits a number has; zero has one. -/
def digitCount (n : Nat) : Nat :=
  (Nat.toDigits 10 n).length

/-- A power of two as a fraction. -/
def scale (base : Nat) (e : Int) : Nat × Nat :=
  if e < 0 then (1, base.pow (-e).toNat) else (base.pow e.toNat, 1)

/-- Divide and round to the nearest whole number, a half to the even one. -/
def roundDiv (num den : Nat) : Nat :=
  let q := num / den
  let r := num % den
  if 2 * r < den then q else if den < 2 * r then q + 1 else q + q % 2

/-- The nearest number to the fraction `num / den`. A mantissa of 53 bits is tried first, and the
grid is coarser by one bit if it takes more. -/
def ofFraction (negative : Bool) (num den : Nat) : Binary64 :=
  let guess : Int := max ((num.log2 : Int) - den.log2 - 53) minExponent
  let (up, down) := scale 2 guess
  let e := if mantissaBound ≤ num * down / (den * up) then guess + 1 else guess
  let (up, down) := scale 2 e
  let m := roundDiv (num * down) (den * up)
  let (m, e) := if m = mantissaBound then (mantissaBound / 2, e + 1) else (m, e)
  if maxExponent < e then .infinite negative else .finite negative m e

/-- The nearest number to `digits * 10 ^ exponent`. -/
def ofDecimal (negative : Bool) (digits : Nat) (exponent : Int) : Binary64 :=
  let size : Int := digitCount digits + exponent
  if digits = 0 ∨ size < -330 then .finite negative 0 minExponent
  else if 310 < size then .infinite negative
  else
    let (up, down) := scale 10 exponent
    ofFraction negative (digits * up) down

/-- Whether the number is zero, of either sign. -/
def isZero : Binary64 → Bool
  | .finite _ m _ => m == 0
  | _ => false

/-- The whole part of a finite number. -/
def truncate? : Binary64 → Option Int
  | .finite negative m e =>
    let (up, down) := scale 2 e
    let n : Int := (m * up / down : Nat)
    some (if negative then -n else n)
  | _ => none

/-! ## Shortest decimals -/

/-- The place of the leading digit of a fraction: it lies between this power of ten and the
next. -/
def leadingPlace (num den : Nat) : Int :=
  if den ≤ num then (digitCount (num / den) : Int) - 1
  else -(digitCount ((den + num - 1) / num - 1) : Int)

/-- The shortest decimal that reads back as a positive number `m * 2 ^ e`, as digits and a power
of ten. Grids of one, two, … seventeen digits are tried; on each only the two neighbours of the
number can read back, and the nearer of them is taken, of two equally near ones the even. -/
def shortest (m : Nat) (e : Int) : Nat × Int :=
  let (up, down) := scale 2 (e - 2)
  let num := 4 * m * up
  let hi := (4 * m + 2) * up
  let lo := (4 * m - (if m = mantissaBound / 2 ∧ minExponent < e then 1 else 2)) * up
  let closed := m % 2 == 0
  let place := leadingPlace num down
  let attempt? (n : Nat) : Option (Nat × Int) :=
    let k := place - n + 1
    let (unit, part) := scale 10 k
    let value := num * part
    let step := unit * down
    let d := value / step
    let reads (c : Nat) : Bool :=
      let x := c * step
      if closed then lo * part ≤ x && x ≤ hi * part else lo * part < x && x < hi * part
    let below := reads d
    let above := reads (d + 1)
    if below && above then
      let r := 2 * (value % step)
      some (if r < step then d else if step < r then d + 1 else d + d % 2, k)
    else if below then some (d, k)
    else if above then some (d + 1, k)
    else none
  ((List.range 17).findSome? fun n => attempt? (n + 1)).getD (0, 0)

/-- Digits without the zeros they end with. -/
def stripZeros (ds : List Char) : List Char :=
  (ds.reverse.dropWhile (· == '0')).reverse

/-- Write an exponent: a sign and at least two digits. -/
def exponentText (x : Int) : List Char :=
  let ds := Nat.toDigits 10 x.natAbs
  (if x < 0 then '-' else '+') :: (if ds.length < 2 then '0' :: ds else ds)

/-- Write digits whose first one stands at a power of ten: positionally, with at least one digit
after the point, from 10 ^ -4 to below 10 ^ 16, and else with an exponent. -/
def positioned (ds : List Char) (place : Int) : List Char :=
  if place < -4 ∨ 16 ≤ place then
    let fraction := ds.drop 1
    ds.take 1 ++ (if fraction.isEmpty then [] else '.' :: fraction) ++ 'e' :: exponentText place
  else if place < 0 then
    '0' :: '.' :: List.replicate (-place - 1).toNat '0' ++ ds
  else
    let whole := place.toNat + 1
    let fraction := ds.drop whole
    (ds ++ List.replicate (whole - ds.length) '0').take whole ++
      '.' :: (if fraction.isEmpty then ['0'] else fraction)

/-- The shortest decimal that reads back as the number. -/
def literal : Binary64 → List Char
  | .nan => "nan".toList
  | .infinite negative => (if negative then "-inf" else "inf").toList
  | .finite negative m e =>
    let sign : List Char := if negative then ['-'] else []
    if m = 0 then sign ++ "0.0".toList
    else
      let (d, k) := shortest m e
      let ds := Nat.toDigits 10 d
      sign ++ positioned (stripZeros ds) (k + ds.length - 1)

end Binary64

end SqlSnippet
