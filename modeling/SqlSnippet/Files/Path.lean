import SqlSnippet.Text.Lower
import SqlSnippet.Text.Parts
import SqlSnippet.Text.Utf8

/-!
# Paths

A path is a sequence of names, below the root if it starts with a slash. Repeated slashes and
single points between the names mean nothing and are dropped, while two points stay: what they
lead to is known only where the path is followed. Exactly two slashes at the start are kept.
-/

namespace SqlSnippet

/-- A path in normal form. -/
structure Path where
  slashes : Nat
  names : List Text
  deriving DecidableEq, Repr

namespace Path

/-- How many of the slashes at the start of a text are kept. -/
def keptSlashes (s : Text) : Nat :=
  match (s.takeWhile (· == '/')).length with
  | 0 => 0
  | 2 => 2
  | _ => 1

/-- Whether a part between slashes is a name. -/
def isName (part : Text) : Bool :=
  part != [] && part != ['.']

/-- The path that a text writes. -/
def ofText (s : Text) : Path :=
  ⟨keptSlashes s, (Text.parts '/' s).filter isName⟩

/-- A path as text; the path without names that does not start at the root is a point. -/
def toText (p : Path) : Text :=
  if p.slashes = 0 ∧ p.names = [] then ['.']
  else List.replicate p.slashes '/' ++ List.intercalate ['/'] p.names

/-- Whether the path starts at the root. -/
def isAbsolute (p : Path) : Bool :=
  p.slashes != 0

/-- Follow a path from the end of another. -/
def append (p q : Path) : Path :=
  if q.isAbsolute then q else ⟨p.slashes, p.names ++ q.names⟩

/-- The last name of a path. -/
def name (p : Path) : Text :=
  p.names.getLastD []

/-- The last point of the last name and what follows it, unless the point comes first or last. -/
def suffix (p : Path) : Text :=
  let extension := (p.name.reverse.takeWhile (· != '.')).reverse
  if extension.isEmpty ∨ p.name.length ≤ extension.length + 1 then [] else '.' :: extension

/-- Whether a null character stands in the path, which then leads nowhere. -/
def hasNull (p : Path) : Bool :=
  p.names.any ('\x00' ∈ ·)

/-- The most bytes that a path may have. -/
def maxBytes : Nat := 4095

/-- Whether a path has more bytes than one may have. -/
def isTooLong (p : Path) : Bool :=
  maxBytes < (Utf8.encode p.toText).length

/-- Resolve two points by going back one name, as long as there is one. -/
def cancelDots : List Text → List Text → List Text
  | done, [] => done.reverse
  | done, n :: ns => if n = ['.', '.'] then cancelDots done.tail ns else cancelDots (n :: done) ns

/-- The path from the root, where `here` is the place that other paths start from. -/
def resolve (here : List Text) (p : Path) : Path :=
  ⟨1, cancelDots [] (if p.isAbsolute then p.names else here ++ p.names)⟩

end Path

end SqlSnippet
