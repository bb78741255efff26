import SqlSnippet.Source.Words
import SqlSnippet.Text.Fold
import SqlSnippet.Text.WordChar

/-!
# Clause words

A clause word starts a line. In code it is found after white space, in any case, and where it ends
a word: a word character must meet one that is not, or the other way round. Where several clause
words match, the longest counts. Where the words differ from each other in nothing but their last
character, that one is looked up in a set, which knows characters beyond the basic plane in their
lower-case form only. The white space before a clause word becomes a line break, unless the word
is a function of that name being called.
-/

namespace SqlSnippet

/-- The clause words in the order in which they are tried, how the last character of a word is
compared with one of a text, and those words that keep their place when called. -/
structure Clauses where
  words : List Text
  sameLast : Char → Char → Bool
  callWords : WordSet

/-- Whether there are several words, which agree in all but the last character. -/
def differInLast : List Text → Bool
  | v :: w :: ws =>
    (w :: ws).all fun u => u.length == v.length && u.dropLast == v.dropLast
  | _ => false

/-- Whether `c` matches the character `p` of a set regardless of case: beyond the basic plane, `p`
is matched by the characters that have it for their lower-case form. -/
def sameInSet (p c : Char) : Bool :=
  if p.toNat < 0x10000 then sameFold p c else lowerChar c == p

/-- The clause words of a list: the longest is tried first. -/
def Clauses.ofWords (ws : List Text) : Clauses :=
  let set := WordSet.ofWords ws
  ⟨set.mergeSort fun v w => w.length ≤ v.length,
    if differInLast set then sameInSet else sameFold,
    set.filter (· ∈ WordSet.ofWords builtinFunctions)⟩

/-- Whether a text starts with a pattern regardless of case, where `sameLast` compares the last
character of the pattern. -/
def startsWithFold (sameLast : Char → Char → Bool) : Text → Text → Bool
  | [], _ => true
  | _ :: _, [] => false
  | [p], c :: _ => sameLast p c
  | p :: ps, c :: cs => sameFold p c && startsWithFold sameLast ps cs

/-- Whether a word character meets another character at an offset above zero; the end of the text
counts as another character. -/
def isBoundary (s : Text) (n : Nat) : Bool :=
  s[n - 1]?.any isWordChar != s[n]?.any isWordChar

/-- The length of the clause word that a text starts with. -/
def Clauses.lengthAt? (k : Clauses) (s : Text) : Option Nat :=
  (k.words.find? fun w => startsWithFold k.sameLast w s && isBoundary s w.length).map List.length

/-- What stands before a clause word after layout: a line break, or the white space as it was if
the word is called as a function. -/
def Clauses.gap (k : Clauses) (blanks word rest : Text) : Text :=
  if rest.head? = some '(' ∧ word.upper ∈ k.callWords then blanks else ['\n']

/-- Put every clause word that follows white space on a new line. -/
def Clauses.breakLines (k : Clauses) (s : Text) : Text :=
  match s with
  | [] => []
  | c :: r =>
    if isBlank c then
      let blanks := c :: r.takeWhile isBlank
      let rest := r.dropWhile isBlank
      match k.lengthAt? rest with
      | some n =>
        k.gap blanks (rest.take n) (rest.drop n) ++ rest.take n ++ k.breakLines (rest.drop n)
      | none => blanks ++ k.breakLines rest
    else c :: k.breakLines r
termination_by s.length
decreasing_by
  · simp only [List.length_drop, List.length_cons]
    have := (List.dropWhile_suffix (l := r) isBlank).length_le
    omega
  · exact Nat.lt_succ_of_le (List.dropWhile_suffix _).length_le
  · exact Nat.lt_succ_self _

end SqlSnippet
