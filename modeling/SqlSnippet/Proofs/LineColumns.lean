import Mathlib.Algebra.GroupWithZero.Nat
import Mathlib.Data.List.TakeWhile
import Mathlib.Data.Prod.Lex
import SqlSnippet.Source.Position
import SqlSnippet.Text.Parts

/-!
# Lines and columns of offsets

The line of an offset is the number of line feeds before it, and its column is how far it lies
behind the last of them, or behind the start of the text (`lineColumn_of_le`). A line starts after
the lines before it and the line feeds that end them (`Text.lineStart`), so an offset is found
again from its line and its column (`isLineColumn_lineBefore`). Hence positions are ordered as
offsets are (`lineColumn_determines_offset`) : on one line by the column, which makes up for what
the start of the line leaves, and otherwise by the line.
-/

namespace SqlSnippet

variable {s : Text} {n : Nat}

/-! ## The last line -/

theorem lineFeed_not_mem_lastLine (s : Text) : '\n' ∉ Text.lastLine s := fun h => by
  have hne := List.mem_takeWhile_imp (List.mem_reverse.1 h)
  exact absurd hne (by decide)

/-- A text is its last line, or that comes after a line feed. -/
theorem lastLine_cases (s : Text) :
    Text.lastLine s = s ∨ ∃ x, s = x ++ '\n' :: Text.lastLine s := by
  have hsplit : s = (s.reverse.dropWhile (· != '\n')).reverse ++ Text.lastLine s := by
    rw [Text.lastLine, ← List.reverse_append, List.takeWhile_append_dropWhile, List.reverse_reverse]
  cases hrest : s.reverse.dropWhile (· != '\n') with
  | nil =>
    rw [hrest] at hsplit
    exact Or.inl hsplit.symm
  | cons c r =>
    have hc := List.head?_dropWhile_not (· != '\n') s.reverse
    rw [hrest, List.head?_cons] at hc
    obtain rfl : c = '\n' := by simpa using hc
    rw [hrest, List.reverse_cons, List.append_assoc, List.singleton_append] at hsplit
    exact Or.inr ⟨r.reverse, hsplit⟩

/-! ## Positions -/

/-- The text before an offset on the line of the offset, where only line feeds end lines. -/
def Text.lineBefore (s : Text) (n : Nat) : Text :=
  Text.lastLine (s.take n)

theorem lineColumn_of_le (h : n ≤ s.length) : lineColumn s n =
    ((s.take n).count '\n', ((Text.lineBefore s n).length : Int)) := by
  have hle : (Text.lineBefore s n).length ≤ n := by
    rw [Text.lineBefore, Text.lastLine, List.length_reverse]
    refine (List.takeWhile_prefix _).length_le.trans ?_
    rw [List.length_reverse, List.length_take]
    exact Nat.min_le_left _ _
  rw [lineColumn, Text.before_natCast, List.length_take, Nat.min_eq_left h, Prod.mk.injEq]
  exact ⟨rfl, by rw [← Text.lineBefore]; omega⟩

/-! ## Starts of lines -/

/-- The offset at which a line starts : the lines before it, which are parts of the text between
its line feeds, come before, each with the line feed that ends it. -/
def Text.lineStart (s : Text) (line : Nat) : Nat :=
  (((Text.parts '\n' s).take line).map fun l => l.length + 1).sum

/-- The parts of a text make up the text, with a mark after each but the last. -/
theorem sum_length_parts (mark : Char) (s : Text) :
    ((Text.parts mark s).map fun l => l.length + 1).sum = s.length + 1 := by
  induction s with
  | nil => rfl
  | cons c s ih =>
    rw [Text.parts]
    split
    · rw [List.map_cons, List.sum_cons, ih, List.length_nil, List.length_cons]
      omega
    · cases hp : Text.parts mark s with
      | nil => exact absurd hp (Text.parts_ne_nil mark s)
      | cons p ps =>
        rw [hp, List.map_cons, List.sum_cons] at ih
        rw [List.map_cons, List.sum_cons, List.length_cons, List.length_cons]
        omega

/-- The line after a line feed starts right after it. -/
theorem lineStart_append (x y : Text) :
    Text.lineStart (x ++ '\n' :: y) (x.count '\n' + 1) = x.length + 1 := by
  rw [Text.lineStart, Text.parts_append, ← Text.length_parts, List.take_left, sum_length_parts]

/-- The offset `n` of a text is on the line `l` in the column `c` : as many line feeds come before
it as the line says, it lies as many characters behind a line feed or the start of the text as the
column says, with no line feed between, and so many behind the start of that line of the text. -/
structure IsLineColumn (s : Text) (n l c : Nat) : Prop where
  line : l = (s.take n).count '\n'
  le : c ≤ n
  sameLine : '\n' ∉ (s.take n).drop (n - c)
  starts : c = n ∨ s[n - c - 1]? = some '\n'
  lt : l < (Text.parts '\n' s).length
  offset : Text.lineStart s l + c = n

theorem isLineColumn_lineBefore (h : n ≤ s.length) :
    IsLineColumn s n ((s.take n).count '\n') (Text.lineBefore s n).length := by
  have hlt : (s.take n).count '\n' < (Text.parts '\n' s).length := by
    rw [Text.length_parts]
    exact Nat.lt_succ_of_le ((List.take_sublist n s).count_le '\n')
  have hlength : (s.take n).length = n := List.length_take_of_le h
  rcases lastLine_cases (s.take n) with hline | ⟨x, hx⟩
  · -- the offset is on the first line
    have hno : '\n' ∉ s.take n := hline ▸ lineFeed_not_mem_lastLine (s.take n)
    have hcolumn : (Text.lineBefore s n).length = n := by rw [Text.lineBefore, hline, hlength]
    refine ⟨rfl, hcolumn.le, fun hmem => hno (List.mem_of_mem_drop hmem), Or.inl hcolumn, hlt, ?_⟩
    rw [List.count_eq_zero_of_not_mem hno, hcolumn, Text.lineStart, List.take_zero]
    exact Nat.zero_add n
  · -- a line feed comes before the line of the offset
    rw [← Text.lineBefore] at hx
    have hno : '\n' ∉ Text.lineBefore s n := lineFeed_not_mem_lastLine (s.take n)
    have hn : n = x.length + 1 + (Text.lineBefore s n).length := by
      conv_lhs => rw [← hlength, hx, List.length_append, List.length_cons]
      omega
    have hstart : n - (Text.lineBefore s n).length = x.length + 1 := by omega
    have hcount : (s.take n).count '\n' = x.count '\n' + 1 := by
      rw [hx, List.count_append, List.count_cons_self, List.count_eq_zero_of_not_mem hno]
    have hs : s = x ++ '\n' :: (Text.lineBefore s n ++ s.drop n) := by
      conv_lhs => rw [← List.take_append_drop n s, hx, List.append_assoc, List.cons_append]
    refine ⟨rfl, by omega, ?_, Or.inr ?_, hlt, ?_⟩
    · rw [hstart, hx, List.append_cons, List.drop_left' (by simp)]
      exact hno
    · rw [hstart, Nat.add_sub_cancel, hs, List.getElem?_append_right (Nat.le_refl _), Nat.sub_self]
      rfl
    · have hline : Text.lineStart s (x.count '\n' + 1) = x.length + 1 := by
        rw [hs, lineStart_append]
      rw [hcount, hline]
      exact hn.symm

/-- Positions follow one another strictly as their offsets do. -/
theorem IsLineColumn.lt_of_lt {m n k l b c : Nat} (hm : IsLineColumn s m k b)
    (hn : IsLineColumn s n l c) (h : m < n) : k < l ∨ k = l ∧ b < c := by
  have hle : k ≤ l := by
    rw [hm.line, hn.line]
    exact (List.take_sublist_take_left h.le).count_le '\n'
  rcases hle.lt_or_eq with hlt | rfl
  · exact Or.inl hlt
  · have hfirst := hm.offset
    have hsecond := hn.offset
    exact Or.inr ⟨rfl, by omega⟩

/-- Line and column settle the offset : they count the line feeds before it and the characters since
the last of these, the start of the line and the column add up to it, and a greater offset has a
greater position. -/
theorem lineColumn_determines_offset (s : Text) :
    (∀ n ≤ s.length, ∃ l c : Nat, lineColumn s n = (l, (c : Int)) ∧ IsLineColumn s n l c) ∧
    ∀ m n : Nat, m < n → n ≤ s.length → toLex (lineColumn s m) < toLex (lineColumn s n) := by
  refine ⟨fun n hn => ⟨_, _, lineColumn_of_le hn, isLineColumn_lineBefore hn⟩, fun m n h hn => ?_⟩
  have hm : m ≤ s.length := h.le.trans hn
  rw [lineColumn_of_le hm, lineColumn_of_le hn, Prod.Lex.toLex_lt_toLex, Int.ofNat_lt]
  exact (isLineColumn_lineBefore hm).lt_of_lt (isLineColumn_lineBefore hn) h

end SqlSnippet
