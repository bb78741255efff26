import SqlSnippet.Layout.Clause

/-!
# Case and white space

Changing the case of a character makes no white space and removes none. So the upper-case form
of a word without white space has none (`isBlank_of_mem_upper`), and no character of such a word
matches white space regardless of case (`isBlank_of_sameFold`).

The case tables move code points by runs. That no run moves one onto white space is settled by
looking at the ends of each run (`AvoidsBlanks`), not at every code point.
-/

namespace SqlSnippet

/-! ## White space as a list -/

/-- First and last code point of each range of white space. -/
def blankRanges : RangeTable :=
  [(9, 13), (28, 32), (0x85, 0x85), (0xA0, 0xA0), (0x1680, 0x1680), (0x2000, 0x200A),
   (0x2028, 0x2029), (0x202F, 0x202F), (0x205F, 0x205F), (0x3000, 0x3000)]

/-- The code points of white space. -/
def blankCodes : List Nat :=
  blankRanges.flatMap fun r => List.range' r.1 (r.2 + 1 - r.1)

theorem mem_blankCodes_iff {n : Nat} :
    n ∈ blankCodes ↔ ∃ r ∈ blankRanges, r.1 ≤ n ∧ n ≤ r.2 := by
  unfold blankCodes
  simp only [List.mem_flatMap, List.mem_range'_1]
  refine exists_congr fun r => and_congr_right fun _ => ?_
  omega

theorem isBlank_iff_mem_blankCodes {c : Char} : isBlank c = true ↔ c.toNat ∈ blankCodes := by
  rw [mem_blankCodes_iff]
  simp only [isBlank, blankRanges, Bool.or_eq_true, Bool.and_eq_true, decide_eq_true_eq,
    beq_iff_eq, List.mem_cons, exists_eq_or_imp, List.not_mem_nil, or_false, exists_eq_left]
  omega

/-- A number that is no code point makes the character of code point zero. -/
theorem toNat_ofNat_of_ne_zero {n : Nat} (h : (Char.ofNat n).toNat ≠ 0) :
    (Char.ofNat n).toNat = n := by
  by_cases hvalid : n.isValidChar
  · have hchar : Char.ofNat n = Char.ofNatAux n hvalid := dif_pos hvalid
    rw [hchar]
    rfl
  · have hchar : Char.ofNat n = '\u0000' := dif_neg hvalid
    rw [hchar] at h
    exact absurd rfl h

theorem mem_blankCodes_of_isBlank_ofNat {n : Nat} (h : isBlank (Char.ofNat n) = true) :
    n ∈ blankCodes := by
  have hmem := isBlank_iff_mem_blankCodes.1 h
  have hne : (Char.ofNat n).toNat ≠ 0 := fun hzero => absurd (hzero ▸ hmem) (by decide)
  rwa [toNat_ofNat_of_ne_zero hne] at hmem

/-! ## Runs -/

/-- No code point between the ends of a run is moved onto white space. -/
def AvoidsBlanks (runs : List CaseRun) : Prop :=
  ∀ r ∈ runs, ∀ b ∈ blankRanges,
    ¬((r.first : Int) + r.shift ≤ b.2 ∧ (b.1 : Int) ≤ r.last + r.shift)

theorem avoidsBlanks_runs : AvoidsBlanks (upperRuns ++ lowerRuns) := by
  unfold AvoidsBlanks
  decide +kernel

theorem avoidsBlanks_upperRuns : AvoidsBlanks upperRuns :=
  fun r hr => avoidsBlanks_runs r (List.mem_append_left lowerRuns hr)

theorem avoidsBlanks_lowerRuns : AvoidsBlanks lowerRuns :=
  fun r hr => avoidsBlanks_runs r (List.mem_append_right upperRuns hr)

/-- A code point stays where it is or is moved by a run around it. -/
theorem shiftCase_cases (runs : List CaseRun) (n : Nat) : shiftCase runs n = n ∨
    ∃ r ∈ runs, r.first ≤ n ∧ n ≤ r.last ∧ shiftCase runs n = (n + r.shift).toNat := by
  unfold shiftCase
  split
  · next r hr =>
    have hcovers := List.find?_some hr
    simp only [CaseRun.covers, Bool.and_eq_true, decide_eq_true_eq] at hcovers
    exact Or.inr ⟨r, List.mem_of_find?_eq_some hr, hcovers.1.1, hcovers.1.2, rfl⟩
  · exact Or.inl rfl

theorem mem_blankCodes_of_shiftCase {runs : List CaseRun} (hruns : AvoidsBlanks runs) {n : Nat}
    (h : shiftCase runs n ∈ blankCodes) : n ∈ blankCodes := by
  rcases shiftCase_cases runs n with heq | ⟨r, hr, hfirst, hlast, heq⟩
  · rwa [heq] at h
  · obtain ⟨b, hb, hlo, hhi⟩ := mem_blankCodes_iff.1 h
    have hshift := hruns r hr b hb
    have hpos : 0 < b.1 := by
      have hall : ∀ b ∈ blankRanges, 0 < b.1 := by decide
      exact hall b hb
    omega

theorem shiftCase_lowerRuns_of_mem {n : Nat} (h : n ∈ blankCodes) :
    shiftCase lowerRuns n = n := by
  have hall : ∀ b ∈ blankCodes, shiftCase lowerRuns b = b := by decide +kernel
  exact hall n h

/-! ## Characters -/

/-- A property of the characters of ASCII is checked code point by code point. -/
theorem forall_ascii {P : Char → Prop} (h : ∀ n < 128, P (Char.ofNat n)) {c : Char}
    (hc : c.toNat < 128) : P c := by
  have hP := h c.toNat hc
  rwa [Char.ofNat_toNat] at hP

/-- The case of a character of ASCII has nothing to do with white space. -/
theorem isBlank_case_ascii {c : Char} (hc : c.toNat < 128) :
    (isBlank c.toUpper = isBlank c ∧ isBlank c.toLower = isBlank c) ∧
      (isBlank c = true → c.toLower = c) :=
  forall_ascii (P := fun c => (isBlank c.toUpper = isBlank c ∧ isBlank c.toLower = isBlank c) ∧
    (isBlank c = true → c.toLower = c)) (by decide +kernel) hc

theorem isBlank_toUpper {c : Char} (hc : c.toNat < 128) : isBlank c.toUpper = isBlank c :=
  (isBlank_case_ascii hc).1.1

theorem isBlank_toLower {c : Char} (hc : c.toNat < 128) : isBlank c.toLower = isBlank c :=
  (isBlank_case_ascii hc).1.2

theorem toLower_of_isBlank {c : Char} (hc : c.toNat < 128) (h : isBlank c = true) :
    c.toLower = c :=
  (isBlank_case_ascii hc).2 h

/-- A form of several characters is not empty, and holds no white space. -/
theorem ne_nil_and_not_mem_blankCodes_of_mem_upperExpansions :
    ∀ p ∈ upperExpansions, p.2 ≠ [] ∧ ∀ n ∈ p.2, n ∉ blankCodes := by
  decide +kernel

theorem isBlank_of_mem_upperChar {c d : Char} (hd : d ∈ upperChar c) (h : isBlank d = true) :
    isBlank c = true := by
  unfold upperChar at hd
  split at hd
  · next hc =>
    rw [List.mem_singleton.1 hd, isBlank_toUpper hc] at h
    exact h
  · split at hd
    · next ns hns =>
      -- a form of several characters is listed, and no list holds white space
      obtain ⟨n, hn, rfl⟩ := List.mem_map.1 hd
      obtain ⟨l₁, l₂, heq, -⟩ := List.lookup_eq_some_iff.1 hns
      have hmem : (c.toNat, ns) ∈ upperExpansions := by
        rw [heq]
        simp
      exact absurd (mem_blankCodes_of_isBlank_ofNat h)
        ((ne_nil_and_not_mem_blankCodes_of_mem_upperExpansions _ hmem).2 n hn)
    · rw [List.mem_singleton.1 hd] at h
      exact isBlank_iff_mem_blankCodes.2
        (mem_blankCodes_of_shiftCase avoidsBlanks_upperRuns (mem_blankCodes_of_isBlank_ofNat h))

/-- The upper-case form of a text holds white space only where the text does. -/
theorem isBlank_of_mem_upper {s : Text} (hs : ∀ c ∈ s, isBlank c = false) :
    ∀ d ∈ s.upper, isBlank d = false := by
  intro d hd
  obtain ⟨c, hc, hd⟩ := List.mem_flatMap.1 hd
  refine Bool.eq_false_iff.2 fun h => ?_
  exact Bool.false_ne_true ((hs c hc).symm.trans (isBlank_of_mem_upperChar hd h))

theorem upperChar_ne_nil (c : Char) : upperChar c ≠ [] := by
  unfold upperChar
  split
  · exact List.cons_ne_nil _ _
  · split
    · next ns hns =>
      obtain ⟨l₁, l₂, heq, -⟩ := List.lookup_eq_some_iff.1 hns
      have hmem : (c.toNat, ns) ∈ upperExpansions := by
        rw [heq]
        simp
      exact mt List.map_eq_nil_iff.1
        (ne_nil_and_not_mem_blankCodes_of_mem_upperExpansions _ hmem).1
    · exact List.cons_ne_nil _ _

/-- The upper-case form of a text starts with white space only where the text does. -/
theorem isBlank_head?_upper {s : Text} (hs : ∀ c ∈ s.head?, isBlank c = false) :
    ∀ e ∈ (Text.upper s).head?, isBlank e = false := by
  intro e he
  cases s with
  | nil => cases he
  | cons c s =>
    have hstart := List.head?_eq_some_head (upperChar_ne_nil c)
    rw [Text.upper_cons, List.head?_append, hstart, Option.some_or] at he
    obtain rfl := Option.some.inj he
    refine Bool.eq_false_iff.2 fun h => ?_
    exact Bool.false_ne_true
      ((hs c rfl).symm.trans (isBlank_of_mem_upperChar (List.head_mem _) h))

/-- The upper-case form of a text ends with white space only where the text does. -/
theorem isBlank_getLast?_upper {s : Text} (hs : ∀ c ∈ s.getLast?, isBlank c = false) :
    ∀ e ∈ (Text.upper s).getLast?, isBlank e = false := by
  intro e he
  cases hlast : s.getLast? with
  | none =>
    rw [List.getLast?_eq_none_iff.1 hlast] at he
    cases he
  | some c =>
    have hc : isBlank c = false := hs c hlast
    obtain ⟨s, rfl⟩ := List.getLast?_eq_some_iff.1 hlast
    have hupper : Text.upper (s ++ [c]) = Text.upper s ++ upperChar c := by
      rw [Text.upper_append, Text.upper_cons, Text.upper_nil, List.append_nil]
    have hend := List.getLast?_eq_some_getLast (upperChar_ne_nil c)
    rw [hupper, List.getLast?_append, hend, Option.some_or] at he
    obtain rfl := Option.some.inj he
    refine Bool.eq_false_iff.2 fun h => ?_
    exact Bool.false_ne_true (hc.symm.trans (isBlank_of_mem_upperChar (List.getLast_mem _) h))

theorem isBlank_of_isBlank_lowerChar {c : Char} (h : isBlank (lowerChar c) = true) :
    isBlank c = true := by
  unfold lowerChar at h
  split at h
  · next hc => rwa [isBlank_toLower hc] at h
  · exact isBlank_iff_mem_blankCodes.2
      (mem_blankCodes_of_shiftCase avoidsBlanks_lowerRuns (mem_blankCodes_of_isBlank_ofNat h))

/-- White space has no other case. -/
theorem lowerChar_of_isBlank {c : Char} (h : isBlank c = true) : lowerChar c = c := by
  unfold lowerChar
  split
  · next hc => exact toLower_of_isBlank hc h
  · rw [shiftCase_lowerRuns_of_mem (isBlank_iff_mem_blankCodes.1 h), Char.ofNat_toNat]

/-- White space is no part of words. -/
theorem isWordChar_of_isBlank {c : Char} (h : isBlank c = true) : isWordChar c = false := by
  have hall : ∀ n ∈ blankCodes, isWordChar (Char.ofNat n) = false := by decide +kernel
  have hc := hall c.toNat (isBlank_iff_mem_blankCodes.1 h)
  rwa [Char.ofNat_toNat] at hc

theorem not_isBlank_of_isIdentChar {c : Char} (h : isIdentChar c = true) : isBlank c = false := by
  refine Bool.eq_false_iff.2 fun hc => ?_
  have hword := isWordChar_of_isIdentChar h
  rw [isWordChar_of_isBlank hc] at hword
  cases hword

/-! ## Matching -/

/-- Only white space matches white space regardless of case. -/
theorem isBlank_of_sameFold {p c : Char} (h : sameFold p c = true) (hc : isBlank c = true) :
    isBlank p = true := by
  simp only [sameFold, lowerChar_of_isBlank hc, Bool.or_eq_true, beq_iff_eq] at h
  rcases h with h | h
  · exact isBlank_of_isBlank_lowerChar (h ▸ hc)
  · have hall : ∀ q ∈ foldRelatives, ∀ n ∈ q.2, n ∉ blankCodes := by decide +kernel
    cases hl : foldRelatives.lookup (lowerChar p).toNat with
    | none => rw [hl] at h; cases h
    | some ns =>
      rw [hl, Option.getD_some, List.contains_iff_mem] at h
      obtain ⟨l₁, l₂, heq, -⟩ := List.lookup_eq_some_iff.1 hl
      have hmem : ((lowerChar p).toNat, ns) ∈ foldRelatives := by
        rw [heq]
        simp
      exact absurd (isBlank_iff_mem_blankCodes.1 hc) (hall _ hmem _ h)

theorem isBlank_of_sameInSet {p c : Char} (h : sameInSet p c = true) (hc : isBlank c = true) :
    isBlank p = true := by
  unfold sameInSet at h
  split at h
  · exact isBlank_of_sameFold h hc
  · rw [lowerChar_of_isBlank hc, beq_iff_eq] at h
    exact h ▸ hc

end SqlSnippet
