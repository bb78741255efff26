import Mathlib.Algebra.Group.Nat.Defs
import Mathlib.Data.List.Basic
import SqlSnippet.Proofs.CaseBlank

/-!
# Upper case is settled

The upper-case form of a text is its own upper-case form (`upper_upper`). That is a fact about the
case tables : no code point that stands in an upper-case form has another one itself
(`disjoint_movedCodes_upperCodes`). The two sets of code points, of more than a thousand members
each, are compared as the bits of two numbers (`codeMask`).
-/

namespace SqlSnippet

/-! ## Sets of code points -/

/-- The number whose bits at the places `ns` are set, and no other ones. -/
def codeMask (ns : List Nat) : Nat :=
  ns.foldr (fun n mask => 2 ^ n ||| mask) 0

theorem testBit_codeMask {ns : List Nat} {n : Nat} :
    (codeMask ns).testBit n = true ↔ n ∈ ns := by
  induction ns with
  | nil => simp [codeMask]
  | cons m ns ih =>
    have hmask : codeMask (m :: ns) = 2 ^ m ||| codeMask ns := rfl
    rw [hmask, Nat.testBit_or, Nat.testBit_two_pow, Bool.or_eq_true, ih, decide_eq_true_eq,
      List.mem_cons, eq_comm]

theorem not_mem_of_codeMask_land {ms ns : List Nat} (h : codeMask ms &&& codeMask ns = 0)
    {n : Nat} (hn : n ∈ ns) : n ∉ ms := by
  intro hm
  have hbit : (codeMask ms &&& codeMask ns).testBit n = true := by
    rw [Nat.testBit_and, testBit_codeMask.2 hm, testBit_codeMask.2 hn]
    rfl
  rw [h, Nat.zero_testBit] at hbit
  cases hbit

/-! ## The case tables -/

/-- The code points that a run covers. -/
def CaseRun.codes (r : CaseRun) : List Nat :=
  List.range' r.first ((r.last - r.first) / r.step + 1) r.step

theorem CaseRun.mem_codes {r : CaseRun} {n : Nat} (h : r.covers n = true) : n ∈ r.codes := by
  simp only [covers, Bool.and_eq_true, decide_eq_true_eq, beq_iff_eq] at h
  obtain ⟨⟨hfirst, hlast⟩, hstep⟩ := h
  refine List.mem_range'.2 ⟨(n - r.first) / r.step, ?_, ?_⟩
  · exact Nat.lt_succ_of_le (Nat.div_le_div_right (Nat.sub_le_sub_right hlast r.first))
  · rw [Nat.mul_div_cancel' (Nat.dvd_of_mod_eq_zero hstep), Nat.add_sub_cancel' hfirst]

/-- The code points with another upper-case form : the small letters of ASCII and what the tables
list. -/
def movedCodes : List Nat :=
  List.range' 97 26 ++ upperExpansions.map Prod.fst ++ upperRuns.flatMap CaseRun.codes

/-- The code points of the upper-case forms that the tables give. -/
def upperCodes : List Nat :=
  upperExpansions.flatMap Prod.snd ++
    upperRuns.flatMap fun r => r.codes.map fun n : Nat => ((n : Int) + r.shift).toNat

/-- No upper-case form in the tables has another one. -/
theorem disjoint_movedCodes_upperCodes : codeMask movedCodes &&& codeMask upperCodes = 0 := by
  decide +kernel

/-! ## Characters -/

theorem upperChar_of_not_mem {c : Char} (h : c.toNat ∉ movedCodes) : upperChar c = [c] := by
  simp only [movedCodes, List.mem_append, not_or] at h
  obtain ⟨⟨hascii, hexpansion⟩, hrun⟩ := h
  unfold upperChar
  split
  · next hc =>
    have hupper : ∀ n < 128, n ∉ List.range' 97 26 → (Char.ofNat n).toUpper = Char.ofNat n := by
      decide +kernel
    have hself := hupper c.toNat hc hascii
    rw [Char.ofNat_toNat] at hself
    rw [hself]
  · have hlookup : upperExpansions.lookup c.toNat = none := by
      refine List.lookup_eq_none_iff.2 fun p hp => bne_iff_ne.2 fun heq => hexpansion ?_
      exact List.mem_map.2 ⟨p, hp, heq.symm⟩
    have hfind : upperRuns.find? (·.covers c.toNat) = none := by
      refine List.find?_eq_none.2 fun r hr hcovers => hrun ?_
      exact List.mem_flatMap.2 ⟨r, hr, CaseRun.mem_codes hcovers⟩
    rw [hlookup]
    dsimp only
    rw [shiftCase, hfind]
    dsimp only
    rw [Char.ofNat_toNat]

/-- A character that the tables give as an upper-case form is its own one. -/
theorem upperChar_ofNat_of_mem_upperCodes {n : Nat} (h : n ∈ upperCodes) :
    upperChar (Char.ofNat n) = [Char.ofNat n] := by
  by_cases hzero : (Char.ofNat n).toNat = 0
  · -- a number that is no code point would make the null character
    have hnull : Char.ofNat n = Char.ofNat 0 := by rw [← hzero, Char.ofNat_toNat]
    rw [hnull]
    rfl
  · refine upperChar_of_not_mem ?_
    rw [toNat_ofNat_of_ne_zero hzero]
    exact not_mem_of_codeMask_land disjoint_movedCodes_upperCodes h

/-- A character beyond ASCII is its own upper-case form, or has one from the tables. -/
theorem upperChar_cases {c : Char} (hc : ¬c.toNat < 128) :
    upperChar c = [c] ∨ ∀ d ∈ upperChar c, ∃ n ∈ upperCodes, d = Char.ofNat n := by
  unfold upperChar
  rw [if_neg hc]
  split
  · next ns hns =>
    refine Or.inr fun d hd => ?_
    obtain ⟨n, hn, rfl⟩ := List.mem_map.1 hd
    obtain ⟨l₁, l₂, heq, -⟩ := List.lookup_eq_some_iff.1 hns
    have hmem : (c.toNat, ns) ∈ upperExpansions := by
      rw [heq]
      simp
    exact ⟨n, List.mem_append_left _ (List.mem_flatMap.2 ⟨_, hmem, hn⟩), rfl⟩
  · unfold shiftCase
    split
    · next r hr =>
      refine Or.inr fun d hd => ⟨_, List.mem_append_right _ ?_, List.mem_singleton.1 hd⟩
      have hcovers : r.covers c.toNat = true :=
        List.find?_some (p := fun q : CaseRun => q.covers c.toNat) hr
      have hcodes : c.toNat ∈ r.codes := CaseRun.mem_codes hcovers
      exact List.mem_flatMap.2 ⟨r, List.mem_of_find?_eq_some hr, List.mem_map_of_mem hcodes⟩
    · rw [Char.ofNat_toNat]
      exact Or.inl rfl

/-- The characters of an upper-case form are their own upper-case forms. -/
theorem upperChar_of_mem_upperChar {c d : Char} (h : d ∈ upperChar c) : upperChar d = [d] := by
  by_cases hc : c.toNat < 128
  · have hascii : ∀ n < 128, upperChar (Char.ofNat n).toUpper = [(Char.ofNat n).toUpper] := by
      decide +kernel
    rw [upperChar, if_pos hc, List.mem_singleton] at h
    rw [h]
    exact forall_ascii (P := fun c => upperChar c.toUpper = [c.toUpper]) hascii hc
  · rcases upperChar_cases hc with hself | hcodes
    · rw [hself, List.mem_singleton] at h
      rw [h, hself]
    · obtain ⟨n, hn, rfl⟩ := hcodes d h
      exact upperChar_ofNat_of_mem_upperCodes hn

/-- The upper-case form of a text is its own upper-case form. -/
theorem upper_upper (s : Text) : Text.upper (Text.upper s) = Text.upper s := by
  have hself : ∀ d ∈ Text.upper s, upperChar d = [d] := by
    intro d hd
    obtain ⟨c, -, hd⟩ := List.mem_flatMap.1 hd
    exact upperChar_of_mem_upperChar hd
  rw [Text.upper, List.flatMap_congr hself]
  exact List.flatMap_singleton' _

end SqlSnippet
