import SqlSnippet.Proofs.ClauseBreaks

/-!
# Where a clause word stands

A clause word stands at the start of a text if it matches there regardless of case and ends where
a word ends (`ClauseAt`). Unless it is called as a function it starts a line (`IsBreakWord`).

The formatter looks for the longest clause word in its own order. Where all clause words are made
of identifier characters there is nothing to choose : such a word is matched by word characters
only (`isWordChar_of_sameFold`), so it stands where the longest run of these does, and the
formatter breaks the line exactly before break words (`breaksAt_ofWords_iff`). What stands after
the run counts for no more than an opening bracket (`isBreakWord_append`).
-/

namespace SqlSnippet

/-! ## Characters that match identifier characters -/

/-- The lower-case form of a character of ASCII is one too, and the same can be in words. -/
theorem toLower_ascii {c : Char} (hc : c.toNat < 128) :
    c.toLower.toNat < 128 ∧ isIdentChar c.toLower = isIdentChar c :=
  forall_ascii (P := fun c => c.toLower.toNat < 128 ∧ isIdentChar c.toLower = isIdentChar c)
    (by decide +kernel) hc

theorem isIdentChar_toLower {c : Char} (h : isIdentChar c = true) :
    isIdentChar c.toLower = true :=
  (toLower_ascii (toNat_lt_of_isIdentChar h)).2.trans h

theorem isIdentChar_of_toLower {c : Char} (hc : c.toNat < 128)
    (h : isIdentChar c.toLower = true) : isIdentChar c = true :=
  (toLower_ascii hc).2.symm.trans h

theorem toNat_toLower_lt {c : Char} (hc : c.toNat < 128) : c.toLower.toNat < 128 :=
  (toLower_ascii hc).1

theorem lowerChar_of_isIdentChar {c : Char} (h : isIdentChar c = true) :
    lowerChar c = c.toLower :=
  if_pos (toNat_lt_of_isIdentChar h)

/-- Two characters beyond ASCII have a lower-case form in it, and both are letters. -/
theorem isWordChar_of_shiftCase_lt {n : Nat} (hn : 128 ≤ n) (h : shiftCase lowerRuns n < 128) :
    isWordChar (Char.ofNat n) = true := by
  have hruns : ∀ r ∈ lowerRuns, (r.first : Int) + r.shift < 128 →
      r.first = r.last ∧ isWordChar (Char.ofNat r.first) = true := by decide +kernel
  rcases shiftCase_cases lowerRuns n with heq | ⟨r, hr, hfirst, hlast, heq⟩
  · omega
  · obtain ⟨hone, hword⟩ := hruns r hr (by omega)
    rwa [show n = r.first by omega]

/-- The dotless i and the long s are no lower-case forms of other characters. -/
theorem eq_of_shiftCase {n m : Nat} (hm : m = 0x131 ∨ m = 0x17F)
    (h : shiftCase lowerRuns n = m) : n = m := by
  have hruns : ∀ r ∈ lowerRuns, ∀ m ∈ ([0x131, 0x17F] : List Nat),
      ¬((r.first : Int) + r.shift ≤ m ∧ (m : Int) ≤ r.last + r.shift) := by decide +kernel
  rcases shiftCase_cases lowerRuns n with heq | ⟨r, hr, hfirst, hlast, heq⟩
  · exact heq.symm.trans h
  · have hmem : m ∈ ([0x131, 0x17F] : List Nat) := by simpa using hm
    exact absurd ⟨by omega, by omega⟩ (hruns r hr m hmem)

/-- The lower-case form of a character beyond ASCII, by its code point. -/
theorem toNat_lowerChar {c : Char} (hc : ¬c.toNat < 128) (h : (lowerChar c).toNat ≠ 0) :
    (lowerChar c).toNat = shiftCase lowerRuns c.toNat := by
  unfold lowerChar at h ⊢
  rw [if_neg hc] at h ⊢
  exact toNat_ofNat_of_ne_zero h

theorem isWordChar_of_isIdentChar_lowerChar {c : Char} (h : isIdentChar (lowerChar c) = true) :
    isWordChar c = true := by
  by_cases hc : c.toNat < 128
  · rw [lowerChar, if_pos hc] at h
    exact isWordChar_of_isIdentChar (isIdentChar_of_toLower hc h)
  · have hne : (lowerChar c).toNat ≠ 0 := by
      intro hzero
      have hnul : lowerChar c = Char.ofNat 0 := by rw [← hzero, Char.ofNat_toNat]
      rw [hnul] at h
      exact absurd h (by decide)
    have hlt := toNat_lt_of_isIdentChar h
    rw [toNat_lowerChar hc hne] at hlt
    have hword := isWordChar_of_shiftCase_lt (Nat.not_lt.1 hc) hlt
    rwa [Char.ofNat_toNat] at hword

/-- The dotless i and the long s are all that matches a character of ASCII beside its own cases. -/
theorem eq_of_mem_foldRelatives {n : Nat} (hn : n < 128) :
    ∀ m ∈ (foldRelatives.lookup n).getD [], m = 0x131 ∨ m = 0x17F :=
  (by decide +kernel : ∀ n < 128, ∀ m ∈ (foldRelatives.lookup n).getD [],
    m = 0x131 ∨ m = 0x17F) n hn

/-- Only word characters match an identifier character regardless of case. -/
theorem isWordChar_of_sameFold {p c : Char} (hp : isIdentChar p = true)
    (h : sameFold p c = true) : isWordChar c = true := by
  have hlower := lowerChar_of_isIdentChar hp
  have hident := isIdentChar_toLower hp
  simp only [sameFold, hlower, Bool.or_eq_true, beq_iff_eq] at h
  rcases h with h | h
  · exact isWordChar_of_isIdentChar_lowerChar (h ▸ hident)
  · have hm := eq_of_mem_foldRelatives (toNat_lt_of_isIdentChar hident) _
      (List.contains_iff_mem.1 h)
    have hc : ¬c.toNat < 128 := by
      intro hc
      have hlt := toNat_toLower_lt hc
      rw [lowerChar, if_pos hc] at hm
      omega
    have hcode : c.toNat = (lowerChar c).toNat :=
      eq_of_shiftCase hm (toNat_lowerChar hc (by omega)).symm
    rw [← Char.ofNat_toNat c, hcode]
    rcases hm with hm | hm
    · rw [hm]
      decide +kernel
    · rw [hm]
      decide +kernel

/-! ## Words of identifier characters -/

/-- Trimming takes nothing off a text without white space. -/
theorem trim_of_not_isBlank {w : Text} (hw : ∀ c ∈ w, isBlank c = false) : Text.trim w = w :=
  trim_eq_self (fun c hc => hw c (List.mem_of_head? hc)) fun c hc =>
    hw c (List.mem_of_getLast? hc)

/-- In ASCII each character has one upper-case form. -/
theorem upper_eq_map {s : Text} (hs : ∀ c ∈ s, c.toNat < 128) : s.upper = s.map Char.toUpper := by
  induction s with
  | nil => rfl
  | cons c s ih =>
    obtain ⟨hc, hs⟩ := List.forall_mem_cons.1 hs
    rw [Text.upper_cons, ih hs, upperChar, if_pos hc]
    rfl

/-- The normal form of an identifier is the identifier in capitals. -/
theorem normalWord_eq_map {w : Text} (hw : ∀ c ∈ w, isIdentChar c = true) :
    normalWord w = w.map Char.toUpper := by
  rw [normalWord, trim_of_not_isBlank fun c hc => not_isBlank_of_isIdentChar (hw c hc),
    upper_eq_map fun c hc => toNat_lt_of_isIdentChar (hw c hc)]

/-- The case of a pattern does not matter. -/
theorem sameFold_toUpper {p : Char} (hp : isIdentChar p = true) (c : Char) :
    sameFold p.toUpper c = sameFold p c := by
  have hlower : lowerChar p.toUpper = lowerChar p :=
    forall_ascii (P := fun p => lowerChar p.toUpper = lowerChar p) (by decide +kernel)
      (toNat_lt_of_isIdentChar hp)
  unfold sameFold
  rw [hlower]

/-! ## Places of clause words -/

/-- A clause word is matched by `word` regardless of case, character by character, and ends where
a word ends, `rest` coming after it. -/
structure ClauseAt (ws : List Text) (word rest : Text) : Prop where
  matched : ∃ w ∈ ws, List.Forall₂ (fun p c => sameFold p c = true) w word
  bounded : isBoundary (word ++ rest) word.length = true

/-- A clause word that is also a builtin function is called. -/
def IsClauseCall (ws : List Text) (word rest : Text) : Prop :=
  rest.head? = some '(' ∧ word.upper ∈ WordSet.ofWords ws ∧
    word.upper ∈ Vocabulary.standard.functions

/-- A clause word that is not called as a function stands at the start of the text. -/
def IsBreakWord (ws : List Text) (s : Text) : Prop :=
  ∃ word rest, s = word ++ rest ∧ ClauseAt ws word rest ∧ ¬IsClauseCall ws word rest

/-- Clause words are made of identifier characters, and none is empty. -/
def AreIdentifiers (ws : List Text) : Prop :=
  ∀ w ∈ ws, w ≠ [] ∧ ∀ c ∈ w, isIdentChar c = true

variable {ws : List Text} {word rest : Text}

theorem AreIdentifiers.isSolid (hws : AreIdentifiers ws) : (Clauses.ofWords ws).IsSolid := by
  refine isSolid_ofWords fun w hw c hc => ?_
  have hblank : ∀ c ∈ w, isBlank c = false := fun c hc =>
    not_isBlank_of_isIdentChar ((hws w hw).2 c hc)
  rw [trim_of_not_isBlank hblank] at hc
  exact hblank c hc

theorem isWordChar_of_forall₂ {w : Text} (hw : ∀ p ∈ w, isIdentChar p = true)
    (h : List.Forall₂ (fun p c => sameFold p c = true) w word) :
    ∀ c ∈ word, isWordChar c = true := by
  induction h with
  | nil => nofun
  | cons hpc _ ih =>
    obtain ⟨hp, hw⟩ := List.forall_mem_cons.1 hw
    exact List.forall_mem_cons.2 ⟨isWordChar_of_sameFold hp hpc, ih hw⟩

/-- A word of word characters is bounded where no further one follows. -/
theorem isBoundary_iff (hne : word ≠ []) (hword : ∀ c ∈ word, isWordChar c = true) :
    isBoundary (word ++ rest) word.length = true ↔ ∀ c ∈ rest.head?, isWordChar c = false := by
  have hpos := List.length_pos_iff.2 hne
  have hlast : (word ++ rest)[word.length - 1]?.any isWordChar = true := by
    rw [List.getElem?_append_left (by omega), List.getElem?_eq_getElem (by omega)]
    exact hword _ (List.getElem_mem _)
  rw [isBoundary, hlast, List.getElem?_append_right (Nat.le_refl _), Nat.sub_self,
    ← List.head?_eq_getElem?]
  cases rest <;> simp

/-- What matches a clause word is made of word characters. -/
theorem isWordChar_of_matched (hws : AreIdentifiers ws) {w : Text} (hw : w ∈ ws)
    (h : List.Forall₂ (fun p c => sameFold p c = true) w word) :
    word ≠ [] ∧ ∀ c ∈ word, isWordChar c = true := by
  refine ⟨?_, isWordChar_of_forall₂ (hws w hw).2 h⟩
  rintro rfl
  exact (hws w hw).1 (List.forall₂_nil_right_iff.1 h)

theorem ClauseAt.isWordChar (hws : AreIdentifiers ws) (h : ClauseAt ws word rest) :
    ∀ c ∈ word, isWordChar c = true := by
  obtain ⟨w, hw, hmatch⟩ := h.matched
  exact (isWordChar_of_matched hws hw hmatch).2

/-- A clause word ends where no further word character follows. -/
theorem clauseAt_iff (hws : AreIdentifiers ws) : ClauseAt ws word rest ↔
    (∃ w ∈ ws, List.Forall₂ (fun p c => sameFold p c = true) w word) ∧
      ∀ c ∈ rest.head?, isWordChar c = false := by
  constructor
  · rintro ⟨⟨w, hw, hmatch⟩, hbounded⟩
    obtain ⟨hne, hword⟩ := isWordChar_of_matched hws hw hmatch
    exact ⟨⟨w, hw, hmatch⟩, (isBoundary_iff hne hword).1 hbounded⟩
  · rintro ⟨⟨w, hw, hmatch⟩, hstop⟩
    obtain ⟨hne, hword⟩ := isWordChar_of_matched hws hw hmatch
    exact ⟨⟨w, hw, hmatch⟩, (isBoundary_iff hne hword).2 hstop⟩

/-- A clause word takes all word characters that its text starts with. -/
theorem ClauseAt.takeWhile_eq (hws : AreIdentifiers ws) (h : ClauseAt ws word rest) :
    (word ++ rest).takeWhile SqlSnippet.isWordChar = word :=
  takeWhile_append_stop (h.isWordChar hws) ((clauseAt_iff hws).1 h).2

/-! ## What the formatter finds -/

theorem startsWithFold_iff {sameLast : Char → Char → Bool}
    (hlast : ∀ p c, isIdentChar p = true → sameLast p c = sameFold p c) {w s : Text}
    (hw : ∀ p ∈ w, isIdentChar p = true) : startsWithFold sameLast w s = true ↔
      List.Forall₂ (fun p c => sameFold p c = true) w (s.take w.length) := by
  induction w generalizing s with
  | nil => simp [startsWithFold]
  | cons p ps ih =>
    obtain ⟨hp, hps⟩ := List.forall_mem_cons.1 hw
    cases s with
    | nil => simp [startsWithFold]
    | cons c cs =>
      rw [List.length_cons, List.take_succ_cons, List.forall₂_cons, ← ih hps]
      cases ps with
      | nil => simp [startsWithFold, hlast p c hp]
      | cons q qs => simp [startsWithFold]

theorem sameLast_ofWords (ws : List Text) {p : Char} (hp : isIdentChar p = true) (c : Char) :
    (Clauses.ofWords ws).sameLast p c = sameFold p c := by
  have hcode : p.toNat < 0x10000 := Nat.lt_trans (toNat_lt_of_isIdentChar hp) (by decide)
  unfold Clauses.ofWords
  dsimp only
  split
  · exact if_pos hcode
  · rfl

theorem forall₂_map_toUpper_iff {w s : Text} (hw : ∀ p ∈ w, isIdentChar p = true) :
    List.Forall₂ (fun p c => sameFold p c = true) (w.map Char.toUpper) s ↔
      List.Forall₂ (fun p c => sameFold p c = true) w s := by
  induction w generalizing s with
  | nil => rfl
  | cons p w ih =>
    obtain ⟨hp, hw⟩ := List.forall_mem_cons.1 hw
    cases s with
    | nil => simp
    | cons c s =>
      rw [List.map_cons, List.forall₂_cons, List.forall₂_cons, ih hw, sameFold_toUpper hp]

theorem isIdentChar_toUpper {c : Char} (h : isIdentChar c = true) :
    isIdentChar c.toUpper = true :=
  forall_ascii (P := fun c => isIdentChar c = true → isIdentChar c.toUpper = true)
    (by decide +kernel) (toNat_lt_of_isIdentChar h) h

/-- The set of clause words holds them in capitals. -/
theorem AreIdentifiers.mem_ofWords_iff (hws : AreIdentifiers ws) {v : Text} :
    v ∈ WordSet.ofWords ws ↔ ∃ w ∈ ws, w.map Char.toUpper = v := by
  refine WordSet.mem_ofWords.trans (exists_congr fun w => and_congr_right fun hw => ?_)
  obtain ⟨hne, hident⟩ := hws w hw
  have hblank : Text.isBlank w = false := by
    obtain ⟨c, r, rfl⟩ := List.exists_cons_of_ne_nil hne
    simp [Text.isBlank, not_isBlank_of_isIdentChar (hident c List.mem_cons_self)]
  rw [normalWord_eq_map hident]
  exact and_iff_right hblank

theorem mem_words_ofWords_iff (hws : AreIdentifiers ws) {v : Text} :
    v ∈ (Clauses.ofWords ws).words ↔ ∃ w ∈ ws, w.map Char.toUpper = v :=
  List.mem_mergeSort.trans hws.mem_ofWords_iff

/-- The words that the formatter goes through match as the clause words do. -/
theorem matches_iff (hws : AreIdentifiers ws) {w s : Text} (hw : w ∈ ws) :
    (startsWithFold (Clauses.ofWords ws).sameLast (w.map Char.toUpper) s &&
        isBoundary s (w.map Char.toUpper).length) = true ↔
      List.Forall₂ (fun p c => sameFold p c = true) w (s.take w.length) ∧
        isBoundary s w.length = true := by
  have hident := (hws w hw).2
  have hupper : ∀ p ∈ w.map Char.toUpper, isIdentChar p = true :=
    List.forall_mem_map.2 fun p hp => isIdentChar_toUpper (hident p hp)
  rw [Bool.and_eq_true, startsWithFold_iff (fun p c hp => sameLast_ofWords ws hp c) hupper,
    List.length_map, forall₂_map_toUpper_iff hident]

theorem clauseAt_of_lengthAt? (hws : AreIdentifiers ws) {s : Text} {n : Nat}
    (h : (Clauses.ofWords ws).lengthAt? s = some n) :
    n ≤ s.length ∧ ClauseAt ws (s.take n) (s.drop n) := by
  have hle := length_le_of_lengthAt? h
  obtain ⟨v, hv, rfl⟩ := Option.map_eq_some_iff.1 h
  obtain ⟨w, hw, rfl⟩ := (mem_words_ofWords_iff hws).1 (List.mem_of_find?_eq_some hv)
  have hfound := List.find?_some hv
  obtain ⟨hmatch, hbound⟩ := (matches_iff hws hw).1 hfound
  rw [List.length_map] at hle ⊢
  refine ⟨hle, ⟨w, hw, hmatch⟩, ?_⟩
  rwa [List.take_append_drop, List.length_take, Nat.min_eq_left hle]

/-- The formatter finds the clause word that stands at the start of a text. -/
theorem ClauseAt.lengthAt?_eq (hws : AreIdentifiers ws) (h : ClauseAt ws word rest) :
    (Clauses.ofWords ws).lengthAt? (word ++ rest) = some word.length := by
  obtain ⟨w, hw, hmatch⟩ := h.matched
  have hlength : w.length = word.length := hmatch.length_eq
  have hfound : ((Clauses.ofWords ws).lengthAt? (word ++ rest)).isSome = true := by
    rw [Clauses.lengthAt?, Option.isSome_map, List.find?_isSome]
    refine ⟨_, (mem_words_ofWords_iff hws).2 ⟨w, hw, rfl⟩, (matches_iff hws hw).2 ?_⟩
    rw [hlength, List.take_left]
    exact ⟨hmatch, h.bounded⟩
  obtain ⟨n, hn⟩ := Option.isSome_iff_exists.1 hfound
  obtain ⟨hle, hfirst⟩ := clauseAt_of_lengthAt? hws hn
  -- both words are all the word characters at the start of the text
  have hwords := hfirst.takeWhile_eq hws
  rw [List.take_append_drop, h.takeWhile_eq hws] at hwords
  rw [hn, hwords, List.length_take, Nat.min_eq_left hle]

/-- The formatter breaks the line before break words and nothing else. -/
theorem breaksAt_ofWords_iff (hws : AreIdentifiers ws) (s : Text) :
    (Clauses.ofWords ws).breaksAt s = true ↔ IsBreakWord ws s := by
  have hcall : ∀ w, w ∈ (Clauses.ofWords ws).callWords ↔
      w ∈ WordSet.ofWords ws ∧ w ∈ Vocabulary.standard.functions := fun w => by
    rw [show (Clauses.ofWords ws).callWords = (WordSet.ofWords ws).filter
      (· ∈ WordSet.ofWords builtinFunctions) from rfl, List.mem_filter, decide_eq_true_eq]
    rfl
  unfold Clauses.breaksAt
  rw [Option.any_eq_true]
  constructor
  · rintro ⟨n, hn, hbreak⟩
    refine ⟨s.take n, s.drop n, (List.take_append_drop n s).symm,
      (clauseAt_of_lengthAt? hws hn).2, fun hcalled => ?_⟩
    rw [Bool.not_eq_true', decide_eq_false_iff_not, hcall] at hbreak
    exact hbreak hcalled
  · rintro ⟨word, rest, rfl, hat, hcalled⟩
    refine ⟨word.length, hat.lengthAt?_eq hws, ?_⟩
    rw [Bool.not_eq_true', decide_eq_false_iff_not, hcall, List.drop_left, List.take_left]
    exact hcalled

theorem clauseAt_append_iff (hws : AreIdentifiers ws) {y : Text}
    (hy : ∀ c ∈ y.head?, isWordChar c = false) :
    ClauseAt ws word (rest ++ y) ↔ ClauseAt ws word rest := by
  rw [clauseAt_iff hws, clauseAt_iff hws]
  refine and_congr_right fun _ => ?_
  cases rest with
  | nil => exact iff_of_true hy nofun
  | cons c rest => rfl

/-- After the word characters that a text starts with, only an opening bracket counts. -/
theorem isBreakWord_append (hws : AreIdentifiers ws) {x y : Text}
    (hy : ∀ c ∈ y.head?, isWordChar c = false ∧ c ≠ '(') :
    IsBreakWord ws (x ++ y) ↔ IsBreakWord ws x := by
  have hstop : ∀ c ∈ y.head?, isWordChar c = false := fun c hc => (hy c hc).1
  have hcall : ∀ word rest, IsClauseCall ws word (rest ++ y) ↔ IsClauseCall ws word rest := by
    intro word rest
    refine and_congr_left fun _ => ?_
    cases rest with
    | cons c rest => rfl
    | nil => exact iff_of_false (fun h => (hy _ h).2 rfl) nofun
  constructor
  · rintro ⟨word, rest, heq, hat, hcalled⟩
    rcases List.append_eq_append_iff.1 heq with ⟨z, rfl, rfl⟩ | ⟨z, rfl, rfl⟩
    · -- the word does not reach beyond `x`, as `y` starts with no word character
      cases z with
      | cons c z =>
        have hc := hat.isWordChar hws c (by simp)
        rw [hstop c rfl] at hc
        cases hc
      | nil =>
        rw [List.append_nil] at hat hcalled
        exact ⟨x, [], (List.append_nil x).symm, (clauseAt_append_iff hws hstop).1 hat,
          mt (hcall x []).2 hcalled⟩
    · exact ⟨word, z, rfl, (clauseAt_append_iff hws hstop).1 hat, mt (hcall word z).2 hcalled⟩
  · rintro ⟨word, rest, rfl, hat, hcalled⟩
    exact ⟨word, rest ++ y, List.append_assoc _ _ _, (clauseAt_append_iff hws hstop).2 hat,
      mt (hcall word rest).1 hcalled⟩

end SqlSnippet
