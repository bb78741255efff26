import Mathlib.Data.List.Find
import Mathlib.Data.List.TakeWhile
import SqlSnippet.Proofs.CaseBlank
import SqlSnippet.Proofs.Outline

/-!
# Breaks at clause words

Whatever the clause words are, breaking lines at them replaces white space by other white space
(`sameSpacing_breakLines`). Where no clause word holds white space (`Clauses.IsSolid`), more is
known : whether a run of white space becomes a line break is settled by the characters up to the
next white space (`breaksAt_append`), so the clause words of a text are found one after another,
and none hides the next (`breakLines_append_blanks`). White space at the end of a text never counts,
as no clause word ends with any (`Clauses.IsTrimmed`, `breakLines_concat_blank`).
-/

namespace SqlSnippet

/-! ## Matching and white space -/

theorem length_le_of_startsWithFold {sameLast : Char → Char → Bool} {w s : Text}
    (h : startsWithFold sameLast w s = true) : w.length ≤ s.length := by
  induction w generalizing s with
  | nil => exact Nat.zero_le _
  | cons p ps ih =>
    cases s with
    | nil => cases h
    | cons c cs =>
      cases ps with
      | nil => exact Nat.succ_le_succ (Nat.zero_le _)
      | cons q qs =>
        rw [startsWithFold, Bool.and_eq_true] at h
        exact Nat.succ_le_succ (ih h.2)
        · nofun

/-- A word without white space is found before white space or not at all. -/
theorem startsWithFold_append {sameLast : Char → Char → Bool}
    (hlast : ∀ p c, sameLast p c = true → isBlank c = true → isBlank p = true) {w x y : Text}
    (hw : ∀ p ∈ w, isBlank p = false) (hy : ∀ c ∈ y.head?, isBlank c = true) :
    startsWithFold sameLast w (x ++ y) = startsWithFold sameLast w x := by
  induction w generalizing x with
  | nil => cases x <;> cases y <;> rfl
  | cons p ps ih =>
    obtain ⟨hp, hps⟩ := List.forall_mem_cons.1 hw
    cases x with
    | nil =>
      cases y with
      | nil => rfl
      | cons b bs =>
        have hb := hy b rfl
        have hfold : sameFold p b = false := Bool.eq_false_iff.2 fun h =>
          Bool.false_ne_true (hp.symm.trans (isBlank_of_sameFold h hb))
        have hsame : sameLast p b = false := Bool.eq_false_iff.2 fun h =>
          Bool.false_ne_true (hp.symm.trans (hlast p b h hb))
        cases ps with
        | nil => exact hsame
        | cons q qs => exact congrArg (· && startsWithFold sameLast (q :: qs) bs) hfold
    | cons c cs =>
      cases ps with
      | nil => rfl
      | cons q qs => exact congrArg (sameFold p c && ·) (ih hps)

/-- White space bounds a word as the end of the text does. -/
theorem isBoundary_append {x y : Text} {n : Nat} (hn : n ≤ x.length)
    (hy : ∀ c ∈ y.head?, isBlank c = true) : isBoundary (x ++ y) n = isBoundary x n := by
  unfold isBoundary
  cases n with
  | zero => simp
  | succ n =>
    rw [List.getElem?_append_left (by omega)]
    rcases Nat.lt_or_ge (n + 1) x.length with h | h
    · rw [List.getElem?_append_left h]
    · have hend : y[0]?.any isWordChar = false := by
        cases y with
        | nil => rfl
        | cons b bs => exact isWordChar_of_isBlank (hy b rfl)
      rw [List.getElem?_append_right h, List.getElem?_eq_none h,
        Nat.sub_eq_zero_of_le hn, hend]
      rfl

/-! ## Where a line breaks -/

/-- Whether white space before the text becomes a line break. -/
def Clauses.breaksAt (k : Clauses) (s : Text) : Bool :=
  (k.lengthAt? s).any fun n =>
    !decide ((s.drop n).head? = some '(' ∧ Text.upper (s.take n) ∈ k.callWords)

/-- No clause word holds white space, nor matches any. -/
structure Clauses.IsSolid (k : Clauses) : Prop where
  words : ∀ w ∈ k.words, ∀ c ∈ w, isBlank c = false
  sameLast : ∀ p c, k.sameLast p c = true → isBlank c = true → isBlank p = true

theorem isBlank_of_sameLast {ws : List Text} {p c : Char}
    (h : (Clauses.ofWords ws).sameLast p c = true) (hc : isBlank c = true) :
    isBlank p = true := by
  unfold Clauses.ofWords at h
  dsimp only at h
  split at h
  · exact isBlank_of_sameInSet h hc
  · exact isBlank_of_sameFold h hc

/-- Clause words without white space inside them are solid. -/
theorem isSolid_ofWords {ws : List Text}
    (h : ∀ w ∈ ws, ∀ c ∈ Text.trim w, isBlank c = false) : (Clauses.ofWords ws).IsSolid := by
  refine ⟨fun w hw => ?_, fun p c => isBlank_of_sameLast⟩
  obtain ⟨v, hv, -, rfl⟩ := WordSet.mem_ofWords.1 (List.mem_mergeSort.1 hw)
  exact isBlank_of_mem_upper (h v hv)

/-- The standard clause words hold no white space. -/
theorem isBlank_of_mem_standardClauseWords :
    ∀ w ∈ standardClauseWords, ∀ c ∈ Text.trim w, isBlank c = false := by
  have hall : standardClauseWords.all (fun w => (Text.trim w).all (!isBlank ·)) = true := by
    decide
  intro w hw c hc
  simpa using List.all_eq_true.1 (List.all_eq_true.1 hall w hw) c hc

variable {k : Clauses}

theorem length_le_of_lengthAt? {s : Text} {n : Nat} (h : k.lengthAt? s = some n) :
    n ≤ s.length := by
  obtain ⟨w, hw, rfl⟩ := Option.map_eq_some_iff.1 h
  have hfound := List.find?_some hw
  rw [Bool.and_eq_true] at hfound
  exact length_le_of_startsWithFold hfound.1

theorem lengthAt?_append (hk : k.IsSolid) {x y : Text} (hy : ∀ c ∈ y.head?, isBlank c = true) :
    k.lengthAt? (x ++ y) = k.lengthAt? x := by
  unfold Clauses.lengthAt?
  refine congrArg _ (List.find?_congr fun w hw => ?_)
  rw [startsWithFold_append hk.sameLast (hk.words w hw) hy]
  cases h : startsWithFold k.sameLast w x with
  | false => rfl
  | true => rw [isBoundary_append (length_le_of_startsWithFold h) hy]

theorem head?_append_eq_bracket_iff {x y : Text} (hy : ∀ c ∈ y.head?, isBlank c = true) :
    (x ++ y).head? = some '(' ↔ x.head? = some '(' := by
  cases x with
  | cons c x => rfl
  | nil => exact ⟨fun h => absurd (hy '(' h) (by decide), nofun⟩

/-- Only the characters before the next white space count. -/
theorem breaksAt_append (hk : k.IsSolid) {x y : Text} (hy : ∀ c ∈ y.head?, isBlank c = true) :
    k.breaksAt (x ++ y) = k.breaksAt x := by
  unfold Clauses.breaksAt
  rw [lengthAt?_append hk hy]
  cases hn : k.lengthAt? x with
  | none => rfl
  | some n =>
    have hle := length_le_of_lengthAt? hn
    rw [Option.any_some, Option.any_some, List.drop_append_of_le_length hle,
      List.take_append_of_le_length hle]
    simp only [head?_append_eq_bracket_iff hy]

/-! ## Broken lines -/

theorem breakLines_nil (k : Clauses) : k.breakLines [] = [] := by
  rw [Clauses.breakLines.eq_def]

theorem breakLines_cons {c : Char} (hc : isBlank c = false) (s : Text) :
    k.breakLines (c :: s) = c :: k.breakLines s := by
  rw [Clauses.breakLines.eq_def]
  exact if_neg (Bool.eq_false_iff.1 hc)

/-- A text that starts with white space is a run of it and what comes after. -/
theorem run_append (c : Char) (r : Text) :
    c :: r = c :: r.takeWhile isBlank ++ r.dropWhile isBlank :=
  congrArg (c :: ·) List.takeWhile_append_dropWhile.symm

theorem isBlank_of_mem_run {c : Char} (hc : isBlank c = true) (r : Text) :
    ∀ d ∈ c :: r.takeWhile isBlank, isBlank d = true :=
  List.forall_mem_cons.2 ⟨hc, fun _ hd => List.mem_takeWhile_imp hd⟩

/-- Where a clause word comes after white space, its gap takes the place of that. -/
theorem breakLines_of_some {c : Char} (hc : isBlank c = true) {r : Text} {n : Nat}
    (hn : k.lengthAt? (r.dropWhile isBlank) = some n) : k.breakLines (c :: r) =
      k.gap (c :: r.takeWhile isBlank) ((r.dropWhile isBlank).take n)
          ((r.dropWhile isBlank).drop n) ++
        (r.dropWhile isBlank).take n ++ k.breakLines ((r.dropWhile isBlank).drop n) := by
  rw [Clauses.breakLines.eq_def]
  dsimp only
  rw [if_pos hc, hn]

/-- Other white space is kept. -/
theorem breakLines_of_none {c : Char} (hc : isBlank c = true) {r : Text}
    (hn : k.lengthAt? (r.dropWhile isBlank) = none) :
    k.breakLines (c :: r) = c :: r.takeWhile isBlank ++ k.breakLines (r.dropWhile isBlank) := by
  rw [Clauses.breakLines.eq_def]
  dsimp only
  rw [if_pos hc, hn]

theorem breakLines_append {x : Text} (hx : ∀ c ∈ x, isBlank c = false) (s : Text) :
    k.breakLines (x ++ s) = x ++ k.breakLines s := by
  induction x with
  | nil => rfl
  | cons c x ih =>
    obtain ⟨hc, hx⟩ := List.forall_mem_cons.1 hx
    rw [List.cons_append, breakLines_cons hc, ih hx]
    rfl

/-- A run of white space is replaced or kept, and what comes after is laid out on its own. -/
theorem breakLines_append_blanks (hk : k.IsSolid) {b x y : Text} (hb : b ≠ [])
    (hblank : ∀ c ∈ b, isBlank c = true) (hx : ∀ c ∈ x, isBlank c = false)
    (hy : ∀ c ∈ y.head?, isBlank c = true) (hxy : x = [] → y = []) :
    k.breakLines (b ++ (x ++ y)) =
      (if k.breaksAt x then ['\n'] else b) ++ k.breakLines (x ++ y) := by
  obtain ⟨c, bs, rfl⟩ := List.exists_cons_of_ne_nil hb
  obtain ⟨hc, hbs⟩ := List.forall_mem_cons.1 hblank
  have hstop : (x ++ y).takeWhile isBlank = [] ∧ (x ++ y).dropWhile isBlank = x ++ y := by
    cases x with
    | nil => rw [hxy rfl]; exact ⟨rfl, rfl⟩
    | cons d x =>
      have hd := Bool.eq_false_iff.1 (hx d List.mem_cons_self)
      exact ⟨List.takeWhile_cons_of_neg hd, List.dropWhile_cons_of_neg hd⟩
  rw [List.cons_append, Clauses.breakLines.eq_def]
  dsimp only
  rw [if_pos hc, List.takeWhile_append_of_pos hbs, List.dropWhile_append_of_pos hbs, hstop.1,
    hstop.2, List.append_nil, ← breaksAt_append hk hy, Clauses.breaksAt, lengthAt?_append hk hy]
  cases hn : k.lengthAt? x with
  | none => rfl
  | some n =>
    have hle := length_le_of_lengthAt? hn
    have htake : ∀ d ∈ (x ++ y).take n, isBlank d = false := by
      rw [List.take_append_of_le_length hle]
      exact fun d hd => hx d (List.mem_of_mem_take hd)
    have hrest := breakLines_append (k := k) htake ((x ++ y).drop n)
    rw [List.take_append_drop] at hrest
    rw [hrest, Option.any_some]
    dsimp only
    rw [List.append_assoc]
    refine congrArg (· ++ _) ?_
    unfold Clauses.gap
    split
    · next h => rw [decide_eq_true h]; rfl
    · next h => rw [decide_eq_false h]; rfl

/-- White space before a clause word is replaced by white space. -/
theorem sameSpacing_gap {b : Text} (hb : b ≠ []) (hblank : ∀ c ∈ b, isBlank c = true)
    (word rest : Text) : SameSpacing ((k.gap b word rest).map .code) (b.map .code) := by
  have hall : ∀ {s : Text}, (∀ c ∈ s, isBlank c = true) →
      ∀ a ∈ s.map Atom.code, a.isBlank = true := fun h => List.forall_mem_map.2 h
  obtain ⟨c, bs, rfl⟩ := List.exists_cons_of_ne_nil hb
  unfold Clauses.gap
  split
  · exact .refl _
  · exact sameSpacing_of_blank (hall (List.forall_mem_singleton.2 (by decide))) (hall hblank) rfl

/-- Breaking lines replaces white space by white space and changes nothing else. -/
theorem sameSpacing_breakLines (k : Clauses) (s : Text) :
    SameSpacing ((k.breakLines s).map .code) (s.map .code) := by
  fun_induction Clauses.breakLines k s with
  | case1 => exact .refl _
  | case2 c r hc blanks rest n hn ih =>
    have hblanks : ∀ d ∈ blanks, isBlank d = true := isBlank_of_mem_run hc r
    have hsplit : c :: r = blanks ++ (rest.take n ++ rest.drop n) := by
      rw [List.take_append_drop]
      exact run_append c r
    rw [hsplit, List.append_assoc]
    simp only [List.map_append]
    exact (sameSpacing_gap (List.cons_ne_nil _ _) hblanks _ _).append
      ((SameSpacing.refl _).append ih)
  | case3 c r hc blanks rest hn ih =>
    have hsplit : c :: r = blanks ++ rest := run_append c r
    rw [hsplit, List.map_append, List.map_append]
    exact (SameSpacing.refl _).append ih
  | case4 c r hc ih => exact ih.cons _

/-! ## White space at the ends -/

variable {x y : Text} {c e : Char}

theorem isBlank_getLast?_trim (s : Text) : ∀ c ∈ (Text.trim s).getLast?, isBlank c = false := by
  intro c hc
  have hhead := List.head?_dropWhile_not isBlank (Text.trimStart s).reverse
  rw [Text.trim, Text.trimEnd, List.getLast?_reverse] at hc
  rwa [Option.mem_def.1 hc] at hhead

theorem isBlank_head?_trim (s : Text) : ∀ c ∈ (Text.trim s).head?, isBlank c = false := by
  intro c hc
  have hprefix : Text.trim s <+: s.dropWhile isBlank := by
    rw [← List.reverse_suffix, Text.trim, Text.trimEnd, List.reverse_reverse]
    exact List.dropWhile_suffix _
  obtain ⟨t, ht⟩ := hprefix
  have hhead := List.head?_dropWhile_not isBlank s
  rwa [← ht, List.head?_append, Option.mem_def.1 hc] at hhead

/-- Trimming takes nothing off a text without white space at its ends. -/
theorem trim_eq_self {s : Text} (hhead : ∀ c ∈ s.head?, isBlank c = false)
    (hlast : ∀ c ∈ s.getLast?, isBlank c = false) : Text.trim s = s := by
  have hstart : ∀ t : Text, (∀ c ∈ t.head?, isBlank c = false) → t.dropWhile isBlank = t := by
    intro t ht
    cases t with
    | nil => rfl
    | cons c t => exact List.dropWhile_cons_of_neg (Bool.eq_false_iff.1 (ht c rfl))
  have hend : ∀ c ∈ s.reverse.head?, isBlank c = false := by rwa [List.head?_reverse]
  rw [Text.trim, Text.trimStart, Text.trimEnd, hstart s hhead, hstart s.reverse hend,
    List.reverse_reverse]

/-- No clause word ends with white space, nor matches any there. -/
structure Clauses.IsTrimmed (k : Clauses) : Prop where
  words : ∀ v ∈ k.words, ∀ p ∈ v.getLast?, isBlank p = false
  sameLast : ∀ p c, k.sameLast p c = true → isBlank c = true → isBlank p = true

theorem isTrimmed_ofWords (ws : List Text) : (Clauses.ofWords ws).IsTrimmed := by
  refine ⟨fun v hv => ?_, fun p c => isBlank_of_sameLast⟩
  obtain ⟨u, -, -, rfl⟩ := WordSet.mem_ofWords.1 (List.mem_mergeSort.1 hv)
  exact isBlank_getLast?_upper (isBlank_getLast?_trim u)

/-- A word that does not end with white space is found before it or not at all. -/
theorem startsWithFold_concat_blank {sameLast : Char → Char → Bool}
    (hlast : ∀ p c, sameLast p c = true → isBlank c = true → isBlank p = true) {v : Text}
    (hv : ∀ p ∈ v.getLast?, isBlank p = false) (hc : isBlank c = true) :
    startsWithFold sameLast v (x ++ [c]) = startsWithFold sameLast v x := by
  induction v generalizing x with
  | nil => cases x <;> rfl
  | cons p ps ih =>
    cases ps with
    | nil =>
      cases x with
      | cons e x => rfl
      | nil =>
        exact Bool.eq_false_iff.2 fun h =>
          Bool.false_ne_true ((hv p rfl).symm.trans (hlast p c h hc))
    | cons q qs =>
      rw [List.getLast?_cons_cons] at hv
      cases x with
      | cons e x => exact congrArg (sameFold p e && ·) (ih hv)
      | nil => exact Bool.and_false _

/-- White space at the end of a text adds no clause word at its start. -/
theorem lengthAt?_concat_blank (hk : k.IsTrimmed) (hc : isBlank c = true) :
    k.lengthAt? (x ++ [c]) = k.lengthAt? x := by
  unfold Clauses.lengthAt?
  refine congrArg _ (List.find?_congr fun v hv => ?_)
  rw [startsWithFold_concat_blank hk.sameLast (hk.words v hv) hc]
  cases h : startsWithFold k.sameLast v x with
  | false => rfl
  | true =>
    have hhead : ∀ b ∈ [c].head?, isBlank b = true := fun b hb => Option.some.inj hb ▸ hc
    rw [isBoundary_append (length_le_of_startsWithFold h) hhead]

theorem lengthAt?_nil (k : Clauses) : k.lengthAt? [] = none := by
  unfold Clauses.lengthAt?
  rw [Option.map_eq_none_iff, List.find?_eq_none]
  intro v _
  cases v with
  | nil => exact Bool.false_ne_true
  | cons p ps => exact Bool.false_ne_true

theorem gap_concat_blank {b : Text} {n : Nat} (hn : n ≤ x.length) (hc : isBlank c = true) :
    k.gap b ((x ++ [c]).take n) ((x ++ [c]).drop n) = k.gap b (x.take n) (x.drop n) := by
  have hhead : ∀ b ∈ [c].head?, isBlank b = true := fun b hb => Option.some.inj hb ▸ hc
  rw [List.take_append_of_le_length hn, List.drop_append_of_le_length hn]
  unfold Clauses.gap
  simp only [head?_append_eq_bracket_iff hhead]

/-- The white space that a text starts with ends before the text does, if that ends with another
character. -/
theorem dropWhile_isBlank_ne_nil {r : Text} (he : isBlank e = true)
    (hx : ∀ b ∈ (e :: r).getLast?, isBlank b = false) : r.dropWhile isBlank ≠ [] := by
  intro hnil
  have hblank : ∀ b ∈ e :: r, isBlank b = true :=
    List.forall_mem_cons.2 ⟨he, List.dropWhile_eq_nil_iff.1 hnil⟩
  have hlast := List.getLast?_eq_some_getLast (List.cons_ne_nil e r)
  exact Bool.false_ne_true ((hx _ hlast).symm.trans (hblank _ (List.getLast_mem _)))

theorem takeWhile_and_dropWhile_append {r : Text} (h : r.dropWhile isBlank ≠ []) (s : Text) :
    (r ++ s).takeWhile isBlank = r.takeWhile isBlank ∧
      (r ++ s).dropWhile isBlank = r.dropWhile isBlank ++ s := by
  have hlength : ¬(r.takeWhile isBlank).length = r.length := by
    have hsplit := congrArg List.length (List.takeWhile_append_dropWhile (p := isBlank) (l := r))
    have hpos := List.length_pos_iff.2 h
    rw [List.length_append] at hsplit
    omega
  rw [List.takeWhile_append, if_neg hlength, List.dropWhile_append,
    if_neg fun hempty => h (List.isEmpty_iff.1 hempty)]
  exact ⟨rfl, rfl⟩

theorem mem_getLast?_of_suffix (h : y <:+ x) (he : e ∈ y.getLast?) : e ∈ x.getLast? := by
  obtain ⟨z, rfl⟩ := h
  rw [List.getLast?_append, Option.mem_def.1 he]
  rfl

/-- White space at the end of a text is kept where lines are broken. -/
theorem breakLines_concat_blank (hk : k.IsTrimmed) (hx : ∀ e ∈ x.getLast?, isBlank e = false)
    (hc : isBlank c = true) : k.breakLines (x ++ [c]) = k.breakLines x ++ [c] := by
  fun_induction Clauses.breakLines k x with
  | case1 =>
    have hnone : k.breakLines [c] = c :: k.breakLines [] := breakLines_of_none hc (lengthAt?_nil k)
    rw [List.nil_append, hnone, breakLines_nil]
  | case2 e r he blanks rest n hn ih =>
    obtain ⟨htake, hdrop⟩ := takeWhile_and_dropWhile_append (dropWhile_isBlank_ne_nil he hx) [c]
    have hle := length_le_of_lengthAt? hn
    have hfound : k.lengthAt? ((r ++ [c]).dropWhile isBlank) = some n := by
      rw [hdrop, lengthAt?_concat_blank hk hc]
      exact hn
    have hsuffix : rest.drop n <:+ e :: r :=
      ((List.drop_suffix n rest).trans (List.dropWhile_suffix isBlank)).trans
        (List.suffix_cons e r)
    rw [List.cons_append, breakLines_of_some he hfound, htake, hdrop, gap_concat_blank hle hc,
      List.take_append_of_le_length hle, List.drop_append_of_le_length hle,
      ih fun b hb => hx b (mem_getLast?_of_suffix hsuffix hb), List.append_assoc _ _ [c]]
  | case3 e r he blanks rest hn ih =>
    obtain ⟨htake, hdrop⟩ := takeWhile_and_dropWhile_append (dropWhile_isBlank_ne_nil he hx) [c]
    have hnone : k.lengthAt? ((r ++ [c]).dropWhile isBlank) = none := by
      rw [hdrop, lengthAt?_concat_blank hk hc]
      exact hn
    have hsuffix : rest <:+ e :: r := (List.dropWhile_suffix isBlank).trans (List.suffix_cons e r)
    rw [List.cons_append, breakLines_of_none he hnone, htake, hdrop,
      ih fun b hb => hx b (mem_getLast?_of_suffix hsuffix hb), List.append_assoc _ _ [c]]
  | case4 e r he ih =>
    rw [List.cons_append, breakLines_cons (Bool.eq_false_iff.2 he),
      ih fun b hb => hx b (mem_getLast?_of_suffix (List.suffix_cons e r) hb)]
    rfl

end SqlSnippet
