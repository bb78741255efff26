import SqlSnippet.Proofs.ClauseMatches

/-!
# Occurrences of clause words

Breaking lines at clause words is a substitution : the formatter goes through a text from left to
right, finds white space that a clause word follows, puts the gap of the word in place of the white
space and goes on after the word. `Clauses.occurrences` lists what it finds, each occurrence with
the text before and after it, and `breakLines_eq_substitute` says that the rest of the text is kept.

Where all clause words are made of identifier characters, no occurrence hides another : those found
are all there are (`mem_occurrences_iff`), in the order of the text (`pairwise_occurrences`).
-/

namespace SqlSnippet

variable {k : Clauses} {ws : List Text}

/-! ## Occurrences -/

/-- White space with a clause word after it, and what is before and after these in the text. -/
structure ClauseMatch where
  before : Text
  blanks : Text
  word : Text
  rest : Text

/-- The offset of the word. -/
def ClauseMatch.start (m : ClauseMatch) : Nat :=
  m.before.length + m.blanks.length

/-- The offset of what is after the word. -/
def ClauseMatch.stop (m : ClauseMatch) : Nat :=
  m.start + m.word.length

/-- The occurrences that the formatter finds in a text which comes after `before`. -/
def Clauses.occurrencesAfter (k : Clauses) (before s : Text) : List ClauseMatch :=
  match s with
  | [] => []
  | c :: r =>
    if isBlank c then
      let blanks := c :: r.takeWhile isBlank
      let rest := r.dropWhile isBlank
      match k.lengthAt? rest with
      | some n =>
        ⟨before, blanks, rest.take n, rest.drop n⟩ ::
          k.occurrencesAfter (before ++ blanks ++ rest.take n) (rest.drop n)
      | none => k.occurrencesAfter (before ++ blanks) rest
    else k.occurrencesAfter (before ++ [c]) r
termination_by s.length
decreasing_by
  · simp only [List.length_drop, List.length_cons]
    have := (List.dropWhile_suffix (l := r) isBlank).length_le
    omega
  · exact Nat.lt_succ_of_le (List.dropWhile_suffix _).length_le
  · exact Nat.lt_succ_self _

/-- The occurrences of clause words in a text. -/
def Clauses.occurrences (k : Clauses) (s : Text) : List ClauseMatch :=
  k.occurrencesAfter [] s

/-- The text from offset `done` on, with the gaps of the clause words in place of the white space
before them. -/
def Clauses.substitute (k : Clauses) (s : Text) (done : Nat) : List ClauseMatch → Text
  | [] => s.drop done
  | m :: ms =>
    m.before.drop done ++ (k.gap m.blanks m.word m.rest ++ m.word ++ k.substitute s m.stop ms)

/-- What is not part of an occurrence is kept. -/
theorem substitute_occurrencesAfter (before s : Text) : ∀ done ≤ before.length,
    k.substitute (before ++ s) done (k.occurrencesAfter before s) =
      before.drop done ++ k.breakLines s := by
  fun_induction Clauses.occurrencesAfter k before s with
  | case1 before =>
    intro done _
    rw [Clauses.substitute, List.append_nil, breakLines_nil, List.append_nil]
  | case2 before c r hc blanks rest n hn ih =>
    intro done _
    have hsplit : c :: r = blanks ++ (rest.take n ++ rest.drop n) := by
      rw [List.take_append_drop]
      exact run_append c r
    have hstop : ClauseMatch.stop ⟨before, blanks, rest.take n, rest.drop n⟩ =
        (before ++ blanks ++ rest.take n).length := by
      rw [ClauseMatch.stop, ClauseMatch.start, List.length_append, List.length_append]
    -- nothing between the word and the rest is left to be kept
    have hrest := ih _ (Nat.le_of_eq hstop)
    rw [List.append_assoc, List.append_assoc, ← hsplit, hstop, List.drop_length,
      List.nil_append] at hrest
    rw [Clauses.substitute, hstop, hrest, breakLines_of_some hc hn]
  | case3 before c r hc blanks rest hn ih =>
    intro done hdone
    have hrest := ih done (by rw [List.length_append]; omega)
    rw [List.append_assoc, ← run_append, List.drop_append_of_le_length hdone] at hrest
    rw [hrest, breakLines_of_none hc hn, List.append_assoc]
  | case4 before c r hc ih =>
    intro done hdone
    have hrest := ih done (by rw [List.length_append]; omega)
    rw [List.append_assoc, List.drop_append_of_le_length hdone, List.append_assoc] at hrest
    rw [breakLines_cons (Bool.eq_false_iff.2 hc)]
    exact hrest

/-- Breaking lines puts gaps before the occurrences of clause words and keeps everything else. -/
theorem breakLines_eq_substitute (k : Clauses) (s : Text) :
    k.breakLines s = k.substitute s 0 (k.occurrences s) :=
  (substitute_occurrencesAfter [] s 0 (Nat.zero_le _)).symm

/-- The occurrences found in a text start after the text before it and do not overlap. -/
theorem pairwise_occurrencesAfter (before s : Text) :
    (∀ m ∈ k.occurrencesAfter before s, before.length ≤ m.before.length) ∧
      (k.occurrencesAfter before s).Pairwise fun m m' => m.stop ≤ m'.before.length := by
  fun_induction Clauses.occurrencesAfter k before s with
  | case1 => exact ⟨nofun, .nil⟩
  | case2 before c r hc blanks rest n hn ih =>
    have hlength : (before ++ blanks ++ rest.take n).length =
        ClauseMatch.stop ⟨before, blanks, rest.take n, rest.drop n⟩ := by
      rw [ClauseMatch.stop, ClauseMatch.start, List.length_append, List.length_append]
    rw [hlength] at ih
    refine ⟨List.forall_mem_cons.2 ⟨Nat.le_refl _, fun m hm => ?_⟩, .cons ih.1 ih.2⟩
    have hle := ih.1 m hm
    rw [ClauseMatch.stop, ClauseMatch.start, Nat.add_assoc] at hle
    exact Nat.le_trans (Nat.le_add_right _ _) hle
  | case3 before c r hc blanks rest hn ih =>
    rw [List.length_append] at ih
    exact ⟨fun m hm => Nat.le_trans (Nat.le_add_right _ _) (ih.1 m hm), ih.2⟩
  | case4 before c r hc ih =>
    rw [List.length_append] at ih
    exact ⟨fun m hm => Nat.le_trans (Nat.le_add_right _ _) (ih.1 m hm), ih.2⟩

theorem pairwise_occurrences (s : Text) :
    (k.occurrences s).Pairwise fun m m' => m.stop ≤ m'.before.length :=
  (pairwise_occurrencesAfter [] s).2

/-! ## All occurrences -/

/-- The text falls into these four parts : a clause word stands in it after all the white space
that is there. -/
structure IsClauseMatch (ws : List Text) (s before blanks word rest : Text) : Prop where
  text : s = before ++ (blanks ++ (word ++ rest))
  nonempty : blanks ≠ []
  blank : ∀ c ∈ blanks, isBlank c = true
  starts : ∀ c ∈ before.getLast?, isBlank c = false
  clause : ClauseAt ws word rest

section Parts

variable {s x u b w r : Text}

theorem ClauseAt.ne_nil (hws : AreIdentifiers ws) (h : ClauseAt ws w r) : w ≠ [] := by
  obtain ⟨p, hp, hmatch⟩ := h.matched
  exact (isWordChar_of_matched hws hp hmatch).1

/-- No clause word holds white space. -/
theorem ClauseAt.isBlank_of_mem (hws : AreIdentifiers ws) (h : ClauseAt ws w r) :
    ∀ c ∈ w, isBlank c = false := by
  refine fun c hc => Bool.eq_false_iff.2 fun hblank => ?_
  have hword := h.isWordChar hws c hc
  rw [isWordChar_of_isBlank hblank] at hword
  cases hword

theorem ClauseAt.isBlank_head? (hws : AreIdentifiers ws) (h : ClauseAt ws w r) :
    ∀ c ∈ (w ++ r).head?, isBlank c = false := by
  intro c hc
  rw [List.head?_append_of_ne_nil _ (h.ne_nil hws)] at hc
  exact h.isBlank_of_mem hws c (List.mem_of_mem_head? hc)

theorem isClauseMatch_cons {c : Char} (hc : isBlank c = false) :
    IsClauseMatch ws (c :: s) u b w r ↔ ∃ u', u = c :: u' ∧ IsClauseMatch ws s u' b w r := by
  constructor
  · intro h
    cases u with
    | nil =>
      obtain ⟨d, b, rfl⟩ := List.exists_cons_of_ne_nil h.nonempty
      obtain ⟨rfl, -⟩ := List.cons.inj h.text
      rw [h.blank c List.mem_cons_self] at hc
      cases hc
    | cons d u =>
      obtain ⟨rfl, htext⟩ := List.cons.inj h.text
      refine ⟨u, rfl, htext, h.nonempty, h.blank, fun e he => h.starts e ?_, h.clause⟩
      cases u with
      | nil => cases he
      | cons e' u => rwa [List.getLast?_cons_cons]
  · rintro ⟨u, rfl, h⟩
    refine ⟨congrArg (c :: ·) h.text, h.nonempty, h.blank, fun e he => ?_, h.clause⟩
    cases u with
    | nil =>
      obtain rfl : c = e := Option.some.inj he
      exact hc
    | cons d u => exact h.starts e (by rwa [List.getLast?_cons_cons] at he)

theorem isClauseMatch_append (hx : ∀ c ∈ x, isBlank c = false) :
    IsClauseMatch ws (x ++ s) u b w r ↔ ∃ u', u = x ++ u' ∧ IsClauseMatch ws s u' b w r := by
  induction x generalizing u with
  | nil =>
    refine ⟨fun h => ⟨u, rfl, h⟩, ?_⟩
    rintro ⟨u, rfl, h⟩
    exact h
  | cons c x ih =>
    obtain ⟨hc, hx⟩ := List.forall_mem_cons.1 hx
    rw [List.cons_append, isClauseMatch_cons hc]
    constructor
    · rintro ⟨v, rfl, h⟩
      obtain ⟨u', rfl, hlater⟩ := (ih hx).1 h
      exact ⟨u', rfl, hlater⟩
    · rintro ⟨u', rfl, h⟩
      exact ⟨x ++ u', rfl, (ih hx).2 ⟨u', rfl, h⟩⟩

/-- After a run of white space comes a clause word, or all occurrences come later. -/
theorem isClauseMatch_append_blanks (hws : AreIdentifiers ws) (hne : x ≠ [])
    (hx : ∀ c ∈ x, isBlank c = true) (hs : ∀ c ∈ s.head?, isBlank c = false) :
    IsClauseMatch ws (x ++ s) u b w r ↔ (u = [] ∧ b = x ∧ s = w ++ r ∧ ClauseAt ws w r) ∨
      ∃ u', u = x ++ u' ∧ IsClauseMatch ws s u' b w r := by
  constructor
  · intro h
    rcases List.append_eq_append_iff.1 h.text with ⟨v, hu, htext⟩ | ⟨v, hxu, htext⟩
    · refine Or.inr ⟨v, hu, htext, h.nonempty, h.blank, fun c hc => h.starts c ?_, h.clause⟩
      rw [hu, List.getLast?_append, hc]
      rfl
    · cases u with
      | nil =>
        obtain ⟨hblanks, hword⟩ := append_stop_inj hx h.blank hs (h.clause.isBlank_head? hws) h.text
        exact Or.inl ⟨rfl, hblanks.symm, hword, h.clause⟩
      | cons d u =>
        -- what is before an occurrence does not end within white space
        have hlast := List.getLast?_eq_some_getLast (List.cons_ne_nil d u)
        have hblank := hx _ (hxu ▸ List.mem_append_left v (List.getLast_mem (List.cons_ne_nil d u)))
        rw [h.starts _ hlast] at hblank
        cases hblank
  · rintro (⟨rfl, rfl, rfl, h⟩ | ⟨u, rfl, h⟩)
    · exact ⟨rfl, hne, hx, nofun, h⟩
    · refine ⟨by rw [h.text, List.append_assoc], h.nonempty, h.blank, fun c hc => ?_, h.clause⟩
      cases u with
      | nil =>
        obtain ⟨d, b, rfl⟩ := List.exists_cons_of_ne_nil h.nonempty
        rw [h.text] at hs
        have hd := h.blank d List.mem_cons_self
        rw [hs d rfl] at hd
        cases hd
      | cons d u =>
        rw [List.getLast?_append_of_ne_nil _ (List.cons_ne_nil d u)] at hc
        exact h.starts c hc

end Parts

theorem isBlank_head?_dropWhile (r : Text) :
    ∀ d ∈ (r.dropWhile isBlank).head?, isBlank d = false := by
  intro d hd
  have hnot := List.head?_dropWhile_not isBlank r
  rwa [hd] at hnot

theorem mem_occurrencesAfter_iff (hws : AreIdentifiers ws) (m : ClauseMatch) (before s : Text) :
    m ∈ (Clauses.ofWords ws).occurrencesAfter before s ↔
      ∃ u, m.before = before ++ u ∧ IsClauseMatch ws s u m.blanks m.word m.rest := by
  fun_induction Clauses.occurrencesAfter (Clauses.ofWords ws) before s with
  | case1 before =>
    refine iff_of_false List.not_mem_nil ?_
    rintro ⟨u, -, h⟩
    have hnil := (List.append_eq_nil_iff.1 h.text.symm).2
    exact h.nonempty (List.append_eq_nil_iff.1 hnil).1
  | case2 before c r hc blanks rest n hn ih =>
    have hat := (clauseAt_of_lengthAt? hws hn).2
    have hword := hat.isBlank_of_mem hws
    rw [List.mem_cons, run_append c r]
    simp only [isClauseMatch_append_blanks hws (List.cons_ne_nil _ _) (isBlank_of_mem_run hc r)
      (isBlank_head?_dropWhile r)]
    constructor
    · rintro (rfl | hm)
      · have hsplit := (List.take_append_drop n rest).symm
        exact ⟨[], (List.append_nil _).symm, Or.inl ⟨rfl, rfl, hsplit, hat⟩⟩
      · obtain ⟨u, hu, h⟩ := ih.1 hm
        have hlater := (isClauseMatch_append hword).2 ⟨u, rfl, h⟩
        rw [List.take_append_drop] at hlater
        exact ⟨blanks ++ (rest.take n ++ u), by simp only [hu, List.append_assoc],
          Or.inr ⟨_, rfl, hlater⟩⟩
    · rintro ⟨u, hu, ⟨rfl, hb, htext, h⟩ | ⟨v, rfl, h⟩⟩
      · left
        -- what stands after the white space starts with one clause word at most
        have hlength := h.lengthAt?_eq hws
        rw [← htext, hn] at hlength
        obtain rfl := Option.some.inj hlength
        obtain ⟨mbefore, mblanks, mword, mrest⟩ := m
        simp only [List.append_nil] at hu hb htext
        rw [ClauseMatch.mk.injEq]
        refine ⟨hu, hb, ?_, ?_⟩
        · simp only [rest, htext, List.take_left]
        · simp only [rest, htext, List.drop_left]
      · right
        rw [← List.take_append_drop n (r.dropWhile isBlank), isClauseMatch_append hword] at h
        obtain ⟨u, rfl, h⟩ := h
        exact ih.2 ⟨u, by simp only [hu, rest, blanks, List.append_assoc], h⟩
  | case3 before c r hc blanks rest hn ih =>
    rw [run_append c r]
    simp only [isClauseMatch_append_blanks hws (List.cons_ne_nil _ _) (isBlank_of_mem_run hc r)
      (isBlank_head?_dropWhile r)]
    constructor
    · intro hm
      obtain ⟨u, hu, h⟩ := ih.1 hm
      exact ⟨blanks ++ u, by rw [hu, List.append_assoc], Or.inr ⟨u, rfl, h⟩⟩
    · rintro ⟨u, hu, ⟨-, -, htext, h⟩ | ⟨v, rfl, h⟩⟩
      · have hlength := h.lengthAt?_eq hws
        rw [← htext, hn] at hlength
        cases hlength
      · exact ih.2 ⟨v, by rw [hu, List.append_assoc], h⟩
  | case4 before c r hc ih =>
    simp only [isClauseMatch_cons (Bool.eq_false_iff.2 hc)]
    constructor
    · intro hm
      obtain ⟨u, hu, h⟩ := ih.1 hm
      exact ⟨c :: u, by rw [hu, List.append_assoc, List.singleton_append], u, rfl, h⟩
    · rintro ⟨-, hu, u, rfl, h⟩
      exact ih.2 ⟨u, by rw [hu, List.append_assoc, List.singleton_append], h⟩

/-- The formatter finds every clause word that stands after white space. -/
theorem mem_occurrences_iff (hws : AreIdentifiers ws) (m : ClauseMatch) (s : Text) :
    m ∈ (Clauses.ofWords ws).occurrences s ↔
      IsClauseMatch ws s m.before m.blanks m.word m.rest := by
  refine (mem_occurrencesAfter_iff hws m [] s).trans ⟨?_, fun h => ⟨m.before, rfl, h⟩⟩
  rintro ⟨u, hu, h⟩
  rwa [hu]

end SqlSnippet
