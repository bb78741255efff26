import SqlSnippet.Proofs.OpenEnd

/-!
# Joined scripts

A text can end with a semicolon of its code (`EndsStatement`). Then it is made of closed statements,
and whatever is put after it starts a statement of its own, be it white space, a quote or the mark
that opens a comment. So the statements of the two texts are those of the one and those of the
other (`EndsStatement.statements_append`).

`append_scripts` says this of texts by their regions, and that layout of a script follows : the
second text is laid out below the first after an empty line, unless nothing is left of it.
-/

namespace SqlSnippet

variable {o : LayoutOptions} {s t : Text}

/-! ## Texts that end a statement -/

/-- The last character of the text is a semicolon of its code. -/
def EndsStatement (s : Text) : Prop :=
  (atoms s).getLast? = some (.code ';')

theorem Region.getLast?_atoms (r : Region) : r.atoms.getLast? =
    if r.isProtected then some (.literal r) else r.text.getLast?.map .code := by
  unfold Region.atoms
  split
  · rfl
  · exact List.getLast?_map

/-- A text ends a statement if its last region is code and ends with a semicolon. -/
theorem endsStatement_iff :
    EndsStatement s ↔ (∀ r ∈ (scan s).getLast?, r.kind = .code) ∧ s.getLast? = some ';' := by
  unfold EndsStatement
  rcases List.eq_nil_or_concat' (scan s) with hnil | ⟨rs, r, hscan⟩
  · have hs : s = [] := by rw [← flatten_scan s, hnil]; rfl
    rw [hs, atoms_nil]
    exact iff_of_false (Option.some_ne_none _).symm fun h => Option.some_ne_none _ h.2.symm
  · have hne : r.text ≠ [] := text_ne_nil_of_mem_scan (s := s) (by rw [hscan]; simp)
    have htext : s.getLast? = r.text.getLast? := by
      rw [← flatten_scan s, hscan, Region.flatten_append, Region.flatten_cons,
        List.getLast?_append_of_ne_nil _ (List.append_ne_nil_of_left_ne_nil hne _)]
      exact congrArg List.getLast? (List.append_nil _)
    have hatoms : (atoms s).getLast? = r.atoms.getLast? := by
      have hr : r.atoms ≠ [] := fun h => hne (by rw [← flatten_atoms_region r, h]; rfl)
      rw [atoms, hscan, List.flatMap_append, List.flatMap_singleton,
        List.getLast?_append_of_ne_nil _ hr]
    rw [hscan, List.getLast?_concat, htext, hatoms, Region.getLast?_atoms]
    simp only [Option.mem_some_iff, forall_eq']
    by_cases hp : r.isProtected = true
    · rw [if_pos hp]
      exact iff_of_false (fun h => Atom.noConfusion (Option.some.inj h)) fun h =>
        Region.isProtected_iff.1 hp h.1
    · rw [if_neg hp, and_iff_right (Region.kind_of_not_isProtected hp)]
      simp

theorem EndsStatement.semicolon_mem (h : EndsStatement s) : Atom.code ';' ∈ atoms s :=
  List.mem_of_getLast? h

theorem EndsStatement.not_isBlank (h : EndsStatement s) : Text.isBlank s = false := by
  refine Bool.eq_false_iff.2 fun hblank => ?_
  have hall := List.all_eq_true.1 hblank
  have hmem := h.semicolon_mem
  rw [atoms_of_blank hall] at hmem
  exact semicolon_not_mem_of_blank hall hmem

/-- After its first statement, such a text is over or ends a statement, too. -/
theorem EndsStatement.of_append (ht : IsClosed t) (h : EndsStatement (t ++ s)) :
    s = [] ∨ EndsStatement s := by
  unfold EndsStatement at h
  rw [atoms_append ht] at h
  by_cases hnil : atoms s = []
  · left
    rw [← flatten_atoms s, hnil]
    rfl
  · rw [List.getLast?_append_of_ne_nil _ hnil] at h
    exact Or.inr h

/-- What comes after a text that ends a statement has its own statements. -/
theorem EndsStatement.statements_append (h : EndsStatement s) (t : Text) :
    statements (s ++ t) = statements s ++ statements t := by
  induction s using statementInduction with
  | hblank s hs => exact absurd (hs.symm.trans h.not_isBlank) (by decide)
  | hopen u hu => exact absurd h.semicolon_mem hu.1
  | hclosed u s hu ih =>
    rw [List.append_assoc, SqlSnippet.statements_append hu, SqlSnippet.statements_append hu,
      List.cons_append]
    rcases h.of_append hu with rfl | hs
    · rw [List.nil_append, statements_of_isBlank (rfl : Text.isBlank [] = true), List.nil_append]
    · rw [ih hs]

/-! ## Layout of joined scripts -/

theorem spaceOut_append {ts : List Text} (hts : ts ≠ []) (us : List Text) :
    spaceOut (ts ++ us) = spaceOut ts ++ us.map (['\n', '\n'] ++ ·) := by
  obtain ⟨t, ts, rfl⟩ := List.exists_cons_of_ne_nil hts
  rw [List.cons_append, spaceOut, spaceOut, List.map_append, List.cons_append]

theorem flatten_map_newlines {ts : List Text} (hts : ts ≠ []) :
    (ts.map (['\n', '\n'] ++ ·)).flatten = ['\n', '\n'] ++ (spaceOut ts).flatten := by
  obtain ⟨t, ts, rfl⟩ := List.exists_cons_of_ne_nil hts
  rw [List.map_cons, List.flatten_cons, spaceOut, List.flatten_cons, List.append_assoc]

/-- A script is laid out below one that ends a statement, after an empty line. -/
theorem EndsStatement.formatScript_append (h : EndsStatement s) (t : Text) :
    formatScript o (s ++ t) = formatScript o s ++
      if formatScript o t = [] then [] else ['\n', '\n'] ++ formatScript o t := by
  have hs : (statements s).map (formatText o) ≠ [] :=
    mt List.map_eq_nil_iff.1 (statements_ne_nil h.not_isBlank)
  rw [formatScript_eq_flatten, h.statements_append, List.map_append, spaceOut_append hs,
    List.flatten_append, ← formatScript_eq_flatten]
  refine congrArg _ ?_
  split
  · next ht => rw [formatScript_eq_nil_iff.1 ht]; rfl
  · next ht =>
    have hstatements := mt formatScript_eq_nil_iff.2 ht
    rw [flatten_map_newlines (mt List.map_eq_nil_iff.1 hstatements), ← formatScript_eq_flatten]

/-- Scripts can be joined where the first one ends with a semicolon of its code : the statements are
those of the one and those of the other, and where statements are laid out one by one, so is the
layout, with an empty line in between if anything is left of the second script. -/
theorem append_scripts (s t : Text) (hcode : ∀ r ∈ (scan s).getLast?, r.kind = .code)
    (hend : s.getLast? = some ';') :
    statements (s ++ t) = statements s ++ statements t ∧
      ∀ o : LayoutOptions, o.splitStatements = true →
        (formatDocument o (s ++ t)).text = (formatDocument o s).text ++
          if (formatDocument o t).text = [] then []
          else ['\n', '\n'] ++ (formatDocument o t).text := by
  have h := endsStatement_iff.2 ⟨hcode, hend⟩
  refine ⟨h.statements_append t, fun o ho => ?_⟩
  simp only [formatDocument_text, if_pos ho]
  exact h.formatScript_append t

theorem append_scripts_open_comment :
    let s := "select 'a;' -- b;\n;;".toList
    let t := "/* c ; d".toList
    (∀ r ∈ (scan s).getLast?, r.kind = .code) ∧ s.getLast? = some ';' ∧
      LayoutOptions.script.splitStatements = true ∧
      statements (s ++ t) = statements s ++ statements t ∧
      (formatDocument .script (s ++ t)).text = (formatDocument .script s).text ++
        if (formatDocument .script t).text = [] then []
        else ['\n', '\n'] ++ (formatDocument .script t).text :=
  have hcode : ∀ r ∈ (scan "select 'a;' -- b;\n;;".toList).getLast?, r.kind = .code := by
    decide +kernel
  have hend : "select 'a;' -- b;\n;;".toList.getLast? = some ';' := by decide
  have hjoined := append_scripts _ "/* c ; d".toList hcode hend
  ⟨hcode, hend, rfl, hjoined.1, hjoined.2 .script rfl⟩

end SqlSnippet
