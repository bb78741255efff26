import SqlSnippet.Proofs.OpenEnd

/-!
# Characters of a laid out text

Layout puts no characters into a text but line feeds, spaces and tabs, whatever its options
(`mem_of_mem_formatDocument`). Each step of it keeps a property of all characters that these have,
so that is said for each step, and of the steps together for one text, a script and a document.
-/

namespace SqlSnippet

variable {o : LayoutOptions} {k : Clauses} {x : Text}

/-- Layout adds no characters but these. -/
def layoutBlanks : Text :=
  ['\n', ' ', '\t']

theorem mem_layoutBlanks_of_mem_indent {c : Char} (h : c ∈ o.indent) : c ∈ layoutBlanks := by
  unfold LayoutOptions.indent at h
  split at h
  · rw [List.mem_singleton.1 h]
    decide
  · rw [(List.mem_replicate.1 h).2]
    decide

/-! ## Steps -/

section Steps

variable {P : Char → Prop} (hblanks : ∀ c ∈ layoutBlanks, P c)

include hblanks

theorem forall_mem_collapse {s : Text} (h : ∀ c ∈ s, P c) : ∀ c ∈ Text.collapse s, P c := by
  fun_induction Text.collapse s with
  | case1 => exact h
  | case2 c hc => exact List.forall_mem_singleton.2 (hblanks ' ' (by decide))
  | case3 c hc d r hd ih => exact ih (List.forall_mem_cons.1 h).2
  | case4 c hc d r hd ih =>
    exact List.forall_mem_cons.2 ⟨hblanks ' ' (by decide), ih (List.forall_mem_cons.1 h).2⟩
  | case5 c r hc ih =>
    exact List.forall_mem_cons.2 ⟨(List.forall_mem_cons.1 h).1, ih (List.forall_mem_cons.1 h).2⟩

theorem forall_mem_breakCommas {d : Nat} {skip : Bool} {held s : Text} (hheld : ∀ c ∈ held, P c)
    (h : ∀ c ∈ s, P c) : ∀ c ∈ breakCommas o d skip held s, P c := by
  fun_induction breakCommas o d skip held s with
  | case1 => exact hheld
  | case2 d held c r hc ih => exact ih hheld (List.forall_mem_cons.1 h).2
  | case3 d skip held c r hc hskip ih =>
    obtain ⟨hhead, hrest⟩ := List.forall_mem_cons.1 h
    exact ih (List.forall_mem_append.2 ⟨hheld, List.forall_mem_singleton.2 hhead⟩) hrest
  | case4 d skip held c r hc hcomma ih =>
    obtain ⟨hhead, hrest⟩ := List.forall_mem_cons.1 h
    refine List.forall_mem_cons.2 ⟨hcomma.1 ▸ hhead, List.forall_mem_cons.2
      ⟨hblanks '\n' (by decide), List.forall_mem_append.2 ⟨fun a ha => ?_, ih nofun hrest⟩⟩⟩
    exact hblanks a (mem_layoutBlanks_of_mem_indent ha)
  | case5 d skip held c r hc hcomma depth' ih =>
    obtain ⟨hhead, hrest⟩ := List.forall_mem_cons.1 h
    exact List.forall_mem_append.2 ⟨hheld, List.forall_mem_cons.2 ⟨hhead, ih nofun hrest⟩⟩

theorem forall_mem_gap {blanks word rest : Text} (h : ∀ c ∈ blanks, P c) :
    ∀ c ∈ k.gap blanks word rest, P c := by
  unfold Clauses.gap
  split
  · exact h
  · exact List.forall_mem_singleton.2 (hblanks '\n' (by decide))

theorem forall_mem_breakLines {s : Text} (h : ∀ c ∈ s, P c) : ∀ c ∈ k.breakLines s, P c := by
  have hrun : ∀ {c : Char} {r : Text}, (∀ a ∈ c :: r, P a) →
      (∀ a ∈ c :: r.takeWhile isBlank, P a) ∧ ∀ a ∈ r.dropWhile isBlank, P a := by
    intro c r h
    obtain ⟨hc, hr⟩ := List.forall_mem_cons.1 h
    exact ⟨List.forall_mem_cons.2 ⟨hc, fun a ha => hr a ((List.takeWhile_prefix _).subset ha)⟩,
      fun a ha => hr a ((List.dropWhile_suffix _).subset ha)⟩
  fun_induction Clauses.breakLines k s with
  | case1 => exact h
  | case2 c r hc blanks rest n hn ih =>
    obtain ⟨hrunBlank, hrest⟩ := hrun h
    have hword : ∀ a ∈ rest.take n, P a := fun a ha => hrest a (List.mem_of_mem_take ha)
    exact List.forall_mem_append.2 ⟨List.forall_mem_append.2
      ⟨forall_mem_gap hblanks hrunBlank, hword⟩, ih fun a ha => hrest a (List.mem_of_mem_drop ha)⟩
  | case3 c r hc blanks rest hn ih =>
    obtain ⟨hrunBlank, hrest⟩ := hrun h
    exact List.forall_mem_append.2 ⟨hrunBlank, ih hrest⟩
  | case4 c r hc ih =>
    exact List.forall_mem_cons.2 ⟨(List.forall_mem_cons.1 h).1, ih (List.forall_mem_cons.1 h).2⟩

theorem forall_mem_laidCode {afterComment : Bool} {d : Nat} {s : Text} (h : ∀ c ∈ s, P c) :
    ∀ c ∈ laidCode o k afterComment d s, P c := by
  have hcode : ∀ {t : Text}, (∀ c ∈ t, P c) →
      ∀ c ∈ k.breakLines (breakCommas o d false [] (Text.collapse t)), P c := fun ht =>
    forall_mem_breakLines hblanks
      (forall_mem_breakCommas hblanks nofun (forall_mem_collapse hblanks ht))
  unfold laidCode
  split
  · exact List.forall_mem_cons.2 ⟨hblanks '\n' (by decide),
      hcode fun c hc => h c ((List.dropWhile_suffix _).subset hc)⟩
  · exact hcode h

theorem forall_mem_laidAtoms {before : Option Region} {d : Nat} {rs : List Region}
    (h : ∀ c ∈ Region.flatten rs, P c) :
    ∀ c ∈ Atom.flatten (laidAtoms o k before d rs), P c := by
  induction rs generalizing before d with
  | nil => nofun
  | cons r rs ih =>
    rw [Region.flatten_cons, List.forall_mem_append] at h
    rw [laidAtoms]
    split
    · rw [Atom.flatten_cons]
      exact List.forall_mem_append.2 ⟨h.1, ih h.2⟩
    · rw [Atom.flatten_append, Atom.flatten_map_code]
      exact List.forall_mem_append.2 ⟨forall_mem_laidCode hblanks h.1, ih h.2⟩

theorem forall_mem_formatText (h : ∀ c ∈ x, P c) : ∀ c ∈ formatText o x, P c := by
  have hlaid : ∀ c ∈ Atom.flatten (laidAtoms o (Clauses.ofWords o.clauseWords) none 0 (scan x)),
      P c := forall_mem_laidAtoms hblanks (by rwa [flatten_scan])
  intro c hc
  rw [formatText_eq_flatten] at hc
  obtain ⟨a, ha, hc⟩ := List.mem_flatMap.1 hc
  refine hlaid c (List.mem_flatMap.2 ⟨a, ?_, hc⟩)
  exact (List.dropWhile_suffix _).subset ((List.rdropWhile_prefix _ _).subset ha)

end Steps

/-! ## Texts, scripts and documents -/

theorem mem_of_mem_formatText {c : Char} (h : c ∈ formatText o x) : c ∈ x ∨ c ∈ layoutBlanks :=
  forall_mem_formatText (P := fun c => c ∈ x ∨ c ∈ layoutBlanks) (fun _ => Or.inr)
    (fun _ => Or.inl) c h

theorem subset_of_mem_statements {t : Text} (ht : t ∈ statements x) : t ⊆ x := by
  intro c hc
  rw [statements_eq] at ht
  rw [← flatten_atoms x, ← map_fst_flatMap_marks, ← flatten_cutAfterMarks]
  exact List.mem_flatten.2 ⟨t, (List.mem_filter.1 ht).1, hc⟩

theorem mem_of_mem_formatScript {c : Char} (h : c ∈ formatScript o x) :
    c ∈ x ∨ c ∈ layoutBlanks := by
  rw [formatScript_eq_flatten] at h
  have htext : ∀ t ∈ (statements x).map (formatText o), c ∈ t → c ∈ x ∨ c ∈ layoutBlanks := by
    intro t ht hc
    obtain ⟨u, hu, rfl⟩ := List.mem_map.1 ht
    exact (mem_of_mem_formatText hc).imp_left fun h => subset_of_mem_statements hu h
  cases hlaid : (statements x).map (formatText o) with
  | nil =>
    rw [hlaid] at h
    cases h
  | cons t ts =>
    rw [hlaid, spaceOut, List.flatten_cons] at h
    rw [hlaid] at htext
    rcases List.mem_append.1 h with h | h
    · exact htext t List.mem_cons_self h
    · obtain ⟨u, hu, hc⟩ := List.mem_flatten.1 h
      obtain ⟨v, hv, rfl⟩ := List.mem_map.1 hu
      rcases List.mem_append.1 hc with hc | hc
      · rcases List.mem_cons.1 hc with rfl | hc
        · exact Or.inr (by decide)
        · rw [List.mem_singleton.1 hc]
          exact Or.inr (by decide)
      · exact htext v (List.mem_cons_of_mem t hv) hc

/-- Layout adds line feeds, spaces and tabs only. -/
theorem mem_of_mem_formatDocument {c : Char} (h : c ∈ (formatDocument o x).text) :
    c ∈ x ∨ c ∈ layoutBlanks := by
  rw [formatDocument_text] at h
  split at h
  · exact mem_of_mem_formatScript h
  · exact mem_of_mem_formatText h

end SqlSnippet
