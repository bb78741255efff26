import SqlSnippet.Proofs.StatementCuts

/-!
# Appended text

A text put after another one is read together with the last region of that text, and with no more
of it (`scan_flatten_append`). It can complete the mark that opens a comment, double the quote that
closes a string or go on with what the text ends in, but all of these lie in the last region. In
the same way it goes on with the last statement, unless that ends with a semicolon of code.

`append_keeps_complete` : all regions but the last one, and all statements that end with a
semicolon of code, are the same ones whatever is appended.
-/

namespace SqlSnippet

/-! ## Regions -/

/-- What opens a string or a comment does so whatever follows. -/
theorem openingKind_append {s : Text} (h : openingKind s ≠ .code) (t : Text) :
    openingKind (s ++ t) = openingKind s := by
  rcases openingKind_cases s with ⟨r, rfl⟩ | ⟨r, rfl⟩ | ⟨r, rfl⟩ | hcode
  · rfl
  · rfl
  · rfl
  · exact absurd hcode h

/-- A region is cut off its text whatever follows the region after it. -/
theorem cutRegion_flatten_append {r : Region} {rs : List Region} (h : IsReading (r :: rs))
    (hne : rs ≠ []) (t : Text) : openingKind (r.text ++ (Region.flatten rs ++ t)) = r.kind ∧
      cutRegion (r.text ++ (Region.flatten rs ++ t)) =
        ⟨r.text, Region.flatten rs ++ t, r.terminated⟩ := by
  obtain ⟨htext, hg, hnext, hrs⟩ := h
  obtain ⟨q, qs, rfl⟩ := List.exists_cons_of_ne_nil hne
  have hflatten : Region.flatten (q :: qs) ≠ [] := by
    rw [Region.flatten_cons]
    exact List.append_ne_nil_of_left_ne_nil hrs.1 _
  have hhead : (Region.flatten (q :: qs) ++ t).head? = (Region.flatten (q :: qs)).head? :=
    List.head?_append_of_ne_nil _ hflatten
  rw [← hhead] at hg
  by_cases hp : r.isProtected = true
  · exact cutRegion_append_of_isProtected hp hg
  · obtain ⟨kind, text, terminated⟩ := r
    obtain rfl : kind = .code := Region.kind_of_not_isProtected hp
    cases terminated with
    | false => exact hg.elim
    | true =>
      refine cutRegion_append_of_code htext hg fun _ => ?_
      have hopens : openingKind (Region.flatten (q :: qs)) ≠ .code := by
        have hq := hnext rfl q rfl
        rwa [openingKind_flatten hrs (Region.isProtected_iff.2 hq)]
      rwa [openingKind_append hopens]

/-- What is appended to a text is read with its last region. -/
theorem scan_flatten_append {rs : List Region} {r : Region} (h : IsReading (rs ++ [r]))
    (t : Text) : scan (Region.flatten (rs ++ [r]) ++ t) = rs ++ scan (r.text ++ t) := by
  induction rs with
  | nil => rw [List.nil_append, Region.flatten_cons, List.append_assoc]; rfl
  | cons q rs ih =>
    rw [List.cons_append] at h ⊢
    obtain ⟨hk, hc⟩ := cutRegion_flatten_append h (by simp) t
    rw [Region.flatten_cons, List.append_assoc,
      scan_of_ne_nil (List.append_ne_nil_of_left_ne_nil h.1 _), hk, hc, ih h.2.2.2]
    rfl

theorem prefix_scanPlaced_append (s t : Text) :
    (scanPlaced s).dropLast <+: scanPlaced (s ++ t) := by
  rcases List.eq_nil_or_concat' (scan s) with hnil | ⟨rs, r, hscan⟩
  · rw [scanPlaced, hnil]
    exact List.nil_prefix
  · have hreading := isReading_scan s
    rw [hscan] at hreading
    have happend := scan_flatten_append hreading t
    rw [← hscan, flatten_scan] at happend
    rw [scanPlaced, scanPlaced, happend, hscan, Region.place_append, Region.place_append]
    exact List.dropLast_concat.symm ▸ List.prefix_append _ _

/-! ## Statements -/

/-- A statement that ends with a semicolon of code stays at its place whatever is appended. -/
theorem getElem?_statements_append {s p : Text} {ps qs : List Text}
    (h : statements s = ps ++ p :: qs) (hp : IsTerminator s (ps.flatten.length + p.length - 1))
    (t : Text) : (statements (s ++ t))[ps.length]? = some p := by
  have hpos : 0 < p.length :=
    length_pos_of_not_isBlank ((isScript_statements s).isBlank_of_mem p (by rw [h]; simp))
  induction s using statementInduction generalizing ps with
  | hblank s hs =>
    rw [statements_of_isBlank hs] at h
    simp at h
  | hopen u hu => exact absurd hp (not_isTerminator_of_not_mem hu.1 _)
  | hclosed u s hu ih =>
    rw [statements_append hu] at h
    rw [List.append_assoc, statements_append hu]
    cases ps with
    | nil =>
      obtain ⟨rfl, -⟩ := List.cons.inj h
      rfl
    | cons v ps =>
      obtain ⟨rfl, hs⟩ : u = v ∧ statements s = ps ++ p :: qs := List.cons.inj h
      rw [List.flatten_cons, List.length_append, isTerminator_append hu] at hp
      rcases hp with hp | ⟨m, hm, hp⟩
      · omega
      · rw [show m = ps.flatten.length + p.length - 1 by omega] at hp
        exact ih hs hp

/-- Appending a text changes no region but the last one, and no statement that ends with a
semicolon of code. -/
theorem append_keeps_complete (s t : Text) :
    (scanPlaced s).dropLast <+: scanPlaced (s ++ t) ∧
    ∀ ps p qs, statements s = ps ++ p :: qs →
      IsTerminator s (ps.flatten.length + p.length - 1) →
        (statements (s ++ t))[ps.length]? = some p :=
  ⟨prefix_scanPlaced_append s t, fun _ _ _ h hp => getElem?_statements_append h hp t⟩

end SqlSnippet
