import SqlSnippet.Proofs.Lines
import SqlSnippet.Proofs.OpenEnd
import SqlSnippet.Proofs.StoredText

/-!
# Unified line breaks

A text that is read from a file has line feeds for all its line breaks. That changes its regions
in nothing but their line breaks (`scan_unifyBreaks`) : no line break is parted by the end of a
region (`not_splits_of_isReading`), and what follows a region opens or ends the same kinds of
regions with the one line break as with the other (`Region.Grammatical.unify`).
-/

namespace SqlSnippet

variable {s t : Text} {r : Region} {rs : List Region} {next : Option Char}

/-! ## Texts -/

/-- A line feed in place of a carriage return. -/
def unifyBreak (c : Char) : Char :=
  if c = '\r' then '\n' else c

theorem unifyBreak_eq_iff {c d : Char} (hn : d ≠ '\n') (hr : d ≠ '\r') :
    unifyBreak c = d ↔ c = d := by
  unfold unifyBreak
  split
  · next h => exact iff_of_false hn.symm (h ▸ hr.symm)
  · exact Iff.rfl

theorem map_unifyBreak_eq_iff {d : Char} (hn : d ≠ '\n') (hr : d ≠ '\r') :
    next.map unifyBreak = some d ↔ next = some d := by
  cases next with
  | none => simp
  | some c => simp [unifyBreak_eq_iff hn hr]

/-- A carriage return before a line feed is dropped, and any other one is made a line feed. -/
theorem unifyBreaks_cons (c : Char) (s : Text) : Text.unifyBreaks (c :: s) =
    if c = '\r' ∧ s.head? = some '\n' then Text.unifyBreaks s
    else unifyBreak c :: Text.unifyBreaks s := by
  by_cases hc : c = '\r'
  · subst hc
    cases s with
    | nil => rfl
    | cons d s =>
      by_cases hd : d = '\n'
      · subst hd
        rfl
      · rw [Text.unifyBreaks, if_neg fun h => hd (Option.some.inj h.2)]
        · rfl
        · rintro r h
          exact hd (List.cons.inj h).1
  · rw [Text.unifyBreaks, if_neg fun h => hc h.1, unifyBreak, if_neg hc]
    · exact fun _ h _ => hc h
    · exact fun h => hc h

theorem head?_unifyBreaks (s : Text) : (Text.unifyBreaks s).head? = s.head?.map unifyBreak := by
  induction s with
  | nil => rfl
  | cons c s ih =>
    rw [unifyBreaks_cons]
    split
    · next h =>
      rw [ih, h.1, h.2]
      rfl
    · rfl

theorem unifyBreaks_ne_nil (h : s ≠ []) : Text.unifyBreaks s ≠ [] := by
  obtain ⟨c, s, rfl⟩ := List.exists_cons_of_ne_nil h
  intro hnil
  have hhead := head?_unifyBreaks (c :: s)
  rw [hnil] at hhead
  cases hhead

theorem unifyBreaks_append (h : ¬Splits s t) :
    Text.unifyBreaks (s ++ t) = Text.unifyBreaks s ++ Text.unifyBreaks t := by
  induction s with
  | nil => rfl
  | cons c s ih =>
    rw [List.cons_append, unifyBreaks_cons, unifyBreaks_cons]
    by_cases hs : s = []
    · rw [hs, List.nil_append, if_neg fun hc => h ⟨by rw [hs, hc.1]; rfl, hc.2⟩,
        if_neg (by rintro ⟨-, ⟨⟩⟩)]
      rfl
    · rw [← List.singleton_append, splits_append_left hs] at h
      rw [List.head?_append_of_ne_nil _ hs, ih h]
      split <;> rfl

/-! ## Regions -/

theorem opens_unifyBreak {c : Char} :
    Opens (unifyBreak c) (next.map unifyBreak) ↔ Opens c next := by
  unfold Opens
  rw [unifyBreak_eq_iff (by decide) (by decide), unifyBreak_eq_iff (by decide) (by decide),
    unifyBreak_eq_iff (by decide) (by decide), map_unifyBreak_eq_iff (by decide) (by decide),
    map_unifyBreak_eq_iff (by decide) (by decide)]

theorem CodeText.unifyBreaks (h : CodeText s next) :
    CodeText (Text.unifyBreaks s) (next.map unifyBreak) := by
  induction s with
  | nil => exact codeText_nil _
  | cons c s ih =>
    obtain ⟨hc, hs⟩ := codeText_cons.1 h
    rw [unifyBreaks_cons]
    split
    · exact ih hs
    · refine codeText_cons.2 ⟨?_, ih hs⟩
      rw [head?_append_toList] at hc ⊢
      rwa [head?_unifyBreaks, ← Option.map_or, opens_unifyBreak]

theorem QuotedText.unifyBreaks (h : QuotedText s) : QuotedText (Text.unifyBreaks s) := by
  induction h with
  | nil => exact .nil
  | @char c s hc _ ih =>
    rw [unifyBreaks_cons]
    split
    · exact ih
    · exact .char (mt (unifyBreak_eq_iff (by decide) (by decide)).1 hc) ih
  | quote _ ih => exact .quote ih

theorem not_close_unifyBreaks {c : Char} (h : ¬(c = '*' ∧ s.head? = some '/')) :
    ¬(unifyBreak c = '*' ∧ (Text.unifyBreaks s).head? = some '/') := by
  rwa [head?_unifyBreaks, unifyBreak_eq_iff (by decide) (by decide),
    map_unifyBreak_eq_iff (by decide) (by decide)]

theorem EndsAtClose.unifyBreaks (h : EndsAtClose s) : EndsAtClose (Text.unifyBreaks s) := by
  induction s with
  | nil => exact h
  | cons c s ih =>
    rcases endsAtClose_cons.1 h with hclose | ⟨hc, hs⟩
    · rw [hclose] at h ⊢
      exact h
    · rw [unifyBreaks_cons]
      split
      · exact ih hs
      · exact endsAtClose_cons.2 (Or.inr ⟨not_close_unifyBreaks hc, ih hs⟩)

theorem not_infix_unifyBreaks (h : ¬['*', '/'] <:+: s) : ¬['*', '/'] <:+: Text.unifyBreaks s := by
  induction s with
  | nil => exact h
  | cons c s ih =>
    rw [pair_infix_cons, not_or] at h
    rw [unifyBreaks_cons]
    split
    · exact ih h.2
    · rw [pair_infix_cons, not_or]
      exact ⟨not_close_unifyBreaks h.1, ih h.2⟩

/-- The region with line feeds for all its line breaks. -/
def Region.unify (r : Region) : Region :=
  { r with text := Text.unifyBreaks r.text }

/-- What follows a region ends it with the one line break as with the other. -/
theorem Region.Grammatical.unify (h : r.Grammatical next) :
    r.unify.Grammatical (next.map unifyBreak) := by
  obtain ⟨kind, text, terminated⟩ := r
  cases kind <;> cases terminated <;> simp only [Region.unify, Region.Grammatical] at h ⊢
  · exact CodeText.unifyBreaks h
  · obtain ⟨s, rfl, hs, rfl⟩ := h
    exact ⟨_, rfl, hs.unifyBreaks, rfl⟩
  · obtain ⟨s, rfl, hs, hnext⟩ := h
    refine ⟨_, ?_, hs.unifyBreaks, ?_⟩
    · rw [unifyBreaks_append (by rintro ⟨-, ⟨⟩⟩)]
      rfl
    · rwa [Ne, map_unifyBreak_eq_iff (by decide) (by decide)]
  · obtain ⟨hopen, hn, hr, hnext⟩ := h
    rw [unifyBreaks_of_not_mem hr]
    refine ⟨hopen, hn, hr, ?_⟩
    rcases hnext with rfl | rfl | rfl <;> decide
  · obtain ⟨s, rfl, hs, rfl⟩ := h
    exact ⟨_, rfl, not_infix_unifyBreaks hs, rfl⟩
  · obtain ⟨s, rfl, hs⟩ := h
    exact ⟨_, rfl, hs.unifyBreaks⟩

/-! ## Readings -/

/-- No line break is parted by the end of a region. -/
theorem not_splits_of_isReading (h : IsReading (r :: rs)) :
    ¬Splits r.text (Region.flatten rs) := by
  obtain ⟨-, hg, hnext, hrs⟩ := h
  rintro ⟨hlast, hhead⟩
  by_cases hp : r.isProtected = true
  · rw [hhead] at hg
    exact absurd (hg.endsLine_getLast?_of_some hp _ hlast) (by decide)
  · cases rs with
    | nil => cases hhead
    | cons q qs =>
      have hq := Region.isProtected_iff.2 (hnext (Region.kind_of_not_isProtected hp) q rfl)
      rw [Region.flatten_cons, List.head?_append_of_ne_nil _ hrs.1] at hhead
      exact absurd (hrs.2.1.endsLine_head? hq _ hhead) (by decide)

theorem isReading_map_unify (h : IsReading rs) :
    Region.flatten (rs.map Region.unify) = Text.unifyBreaks (Region.flatten rs) ∧
      IsReading (rs.map Region.unify) := by
  induction rs with
  | nil => exact ⟨rfl, trivial⟩
  | cons r rs ih =>
    have hsplits := not_splits_of_isReading h
    obtain ⟨hne, hg, hnext, hrs⟩ := h
    obtain ⟨hflatten, hreading⟩ := ih hrs
    rw [List.map_cons, Region.flatten_cons, Region.flatten_cons, hflatten,
      unifyBreaks_append hsplits]
    refine ⟨rfl, unifyBreaks_ne_nil hne, ?_, fun hk q hq => ?_, hreading⟩
    · rw [hflatten, head?_unifyBreaks]
      exact hg.unify
    · rw [List.head?_map] at hq
      obtain ⟨p, hp, rfl⟩ := Option.map_eq_some_iff.1 hq
      exact hnext hk p hp

/-- A text with line feeds for its line breaks has the same regions, but for their line breaks. -/
theorem scan_unifyBreaks (s : Text) :
    scan (Text.unifyBreaks s) = (scan s).map Region.unify := by
  obtain ⟨hflatten, hreading⟩ := isReading_map_unify (isReading_scan s)
  rw [flatten_scan] at hflatten
  exact scan_eq_iff.2 ⟨hflatten, hreading⟩

end SqlSnippet
