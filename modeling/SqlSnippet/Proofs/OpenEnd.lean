import Mathlib.Data.List.Infix
import SqlSnippet.Proofs.DocumentLayout

/-!
# Texts that end open

A text can end inside a string or a block comment that is not closed (`EndsOpen`). A line feed put
at the end of any other text is white space after it, so layout drops it
(`formatDocument_lineFeed`). At the end of an open text it becomes a part of the string or comment
(`EndsOpen.lineFeed`), where layout keeps it (`EndsOpen.formatDocument_lineFeed`).

Layout neither opens nor closes the end of a text (`unterminated_formatDocument`), and what it
makes of a text that does not end open never ends with a line feed (`getLast?_formatDocument`).
-/

namespace SqlSnippet

variable {o : LayoutOptions} {s t : Text} {as : List Atom} {r : Region}

/-! ## Open ends -/

/-- The text ends inside `r`, which is not closed, and the atoms `as` come before that. -/
structure EndsOpen (s : Text) (as : List Atom) (r : Region) : Prop where
  atoms_eq : atoms s = as ++ [.literal r]
  unclosed : r.terminated = false

theorem literal_mem_atoms_iff : .literal r ∈ atoms s ↔ r ∈ scan s ∧ r.isProtected = true := by
  rw [atoms, List.mem_flatMap]
  constructor
  · rintro ⟨q, hq, hr⟩
    unfold Region.atoms at hr
    split at hr
    · next hp =>
      obtain rfl := Atom.literal.inj (List.mem_singleton.1 hr)
      exact ⟨hq, hp⟩
    · obtain ⟨c, -, hc⟩ := List.mem_map.1 hr
      cases hc
  · rintro ⟨hr, hp⟩
    exact ⟨r, hr, by rw [Region.atoms, if_pos hp]; exact List.mem_singleton_self _⟩

theorem unterminated_eq_nil_iff_scan :
    unterminated s = [] ↔ ∀ r ∈ scan s, r.terminated = true := by
  rw [unterminated, List.filter_eq_nil_iff, scanPlaced]
  conv_rhs => rw [← Region.map_snd_place 0 (scan s)]
  rw [List.forall_mem_map]
  simp

theorem unterminated_eq_nil_iff :
    unterminated s = [] ↔ ∀ r, .literal r ∈ atoms s → r.terminated = true := by
  rw [unterminated_eq_nil_iff_scan]
  refine ⟨fun h r hr => h r (literal_mem_atoms_iff.1 hr).1, fun h r hr => ?_⟩
  by_contra ht
  obtain ⟨as, bs, hscan⟩ := List.append_of_mem hr
  have hgrammar := (isReading_iff.1 (isReading_scan s)).2.1 as r bs hscan
  have hp := (hgrammar.of_not_terminated (Bool.eq_false_iff.2 ht)).1
  exact ht (h r (literal_mem_atoms_iff.2 ⟨hr, hp⟩))

/-- Texts that differ in the white space of their code end alike. -/
theorem unterminated_congr
    (h : (atoms s).filter (!·.isBlank) = (atoms t).filter (!·.isBlank)) :
    unterminated s = [] ↔ unterminated t = [] := by
  have hmem : ∀ u r, .literal r ∈ atoms u ↔ .literal r ∈ (atoms u).filter (!·.isBlank) :=
    fun u r => (List.mem_filter.trans (and_iff_left rfl)).symm
  rw [unterminated_eq_nil_iff, unterminated_eq_nil_iff]
  simp only [hmem, h]

theorem EndsOpen.unterminated_ne_nil (h : EndsOpen s as r) : unterminated s ≠ [] := by
  intro hnil
  have hterminated := unterminated_eq_nil_iff.1 hnil r (by rw [h.atoms_eq]; simp)
  rw [h.unclosed] at hterminated
  cases hterminated

/-- Only the last atom of a text can be unclosed. -/
theorem exists_endsOpen (h : unterminated s ≠ []) : ∃ as r, EndsOpen s as r := by
  rw [Ne, unterminated_eq_nil_iff] at h
  push Not at h
  obtain ⟨r, hr, ht⟩ := h
  have ht := Bool.eq_false_iff.2 ht
  obtain ⟨as, bs, hatoms⟩ := List.append_of_mem hr
  have hfit := isFit_atoms s
  rw [hatoms] at hfit
  obtain ⟨hlast, hbs⟩ := (isFit_append.1 hfit).2
  have hnext := (hlast.2.of_not_terminated ht).2
  cases bs with
  | nil => exact ⟨as, r, hatoms, ht⟩
  | cons b bs =>
    rw [head?_flatten_cons hbs.1.text_ne_nil, Option.or_none, List.head?_eq_none_iff] at hnext
    exact absurd hnext hbs.1.text_ne_nil

theorem EndsOpen.text_ne_nil (h : EndsOpen s as r) : r.text ≠ [] := by
  have hfit := isFit_atoms s
  rw [h.atoms_eq] at hfit
  exact (isFit_append.1 hfit).2.1.text_ne_nil

theorem EndsOpen.eq_append (h : EndsOpen s as r) : s = Atom.flatten as ++ r.text := by
  rw [← flatten_atoms s, h.atoms_eq, Atom.flatten_append]
  exact congrArg _ (List.append_nil _)

theorem EndsOpen.ne_nil (h : EndsOpen s as r) : s ≠ [] := by
  rw [h.eq_append]
  exact List.append_ne_nil_of_right_ne_nil _ h.text_ne_nil

/-- A quote that is not closed makes the rest of the text a string. -/
theorem endsOpen_quote (h : QuotedText s) :
    EndsOpen ('\'' :: s) [] ⟨.string, '\'' :: s, false⟩ := by
  have hscan : scan ('\'' :: s) = [⟨.string, '\'' :: s, false⟩] :=
    scan_eq_iff.2 ⟨List.append_nil _, List.cons_ne_nil _ _, ⟨s, rfl, h, rfl⟩, nofun, trivial⟩
  refine ⟨?_, rfl⟩
  rw [atoms, hscan]
  rfl

/-! ## A line feed at the end -/

/-- The region, and a line feed after it. -/
def Region.lineFeed (r : Region) : Region :=
  { r with text := r.text ++ ['\n'] }

/-- A line feed can follow what is closed. -/
theorem Atom.Fits.lineFeed {a : Atom} (h : a.Fits none)
    (ha : ∀ r, a = .literal r → r.terminated = true) : a.Fits (some '\n') := by
  cases a with
  | code c =>
    rintro (hc | ⟨-, hn⟩ | ⟨-, hn⟩)
    · exact h (Or.inl hc)
    · cases hn
    · cases hn
  | literal r =>
    obtain ⟨kind, text, terminated⟩ := r
    obtain rfl : terminated = true := ha _ rfl
    obtain ⟨hp, hg⟩ := h
    refine ⟨hp, ?_⟩
    cases kind with
    | code => cases hp
    | string =>
      obtain ⟨s, hs, hq, -⟩ := hg
      exact ⟨s, hs, hq, by decide⟩
    | lineComment => exact ⟨hg.1, hg.2.1, hg.2.2.1, Or.inr (Or.inl rfl)⟩
    | blockComment => exact hg

/-- After a text that does not end open, a line feed is white space in code. -/
theorem atoms_lineFeed (h : unterminated s = []) :
    atoms (s ++ ['\n']) = atoms s ++ [.code '\n'] := by
  have hclosed := unterminated_eq_nil_iff.1 h
  have hlineFeed : IsFit (some '\n') (atoms s) := by
    have hfit := isFit_atoms s
    generalize atoms s = as at hclosed hfit
    induction as with
    | nil => trivial
    | cons a as ih =>
      obtain ⟨ha, has⟩ := hfit
      refine ⟨?_, ih (fun r hr => hclosed r (List.mem_cons_of_mem a hr)) has⟩
      cases hhead : (Atom.flatten as).head? with
      | none =>
        rw [hhead] at ha
        exact ha.lineFeed fun r hr => hclosed r (hr ▸ List.mem_cons_self)
      | some c => rwa [hhead] at ha
  have hfit : IsFit none (atoms s ++ [.code '\n']) :=
    isFit_append.2 ⟨hlineFeed, not_opens_of_isBlank (by decide) _, trivial⟩
  have hatoms := atoms_flatten hfit
  rwa [Atom.flatten_append, flatten_atoms] at hatoms

theorem outline_lineFeed (h : unterminated s = []) : outline (s ++ ['\n']) = outline s := by
  have hblank : ∀ a ∈ [Atom.code '\n'], a.isBlank = true := List.forall_mem_singleton.2 (by decide)
  rw [outline, atoms_lineFeed h, outlineAfter_append, (outlineAfter_of_blank hblank _).1,
    List.append_nil]
  rfl

theorem QuotedText.lineFeed {s : Text} (h : QuotedText s) : QuotedText (s ++ ['\n']) := by
  induction h with
  | nil => exact .char (by decide) .nil
  | char hc _ ih => exact .char hc ih
  | quote _ ih => exact .quote ih

/-- A line feed goes on with what is not closed. -/
theorem Region.Grammatical.lineFeed (h : r.Grammatical none) (ht : r.terminated = false) :
    r.lineFeed.Grammatical none := by
  obtain ⟨kind, text, terminated⟩ := r
  obtain rfl : terminated = false := ht
  cases kind with
  | code => exact h
  | string =>
    obtain ⟨s, rfl : text = _, hq, -⟩ := h
    exact ⟨s ++ ['\n'], rfl, hq.lineFeed, rfl⟩
  | lineComment => exact h
  | blockComment =>
    obtain ⟨s, rfl : text = _, hno, -⟩ := h
    refine ⟨s ++ ['\n'], rfl, fun hclose => ?_, rfl⟩
    rcases List.infix_concat_iff.1 hclose with hsuffix | hinfix
    · rcases List.suffix_concat_iff.1 hsuffix with hnil | ⟨t, ht, -⟩
      · cases hnil
      · have hlast := congrArg List.getLast? ht
        rw [List.getLast?_concat] at hlast
        cases hlast
    · exact hno hinfix

theorem EndsOpen.lineFeed (h : EndsOpen s as r) : EndsOpen (s ++ ['\n']) as r.lineFeed := by
  refine ⟨?_, h.unclosed⟩
  have hfit := isFit_atoms s
  rw [h.atoms_eq] at hfit
  obtain ⟨has, ⟨hp, hg⟩, -⟩ := isFit_append.1 hfit
  have hhead : (Atom.flatten [.literal r.lineFeed]).head? = (Atom.flatten [.literal r]).head? := by
    have htext : ∀ q : Region, Atom.flatten [.literal q] = q.text := fun q => List.append_nil _
    rw [htext, htext]
    exact List.head?_append_of_ne_nil _ h.text_ne_nil
  have hfit' : IsFit none (as ++ [.literal r.lineFeed]) :=
    isFit_append.2 ⟨hhead ▸ has, ⟨hp, hg.lineFeed h.unclosed⟩, trivial⟩
  rw [h.eq_append, List.append_assoc, ← atoms_flatten hfit', Atom.flatten_append]
  exact congrArg (fun x => atoms (_ ++ x)) (List.append_nil _).symm

/-! ## Layout of a text -/

theorem unspaceFirst_append_literal (cs : List Cell) (g : Bool) : ∃ g', ∀ r,
    unspaceFirst (cs ++ [⟨g, .literal r⟩]) = unspaceFirst cs ++ [⟨g', .literal r⟩] := by
  cases cs with
  | nil => exact ⟨false, fun r => rfl⟩
  | cons c cs => exact ⟨g, fun r => rfl⟩

/-- A string or comment at the end of a text is laid out as it is, and what comes before it does
not depend on it. -/
theorem exists_formatText_eq_append (o : LayoutOptions)
    (hk : (Clauses.ofWords o.clauseWords).IsSolid) (as : List Atom) :
    ∃ x, ∀ s r, atoms s = as ++ [.literal r] → formatText o s = x ++ r.text := by
  obtain ⟨g, hg⟩ := settle_append_literal none 0 (outlineAfter false as) (pendingAfter false as)
  obtain ⟨g', hg'⟩ := unspaceFirst_append_literal (settle none 0 (outlineAfter false as)) g
  obtain ⟨b, -, hrender⟩ := render_append_literal (o := o) (k := Clauses.ofWords o.clauseWords)
    none 0 (settled (outlineAfter false as)) g'
  refine ⟨Atom.flatten (render o (Clauses.ofWords o.clauseWords) none 0
    (settled (outlineAfter false as)) ++ b), fun s r h => ?_⟩
  have houtline : outline s =
      outlineAfter false as ++ [⟨pendingAfter false as, .literal r⟩] := by
    rw [outline, h, outlineAfter_append]
    rfl
  have hsettled : settled (outline s) =
      settled (outlineAfter false as) ++ [⟨g', .literal r⟩] := by
    rw [houtline, settled, hg, hg', settled]
  rw [formatText_eq_render o s hk, hsettled, hrender, ← List.append_assoc, Atom.flatten_append]
  exact congrArg _ (List.append_nil _)

theorem formatText_lineFeed (hk : (Clauses.ofWords o.clauseWords).IsSolid)
    (h : unterminated s = []) : formatText o (s ++ ['\n']) = formatText o s := by
  rw [formatText_eq_render o _ hk, formatText_eq_render o s hk, outline_lineFeed h]

theorem EndsOpen.formatText_lineFeed (hk : (Clauses.ofWords o.clauseWords).IsSolid)
    (h : EndsOpen s as r) : formatText o (s ++ ['\n']) = formatText o s ++ ['\n'] := by
  obtain ⟨x, hx⟩ := exists_formatText_eq_append o hk as
  rw [hx s r h.atoms_eq, hx _ _ h.lineFeed.atoms_eq, List.append_assoc]
  rfl

theorem unterminated_formatText (o : LayoutOptions) :
    unterminated (formatText o s) = [] ↔ unterminated s = [] :=
  unterminated_congr (filter_atoms_formatText o s)

/-- What layout makes of a text that does not end open ends with no white space. -/
theorem getLast?_formatText (h : unterminated s = []) :
    (formatText o s).getLast? ≠ some '\n' := by
  have hclosed := unterminated_eq_nil_iff.1 ((unterminated_formatText o).2 h)
  have hlast : ∀ a ∈ (atoms (formatText o s)).getLast?, a.isBlank = false := by
    rw [atoms_formatText]
    exact isBlank_getLast?_trimAtoms _
  have hfit := isFit_atoms (formatText o s)
  rw [← flatten_atoms (formatText o s)]
  rcases List.eq_nil_or_concat' (atoms (formatText o s)) with hnil | ⟨as, a, has⟩
  · rw [hnil]
    nofun
  · rw [has] at hfit hlast hclosed ⊢
    have ha := (isFit_append.1 hfit).2.1
    have htext : Atom.flatten [a] = a.text := List.append_nil _
    rw [Atom.flatten_append, htext, List.getLast?_append_of_ne_nil _ ha.text_ne_nil]
    rw [List.getLast?_concat] at hlast
    intro hbreak
    cases a with
    | code c =>
      obtain rfl := Option.some.inj hbreak
      exact absurd (hlast _ rfl) (by decide)
    | literal r =>
      exact absurd (ha.2.endsLine_getLast? ha.1 (hclosed r (by simp)) _ hbreak) (by decide)

/-! ## Layout of a script -/

theorem EndsOpen.not_isBlank (h : EndsOpen s as r) : Text.isBlank s = false := by
  refine Bool.eq_false_iff.2 fun hblank => ?_
  have hatoms := h.atoms_eq
  rw [atoms_of_blank (List.all_eq_true.1 hblank)] at hatoms
  have hmem : Atom.literal r ∈ s.map Atom.code := by
    rw [hatoms]
    simp
  obtain ⟨c, -, hc⟩ := List.mem_map.1 hmem
  cases hc

/-- A text ends as its part after a closed statement does. -/
theorem endsOpen_append_iff (ht : IsClosed t) :
    EndsOpen (t ++ s) as r ↔ ∃ bs, EndsOpen s bs r ∧ as = atoms t ++ bs := by
  constructor
  · rintro ⟨hatoms, hopen⟩
    rw [atoms_append ht] at hatoms
    rcases List.eq_nil_or_concat' (atoms s) with hnil | ⟨bs, a, hbs⟩
    · obtain ⟨b, hb, -⟩ := ht
      rw [hnil, List.append_nil, hb] at hatoms
      cases (List.cons.inj (List.append_inj' hatoms rfl).2).1
    · rw [hbs, ← List.append_assoc] at hatoms
      obtain ⟨has, ha⟩ := List.append_inj' hatoms rfl
      obtain rfl := (List.cons.inj ha).1
      exact ⟨bs, ⟨hbs, hopen⟩, has.symm⟩
  · rintro ⟨bs, ⟨hatoms, hopen⟩, rfl⟩
    exact ⟨by rw [atoms_append ht, hatoms, List.append_assoc], hopen⟩

theorem unterminated_append (ht : IsClosed t) :
    unterminated (t ++ s) = [] ↔ unterminated s = [] := by
  rw [← not_iff_not]
  constructor
  · intro h
    obtain ⟨as, r, hopen⟩ := exists_endsOpen h
    obtain ⟨bs, hbs, -⟩ := (endsOpen_append_iff ht).1 hopen
    exact hbs.unterminated_ne_nil
  · intro h
    obtain ⟨as, r, hopen⟩ := exists_endsOpen h
    exact ((endsOpen_append_iff ht).2 ⟨as, hopen, rfl⟩).unterminated_ne_nil

theorem IsClosed.unterminated_eq_nil (ht : IsClosed t) : unterminated t = [] := by
  have h := (unterminated_append (s := []) ht).2 (by rw [unterminated, scanPlaced, scan_nil]; rfl)
  rwa [List.append_nil] at h

theorem formatScript_of_isBlank (h : Text.isBlank s = true) : formatScript o s = [] := by
  rw [formatScript_eq_flatten, statements_of_isBlank h]
  rfl

theorem formatScript_of_isOpen (h : IsOpen s) : formatScript o s = formatText o s := by
  rw [formatScript_eq_flatten, statements_of_isOpen h]
  exact List.append_nil _

/-- A script is its first statement and, after an empty line, what follows it. -/
theorem formatScript_append (ht : IsClosed t) : formatScript o (t ++ s) =
    formatText o t ++ if statements s = [] then [] else ['\n', '\n'] ++ formatScript o s := by
  rw [formatScript_eq_flatten, formatScript_eq_flatten, statements_append ht]
  cases statements s with
  | nil => rfl
  | cons u us => simp [spaceOut]

theorem isBlank_append_lineFeed : Text.isBlank (s ++ ['\n']) = Text.isBlank s := by
  have hblank : Text.isBlank ['\n'] = true := by decide
  unfold Text.isBlank at hblank ⊢
  rw [List.all_append, hblank, Bool.and_true]

theorem map_formatText_statements_lineFeed (hk : (Clauses.ofWords o.clauseWords).IsSolid)
    (h : unterminated s = []) :
    (statements (s ++ ['\n'])).map (formatText o) = (statements s).map (formatText o) := by
  induction s using statementInduction with
  | hblank s hs =>
    rw [statements_of_isBlank hs, statements_of_isBlank (isBlank_append_lineFeed.trans hs)]
  | hopen t ht =>
    have hlineFeed : IsOpen (t ++ ['\n']) := by
      refine ⟨fun hmem => ?_, isBlank_append_lineFeed.trans ht.2⟩
      rw [atoms_lineFeed h, List.mem_append, List.mem_singleton] at hmem
      rcases hmem with hmem | hmem
      · exact ht.1 hmem
      · cases hmem
    rw [statements_of_isOpen ht, statements_of_isOpen hlineFeed, List.map_singleton,
      List.map_singleton, formatText_lineFeed hk h]
  | hclosed t s ht ih =>
    rw [List.append_assoc, statements_append ht, statements_append ht, List.map_cons,
      List.map_cons, ih ((unterminated_append ht).1 h)]

theorem formatScript_lineFeed (hk : (Clauses.ofWords o.clauseWords).IsSolid)
    (h : unterminated s = []) : formatScript o (s ++ ['\n']) = formatScript o s := by
  rw [formatScript, formatScript, map_formatText_statements_lineFeed hk h]

theorem statements_ne_nil (h : Text.isBlank s = false) : statements s ≠ [] := by
  induction s using statementInduction with
  | hblank s hs => exact absurd (hs.symm.trans h) (by decide)
  | hopen t ht => rw [statements_of_isOpen ht]; exact List.cons_ne_nil _ _
  | hclosed t s ht => rw [statements_append ht]; exact List.cons_ne_nil _ _

theorem EndsOpen.formatScript_lineFeed (hk : (Clauses.ofWords o.clauseWords).IsSolid)
    (h : EndsOpen s as r) : formatScript o (s ++ ['\n']) = formatScript o s ++ ['\n'] := by
  induction s using statementInduction generalizing as with
  | hblank s hs => exact absurd (hs.symm.trans h.not_isBlank) (by decide)
  | hopen t ht =>
    have hlineFeed : IsOpen (t ++ ['\n']) := by
      refine ⟨fun hmem => ht.1 ?_, isBlank_append_lineFeed.trans ht.2⟩
      rw [h.lineFeed.atoms_eq] at hmem
      rw [h.atoms_eq]
      simpa using hmem
    rw [formatScript_of_isOpen ht, formatScript_of_isOpen hlineFeed, h.formatText_lineFeed hk]
  | hclosed t s ht ih =>
    obtain ⟨bs, hs, -⟩ := (endsOpen_append_iff ht).1 h
    rw [List.append_assoc, formatScript_append ht, formatScript_append ht,
      if_neg (statements_ne_nil hs.not_isBlank),
      if_neg (statements_ne_nil (isBlank_append_lineFeed.trans hs.not_isBlank)), ih hs,
      List.append_assoc, List.append_assoc]

theorem filter_atoms_statements (s : Text) : (atoms s).filter (!·.isBlank) =
    (statements s).flatMap fun t => (atoms t).filter (!·.isBlank) := by
  induction s using statementInduction with
  | hblank s hs =>
    rw [statements_of_isBlank hs, ← map_atom_outlineAfter false]
    exact congrArg (List.map Cell.atom) (outline_eq_nil_iff.2 hs)
  | hopen t ht => rw [statements_of_isOpen ht, List.flatMap_singleton]
  | hclosed t s ht ih =>
    rw [atoms_append ht, statements_append ht, List.filter_append, List.flatMap_cons, ih]

/-- Layout of a script keeps the atoms that are not white space. -/
theorem filter_atoms_formatScript (o : LayoutOptions) (s : Text) :
    (atoms (formatScript o s)).filter (!·.isBlank) = (atoms s).filter (!·.isBlank) := by
  have hspace : ∀ t, (atoms (['\n', '\n'] ++ t)).filter (!·.isBlank) =
      (atoms t).filter (!·.isBlank) := by
    intro t
    rw [atoms_append_of_blank isBlank_of_mem_newlines, List.filter_append]
    rfl
  rw [filter_atoms_statements, filter_atoms_statements s, statements_formatScript,
    flatMap_spaceOut hspace, List.flatMap_map]
  exact List.flatMap_congr fun t _ => filter_atoms_formatText o t

/-- Something is left of every script that has a statement. -/
theorem formatScript_eq_nil_iff : formatScript o s = [] ↔ statements s = [] := by
  constructor
  · intro hnil
    have hstatements := statements_formatScript o s
    rw [hnil, statements_of_isBlank rfl] at hstatements
    cases hcases : statements s with
    | nil => rfl
    | cons u us =>
      rw [hcases] at hstatements
      cases hstatements
  · intro hnil
    rw [formatScript_eq_flatten, hnil]
    rfl

theorem getLast?_formatScript (h : unterminated s = []) :
    (formatScript o s).getLast? ≠ some '\n' := by
  induction s using statementInduction with
  | hblank s hs =>
    rw [formatScript_of_isBlank hs]
    nofun
  | hopen t ht =>
    rw [formatScript_of_isOpen ht]
    exact getLast?_formatText h
  | hclosed t s ht ih =>
    rw [formatScript_append ht]
    split
    · rw [List.append_nil]
      exact getLast?_formatText ht.unterminated_eq_nil
    · next hs =>
      rw [← List.append_assoc,
        List.getLast?_append_of_ne_nil _ (mt formatScript_eq_nil_iff.1 hs)]
      exact ih ((unterminated_append ht).1 h)

/-! ## Layout of a document -/

theorem formatDocument_text (o : LayoutOptions) (s : Text) : (formatDocument o s).text =
    if o.splitStatements then formatScript o s else formatText o s :=
  rfl

theorem text_formatDocument_formatDocument (hk : (Clauses.ofWords o.clauseWords).IsSolid) :
    (formatDocument o (formatDocument o s).text).text = (formatDocument o s).text := by
  simp only [formatDocument_text]
  split
  · exact formatScript_formatScript o s hk
  · exact formatText_formatText o s hk

theorem filter_atoms_formatDocument (o : LayoutOptions) (s : Text) :
    (atoms (formatDocument o s).text).filter (!·.isBlank) = (atoms s).filter (!·.isBlank) := by
  rw [formatDocument_text]
  split
  · exact filter_atoms_formatScript o s
  · exact filter_atoms_formatText o s

/-- Without a string or comment that is not closed, a line feed at the end of a text is dropped. -/
theorem formatDocument_lineFeed (hk : (Clauses.ofWords o.clauseWords).IsSolid)
    (h : unterminated s = []) :
    (formatDocument o (s ++ ['\n'])).text = (formatDocument o s).text := by
  rw [formatDocument_text, formatDocument_text, formatScript_lineFeed hk h,
    formatText_lineFeed hk h]

/-- A line feed at the end of a text that ends open is kept. -/
theorem EndsOpen.formatDocument_lineFeed (hk : (Clauses.ofWords o.clauseWords).IsSolid)
    (h : EndsOpen s as r) :
    (formatDocument o (s ++ ['\n'])).text = (formatDocument o s).text ++ ['\n'] := by
  rw [formatDocument_text, formatDocument_text, h.formatScript_lineFeed hk,
    h.formatText_lineFeed hk]
  split <;> rfl

theorem getLast?_formatDocument (h : unterminated s = []) :
    (formatDocument o s).text.getLast? ≠ some '\n' := by
  rw [formatDocument_text]
  split
  · exact getLast?_formatScript h
  · exact getLast?_formatText h

/-- Layout neither opens nor closes the end of a text. -/
theorem unterminated_formatDocument (o : LayoutOptions) :
    unterminated (formatDocument o s).text = [] ↔ unterminated s = [] :=
  unterminated_congr (filter_atoms_formatDocument o s)

/-- Layout leaves what is not closed at the end of a text as it is. -/
theorem EndsOpen.exists_formatDocument (o : LayoutOptions) (h : EndsOpen s as r) :
    ∃ bs, EndsOpen (formatDocument o s).text bs r := by
  obtain ⟨bs, q, hq⟩ :=
    exists_endsOpen ((unterminated_formatDocument o).not.2 h.unterminated_ne_nil)
  have hfilter := filter_atoms_formatDocument o s
  rw [hq.atoms_eq, h.atoms_eq, List.filter_append, List.filter_append] at hfilter
  obtain rfl := Atom.literal.inj (List.cons.inj (List.append_inj' hfilter rfl).2).1
  exact ⟨bs, hq⟩

end SqlSnippet
