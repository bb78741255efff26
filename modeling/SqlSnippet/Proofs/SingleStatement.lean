import SqlSnippet.Proofs.OpenEnd
import SqlSnippet.Proofs.StatementScans

/-!
# Layout of a single statement

A text of at most one statement is blank, or the statement itself, or a closed statement with white
space after it. Laid out on its own the statement lacks that white space, which is code at the end
of the text. It passes through every step of layout behind the semicolon (`exists_laidCode_append`)
and is trimmed off at last, whatever the clause words are : as no clause word ends with white space,
none is found that would not be found without it (`lengthAt?_concat_blank`). So a single statement
is laid out as the whole text is (`formatDocument_splitStatements`).
-/

namespace SqlSnippet

variable {o : LayoutOptions} {k : Clauses} {s t w x y : Text} {c e : Char} {d : Nat}

/-! ## White space behind a semicolon -/

theorem semicolon_not_blank : isBlank ';' = false := by decide

theorem trimStart_append_semicolon (x s : Text) :
    Text.trimStart (x ++ ';' :: s) = Text.trimStart x ++ ';' :: s := by
  unfold Text.trimStart
  rw [List.dropWhile_append, List.dropWhile_cons_of_neg (Bool.eq_false_iff.1 semicolon_not_blank)]
  split
  · next h => rw [List.isEmpty_iff.1 h, List.nil_append]
  · rfl

/-- What comes behind a semicolon is collapsed on its own. -/
theorem exists_collapse_append (x : Text) : ∃ y, ∀ s,
    Text.collapse (x ++ ';' :: s) = y ++ ';' :: Text.collapse s := by
  induction x with
  | nil => exact ⟨[], collapse_cons semicolon_not_blank⟩
  | cons c x ih =>
    obtain ⟨y, hy⟩ := ih
    cases hc : isBlank c with
    | false => exact ⟨c :: y, fun s => (collapse_cons hc _).trans (congrArg (c :: ·) (hy s))⟩
    | true =>
      have hstep : ∀ e r, Text.collapse (c :: e :: r) =
          if isBlank e then Text.collapse (e :: r) else ' ' :: Text.collapse (e :: r) :=
        fun e r => if_pos hc
      cases x with
      | nil =>
        refine ⟨' ' :: y, fun s => (hstep ';' s).trans ?_⟩
        rw [if_neg (Bool.eq_false_iff.1 semicolon_not_blank)]
        exact congrArg (' ' :: ·) (hy s)
      | cons e x =>
        cases he : isBlank e with
        | false =>
          refine ⟨' ' :: y, fun s => (hstep e _).trans ?_⟩
          rw [if_neg (Bool.eq_false_iff.1 he)]
          exact congrArg (' ' :: ·) (hy s)
        | true =>
          refine ⟨y, fun s => (hstep e _).trans ?_⟩
          rw [if_pos he]
          exact hy s

theorem breakCommas_of_blank {held : Text} (hw : ∀ c ∈ w, isBlank c = true) :
    breakCommas o d false held w = held ++ w := by
  induction w generalizing held with
  | nil => exact (List.append_nil held).symm
  | cons c w ih =>
    obtain ⟨hc, hw⟩ := List.forall_mem_cons.1 hw
    rw [breakCommas_hold_blank d held w hc, ih hw, List.append_assoc]
    rfl

/-- White space behind a semicolon comes after no comma, and none comes after it. -/
theorem exists_breakCommas_append (d : Nat) (skip : Bool) (held x : Text) : ∃ y, ∀ w : Text,
    (∀ c ∈ w, isBlank c = true) →
      breakCommas o d skip held (x ++ ';' :: w) = y ++ ';' :: w := by
  induction x generalizing d skip held with
  | nil =>
    refine ⟨held, fun w hw => ?_⟩
    have hcomma : (Atom.code ';').isListComma d = false := by
      rw [← Bool.not_eq_true, Atom.isListComma_iff]
      rintro ⟨-, h⟩
      cases h
    rw [List.nil_append, breakCommas_cons semicolon_not_blank hcomma, breakCommas_of_blank hw,
      List.nil_append]
  | cons c x ih =>
    simp only [List.cons_append, breakCommas]
    split
    · split
      · exact ih d true held
      · exact ih d false (held ++ [c])
    · split
      · obtain ⟨y, hy⟩ := ih d true []
        refine ⟨',' :: '\n' :: o.indent ++ y, fun w hw => ?_⟩
        rw [hy w hw, List.append_assoc]
        rfl
      · obtain ⟨y, hy⟩ := ih (if c = '(' then d + 1 else if c = ')' then d - 1 else d) false []
        refine ⟨held ++ c :: y, fun w hw => ?_⟩
        rw [hy w hw, List.append_assoc]
        rfl

/-- White space behind the semicolon that ends a stretch of code stays white space behind it. -/
theorem exists_laidCode_append (hk : k.IsTrimmed) (g : Bool) (d : Nat) (x : Text)
    (hw : ∀ c ∈ w, isBlank c = true) : ∃ b : Text, (∀ c ∈ b, isBlank c = true) ∧
      laidCode o k g d (x ++ ';' :: w) = laidCode o k g d (x ++ [';']) ++ b := by
  have hlines : ∀ x : Text, ∃ b : Text, (∀ c ∈ b, isBlank c = true) ∧
      k.breakLines (breakCommas o d false [] (Text.collapse (x ++ ';' :: w))) =
        k.breakLines (breakCommas o d false [] (Text.collapse (x ++ [';']))) ++ b := by
    intro x
    obtain ⟨y, hy⟩ := exists_collapse_append x
    obtain ⟨z, hz⟩ := exists_breakCommas_append (o := o) d false [] y
    cases w with
    | nil => exact ⟨[], nofun, (List.append_nil _).symm⟩
    | cons c w =>
      obtain ⟨hc, hw⟩ := List.forall_mem_cons.1 hw
      have hspace : Text.collapse (c :: w) = [' '] := by
        rw [collapse_cons_of_blank hc, Text.trimStart, List.dropWhile_eq_nil_iff.2 hw]
        rfl
      have hblank : isBlank ' ' = true := by decide
      refine ⟨[' '], List.forall_mem_singleton.2 hblank, ?_⟩
      have hend := hz [' '] (List.forall_mem_singleton.2 hblank)
      have hlast : ∀ e ∈ (z ++ [';']).getLast?, isBlank e = false := by
        rw [List.getLast?_concat]
        exact fun e he => Option.some.inj he ▸ semicolon_not_blank
      rw [hy, hy, hspace, hend, Text.collapse, hz [] nofun,
        ← breakLines_concat_blank hk hlast hblank, List.append_assoc]
      rfl
  cases g with
  | false => exact hlines x
  | true =>
    obtain ⟨b, hb, heq⟩ := hlines (Text.trimStart x)
    refine ⟨b, hb, ?_⟩
    rw [laidCode, laidCode, if_pos rfl, if_pos rfl, trimStart_append_semicolon,
      trimStart_append_semicolon, heq]
    rfl

/-! ## White space behind a closed statement -/

/-- Code at the end of atoms is the end of their last region. -/
theorem exists_regions_append_code (as : List Atom) : ∃ rs y, ∀ x : Text, x ≠ [] →
    regions (as ++ x.map .code) = rs ++ [⟨.code, y ++ x, true⟩] := by
  induction as with
  | nil =>
    refine ⟨[], [], fun x hx => ?_⟩
    induction x with
    | nil => exact absurd rfl hx
    | cons c x ih =>
      cases x with
      | nil => rfl
      | cons e x => exact congrArg (Region.consCode c) (ih (List.cons_ne_nil e x))
  | cons a as ih =>
    obtain ⟨rs, y, h⟩ := ih
    cases a with
    | literal r => exact ⟨r :: rs, y, fun x hx => congrArg (r :: ·) (h x hx)⟩
    | code c =>
      by_cases hrs : rs = []
      · subst hrs
        exact ⟨[], c :: y, fun x hx => congrArg (Region.consCode c) (h x hx)⟩
      · exact ⟨Region.consCode c rs, y, fun x hx =>
          (congrArg (Region.consCode c) (h x hx)).trans (Region.consCode_append hrs c _)⟩

/-- Regions are laid out one after another. -/
theorem exists_laidAtoms_append (before : Option Region) (d : Nat) (rs : List Region) :
    ∃ before' d', ∀ qs, laidAtoms o k before d (rs ++ qs) =
      laidAtoms o k before d rs ++ laidAtoms o k before' d' qs := by
  induction rs generalizing before d with
  | nil => exact ⟨before, d, fun qs => rfl⟩
  | cons r rs ih =>
    simp only [List.cons_append, laidAtoms]
    split
    · obtain ⟨before', d', h⟩ := ih (some r) d
      exact ⟨before', d', fun qs => congrArg (_ :: ·) (h qs)⟩
    · obtain ⟨before', d', h⟩ := ih none (depthAfter d r.text)
      exact ⟨before', d', fun qs => by rw [h, List.append_assoc]⟩

theorem trimAtoms_append_blanks {as b : List Atom} (hb : ∀ a ∈ b, a.isBlank = true) :
    trimAtoms (as ++ b) = trimAtoms as := by
  have hrev : ∀ a ∈ b.reverse, a.isBlank = true := fun a ha => hb a (List.mem_reverse.1 ha)
  unfold trimAtoms
  rw [List.dropWhile_append]
  split
  · next h => rw [List.isEmpty_iff.1 h, List.dropWhile_eq_nil_iff.2 hb]
  · rw [List.rdropWhile, List.reverse_append, List.dropWhile_append_of_pos hrev]
    rfl

/-- White space behind a closed statement is trimmed off. -/
theorem formatText_append_blanks (ht : IsClosed t) (hw : ∀ c ∈ w, isBlank c = true) :
    formatText o (t ++ w) = formatText o t := by
  have hatoms := atoms_append ht w
  obtain ⟨as, has, -⟩ := ht
  obtain ⟨rs, y, hregions⟩ := exists_regions_append_code as
  have hscan : scan t = rs ++ [⟨.code, y ++ [';'], true⟩] ∧
      scan (t ++ w) = rs ++ [⟨.code, y ++ ';' :: w, true⟩] := by
    rw [scan_eq_regions, scan_eq_regions, hatoms, atoms_of_blank hw, has, List.append_assoc]
    exact ⟨hregions [';'] (List.cons_ne_nil _ _), hregions (';' :: w) (List.cons_ne_nil _ _)⟩
  obtain ⟨before, d, hlaid⟩ := exists_laidAtoms_append (o := o)
    (k := Clauses.ofWords o.clauseWords) none 0 rs
  obtain ⟨b, hb, hcode⟩ := exists_laidCode_append (o := o) (isTrimmed_ofWords o.clauseWords)
    (before.any (·.kind == .lineComment)) d y hw
  have hone : ∀ x, laidAtoms o (Clauses.ofWords o.clauseWords) before d [⟨.code, x, true⟩] =
      (laidCode o (Clauses.ofWords o.clauseWords) (before.any (·.kind == .lineComment)) d x).map
        .code := fun x => List.append_nil _
  rw [formatText_eq_flatten, formatText_eq_flatten, hscan.1, hscan.2, hlaid, hlaid, hone, hone,
    hcode, List.map_append, ← List.append_assoc,
    trimAtoms_append_blanks (List.forall_mem_map.2 hb)]

/-! ## Single statements -/

theorem formatText_of_isBlank (h : Text.isBlank s = true) : formatText o s = [] := by
  have hfilter := filter_atoms_formatText o s
  have hlast : ∀ a ∈ (atoms (formatText o s)).getLast?, a.isBlank = false := by
    rw [atoms_formatText]
    exact isBlank_getLast?_trimAtoms _
  have hnone : (atoms s).filter (!·.isBlank) = [] := by
    rw [← map_atom_outlineAfter false]
    exact congrArg (List.map Cell.atom) (outline_eq_nil_iff.2 h)
  have hnil : atoms (formatText o s) = [] := by
    by_contra hne
    have hend := List.getLast?_eq_some_getLast hne
    refine List.filter_eq_nil_iff.1 (hfilter.trans hnone) _ (List.getLast_mem hne) ?_
    rw [hlast _ hend]
    rfl
  rw [← flatten_atoms (formatText o s), hnil]
  rfl

/-- A script of at most one statement is laid out as a text. -/
theorem formatScript_eq_formatText (h : (statements s).length ≤ 1) :
    formatScript o s = formatText o s := by
  induction s using statementInduction with
  | hblank s hs => rw [formatScript_of_isBlank hs, formatText_of_isBlank hs]
  | hopen t ht => exact formatScript_of_isOpen ht
  | hclosed t s ht ih =>
    rw [statements_append ht, List.length_cons] at h
    have hnil : statements s = [] := List.eq_nil_of_length_eq_zero (by omega)
    have hblank : Text.isBlank s = true := by
      by_contra hs
      exact statements_ne_nil (Bool.eq_false_iff.2 hs) hnil
    rw [formatScript_append ht, if_pos hnil, List.append_nil,
      formatText_append_blanks ht (List.all_eq_true.1 hblank)]

/-! ## Both ways of layout -/

/-- A document of at most one statement is laid out as a whole and statement by statement alike. -/
theorem formatDocument_splitStatements (o : LayoutOptions) (s : Text)
    (h : (statements s).length ≤ 1) (split split' : Bool) :
    formatDocument { o with splitStatements := split } s =
      formatDocument { o with splitStatements := split' } s := by
  have htext : ∀ b, (formatDocument { o with splitStatements := b } s).text = formatText o s := by
    intro b
    have hone : formatText { o with splitStatements := b } s = formatText o s := by
      refine formatText_congr_options ?_ ?_ s <;> rfl
    rw [formatDocument_text, formatScript_eq_formatText h, hone, ite_self]
  have hwhole : ∀ b, formatDocument { o with splitStatements := b } s =
      ⟨formatText o s, formatText o s != s, warnings s⟩ := by
    intro b
    rw [← htext b]
    rfl
  rw [hwhole, hwhole]

/-- White space and a line break come behind the one statement, which ends with a clause word that
a semicolon follows. -/
theorem formatDocument_splitStatements_trailing :
    let o := LayoutOptions.compact
    let s := "select a ,b -- c;\n  where ; \n".toList
    (statements s).length ≤ 1 ∧ formatDocument { o with splitStatements := true } s =
      formatDocument { o with splitStatements := false } s := by
  intro o s
  have hone : (statements s).length ≤ 1 := by decide +kernel
  exact ⟨hone, formatDocument_splitStatements o s hone true false⟩

end SqlSnippet
