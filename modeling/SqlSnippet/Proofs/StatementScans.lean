import SqlSnippet.Proofs.StatementCuts

/-!
# Scans of statements

A statement is read on its own as it is read in its script. The regions that a scan of it finds are
those of the script that lie in it, moved to its start, with code cut at both ends and strings and
comments whole (`IsScannedAlone`). `statements_scannedAlone` : this holds of every statement of
every text, so a statement is one statement, and putting the statements together gives the same
statements.

Atoms can be cut apart anywhere. The regions of two runs of atoms are those of each, but for code
on both sides of the seam, which becomes one region (`regions_append`). So the regions of a run are
the window onto the regions of the whole that its text spans (`window_regions`), and the atoms of a
statement are such a run (`exists_atoms_eq_of_mem_statements`).
-/

namespace SqlSnippet

variable {as bs : List Atom} {o a b : Nat}

/-! ## Windows -/

/-- Whether a placed region shares a character with the span from `a` to `b`. -/
def Region.overlaps (a b : Nat) (q : Nat × Region) : Bool :=
  decide (q.1 < b) && decide (a < q.1 + q.2.text.length)

/-- A placed region as it lies in the span from `a` to `b` : offsets count from `a`, and code is cut
at both ends of the span. A string or a comment is not cut. -/
def Region.clip (a b : Nat) (q : Nat × Region) : Nat × Region :=
  (q.1 - a, if q.2.isProtected then q.2 else
    { q.2 with text := (q.2.text.take (b - q.1)).drop (a - q.1) })

/-- The placed regions that overlap the span from `a` to `b`, as they lie in it. -/
def Region.window (a b : Nat) (qs : List (Nat × Region)) : List (Nat × Region) :=
  (qs.filter (Region.overlaps a b)).map (Region.clip a b)

/-- The text `p` stands at the offset `a` of `s`, and a scan of `p` alone finds what the scan of
`s` finds there, with the strings and comments whole. -/
structure IsScannedAlone (s : Text) (a : Nat) (p : Text) : Prop where
  stands : p <+: s.drop a
  scan : scanPlaced p = Region.window a (a + p.length) (scanPlaced s)
  whole : ∀ q ∈ scanPlaced s, q.2.isProtected = true →
    Region.overlaps a (a + p.length) q = true → a ≤ q.1 ∧ q.1 + q.2.text.length ≤ a + p.length

namespace Region

theorem overlaps_iff {q : Nat × Region} :
    overlaps a b q = true ↔ q.1 < b ∧ a < q.1 + q.2.text.length := by
  rw [overlaps, Bool.and_eq_true, decide_eq_true_iff, decide_eq_true_iff]

theorem window_append (qs ps : List (Nat × Region)) :
    window a b (qs ++ ps) = window a b qs ++ window a b ps := by
  rw [window, List.filter_append, List.map_append]
  rfl

theorem window_cons_of_overlaps {q : Nat × Region} (h : overlaps a b q = true)
    (qs : List (Nat × Region)) : window a b (q :: qs) = clip a b q :: window a b qs := by
  rw [window, List.filter_cons_of_pos h]
  rfl

theorem end_le_of_mem_place {rs : List Region} {q : Nat × Region} (h : q ∈ place o rs) :
    q.1 + q.2.text.length ≤ o + (flatten rs).length := by
  obtain ⟨as, bs, rfl, hq⟩ := mem_place.1 h
  rw [flatten_append, flatten_cons, List.length_append, List.length_append]
  omega

/-- Regions that end before a span starts do not show in its window. -/
theorem window_eq_nil_of_before {rs : List Region} (h : o + (flatten rs).length ≤ a) :
    window a b (place o rs) = [] := by
  rw [window, List.map_eq_nil_iff, List.filter_eq_nil_iff]
  intro q hq hover
  have := end_le_of_mem_place hq
  have := (overlaps_iff.1 hover).2
  omega

/-- Nor do regions that start after it ends. -/
theorem window_eq_nil_of_after {rs : List Region} (h : b ≤ o) : window a b (place o rs) = [] := by
  rw [window, List.map_eq_nil_iff, List.filter_eq_nil_iff]
  intro q hq hover
  have := le_of_mem_place hq
  have := (overlaps_iff.1 hover).1
  omega

theorem clip_of_code {q : Nat × Region} (h : q.2.kind = .code) : clip a b q =
    (q.1 - a, { q.2 with text := (q.2.text.take (b - q.1)).drop (a - q.1) }) := by
  rw [clip, if_neg fun hp => isProtected_iff.1 hp h]

/-- A region in a span is not cut. -/
theorem clip_of_le {q : Nat × Region} (h : a ≤ q.1) (h' : q.1 + q.2.text.length ≤ b) :
    clip a b q = (q.1 - a, q.2) := by
  have htext : (q.2.text.take (b - q.1)).drop (a - q.1) = q.2.text := by
    rw [Nat.sub_eq_zero_of_le h, List.drop_zero, List.take_of_length_le (by omega)]
  rw [clip, htext]
  split <;> rfl

/-- Regions in a span show in its window as they are. -/
theorem window_of_le {rs : List Region} (hne : ∀ r ∈ rs, r.text ≠ []) (ha : a ≤ o)
    (hb : o + (flatten rs).length ≤ b) : window a b (place o rs) = place (o - a) rs := by
  induction rs generalizing o with
  | nil => rfl
  | cons r rs ih =>
    obtain ⟨hr, hrs⟩ := List.forall_mem_cons.1 hne
    have hpos := List.length_pos_iff.2 hr
    rw [flatten_cons, List.length_append] at hb
    rw [place, window_cons_of_overlaps (overlaps_iff.2 ⟨by omega, by dsimp only; omega⟩),
      clip_of_le ha (by dsimp only; omega), ih hrs (by omega) (by omega), place,
      Nat.sub_add_comm ha]

end Region

/-! ## Seams -/

theorem Region.consCode_append {rs : List Region} (h : rs ≠ []) (c : Char) (qs : List Region) :
    consCode c (rs ++ qs) = consCode c rs ++ qs := by
  obtain ⟨⟨kind, text, terminated⟩, rs, rfl⟩ := List.exists_cons_of_ne_nil h
  cases kind <;> rfl

theorem Region.consCode_of_code {q : Region} (h : q.kind = .code) (c : Char) (qs : List Region) :
    consCode c (q :: qs) = { q with text := c :: q.text } :: qs := by
  obtain ⟨kind, text, terminated⟩ := q
  obtain rfl : kind = .code := h
  rfl

theorem Region.consCode_of_ne_code {q : Region} (h : q.kind ≠ .code) (c : Char)
    (qs : List Region) : consCode c (q :: qs) = ⟨.code, [c], true⟩ :: q :: qs := by
  obtain ⟨kind, text, terminated⟩ := q
  cases kind with
  | code => exact absurd rfl h
  | _ => rfl

/-- The regions of two runs of atoms are those of each, but for code on both sides of the seam,
which becomes one region. -/
theorem regions_append (as bs : List Atom) : regions (as ++ bs) = regions as ++ regions bs ∨
    ∃ rs p q qs, p.kind = .code ∧ q.kind = .code ∧
      regions as = rs ++ [p] ∧ regions bs = q :: qs ∧
      regions (as ++ bs) = rs ++ { q with text := p.text ++ q.text } :: qs := by
  induction as with
  | nil => exact Or.inl rfl
  | cons a as ih =>
    rw [List.cons_append]
    cases a with
    | literal r =>
      rw [regions, regions]
      rcases ih with ih | ⟨rs, p, q, qs, hp, hq, has, hbs, ih⟩
      · exact Or.inl (congrArg (r :: ·) ih)
      · exact Or.inr ⟨r :: rs, p, q, qs, hp, hq, congrArg (r :: ·) has, hbs, congrArg (r :: ·) ih⟩
    | code c =>
      rw [regions, regions]
      rcases ih with ih | ⟨rs, p, q, qs, hp, hq, has, hbs, ih⟩
      · rw [ih]
        by_cases hnil : regions as = []
        · -- the character is the last one before the seam
          rw [hnil, List.nil_append]
          cases hbs : regions bs with
          | nil => exact Or.inl rfl
          | cons q qs =>
            by_cases hq : q.kind = .code
            · exact Or.inr ⟨[], ⟨.code, [c], true⟩, q, qs, rfl, hq, rfl, rfl,
                Region.consCode_of_code hq c qs⟩
            · exact Or.inl (Region.consCode_of_ne_code hq c qs)
        · exact Or.inl (Region.consCode_append hnil c _)
      · rw [ih, has]
        by_cases hnil : rs = []
        · rw [hnil]
          exact Or.inr ⟨[], { p with text := c :: p.text }, q, qs, hp, hq,
            Region.consCode_of_code hp c [], hbs,
            Region.consCode_of_code (q := { q with text := p.text ++ q.text }) hq c qs⟩
        · exact Or.inr ⟨Region.consCode c rs, p, q, qs, hp, hq, Region.consCode_append hnil c _,
            hbs, Region.consCode_append hnil c _⟩

theorem forall_mem_regions {next : Option Char} (h : IsFit next as) :
    ∀ r ∈ regions as, r.text ≠ [] ∧ (r.kind = .code → r.terminated = true) := by
  induction as with
  | nil => nofun
  | cons a as ih =>
    obtain ⟨ha, has⟩ := h
    cases a with
    | literal r =>
      refine List.forall_mem_cons.2 ⟨⟨ha.text_ne_nil, fun hr => ?_⟩, ih has⟩
      exact absurd hr (Region.isProtected_iff.1 ha.1)
    | code c =>
      rw [regions]
      cases hrs : regions as with
      | nil => exact List.forall_mem_singleton.2 ⟨List.cons_ne_nil c [], fun _ => rfl⟩
      | cons q qs =>
        obtain ⟨hq, hqs⟩ := List.forall_mem_cons.1 (hrs ▸ ih has)
        by_cases hcode : q.kind = .code
        · rw [Region.consCode_of_code hcode]
          exact List.forall_mem_cons.2 ⟨⟨List.cons_ne_nil c _, hq.2⟩, hqs⟩
        · rw [Region.consCode_of_ne_code hcode]
          exact List.forall_mem_cons.2
            ⟨⟨List.cons_ne_nil c [], fun _ => rfl⟩, List.forall_mem_cons.2 ⟨hq, hqs⟩⟩

/-- Of code that a span starts in, what lies in the span shows. -/
theorem Region.clip_text_append_left {q : Region} (hq : q.kind = .code) (x : Text)
    (h : o + x.length ≤ b) : clip (o + x.length) b (o, { q with text := x ++ q.text }) =
      clip (o + x.length) b (o + x.length, q) := by
  have htake : b - o = x.length + (b - (o + x.length)) := by omega
  rw [clip_of_code (q := (o, { q with text := x ++ q.text })) hq,
    clip_of_code (q := (o + x.length, q)) hq]
  dsimp only
  rw [Nat.sub_self, Nat.sub_eq_zero_of_le (Nat.le_add_right o _), Nat.add_sub_cancel_left, htake,
    List.take_length_add_append, List.drop_left, List.drop_zero]

/-- So it does of code that a span ends in. -/
theorem Region.clip_text_append_right {q : Region} (hq : q.kind = .code) (x : Text) (h : a ≤ o) :
    clip a (o + x.length) (o, { q with text := x ++ q.text }) = (o - a, { q with text := x }) := by
  rw [clip_of_code (q := (o, { q with text := x ++ q.text })) hq]
  dsimp only
  rw [Nat.sub_eq_zero_of_le h, Nat.add_sub_cancel_left, List.take_left, List.drop_zero]

/-- What comes before a seam does not show in a window that starts there. -/
theorem window_regions_append_left (hbs : ∀ r ∈ regions bs, r.text ≠ [])
    (hb : (Atom.flatten as).length < b) :
    Region.window (Atom.flatten as).length b (Region.place 0 (regions (as ++ bs))) =
      Region.window (Atom.flatten as).length b
        (Region.place (Atom.flatten as).length (regions bs)) := by
  have hlength : (Region.flatten (regions as)).length = (Atom.flatten as).length := by
    rw [flatten_regions]
  rcases regions_append as bs with h | ⟨rs, p, q, qs, -, hq, has, hcons, h⟩
  · rw [h, Region.place_append, Region.window_append, hlength, Nat.zero_add,
      Region.window_eq_nil_of_before (by omega), List.nil_append]
  · rw [has, Region.length_flatten_concat] at hlength
    rw [hcons] at hbs
    have hpos := List.length_pos_iff.2 (hbs q List.mem_cons_self)
    rw [← hlength] at hb ⊢
    rw [h, hcons, Region.place_append, Region.window_append, Nat.zero_add, Region.place,
      Region.window_eq_nil_of_before (by omega), List.nil_append, Region.place,
      Region.window_cons_of_overlaps (Region.overlaps_iff.2 ⟨by omega, by simp; omega⟩),
      Region.window_cons_of_overlaps (Region.overlaps_iff.2 ⟨hb, by simp; omega⟩),
      Region.clip_text_append_left hq p.text hb.le]
    dsimp only
    rw [List.length_append, ← Nat.add_assoc]

/-- What comes after a seam does not show in a window that ends there. -/
theorem window_regions_append_right {next : Option Char} (has : IsFit next as)
    (hbs : IsFit none bs) :
    Region.window o (o + (Atom.flatten as).length) (Region.place o (regions (as ++ bs))) =
      Region.place 0 (regions as) := by
  have hlength : (Region.flatten (regions as)).length = (Atom.flatten as).length := by
    rw [flatten_regions]
  have hregions := forall_mem_regions has
  rcases regions_append as bs with h | ⟨rs, p, q, qs, hp, hq, hcons, hbcons, h⟩
  · rw [h, Region.place_append, Region.window_append, hlength,
      Region.window_of_le (fun r hr => (hregions r hr).1) (Nat.le_refl o) (by omega),
      Region.window_eq_nil_of_after (Nat.le_refl _), List.append_nil, Nat.sub_self]
  · rw [hcons] at hregions hlength ⊢
    have hpregion := hregions p (by simp)
    have hpos := List.length_pos_iff.2 hpregion.1
    have hqregion := forall_mem_regions hbs q (hbcons ▸ List.mem_cons_self)
    have hpq : { q with text := p.text } = p := by
      obtain ⟨kind, text, terminated⟩ := p
      obtain rfl : kind = .code := hp
      rw [hq, hqregion.2 hq, ← hpregion.2 rfl]
    rw [Region.length_flatten_concat] at hlength
    rw [← hlength, ← Nat.add_assoc, h, Region.place_append, Region.window_append, Region.place,
      Region.window_of_le (fun r hr => (hregions r (List.mem_append_left _ hr)).1) (Nat.le_refl o)
        (by omega),
      Region.window_cons_of_overlaps (Region.overlaps_iff.2 ⟨by omega, by simp; omega⟩),
      Region.clip_text_append_right hq p.text (by omega),
      Region.window_eq_nil_of_after (by simp), hpq, Region.place_append, Nat.sub_self,
      Nat.add_sub_cancel_left, Nat.zero_add]
    rfl

/-- The regions of a run of atoms are the window that its text spans. -/
theorem window_regions {cs : List Atom} (h : IsFit none (as ++ (bs ++ cs)))
    (hbs : Atom.flatten bs ≠ []) :
    Region.window (Atom.flatten as).length ((Atom.flatten as).length + (Atom.flatten bs).length)
      (Region.place 0 (regions (as ++ (bs ++ cs)))) = Region.place 0 (regions bs) := by
  have hrest := (isFit_append.1 h).2
  obtain ⟨hfit, hcs⟩ := isFit_append.1 hrest
  have hpos := List.length_pos_iff.2 hbs
  rw [window_regions_append_left (fun r hr => (forall_mem_regions hrest r hr).1) (by omega),
    window_regions_append_right hfit hcs]

/-- A string or comment lies on one side of a seam. -/
theorem mem_place_regions_append {q : Nat × Region} (hq : q.2.isProtected = true)
    (h : q ∈ Region.place o (regions (as ++ bs))) : q ∈ Region.place o (regions as) ∨
      q ∈ Region.place (o + (Atom.flatten as).length) (regions bs) := by
  have hlength : (Region.flatten (regions as)).length = (Atom.flatten as).length := by
    rw [flatten_regions]
  rcases regions_append as bs with happend | ⟨rs, p, r, qs, -, hr, has, hbs, happend⟩
  · rw [happend, Region.place_append, hlength] at h
    exact List.mem_append.1 h
  · rw [has, Region.length_flatten_concat] at hlength
    rw [happend, Region.place_append, Region.place] at h
    rw [has, hbs, Region.place_append, Region.place]
    rcases List.mem_append.1 h with h | h
    · exact Or.inl (List.mem_append_left _ h)
    · rcases List.mem_cons.1 h with rfl | h
      · exact absurd hr (Region.isProtected_iff.1 hq)
      · dsimp only at h
        rw [List.length_append, ← Nat.add_assoc, Nat.add_assoc o, hlength] at h
        exact Or.inr (List.mem_cons_of_mem _ h)

/-! ## Statements -/

/-- The atoms of a statement are those of its script that come after the statements before it. -/
theorem exists_atoms_eq_of_mem_statements {s p : Text} {ps qs : List Text}
    (h : statements s = ps ++ p :: qs) :
    ∃ as bs, atoms s = as ++ (atoms p ++ bs) ∧ Atom.flatten as = ps.flatten := by
  induction s using statementInduction generalizing ps with
  | hblank s hs =>
    rw [statements_of_isBlank hs] at h
    simp at h
  | hopen t ht =>
    rw [statements_of_isOpen ht] at h
    obtain ⟨rfl, hp⟩ | ⟨-, hnil⟩ := List.singleton_eq_append_iff.1 h
    · obtain ⟨rfl, rfl⟩ := List.cons.inj hp
      exact ⟨[], [], (List.append_nil _).symm, rfl⟩
    · cases hnil
  | hclosed t s ht ih =>
    rw [statements_append ht] at h
    rw [atoms_append ht]
    cases ps with
    | nil =>
      obtain ⟨rfl, -⟩ := List.cons.inj h
      exact ⟨[], atoms s, rfl, rfl⟩
    | cons u ps =>
      obtain ⟨rfl, hs⟩ : t = u ∧ statements s = ps ++ p :: qs := List.cons.inj h
      obtain ⟨as, bs, hatoms, hflatten⟩ := ih hs
      refine ⟨atoms t ++ as, bs, by rw [hatoms, List.append_assoc], ?_⟩
      rw [Atom.flatten_append, flatten_atoms, hflatten, List.flatten_cons]

/-- A text whose atoms are a run of those of another text is scanned alone. -/
theorem isScannedAlone_of_atoms {s p : Text} {as bs : List Atom} (hp : p ≠ [])
    (h : atoms s = as ++ (atoms p ++ bs)) : IsScannedAlone s (Atom.flatten as).length p := by
  have hfit := isFit_atoms s
  rw [h] at hfit
  refine ⟨?_, ?_, fun q hq hprotected hover => ?_⟩
  · rw [← flatten_atoms s, h, Atom.flatten_append, List.drop_left, Atom.flatten_append,
      flatten_atoms]
    exact List.prefix_append p _
  · have hwindow := window_regions hfit (by rwa [flatten_atoms])
    rw [flatten_atoms] at hwindow
    rw [scanPlaced, scanPlaced, scan_eq_regions, scan_eq_regions s, h, hwindow]
  · rw [scanPlaced, scan_eq_regions, h] at hq
    have hover := Region.overlaps_iff.1 hover
    rcases mem_place_regions_append hprotected hq with hq | hq
    · have := Region.end_le_of_mem_place hq
      rw [flatten_regions] at this
      omega
    · rcases mem_place_regions_append hprotected hq with hq | hq
      · have := Region.le_of_mem_place hq
        have := Region.end_le_of_mem_place hq
        rw [flatten_regions, flatten_atoms] at this
        omega
      · have := Region.le_of_mem_place hq
        rw [flatten_atoms] at this
        omega

/-- Each statement of a text is scanned alone as it is scanned in the text, and is one statement;
and the statements put together are the same statements. -/
theorem statements_scannedAlone (s : Text) :
    (∀ ps p qs, statements s = ps ++ p :: qs →
      IsScannedAlone s ps.flatten.length p ∧ statements p = [p]) ∧
    statements (statements s).flatten = statements s := by
  have hscript := isScript_statements s
  refine ⟨fun ps p qs h => ?_, statements_flatten hscript⟩
  have hmem : p ∈ statements s := by
    rw [h]
    simp
  obtain ⟨as, bs, hatoms, hflatten⟩ := exists_atoms_eq_of_mem_statements h
  have hne : p ≠ [] := List.length_pos_iff.1 (length_pos_of_not_isBlank
    (hscript.isBlank_of_mem p hmem))
  rw [← hflatten]
  exact ⟨isScannedAlone_of_atoms hne hatoms, hscript.statements_of_mem p hmem⟩

end SqlSnippet
