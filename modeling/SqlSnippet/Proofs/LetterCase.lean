import SqlSnippet.Proofs.ClauseMatches
import SqlSnippet.Proofs.OpenEnd

/-!
# Letter case

Layout does not look at the case of a letter. So said of two texts that differ in nothing else
(`SameButCase`), it has a simple reason in one : putting other cases in place of the letters of a
text (`IsCaseMap`) before layout is the same as doing so after it. That holds of every step, from
the regions of the text (`scan_map`) through white space, list commas and clause words to the
trimmed whole (`formatText_map`), and of scripts by way of their statements (`statements_map`).

Clause words are the one place where the case could come in : they are matched by the lower-case
forms of characters and looked up by the upper-case form of a word, and a case map changes neither.
-/

namespace SqlSnippet

variable {f : Char → Char} {o : LayoutOptions} {s t : Text}

/-! ## Case maps -/

/-- The characters that regions, statements and lists are told apart by. -/
def syntaxMarks : Text :=
  ['\'', '-', '/', '*', '\n', '\r', ';', ',', '(', ')']

/-- The map puts another case in place of characters at most. -/
structure IsCaseMap (f : Char → Char) : Prop where
  lower : ∀ c, lowerChar (f c) = lowerChar c
  upper : ∀ c, upperChar (f c) = upperChar c
  word : ∀ c, isWordChar (f c) = isWordChar c
  mark : ∀ d ∈ syntaxMarks, ∀ c, f c = d ↔ c = d

/-- A relation between a character and its ASCII lower-case form is checked on ASCII. -/
theorem forall_toLower {P : Char → Char → Prop} (hrefl : ∀ c, P c c)
    (h : ∀ n < 128, P (Char.ofNat n).toLower (Char.ofNat n)) (c : Char) : P c.toLower c := by
  by_cases hc : c.toNat < 128
  · exact forall_ascii (P := fun c => P c.toLower c) h hc
  · have hself : c.toLower = c := by
      refine dif_neg fun hupper => hc ?_
      have hle : c.val ≤ 'Z'.val := hupper.2
      exact Nat.lt_of_le_of_lt (UInt32.le_iff_toNat_le.1 hle) (by decide)
    rw [hself]
    exact hrefl c

theorem isCaseMap_toLower : IsCaseMap Char.toLower where
  lower := forall_toLower (P := fun d c => lowerChar d = lowerChar c) (fun _ => rfl)
    (by decide +kernel)
  upper := forall_toLower (P := fun d c => upperChar d = upperChar c) (fun _ => rfl)
    (by decide +kernel)
  word := forall_toLower (P := fun d c => isWordChar d = isWordChar c) (fun _ => rfl)
    (by decide +kernel)
  mark m hm := forall_toLower (P := fun d c => d = m ↔ c = m) (fun _ => Iff.rfl) fun n hn => by
    have hall : ∀ n < 128, syntaxMarks.all (fun m =>
        ((Char.ofNat n).toLower == m) == (Char.ofNat n == m)) = true := by decide +kernel
    have hmark := List.all_eq_true.1 (hall n hn) m hm
    rwa [beq_iff_eq, Bool.eq_iff_iff, beq_iff_eq, beq_iff_eq] at hmark

namespace IsCaseMap

variable (hf : IsCaseMap f)

include hf

theorem apply_mark {d : Char} (hd : d ∈ syntaxMarks) : f d = d :=
  (hf.mark d hd d).2 rfl

theorem isBlank_apply (c : Char) : isBlank (f c) = isBlank c := by
  have hlower : ∀ d, isBlank (lowerChar d) = isBlank d := fun d => by
    rw [Bool.eq_iff_iff]
    exact ⟨isBlank_of_isBlank_lowerChar, fun h => by rwa [lowerChar_of_isBlank h]⟩
  rw [← hlower, hf.lower, hlower]

/-- White space has no other case. -/
theorem apply_of_isBlank {c : Char} (hc : isBlank c = true) : f c = c := by
  have hfc : isBlank (f c) = true := (hf.isBlank_apply c).trans hc
  rw [← lowerChar_of_isBlank hfc, hf.lower, lowerChar_of_isBlank hc]

theorem map_of_blank {b : Text} (hb : ∀ c ∈ b, isBlank c = true) : b.map f = b :=
  (List.map_congr_left fun c hc => hf.apply_of_isBlank (hb c hc)).trans (List.map_id b)

theorem map_eq_some_iff {d : Char} (hd : d ∈ syntaxMarks) {next : Option Char} :
    next.map f = some d ↔ next = some d := by
  cases next with
  | none => exact iff_of_false nofun nofun
  | some c => rw [Option.map_some, Option.some_inj, Option.some_inj, hf.mark d hd]

theorem isBlank_comp : isBlank ∘ f = isBlank :=
  funext hf.isBlank_apply

theorem endsLine_apply (c : Char) : endsLine (f c) = endsLine c := by
  rw [Bool.eq_iff_iff, endsLine, endsLine, Bool.or_eq_true, Bool.or_eq_true, beq_iff_eq,
    beq_iff_eq, beq_iff_eq, beq_iff_eq, hf.mark _ (by decide), hf.mark _ (by decide)]

end IsCaseMap

section Steps

variable (hf : IsCaseMap f)

/-! ## Regions -/

/-- The cut with its characters mapped. -/
def Cut.map (f : Char → Char) (cut : Cut) : Cut :=
  ⟨cut.taken.map f, cut.rest.map f, cut.closed⟩

/-- The region with its characters mapped. -/
def Region.map (f : Char → Char) (r : Region) : Region :=
  { r with text := r.text.map f }

theorem Cut.map_push (cut : Cut) (s : Text) : (cut.push s).map f = (cut.map f).push (s.map f) := by
  rw [Cut.map, Cut.taken_push, List.map_append]
  rfl

include hf

theorem openingKind_map (s : Text) : openingKind (s.map f) = openingKind s := by
  rcases openingKind_cases s with ⟨r, rfl⟩ | ⟨r, rfl⟩ | ⟨r, rfl⟩ | h
  · rw [List.map_cons, List.map_cons, hf.apply_mark (by decide), hf.apply_mark (by decide)]
    rfl
  · rw [List.map_cons, List.map_cons, hf.apply_mark (by decide)]
    rfl
  · rw [List.map_cons, hf.apply_mark (by decide)]
    rfl
  · cases s with
    | nil => rfl
    | cons c s =>
      rw [h, List.map_cons, openingKind_eq_code_iff, List.head?_map]
      rw [openingKind_eq_code_iff] at h
      unfold Opens at h ⊢
      rwa [hf.mark _ (by decide), hf.mark _ (by decide), hf.mark _ (by decide),
        hf.map_eq_some_iff (by decide), hf.map_eq_some_iff (by decide)]

theorem cutBlockComment_map (s : Text) :
    cutBlockComment (s.map f) = (cutBlockComment s).map f := by
  induction s with
  | nil => rfl
  | cons c r ih =>
    rw [List.map_cons]
    by_cases hclose : c = '*' ∧ r.head? = some '/'
    · obtain ⟨rfl, hr⟩ := hclose
      obtain ⟨r, rfl⟩ := List.head?_eq_some_iff.1 hr
      rw [List.map_cons, hf.apply_mark (by decide), hf.apply_mark (by decide), Cut.map,
        cutBlockComment, cutBlockComment, List.map_cons, List.map_cons, List.map_nil,
        hf.apply_mark (by decide), hf.apply_mark (by decide)]
    · have hmap : ¬(f c = '*' ∧ (r.map f).head? = some '/') := by
        rwa [List.head?_map, hf.mark _ (by decide), hf.map_eq_some_iff (by decide)]
      rw [cutBlockComment_cons hclose, cutBlockComment_cons hmap, ih, Cut.map_push]
      rfl

theorem cutString_map (s : Text) : cutString (s.map f) = (cutString s).map f := by
  have hquote : f '\'' = '\'' := hf.apply_mark (by decide)
  fun_induction cutString s with
  | case1 => rfl
  | case2 r ih =>
    rw [List.map_cons, List.map_cons, hquote, cutString, ih, Cut.map_push, List.map_cons,
      List.map_cons, hquote]
    rfl
  | case3 r hr =>
    have hnext : (r.map f).head? ≠ some '\'' := by
      rw [List.head?_map, Ne, hf.map_eq_some_iff (by decide)]
      intro h
      obtain ⟨r', rfl⟩ := List.head?_eq_some_iff.1 h
      exact hr r' rfl
    rw [List.map_cons, hquote, cutString_quote hnext, Cut.map, List.map_cons, List.map_nil, hquote]
  | case4 c r hr hc ih =>
    have hfc : f c ≠ '\'' := mt (hf.mark _ (by decide) c).1 hc
    rw [List.map_cons, cutString_cons hfc, ih, Cut.map_push]
    rfl

theorem cutLine_map (s : Text) : cutLine (s.map f) = (cutLine s).map f := by
  have hends : (fun c => !endsLine c) ∘ f = fun c => !endsLine c :=
    funext fun c => congrArg _ (hf.endsLine_apply c)
  rw [cutLine, List.takeWhile_map, List.dropWhile_map, hends]
  rfl

theorem cutCode_map (s : Text) : cutCode (s.map f) = (cutCode s).map f := by
  induction s with
  | nil => rfl
  | cons c r ih =>
    have hkind := openingKind_map hf (c :: r)
    rw [List.map_cons] at hkind ⊢
    rw [cutCode, cutCode, hkind, ih]
    split
    · rw [Cut.map_push]
      rfl
    · rfl

theorem cutRegion_map (s : Text) : cutRegion (s.map f) = (cutRegion s).map f := by
  unfold cutRegion
  rw [openingKind_map hf, ← List.map_drop, ← List.map_take, ← List.map_drop, ← List.map_take]
  split
  · rw [cutBlockComment_map hf, Cut.map_push]
  · rw [cutLine_map hf, Cut.map_push]
  · rw [cutString_map hf, Cut.map_push]
  · exact cutCode_map hf s

/-- The regions of a text in other cases are its regions in other cases. -/
theorem scan_map (s : Text) : scan (s.map f) = (scan s).map (Region.map f) := by
  fun_induction scan s with
  | case1 => rw [List.map_nil, scan_nil, List.map_nil]
  | case2 s hs ih =>
    rw [scan_of_ne_nil (mt List.map_eq_nil_iff.1 hs), openingKind_map hf, cutRegion_map hf,
      List.map_cons, ← ih]
    rfl

/-! ## White space -/

theorem trimStart_map (s : Text) : Text.trimStart (s.map f) = (Text.trimStart s).map f := by
  rw [Text.trimStart, List.dropWhile_map, hf.isBlank_comp]
  rfl

theorem trimEnd_map (s : Text) : Text.trimEnd (s.map f) = (Text.trimEnd s).map f := by
  rw [Text.trimEnd, ← List.map_reverse, List.dropWhile_map, hf.isBlank_comp, ← List.map_reverse]
  rfl

theorem isBlank_map (s : Text) : Text.isBlank (s.map f) = Text.isBlank s := by
  rw [Text.isBlank, List.all_map, hf.isBlank_comp]
  rfl

theorem collapse_map (s : Text) : Text.collapse (s.map f) = (Text.collapse s).map f := by
  have hspace : f ' ' = ' ' := hf.apply_of_isBlank (by decide)
  fun_induction Text.collapse s with
  | case1 => rfl
  | case2 c hc =>
    rw [List.map_cons, List.map_nil, Text.collapse, if_pos ((hf.isBlank_apply c).trans hc),
      List.map_cons, List.map_nil, hspace]
  | case3 c hc d r hd ih =>
    rw [List.map_cons] at ih ⊢
    rw [List.map_cons, Text.collapse, if_pos ((hf.isBlank_apply c).trans hc),
      if_pos ((hf.isBlank_apply d).trans hd), ih]
  | case4 c hc d r hd ih =>
    have hfd : ¬isBlank (f d) = true := by rwa [hf.isBlank_apply]
    rw [List.map_cons] at ih ⊢
    rw [List.map_cons, Text.collapse, if_pos ((hf.isBlank_apply c).trans hc), if_neg hfd, ih,
      List.map_cons, hspace]
  | case5 c r hc ih =>
    have hfc : isBlank (f c) = false := (hf.isBlank_apply c).trans (Bool.eq_false_iff.2 hc)
    rw [List.map_cons, collapse_cons hfc, ih, List.map_cons]

/-- The piece with its characters mapped. -/
def Piece.map (f : Char → Char) (p : Piece) : Piece :=
  { p with text := p.text.map f }

theorem piecesAfter_map (afterComment : Bool) (rs : List Region) :
    piecesAfter afterComment (rs.map (Region.map f)) =
      (piecesAfter afterComment rs).map (Piece.map f) := by
  induction rs generalizing afterComment with
  | nil => rfl
  | cons r rs ih =>
    rw [List.map_cons, piecesAfter, piecesAfter]
    by_cases hr : r.isProtected = true
    · have hmap : (r.map f).isProtected = true := hr
      rw [if_pos hr, if_pos hmap, List.map_cons]
      exact congrArg (_ :: ·) (ih _)
    · have hmap : ¬(r.map f).isProtected = true := hr
      have hcode : ∀ x : Text, (if (x.map f).isEmpty then [] else [⟨.code, x.map f⟩]) =
          (if x.isEmpty then [] else [(⟨.code, x⟩ : Piece)]).map (Piece.map f) := fun x => by
        cases x <;> rfl
      have hbreak : Piece.map f ⟨.lineBreak, ['\n']⟩ = ⟨.lineBreak, ['\n']⟩ := by
        rw [Piece.map, List.map_cons, hf.apply_mark (by decide), List.map_nil]
      rw [if_neg hr, if_neg hmap]
      cases afterComment with
      | false =>
        simp only [Bool.false_eq_true, ↓reduceIte]
        rw [List.map_append, ← hcode, ← collapse_map hf, ← ih]
        rfl
      | true =>
        simp only [↓reduceIte]
        rw [List.map_cons, hbreak, List.map_append, ← hcode, ← collapse_map hf, ← trimStart_map hf,
          ← ih]
        rfl

theorem pieces_map (s : Text) : pieces (s.map f) = (pieces s).map (Piece.map f) := by
  rw [pieces, scan_map hf, piecesAfter_map hf]
  rfl

/-! ## List commas -/

theorem depthAfter_map (d : Nat) (s : Text) : depthAfter d (s.map f) = depthAfter d s := by
  induction s generalizing d with
  | nil => rfl
  | cons c s ih =>
    rw [List.map_cons, depthAfter, depthAfter, ih]
    simp only [hf.mark _ (by decide : '(' ∈ syntaxMarks), hf.mark _ (by decide : ')' ∈ syntaxMarks)]

theorem breakCommas_map (d : Nat) (skip : Bool) (held s : Text) :
    breakCommas o d skip (held.map f) (s.map f) = (breakCommas o d skip held s).map f := by
  have hindent : o.indent.map f = o.indent := hf.map_of_blank (isBlank_of_mem_indent o)
  fun_induction breakCommas o d skip held s with
  | case1 => rfl
  | case2 d held c r hc ih =>
    rw [List.map_cons, breakCommas_skip_blank _ _ _ ((hf.isBlank_apply c).trans hc), ih]
  | case3 d skip held c r hc hskip ih =>
    obtain rfl : skip = false := Bool.eq_false_iff.2 hskip
    rw [List.map_cons, breakCommas_hold_blank _ _ _ ((hf.isBlank_apply c).trans hc), ← ih,
      List.map_append]
    rfl
  | case4 d skip held c r hc hcomma ih =>
    obtain ⟨rfl, rfl⟩ := hcomma
    rw [List.map_cons, hf.apply_mark (by decide), breakCommas_comma, List.cons_append,
      List.cons_append, List.map_cons, List.cons_append, List.map_cons, List.map_append, hindent,
      hf.apply_mark (by decide), hf.apply_mark (by decide), ← ih]
    rfl
  | case5 d skip held c r hc hcomma depth' ih =>
    have hblank : isBlank (f c) = false := (hf.isBlank_apply c).trans (Bool.eq_false_iff.2 hc)
    have hlist : (Atom.code (f c)).isListComma d = false := by
      refine Bool.eq_false_iff.2 fun h => hcomma ?_
      obtain ⟨hd, hfc⟩ := Atom.isListComma_iff.1 h
      exact ⟨(hf.mark _ (by decide) c).1 (Atom.code.inj hfc), hd⟩
    have hdepth : depthAfter d [f c] = depth' := depthAfter_map hf d [c]
    rw [List.map_cons, breakCommas_cons hblank hlist, hdepth, List.map_append, List.map_cons, ← ih]
    rfl

theorem breakCommaPieces_map (d : Nat) (ps : List Piece) :
    breakCommaPieces o d (ps.map (Piece.map f)) =
      (breakCommaPieces o d ps).map (Piece.map f) := by
  induction ps generalizing d with
  | nil => rfl
  | cons p ps ih =>
    rw [List.map_cons, breakCommaPieces, breakCommaPieces]
    by_cases hp : p.kind = .code
    · have hmap : (p.map f).kind = .code := hp
      have htext : (p.map f).text = p.text.map f := rfl
      have hbroken := breakCommas_map (o := o) hf d false [] p.text
      rw [List.map_nil] at hbroken
      rw [if_pos hp, if_pos hmap, htext, depthAfter_map hf, ih, hbroken]
      rfl
    · have hmap : ¬(p.map f).kind = .code := hp
      rw [if_neg hp, if_neg hmap, ih, List.map_cons]

/-! ## Clause words -/

theorem sameFold_apply (p c : Char) : sameFold p (f c) = sameFold p c := by
  unfold sameFold
  rw [hf.lower]

theorem sameLast_apply (ws : List Text) (p c : Char) :
    (Clauses.ofWords ws).sameLast p (f c) = (Clauses.ofWords ws).sameLast p c := by
  unfold Clauses.ofWords
  dsimp only
  split
  · unfold sameInSet
    rw [sameFold_apply hf, hf.lower]
  · exact sameFold_apply hf p c

theorem startsWithFold_map {sameLast : Char → Char → Bool}
    (hlast : ∀ p c, sameLast p (f c) = sameLast p c) (w s : Text) :
    startsWithFold sameLast w (s.map f) = startsWithFold sameLast w s := by
  induction w generalizing s with
  | nil => cases s <;> rfl
  | cons p ps ih =>
    cases s with
    | nil => rfl
    | cons c cs =>
      cases ps with
      | nil => exact hlast p c
      | cons q qs =>
        rw [List.map_cons, startsWithFold, startsWithFold, sameFold_apply hf, ih]
        · exact List.cons_ne_nil q qs
        · exact List.cons_ne_nil q qs

theorem isBoundary_map (s : Text) (n : Nat) : isBoundary (s.map f) n = isBoundary s n := by
  simp only [isBoundary, List.getElem?_map, Option.any_map, hf.word]

theorem lengthAt?_map (ws : List Text) (s : Text) :
    (Clauses.ofWords ws).lengthAt? (s.map f) = (Clauses.ofWords ws).lengthAt? s := by
  unfold Clauses.lengthAt?
  simp only [startsWithFold_map hf (sameLast_apply hf ws), isBoundary_map hf]

theorem upper_map (s : Text) : Text.upper (s.map f) = Text.upper s := by
  rw [Text.upper, List.flatMap_map]
  exact List.flatMap_congr fun c _ => hf.upper c

theorem gap_map (k : Clauses) (blanks word rest : Text) :
    k.gap (blanks.map f) (word.map f) (rest.map f) = (k.gap blanks word rest).map f := by
  have hcall : (rest.map f).head? = some '(' ∧ Text.upper (word.map f) ∈ k.callWords ↔
      rest.head? = some '(' ∧ Text.upper word ∈ k.callWords := by
    rw [List.head?_map, hf.map_eq_some_iff (by decide), upper_map hf]
  unfold Clauses.gap
  rw [if_congr hcall rfl rfl]
  split
  · rfl
  · rw [List.map_cons, hf.apply_mark (by decide), List.map_nil]

theorem breakLines_map (ws : List Text) (s : Text) :
    (Clauses.ofWords ws).breakLines (s.map f) = ((Clauses.ofWords ws).breakLines s).map f := by
  have hrun : ∀ r : Text, (r.map f).takeWhile isBlank = (r.takeWhile isBlank).map f ∧
      (r.map f).dropWhile isBlank = (r.dropWhile isBlank).map f := fun r => by
    rw [List.takeWhile_map, List.dropWhile_map, hf.isBlank_comp]
    exact ⟨rfl, rfl⟩
  fun_induction Clauses.breakLines (Clauses.ofWords ws) s with
  | case1 => exact breakLines_nil _
  | case2 c r hc blanks rest n hn ih =>
    have hfound := (lengthAt?_map hf ws rest).trans hn
    rw [← (hrun r).2] at hfound
    rw [List.map_cons, breakLines_of_some ((hf.isBlank_apply c).trans hc) hfound, (hrun r).1,
      (hrun r).2, ← List.map_take, ← List.map_drop, ih, List.map_append, List.map_append,
      ← gap_map hf]
    rfl
  | case3 c r hc blanks rest hn ih =>
    have hfound := (lengthAt?_map hf ws rest).trans hn
    rw [← (hrun r).2] at hfound
    rw [List.map_cons, breakLines_of_none ((hf.isBlank_apply c).trans hc) hfound, (hrun r).1,
      (hrun r).2, ih, List.map_append]
    rfl
  | case4 c r hc ih =>
    have hfc : isBlank (f c) = false := (hf.isBlank_apply c).trans (Bool.eq_false_iff.2 hc)
    rw [List.map_cons, breakLines_cons hfc, ih, List.map_cons]

theorem breakClauses_map (ws : List Text) (p : Piece) :
    (p.map f).breakClauses (Clauses.ofWords ws) =
      (p.breakClauses (Clauses.ofWords ws)).map f := by
  unfold Piece.breakClauses
  by_cases hp : p.kind = .code
  · have hmap : (p.map f).kind = .code := hp
    rw [if_pos hp, if_pos hmap]
    exact congrArg (Piece.mk p.kind) (breakLines_map hf ws p.text)
  · have hmap : ¬(p.map f).kind = .code := hp
    rw [if_neg hp, if_neg hmap]

/-! ## Texts -/

omit hf in
theorem stripPieces_map {strip : Text → Text}
    (hstrip : ∀ s : Text, strip (s.map f) = (strip s).map f) (ps : List Piece) :
    stripPieces strip (ps.map (Piece.map f)) = (stripPieces strip ps).map (Piece.map f) := by
  induction ps with
  | nil => rfl
  | cons p ps ih =>
    rw [List.map_cons, stripPieces, stripPieces]
    by_cases hp : p.kind = .literal
    · have hmap : (p.map f).kind = .literal := hp
      rw [if_pos hp, if_pos hmap, List.map_cons]
    · have hmap : ¬(p.map f).kind = .literal := hp
      have htext : strip (p.map f).text = (strip p.text).map f := hstrip p.text
      rw [if_neg hp, if_neg hmap]
      dsimp only
      rw [htext, ih]
      cases strip p.text <;> rfl

theorem trimPieces_map (ps : List Piece) :
    trimPieces (ps.map (Piece.map f)) = (trimPieces ps).map f := by
  unfold trimPieces
  rw [stripPieces_map (trimStart_map hf), ← List.map_reverse, stripPieces_map (trimEnd_map hf),
    ← List.map_reverse, List.flatMap_map, List.map_flatMap]
  rfl

/-- Layout of a text in other cases is layout of the text, in other cases. -/
theorem formatText_map (o : LayoutOptions) (s : Text) :
    formatText o (s.map f) = (formatText o s).map f := by
  have hclauses : Piece.breakClauses (Clauses.ofWords o.clauseWords) ∘ Piece.map f =
      Piece.map f ∘ Piece.breakClauses (Clauses.ofWords o.clauseWords) :=
    funext (breakClauses_map hf o.clauseWords)
  unfold formatText
  dsimp only
  rw [pieces_map hf, breakCommaPieces_map hf, List.map_map, hclauses, ← List.map_map,
    trimPieces_map hf]

/-! ## Scripts -/

theorem marks_map (r : Region) : (r.map f).marks = r.marks.map (Prod.map f id) := by
  have hsemicolon : ∀ c, (f c == ';') = (c == ';') := fun c => by
    rw [Bool.eq_iff_iff, beq_iff_eq, beq_iff_eq, hf.mark _ (by decide)]
  unfold Region.marks
  rw [List.map_map]
  dsimp only [Region.map, Region.isProtected]
  rw [List.map_map]
  exact List.map_congr_left fun c _ => by
    simp only [Function.comp_apply, hsemicolon, Prod.map_apply, id_eq]

omit hf in
theorem cutAfterMarks_map (ms : List (Char × Bool)) :
    cutAfterMarks (ms.map (Prod.map f id)) = (cutAfterMarks ms).map (List.map f) := by
  fun_induction cutAfterMarks ms with
  | case1 => rfl
  | case2 c r ih =>
    rw [List.map_cons, Prod.map_apply, id_eq, cutAfterMarks, ih]
    rfl
  | case3 c r hnil ih =>
    rw [hnil] at ih
    rw [List.map_cons, Prod.map_apply, id_eq, cutAfterMarks, ih]
    rfl
  | case4 c r p ps hcons ih =>
    rw [hcons] at ih
    rw [List.map_cons, Prod.map_apply, id_eq, cutAfterMarks, ih]
    rfl

theorem statements_map (s : Text) : statements (s.map f) = (statements s).map (List.map f) := by
  have hmarks : (scan (s.map f)).flatMap Region.marks =
      ((scan s).flatMap Region.marks).map (Prod.map f id) := by
    rw [scan_map hf, List.flatMap_map, List.map_flatMap]
    exact List.flatMap_congr fun r _ => marks_map hf r
  have hblank : (fun t => !Text.isBlank t) ∘ List.map f = fun t => !Text.isBlank t :=
    funext fun t => congrArg _ (isBlank_map hf t)
  rw [statements, hmarks, cutAfterMarks_map, List.filter_map, hblank]
  rfl

theorem flatten_spaceOut_map (ts : List Text) :
    (spaceOut (ts.map (List.map f))).flatten = (spaceOut ts).flatten.map f := by
  have hlines : ['\n', '\n'].map f = ['\n', '\n'] := hf.map_of_blank isBlank_of_mem_newlines
  cases ts with
  | nil => rfl
  | cons t ts =>
    rw [List.map_cons, spaceOut, spaceOut, List.flatten_cons, List.flatten_cons, List.map_append,
      List.map_flatten, List.map_map, List.map_map]
    refine congrArg (t.map f ++ List.flatten ·) (List.map_congr_left fun u _ => ?_)
    rw [Function.comp_apply, Function.comp_apply, List.map_append, hlines]

theorem formatScript_map (o : LayoutOptions) (s : Text) :
    formatScript o (s.map f) = (formatScript o s).map f := by
  have htexts : formatText o ∘ List.map f = List.map f ∘ formatText o :=
    funext (formatText_map hf o)
  rw [formatScript_eq_flatten, formatScript_eq_flatten, statements_map hf, List.map_map, htexts,
    ← List.map_map, flatten_spaceOut_map hf]

theorem formatDocument_map (o : LayoutOptions) (s : Text) :
    (formatDocument o (s.map f)).text = (formatDocument o s).text.map f := by
  rw [formatDocument_text, formatDocument_text, formatScript_map hf, formatText_map hf]
  split <;> rfl

end Steps

/-! ## Two texts -/

/-- The texts differ in nothing but the case of ASCII letters. -/
def SameButCase (s t : Text) : Prop :=
  List.Forall₂ (fun c d : Char => c.toLower = d.toLower) s t

theorem sameButCase_iff : SameButCase s t ↔ s.map Char.toLower = t.map Char.toLower := by
  rw [← List.forall₂_eq_eq_eq, List.forall₂_map_left_iff, List.forall₂_map_right_iff]
  rfl

/-- White space stands at the same places of two such texts. -/
theorem SameButCase.getElem?_eq_some_iff (h : SameButCase s t) {c : Char}
    (hc : isBlank c = true) (n : Nat) : s[n]? = some c ↔ t[n]? = some c := by
  have hblank : ∀ d : Char, d.toLower = c ↔ d = c := by
    have hself := isCaseMap_toLower.apply_of_isBlank hc
    refine fun d => ⟨fun hd => ?_, fun hd => hd ▸ hself⟩
    have hdblank : isBlank d = true := by rw [← isCaseMap_toLower.isBlank_apply, hd, hc]
    rw [← hd, isCaseMap_toLower.apply_of_isBlank hdblank]
  have hmap : ∀ u : Text, u[n]? = some c ↔ (u.map Char.toLower)[n]? = some c := fun u => by
    rw [List.getElem?_map]
    cases u[n]? with
    | none => exact iff_of_false nofun nofun
    | some d => rw [Option.map_some, Option.some_inj, Option.some_inj, hblank]
  rw [hmap s, hmap t, sameButCase_iff.1 h]

/-- Letter case has no part in layout : texts that differ in nothing else are laid out with the
same length, with the same characters up to their case, and with the same line breaks, indents
and spaces. -/
theorem formatDocument_sameButCase (o : LayoutOptions) (s t : Text) (h : SameButCase s t) :
    (formatDocument o s).text.length = (formatDocument o t).text.length ∧
      SameButCase (formatDocument o s).text (formatDocument o t).text ∧
      ∀ c, isBlank c = true → ∀ n : Nat,
        (formatDocument o s).text[n]? = some c ↔ (formatDocument o t).text[n]? = some c := by
  have hsame : SameButCase (formatDocument o s).text (formatDocument o t).text := by
    rw [sameButCase_iff, ← formatDocument_map isCaseMap_toLower, sameButCase_iff.1 h,
      formatDocument_map isCaseMap_toLower]
  exact ⟨hsame.length_eq, hsame, fun c hc => hsame.getElem?_eq_some_iff hc⟩

/-- Clause words of one's own, one of which is more than a word and one beyond ASCII, in a script
of two statements. -/
theorem formatDocument_sameButCase_mixed :
    let o : LayoutOptions := ⟨.tabs, 2, ["left", "group by", "ß"].map String.toList, true⟩
    let s : Text := "Select A, left(b) LEFT c Group By 'x';q ß, LEFT (r) ẞ".toList
    let t : Text := "sELECT a, LEFT(B) left C GROUP by 'X';Q ß, left (R) ẞ".toList
    SameButCase s t ∧ (formatDocument o s).text.length = (formatDocument o t).text.length ∧
      SameButCase (formatDocument o s).text (formatDocument o t).text ∧
      ∀ c, isBlank c = true → ∀ n : Nat,
        (formatDocument o s).text[n]? = some c ↔ (formatDocument o t).text[n]? = some c := by
  intro o s t
  have h : SameButCase s t := sameButCase_iff.2 (by decide +kernel)
  exact ⟨h, formatDocument_sameButCase o s t h⟩

end SqlSnippet
