import SqlSnippet.Proofs.TextLayout

/-!
# Trimmed pieces

What trimming takes off a list of pieces (`trimPieces_spec`). The pieces before the first literal
and those after the last one hold two texts, `leadingText` and `trailingText`. Trimming takes the
longest white space off the start of the one and off the end of the other
(`append_trimPieces_append`), as the literals stop it (`takeWhile_append_cons`). Without a literal
the whole is stripped at both ends (`trimPieces_of_canTrim`).
-/

namespace SqlSnippet

/-! ## The longest white space at an end -/

/-- `b` is the longest white space that `s` starts with. -/
structure IsLeadingBlank (b s : Text) : Prop where
  starts : b <+: s
  blank : Text.isBlank b = true
  longest : ∀ b', b' <+: s → Text.isBlank b' = true → b' <+: b

/-- `b` is the longest white space that `s` ends with. -/
structure IsTrailingBlank (b s : Text) : Prop where
  ends : b <:+ s
  blank : Text.isBlank b = true
  longest : ∀ b', b' <:+ s → Text.isBlank b' = true → b' <:+ b

theorem isBlank_reverse (s : Text) : Text.isBlank s.reverse = Text.isBlank s :=
  List.all_reverse

theorem isLeadingBlank_takeWhile (s : Text) : IsLeadingBlank (s.takeWhile isBlank) s where
  starts := List.takeWhile_prefix isBlank
  blank := List.all_takeWhile
  longest := by
    rintro b' ⟨t, rfl⟩ hb'
    rw [List.takeWhile_append_of_pos (List.all_eq_true.1 hb')]
    exact List.prefix_append _ _

theorem isTrailingBlank_rtakeWhile (s : Text) : IsTrailingBlank (s.rtakeWhile isBlank) s := by
  have h := isLeadingBlank_takeWhile s.reverse
  refine ⟨List.rtakeWhile_suffix isBlank s, (isBlank_reverse _).trans h.blank,
    fun b' hends hb' => ?_⟩
  rw [← List.reverse_prefix, List.rtakeWhile, List.reverse_reverse]
  exact h.longest _ (List.reverse_prefix.2 hends) ((isBlank_reverse b').trans hb')

/-! ## The ends of a list -/

section Ends

variable {α : Type} {p : α → Bool} {l as xs : List α} {x : α}

theorem takeWhile_append_cons (hx : p x = false) :
    (as ++ x :: xs).takeWhile p = as.takeWhile p := by
  induction as with
  | nil => exact List.takeWhile_cons_of_neg (Bool.eq_false_iff.1 hx)
  | cons a as ih => rw [List.cons_append, List.takeWhile_cons, List.takeWhile_cons, ih]

theorem rtakeWhile_append_cons (hx : p x = false) :
    (as ++ x :: xs).rtakeWhile p = xs.rtakeWhile p := by
  rw [List.rtakeWhile, List.reverse_append, List.reverse_cons, List.append_assoc,
    List.singleton_append, takeWhile_append_cons hx]
  rfl

theorem exists_takeWhile_append_cons (h : ∃ x ∈ l, p x = false) :
    ∃ x xs, l = l.takeWhile p ++ x :: xs ∧ p x = false := by
  have hne : l.dropWhile p ≠ [] := fun hnil => by
    obtain ⟨x, hx, hpx⟩ := h
    exact Bool.eq_false_iff.1 hpx (List.dropWhile_eq_nil_iff.1 hnil x hx)
  refine ⟨(l.dropWhile p).head hne, (l.dropWhile p).tail, ?_, List.head_dropWhile_not p hne⟩
  rw [List.cons_head_tail, List.takeWhile_append_dropWhile]

theorem exists_append_cons_rtakeWhile (h : ∃ x ∈ l, p x = false) :
    ∃ x xs, l = xs ++ x :: l.rtakeWhile p ∧ p x = false := by
  obtain ⟨x, hx, hpx⟩ := h
  obtain ⟨y, ys, hl, hy⟩ := exists_takeWhile_append_cons ⟨x, List.mem_reverse.2 hx, hpx⟩
  refine ⟨y, ys.reverse, ?_, hy⟩
  have hrev := congrArg List.reverse hl
  rw [List.reverse_reverse, List.reverse_append, List.reverse_cons, List.append_assoc] at hrev
  exact hrev

/-- What is dropped at both ends of a list, where some of it is left. -/
theorem takeWhile_append_rtakeWhile (h : ∃ x ∈ l, p x = false) :
    l.takeWhile p ++ ((l.dropWhile p).rdropWhile p ++ l.rtakeWhile p) = l := by
  obtain ⟨x, xs, hl, hx⟩ := exists_takeWhile_append_cons h
  have hdrop : l.dropWhile p = x :: xs :=
    List.append_cancel_left (List.takeWhile_append_dropWhile.trans hl)
  have hend : l.rtakeWhile p = (l.dropWhile p).rtakeWhile p := by
    have hrest : ([] ++ x :: xs).rtakeWhile p = xs.rtakeWhile p := rtakeWhile_append_cons hx
    rw [hdrop, hl, rtakeWhile_append_cons hx]
    exact hrest.symm
  rw [hend, List.rdropWhile_append_rtakeWhile, List.takeWhile_append_dropWhile]

end Ends

/-! ## What is trimmed -/

/-- Whether a piece can be trimmed : all but strings and comments. -/
def Piece.canTrim (p : Piece) : Bool :=
  p.kind != .literal

/-- The text of the pieces before the first literal. -/
def leadingText (ps : List Piece) : Text :=
  (ps.takeWhile Piece.canTrim).flatMap Piece.text

/-- The text of the pieces after the last literal. -/
def trailingText (ps : List Piece) : Text :=
  (ps.rtakeWhile Piece.canTrim).flatMap Piece.text

theorem Piece.canTrim_eq_false_iff {p : Piece} : p.canTrim = false ↔ p.kind = .literal := by
  rw [Piece.canTrim, bne_eq_false_iff_eq]

theorem Piece.trimMarks_of_canTrim {p : Piece} (h : p.canTrim = true) :
    p.trimMarks = p.text.map fun c => ([c], isBlank c) :=
  trimMarks_of_ne_literal (bne_iff_ne.1 h)

theorem Piece.trimMarks_of_literal {p : Piece} (h : p.canTrim = false) :
    p.trimMarks = [(p.text, false)] :=
  if_pos (Piece.canTrim_eq_false_iff.1 h)

theorem flatMap_trimMarks_of_canTrim {ps : List Piece} (h : ∀ p ∈ ps, p.canTrim = true) :
    ps.flatMap Piece.trimMarks = (ps.flatMap Piece.text).map fun c => ([c], isBlank c) := by
  rw [List.map_flatMap]
  exact List.flatMap_congr fun p hp => Piece.trimMarks_of_canTrim (h p hp)

theorem flatMap_fst_marks (s : Text) :
    (s.map fun c => ([c], isBlank c)).flatMap Prod.fst = s :=
  flatMap_fst_trimMarks ⟨.code, s⟩

/-- Without a literal, trimming strips the whole text. -/
theorem trimPieces_of_canTrim {ps : List Piece} (h : ∀ p ∈ ps, p.canTrim = true) :
    trimPieces ps = Text.trim (ps.flatMap Piece.text) := by
  rw [trimPieces_eq, flatMap_trimMarks_of_canTrim h, List.dropWhile_map, List.rdropWhile,
    ← List.map_reverse, List.dropWhile_map, ← List.map_reverse]
  exact flatMap_fst_marks _

section Literals

variable {ps : List Piece}

theorem exists_trimMarks (h : ∃ p ∈ ps, p.canTrim = false) :
    ∃ x ∈ ps.flatMap Piece.trimMarks, x.2 = false := by
  obtain ⟨p, hp, hlit⟩ := h
  refine ⟨(p.text, false), List.mem_flatMap.2 ⟨p, hp, ?_⟩, rfl⟩
  rw [Piece.trimMarks_of_literal hlit]
  exact List.mem_singleton_self _

/-- The marks dropped at the start are the white space before the first literal. -/
theorem takeWhile_trimMarks (h : ∃ p ∈ ps, p.canTrim = false) :
    ((ps.flatMap Piece.trimMarks).takeWhile Prod.snd).flatMap Prod.fst =
      (leadingText ps).takeWhile isBlank := by
  obtain ⟨p, rest, hps, hp⟩ := exists_takeWhile_append_cons h
  have hmarks : ps.flatMap Piece.trimMarks =
      (leadingText ps).map (fun c => ([c], isBlank c)) ++
        (p.text, false) :: rest.flatMap Piece.trimMarks := by
    conv_lhs => rw [hps]
    rw [List.flatMap_append, List.flatMap_cons, Piece.trimMarks_of_literal hp,
      flatMap_trimMarks_of_canTrim fun q hq => List.mem_takeWhile_imp hq]
    rfl
  rw [hmarks, takeWhile_append_cons rfl, List.takeWhile_map]
  exact flatMap_fst_marks _

/-- The marks dropped at the end are the white space after the last literal. -/
theorem rtakeWhile_trimMarks (h : ∃ p ∈ ps, p.canTrim = false) :
    ((ps.flatMap Piece.trimMarks).rtakeWhile Prod.snd).flatMap Prod.fst =
      (trailingText ps).rtakeWhile isBlank := by
  obtain ⟨p, rest, hps, hp⟩ := exists_append_cons_rtakeWhile h
  have hmarks : ps.flatMap Piece.trimMarks = rest.flatMap Piece.trimMarks ++
      (p.text, false) :: (trailingText ps).map (fun c => ([c], isBlank c)) := by
    conv_lhs => rw [hps]
    rw [List.flatMap_append, List.flatMap_cons, Piece.trimMarks_of_literal hp,
      flatMap_trimMarks_of_canTrim fun q hq => List.mem_rtakeWhile_imp hq]
    rfl
  rw [hmarks, rtakeWhile_append_cons rfl, List.rtakeWhile, ← List.map_reverse, List.takeWhile_map,
    ← List.map_reverse]
  exact flatMap_fst_marks _

/-- With a literal, trimming takes the white space before the first and after the last. -/
theorem append_trimPieces_append (h : ∃ p ∈ ps, p.canTrim = false) :
    (leadingText ps).takeWhile isBlank ++
        (trimPieces ps ++ (trailingText ps).rtakeWhile isBlank) = ps.flatMap Piece.text := by
  rw [← takeWhile_trimMarks h, ← rtakeWhile_trimMarks h, trimPieces_eq, ← List.flatMap_append,
    ← List.flatMap_append, takeWhile_append_rtakeWhile (exists_trimMarks h), flatMap_text_eq]

end Literals

/-! ## Literals are kept -/

theorem filter_stripPieces (strip : Text → Text) (ps : List Piece) :
    (stripPieces strip ps).filter (·.kind = .literal) = ps.filter (·.kind = .literal) := by
  induction ps with
  | nil => rfl
  | cons p ps ih =>
    rw [stripPieces]
    split
    · rfl
    · next hp =>
      have hskip : ¬decide (p.kind = .literal) = true := mt of_decide_eq_true hp
      rw [List.filter_cons, if_neg hskip, ← ih]
      dsimp only
      split
      · rfl
      · rw [List.filter_cons, if_neg hskip, ih]

/-- What is left of the pieces has all their literals. -/
theorem exists_trimmed_pieces (ps : List Piece) : ∃ qs : List Piece,
    trimPieces ps = qs.flatMap Piece.text ∧
      qs.filter (·.kind = .literal) = ps.filter (·.kind = .literal) := by
  refine ⟨_, rfl, ?_⟩
  rw [List.filter_reverse, filter_stripPieces, List.filter_reverse, List.reverse_reverse,
    filter_stripPieces]

/-- Trimming takes the longest white space before the first literal and the longest after the last
one, or strips the text where there is no literal; all literals stay in full and in order. -/
theorem trimPieces_spec (ps : List Piece) :
    ((∃ p ∈ ps, p.kind = .literal) → ∃ b e, IsLeadingBlank b (leadingText ps) ∧
      IsTrailingBlank e (trailingText ps) ∧ ps.flatMap Piece.text = b ++ trimPieces ps ++ e) ∧
    ((∀ p ∈ ps, p.kind ≠ .literal) → trimPieces ps = Text.trim (ps.flatMap Piece.text)) ∧
    ∃ qs : List Piece, trimPieces ps = qs.flatMap Piece.text ∧
      qs.filter (·.kind = .literal) = ps.filter (·.kind = .literal) := by
  refine ⟨fun h => ?_, fun h => trimPieces_of_canTrim fun p hp => bne_iff_ne.2 (h p hp),
    exists_trimmed_pieces ps⟩
  refine ⟨_, _, isLeadingBlank_takeWhile _, isTrailingBlank_rtakeWhile _, ?_⟩
  rw [List.append_assoc, append_trimPieces_append]
  obtain ⟨p, hp, hlit⟩ := h
  exact ⟨p, hp, Piece.canTrim_eq_false_iff.2 hlit⟩

example : trimPieces [⟨.code, [' ']⟩, ⟨.lineBreak, ['\n']⟩, ⟨.literal, ['-', '-', ' ']⟩,
    ⟨.lineBreak, ['\n']⟩, ⟨.code, []⟩] = ['-', '-', ' '] := by
  decide

end SqlSnippet
