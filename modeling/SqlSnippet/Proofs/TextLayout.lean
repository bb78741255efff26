import Mathlib.Data.List.DropRight
import SqlSnippet.Layout.Format
import SqlSnippet.Proofs.CodeLayout

/-!
# Layout of a text

A text is laid out region by region, with the depth of brackets carried along, and then trimmed
(`laidAtoms`, `formatText_eq_flatten`). Each stretch of code is laid out up to the string or
comment after it, so the whole is the settled outline of the text, rendered
(`laidAtoms_eq_render`), if no clause word holds white space.

Other clause words change the white space only (`sameSpacing_laidAtoms`). So for all options
layout settles the outline of a text (`outline_formatText`), and puts no atom together from others
nor takes one apart (`atoms_formatText`). A laid out text is its outline rendered
(`formatText_eq_render`), and a settled outline is settled already, which makes layout idempotent
(`formatText_formatText`).
-/

namespace SqlSnippet

variable {o : LayoutOptions} {k : Clauses}

/-! ## From pieces to atoms -/

/-- What trimming goes through : a literal piece as a whole and other pieces character by
character, each with whether it can be trimmed. -/
def Piece.trimMarks (p : Piece) : List (Text × Bool) :=
  if p.kind = .literal then [(p.text, false)] else p.text.map fun c => ([c], isBlank c)

/-- The text of an atom, and whether it can be trimmed. -/
def Atom.trimMark (a : Atom) : Text × Bool :=
  (a.text, a.isBlank)

theorem map_trimMark_map_code (s : Text) :
    (s.map Atom.code).map Atom.trimMark = s.map fun c => ([c], isBlank c) := by
  rw [List.map_map]
  rfl

theorem flatMap_fst_trimMarks (p : Piece) : p.trimMarks.flatMap Prod.fst = p.text := by
  unfold Piece.trimMarks
  split
  · exact List.append_nil _
  · rw [← map_trimMark_map_code, List.flatMap_map]
    exact Atom.flatten_map_code _

/-- The text of pieces is that of their marks. -/
theorem flatMap_text_eq (ps : List Piece) :
    ps.flatMap Piece.text = (ps.flatMap Piece.trimMarks).flatMap Prod.fst := by
  rw [List.flatMap_assoc]
  exact List.flatMap_congr fun p _ => (flatMap_fst_trimMarks p).symm

theorem trimMarks_of_ne_literal {p : Piece} (hp : p.kind ≠ .literal) :
    p.trimMarks = p.text.map fun c => ([c], isBlank c) :=
  if_neg hp

/-- Stripping pieces strips their marks, from the end at which `m` starts. -/
theorem flatMap_stripPieces (strip : Text → Text) (m : Piece → List (Text × Bool))
    (hliteral : ∀ p, p.kind = .literal → m p = [(p.text, false)])
    (hother : ∀ p, p.kind ≠ .literal →
      m { p with text := strip p.text } = (m p).dropWhile Prod.snd)
    (hnil : ∀ p, p.kind ≠ .literal → (m p = [] ↔ p.text = [])) (ps : List Piece) :
    (stripPieces strip ps).flatMap m = (ps.flatMap m).dropWhile Prod.snd := by
  induction ps with
  | nil => rfl
  | cons p ps ih =>
    rw [stripPieces, List.flatMap_cons]
    split
    · next hp =>
      rw [List.flatMap_cons, hliteral p hp]
      rfl
    · next hp =>
      have hstripped := hnil { p with text := strip p.text } hp
      rw [List.dropWhile_append, ← hother p hp]
      dsimp only
      split
      · next hempty =>
        rw [hstripped.2 (List.isEmpty_iff.1 hempty), ih]
        rfl
      · next hempty =>
        rw [if_neg fun h => hempty (List.isEmpty_iff.2 (hstripped.1 (List.isEmpty_iff.1 h)))]
        rfl

theorem flatMap_trimMarks_trimStart (ps : List Piece) :
    (stripPieces Text.trimStart ps).flatMap Piece.trimMarks =
      (ps.flatMap Piece.trimMarks).dropWhile Prod.snd := by
  refine flatMap_stripPieces Text.trimStart Piece.trimMarks (fun p hp => if_pos hp)
    (fun p hp => ?_) (fun p hp => ?_) ps
  · have hstripped : ({ p with text := Text.trimStart p.text } : Piece).kind ≠ .literal := hp
    rw [trimMarks_of_ne_literal hp, trimMarks_of_ne_literal hstripped, List.dropWhile_map]
    rfl
  · rw [trimMarks_of_ne_literal hp, List.map_eq_nil_iff]

theorem flatMap_trimMarks_trimEnd (ps : List Piece) :
    (stripPieces Text.trimEnd ps).flatMap (List.reverse ∘ Piece.trimMarks) =
      (ps.flatMap (List.reverse ∘ Piece.trimMarks)).dropWhile Prod.snd := by
  refine flatMap_stripPieces Text.trimEnd (List.reverse ∘ Piece.trimMarks)
    (fun p hp => ?_) (fun p hp => ?_) (fun p hp => ?_) ps
  · rw [Function.comp_apply, Piece.trimMarks, if_pos hp]
    rfl
  · have hstripped : ({ p with text := Text.trimEnd p.text } : Piece).kind ≠ .literal := hp
    rw [Function.comp_apply, Function.comp_apply, trimMarks_of_ne_literal hp,
      trimMarks_of_ne_literal hstripped, ← List.map_reverse, ← List.map_reverse, List.dropWhile_map,
      Text.trimEnd, List.reverse_reverse]
    rfl
  · rw [Function.comp_apply, trimMarks_of_ne_literal hp, List.reverse_eq_nil_iff,
      List.map_eq_nil_iff]

/-- Trimming pieces trims their marks. -/
theorem trimPieces_eq (ps : List Piece) : trimPieces ps =
    (((ps.flatMap Piece.trimMarks).dropWhile Prod.snd).rdropWhile Prod.snd).flatMap Prod.fst := by
  rw [trimPieces, flatMap_text_eq, List.flatMap_reverse, flatMap_trimMarks_trimEnd,
    ← List.reverse_flatMap, flatMap_trimMarks_trimStart]
  rfl

/-! ## From regions to atoms -/

/-- The atoms of regions as laid out, before trimming, where the region `before` comes before them
unless that is code, and `d` brackets are open. -/
def laidAtoms (o : LayoutOptions) (k : Clauses) (before : Option Region) (d : Nat) :
    List Region → List Atom
  | [] => []
  | r :: rs =>
    if r.isProtected then .literal r :: laidAtoms o k (some r) d rs
    else (laidCode o k (before.any (·.kind == .lineComment)) d r.text).map .code ++
      laidAtoms o k none (depthAfter d r.text) rs

/-- The pieces of regions as laid out, before trimming. -/
def laidPieces (o : LayoutOptions) (k : Clauses) (d : Nat) (ps : List Piece) : List Piece :=
  (breakCommaPieces o d ps).map (Piece.breakClauses k)

theorem trimMarks_laidPieces_code (d : Nat) (s : Text) (ps : List Piece) :
    (laidPieces o k d ((if s.isEmpty then [] else [⟨.code, s⟩]) ++ ps)).flatMap Piece.trimMarks =
      ((k.breakLines (breakCommas o d false [] s)).map Atom.code).map Atom.trimMark ++
        (laidPieces o k (depthAfter d s) ps).flatMap Piece.trimMarks := by
  rw [map_trimMark_map_code]
  cases s with
  | nil => rw [breakCommas, breakLines_nil]; rfl
  | cons c s => rfl

/-- The marks of the pieces of regions are those of the laid out atoms. -/
theorem trimMarks_laidPieces (before : Option Region) (d : Nat) (rs : List Region) :
    (laidPieces o k d (piecesAfter (before.any (·.kind == .lineComment)) rs)).flatMap
        Piece.trimMarks =
      (laidAtoms o k before d rs).map Atom.trimMark := by
  induction rs generalizing before d with
  | nil => rfl
  | cons r rs ih =>
    rw [piecesAfter, laidAtoms]
    dsimp only
    split
    · exact congrArg ((r.text, false) :: ·) (ih (some r) d)
    · next hp =>
      have hcode := Region.kind_of_not_isProtected hp
      have hrest : piecesAfter (r.kind = .lineComment) rs = piecesAfter false rs := by
        rw [hcode]
        rfl
      rw [hrest, laidCode, List.map_append]
      cases before.any (·.kind == .lineComment) with
      | false =>
        rw [if_neg Bool.false_ne_true, if_neg Bool.false_ne_true, if_neg Bool.false_ne_true,
          trimMarks_laidPieces_code, depthAfter_collapse]
        exact congrArg _ (ih none _)
      | true =>
        rw [if_pos rfl, if_pos rfl, if_pos rfl]
        have hbreak : ∀ ps,
            (laidPieces o k d (⟨.lineBreak, ['\n']⟩ :: ps)).flatMap Piece.trimMarks =
              (Atom.code '\n').trimMark :: (laidPieces o k d ps).flatMap Piece.trimMarks :=
          fun _ => rfl
        rw [hbreak, trimMarks_laidPieces_code, depthAfter_collapse, depthAfter_trimStart]
        exact congrArg (_ :: _ ++ ·) (ih none _)

/-- Atoms without the white space at both ends. -/
def trimAtoms (as : List Atom) : List Atom :=
  (as.dropWhile Atom.isBlank).rdropWhile Atom.isBlank

theorem flatMap_fst_trimAtoms (as : List Atom) :
    ((((as.map Atom.trimMark).dropWhile Prod.snd).rdropWhile Prod.snd).flatMap Prod.fst) =
      Atom.flatten (trimAtoms as) := by
  unfold trimAtoms List.rdropWhile
  rw [List.dropWhile_map, ← List.map_reverse, List.dropWhile_map, ← List.map_reverse,
    List.flatMap_map]
  rfl

/-- A laid out text is its laid out atoms without the white space around them. -/
theorem formatText_eq_flatten (o : LayoutOptions) (s : Text) : formatText o s =
    Atom.flatten (trimAtoms (laidAtoms o (Clauses.ofWords o.clauseWords) none 0 (scan s))) := by
  rw [formatText, trimPieces_eq, ← flatMap_fst_trimAtoms, ← trimMarks_laidPieces]
  rfl

/-! ## Laid out atoms -/

/-- After a line comment comes code. -/
theorem kind_of_lineComment {r : Region} {rs : List Region} (h : IsReading (r :: rs))
    (hr : r.kind = .lineComment) : ∀ q ∈ rs.head?, q.kind = .code := by
  intro q hq
  obtain ⟨qs, rfl⟩ := List.head?_eq_some_iff.1 hq
  obtain ⟨kind, text, terminated⟩ := r
  obtain rfl : kind = .lineComment := hr
  by_contra hcode
  have hopens := openingKind_flatten h.2.2.2 (Region.isProtected_iff.2 hcode)
  obtain ⟨c, s, hs⟩ := List.exists_cons_of_ne_nil (l := Region.flatten (q :: qs)) (by
    rw [Region.flatten_cons]
    exact List.append_ne_nil_of_left_ne_nil h.2.2.2.1 _)
  have hg := h.2.1
  rw [hs] at hg hopens
  cases terminated with
  | false => exact hg
  | true =>
    rcases hg.2.2.2 with hnone | hbreak | hbreak
    · cases hnone
    · obtain rfl := Option.some.inj hbreak
      exact hcode hopens.symm
    · obtain rfl := Option.some.inj hbreak
      exact hcode hopens.symm

theorem settle_append_literal (before : Option Atom) (d : Nat) (cs : List Cell) (g : Bool) :
    ∃ g', ∀ r, settle before d (cs ++ [⟨g, .literal r⟩]) =
      settle before d cs ++ [⟨g', .literal r⟩] := by
  induction cs generalizing before d with
  | nil =>
    refine ⟨before.any (Atom.breaksAfter d) || g, fun r => ?_⟩
    have hcomma : (Atom.literal r).isListComma d = false := Bool.and_false _
    simp [settle, Cell.settledSpace, hcomma]
  | cons c cs ih =>
    obtain ⟨g', hg⟩ := ih (some c.atom) (c.atom.depth d)
    exact ⟨g', fun r => congrArg (_ :: ·) (hg r)⟩

theorem leadingRun_append_literal (cs : List Cell) (g : Bool) (r : Region) :
    leadingRun (cs ++ [⟨g, .literal r⟩]) = leadingRun cs := by
  have hunspaced : ∀ cs : List Cell, unspacedRun (cs ++ [⟨g, .literal r⟩]) = unspacedRun cs := by
    intro cs
    induction cs with
    | nil => cases g <;> rfl
    | cons c cs ih =>
      obtain ⟨spaced, a⟩ := c
      cases spaced <;> cases a <;> first | rfl | exact congrArg (_ :: ·) ih
  match cs with
  | [] => rfl
  | ⟨_, .literal _⟩ :: _ => rfl
  | ⟨_, .code c⟩ :: cs => exact congrArg (c :: ·) (hunspaced cs)

/-- A string or comment at the end changes nothing before it. -/
theorem render_append_literal (before : Option Atom) (d : Nat) (cs : List Cell) (g : Bool) :
    ∃ b, (∀ a ∈ b, a.isBlank = true) ∧ ∀ r, render o k before d (cs ++ [⟨g, .literal r⟩]) =
      render o k before d cs ++ (b ++ [.literal r]) := by
  induction cs generalizing before d with
  | nil => exact ⟨_, isBlank_of_mem_gap o k before d g [], fun r => rfl⟩
  | cons c cs ih =>
    obtain ⟨b, hb, hrest⟩ := ih (some c.atom) (c.atom.depth d)
    refine ⟨b, hb, fun r => ?_⟩
    have hrun := leadingRun_append_literal (c :: cs) g r
    rw [List.cons_append] at hrun
    rw [List.cons_append, render, render, hrest, gapText, hrun, List.append_assoc]
    rfl

/-- Code before a string or comment is laid out as the rendered outline. -/
theorem laidCode_append_literal (hk : k.IsSolid) (before : Option Region) (d : Nat) (x : Text)
    (q : Region) (as : List Atom) :
    (laidCode o k (before.any (·.kind == .lineComment)) d x).map .code ++
        .literal q :: render o k (some (.literal q)) (depthAfter d x)
          (settle (some (.literal q)) (depthAfter d x) (outlineAfter false as)) =
      render o k (before.map .literal) d (settle (before.map .literal) d
        (outlineAfter false (x.map .code ++ .literal q :: as))) := by
  obtain ⟨y, hy⟩ := render_settle_code o k (before.map .literal) d false x q as
  have hlaid := laidCode_eq_codeRun_render (o := o) hk before d x q as
  rw [hy, codeRun_append] at hlaid
  rw [hy, hlaid]
  exact congrArg (fun z => z.map Atom.code ++ _) (List.append_nil y)

/-- Code at the end of a text is laid out as the rendered outline, with white space at its end. -/
theorem laidCode_atEnd (hk : k.IsSolid) (before : Option Region) (d : Nat) (x : Text) :
    ∃ b, (∀ a ∈ b, a.isBlank = true) ∧
      (laidCode o k (before.any (·.kind == .lineComment)) d x).map .code =
        render o k (before.map .literal) d
          (settle (before.map .literal) d (outlineAfter false (x.map .code))) ++ b := by
  -- a string is put at the end for a while, as code is laid out up to a string or comment
  have hlaid := laidCode_append_literal (o := o) hk before d x ⟨.string, [], true⟩ []
  have hcells : outlineAfter false (x.map .code ++ [.literal ⟨.string, [], true⟩]) =
      outlineAfter false (x.map .code) ++
        [⟨pendingAfter false (x.map .code), .literal ⟨.string, [], true⟩⟩] := by
    rw [outlineAfter_append]
    rfl
  obtain ⟨g, hg⟩ := settle_append_literal (before.map .literal) d
    (outlineAfter false (x.map .code)) (pendingAfter false (x.map .code))
  obtain ⟨b, hb, hrender⟩ := render_append_literal (o := o) (k := k) (before.map .literal) d
    (settle (before.map .literal) d (outlineAfter false (x.map .code))) g
  rw [hcells, hg, hrender, ← List.append_assoc] at hlaid
  exact ⟨b, hb, List.append_cancel_right hlaid⟩

/-- A string or comment is put right after code and all but line comments. -/
theorem render_settle_literal {before : Option Region}
    (hbefore : ¬before.any (·.kind == .lineComment) = true) (d : Nat) (r : Region)
    (as : List Atom) :
    render o k (before.map .literal) d (settle (before.map .literal) d
        (outlineAfter false (.literal r :: as))) =
      .literal r :: render o k (some (.literal r)) d
        (settle (some (.literal r)) d (outlineAfter false as)) := by
  have hspaced : (before.map Atom.literal).any (Atom.breaksAfter d) = false := by
    cases before with
    | none => rfl
    | some q =>
      rw [Option.map_some, Option.any_some, breaksAfter_literal]
      exact Bool.eq_false_iff.2 hbefore
  rw [outlineAfter_cons rfl, settle, render, Cell.settledSpace, hspaced, Bool.false_or,
    Bool.and_false]
  rfl

/-- Laid out atoms are the rendered settled outline, with white space at the end that trimming
takes off. -/
theorem laidAtoms_eq_render (hk : k.IsSolid) : ∀ {rs : List Region} (before : Option Region)
    (d : Nat), IsReading rs →
    (before.any (·.kind == .lineComment) = true → ∀ q ∈ rs.head?, q.kind = .code) →
    ∃ b, (∀ a ∈ b, a.isBlank = true) ∧ laidAtoms o k before d rs =
      render o k (before.map .literal) d
        (settle (before.map .literal) d (outlineAfter false (rs.flatMap Region.atoms))) ++ b
  | [], _, _, _, _ => ⟨[], List.forall_mem_nil _, rfl⟩
  | r :: rs, before, d, h, hbefore => by
    by_cases hp : r.isProtected = true
    · obtain ⟨b, hb, hrest⟩ := laidAtoms_eq_render hk (some r) d h.2.2.2 fun hline =>
        kind_of_lineComment h (beq_iff_eq.1 hline)
      have hline : ¬before.any (·.kind == .lineComment) = true := fun hline =>
        Region.isProtected_iff.1 hp (hbefore hline r rfl)
      refine ⟨b, hb, ?_⟩
      rw [laidAtoms, if_pos hp, hrest, List.flatMap_cons, Region.atoms, if_pos hp,
        List.singleton_append, render_settle_literal hline]
      rfl
    · have hatoms : r.atoms = r.text.map .code := if_neg hp
      rw [laidAtoms, if_neg hp, List.flatMap_cons, hatoms]
      cases rs with
      | nil =>
        rw [laidAtoms, List.append_nil, List.flatMap_nil, List.append_nil]
        exact laidCode_atEnd hk before d r.text
      | cons q rs =>
        have hq : q.isProtected = true :=
          Region.isProtected_iff.2 (h.2.2.1 (Region.kind_of_not_isProtected hp) q rfl)
        obtain ⟨b, hb, hrest⟩ := laidAtoms_eq_render hk (some q) (depthAfter d r.text)
          h.2.2.2.2.2.2 fun hline => kind_of_lineComment h.2.2.2 (beq_iff_eq.1 hline)
        have hqatoms : q.atoms = [.literal q] := if_pos hq
        refine ⟨b, hb, ?_⟩
        rw [laidAtoms, if_pos hq, hrest, List.flatMap_cons, hqatoms, List.singleton_append,
          ← laidCode_append_literal hk, List.append_assoc]
        rfl

/-! ## Any clause words -/

/-- Clause words change nothing but white space. -/
theorem sameSpacing_laidAtoms (before : Option Region) (d : Nat) (rs : List Region) :
    SameSpacing (laidAtoms o k before d rs) (laidAtoms o noClauses before d rs) := by
  have hcode : ∀ x : Text, SameSpacing ((k.breakLines x).map .code)
      ((noClauses.breakLines x).map .code) := fun x g =>
    ⟨(sameSpacing_breakLines k x g).1.trans (sameSpacing_breakLines noClauses x g).1.symm,
      (sameSpacing_breakLines k x g).2.trans (sameSpacing_breakLines noClauses x g).2.symm⟩
  induction rs generalizing before d with
  | nil => exact .refl _
  | cons r rs ih =>
    rw [laidAtoms, laidAtoms]
    split
    · exact (ih _ _).cons _
    · refine SameSpacing.append ?_ (ih _ _)
      unfold laidCode
      split
      · exact (hcode _).cons _
      · exact hcode _

theorem commentsEnd_map_code_append (s : Text) {as : List Atom} (h : CommentsEnd as) :
    CommentsEnd (s.map .code ++ as) := by
  induction s with
  | nil => exact h
  | cons c s ih => exact ⟨nofun, ih⟩

/-- A line comment is followed by a line break in the laid out atoms. -/
theorem commentsEnd_laidAtoms {rs : List Region} (h : IsReading rs) (before : Option Region)
    (d : Nat) : CommentsEnd (laidAtoms o k before d rs) := by
  induction rs generalizing before d with
  | nil => trivial
  | cons r rs ih =>
    rw [laidAtoms]
    split
    · refine ⟨fun hline a ha => ?_, ih h.2.2.2 _ _⟩
      have hcode := kind_of_lineComment h (beq_iff_eq.1 hline)
      cases rs with
      | nil => cases ha
      | cons q rs =>
        have hq : ¬q.isProtected = true := fun hq => Region.isProtected_iff.1 hq (hcode q rfl)
        have hbefore : (some r).any (·.kind == .lineComment) = true := hline
        rw [laidAtoms, if_neg hq, laidCode, if_pos hbefore] at ha
        obtain rfl := Option.some.inj ha
        exact ⟨'\n', rfl, by decide⟩
    · exact commentsEnd_map_code_append _ (ih h.2.2.2 _ _)

/-! ## Trimmed atoms -/

theorem isBlank_getLast?_trimAtoms (as : List Atom) :
    ∀ a ∈ (trimAtoms as).getLast?, a.isBlank = false := by
  intro a ha
  obtain ⟨hne, rfl⟩ := List.mem_getLast?_eq_getLast ha
  exact Bool.eq_false_iff.2 (List.rdropWhile_last_not _ _ hne)

/-- Trimming cuts off white space at both ends. -/
theorem exists_trimAtoms (as : List Atom) : ∃ b e, (∀ a ∈ e, a.isBlank = true) ∧
    as = b ++ (trimAtoms as ++ e) ∧ as.dropWhile Atom.isBlank = trimAtoms as ++ e := by
  have hend : as.dropWhile Atom.isBlank =
      trimAtoms as ++ (as.dropWhile Atom.isBlank).rtakeWhile Atom.isBlank :=
    List.rdropWhile_append_rtakeWhile.symm
  refine ⟨as.takeWhile Atom.isBlank, _, fun a ha => List.mem_rtakeWhile_imp ha, ?_, hend⟩
  rw [← hend, List.takeWhile_append_dropWhile]

theorem outlineAfter_trimAtoms (as : List Atom) :
    outlineAfter false (trimAtoms as) = unspaceFirst (outlineAfter false as) := by
  obtain ⟨-, e, he, -, heq⟩ := exists_trimAtoms as
  rw [← outlineAfter_dropWhile false as, heq, outlineAfter_append, (outlineAfter_of_blank he _).1,
    List.append_nil]

theorem commentsEnd_trimAtoms {as : List Atom} (h : CommentsEnd as) :
    CommentsEnd (trimAtoms as) := by
  obtain ⟨b, e, -, heq, -⟩ := exists_trimAtoms as
  rw [heq] at h
  exact (commentsEnd_of_append (commentsEnd_of_append h).2).1

/-! ## Laid out text -/

theorem isBlank_of_mem_settle_outline (s : Text) :
    ∀ c ∈ settle none 0 (outline s), c.atom.isBlank = false :=
  isBlank_of_mem_settle (fun _ hc => isBlank_of_mem_outlineAfter hc) none 0

theorem exists_laidAtoms_scan (hk : k.IsSolid) (s : Text) : ∃ b, (∀ a ∈ b, a.isBlank = true) ∧
    laidAtoms o k none 0 (scan s) = render o k none 0 (settle none 0 (outline s)) ++ b :=
  laidAtoms_eq_render hk none 0 (isReading_scan s) nofun

/-- The outline of the laid out atoms of a text is settled. -/
theorem outlineAfter_trimAtoms_laidAtoms (o : LayoutOptions) (k : Clauses) (s : Text) :
    outlineAfter false (trimAtoms (laidAtoms o k none 0 (scan s))) = settled (outline s) := by
  obtain ⟨b, hb, hlaid⟩ := exists_laidAtoms_scan (o := o) isSolid_noClauses s
  rw [outlineAfter_trimAtoms, (sameSpacing_laidAtoms none 0 (scan s) false).1, hlaid,
    outlineAfter_render (isBlank_of_mem_settle_outline s) hb]
  rfl

/-- Layout puts no atom together from others and takes none apart. -/
theorem atoms_formatText (o : LayoutOptions) (s : Text) : atoms (formatText o s) =
    trimAtoms (laidAtoms o (Clauses.ofWords o.clauseWords) none 0 (scan s)) := by
  rw [formatText_eq_flatten]
  refine atoms_flatten (isFit_of_isLinked (g := false) ?_
    (commentsEnd_trimAtoms (commentsEnd_laidAtoms (isReading_scan s) none 0))
    (isBlank_getLast?_trimAtoms _))
  rw [outlineAfter_trimAtoms_laidAtoms]
  exact isLinked_settled (isLinked_outlineAfter (isFit_atoms s) false)

/-- Layout settles the outline of a text. -/
theorem outline_formatText (o : LayoutOptions) (s : Text) :
    outline (formatText o s) = settled (outline s) := by
  rw [outline, atoms_formatText, outlineAfter_trimAtoms_laidAtoms]

theorem isBlank_getLast?_render (before : Option Atom) (d : Nat) {cs : List Cell}
    (hcs : ∀ c ∈ cs, c.atom.isBlank = false) :
    ∀ a ∈ (render o k before d cs).getLast?, a.isBlank = false := by
  induction cs generalizing before d with
  | nil => nofun
  | cons c cs ih =>
    obtain ⟨hc, hcs'⟩ := List.forall_mem_cons.1 hcs
    intro a ha
    rw [render, List.getLast?_append_of_ne_nil _ (List.cons_ne_nil _ _)] at ha
    cases hrest : render o k (some c.atom) (c.atom.depth d) cs with
    | nil =>
      rw [hrest] at ha
      obtain rfl := Option.some.inj ha
      exact hc
    | cons b bs =>
      rw [hrest, List.getLast?_cons_cons, ← hrest] at ha
      exact ih _ _ hcs' a ha

theorem rdropWhile_append_blanks {as b : List Atom}
    (has : ∀ a ∈ as.getLast?, a.isBlank = false) (hb : ∀ a ∈ b, a.isBlank = true) :
    (as ++ b).rdropWhile Atom.isBlank = as := by
  have hself : as.rdropWhile Atom.isBlank = as :=
    List.rdropWhile_eq_self_iff.2 fun hne =>
      Bool.eq_false_iff.1 (has _ (List.getLast?_eq_some_getLast hne))
  have hrev : ∀ a ∈ b.reverse, a.isBlank = true := fun a ha => hb a (List.mem_reverse.1 ha)
  rw [List.rdropWhile, List.reverse_append, List.dropWhile_append_of_pos hrev]
  exact hself

/-- Trimming a rendered outline takes the white space before its first cell. -/
theorem trimAtoms_render {before : Option Atom} {d : Nat} {cs : List Cell} {b : List Atom}
    (hcs : ∀ c ∈ cs, c.atom.isBlank = false) (hb : ∀ a ∈ b, a.isBlank = true) :
    trimAtoms (render o k before d cs ++ b) = render o k before d (unspaceFirst cs) := by
  unfold trimAtoms
  cases cs with
  | nil =>
    have hall : b.dropWhile Atom.isBlank = [] := List.dropWhile_eq_nil_iff.2 hb
    exact congrArg (List.rdropWhile Atom.isBlank) hall
  | cons c cs =>
    obtain ⟨hc, hcs'⟩ := List.forall_mem_cons.1 hcs
    have hgap := isBlank_of_mem_gap o k before d c.spaced (c :: cs)
    have hfirst : ∀ e ∈ unspaceFirst (c :: cs), e.atom.isBlank = false :=
      List.forall_mem_cons.2 ⟨hc, hcs'⟩
    rw [render, List.append_assoc, List.dropWhile_append_of_pos hgap, List.cons_append,
      List.dropWhile_cons_of_neg (Bool.eq_false_iff.1 hc)]
    exact rdropWhile_append_blanks (isBlank_getLast?_render before d hfirst) hb

/-- With solid clause words, a laid out text is its settled outline, rendered. -/
theorem formatText_eq_render (o : LayoutOptions) (s : Text)
    (hk : (Clauses.ofWords o.clauseWords).IsSolid) : formatText o s =
      Atom.flatten (render o (Clauses.ofWords o.clauseWords) none 0 (settled (outline s))) := by
  obtain ⟨b, hb, hlaid⟩ := exists_laidAtoms_scan (o := o) hk s
  rw [formatText_eq_flatten, hlaid, trimAtoms_render (isBlank_of_mem_settle_outline s) hb]
  rfl

/-- With solid clause words, laying out a laid out text changes nothing. -/
theorem formatText_formatText (o : LayoutOptions) (s : Text)
    (hk : (Clauses.ofWords o.clauseWords).IsSolid) :
    formatText o (formatText o s) = formatText o s := by
  rw [formatText_eq_render o (formatText o s) hk, outline_formatText, settled_settled,
    ← formatText_eq_render o s hk]

/-! ## Options that a text is laid out by -/

section Options

variable {o o' : LayoutOptions}

theorem breakCommas_congr (h : o.indent = o'.indent) (d : Nat) (skip : Bool) (held s : Text) :
    breakCommas o d skip held s = breakCommas o' d skip held s := by
  induction s generalizing d skip held with
  | nil => rfl
  | cons c s ih => simp only [breakCommas, h, ih]

theorem breakCommaPieces_congr (h : o.indent = o'.indent) (d : Nat) (ps : List Piece) :
    breakCommaPieces o d ps = breakCommaPieces o' d ps := by
  induction ps generalizing d with
  | nil => rfl
  | cons p ps ih => simp only [breakCommaPieces, breakCommas_congr h, ih]

/-- Of the options only the indent and the clause words bear on how one text is laid out. -/
theorem formatText_congr_options (hindent : o.indent = o'.indent)
    (hwords : Clauses.ofWords o.clauseWords = Clauses.ofWords o'.clauseWords) (s : Text) :
    formatText o s = formatText o' s := by
  rw [formatText, formatText, breakCommaPieces_congr hindent, hwords]

theorem formatDocument_congr_options (hindent : o.indent = o'.indent)
    (hwords : Clauses.ofWords o.clauseWords = Clauses.ofWords o'.clauseWords)
    (hsplit : o.splitStatements = o'.splitStatements) (s : Text) :
    formatDocument o s = formatDocument o' s := by
  have htext : formatText o = formatText o' := funext (formatText_congr_options hindent hwords)
  rw [formatDocument, formatDocument, formatScript, formatScript, htext, hsplit]

end Options

end SqlSnippet
