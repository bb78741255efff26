import SqlSnippet.Proofs.ClauseBreaks

/-!
# Layout of code

What layout makes of one stretch of code can be read off its outline (`render`) : before each cell
that white space stands before, layout puts a line break after a line comment or before a clause
word, a line break and the indent after a list comma, and one space elsewhere (`gapText`).

The three steps of layout are followed one by one : collapsing white space leaves an outline with
single spaces (`collapse_eq_inlineText`), breaking lines at commas renders the settled outline
without clause words (`breaksCommas`), and breaking lines at clause words adds those
(`breakLines_codeRun_render`).
-/

namespace SqlSnippet

/-! ## Rendering -/

/-- The code that a list of atoms starts with. -/
def codeRun : List Atom → Text
  | .code c :: as => c :: codeRun as
  | _ => []

/-- The code that follows without white space. -/
def unspacedRun : List Cell → Text
  | ⟨false, .code c⟩ :: cs => c :: unspacedRun cs
  | _ => []

/-- The code of an outline from its first cell to the next white space. -/
def leadingRun : List Cell → Text
  | ⟨_, .code c⟩ :: cs => c :: unspacedRun cs
  | _ => []

/-- The white space that layout puts before an outline, where the atom `before` comes before it
and `d` brackets are open. -/
def gapText (o : LayoutOptions) (k : Clauses) (before : Option Atom) (d : Nat)
    (cs : List Cell) : Text :=
  if before.any Atom.isLineComment || k.breaksAt (leadingRun cs) then ['\n']
  else if before.any (Atom.isListComma d) then '\n' :: o.indent
  else [' ']

/-- The atoms of an outline with the white space of layout. -/
def render (o : LayoutOptions) (k : Clauses) (before : Option Atom) (d : Nat) :
    List Cell → List Atom
  | [] => []
  | c :: cs =>
    (if c.spaced then gapText o k before d (c :: cs) else []).map .code ++
      c.atom :: render o k (some c.atom) (c.atom.depth d) cs

variable {o : LayoutOptions} {k : Clauses}

theorem isBlank_of_mem_indent (o : LayoutOptions) : ∀ c ∈ o.indent, isBlank c = true := by
  intro c hc
  unfold LayoutOptions.indent at hc
  split at hc
  · rw [List.mem_singleton.1 hc]
    decide
  · rw [(List.mem_replicate.1 hc).2]
    decide

theorem isBlank_of_mem_gapText (o : LayoutOptions) (k : Clauses) (before : Option Atom) (d : Nat)
    (cs : List Cell) : ∀ c ∈ gapText o k before d cs, isBlank c = true := by
  unfold gapText
  split
  · exact List.forall_mem_singleton.2 (by decide)
  · split
    · exact List.forall_mem_cons.2 ⟨by decide, isBlank_of_mem_indent o⟩
    · exact List.forall_mem_singleton.2 (by decide)

/-- What layout puts before a cell is white space. -/
theorem isBlank_of_mem_gap (o : LayoutOptions) (k : Clauses) (before : Option Atom) (d : Nat)
    (spaced : Bool) (cs : List Cell) :
    ∀ a ∈ (if spaced then gapText o k before d cs else []).map Atom.code, a.isBlank = true := by
  refine List.forall_mem_map.2 fun c hc => ?_
  split at hc
  · exact isBlank_of_mem_gapText o k before d cs c hc
  · cases hc

theorem gapText_ne_nil (o : LayoutOptions) (k : Clauses) (before : Option Atom) (d : Nat)
    (cs : List Cell) : gapText o k before d cs ≠ [] := by
  unfold gapText
  split
  · exact List.cons_ne_nil _ _
  · split <;> exact List.cons_ne_nil _ _

/-- Rendering an outline keeps it. -/
theorem outlineAfter_render {before : Option Atom} {d : Nat} {cs : List Cell} {g : List Atom}
    (hcs : ∀ c ∈ cs, c.atom.isBlank = false) (hg : ∀ a ∈ g, a.isBlank = true) :
    outlineAfter false (render o k before d cs ++ g) = cs := by
  induction cs generalizing before d with
  | nil => exact (outlineAfter_of_blank hg false).1
  | cons c cs ih =>
    obtain ⟨hc, hcs'⟩ := List.forall_mem_cons.1 hcs
    obtain ⟨spaced, a⟩ := c
    have hrest : ∀ s, outlineAfter s (a :: render o k (some a) (a.depth d) cs ++ g) =
        ⟨s, a⟩ :: cs := by
      intro s
      rw [List.cons_append, outlineAfter_cons hc, ih hcs']
    cases spaced with
    | false => exact hrest false
    | true =>
      obtain ⟨hnil, hpending⟩ := outlineAfter_of_blank
        (isBlank_of_mem_gap o k before d true (⟨true, a⟩ :: cs)) false
      have hne := gapText_ne_nil o k before d (⟨true, a⟩ :: cs)
      rw [if_pos rfl] at hnil hpending
      rw [List.isEmpty_map, List.isEmpty_eq_false_iff.2 hne] at hpending
      rw [render, if_pos rfl, List.append_assoc, outlineAfter_append, hnil, hpending]
      exact hrest true

/-! ## White space -/

/-- The code of an outline with single spaces, up to a string or comment. -/
def inlineText : List Cell → Text
  | ⟨spaced, .code c⟩ :: cs => (if spaced then [' '] else []) ++ c :: inlineText cs
  | ⟨spaced, .literal _⟩ :: _ => if spaced then [' '] else []
  | [] => []

theorem collapse_cons_of_blank {c : Char} (hc : isBlank c = true) (s : Text) :
    Text.collapse (c :: s) = ' ' :: Text.collapse (Text.trimStart s) := by
  induction s generalizing c with
  | nil =>
    rw [Text.collapse, if_pos hc]
    rfl
  | cons d s ih =>
    rw [Text.collapse, if_pos hc]
    unfold Text.trimStart
    by_cases hd : isBlank d = true
    · rw [List.dropWhile_cons_of_pos hd, if_pos hd]
      exact ih hd
    · rw [List.dropWhile_cons_of_neg hd, if_neg hd]

theorem collapse_cons {c : Char} (hc : isBlank c = false) (s : Text) :
    Text.collapse (c :: s) = c :: Text.collapse s := by
  cases s <;> exact if_neg (Bool.eq_false_iff.1 hc)

/-- Collapsed code is its outline with single spaces, and likewise where white space comes before
it. -/
theorem collapse_and_trimStart_eq_inlineText (x : Text) (r : Region) (as : List Atom) :
    Text.collapse x = inlineText (outlineAfter false (x.map .code ++ .literal r :: as)) ∧
      ' ' :: Text.collapse (Text.trimStart x) =
        inlineText (outlineAfter true (x.map .code ++ .literal r :: as)) := by
  induction x with
  | nil => exact ⟨rfl, rfl⟩
  | cons c x ih =>
    rw [List.map_cons, List.cons_append]
    unfold Text.trimStart at ih ⊢
    cases hc : isBlank c with
    | true =>
      have ha : (Atom.code c).isBlank = true := hc
      rw [outlineAfter_cons_of_blank ha, outlineAfter_cons_of_blank ha,
        List.dropWhile_cons_of_pos hc, collapse_cons_of_blank hc]
      exact ⟨ih.2, ih.2⟩
    | false =>
      have ha : (Atom.code c).isBlank = false := hc
      rw [outlineAfter_cons ha, outlineAfter_cons ha,
        List.dropWhile_cons_of_neg (Bool.eq_false_iff.1 hc), collapse_cons hc, ih.1]
      exact ⟨rfl, rfl⟩

theorem collapse_eq_inlineText (x : Text) (r : Region) (as : List Atom) :
    Text.collapse x = inlineText (outlineAfter false (x.map .code ++ .literal r :: as)) :=
  (collapse_and_trimStart_eq_inlineText x r as).1

/-! ## List commas -/

theorem depthAfter_cons (d : Nat) (c : Char) (s : Text) :
    depthAfter d (c :: s) = depthAfter (depthAfter d [c]) s := rfl

theorem depthAfter_append (d : Nat) (s u : Text) :
    depthAfter d (s ++ u) = depthAfter (depthAfter d s) u := by
  induction s generalizing d with
  | nil => rfl
  | cons c s ih => rw [List.cons_append, depthAfter_cons, depthAfter_cons d c s, ih]

/-- White space opens and closes no bracket. -/
theorem depthAfter_cons_of_blank {c : Char} (hc : isBlank c = true) (d : Nat) (s : Text) :
    depthAfter d (c :: s) = depthAfter d s := by
  have hne : c ≠ '(' ∧ c ≠ ')' := by
    constructor <;> rintro rfl <;> cases hc
  rw [depthAfter, if_neg hne.1, if_neg hne.2]

theorem depthAfter_of_blank {b : Text} (hb : ∀ c ∈ b, isBlank c = true) (d : Nat) :
    depthAfter d b = d := by
  induction b with
  | nil => rfl
  | cons c b ih =>
    obtain ⟨hc, hb⟩ := List.forall_mem_cons.1 hb
    rw [depthAfter_cons_of_blank hc, ih hb]

theorem depthAfter_trimStart (d : Nat) (s : Text) :
    depthAfter d (Text.trimStart s) = depthAfter d s := by
  unfold Text.trimStart
  induction s with
  | nil => rfl
  | cons c s ih =>
    cases hc : isBlank c with
    | true => rw [List.dropWhile_cons_of_pos hc, ih, depthAfter_cons_of_blank hc]
    | false => rw [List.dropWhile_cons_of_neg (Bool.eq_false_iff.1 hc)]

theorem depthAfter_collapse (d : Nat) (s : Text) :
    depthAfter d (Text.collapse s) = depthAfter d s := by
  fun_induction Text.collapse s generalizing d with
  | case1 => rfl
  | case2 c hc => rw [depthAfter_cons_of_blank hc, depthAfter_cons_of_blank (by decide)]
  | case3 c hc e r he ih => rw [depthAfter_cons_of_blank hc, ih]
  | case4 c hc e r he ih =>
    rw [depthAfter_cons_of_blank hc, depthAfter_cons_of_blank (by decide), ih]
  | case5 c r hc ih => rw [depthAfter_cons, depthAfter_cons d c r, ih]

theorem breakCommas_skip_blank (d : Nat) (held s : Text) {c : Char} (hc : isBlank c = true) :
    breakCommas o d true held (c :: s) = breakCommas o d true held s := by
  rw [breakCommas, if_pos hc, if_pos rfl]

theorem breakCommas_hold_blank (d : Nat) (held s : Text) {c : Char} (hc : isBlank c = true) :
    breakCommas o d false held (c :: s) = breakCommas o d false (held ++ [c]) s := by
  rw [breakCommas, if_pos hc, if_neg Bool.false_ne_true]

theorem breakCommas_comma (skip : Bool) (held s : Text) :
    breakCommas o 0 skip held (',' :: s) =
      ',' :: ('\n' :: o.indent ++ breakCommas o 0 true [] s) := by
  rw [breakCommas, if_neg (by decide), if_pos ⟨rfl, rfl⟩]
  rfl

theorem breakCommas_cons {d : Nat} {c : Char} (hc : isBlank c = false)
    (hcomma : (Atom.code c).isListComma d = false) (skip : Bool) (held s : Text) :
    breakCommas o d skip held (c :: s) =
      held ++ c :: breakCommas o (depthAfter d [c]) false [] s := by
  have hne : ¬(c = ',' ∧ d = 0) := by
    rintro ⟨rfl, rfl⟩
    cases hcomma
  rw [breakCommas, if_neg (Bool.eq_false_iff.1 hc), if_neg hne]
  rfl

/-- Clause words of which there are none. -/
def noClauses : Clauses :=
  ⟨[], sameFold, []⟩

theorem isSolid_noClauses : noClauses.IsSolid :=
  ⟨nofun, fun _ _ h hc => isBlank_of_sameFold h hc⟩

theorem codeRun_append (s : Text) (as : List Atom) :
    codeRun (s.map .code ++ as) = s ++ codeRun as := by
  induction s with
  | nil => rfl
  | cons c s ih => exact congrArg (c :: ·) ih

/-- The code of a rendered outline, cell by cell. -/
theorem codeRun_render_cons (before : Option Atom) (d : Nat) (c : Cell) (cs : List Cell) :
    codeRun (render o k before d (c :: cs)) =
      (if c.spaced then gapText o k before d (c :: cs) else []) ++
        codeRun (c.atom :: render o k (some c.atom) (c.atom.depth d) cs) := by
  rw [render, codeRun_append]

/-- The settled outline is rendered with single spaces except after a comma outside brackets. -/
theorem codeRun_render_settle {before : Option Atom} {d : Nat}
    (h : before.any (Atom.breaksAfter d) = false) (c : Cell) (cs : List Cell) :
    codeRun (render o noClauses before d (settle before d (c :: cs))) =
      (if !c.atom.isListComma d && c.spaced then [' '] else []) ++
        codeRun (c.atom :: render o noClauses (some c.atom) (c.atom.depth d)
          (settle (some c.atom) (c.atom.depth d) cs)) := by
  have hgap : ∀ cs, gapText o noClauses before d cs = [' '] := by
    intro cs
    have hnone : noClauses.breaksAt (leadingRun cs) = false := rfl
    cases before with
    | none => rfl
    | some b =>
      obtain ⟨hline, hcomma⟩ := Bool.or_eq_false_iff.1 h
      rw [gapText, hnone, Option.any_some, Option.any_some, hline, hcomma]
      rfl
  rw [settle, codeRun_render_cons, hgap, Cell.settledSpace, h, Bool.false_or]

/-- A comma outside brackets is followed by a line break and the indent. -/
theorem codeRun_render_settle_comma (c : Cell) (cs : List Cell) :
    codeRun (render o noClauses (some (.code ',')) 0 (settle (some (.code ',')) 0 (c :: cs))) =
      '\n' :: o.indent ++
        codeRun (c.atom :: render o noClauses (some c.atom) (c.atom.depth 0)
          (settle (some c.atom) (c.atom.depth 0) cs)) := by
  rw [settle, codeRun_render_cons]
  rfl

/-- A comma outside brackets is the only code that white space must follow. -/
theorem breaksAfter_code {c : Char} {d : Nat} (h : (Atom.code c).isListComma d = false) :
    (Atom.code c).breaksAfter (depthAfter d [c]) = false := by
  refine Bool.eq_false_iff.2 fun hbreak => ?_
  obtain ⟨hd, hc⟩ := Atom.isListComma_iff.1 hbreak
  obtain rfl := Atom.code.inj hc
  exact Bool.false_ne_true (h.symm.trans (Atom.isListComma_iff.2 ⟨hd, rfl⟩))

/-- Breaking lines at commas renders the settled outline : where no white space must come first,
and after a comma outside brackets, whose break takes the white space that follows. -/
structure BreaksCommas (o : LayoutOptions) (cs : List Cell) : Prop where
  plain : ∀ before d, before.any (Atom.breaksAfter d) = false →
    breakCommas o d false [] (inlineText cs) =
      codeRun (render o noClauses before d (settle before d cs))
  comma : '\n' :: o.indent ++ breakCommas o 0 true [] (inlineText cs) =
    codeRun (render o noClauses (some (.code ',')) 0 (settle (some (.code ',')) 0 cs))

theorem breaksCommas_literal (spaced : Bool) (r : Region) (cs : List Cell) :
    BreaksCommas o (⟨spaced, .literal r⟩ :: cs) := by
  refine ⟨fun before d hbefore => ?_, ?_⟩
  · rw [codeRun_render_settle hbefore]
    cases d <;> cases spaced <;> rfl
  · rw [codeRun_render_settle_comma]
    cases spaced with
    | false => rfl
    | true => exact congrArg _ (breakCommas_skip_blank 0 [] [] (by decide))

/-- What is held back is dropped before a comma outside brackets, and put out before all else. -/
theorem BreaksCommas.code {cs : List Cell} (h : BreaksCommas o cs) {c : Char}
    (hc : isBlank c = false) (d : Nat) (skip : Bool) (held : Text) :
    breakCommas o d skip held (c :: inlineText cs) =
      (if (Atom.code c).isListComma d then [] else held) ++
        codeRun (.code c :: render o noClauses (some (.code c)) (depthAfter d [c])
          (settle (some (.code c)) (depthAfter d [c]) cs)) := by
  cases hcomma : (Atom.code c).isListComma d with
  | true =>
    obtain ⟨rfl, hch⟩ := Atom.isListComma_iff.1 hcomma
    obtain rfl := Atom.code.inj hch
    rw [breakCommas_comma, h.comma]
    rfl
  | false =>
    rw [breakCommas_cons hc hcomma, h.plain (some (.code c)) _ (breaksAfter_code hcomma)]
    rfl

theorem BreaksCommas.cons {cs : List Cell} (h : BreaksCommas o cs) {c : Char}
    (hc : isBlank c = false) (spaced : Bool) : BreaksCommas o (⟨spaced, .code c⟩ :: cs) := by
  have hspace : isBlank ' ' = true := by decide
  refine ⟨fun before d hbefore => ?_, ?_⟩
  · rw [codeRun_render_settle hbefore]
    cases spaced with
    | false =>
      rw [Bool.and_false]
      refine (h.code hc d false []).trans ?_
      rw [ite_self]
      rfl
    | true =>
      refine (breakCommas_hold_blank d [] _ hspace).trans ((h.code hc d false [' ']).trans ?_)
      cases (Atom.code c).isListComma d <;> rfl
  · have hskip : breakCommas o 0 true [] (inlineText (⟨spaced, .code c⟩ :: cs)) =
        breakCommas o 0 true [] (c :: inlineText cs) := by
      cases spaced with
      | false => rfl
      | true => exact breakCommas_skip_blank 0 [] _ hspace
    rw [codeRun_render_settle_comma, hskip, h.code hc, ite_self]
    rfl

theorem breaksCommas {cs : List Cell} (hcs : ∀ c ∈ cs, c.atom.isBlank = false)
    (hlit : ∃ s r, ⟨s, .literal r⟩ ∈ cs) : BreaksCommas o cs := by
  induction cs with
  | nil =>
    obtain ⟨s, r, h⟩ := hlit
    cases h
  | cons c cs ih =>
    obtain ⟨hc, hcs'⟩ := List.forall_mem_cons.1 hcs
    obtain ⟨spaced, a⟩ := c
    cases a with
    | literal r => exact breaksCommas_literal spaced r cs
    | code ch =>
      obtain ⟨s, r, h⟩ := hlit
      rcases List.mem_cons.1 h with h | h
      · cases h
      · exact (ih hcs' ⟨s, r, h⟩).cons hc spaced

/-! ## Clause words -/

theorem exists_codeRun_render (o : LayoutOptions) (k : Clauses) (before : Option Atom) (d : Nat)
    {cs : List Cell} (hcs : ∀ c ∈ cs, c.atom.isBlank = false) :
    (∀ c ∈ unspacedRun cs, isBlank c = false) ∧
      ∃ y, codeRun (render o k before d cs) = unspacedRun cs ++ y ∧
        ∀ c ∈ y.head?, isBlank c = true := by
  induction cs generalizing before d with
  | nil => exact ⟨List.forall_mem_nil _, [], rfl, fun c hc => absurd hc (Option.not_mem_none c)⟩
  | cons c cs ih =>
    obtain ⟨hc, hcs'⟩ := List.forall_mem_cons.1 hcs
    obtain ⟨spaced, a⟩ := c
    rw [codeRun_render_cons]
    cases spaced with
    | true =>
      rw [if_pos rfl]
      refine ⟨List.forall_mem_nil _, _, (List.nil_append _).symm, fun b hb => ?_⟩
      rw [List.head?_append_of_ne_nil _ (gapText_ne_nil o k before d _)] at hb
      exact isBlank_of_mem_gapText o k before d _ b (List.mem_of_mem_head? hb)
    | false =>
      cases a with
      | literal r =>
        exact ⟨List.forall_mem_nil _, [], rfl, fun c hc => absurd hc (Option.not_mem_none c)⟩
      | code ch =>
        obtain ⟨hrun, y, hy, hhead⟩ := ih (some (.code ch)) (depthAfter d [ch]) hcs'
        exact ⟨List.forall_mem_cons.2 ⟨hc, hrun⟩, y, congrArg (ch :: ·) hy, hhead⟩

/-- A rendered outline goes on after its first run of code with white space, if at all. -/
theorem exists_codeRun_leadingRun (o : LayoutOptions) (k : Clauses) (before : Option Atom)
    (d : Nat) {c : Cell} {cs : List Cell} (hcs : ∀ e ∈ c :: cs, e.atom.isBlank = false) :
    (∀ b ∈ leadingRun (c :: cs), isBlank b = false) ∧
      ∃ y, codeRun (c.atom :: render o k before d cs) = leadingRun (c :: cs) ++ y ∧
        (∀ b ∈ y.head?, isBlank b = true) ∧ (leadingRun (c :: cs) = [] → y = []) := by
  obtain ⟨hc, hcs'⟩ := List.forall_mem_cons.1 hcs
  obtain ⟨spaced, a⟩ := c
  cases a with
  | literal r =>
    exact ⟨List.forall_mem_nil _, [], rfl, fun b hb => absurd hb (Option.not_mem_none b),
      fun _ => rfl⟩
  | code ch =>
    obtain ⟨hrun, y, hy, hhead⟩ := exists_codeRun_render o k before d hcs'
    exact ⟨List.forall_mem_cons.2 ⟨hc, hrun⟩, y, congrArg (ch :: ·) hy, hhead,
      fun h => absurd h (List.cons_ne_nil _ _)⟩

/-- Breaking lines at clause words adds their breaks to a rendered outline. -/
theorem breakLines_codeRun_render (hk : k.IsSolid) {before : Option Atom} {d : Nat}
    {cs : List Cell} (hcs : ∀ c ∈ cs, c.atom.isBlank = false) :
    k.breakLines (codeRun (render o noClauses before d cs)) =
      codeRun (render o k before d cs) := by
  induction cs generalizing before d with
  | nil => exact breakLines_nil k
  | cons c cs ih =>
    obtain ⟨hc, hcs'⟩ := List.forall_mem_cons.1 hcs
    have hrest : k.breakLines
        (codeRun (c.atom :: render o noClauses (some c.atom) (c.atom.depth d) cs)) =
          codeRun (c.atom :: render o k (some c.atom) (c.atom.depth d) cs) := by
      obtain ⟨spaced, a⟩ := c
      cases a with
      | literal r => exact breakLines_nil k
      | code ch => exact (breakLines_cons hc _).trans (congrArg (ch :: ·) (ih hcs'))
    rw [codeRun_render_cons, codeRun_render_cons]
    cases hspaced : c.spaced with
    | false => exact hrest
    | true =>
      rw [if_pos rfl, if_pos rfl]
      obtain ⟨hx, y, hy, hhead, hempty⟩ :=
        exists_codeRun_leadingRun o noClauses (some c.atom) (c.atom.depth d) hcs
      rw [← hrest, hy, breakLines_append_blanks hk (gapText_ne_nil _ _ _ _ _)
        (isBlank_of_mem_gapText _ _ _ _ _) hx hhead hempty]
      refine congrArg (· ++ _) ?_
      have hnone : noClauses.breaksAt (leadingRun (c :: cs)) = false := rfl
      rw [gapText, gapText, hnone, Bool.or_false]
      cases before.any Atom.isLineComment <;> cases k.breaksAt (leadingRun (c :: cs)) <;> rfl

/-! ## One stretch of code -/

/-- A stretch of code as laid out where `d` brackets are open; after a line comment it starts on a
new line. -/
def laidCode (o : LayoutOptions) (k : Clauses) (afterComment : Bool) (d : Nat) (x : Text) : Text :=
  if afterComment then
    '\n' :: k.breakLines (breakCommas o d false [] (Text.collapse (Text.trimStart x)))
  else k.breakLines (breakCommas o d false [] (Text.collapse x))

theorem mem_outlineAfter_append_literal (g : Bool) (x : Text) (r : Region) (as : List Atom) :
    ∃ s q, ⟨s, .literal q⟩ ∈ outlineAfter g (x.map .code ++ .literal r :: as) := by
  rw [outlineAfter_append]
  exact ⟨_, r, List.mem_append_right _ List.mem_cons_self⟩

theorem dropWhile_map_code_append (x : Text) (r : Region) (as : List Atom) :
    (x.map Atom.code ++ .literal r :: as).dropWhile Atom.isBlank =
      (Text.trimStart x).map Atom.code ++ .literal r :: as := by
  unfold Text.trimStart
  induction x with
  | nil => rfl
  | cons c x ih =>
    cases hc : isBlank c with
    | true =>
      have ha : (Atom.code c).isBlank = true := hc
      rw [List.map_cons, List.cons_append, List.dropWhile_cons_of_pos ha,
        List.dropWhile_cons_of_pos hc, ih]
    | false =>
      have ha : (Atom.code c).isBlank = false := hc
      rw [List.map_cons, List.cons_append, List.dropWhile_cons_of_neg (Bool.eq_false_iff.1 ha),
        List.dropWhile_cons_of_neg (Bool.eq_false_iff.1 hc)]
      rfl

/-- The steps of layout one after another, on code where no white space must come first. -/
theorem breakLines_breakCommas_collapse (hk : k.IsSolid) (before : Option Atom) {d : Nat}
    (hbefore : before.any (Atom.breaksAfter d) = false) (x : Text) (r : Region)
    (as : List Atom) :
    k.breakLines (breakCommas o d false [] (Text.collapse x)) = codeRun (render o k before d
      (settle before d (outlineAfter false (x.map .code ++ .literal r :: as)))) := by
  have hcells : ∀ c ∈ outlineAfter false (x.map .code ++ .literal r :: as),
      c.atom.isBlank = false := fun c hc => isBlank_of_mem_outlineAfter hc
  have hcommas := breaksCommas (o := o) hcells (mem_outlineAfter_append_literal false x r as)
  rw [collapse_eq_inlineText x r as, hcommas.plain before d hbefore,
    breakLines_codeRun_render hk (isBlank_of_mem_settle hcells before d)]

/-- After a line comment, a rendered outline starts on a new line. -/
theorem codeRun_render_settle_lineComment {b : Atom} (hb : b.isLineComment = true) (d : Nat)
    {cs : List Cell} (hcs : cs ≠ []) :
    codeRun (render o k (some b) d (settle (some b) d cs)) =
      '\n' :: codeRun (render o k none d (settle none d (unspaceFirst cs))) := by
  obtain ⟨c, cs, rfl⟩ := List.exists_cons_of_ne_nil hcs
  have hspaced : c.settledSpace (some b) d = true := by
    rw [Cell.settledSpace, Option.any_some, Atom.breaksAfter, hb]
    rfl
  have hgap : ∀ cs, gapText o k (some b) d cs = ['\n'] := by
    intro cs
    rw [gapText, Option.any_some, hb]
    rfl
  rw [settle, codeRun_render_cons, hspaced, hgap, unspaceFirst, settle, codeRun_render_cons,
    Cell.settledSpace, Option.any_none, Bool.and_false]
  rfl

/-- Laid out code is the code of the rendered outline. -/
theorem laidCode_eq_codeRun_render (hk : k.IsSolid) (before : Option Region) (d : Nat) (x : Text)
    (r : Region) (as : List Atom) :
    laidCode o k (before.any (·.kind == .lineComment)) d x =
      codeRun (render o k (before.map .literal) d (settle (before.map .literal) d
        (outlineAfter false (x.map .code ++ .literal r :: as)))) := by
  cases before with
  | none => exact breakLines_breakCommas_collapse hk none rfl x r as
  | some q =>
    cases hline : q.kind == .lineComment with
    | false =>
      rw [Option.any_some, hline]
      exact breakLines_breakCommas_collapse hk (some (.literal q))
        ((breaksAfter_literal d q).trans hline) x r as
    | true =>
      have hne : outlineAfter false (x.map .code ++ .literal r :: as) ≠ [] := by
        obtain ⟨s, p, hmem⟩ := mem_outlineAfter_append_literal false x r as
        exact List.ne_nil_of_mem hmem
      rw [Option.any_some, hline, Option.map_some,
        codeRun_render_settle_lineComment (b := .literal q) hline d hne,
        ← outlineAfter_dropWhile, dropWhile_map_code_append,
        ← breakLines_breakCommas_collapse hk none rfl]
      rfl

theorem map_code_append_cons (b y : Text) (c : Char) (as : List Atom) :
    b.map .code ++ .code c :: (y.map .code ++ as) = (b ++ c :: y).map .code ++ as := by
  rw [List.map_append, List.append_assoc]
  rfl

/-- The rendered outline goes on after the code as if it started there. -/
theorem render_settle_code (o : LayoutOptions) (k : Clauses) (before : Option Atom) (d : Nat)
    (g : Bool) (x : Text) (r : Region) (as : List Atom) :
    ∃ y : Text, render o k before d (settle before d
        (outlineAfter g (x.map .code ++ .literal r :: as))) =
      y.map .code ++ .literal r :: render o k (some (.literal r)) (depthAfter d x)
        (settle (some (.literal r)) (depthAfter d x) (outlineAfter false as)) := by
  induction x generalizing g before d with
  | nil =>
    rw [List.map_nil, List.nil_append, outlineAfter_cons rfl, settle, render]
    exact ⟨_, rfl⟩
  | cons c x ih =>
    rw [List.map_cons, List.cons_append]
    cases hc : (Atom.code c).isBlank with
    | true =>
      rw [outlineAfter_cons_of_blank hc, depthAfter_cons_of_blank hc]
      exact ih before d true
    | false =>
      obtain ⟨y, hy⟩ := ih (some (.code c)) (depthAfter d [c]) false
      rw [outlineAfter_cons hc, settle, render, depthAfter_cons]
      dsimp only [Atom.depth]
      rw [hy]
      exact ⟨_, map_code_append_cons _ _ _ _⟩

end SqlSnippet
