import SqlSnippet.Proofs.ClauseMatches
import SqlSnippet.Proofs.OpenEnd

/-!
# The normal form of a laid out text

What layout makes of a text can be recognised without laying anything out (`IsLaidOut`). Each run
of white space in the code is known from what stands around it (`IsGap`) : a line break after a
line comment or before a break word, a line break and the indent after a list comma, and one
space elsewhere. White space follows every list comma but one that ends the text, and comes
before one only after a line comment or another list comma. The text starts with no white space
and ends with none of its code. `isLaidOut_formatText` : every laid out text is of this form, if
all clause words are identifiers.

A place in a laid out text is a place in its rendered outline. Where the text before the place
does not end with white space, the rest is again a rendered outline (`exists_render_eq`), from
which the white space that comes next is read off (`eq_gapText_of_render`).
-/

namespace SqlSnippet

/-! ## Places in code -/

/-- The code `x` stands in a text : in its region the code `l` comes before it and `r` after it,
and the regions `rs` come before that region and `qs` after it. -/
def CodeStands (t : Text) (rs : List Region) (l x r : Text) (qs : List Region) : Prop :=
  scan t = rs ++ ⟨.code, l ++ (x ++ r), true⟩ :: qs

/-- How many brackets are open after the regions `rs` and the code `l`. -/
def openBrackets (rs : List Region) (l : Text) : Nat :=
  depthAfter 0 (Region.codeText rs ++ l)

/-- A line comment comes right before, after the regions `rs` and the code `l`. -/
def AfterLineComment (rs : List Region) (l : Text) : Prop :=
  l = [] ∧ ∃ q ∈ rs.getLast?, q.kind = .lineComment

/-- A comma outside brackets comes right before, after the regions `rs` and the code `l`. -/
def AfterListComma (rs : List Region) (l : Text) : Prop :=
  l.getLast? = some ',' ∧ openBrackets rs l = 0

/-- A break word comes next, where the code `r` and the regions `qs` follow. -/
def BeforeBreakWord (o : LayoutOptions) (r : Text) (qs : List Region) : Prop :=
  IsBreakWord o.clauseWords (r ++ Region.flatten qs)

/-! ## The normal form -/

/-- The white space that stands at a place : a line break after a line comment and before a break
word, else a line break and the indent after a list comma, else a space. -/
structure IsGap (o : LayoutOptions) (rs : List Region) (l b r : Text) (qs : List Region) :
    Prop where
  lineBreak : AfterLineComment rs l ∨ BeforeBreakWord o r qs → b = ['\n']
  indent : ¬(AfterLineComment rs l ∨ BeforeBreakWord o r qs) → AfterListComma rs l →
    b = '\n' :: o.indent
  space : ¬(AfterLineComment rs l ∨ BeforeBreakWord o r qs) → ¬AfterListComma rs l → b = [' ']

/-- The text is of the form that layout gives. -/
structure IsLaidOut (o : LayoutOptions) (t : Text) : Prop where
  /-- Each run of white space in code is the one of its place. -/
  gap : ∀ rs l b r qs, CodeStands t rs l b r qs → b ≠ [] → (∀ c ∈ b, isBlank c = true) →
    (∀ c ∈ l.getLast?, isBlank c = false) → (∀ c ∈ r.head?, isBlank c = false) →
    IsGap o rs l b r qs
  /-- A comma outside brackets ends the text or has white space after it. -/
  afterComma : ∀ rs l r qs, CodeStands t rs l [','] r qs → openBrackets rs l = 0 →
    (r = [] ∧ qs = []) ∨ ∃ c ∈ r.head?, isBlank c = true
  /-- White space comes before a comma outside brackets only after a line comment or another such
  comma. -/
  beforeComma : ∀ rs l b r qs, CodeStands t rs l (b ++ [',']) r qs → b ≠ [] →
    (∀ c ∈ b, isBlank c = true) → (∀ c ∈ l.getLast?, isBlank c = false) →
    openBrackets rs (l ++ b) = 0 → AfterLineComment rs l ∨ AfterListComma rs l
  /-- The text starts with no white space. -/
  start : ∀ c ∈ t.head?, isBlank c = false
  /-- The text ends with no white space in code. -/
  stop : ∀ q ∈ (scan t).getLast?, q.kind = .code → ∀ c ∈ q.text.getLast?, isBlank c = false

variable {o : LayoutOptions} {k : Clauses}

/-! ## Places in a rendered outline -/

/-- How many brackets are open after a list of atoms. -/
def Atom.depthAfterAll (d : Nat) (as : List Atom) : Nat :=
  as.foldl Atom.depth d

theorem Atom.depthAfterAll_map_code (d : Nat) (s : Text) :
    Atom.depthAfterAll d (s.map .code) = depthAfter d s := by
  induction s generalizing d with
  | nil => rfl
  | cons c s ih => exact ih _

theorem Atom.depthAfterAll_append (d : Nat) (as bs : List Atom) :
    Atom.depthAfterAll d (as ++ bs) = Atom.depthAfterAll (Atom.depthAfterAll d as) bs :=
  List.foldl_append

theorem isBlank_of_mem_map_code {b : Text} (hb : ∀ c ∈ b, isBlank c = true) :
    ∀ a ∈ b.map Atom.code, a.isBlank = true :=
  List.forall_mem_map.2 hb

theorem depthAfterAll_of_blank {b : Text} (hb : ∀ c ∈ b, isBlank c = true) (d : Nat) :
    Atom.depthAfterAll d (b.map .code) = d := by
  rw [Atom.depthAfterAll_map_code, depthAfter_of_blank hb]

theorem getLast?_cons_or (a : Atom) (as : List Atom) (before : Option Atom) :
    (a :: as).getLast?.or before = as.getLast?.or (some a) := by
  rw [List.getLast?_cons]
  cases as.getLast? <;> rfl

theorem settle_tail {before : Option Atom} {d : Nat} {c : Cell} {cs : List Cell}
    (h : settle before d (c :: cs) = c :: cs) :
    settle (some c.atom) (c.atom.depth d) cs = cs :=
  (List.cons.inj h).2

/-- Where the part of a rendered outline before a place does not end with white space, the rest is
a rendered outline, which is settled if the whole is. -/
theorem exists_render_eq {before : Option Atom} {d : Nat} {cs : List Cell} {as zs : List Atom}
    (h : render o k before d cs = as ++ zs) (has : ∀ a ∈ as.getLast?, a.isBlank = false) :
    ∃ ys, (∀ y ∈ ys, y ∈ cs) ∧
      zs = render o k (as.getLast?.or before) (Atom.depthAfterAll d as) ys ∧
      (settle before d cs = cs →
        settle (as.getLast?.or before) (Atom.depthAfterAll d as) ys = ys) := by
  induction cs generalizing before d as with
  | nil =>
    obtain ⟨rfl, rfl⟩ := List.append_eq_nil_iff.1 h.symm
    exact ⟨[], nofun, rfl, id⟩
  | cons c cs ih =>
    rcases as.eq_nil_or_concat' with rfl | ⟨as', a, rfl⟩
    · exact ⟨c :: cs, fun _ => id, h.symm, id⟩
    have ha : a.isBlank = false := has a List.getLast?_concat
    have hgap := isBlank_of_mem_gap o k before d c.spaced (c :: cs)
    rw [render] at h
    generalize hg : (if c.spaced then gapText o k before d (c :: cs) else []) = g at h hgap
    have hnot : a ∉ g.map Atom.code := fun hmem =>
      Bool.false_ne_true (ha.symm.trans (hgap a hmem))
    rcases List.append_eq_append_iff.1 h with ⟨z, hz, hrest⟩ | ⟨z, hz, -⟩
    · cases z with
      | nil =>
        rw [List.append_nil] at hz
        exact absurd (hz ▸ List.mem_append_right as' List.mem_cons_self) hnot
      | cons e z =>
        obtain rfl := (List.cons.inj hrest).1
        rw [hz] at has ⊢
        have hlast : ∀ a ∈ z.getLast?, a.isBlank = false := by
          intro a ha
          refine has a ?_
          rw [List.getLast?_append_of_ne_nil _ (List.cons_ne_nil _ _), List.getLast?_cons, ha]
          rfl
        obtain ⟨ys, hmem, hzs, hset⟩ := ih (List.cons.inj hrest).2 hlast
        have hblank : ∀ c ∈ g, isBlank c = true := List.forall_mem_map.1 hgap
        rw [List.getLast?_append_of_ne_nil _ (List.cons_ne_nil _ _), getLast?_cons_or,
          Atom.depthAfterAll_append, depthAfterAll_of_blank hblank]
        exact ⟨ys, fun y hy => List.mem_cons_of_mem c (hmem y hy), hzs,
          fun hs => hset (settle_tail hs)⟩
    · exact absurd (hz ▸ List.mem_append_left z (List.mem_append_right as' List.mem_cons_self)) hnot

/-- White space that a rendered outline starts with is that of its first cell. -/
theorem eq_gapText_of_render {before : Option Atom} {d : Nat} {ys : List Cell} {b : Text}
    {zs : List Atom} (hys : ∀ y ∈ ys, y.atom.isBlank = false) (hne : b ≠ [])
    (hb : ∀ c ∈ b, isBlank c = true) (hzs : ∀ a ∈ zs.head?, a.isBlank = false)
    (h : b.map .code ++ zs = render o k before d ys) :
    ∃ c ys', ys = c :: ys' ∧ c.spaced = true ∧ b = gapText o k before d (c :: ys') ∧
      zs = c.atom :: render o k (some c.atom) (c.atom.depth d) ys' := by
  cases ys with
  | nil => exact absurd (List.map_eq_nil_iff.1 (List.append_eq_nil_iff.1 h).1) hne
  | cons c ys =>
    rw [render] at h
    obtain ⟨hgap, hrest⟩ := append_stop_inj (isBlank_of_mem_map_code hb)
      (isBlank_of_mem_gap o k before d c.spaced (c :: ys)) hzs
      (by rintro a ⟨⟩; exact hys c List.mem_cons_self) h
    have heq := List.map_injective_iff.2 (fun _ _ => Atom.code.inj) hgap
    cases hspaced : c.spaced with
    | false =>
      rw [hspaced] at heq
      exact absurd heq hne
    | true =>
      rw [hspaced] at heq
      exact ⟨c, ys, rfl, hspaced, heq, hrest⟩

/-- The clause words see all code up to a string or comment. -/
theorem breaksAt_codeRun (hk : k.IsSolid) {before : Option Atom} {d : Nat} {c : Cell}
    {ys : List Cell} (hys : ∀ y ∈ c :: ys, y.atom.isBlank = false) :
    k.breaksAt (codeRun (c.atom :: render o k before d ys)) =
      k.breaksAt (leadingRun (c :: ys)) := by
  obtain ⟨-, y, hy, hhead, -⟩ := exists_codeRun_leadingRun o k before d hys
  rw [hy, breaksAt_append hk hhead]

/-! ## Places in a text -/

/-- The atoms before a place in code. -/
def atomsBefore (rs : List Region) (l : Text) : List Atom :=
  rs.flatMap Region.atoms ++ l.map .code

variable {t l x r : Text} {rs qs : List Region}

theorem depthAfterAll_flatMap_atoms (d : Nat) (rs : List Region) :
    Atom.depthAfterAll d (rs.flatMap Region.atoms) = depthAfter d (Region.codeText rs) := by
  induction rs generalizing d with
  | nil => rfl
  | cons r rs ih =>
    rw [List.flatMap_cons, Atom.depthAfterAll_append, ih, Region.codeText_cons, depthAfter_append,
      Region.atoms]
    split
    · rfl
    · rw [Atom.depthAfterAll_map_code]

theorem depthAfterAll_atomsBefore (rs : List Region) (l : Text) :
    Atom.depthAfterAll 0 (atomsBefore rs l) = openBrackets rs l := by
  rw [atomsBefore, Atom.depthAfterAll_append, depthAfterAll_flatMap_atoms,
    Atom.depthAfterAll_map_code, ← depthAfter_append]
  rfl

theorem openBrackets_append (rs : List Region) (l x : Text) :
    openBrackets rs (l ++ x) = depthAfter (openBrackets rs l) x := by
  rw [openBrackets, ← List.append_assoc, depthAfter_append]
  rfl

namespace CodeStands

theorem atoms_eq (h : CodeStands t rs l x r qs) :
    atoms t = atomsBefore rs l ++ (x.map .code ++ (r.map .code ++ qs.flatMap Region.atoms)) := by
  have hcode : Region.atoms ⟨.code, l ++ (x ++ r), true⟩ = (l ++ (x ++ r)).map .code := rfl
  rw [atoms, h, List.flatMap_append, List.flatMap_cons, hcode, atomsBefore]
  simp only [List.map_append, List.append_assoc]

/-- Code that stands in a text can be moved to what comes before. -/
theorem shift {x y : Text} (h : CodeStands t rs l (x ++ y) r qs) :
    CodeStands t rs (l ++ x) y r qs := by
  unfold CodeStands at h ⊢
  rwa [List.append_assoc, ← List.append_assoc x]

/-- The regions next to code are strings and comments. -/
theorem isProtected (h : CodeStands t rs l x r qs) :
    (∀ q ∈ rs.getLast?, q.isProtected = true) ∧ ∀ q ∈ qs.head?, q.isProtected = true := by
  obtain ⟨-, -, hchain⟩ := isReading_iff.1 (isReading_scan t)
  rw [h, List.isChain_append, List.isChain_cons] at hchain
  obtain ⟨-, ⟨hafter, -⟩, hbefore⟩ := hchain
  exact ⟨fun q hq => Region.isProtected_iff.2 fun hcode => hbefore q hq _ rfl ⟨hcode, rfl⟩,
    fun q hq => Region.isProtected_iff.2 fun hcode => hafter q hq ⟨rfl, hcode⟩⟩

/-- The last atom before a place is the character before it, or the string or comment. -/
theorem getLast?_atomsBefore (h : CodeStands t rs l x r qs) :
    (atomsBefore rs l).getLast? = (l.getLast?.map .code).or (rs.getLast?.map .literal) := by
  rw [atomsBefore, List.getLast?_append, List.getLast?_map]
  refine congrArg _ ?_
  rcases rs.eq_nil_or_concat' with rfl | ⟨rs, q, rfl⟩
  · rfl
  · have hq := h.isProtected.1 q List.getLast?_concat
    rw [List.flatMap_append, List.flatMap_singleton, Region.atoms, if_pos hq, List.getLast?_concat,
      List.getLast?_concat]
    rfl

theorem isBlank_getLast?_atomsBefore (h : CodeStands t rs l x r qs)
    (hl : ∀ c ∈ l.getLast?, isBlank c = false) :
    ∀ a ∈ (atomsBefore rs l).getLast?, a.isBlank = false := by
  rw [h.getLast?_atomsBefore]
  cases hlast : l.getLast? with
  | some c =>
    rintro a ⟨⟩
    exact hl c hlast
  | none =>
    intro a ha
    obtain ⟨q, -, rfl⟩ := Option.map_eq_some_iff.1 ha
    rfl

theorem isLineComment_iff (h : CodeStands t rs l x r qs) :
    (atomsBefore rs l).getLast?.any Atom.isLineComment = true ↔ AfterLineComment rs l := by
  rw [h.getLast?_atomsBefore, AfterLineComment]
  rcases l.eq_nil_or_concat' with rfl | ⟨l, c, rfl⟩
  · cases rs.getLast? with
    | none => simp
    | some q => simp [Atom.isLineComment]
  · simp [Atom.isLineComment]

theorem isListComma_iff (h : CodeStands t rs l x r qs) :
    (atomsBefore rs l).getLast?.any (Atom.isListComma (openBrackets rs l)) = true ↔
      AfterListComma rs l := by
  rw [h.getLast?_atomsBefore, AfterListComma]
  cases l.getLast? with
  | none => cases rs.getLast? <;> simp [Atom.isListComma]
  | some c => simp [Atom.isListComma, and_comm]

/-- The code after a place goes on to the next string or comment. -/
theorem codeRun_eq (h : CodeStands t rs l x r qs) :
    codeRun (r.map Atom.code ++ qs.flatMap Region.atoms) = r := by
  rw [codeRun_append]
  cases qs with
  | nil => exact List.append_nil r
  | cons q qs =>
    rw [List.flatMap_cons, Region.atoms, if_pos (h.isProtected.2 q rfl)]
    exact List.append_nil r

theorem isBlank_head?_after (h : CodeStands t rs l x r qs)
    (hr : ∀ c ∈ r.head?, isBlank c = false) :
    ∀ a ∈ (r.map Atom.code ++ qs.flatMap Region.atoms).head?, a.isBlank = false := by
  cases r with
  | cons c r =>
    rintro a ⟨⟩
    exact hr c rfl
  | nil =>
    cases qs with
    | nil => nofun
    | cons q qs =>
      rw [List.map_nil, List.nil_append, List.flatMap_cons, Region.atoms,
        if_pos (h.isProtected.2 q rfl)]
      rintro a ⟨⟩
      rfl

/-- What comes after code opens a string or comment. -/
theorem head?_flatten (h : CodeStands t rs l x r qs) :
    ∀ c ∈ (Region.flatten qs).head?, c ∈ ['/', '-', '\''] := by
  cases qs with
  | nil => nofun
  | cons q qs =>
    have hreading : IsReading (q :: qs) := by
      have hscan := isReading_scan t
      rw [h] at hscan
      exact (isReading_of_append hscan).2.2.2
    have hopens := openingKind_flatten hreading (h.isProtected.2 q rfl)
    have hkind := Region.isProtected_iff.1 (h.isProtected.2 q rfl)
    intro c hc
    rcases openingKind_cases (Region.flatten (q :: qs)) with ⟨r, hr⟩ | ⟨r, hr⟩ | ⟨r, hr⟩ | hcode
    · rw [hr] at hc
      obtain rfl := Option.some.inj hc
      decide
    · rw [hr] at hc
      obtain rfl := Option.some.inj hc
      decide
    · rw [hr] at hc
      obtain rfl := Option.some.inj hc
      decide
    · exact absurd (hopens.symm.trans hcode) hkind

end CodeStands

/-! ## White space of a place -/

theorem not_isWordChar_of_opens {c : Char} (h : c ∈ ['/', '-', '\'']) :
    isWordChar c = false ∧ c ≠ '(' := by
  have hall : ['/', '-', '\''].all (fun c => !isWordChar c && c != '(') = true := by
    decide +kernel
  simpa using List.all_eq_true.1 hall c h

/-- A break word lies in the code up to the next string or comment. -/
theorem CodeStands.breaksAt_iff (h : CodeStands t rs l x r qs)
    (hwords : AreIdentifiers o.clauseWords) :
    (Clauses.ofWords o.clauseWords).breaksAt r = true ↔ BeforeBreakWord o r qs := by
  rw [breaksAt_ofWords_iff hwords, BeforeBreakWord,
    isBreakWord_append hwords fun c hc => not_isWordChar_of_opens (h.head?_flatten c hc)]

/-- The rest of a laid out text is a rendered outline that is settled. -/
theorem CodeStands.exists_render (h : CodeStands t rs l x r qs) {cs : List Cell}
    (ht : atoms t = render o k none 0 cs) (hset : settle none 0 cs = cs)
    (hl : ∀ c ∈ l.getLast?, isBlank c = false) :
    ∃ ys, (∀ y ∈ ys, y ∈ cs) ∧ x.map .code ++ (r.map .code ++ qs.flatMap Region.atoms) =
        render o k (atomsBefore rs l).getLast? (openBrackets rs l) ys ∧
      settle (atomsBefore rs l).getLast? (openBrackets rs l) ys = ys := by
  obtain ⟨ys, hys, hrest, hsettled⟩ :=
    exists_render_eq (ht.symm.trans h.atoms_eq) (h.isBlank_getLast?_atomsBefore hl)
  rw [Option.or_none, depthAfterAll_atomsBefore] at hrest hsettled
  exact ⟨ys, hys, hrest, hsettled hset⟩

theorem isGap_gapText (h : CodeStands t rs l x r qs) (hwords : AreIdentifiers o.clauseWords)
    {ys : List Cell} (hr : (Clauses.ofWords o.clauseWords).breaksAt r =
      (Clauses.ofWords o.clauseWords).breaksAt (leadingRun ys)) :
    IsGap o rs l (gapText o (.ofWords o.clauseWords) (atomsBefore rs l).getLast?
      (openBrackets rs l) ys) r qs := by
  have hline : ((atomsBefore rs l).getLast?.any Atom.isLineComment ||
      (Clauses.ofWords o.clauseWords).breaksAt (leadingRun ys)) = true ↔
      AfterLineComment rs l ∨ BeforeBreakWord o r qs := by
    rw [Bool.or_eq_true, h.isLineComment_iff, ← hr, h.breaksAt_iff hwords]
  have hcomma := h.isListComma_iff
  unfold gapText
  refine ⟨fun hb => ?_, fun hb hc => ?_, fun hb hc => ?_⟩
  · rw [if_pos (hline.2 hb)]
  · rw [if_neg (mt hline.1 hb), if_pos (hcomma.2 hc)]
  · rw [if_neg (mt hline.1 hb), if_neg (mt hcomma.1 hc)]

/-! ## Laid out texts -/

theorem settle_settled (cs : List Cell) : settle none 0 (settled cs) = settled cs := by
  cases cs with
  | nil => rfl
  | cons c cs =>
    unfold settled
    rw [settle, unspaceFirst, settle, settle_settle, Cell.settledSpace, Option.any_none,
      Bool.and_false, Bool.or_false]

theorem atoms_formatText_eq_render (o : LayoutOptions) (s : Text)
    (hk : (Clauses.ofWords o.clauseWords).IsSolid) : atoms (formatText o s) =
      render o (.ofWords o.clauseWords) none 0 (settled (outline s)) := by
  obtain ⟨b, hb, hlaid⟩ := exists_laidAtoms_scan (o := o) hk s
  rw [atoms_formatText, hlaid, trimAtoms_render (isBlank_of_mem_settle_outline s) hb]
  rfl

theorem isBlank_of_mem_settled_outline (s : Text) :
    ∀ c ∈ settled (outline s), c.atom.isBlank = false := by
  have hmap : ∀ a ∈ (settled (outline s)).map Cell.atom, a.isBlank = false := by
    rw [map_atom_settled]
    exact List.forall_mem_map.2 fun c hc => isBlank_of_mem_outlineAfter hc
  exact List.forall_mem_map.1 hmap

/-- A text whose first atom is not white space starts with none. -/
theorem isBlank_head?_of_atoms (h : ∀ a ∈ (atoms t).head?, a.isBlank = false) :
    ∀ c ∈ t.head?, isBlank c = false := by
  cases t with
  | nil => nofun
  | cons c t =>
    rintro d ⟨⟩
    refine Bool.eq_false_iff.2 fun hblank => ?_
    have hfirst := atoms_append_of_blank (List.forall_mem_singleton.2 hblank) t
    rw [List.singleton_append] at hfirst
    rw [hfirst] at h
    exact Bool.false_ne_true ((h (.code c) rfl).symm.trans hblank)

/-- A text whose last atom is not white space ends with none in code. -/
theorem isBlank_getLast?_of_atoms (h : ∀ a ∈ (atoms t).getLast?, a.isBlank = false) :
    ∀ q ∈ (scan t).getLast?, q.kind = .code → ∀ c ∈ q.text.getLast?, isBlank c = false := by
  intro q hq hcode c hc
  obtain ⟨rs, hrs⟩ := List.getLast?_eq_some_iff.1 hq
  have hnot : ¬q.isProtected = true := fun hp => Region.isProtected_iff.1 hp hcode
  refine h (.code c) ?_
  rw [atoms, hrs, List.flatMap_append, List.flatMap_singleton, Region.atoms, if_neg hnot,
    List.getLast?_append, List.getLast?_map, hc]
  rfl

theorem isBlank_head?_trimAtoms (as : List Atom) :
    ∀ a ∈ (trimAtoms as).head?, a.isBlank = false := by
  intro a ha
  obtain ⟨-, e, -, -, heq⟩ := exists_trimAtoms as
  obtain ⟨bs, hbs⟩ := List.head?_eq_some_iff.1 ha
  have hnot := List.head?_dropWhile_not Atom.isBlank as
  rw [heq, hbs] at hnot
  exact hnot

/-! ## List commas -/

theorem settledSpace_eq {before : Option Atom} {d : Nat} {c : Cell} {ys : List Cell}
    (h : settle before d (c :: ys) = c :: ys) : c.settledSpace before d = c.spaced :=
  congrArg Cell.spaced (List.cons.inj h).1

theorem exists_isBlank_head?_render {before : Option Atom} {d : Nat} {c : Cell} {ys : List Cell}
    (hc : c.spaced = true) : ∃ a ∈ (render o k before d (c :: ys)).head?, a.isBlank = true := by
  obtain ⟨b, g, hg⟩ := List.exists_cons_of_ne_nil (gapText_ne_nil o k before d (c :: ys))
  have hb := isBlank_of_mem_gapText o k before d (c :: ys) b (hg ▸ List.mem_cons_self)
  rw [render, hc, if_pos rfl, hg]
  exact ⟨.code b, rfl, hb⟩

/-- After a comma outside brackets comes white space, or nothing. -/
theorem CodeStands.isBlank_after_comma (h : CodeStands t rs l [','] r qs) {cs : List Cell}
    (ht : atoms t = render o k none 0 cs) (hset : settle none 0 cs = cs)
    (hopen : openBrackets rs l = 0) :
    (r = [] ∧ qs = []) ∨ ∃ c ∈ r.head?, isBlank c = true := by
  have hplace : CodeStands t rs (l ++ [',']) [] r qs := CodeStands.shift h
  obtain ⟨ys, -, hrest, hsettled⟩ :=
    hplace.exists_render ht hset (by rw [List.getLast?_concat]; rintro c ⟨⟩; decide)
  have hcomma : (atomsBefore rs (l ++ [','])).getLast? = some (.code ',') := by
    rw [hplace.getLast?_atomsBefore, List.getLast?_concat]
    rfl
  rw [hcomma, openBrackets_append, hopen] at hrest hsettled
  rw [List.map_nil, List.nil_append] at hrest
  cases ys with
  | nil =>
    obtain ⟨hr, hqs⟩ := List.append_eq_nil_iff.1 hrest
    refine Or.inl ⟨List.map_eq_nil_iff.1 hr, ?_⟩
    cases qs with
    | nil => rfl
    | cons q qs =>
      rw [List.flatMap_cons, Region.atoms, if_pos (h.isProtected.2 q rfl)] at hqs
      cases hqs
  | cons c ys =>
    have hspaced : c.spaced = true := (settledSpace_eq hsettled).symm
    obtain ⟨a, ha, hblank⟩ := exists_isBlank_head?_render (o := o) (k := k) hspaced
    rw [← hrest] at ha
    by_contra hno
    rw [not_or, not_exists] at hno
    have hr : ∀ c ∈ r.head?, isBlank c = false := fun c hc =>
      Bool.eq_false_iff.2 fun hcblank => hno.2 c ⟨hc, hcblank⟩
    exact Bool.false_ne_true ((h.isBlank_head?_after hr a ha).symm.trans hblank)

/-- White space comes before a comma outside brackets only where it must. -/
theorem CodeStands.isBlank_before_comma {b : Text} (h : CodeStands t rs l (b ++ [',']) r qs)
    {cs : List Cell} (ht : atoms t = render o k none 0 cs) (hset : settle none 0 cs = cs)
    (hcs : ∀ c ∈ cs, c.atom.isBlank = false) (hne : b ≠ []) (hb : ∀ c ∈ b, isBlank c = true)
    (hl : ∀ c ∈ l.getLast?, isBlank c = false) (hopen : openBrackets rs (l ++ b) = 0) :
    AfterLineComment rs l ∨ AfterListComma rs l := by
  have hline := h.isLineComment_iff
  have hcomma := h.isListComma_iff
  obtain ⟨ys, hys, hrest, hsettled⟩ := h.exists_render ht hset hl
  rw [openBrackets_append, depthAfter_of_blank hb] at hopen
  rw [hopen] at hrest hsettled hcomma
  rw [List.map_append, List.append_assoc] at hrest
  obtain ⟨c, ys, rfl, hspaced, -, hatom⟩ :=
    eq_gapText_of_render (fun y hy => hcs y (hys y hy)) hne hb (by rintro a ⟨⟩; decide) hrest
  have hc : c.atom = .code ',' := (List.cons.inj hatom).1.symm
  have hspace := settledSpace_eq hsettled
  rw [hspaced, Cell.settledSpace, Atom.isListComma_iff.2 ⟨rfl, hc⟩, Bool.not_true,
    Bool.false_and, Bool.or_false] at hspace
  rw [← hline, ← hcomma]
  cases hlast : (atomsBefore rs l).getLast? with
  | none =>
    rw [hlast] at hspace
    cases hspace
  | some a =>
    rw [hlast, Option.any_some, Atom.breaksAfter, Bool.or_eq_true] at hspace
    exact hspace

/-! ## The form of laid out texts -/

/-- A laid out text is of the form that layout gives : its white space is settled by what stands
around it. -/
theorem isLaidOut_formatText (o : LayoutOptions) (s : Text)
    (hwords : AreIdentifiers o.clauseWords) : IsLaidOut o (formatText o s) := by
  have hk := hwords.isSolid
  have hatoms := atoms_formatText_eq_render o s hk
  have hset := settle_settled (outline s)
  have hcells := isBlank_of_mem_settled_outline s
  refine ⟨fun rs l b r qs h hne hb hl hr => ?_,
    fun rs l r qs h hopen => h.isBlank_after_comma hatoms hset hopen,
    fun rs l b r qs h hne hb hl hopen => h.isBlank_before_comma hatoms hset hcells hne hb hl hopen,
    isBlank_head?_of_atoms ?_, isBlank_getLast?_of_atoms ?_⟩
  · obtain ⟨ys, hys, hrest, -⟩ := h.exists_render hatoms hset hl
    obtain ⟨c, ys, rfl, -, rfl, hafter⟩ := eq_gapText_of_render (fun y hy => hcells y (hys y hy))
      hne hb (h.isBlank_head?_after hr) hrest
    refine isGap_gapText h hwords ?_
    rw [← breaksAt_codeRun hk fun y hy => hcells y (hys y hy), ← hafter, h.codeRun_eq]
  · rw [atoms_formatText]
    exact isBlank_head?_trimAtoms _
  · rw [atoms_formatText]
    exact isBlank_getLast?_trimAtoms _

theorem areIdentifiers_standardClauseWords : AreIdentifiers standardClauseWords := by
  have hall : standardClauseWords.all (fun w => !w.isEmpty && w.all isIdentChar) = true := by
    decide +kernel
  intro w hw
  simpa using List.all_eq_true.1 hall w hw

theorem isLaidOut_formatText_standard :
    AreIdentifiers LayoutOptions.standard.clauseWords ∧
      IsLaidOut .standard (formatText .standard "select a , (b, c) from t -- d".toList) :=
  ⟨areIdentifiers_standardClauseWords,
    isLaidOut_formatText .standard _ areIdentifiers_standardClauseWords⟩

theorem atoms_lineComment (hn : '\n' ∉ t) (hr : '\r' ∉ t) : atoms ('-' :: '-' :: t) =
    [.literal ⟨.lineComment, '-' :: '-' :: t, true⟩] := by
  have hscan : scan ('-' :: '-' :: t) = [⟨.lineComment, '-' :: '-' :: t, true⟩] :=
    scan_eq_iff.2 ⟨List.append_nil _, List.cons_ne_nil _ _,
      ⟨List.prefix_append ['-', '-'] t, by simp [hn], by simp [hr], Or.inl rfl⟩, nofun, trivial⟩
  rw [atoms, hscan]
  rfl

/-- White space at the end of a comment belongs to it and stays, so a laid out text can end with
white space. -/
theorem isBlank_getLast?_formatText_lineComment :
    AreIdentifiers LayoutOptions.standard.clauseWords ∧
      ∃ c ∈ (formatText .standard "-- a ".toList).getLast?, isBlank c = true := by
  have hatoms := atoms_lineComment (t := " a ".toList) (by decide) (by decide)
  obtain ⟨x, hx⟩ := exists_formatText_eq_append .standard
    areIdentifiers_standardClauseWords.isSolid []
  refine ⟨areIdentifiers_standardClauseWords, ' ', ?_, by decide⟩
  have hlaid : formatText .standard "-- a ".toList = x ++ "-- a ".toList := hx _ _ hatoms
  rw [hlaid, List.getLast?_append]
  rfl

end SqlSnippet
