import SqlSnippet.Layout.Piece
import SqlSnippet.Proofs.Atoms

/-!
# Outlines

The *outline* of a text is what is left of it when the amount and the kind of white space in its
code is forgotten : the atoms that are not white space, each with whether white space stands
before it (`outline`). Two lists of atoms with the same outline differ in white space only.

Layout changes an outline by one rule (`settle`) : white space stands before what follows a line
comment or a list comma, none stands before another list comma, and elsewhere it stands where it
stood. Nothing stands before the first atom (`settled`). The rule does not look at the white
space that it replaces, so a settled outline is settled already (`settled_settled`).

`IsLinked` says of an outline what `IsFit` says of atoms, whatever the white space is made of.
It holds of the outline of a text (`isLinked_outlineAfter`), the rule keeps it
(`isLinked_settled`), and atoms with such an outline fit (`isFit_of_isLinked`).
-/

namespace SqlSnippet

/-! ## Cells -/

/-- An atom that is not white space, and whether white space stands before it. -/
structure Cell where
  spaced : Bool
  atom : Atom
  deriving DecidableEq

/-- Whether the atom is white space in code. -/
def Atom.isBlank : Atom → Bool
  | .code c => SqlSnippet.isBlank c
  | .literal _ => false

/-- The outline of a list of atoms, where `spaced` says whether white space comes before it. -/
def outlineAfter (spaced : Bool) : List Atom → List Cell
  | [] => []
  | a :: as => if a.isBlank then outlineAfter true as else ⟨spaced, a⟩ :: outlineAfter false as

/-- The outline of a text. -/
def outline (s : Text) : List Cell :=
  outlineAfter false (atoms s)

/-- Whether white space comes before what follows a list of atoms. -/
def pendingAfter (spaced : Bool) : List Atom → Bool
  | [] => spaced
  | a :: as => pendingAfter a.isBlank as

theorem outlineAfter_cons_of_blank {a : Atom} (h : a.isBlank = true) (g : Bool)
    (as : List Atom) : outlineAfter g (a :: as) = outlineAfter true as :=
  if_pos h

theorem outlineAfter_cons {a : Atom} (h : a.isBlank = false) (g : Bool) (as : List Atom) :
    outlineAfter g (a :: as) = ⟨g, a⟩ :: outlineAfter false as :=
  if_neg (Bool.eq_false_iff.1 h)

theorem outlineAfter_append (g : Bool) (as bs : List Atom) : outlineAfter g (as ++ bs) =
    outlineAfter g as ++ outlineAfter (pendingAfter g as) bs := by
  induction as generalizing g with
  | nil => rfl
  | cons a as ih =>
    rw [List.cons_append, outlineAfter, outlineAfter, pendingAfter]
    split
    · next h => rw [ih, h]
    · next h => rw [ih, Bool.eq_false_iff.2 h]; rfl

theorem pendingAfter_append (g : Bool) (as bs : List Atom) :
    pendingAfter g (as ++ bs) = pendingAfter (pendingAfter g as) bs := by
  induction as generalizing g with
  | nil => rfl
  | cons a as ih => exact ih _

theorem outlineAfter_of_blank {as : List Atom} (h : ∀ a ∈ as, a.isBlank = true) (g : Bool) :
    outlineAfter g as = [] ∧ pendingAfter g as = (g || !as.isEmpty) := by
  induction as generalizing g with
  | nil => exact ⟨rfl, (Bool.or_false g).symm⟩
  | cons a as ih =>
    obtain ⟨ha, has⟩ := List.forall_mem_cons.1 h
    rw [outlineAfter, pendingAfter, if_pos ha, ha]
    exact ⟨(ih has true).1, by rw [(ih has true).2]; simp⟩

/-- The cells are the atoms that are not white space. -/
theorem map_atom_outlineAfter (g : Bool) (as : List Atom) :
    (outlineAfter g as).map Cell.atom = as.filter (!·.isBlank) := by
  induction as generalizing g with
  | nil => rfl
  | cons a as ih =>
    cases h : a.isBlank with
    | true => rw [outlineAfter_cons_of_blank h, ih, List.filter_cons_of_neg (by simp [h])]
    | false =>
      rw [outlineAfter_cons h, List.map_cons, ih, List.filter_cons_of_pos (by simp [h])]

theorem isBlank_of_mem_outlineAfter {g : Bool} {as : List Atom} {c : Cell}
    (h : c ∈ outlineAfter g as) : c.atom.isBlank = false := by
  have hmem : c.atom ∈ as.filter (!·.isBlank) := by
    rw [← map_atom_outlineAfter g]
    exact List.mem_map_of_mem h
  simpa using (List.mem_filter.1 hmem).2

/-! ## White space replaced by other -/

/-- Two lists of atoms differ in white space only, and have some at the same places. -/
def SameSpacing (as bs : List Atom) : Prop :=
  ∀ g, outlineAfter g as = outlineAfter g bs ∧ pendingAfter g as = pendingAfter g bs

theorem SameSpacing.refl (as : List Atom) : SameSpacing as as := fun _ => ⟨rfl, rfl⟩

theorem SameSpacing.append {as as' bs bs' : List Atom} (h : SameSpacing as as')
    (h' : SameSpacing bs bs') : SameSpacing (as ++ bs) (as' ++ bs') := by
  intro g
  rw [outlineAfter_append, outlineAfter_append, pendingAfter_append, pendingAfter_append,
    (h g).1, (h g).2, (h' _).1, (h' _).2]
  exact ⟨rfl, rfl⟩

theorem SameSpacing.cons (a : Atom) {bs bs' : List Atom} (h : SameSpacing bs bs') :
    SameSpacing (a :: bs) (a :: bs') :=
  SameSpacing.append (.refl [a]) h

/-- One run of white space is as good as another. -/
theorem sameSpacing_of_blank {as bs : List Atom} (has : ∀ a ∈ as, a.isBlank = true)
    (hbs : ∀ b ∈ bs, b.isBlank = true) (h : as.isEmpty = bs.isEmpty) : SameSpacing as bs := by
  intro g
  obtain ⟨h₁, h₂⟩ := outlineAfter_of_blank has g
  obtain ⟨h₃, h₄⟩ := outlineAfter_of_blank hbs g
  rw [h₁, h₂, h₃, h₄, h]
  exact ⟨rfl, rfl⟩

/-! ## The rule of layout -/

/-- Whether the atom is a line comment. -/
def Atom.isLineComment : Atom → Bool
  | .code _ => false
  | .literal r => r.kind == .lineComment

/-- Whether the atom is a comma outside brackets, where `d` brackets are open. -/
def Atom.isListComma (d : Nat) (a : Atom) : Bool :=
  d == 0 && a == .code ','

/-- The depth of brackets after an atom. -/
def Atom.depth (d : Nat) : Atom → Nat
  | .code c => depthAfter d [c]
  | .literal _ => d

/-- White space must follow the atom, where `d` brackets are open. -/
def Atom.breaksAfter (d : Nat) (a : Atom) : Bool :=
  a.isLineComment || a.isListComma d

theorem breaksAfter_literal (d : Nat) (r : Region) :
    (Atom.literal r).breaksAfter d = (r.kind == .lineComment) := by
  cases d <;> exact Bool.or_false _

theorem Atom.isListComma_iff {d : Nat} {a : Atom} :
    a.isListComma d = true ↔ d = 0 ∧ a = .code ',' := by
  rw [Atom.isListComma, Bool.and_eq_true, beq_iff_eq, beq_iff_eq]

/-- Whether white space stands before a cell after layout. -/
def Cell.settledSpace (before : Option Atom) (d : Nat) (c : Cell) : Bool :=
  before.any (Atom.breaksAfter d) || (!c.atom.isListComma d && c.spaced)

/-- The white space of an outline after layout, where the atom `before` comes before it and `d`
brackets are open. -/
def settle (before : Option Atom) (d : Nat) : List Cell → List Cell
  | [] => []
  | c :: cs => ⟨c.settledSpace before d, c.atom⟩ :: settle (some c.atom) (c.atom.depth d) cs

/-- No white space before the first cell. -/
def unspaceFirst : List Cell → List Cell
  | [] => []
  | c :: cs => ⟨false, c.atom⟩ :: cs

/-- The outline of a text after layout. -/
def settled (cs : List Cell) : List Cell :=
  unspaceFirst (settle none 0 cs)

@[simp] theorem map_atom_settle (before : Option Atom) (d : Nat) (cs : List Cell) :
    (settle before d cs).map Cell.atom = cs.map Cell.atom := by
  induction cs generalizing before d with
  | nil => rfl
  | cons c cs ih => rw [settle, List.map_cons, List.map_cons, ih]

theorem map_atom_unspaceFirst (cs : List Cell) :
    (unspaceFirst cs).map Cell.atom = cs.map Cell.atom := by
  cases cs <;> rfl

theorem map_atom_settled (cs : List Cell) : (settled cs).map Cell.atom = cs.map Cell.atom := by
  rw [settled, map_atom_unspaceFirst, map_atom_settle]

theorem isBlank_of_mem_settle {cs : List Cell} (h : ∀ c ∈ cs, c.atom.isBlank = false)
    (before : Option Atom) (d : Nat) : ∀ c ∈ settle before d cs, c.atom.isBlank = false := by
  have hmap : ∀ a ∈ (settle before d cs).map Cell.atom, a.isBlank = false := by
    rw [map_atom_settle]
    exact List.forall_mem_map.2 h
  exact List.forall_mem_map.1 hmap

theorem settle_settle (before : Option Atom) (d : Nat) (cs : List Cell) :
    settle before d (settle before d cs) = settle before d cs := by
  induction cs generalizing before d with
  | nil => rfl
  | cons c cs ih =>
    rw [settle, settle, ih]
    unfold Cell.settledSpace
    cases before.any (Atom.breaksAfter d) <;> cases c.atom.isListComma d <;> rfl

/-- The rule looks at the white space of the first cell for that cell only. -/
theorem unspaceFirst_settle_unspaceFirst (before : Option Atom) (d : Nat) (cs : List Cell) :
    unspaceFirst (settle before d (unspaceFirst cs)) = unspaceFirst (settle before d cs) := by
  cases cs <;> rfl

theorem settled_unspaceFirst (cs : List Cell) : settled (unspaceFirst cs) = settled cs :=
  unspaceFirst_settle_unspaceFirst none 0 cs

/-- Layout keeps the outline of what has been laid out. -/
theorem settled_settled (cs : List Cell) : settled (settled cs) = settled cs := by
  rw [settled, settled, unspaceFirst_settle_unspaceFirst, settle_settle]

/-- Without the white space at its start, an outline has none before its first cell. -/
theorem outlineAfter_dropWhile (g : Bool) (as : List Atom) :
    outlineAfter false (as.dropWhile Atom.isBlank) = unspaceFirst (outlineAfter g as) := by
  induction as generalizing g with
  | nil => rfl
  | cons a as ih =>
    cases h : a.isBlank with
    | true =>
      rw [List.dropWhile_cons_of_pos h, outlineAfter_cons_of_blank h]
      exact ih true
    | false =>
      rw [List.dropWhile_cons_of_neg (Bool.eq_false_iff.1 h), outlineAfter_cons h,
        outlineAfter_cons h]
      rfl

/-! ## Fitting across white space -/

/-- The atom fits white space after it; a line comment needs it to start with a line break. -/
def Atom.FitsGap (a : Atom) : Prop :=
  ∀ b, SqlSnippet.isBlank b = true → (a.isLineComment = true → endsLine b = true) →
    a.Fits (some b)

theorem not_opens_of_isBlank {c : Char} (h : isBlank c = true) (next : Option Char) :
    ¬Opens c next := by
  rintro (rfl | ⟨rfl, -⟩ | ⟨rfl, -⟩) <;> exact absurd h (by decide)

/-- An atom fits another character after it if that one opens and closes nothing. Only a string
or comment that is not closed needs the end of the text. -/
theorem Atom.Fits.change {a : Atom} {n m : Option Char} (h : a.Fits n)
    (hm : m ≠ some '-' ∧ m ≠ some '*' ∧ m ≠ some '\'')
    (hline : a.isLineComment = true → m = none ∨ m = some '\n' ∨ m = some '\r')
    (hend : n = none → m = none) : a.Fits m := by
  cases a with
  | code c =>
    rintro (hc | ⟨-, hn⟩ | ⟨-, hn⟩)
    · exact h (Or.inl hc)
    · exact hm.1 hn
    · exact hm.2.1 hn
  | literal r =>
    refine ⟨h.1, ?_⟩
    obtain ⟨kind, text, terminated⟩ := r
    obtain ⟨hp, hg⟩ := h
    cases kind <;> cases terminated <;> simp only [Region.Grammatical] at hg ⊢
    · cases hp
    · obtain ⟨s, hs, hq, hn⟩ := hg
      exact ⟨s, hs, hq, hend hn⟩
    · obtain ⟨s, hs, hq, -⟩ := hg
      exact ⟨s, hs, hq, hm.2.2⟩
    · exact ⟨hg.1, hg.2.1, hg.2.2.1, hline rfl⟩
    · obtain ⟨s, hs, hno, hn⟩ := hg
      exact ⟨s, hs, hno, hend hn⟩
    · exact hg

/-- What fits any character fits the end of the text. -/
theorem Atom.Fits.atEnd {a : Atom} {next : Option Char} (h : a.Fits next) : a.Fits none :=
  h.change ⟨nofun, nofun, nofun⟩ (fun _ => Or.inl rfl) (fun _ => rfl)

/-- What fits a character in text fits white space. -/
theorem Atom.Fits.gap {a : Atom} {c : Char} (h : a.Fits (some c)) : a.FitsGap := by
  intro b hb hline
  refine h.change ⟨?_, ?_, ?_⟩ (fun ha => Or.inr ?_) nofun
  · rintro ⟨⟩
    exact absurd hb (by decide)
  · rintro ⟨⟩
    exact absurd hb (by decide)
  · rintro ⟨⟩
    exact absurd hb (by decide)
  · have hb := hline ha
    rw [endsLine, Bool.or_eq_true, beq_iff_eq, beq_iff_eq] at hb
    exact hb.imp (congrArg some) (congrArg some)

/-- White space can be taken out before a comma unless it ends a line comment. -/
theorem Atom.FitsGap.comma {a : Atom} (h : a.FitsGap) (ha : a.isLineComment = false) :
    a.Fits (some ',') := by
  have hspace := h ' ' (by decide) (fun hc => absurd (ha.symm.trans hc) Bool.false_ne_true)
  exact hspace.change (by decide) (fun hc => absurd (ha.symm.trans hc) Bool.false_ne_true) nofun

/-! ## Linked outlines -/

/-- The cell can follow an atom, directly or after white space as it says. -/
def Cell.Follows (c : Cell) (a : Atom) : Prop :=
  if c.spaced then a.FitsGap else a.Fits c.atom.text.head?

/-- Each cell can follow the one before it, and the last one can end a text. -/
def IsLinked : List Cell → Prop
  | [] => True
  | [c] => c.atom.Fits none
  | c :: d :: cs => d.Follows c.atom ∧ IsLinked (d :: cs)

theorem Atom.FitsGap.atEnd {a : Atom} (h : a.FitsGap) : a.Fits none :=
  (h '\n' (by decide) fun _ => by decide).atEnd

theorem Cell.Follows.atEnd {c : Cell} {a : Atom} (h : c.Follows a) : a.Fits none := by
  unfold Cell.Follows at h
  split at h
  · exact h.atEnd
  · exact Atom.Fits.atEnd h

theorem IsLinked.atEnd {c : Cell} {cs : List Cell} (h : IsLinked (c :: cs)) :
    c.atom.Fits none := by
  cases cs with
  | nil => exact h
  | cons d cs => exact h.1.atEnd

theorem spaced_of_outlineAfter_true {as : List Atom} {c : Cell} {cs : List Cell}
    (h : outlineAfter true as = c :: cs) : c.spaced = true := by
  induction as with
  | nil => cases h
  | cons a as ih =>
    rw [outlineAfter] at h
    split at h
    · exact ih h
    · rw [← (List.cons.inj h).1]

/-- The first cell is the first atom, unless that is white space. -/
theorem eq_of_outlineAfter_eq_cons {a : Atom} {as : List Atom} {c : Cell} {cs : List Cell}
    (h : outlineAfter false (a :: as) = c :: cs) :
    c.spaced = true ∧ a.isBlank = true ∨ c = ⟨false, a⟩ := by
  cases ha : a.isBlank with
  | true =>
    rw [outlineAfter_cons_of_blank ha] at h
    exact Or.inl ⟨spaced_of_outlineAfter_true h, rfl⟩
  | false =>
    rw [outlineAfter_cons ha] at h
    exact Or.inr (List.cons.inj h).1.symm

/-- White space in code is a character. -/
theorem Atom.exists_of_isBlank {a : Atom} (h : a.isBlank = true) :
    ∃ b, a = .code b ∧ SqlSnippet.isBlank b = true := by
  cases a with
  | code b => exact ⟨b, rfl, h⟩
  | literal r => cases h

/-- A cell can follow the atom that fits the text it starts. -/
theorem Atom.Fits.follows {a b : Atom} {bs : List Atom} {c : Cell} {cs : List Cell}
    (h : a.Fits b.text.head?) (hout : outlineAfter false (b :: bs) = c :: cs) : c.Follows a := by
  unfold Cell.Follows
  rcases eq_of_outlineAfter_eq_cons hout with ⟨hspaced, hb⟩ | rfl
  · obtain ⟨d, rfl, -⟩ := Atom.exists_of_isBlank hb
    rw [if_pos hspaced]
    exact Atom.Fits.gap h
  · exact h

/-- An atom fits the text of a cell that can follow it, if white space there ends a line
comment. -/
theorem Cell.Follows.fits {a b : Atom} {bs : List Atom} {c : Cell} {cs : List Cell}
    (h : c.Follows a) (hout : outlineAfter false (b :: bs) = c :: cs)
    (hends : a.isLineComment = true → ∃ e, b = .code e ∧ endsLine e = true) :
    a.Fits b.text.head? := by
  unfold Cell.Follows at h
  rcases eq_of_outlineAfter_eq_cons hout with ⟨hspaced, hb⟩ | rfl
  · obtain ⟨d, rfl, hd⟩ := Atom.exists_of_isBlank hb
    rw [if_pos hspaced] at h
    refine h d hd fun hline => ?_
    obtain ⟨e, he, hend⟩ := hends hline
    obtain rfl := Atom.code.inj he
    exact hend
  · exact h

theorem head?_flatten_cons {a : Atom} {as : List Atom} (h : a.text ≠ []) :
    (Atom.flatten (a :: as)).head? = a.text.head? := by
  rw [Atom.flatten_cons, List.head?_append_of_ne_nil _ h]

/-- The outline of a text is linked. -/
theorem isLinked_outlineAfter {as : List Atom} (h : IsFit none as) (g : Bool) :
    IsLinked (outlineAfter g as) := by
  induction as generalizing g with
  | nil => trivial
  | cons a as ih =>
    obtain ⟨ha, has⟩ := h
    rw [Option.or_none] at ha
    rw [outlineAfter]
    split
    · exact ih has true
    · cases hout : outlineAfter false as with
      | nil => exact ha.atEnd
      | cons c cs =>
        refine ⟨?_, hout ▸ ih has false⟩
        cases as with
        | nil => cases hout
        | cons b bs =>
          rw [head?_flatten_cons has.1.text_ne_nil] at ha
          exact Atom.Fits.follows ha hout

theorem Cell.Follows.gap {c : Cell} {a : Atom} (h : c.Follows a) (hc : c.atom.text ≠ []) :
    a.FitsGap := by
  unfold Cell.Follows at h
  split at h
  · exact h
  · obtain ⟨d, s, hs⟩ := List.exists_cons_of_ne_nil hc
    rw [hs] at h
    exact Atom.Fits.gap h

theorem Cell.Follows.settled {c : Cell} {a : Atom} (h : c.Follows a) (hc : c.atom.text ≠ [])
    (d : Nat) : Cell.Follows ⟨c.settledSpace (some a) d, c.atom⟩ a := by
  unfold Cell.settledSpace
  rw [Option.any_some]
  by_cases hbreak : a.breaksAfter d = true
  · rw [hbreak, Bool.true_or]
    exact h.gap hc
  · rw [Bool.eq_false_iff.2 hbreak, Bool.false_or]
    by_cases hcomma : c.atom.isListComma d = true
    · rw [hcomma, Bool.not_true, Bool.false_and]
      unfold Atom.breaksAfter at hbreak
      rw [Bool.or_eq_true, not_or] at hbreak
      obtain ⟨-, hcomma⟩ := Atom.isListComma_iff.1 hcomma
      unfold Cell.Follows
      rw [if_neg Bool.false_ne_true, hcomma]
      exact (h.gap hc).comma (Bool.eq_false_iff.2 hbreak.1)
    · rw [Bool.eq_false_iff.2 hcomma, Bool.not_false, Bool.true_and]
      exact h

theorem isLinked_settle {cs : List Cell} (h : IsLinked cs) (before : Option Atom) (d : Nat) :
    IsLinked (settle before d cs) := by
  induction cs generalizing before d with
  | nil => trivial
  | cons c cs ih =>
    cases cs with
    | nil => exact h
    | cons e cs => exact ⟨h.1.settled h.2.atEnd.text_ne_nil _, ih h.2 _ _⟩

theorem isLinked_unspaceFirst {cs : List Cell} (h : IsLinked cs) :
    IsLinked (unspaceFirst cs) := by
  match cs, h with
  | [], _ => trivial
  | [_], h => exact h
  | _ :: _ :: _, h => exact h

theorem isLinked_settled {cs : List Cell} (h : IsLinked cs) : IsLinked (settled cs) :=
  isLinked_unspaceFirst (isLinked_settle h none 0)

/-! ## Atoms with a linked outline -/

/-- What follows a line comment starts with a line break. -/
def CommentsEnd : List Atom → Prop
  | [] => True
  | a :: as =>
    (a.isLineComment = true → ∀ b ∈ as.head?, ∃ c, b = .code c ∧ endsLine c = true) ∧
      CommentsEnd as

theorem commentsEnd_of_append {as bs : List Atom} (h : CommentsEnd (as ++ bs)) :
    CommentsEnd as ∧ CommentsEnd bs := by
  induction as with
  | nil => exact ⟨trivial, h⟩
  | cons a as ih =>
    obtain ⟨ha, has⟩ := h
    refine ⟨⟨fun hline b hb => ha hline b ?_, (ih has).1⟩, (ih has).2⟩
    obtain ⟨cs, rfl⟩ := List.head?_eq_some_iff.1 hb
    rfl

theorem outlineAfter_ne_nil {as : List Atom} (hne : as ≠ [])
    (hlast : ∀ a ∈ as.getLast?, a.isBlank = false) (g : Bool) : outlineAfter g as ≠ [] := by
  obtain ⟨bs, a, rfl⟩ := List.eq_nil_or_concat' as |>.resolve_left hne
  rw [List.getLast?_concat] at hlast
  rw [outlineAfter_append, outlineAfter, if_neg (Bool.eq_false_iff.1 (hlast a rfl))]
  exact List.append_ne_nil_of_right_ne_nil _ (List.cons_ne_nil _ _)

/-- Atoms with a linked outline fit, whatever white space stands between them. -/
theorem isFit_of_isLinked {as : List Atom} {g : Bool} (h : IsLinked (outlineAfter g as))
    (hends : CommentsEnd as) (hlast : ∀ a ∈ as.getLast?, a.isBlank = false) : IsFit none as := by
  induction as generalizing g with
  | nil => trivial
  | cons a as ih =>
    rw [outlineAfter] at h
    rw [IsFit, Option.or_none]
    cases as with
    | nil =>
      have ha := hlast a rfl
      rw [if_neg (Bool.eq_false_iff.1 ha)] at h
      exact ⟨h, trivial⟩
    | cons b bs =>
      have hlast' : ∀ a ∈ (b :: bs).getLast?, a.isBlank = false := fun x hx => hlast x (by
        rwa [List.getLast?_cons_cons])
      split at h
      · next hblank =>
        refine ⟨?_, ih h hends.2 hlast'⟩
        cases a with
        | code c => exact not_opens_of_isBlank hblank _
        | literal r => cases hblank
      · obtain ⟨c, cs, hout⟩ := List.exists_cons_of_ne_nil
          (outlineAfter_ne_nil (List.cons_ne_nil b bs) hlast' false)
        rw [hout] at h
        have hbs : IsFit none (b :: bs) := ih (hout ▸ h.2) hends.2 hlast'
        refine ⟨?_, hbs⟩
        rw [head?_flatten_cons hbs.1.text_ne_nil]
        exact h.1.fits hout fun hline => hends.1 hline b rfl

end SqlSnippet
