import SqlSnippet.Proofs.Reading

/-!
# Atoms

A text read atom by atom : an *atom* is one character of code or a protected region as a whole
(`atoms`). Atoms forget where code regions end, which is no loss, as code regions are never
neighbours : `regions` puts the code back together, and `scan_eq_regions` says that the result
is the scan.

Each atom fits the character after it (`IsFit`), and every list of atoms that fit is found in
its own text (`atoms_flatten`). So to know the atoms of a text that has been put together from
others, it is enough to look at the seams.
-/

namespace SqlSnippet

/-- A character of code, or a protected region as a whole. -/
inductive Atom where
  | code (c : Char)
  | literal (r : Region)
  deriving DecidableEq

/-- The text of an atom. -/
def Atom.text : Atom → Text
  | .code c => [c]
  | .literal r => r.text

/-- The text that a list of atoms covers. -/
def Atom.flatten (as : List Atom) : Text :=
  as.flatMap Atom.text

/-- The atoms of one region. -/
def Region.atoms (r : Region) : List Atom :=
  if r.isProtected then [.literal r] else r.text.map .code

/-- The atoms of a text, from left to right. -/
def atoms (s : Text) : List Atom :=
  (scan s).flatMap Region.atoms

theorem Atom.flatten_cons (a : Atom) (as : List Atom) :
    Atom.flatten (a :: as) = a.text ++ Atom.flatten as :=
  List.flatMap_cons

theorem Atom.flatten_append (as bs : List Atom) :
    Atom.flatten (as ++ bs) = Atom.flatten as ++ Atom.flatten bs :=
  List.flatMap_append

theorem Atom.flatten_map_code (s : Text) : Atom.flatten (s.map .code) = s := by
  induction s with
  | nil => rfl
  | cons c s ih =>
    rw [List.map_cons, Atom.flatten_cons, ih]
    rfl

theorem flatten_atoms_region (r : Region) : Atom.flatten r.atoms = r.text := by
  unfold Region.atoms
  split
  · exact List.append_nil _
  · exact Atom.flatten_map_code _

theorem flatten_flatMap_atoms (rs : List Region) :
    Atom.flatten (rs.flatMap Region.atoms) = Region.flatten rs := by
  induction rs with
  | nil => rfl
  | cons r rs ih =>
    rw [List.flatMap_cons, Atom.flatten_append, flatten_atoms_region, ih, Region.flatten_cons]

theorem flatten_atoms (s : Text) : Atom.flatten (atoms s) = s := by
  rw [atoms, flatten_flatMap_atoms, flatten_scan]

/-! ## Fitting -/

/-- The atom is read as it is if `next` is the character after it. -/
def Atom.Fits (a : Atom) (next : Option Char) : Prop :=
  match a with
  | .code c => ¬Opens c next
  | .literal r => r.isProtected = true ∧ r.Grammatical next

/-- Each atom fits what follows it, and the last one `next`. -/
def IsFit (next : Option Char) : List Atom → Prop
  | [] => True
  | a :: as => a.Fits ((Atom.flatten as).head?.or next) ∧ IsFit next as

theorem isFit_append {next : Option Char} {as bs : List Atom} : IsFit next (as ++ bs) ↔
    IsFit ((Atom.flatten bs).head?.or next) as ∧ IsFit next bs := by
  induction as with
  | nil => exact ⟨fun h => ⟨trivial, h⟩, And.right⟩
  | cons a as ih =>
    rw [List.cons_append, IsFit, IsFit, ih, Atom.flatten_append, List.head?_append,
      Option.or_assoc, and_assoc]

theorem isFit_map_code {s : Text} {next : Option Char} (h : CodeText s next) :
    IsFit next (s.map .code) := by
  induction s with
  | nil => trivial
  | cons c s ih =>
    obtain ⟨hc, hs⟩ := codeText_cons.1 h
    rw [head?_append_toList] at hc
    refine ⟨?_, ih hs⟩
    rw [Atom.flatten_map_code]
    exact hc

theorem isFit_of_isReading {rs : List Region} (h : IsReading rs) :
    IsFit none (rs.flatMap Region.atoms) := by
  induction rs with
  | nil => trivial
  | cons r rs ih =>
    obtain ⟨-, hg, -, hrs⟩ := h
    rw [List.flatMap_cons, isFit_append, flatten_flatMap_atoms, Option.or_none]
    refine ⟨?_, ih hrs⟩
    unfold Region.atoms
    split
    · next hp => exact ⟨⟨hp, hg⟩, trivial⟩
    · next hp =>
      obtain ⟨kind, text, terminated⟩ := r
      obtain rfl : kind = .code := Region.kind_of_not_isProtected hp
      cases terminated with
      | false => exact hg.elim
      | true => exact isFit_map_code hg

theorem isFit_atoms (s : Text) : IsFit none (atoms s) :=
  isFit_of_isReading (isReading_scan s)

/-! ## Putting code back together -/

/-- Put a character of code in front of regions; it joins a code region. -/
def Region.consCode (c : Char) : List Region → List Region
  | ⟨.code, s, terminated⟩ :: rs => ⟨.code, c :: s, terminated⟩ :: rs
  | rs => ⟨.code, [c], true⟩ :: rs

/-- The regions that a list of atoms makes up. -/
def regions : List Atom → List Region
  | [] => []
  | .code c :: as => Region.consCode c (regions as)
  | .literal r :: as => r :: regions as

theorem Region.flatten_consCode (c : Char) (rs : List Region) :
    Region.flatten (Region.consCode c rs) = c :: Region.flatten rs := by
  unfold Region.consCode
  split <;> rfl

theorem Region.flatMap_atoms_consCode (c : Char) (rs : List Region) :
    (Region.consCode c rs).flatMap Region.atoms = .code c :: rs.flatMap Region.atoms := by
  unfold Region.consCode
  split <;> rfl

theorem isReading_consCode {c : Char} {rs : List Region} (h : IsReading rs)
    (hc : ¬Opens c (Region.flatten rs).head?) : IsReading (Region.consCode c rs) := by
  unfold Region.consCode
  split
  · next s terminated rs =>
    obtain ⟨-, hg, hnext, hrs⟩ := h
    cases terminated with
    | false => exact hg.elim
    | true =>
      rw [Region.flatten_cons, List.head?_append] at hc
      refine ⟨List.cons_ne_nil c s, codeText_cons.2 ⟨?_, hg⟩, hnext, hrs⟩
      rw [head?_append_toList]
      exact hc
  · next hcode =>
    refine ⟨List.cons_ne_nil c [], codeText_cons.2 ⟨?_, codeText_nil _⟩, fun _ q hq hk => ?_, h⟩
    · rw [List.nil_append, Option.head?_toList]
      exact hc
    · obtain ⟨qs, rfl⟩ := List.head?_eq_some_iff.1 hq
      obtain ⟨kind, text, terminated⟩ := q
      obtain rfl : kind = .code := hk
      exact hcode _ _ _ rfl

theorem Region.Grammatical.ne_nil {r : Region} {next : Option Char} (h : r.Grammatical next)
    (hp : r.isProtected = true) : r.text ≠ [] := by
  obtain ⟨kind, text, terminated⟩ := r
  cases kind <;> cases terminated <;> simp only [Region.Grammatical] at h
  · cases hp
  · obtain ⟨s, rfl, -⟩ := h
    exact List.cons_ne_nil _ _
  · obtain ⟨s, rfl, -⟩ := h
    exact List.cons_ne_nil _ _
  · obtain ⟨⟨s, rfl⟩, -⟩ := h
    exact List.cons_ne_nil _ _
  · obtain ⟨s, rfl, -⟩ := h
    exact List.cons_ne_nil _ _
  · obtain ⟨s, rfl, -⟩ := h
    exact List.cons_ne_nil _ _

theorem Atom.Fits.text_ne_nil {a : Atom} {next : Option Char} (h : a.Fits next) :
    a.text ≠ [] := by
  cases a with
  | code c => exact List.cons_ne_nil c []
  | literal r => exact h.2.ne_nil h.1

theorem flatten_regions (as : List Atom) : Region.flatten (regions as) = Atom.flatten as := by
  induction as with
  | nil => rfl
  | cons a as ih =>
    cases a with
    | code c => rw [regions, Region.flatten_consCode, ih]; rfl
    | literal r => rw [regions, Region.flatten_cons, ih]; rfl

theorem isReading_regions {as : List Atom} (h : IsFit none as) : IsReading (regions as) := by
  induction as with
  | nil => trivial
  | cons a as ih =>
    obtain ⟨ha, has⟩ := h
    rw [Option.or_none, ← flatten_regions] at ha
    cases a with
    | code c => exact isReading_consCode (ih has) ha
    | literal r =>
      refine ⟨ha.2.ne_nil ha.1, ha.2, fun hk => ?_, ih has⟩
      exact absurd hk (Region.isProtected_iff.1 ha.1)

theorem flatMap_atoms_regions {as : List Atom} (h : IsFit none as) :
    (regions as).flatMap Region.atoms = as := by
  induction as with
  | nil => rfl
  | cons a as ih =>
    obtain ⟨ha, has⟩ := h
    cases a with
    | code c => rw [regions, Region.flatMap_atoms_consCode, ih has]
    | literal r =>
      rw [regions, List.flatMap_cons, ih has, Region.atoms, if_pos ha.1]
      rfl

/-- Atoms that fit are the atoms of their text. -/
theorem atoms_flatten {as : List Atom} (h : IsFit none as) : atoms (Atom.flatten as) = as := by
  rw [atoms, ← flatten_regions, scan_flatten (isReading_regions h), flatMap_atoms_regions h]

/-- A scan is its atoms with the code put back together. -/
theorem scan_eq_regions (s : Text) : scan s = regions (atoms s) := by
  have h := scan_flatten (isReading_regions (isFit_atoms s))
  rwa [flatten_regions, flatten_atoms] at h

end SqlSnippet
