import SqlSnippet.Proofs.Outline
import SqlSnippet.Source.Statement

/-!
# Statements

A text that ends with the only semicolon of its code is a *closed* statement, and one that has
none and is not blank an *open* one (`IsClosed`, `IsOpen`). Statements that are closed, but for
the last one, make up a script (`IsScript`) : the statements of a text do (`isScript_statements`),
and they are found again when such statements are put together (`statements_flatten`).

A semicolon belongs to no other atom, so a closed statement is read the same whatever follows it
(`atoms_append`). By that, a text is its first statement and the rest (`statementInduction`).
-/

namespace SqlSnippet

/-! ## Marks -/

/-- The characters of an atom, each with the mark whether a statement ends with it. -/
def Atom.marks (a : Atom) : List (Char × Bool) :=
  a.text.map fun c => (c, a == .code ';')

theorem flatMap_marks_map_code (s : Text) :
    (s.map Atom.code).flatMap Atom.marks = s.map fun c => (c, c == ';') := by
  induction s with
  | nil => rfl
  | cons c s ih =>
    have hc : (Atom.code c == .code ';') = (c == ';') := by
      rw [Bool.eq_iff_iff, beq_iff_eq, beq_iff_eq, Atom.code.injEq]
    rw [List.map_cons, List.flatMap_cons, ih, Atom.marks, hc]
    rfl

theorem marks_eq_flatMap_marks (r : Region) : r.marks = r.atoms.flatMap Atom.marks := by
  unfold Region.marks Region.atoms
  split
  · next h =>
    rw [h]
    exact (List.append_nil _).symm
  · next h =>
    rw [Bool.eq_false_iff.2 h, flatMap_marks_map_code]
    rfl

theorem map_fst_flatMap_marks (as : List Atom) :
    (as.flatMap Atom.marks).map Prod.fst = Atom.flatten as := by
  rw [List.map_flatMap]
  refine List.flatMap_congr fun a _ => ?_
  rw [Atom.marks, List.map_map]
  exact List.map_id _

/-- The statements of a text before those of white space are left out. -/
theorem statements_eq (s : Text) : statements s =
    (cutAfterMarks ((atoms s).flatMap Atom.marks)).filter (!Text.isBlank ·) := by
  rw [statements, atoms, List.flatMap_assoc]
  exact congrArg (fun ms => (cutAfterMarks ms).filter _)
    (List.flatMap_congr fun r _ => marks_eq_flatMap_marks r)

theorem cutAfterMarks_append {ms : List (Char × Bool)} (h : ∀ m ∈ ms, m.2 = false) (c : Char)
    (ns : List (Char × Bool)) :
    cutAfterMarks (ms ++ (c, true) :: ns) = (ms.map Prod.fst ++ [c]) :: cutAfterMarks ns := by
  induction ms with
  | nil => rfl
  | cons m ms ih =>
    obtain ⟨hm, hms⟩ := List.forall_mem_cons.1 h
    obtain ⟨e, marked⟩ := m
    obtain rfl : marked = false := hm
    rw [List.cons_append, cutAfterMarks, ih hms]
    rfl

theorem cutAfterMarks_of_unmarked {ms : List (Char × Bool)} (h : ∀ m ∈ ms, m.2 = false)
    (hne : ms ≠ []) : cutAfterMarks ms = [ms.map Prod.fst] := by
  induction ms with
  | nil => exact absurd rfl hne
  | cons m ms ih =>
    obtain ⟨hm, hms⟩ := List.forall_mem_cons.1 h
    obtain ⟨e, marked⟩ := m
    obtain rfl : marked = false := hm
    cases ms with
    | nil => rfl
    | cons n ns =>
      rw [cutAfterMarks, ih hms (List.cons_ne_nil n ns)]
      rfl

theorem unmarked_of_not_mem {as : List Atom} (h : Atom.code ';' ∉ as) :
    ∀ m ∈ as.flatMap Atom.marks, m.2 = false := by
  intro m hm
  obtain ⟨a, ha, hm⟩ := List.mem_flatMap.1 hm
  obtain ⟨c, -, rfl⟩ := List.mem_map.1 hm
  exact beq_eq_false_iff_ne.2 fun heq => h (heq ▸ ha)

/-! ## White space -/

theorem isFit_map_code_of_blank {b : Text} (hb : ∀ c ∈ b, isBlank c = true)
    (next : Option Char) : IsFit next (b.map .code) := by
  induction b with
  | nil => trivial
  | cons c b ih =>
    obtain ⟨hc, hb⟩ := List.forall_mem_cons.1 hb
    exact ⟨not_opens_of_isBlank hc _, ih hb⟩

/-- White space is code. -/
theorem atoms_append_of_blank {b : Text} (hb : ∀ c ∈ b, isBlank c = true) (s : Text) :
    atoms (b ++ s) = b.map .code ++ atoms s := by
  have hatoms := atoms_flatten
    (isFit_append.2 ⟨isFit_map_code_of_blank hb _, isFit_atoms s⟩)
  rwa [Atom.flatten_append, Atom.flatten_map_code, flatten_atoms] at hatoms

theorem atoms_nil : atoms [] = [] := by
  rw [atoms, scan_nil]
  rfl

theorem atoms_of_blank {b : Text} (hb : ∀ c ∈ b, isBlank c = true) :
    atoms b = b.map .code := by
  have h := atoms_append_of_blank hb []
  rwa [List.append_nil, atoms_nil, List.append_nil] at h

theorem semicolon_not_mem_of_blank {b : Text} (hb : ∀ c ∈ b, isBlank c = true) :
    Atom.code ';' ∉ b.map Atom.code := by
  intro h
  obtain ⟨c, hc, heq⟩ := List.mem_map.1 h
  obtain rfl := Atom.code.inj heq
  exact absurd (hb _ hc) (by decide)

/-- Only white space has no outline. -/
theorem outline_eq_nil_iff {s : Text} : outline s = [] ↔ Text.isBlank s = true := by
  unfold Text.isBlank
  rw [List.all_eq_true]
  constructor
  · intro h c hc
    have hcells := map_atom_outlineAfter false (atoms s)
    change (outline s).map Cell.atom = _ at hcells
    rw [h, eq_comm, List.map_nil, List.filter_eq_nil_iff] at hcells
    rw [← flatten_atoms s] at hc
    obtain ⟨a, ha, hc⟩ := List.mem_flatMap.1 hc
    have hblank := hcells a ha
    cases a with
    | code d =>
      obtain rfl := List.mem_singleton.1 hc
      simpa [Atom.isBlank] using hblank
    | literal r => exact absurd rfl hblank
  · intro h
    rw [outline, atoms_of_blank h]
    exact (outlineAfter_of_blank (List.forall_mem_map.2 h) false).1

/-! ## Closed and open statements -/

/-- The only semicolon in the code of the text is its last character. -/
def IsClosed (t : Text) : Prop :=
  ∃ b, atoms t = b ++ [.code ';'] ∧ Atom.code ';' ∉ b

/-- There is no semicolon in the code of the text, and the text is not blank. -/
def IsOpen (t : Text) : Prop :=
  Atom.code ';' ∉ atoms t ∧ Text.isBlank t = false

/-- A semicolon is code whatever follows it. -/
theorem isFit_append_semicolon {b : List Atom} {n m : Option Char}
    (h : IsFit n (b ++ [.code ';'])) : IsFit m (b ++ [.code ';']) := by
  rw [isFit_append] at h ⊢
  have hcode : ¬Opens ';' (none.or m) := by
    rintro (h | ⟨h, -⟩ | ⟨h, -⟩) <;> cases h
  exact ⟨h.1, hcode, trivial⟩

/-- A closed statement is read the same whatever follows it. -/
theorem atoms_append {t : Text} (ht : IsClosed t) (s : Text) :
    atoms (t ++ s) = atoms t ++ atoms s := by
  obtain ⟨b, hb, -⟩ := ht
  have hfit : IsFit none (atoms t ++ atoms s) := by
    refine isFit_append.2 ⟨?_, isFit_atoms s⟩
    have ht := isFit_atoms t
    rw [hb] at ht ⊢
    exact isFit_append_semicolon ht
  have hatoms := atoms_flatten hfit
  rwa [Atom.flatten_append, flatten_atoms, flatten_atoms] at hatoms

theorem IsClosed.isBlank {t : Text} (ht : IsClosed t) : Text.isBlank t = false := by
  obtain ⟨b, hb, -⟩ := ht
  refine Bool.eq_false_iff.2 fun h => ?_
  have hnil := outline_eq_nil_iff.2 h
  rw [outline, hb, outlineAfter_append] at hnil
  exact List.cons_ne_nil _ _ (List.append_eq_nil_iff.1 hnil).2

theorem statements_append {t : Text} (ht : IsClosed t) (s : Text) :
    statements (t ++ s) = t :: statements s := by
  have hblank := ht.isBlank
  have hatoms := atoms_append ht s
  obtain ⟨b, hb, hnot⟩ := ht
  have hmarks : (atoms (t ++ s)).flatMap Atom.marks =
      b.flatMap Atom.marks ++ (';', true) :: (atoms s).flatMap Atom.marks := by
    rw [hatoms, hb, List.flatMap_append, List.flatMap_append, List.append_assoc]
    rfl
  have htext : Atom.flatten b ++ [';'] = t := by
    rw [← flatten_atoms t, hb, Atom.flatten_append]
    rfl
  rw [statements_eq, hmarks, cutAfterMarks_append (unmarked_of_not_mem hnot),
    map_fst_flatMap_marks, htext, List.filter_cons_of_pos (by rw [hblank]; rfl), ← statements_eq]

theorem statements_of_not_mem {t : Text} (ht : Atom.code ';' ∉ atoms t) :
    statements t = [t].filter (!Text.isBlank ·) := by
  rw [statements_eq]
  cases t with
  | nil => rw [atoms_nil]; rfl
  | cons c t =>
    have hne : (atoms (c :: t)).flatMap Atom.marks ≠ [] := by
      intro h
      have htext := map_fst_flatMap_marks (atoms (c :: t))
      rw [h, flatten_atoms] at htext
      cases htext
    rw [cutAfterMarks_of_unmarked (unmarked_of_not_mem ht) hne, map_fst_flatMap_marks,
      flatten_atoms]

theorem statements_of_isOpen {t : Text} (ht : IsOpen t) : statements t = [t] := by
  rw [statements_of_not_mem ht.1, List.filter_cons_of_pos (by rw [ht.2]; rfl)]
  rfl

theorem statements_of_isBlank {t : Text} (ht : Text.isBlank t = true) : statements t = [] := by
  have hall := List.all_eq_true.1 ht
  have hnot : Atom.code ';' ∉ atoms t := by
    rw [atoms_of_blank hall]
    exact semicolon_not_mem_of_blank hall
  rw [statements_of_not_mem hnot, List.filter_cons_of_neg (by rw [ht]; decide)]
  rfl

/-- A text is blank, or an open statement, or a closed statement and what follows it. -/
theorem statementInduction {P : Text → Prop} (hblank : ∀ s, Text.isBlank s = true → P s)
    (hopen : ∀ t, IsOpen t → P t) (hclosed : ∀ t s, IsClosed t → P s → P (t ++ s)) (s : Text) :
    P s := by
  have hatoms : ∀ (as b : List Atom), IsFit none (b ++ as) → Atom.code ';' ∉ b →
      P (Atom.flatten (b ++ as)) := by
    intro as
    induction as with
    | nil =>
      intro b hfit hb
      rw [List.append_nil] at hfit ⊢
      cases h : Text.isBlank (Atom.flatten b) with
      | true => exact hblank _ h
      | false => exact hopen _ ⟨by rwa [atoms_flatten hfit], h⟩
    | cons a as ih =>
      intro b hfit hb
      have hsplit : b ++ a :: as = b ++ [a] ++ as := by rw [List.append_assoc]; rfl
      rw [hsplit] at hfit ⊢
      by_cases ha : a = .code ';'
      · obtain ⟨hfirst, hrest⟩ := isFit_append.1 hfit
        rw [ha] at hfirst ⊢
        rw [Atom.flatten_append]
        refine hclosed _ _ ⟨b, ?_, hb⟩ (ih [] hrest List.not_mem_nil)
        exact atoms_flatten (isFit_append_semicolon hfirst)
      · refine ih (b ++ [a]) hfit fun h => ?_
        rcases List.mem_append.1 h with h | h
        · exact hb h
        · exact ha (List.mem_singleton.1 h).symm
  have hs := hatoms (atoms s) [] (isFit_atoms s) List.not_mem_nil
  rwa [List.nil_append, flatten_atoms] at hs

/-! ## Scripts -/

/-- Statements that are closed, but for the last one, which may be open. -/
inductive IsScript : List Text → Prop
  | nil : IsScript []
  | last {t : Text} : IsOpen t → IsScript [t]
  | cons {t : Text} {ts : List Text} : IsClosed t → IsScript ts → IsScript (t :: ts)

theorem isScript_statements (s : Text) : IsScript (statements s) := by
  induction s using statementInduction with
  | hblank s h => rw [statements_of_isBlank h]; exact .nil
  | hopen t h => rw [statements_of_isOpen h]; exact .last h
  | hclosed t s h ih => rw [statements_append h]; exact .cons h ih

/-- The statements of a script are found in the text that they make up. -/
theorem statements_flatten {ts : List Text} (h : IsScript ts) : statements ts.flatten = ts := by
  induction h with
  | nil => exact statements_of_isBlank rfl
  | last ht => rw [List.flatten_singleton, statements_of_isOpen ht]
  | cons ht _ ih => rw [List.flatten_cons, statements_append ht, ih]

theorem IsScript.map {f : Text → Text} (hclosed : ∀ t, IsClosed t → IsClosed (f t))
    (hopen : ∀ t, IsOpen t → IsOpen (f t)) {ts : List Text} (h : IsScript ts) :
    IsScript (ts.map f) := by
  induction h with
  | nil => exact .nil
  | last ht => exact .last (hopen _ ht)
  | cons ht _ ih => exact .cons (hclosed _ ht) ih

theorem IsScript.isBlank_of_mem {ts : List Text} (h : IsScript ts) :
    ∀ t ∈ ts, Text.isBlank t = false := by
  induction h with
  | nil => nofun
  | last ht => exact List.forall_mem_singleton.2 ht.2
  | cons ht _ ih => exact List.forall_mem_cons.2 ⟨ht.isBlank, ih⟩

/-- A statement of a script is one statement. -/
theorem IsScript.statements_of_mem {ts : List Text} (h : IsScript ts) :
    ∀ t ∈ ts, statements t = [t] := by
  induction h with
  | nil => nofun
  | last ht => exact List.forall_mem_singleton.2 (statements_of_isOpen ht)
  | @cons t _ ht _ ih =>
    refine List.forall_mem_cons.2 ⟨?_, ih⟩
    have hone := statements_append ht []
    rwa [List.append_nil, statements_of_isBlank (rfl : Text.isBlank [] = true)] at hone

end SqlSnippet
