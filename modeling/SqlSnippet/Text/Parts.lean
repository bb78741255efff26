import SqlSnippet.Text.Blank

/-!
# Parts of a text

A text falls into parts at every place of a mark (`Text.parts`), or is cut in two where another
text first occurs in it (`Text.cut?`). Texts without the mark are the parts of the text that they
make with marks between them (`Text.parts_intercalate`), and what has been cut in two makes the text
again (`Text.append_of_cut?`).
-/

namespace SqlSnippet

/-- The parts of a text between the places of a mark: one more than there are marks. -/
def Text.parts (mark : Char) : Text → List Text
  | [] => [[]]
  | c :: r =>
    if c = mark then [] :: Text.parts mark r
    else match Text.parts mark r with
      | [] => [[c]]
      | p :: ps => (c :: p) :: ps

theorem Text.parts_ne_nil (mark : Char) (s : Text) : Text.parts mark s ≠ [] := by
  cases s with
  | nil => simp [Text.parts]
  | cons c r =>
    simp only [Text.parts]
    split
    · simp
    · split <;> simp

theorem Text.not_mem_of_mem_parts {mark : Char} {s p : Text} (hp : p ∈ Text.parts mark s) :
    mark ∉ p := by
  induction s generalizing p with
  | nil =>
    rw [List.mem_singleton.1 hp]
    exact List.not_mem_nil
  | cons c r ih =>
    rw [Text.parts] at hp
    split at hp
    · rcases List.mem_cons.1 hp with rfl | hp
      · exact List.not_mem_nil
      · exact ih hp
    · next hc =>
      split at hp
      · rw [List.mem_singleton.1 hp]
        exact fun h => hc (List.mem_singleton.1 h).symm
      · next q qs hq =>
        rw [hq] at ih
        rcases List.mem_cons.1 hp with rfl | hp
        · exact List.not_mem_cons_of_ne_of_not_mem (Ne.symm hc) (ih List.mem_cons_self)
        · exact ih (List.mem_cons_of_mem q hp)

theorem Text.parts_of_not_mem {mark : Char} {s : Text} (h : mark ∉ s) :
    Text.parts mark s = [s] := by
  induction s with
  | nil => rfl
  | cons c r ih =>
    obtain ⟨hc, hr⟩ := List.ne_and_not_mem_of_not_mem_cons h
    rw [Text.parts, if_neg (Ne.symm hc), ih hr]

/-- What comes before a mark falls into parts on its own, and so does what comes after it. -/
theorem Text.parts_append (mark : Char) (s t : Text) :
    Text.parts mark (s ++ mark :: t) = Text.parts mark s ++ Text.parts mark t := by
  induction s with
  | nil => exact if_pos rfl
  | cons c s ih =>
    rw [List.cons_append, Text.parts, Text.parts, ih]
    split
    · rfl
    · cases hp : Text.parts mark s with
      | nil => exact absurd hp (Text.parts_ne_nil mark s)
      | cons p ps => rfl

theorem Text.length_parts (mark : Char) (s : Text) :
    (Text.parts mark s).length = s.count mark + 1 := by
  induction s with
  | nil => rfl
  | cons c r ih =>
    rw [Text.parts, List.count_cons]
    split
    · next h => rw [List.length_cons, ih, h, beq_self_eq_true, if_pos rfl]
    · next h =>
      rw [beq_false_of_ne h]
      cases hp : Text.parts mark r with
      | nil => exact absurd hp (Text.parts_ne_nil mark r)
      | cons p ps =>
        rw [hp] at ih
        exact ih

/-- Texts put together with marks between them fall into parts again. -/
theorem Text.parts_intercalate {mark : Char} {ps : List Text} (hne : ps ≠ [])
    (h : ∀ p ∈ ps, mark ∉ p) : Text.parts mark (List.intercalate [mark] ps) = ps := by
  induction ps with
  | nil => exact absurd rfl hne
  | cons p ps ih =>
    obtain ⟨hp, hps⟩ := List.forall_mem_cons.1 h
    cases ps with
    | nil => rw [List.intercalate_singleton, Text.parts_of_not_mem hp]
    | cons q qs =>
      rw [List.intercalate_cons_cons, List.append_assoc, List.singleton_append, Text.parts_append,
        Text.parts_of_not_mem hp, ih (List.cons_ne_nil q qs) hps, List.singleton_append]

/-- The text before the first place where `mark` starts, and the text from there on. -/
def Text.cut? (mark : Text) : Text → Option (Text × Text)
  | [] => if mark.isEmpty then some ([], []) else none
  | c :: r =>
    if mark.isPrefixOf (c :: r) then some ([], c :: r)
    else (Text.cut? mark r).map fun (before, rest) => (c :: before, rest)

theorem Text.append_of_cut? {mark s before rest : Text}
    (h : Text.cut? mark s = some (before, rest)) : before ++ rest = s := by
  induction s generalizing before with
  | nil => simp only [Text.cut?] at h; split at h <;> simp_all
  | cons c r ih =>
    simp only [Text.cut?] at h
    split at h
    · simp_all
    · obtain ⟨⟨b, t⟩, hb, he⟩ := Option.map_eq_some_iff.1 h
      obtain ⟨rfl, rfl⟩ := Prod.mk.inj he
      rw [List.cons_append, ih hb]

theorem Text.prefix_of_cut? {mark s before rest : Text}
    (h : Text.cut? mark s = some (before, rest)) : mark <+: rest := by
  induction s generalizing before with
  | nil =>
    rw [Text.cut?] at h
    split at h
    · next hmark =>
      rw [List.isEmpty_iff.1 hmark]
      exact List.nil_prefix
    · cases h
  | cons c r ih =>
    rw [Text.cut?] at h
    split at h
    · next hmark =>
      obtain ⟨rfl, rfl⟩ := Prod.mk.inj (Option.some.inj h)
      exact List.isPrefixOf_iff_prefix.1 hmark
    · obtain ⟨⟨b, t⟩, hb, he⟩ := Option.map_eq_some_iff.1 h
      obtain ⟨rfl, rfl⟩ := Prod.mk.inj he
      exact ih hb

end SqlSnippet
