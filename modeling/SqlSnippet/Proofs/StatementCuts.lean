import SqlSnippet.Proofs.Statements
import SqlSnippet.Proofs.Words

/-!
# Where statements end

A script is cut after the semicolons of its code and nowhere else (`IsCut`) : its statements leave
out nothing but white space at its end, each of them but the last ends with a semicolon of code,
and no other semicolon of code lies in them. `isCut_statements` : this holds of every text.

A semicolon of code is a marked character (`isTerminator_iff`). By the marks, those of a text that
starts with a closed statement are the one that ends it and those of the rest
(`isTerminator_append`).
-/

namespace SqlSnippet

/-! ## Semicolons of code -/

/-- A semicolon stands at an offset, in code. -/
def IsTerminator (s : Text) (n : Nat) : Prop :=
  s[n]? = some ';' ∧ ∃ q ∈ scanPlaced s, q.2.kind = .code ∧ Spans q.1 q.2.text n

/-- A text falls into what comes up to the last semicolon of its code and what comes after; that
is all of it if there is no such semicolon. -/
structure IsLastCut (s before rest : Text) : Prop where
  covers : s = before ++ rest
  cut : before = [] ∨ IsTerminator s (before.length - 1)
  last : ∀ n, IsTerminator s n → n < before.length

/-- The texts `ps` are what the semicolons of its code cut a text into. -/
structure IsCut (s : Text) (ps : List Text) : Prop where
  /-- Nothing but white space at the end is left out. -/
  covers : ∃ tail, s = ps.flatten ++ tail ∧ Text.isBlank tail = true
  nonblank : ∀ p ∈ ps, Text.isBlank p = false
  /-- Each of them but the last ends with a semicolon of code. -/
  ends : ∀ as p bs, ps = as ++ p :: bs → bs ≠ [] →
    IsTerminator s (as.flatten.length + p.length - 1)
  /-- No other semicolon of code lies in them. -/
  inner : ∀ as p bs, ps = as ++ p :: bs → ∀ n, Spans as.flatten.length p n → IsTerminator s n →
    n = as.flatten.length + p.length - 1
  /-- There are as many as semicolons of code, and one more if what comes after the last of these
  is not blank. -/
  count : ∃ before rest, IsLastCut s before rest ∧
    ps.length = (Region.codeText (scan s)).count ';' + if Text.isBlank rest then 0 else 1

/-! ## Marks -/

/-- The characters of a text, each with the mark whether a statement ends with it. -/
def textMarks (s : Text) : List (Char × Bool) :=
  (scan s).flatMap Region.marks

theorem textMarks_eq (s : Text) : textMarks s = (atoms s).flatMap Atom.marks := by
  rw [textMarks, atoms, List.flatMap_assoc]
  exact List.flatMap_congr fun r _ => marks_eq_flatMap_marks r

theorem length_textMarks (s : Text) : (textMarks s).length = s.length := by
  rw [textMarks_eq, ← List.length_map Prod.fst, map_fst_flatMap_marks, flatten_atoms]

theorem getElem?_marks_iff {r : Region} {i : Nat} :
    r.marks[i]? = some (';', true) ↔ r.text[i]? = some ';' ∧ r.kind = .code := by
  have hcode : r.kind = .code ↔ r.isProtected = false := by
    rw [← Bool.not_eq_true, Region.isProtected_iff, not_not]
  rw [Region.marks, List.getElem?_map, Option.map_eq_some_iff, hcode]
  constructor
  · rintro ⟨c, hc, heq⟩
    obtain ⟨rfl, hmark⟩ := Prod.mk.inj heq
    exact ⟨hc, by simpa using hmark⟩
  · rintro ⟨hc, hr⟩
    exact ⟨';', hc, by rw [hr]; rfl⟩

theorem Region.le_of_mem_place {o : Nat} {rs : List Region} {q : Nat × Region}
    (h : q ∈ Region.place o rs) : o ≤ q.1 := by
  obtain ⟨as, bs, -, hq⟩ := Region.mem_place.1 h
  omega

/-- The marked characters of regions are the semicolons of their code. -/
theorem getElem?_flatMap_marks_iff {o i : Nat} {rs : List Region} :
    (rs.flatMap Region.marks)[i]? = some (';', true) ↔ (Region.flatten rs)[i]? = some ';' ∧
      ∃ q ∈ Region.place o rs, q.2.kind = .code ∧ Spans q.1 q.2.text (o + i) := by
  induction rs generalizing o i with
  | nil => simp [Region.place]
  | cons r rs ih =>
    have hlength : r.marks.length = r.text.length := List.length_map _
    rw [List.flatMap_cons, Region.flatten_cons, Region.place]
    unfold Spans at *
    by_cases hi : i < r.text.length
    · rw [List.getElem?_append_left (by omega), List.getElem?_append_left hi, getElem?_marks_iff]
      refine and_congr_right fun _ => ⟨fun hr => ?_, ?_⟩
      · exact ⟨(o, r), List.mem_cons_self, hr, Nat.le_add_right o i, Nat.add_lt_add_left hi o⟩
      · rintro ⟨q, hq, hr, hle, -⟩
        rcases List.mem_cons.1 hq with rfl | hq
        · exact hr
        · have := Region.le_of_mem_place hq
          omega
    · obtain ⟨j, rfl⟩ := Nat.exists_eq_add_of_le (Nat.not_lt.1 hi)
      rw [List.getElem?_append_right (by omega), List.getElem?_append_right (by omega), hlength,
        Nat.add_sub_cancel_left, ih (o := o + r.text.length), Nat.add_assoc]
      refine and_congr_right fun _ => exists_congr fun q => ⟨fun h => ?_, ?_⟩
      · exact ⟨List.mem_cons_of_mem _ h.1, h.2⟩
      · rintro ⟨hq, hr, hle, hlt⟩
        rcases List.mem_cons.1 hq with rfl | hq
        · dsimp only at hlt
          omega
        · exact ⟨hq, hr, hle, hlt⟩

theorem isTerminator_iff {s : Text} {n : Nat} :
    IsTerminator s n ↔ (textMarks s)[n]? = some (';', true) := by
  rw [textMarks, getElem?_flatMap_marks_iff (o := 0), flatten_scan, Nat.zero_add]
  rfl

/-- The semicolons of code are counted by their marks. -/
theorem count_codeText (rs : List Region) :
    (Region.codeText rs).count ';' = (rs.flatMap Region.marks).countP Prod.snd := by
  induction rs with
  | nil => rfl
  | cons r rs ih =>
    rw [Region.codeText_cons, List.count_append, ih, List.flatMap_cons, List.countP_append]
    refine congrArg (· + _) ?_
    rw [Region.marks, List.countP_map]
    cases r.isProtected with
    | true => simp [Function.comp_def]
    | false => rfl

/-! ## Semicolons of statements -/

theorem not_isTerminator_of_not_mem {s : Text} (h : Atom.code ';' ∉ atoms s) (n : Nat) :
    ¬IsTerminator s n := by
  rw [isTerminator_iff, textMarks_eq]
  intro hn
  exact Bool.false_ne_true (unmarked_of_not_mem h _ (List.mem_of_getElem? hn)).symm

theorem count_codeText_of_not_mem {s : Text} (h : Atom.code ';' ∉ atoms s) :
    (Region.codeText (scan s)).count ';' = 0 := by
  rw [count_codeText, ← textMarks, textMarks_eq, List.countP_eq_zero]
  exact fun m hm => Bool.eq_false_iff.1 (unmarked_of_not_mem h m hm)

/-- The marks of a text that starts with a closed statement. -/
theorem IsClosed.exists_textMarks {t : Text} (ht : IsClosed t) : ∃ ms, (∀ m ∈ ms, m.2 = false) ∧
    ms.length + 1 = t.length ∧
    ∀ s, textMarks (t ++ s) = ms ++ (';', true) :: textMarks s := by
  obtain ⟨b, hb, hnot⟩ := id ht
  have hmarks : ∀ s, textMarks (t ++ s) =
      b.flatMap Atom.marks ++ (';', true) :: textMarks s := by
    intro s
    rw [textMarks_eq, textMarks_eq, atoms_append ht, hb, List.flatMap_append, List.flatMap_append,
      List.append_assoc]
    rfl
  refine ⟨b.flatMap Atom.marks, unmarked_of_not_mem hnot, ?_, hmarks⟩
  have hlength := congrArg List.length (hmarks [])
  rw [length_textMarks, List.append_nil, List.length_append, List.length_cons,
    length_textMarks] at hlength
  exact hlength.symm

/-- The semicolons of code of a text that starts with a closed statement are the one that ends it
and those of the rest. -/
theorem isTerminator_append {t s : Text} (ht : IsClosed t) {n : Nat} :
    IsTerminator (t ++ s) n ↔ n + 1 = t.length ∨ ∃ m, n = t.length + m ∧ IsTerminator s m := by
  obtain ⟨ms, hms, hlength, hmarks⟩ := ht.exists_textMarks
  simp only [isTerminator_iff, hmarks]
  rcases Nat.lt_trichotomy n ms.length with hn | rfl | hn
  · rw [List.getElem?_append_left hn]
    refine iff_of_false (fun h => ?_) ?_
    · exact Bool.false_ne_true (hms _ (List.mem_of_getElem? h)).symm
    · rintro (h | ⟨m, rfl, -⟩) <;> omega
  · rw [List.getElem?_append_right (Nat.le_refl _), Nat.sub_self]
    exact iff_of_true rfl (Or.inl hlength)
  · obtain ⟨m, rfl⟩ := Nat.exists_eq_add_of_lt hn
    rw [List.getElem?_append_right (by omega), show ms.length + m + 1 - ms.length = m + 1 by omega,
      List.getElem?_cons_succ]
    constructor
    · exact fun h => Or.inr ⟨m, by omega, h⟩
    · rintro (h | ⟨k, hk, h⟩)
      · omega
      · rwa [show m = k by omega]

theorem count_codeText_append {t s : Text} (ht : IsClosed t) :
    (Region.codeText (scan (t ++ s))).count ';' =
      (Region.codeText (scan s)).count ';' + 1 := by
  obtain ⟨ms, hms, -, hmarks⟩ := ht.exists_textMarks
  rw [count_codeText, count_codeText, ← textMarks, ← textMarks, hmarks, List.countP_append,
    List.countP_cons_of_pos rfl, List.countP_eq_zero.2 fun m hm => Bool.eq_false_iff.1 (hms m hm),
    Nat.zero_add]

/-! ## Cuts -/

theorem isLastCut_of_not_mem {s : Text} (h : Atom.code ';' ∉ atoms s) : IsLastCut s [] s :=
  ⟨rfl, Or.inl rfl, fun n hn => absurd hn (not_isTerminator_of_not_mem h n)⟩

theorem IsLastCut.append {t s before rest : Text} (ht : IsClosed t)
    (h : IsLastCut s before rest) : IsLastCut (t ++ s) (t ++ before) rest := by
  obtain ⟨ms, -, hlength, -⟩ := ht.exists_textMarks
  refine ⟨by rw [h.covers, List.append_assoc], Or.inr ?_, fun n hn => ?_⟩
  · rw [isTerminator_append ht, List.length_append]
    rcases before.eq_nil_or_concat' with rfl | ⟨before, c, rfl⟩
    · exact Or.inl (by simp; omega)
    · refine Or.inr ⟨_, by simp, h.cut.resolve_left (by simp)⟩
  · rw [List.length_append]
    rcases (isTerminator_append ht).1 hn with hn | ⟨m, rfl, hm⟩
    · omega
    · have := h.last m hm
      omega

theorem isCut_of_isBlank {s : Text} (hs : Text.isBlank s = true) : IsCut s [] := by
  have hall := List.all_eq_true.1 hs
  have hnot : Atom.code ';' ∉ atoms s := by
    rw [atoms_of_blank hall]
    exact semicolon_not_mem_of_blank hall
  have hnil : ∀ (as : List Text) (p : Text) (bs : List Text), [] ≠ as ++ p :: bs := by simp
  refine ⟨⟨s, rfl, hs⟩, nofun, fun as p bs h => absurd h (hnil as p bs),
    fun as p bs h => absurd h (hnil as p bs), [], s, isLastCut_of_not_mem hnot, ?_⟩
  rw [count_codeText_of_not_mem hnot, if_pos hs]
  rfl

theorem isCut_of_isOpen {t : Text} (ht : IsOpen t) : IsCut t [t] := by
  have hno := not_isTerminator_of_not_mem ht.1
  refine ⟨⟨[], by simp, rfl⟩, List.forall_mem_singleton.2 ht.2, fun as p bs h hbs => ?_,
    fun as p bs _ n _ hn => absurd hn (hno n), [], t, isLastCut_of_not_mem ht.1, ?_⟩
  · have hlength := congrArg List.length h
    have hpos := List.length_pos_iff.2 hbs
    simp at hlength
    omega
  · rw [count_codeText_of_not_mem ht.1, if_neg (Bool.eq_false_iff.1 ht.2)]
    rfl

theorem length_pos_of_not_isBlank {t : Text} (ht : Text.isBlank t = false) : 0 < t.length := by
  refine List.length_pos_iff.2 ?_
  rintro rfl
  cases ht

/-- A closed statement is cut off the text that it starts. -/
theorem IsCut.cons {t s : Text} {ps : List Text} (ht : IsClosed t) (h : IsCut s ps) :
    IsCut (t ++ s) (t :: ps) := by
  obtain ⟨tail, hs, htail⟩ := h.covers
  obtain ⟨before, rest, hlast, hcount⟩ := h.count
  have hpos := length_pos_of_not_isBlank ht.isBlank
  refine ⟨⟨tail, ?_, htail⟩, List.forall_mem_cons.2 ⟨ht.isBlank, h.nonblank⟩,
    fun as p bs heq hbs => ?_, fun as p bs heq n hn hterm => ?_, t ++ before, rest,
    hlast.append ht, ?_⟩
  · rw [List.flatten_cons, List.append_assoc, ← hs]
  · rw [isTerminator_append ht]
    cases as with
    | nil =>
      obtain ⟨rfl, -⟩ := List.cons.inj heq
      exact Or.inl (by simp; omega)
    | cons a as =>
      obtain ⟨rfl, hps⟩ : t = a ∧ ps = as ++ p :: bs := List.cons.inj heq
      have hp := length_pos_of_not_isBlank (h.nonblank p (by rw [hps]; simp))
      exact Or.inr ⟨_, by simp; omega, h.ends as p bs hps hbs⟩
  · unfold Spans at hn
    cases as with
    | nil =>
      obtain ⟨rfl, -⟩ := List.cons.inj heq
      rw [List.flatten_nil, List.length_nil] at hn ⊢
      rcases (isTerminator_append ht).1 hterm with hlen | ⟨m, rfl, -⟩ <;> omega
    | cons a as =>
      obtain ⟨rfl, hps⟩ : t = a ∧ ps = as ++ p :: bs := List.cons.inj heq
      rw [List.flatten_cons, List.length_append] at hn ⊢
      rcases (isTerminator_append ht).1 hterm with hlen | ⟨m, rfl, hm⟩
      · omega
      · have hlast := h.inner as p bs hps m ⟨by omega, by omega⟩ hm
        omega
  · rw [List.length_cons, hcount, count_codeText_append ht]
    omega

/-- The statements of a text are what the semicolons of its code cut it into. -/
theorem isCut_statements (s : Text) : IsCut s (statements s) := by
  induction s using statementInduction with
  | hblank s hs =>
    rw [statements_of_isBlank hs]
    exact isCut_of_isBlank hs
  | hopen t ht =>
    rw [statements_of_isOpen ht]
    exact isCut_of_isOpen ht
  | hclosed t s ht ih =>
    rw [statements_append ht]
    exact ih.cons ht

end SqlSnippet
