import SqlSnippet.Proofs.CaseBlank
import SqlSnippet.Settings.Config

/-!
# Names in settings

A name in settings is looked up in any case. Category names and indent styles are found by the
text that they have in lower case (`Config.categoryOf?_eq_some_iff`,
`Config.indentStyleOf?_eq_some_iff`).

Where a name is expected, a value of any kind is read as its text. For indent styles that is no
gain : the text of a value that is no text holds something else than letters, or is one of a few
words, and lower case changes nothing about either (`exists_text_of_lower_asText`).
-/

namespace SqlSnippet

/-! ## Lower case -/

/-- A character of ASCII that is no letter has no case. -/
theorem mem_lower {c : Char} (hc : c.toNat < 128) (halpha : c.isAlpha = false) {s : Text}
    (h : c ∈ s) : c ∈ Text.lower s := by
  have hlower : c.toLower = c :=
    forall_ascii (P := fun c => c.isAlpha = false → c.toLower = c) (by decide +kernel) hc halpha
  unfold Text.lower
  generalize ([] : Text) = before
  induction s generalizing before with
  | nil => cases h
  | cons d s ih =>
    rw [lowerAfter]
    refine List.mem_append.2 ?_
    rcases List.mem_cons.1 h with rfl | h
    · have hsigma : ¬(c == 'Σ') = true := fun h =>
        absurd (beq_iff_eq.1 h ▸ hc : ('Σ').toNat < 128) (by decide)
      have hdot : ¬(c == 'İ') = true := fun h =>
        absurd (beq_iff_eq.1 h ▸ hc : ('İ').toNat < 128) (by decide)
      rw [if_neg hsigma, if_neg hdot, lowerChar, if_pos hc, hlower]
      exact Or.inl List.mem_cons_self
    · exact Or.inr (ih h _)

/-- The name of an indent style is made of letters. -/
theorem lower_ne_of_mem {c : Char} (hc : c.toNat < 128) (halpha : c.isAlpha = false) {s : Text}
    (h : c ∈ s) (i : IndentStyle) : Text.lower s ≠ i.name.toList := by
  intro heq
  have hmem := mem_lower hc halpha h
  have hall : ∀ d ∈ i.name.toList, d.isAlpha = true :=
    List.all_eq_true.1 (by cases i <;> decide)
  rw [heq] at hmem
  exact Bool.false_ne_true (halpha.symm.trans (hall c hmem))

theorem lower_ne_of_isDigit {c : Char} (hc : c.isDigit = true) {s : Text} (h : c ∈ s)
    (i : IndentStyle) : Text.lower s ≠ i.name.toList := by
  have hascii : c.toNat < 128 := by
    rw [Char.isDigit, Bool.and_eq_true, decide_eq_true_eq, decide_eq_true_eq] at hc
    exact Nat.lt_of_le_of_lt (UInt32.le_iff_toNat_le.1 hc.2) (by decide)
  refine lower_ne_of_mem hascii ?_ h i
  exact forall_ascii (P := fun c => c.isDigit = true → c.isAlpha = false) (by decide +kernel)
    hascii hc

/-! ## Names -/

theorem Category.ofName?_eq_some_iff {s : String} {c : Category} :
    Category.ofName? s = some c ↔ c.name = s := by
  constructor
  · intro h
    have hfound := List.find?_some h
    exact beq_iff_eq.1 hfound
  · rintro rfl
    cases c <;> rfl

theorem IndentStyle.ofName?_eq_some_iff {s : String} {i : IndentStyle} :
    IndentStyle.ofName? s = some i ↔ i.name = s := by
  constructor
  · intro h
    unfold IndentStyle.ofName? at h
    split at h
    · rw [← Option.some.inj h]
      rfl
    · rw [← Option.some.inj h]
      rfl
    · cases h
  · rintro rfl
    cases i <;> rfl

theorem bind_text?_eq_some_iff {α : Type} {x : LooseText} {f : Text → Option α} {a : α} {s : Text}
    (h : ∀ t, f t = some a ↔ t = s) : x.text?.bind f = some a ↔ x = s.loose := by
  simp only [Option.bind_eq_some_iff, LooseText.text?_eq_some_iff, h, exists_eq_right]

theorem Config.categoryOf?_eq_some_iff {name : LooseText} {c : Category} :
    Config.categoryOf? name = some c ↔ name.lower = Text.loose c.name.toList :=
  bind_text?_eq_some_iff fun t => by
    rw [Category.ofName?_eq_some_iff, ← String.toList_inj, String.toList_ofList, eq_comm]

theorem Config.indentStyleOf?_eq_some_iff {name : LooseText} {i : IndentStyle} :
    Config.indentStyleOf? name = some i ↔ name.lower = Text.loose i.name.toList :=
  bind_text?_eq_some_iff fun t => by
    rw [IndentStyle.ofName?_eq_some_iff, ← String.toList_inj, String.toList_ofList, eq_comm]

/-! ## Values that are no text -/

theorem exists_isDigit_mem_repr (n : Nat) : ∃ c ∈ n.repr.toList, c.isDigit = true := by
  rw [Nat.repr_eq_ofList_toDigits, String.toList_ofList]
  obtain ⟨c, hc⟩ := List.exists_mem_of_ne_nil _ (Nat.toDigits_ne_nil (n := n) (b := 10))
  exact ⟨c, hc, Nat.isDigit_of_mem_toDigits (by decide) (by decide) hc⟩

/-- A whole number is written with a digit. -/
theorem exists_isDigit_mem_toString (n : Int) : ∃ c ∈ (toString n).toList, c.isDigit = true := by
  cases n with
  | ofNat n => exact exists_isDigit_mem_repr n
  | negSucc n =>
    obtain ⟨c, hc, hdigit⟩ := exists_isDigit_mem_repr (n + 1)
    refine ⟨c, ?_, hdigit⟩
    have htext : toString (Int.negSucc n) = "-" ++ (n + 1).repr := rfl
    rw [htext, String.toList_append]
    exact List.mem_append_right _ hc

/-- Digits are written with a point, or else with the sign of an exponent. -/
theorem exists_mem_positioned (ds : List Char) (place : Int) :
    ∃ c ∈ Binary64.positioned ds place, c.toNat < 128 ∧ c.isAlpha = false := by
  unfold Binary64.positioned
  split
  · refine ⟨if place < 0 then '-' else '+', ?_, ?_⟩
    · refine List.mem_append_right _ (List.mem_cons_of_mem _ ?_)
      rw [Binary64.exponentText]
      exact List.mem_cons_self
    · split <;> decide
  · refine ⟨'.', ?_, by decide⟩
    split
    · exact List.mem_append_left _ (List.mem_cons_of_mem _ List.mem_cons_self)
    · exact List.mem_append_right _ List.mem_cons_self

theorem lower_literal_ne (x : Binary64) (i : IndentStyle) :
    Text.lower x.literal ≠ i.name.toList := by
  cases x with
  | nan => cases i <;> decide
  | infinite negative => cases negative <;> cases i <;> decide
  | finite negative m e =>
    have hmem : ∃ c ∈ Binary64.literal (.finite negative m e),
        c.toNat < 128 ∧ c.isAlpha = false := by
      rw [Binary64.literal]
      split
      · exact ⟨'.', List.mem_append_right _ (by decide), by decide⟩
      · obtain ⟨c, hc, hascii⟩ := exists_mem_positioned _ _
        exact ⟨c, List.mem_append_right _ hc, hascii⟩
    obtain ⟨c, hc, hascii, halpha⟩ := hmem
    exact lower_ne_of_mem hascii halpha hc i

/-- A moment is written with hyphens or colons. -/
theorem exists_mem_text (m : Moment) :
    ∃ c ∈ m.text.toList, c.toNat < 128 ∧ c.isAlpha = false := by
  have hday : ∀ d : Day, '-' ∈ d.text.toList := by
    intro d
    simp [Day.text]
  cases m with
  | day d => exact ⟨'-', hday d, by decide⟩
  | clock t => exact ⟨':', by simp [Moment.text, Clock.text], by decide⟩
  | both d t east =>
    refine ⟨'-', ?_, by decide⟩
    have := hday d
    simp [Moment.text, this]

/-- Only a text names an indent style. -/
theorem exists_text_of_lower_asText {v : Value} {i : IndentStyle}
    (h : v.asText.lower = Text.loose i.name.toList) : ∃ x, v = .text x := by
  have hlower : ∀ {s : Text}, v.asText = s.loose → Text.lower s = i.name.toList := by
    intro s hs
    rw [hs, LooseText.lower_loose] at h
    exact Text.loose_inj.1 h
  refine Classical.byContradiction fun hnot => ?_
  cases v with
  | null => exact absurd (hlower rfl) (by cases i <;> decide)
  | bool b => exact absurd (hlower rfl) (by cases b <;> cases i <;> decide)
  | whole n =>
    obtain ⟨c, hc, hdigit⟩ := exists_isDigit_mem_toString n
    exact lower_ne_of_isDigit hdigit hc i (hlower rfl)
  | float x => exact lower_literal_ne x i (hlower rfl)
  | text x => exact hnot ⟨x, rfl⟩
  | moment m =>
    obtain ⟨c, hc, hascii, halpha⟩ := exists_mem_text m
    exact lower_ne_of_mem hascii halpha hc i (hlower rfl)
  | list vs =>
    exact lower_ne_of_mem (c := '[') (by decide) (by decide) List.mem_cons_self i (hlower rfl)
  | table es =>
    exact lower_ne_of_mem (c := '\x7b') (by decide) (by decide) List.mem_cons_self i (hlower rfl)

end SqlSnippet
