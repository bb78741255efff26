import Mathlib.Data.List.Infix
import SqlSnippet.Source.Region

/-!
# The grammar of a region

What `cutRegion` reads can be said without reading : a region has the shape of its kind
(`Region.Grammatical`). Which text that is depends on the text after the region by no more than
its first character, so the grammar of a region is a local matter.

For each kind there is one lemma that says what the reader finds, and one that a text of that
shape is what the reader takes. `grammatical_cutRegion` and `cutRegion_append_of_isProtected`,
with `cutRegion_append_of_code` for code, put them together.
-/

namespace SqlSnippet

/-! ## Runs -/

section Runs

variable {α : Type} {p : α → Bool} {as bs xs ys : List α}

/-- A run of elements that satisfy `p` ends where one comes that does not. -/
theorem takeWhile_append_stop (has : ∀ a ∈ as, p a = true) (hxs : ∀ a ∈ xs.head?, p a = false) :
    (as ++ xs).takeWhile p = as := by
  rw [List.takeWhile_append_of_pos has]
  cases xs with
  | nil => exact List.append_nil as
  | cons x xs =>
    rw [List.takeWhile_cons_of_neg (Bool.eq_false_iff.1 (hxs x rfl)), List.append_nil]

/-- A list falls in one way only into such a run and what comes after it. -/
theorem append_stop_inj (has : ∀ a ∈ as, p a = true) (hbs : ∀ a ∈ bs, p a = true)
    (hxs : ∀ a ∈ xs.head?, p a = false) (hys : ∀ a ∈ ys.head?, p a = false)
    (h : as ++ xs = bs ++ ys) : as = bs ∧ xs = ys := by
  have heq : as = bs := by
    rw [← takeWhile_append_stop has hxs, h, takeWhile_append_stop hbs hys]
  subst heq
  exact ⟨rfl, List.append_cancel_left h⟩

end Runs

/-! ## The grammar -/

/-- The text between the quotes of a string : a quote in it is doubled. -/
inductive QuotedText : Text → Prop
  | nil : QuotedText []
  | char {c : Char} {s : Text} : c ≠ '\'' → QuotedText s → QuotedText (c :: s)
  | quote {s : Text} : QuotedText s → QuotedText ('\'' :: '\'' :: s)

/-- The text ends with the first closing mark of a block comment in it. -/
def EndsAtClose (s : Text) : Prop :=
  ['*', '/'] <:+ s ∧ ∀ t, t ++ ['*', '/'] <+: s → t ++ ['*', '/'] = s

/-- No other region opens in the text, nor at its last character with the one after it. -/
def CodeText (s : Text) (next : Option Char) : Prop :=
  '\'' ∉ s ∧ ¬['-', '-'] <:+: s ++ next.toList ∧ ¬['/', '*'] <:+: s ++ next.toList

/-- A region has the shape of its kind, where `next` is the character after it if there is
one. Only strings and block comments can be unterminated. -/
def Region.Grammatical (r : Region) (next : Option Char) : Prop :=
  match r.kind, r.terminated with
  | .code, true => CodeText r.text next
  | .lineComment, true =>
    ['-', '-'] <+: r.text ∧ '\n' ∉ r.text ∧ '\r' ∉ r.text ∧
      (next = none ∨ next = some '\n' ∨ next = some '\r')
  | .blockComment, true => ∃ s, r.text = '/' :: '*' :: s ∧ EndsAtClose s
  | .blockComment, false => ∃ s, r.text = '/' :: '*' :: s ∧ ¬['*', '/'] <:+: s ∧ next = none
  | .string, true => ∃ s, r.text = '\'' :: s ++ ['\''] ∧ QuotedText s ∧ next ≠ some '\''
  | .string, false => ∃ s, r.text = '\'' :: s ∧ QuotedText s ∧ next = none
  | .code, false => False
  | .lineComment, false => False

/-- Only the end of the text leaves a region unclosed, and code is closed. -/
theorem Region.Grammatical.of_not_terminated {r : Region} {next : Option Char}
    (h : r.Grammatical next) (ht : r.terminated = false) :
    r.isProtected = true ∧ next = none := by
  obtain ⟨kind, text, terminated⟩ := r
  obtain rfl : terminated = false := ht
  cases kind with
  | code => exact h.elim
  | string => exact ⟨rfl, h.choose_spec.2.2⟩
  | lineComment => exact h.elim
  | blockComment => exact ⟨rfl, h.choose_spec.2.2⟩

/-- No string or comment starts with a line break. -/
theorem Region.Grammatical.endsLine_head? {r : Region} {next : Option Char}
    (h : r.Grammatical next) (hp : r.isProtected = true) :
    ∀ c ∈ r.text.head?, endsLine c = false := by
  obtain ⟨kind, text, terminated⟩ := r
  cases kind <;> cases terminated <;> simp only [Region.Grammatical] at h
  · cases hp
  · obtain ⟨s, rfl, -⟩ := h
    rintro c ⟨⟩
    decide
  · obtain ⟨s, rfl, -⟩ := h
    rintro c ⟨⟩
    decide
  · obtain ⟨⟨s, rfl⟩, -⟩ := h
    rintro c ⟨⟩
    decide
  · obtain ⟨s, rfl, -⟩ := h
    rintro c ⟨⟩
    decide
  · obtain ⟨s, rfl, -⟩ := h
    rintro c ⟨⟩
    decide

/-- No closed string or comment ends with a line break. -/
theorem Region.Grammatical.endsLine_getLast? {r : Region} {next : Option Char}
    (h : r.Grammatical next) (hp : r.isProtected = true) (ht : r.terminated = true) :
    ∀ c ∈ r.text.getLast?, endsLine c = false := by
  obtain ⟨kind, text, terminated⟩ := r
  obtain rfl : terminated = true := ht
  intro c hc
  cases kind with
  | code => cases hp
  | string =>
    obtain ⟨s, rfl : text = _, -⟩ := h
    rw [List.getLast?_concat] at hc
    obtain rfl := Option.some.inj hc
    decide
  | lineComment =>
    obtain ⟨-, hlf, hcr, -⟩ := h
    have hmem := List.mem_of_getLast? hc
    simp only [endsLine, Bool.or_eq_false_iff, beq_eq_false_iff_ne]
    exact ⟨fun heq => hlf (heq ▸ hmem), fun heq => hcr (heq ▸ hmem)⟩
  | blockComment =>
    obtain ⟨s, rfl : text = _, ⟨t, rfl⟩, -⟩ := h
    rw [show '/' :: '*' :: (t ++ ['*', '/']) = '/' :: '*' :: (t ++ ['*']) ++ ['/'] by simp,
      List.getLast?_concat] at hc
    obtain rfl := Option.some.inj hc
    decide

/-- No string or comment that something follows ends with a line break. -/
theorem Region.Grammatical.endsLine_getLast?_of_some {r : Region} {a : Char}
    (h : r.Grammatical (some a)) (hp : r.isProtected = true) :
    ∀ c ∈ r.text.getLast?, endsLine c = false := by
  refine h.endsLine_getLast? hp ?_
  by_contra ht
  cases (h.of_not_terminated (Bool.eq_false_iff.2 ht)).2

/-! ## Openings -/

/-- Another region than code opens at a character, by the character after it. -/
def Opens (c : Char) (next : Option Char) : Prop :=
  c = '\'' ∨ (c = '-' ∧ next = some '-') ∨ (c = '/' ∧ next = some '*')

theorem openingKind_eq_code_iff {c : Char} {s : Text} :
    openingKind (c :: s) = .code ↔ ¬Opens c s.head? := by
  unfold Opens openingKind
  split
  · simp_all
  · simp_all
  · simp_all
  · next hblock hline hstring =>
    simp only [true_iff]
    rintro (rfl | ⟨rfl, h⟩ | ⟨rfl, h⟩)
    · exact hstring _ rfl
    · obtain ⟨t, rfl⟩ := List.head?_eq_some_iff.1 h
      exact hline _ rfl
    · obtain ⟨t, rfl⟩ := List.head?_eq_some_iff.1 h
      exact hblock _ rfl

theorem codeText_nil (next : Option Char) : CodeText [] next := by
  cases next <;> simp [CodeText, List.infix_cons_iff]

theorem pair_prefix_cons {a b c : Char} {s : Text} :
    [a, b] <+: c :: s ↔ c = a ∧ s.head? = some b := by
  rw [List.cons_prefix_cons, eq_comm]
  cases s with
  | nil => simp
  | cons d s => rw [List.cons_prefix_cons, List.head?_cons, Option.some_inj, eq_comm (a := b)]; simp

theorem pair_infix_cons {a b c : Char} {s : Text} :
    [a, b] <:+: c :: s ↔ (c = a ∧ s.head? = some b) ∨ [a, b] <:+: s := by
  rw [List.infix_cons_iff, pair_prefix_cons]

theorem codeText_cons {c : Char} {s : Text} {next : Option Char} :
    CodeText (c :: s) next ↔ ¬Opens c (s ++ next.toList).head? ∧ CodeText s next := by
  unfold CodeText Opens
  rw [List.cons_append, pair_infix_cons, pair_infix_cons, List.mem_cons, not_or, not_or, not_or,
    not_or, not_or]
  constructor
  · rintro ⟨⟨hc, hs⟩, ⟨hl, hl'⟩, hb, hb'⟩
    exact ⟨⟨Ne.symm hc, hl, hb⟩, hs, hl', hb'⟩
  · rintro ⟨⟨hc, hl, hb⟩, hs, hl', hb'⟩
    exact ⟨⟨Ne.symm hc, hs⟩, ⟨hl, hl'⟩, hb, hb'⟩

theorem head?_append_toList (s : Text) (next : Option Char) :
    (s ++ next.toList).head? = s.head?.or next := by
  cases s <;> cases next <;> rfl

/-! ## Code -/

/-- Code is read to the end of the text or to the place where another region opens. -/
theorem codeText_cutCode (s : Text) :
    CodeText (cutCode s).taken (cutCode s).rest.head? ∧
      ((cutCode s).rest ≠ [] → openingKind (cutCode s).rest ≠ .code) ∧
      (cutCode s).closed = true := by
  induction s with
  | nil => exact ⟨codeText_nil _, fun h => absurd rfl h, rfl⟩
  | cons c r ih =>
    rw [cutCode]
    split
    · next h =>
      obtain ⟨htext, hrest, hclosed⟩ := ih
      rw [Cut.taken_push, Cut.rest_push, Cut.closed_push, List.singleton_append, codeText_cons,
        head?_append_toList, ← List.head?_append, taken_append_rest_cutCode]
      exact ⟨⟨openingKind_eq_code_iff.1 h, htext⟩, hrest, hclosed⟩
    · next h => exact ⟨codeText_nil _, fun _ => h, rfl⟩

theorem cutCode_append {s rest : Text} (hs : CodeText s rest.head?)
    (hrest : rest ≠ [] → openingKind rest ≠ .code) : cutCode (s ++ rest) = ⟨s, rest, true⟩ := by
  induction s with
  | nil =>
    cases rest with
    | nil => rfl
    | cons c r => rw [List.nil_append, cutCode, if_neg (hrest (List.cons_ne_nil c r))]
  | cons c s ih =>
    obtain ⟨hc, hs⟩ := codeText_cons.1 hs
    rw [head?_append_toList, ← List.head?_append] at hc
    rw [List.cons_append, cutCode, if_pos (openingKind_eq_code_iff.2 hc), ih hs]
    rfl

/-! ## Block comments -/

theorem cutBlockComment_cons {c : Char} {s : Text} (h : ¬(c = '*' ∧ s.head? = some '/')) :
    cutBlockComment (c :: s) = (cutBlockComment s).push [c] := by
  rw [cutBlockComment]
  rintro r rfl rfl
  exact h ⟨rfl, rfl⟩

theorem not_endsAtClose_nil : ¬EndsAtClose [] := by
  simp [EndsAtClose]

theorem endsAtClose_cons {c : Char} {s : Text} : EndsAtClose (c :: s) ↔
    c :: s = ['*', '/'] ∨ (¬(c = '*' ∧ s.head? = some '/') ∧ EndsAtClose s) := by
  constructor
  · rintro ⟨hsuffix, hfirst⟩
    by_cases hc : c = '*' ∧ s.head? = some '/'
    · exact Or.inl (hfirst [] (pair_prefix_cons.2 hc)).symm
    · refine Or.inr ⟨hc, ?_, fun t ht => ?_⟩
      · rcases List.suffix_cons_iff.1 hsuffix with h | h
        · exact absurd (pair_prefix_cons.1 (h ▸ List.prefix_refl _)) hc
        · exact h
      · exact (List.cons.inj (hfirst (c :: t) (List.cons_prefix_cons.2 ⟨rfl, ht⟩))).2
  · rintro (h | ⟨hc, hsuffix, hfirst⟩)
    · rw [h]
      refine ⟨List.suffix_refl _, fun t ht => ?_⟩
      have hlen := ht.length_le
      rw [List.length_append] at hlen
      rw [List.eq_nil_of_length_eq_zero (l := t) (by omega)]
      rfl
    · refine ⟨hsuffix.trans (List.suffix_cons c s), fun t ht => ?_⟩
      cases t with
      | nil => exact absurd (pair_prefix_cons.1 ht) hc
      | cons d t =>
        rw [List.cons_append, List.cons_prefix_cons] at ht
        rw [List.cons_append, ht.1, hfirst t ht.2]

/-- A block comment is read to its first closing mark, or to the end of a text without one. -/
theorem cutBlockComment_spec (s : Text) :
    ((cutBlockComment s).closed = true ∧ EndsAtClose (cutBlockComment s).taken) ∨
      cutBlockComment s = ⟨s, [], false⟩ ∧ ¬['*', '/'] <:+: s := by
  induction s with
  | nil => exact Or.inr ⟨rfl, by simp⟩
  | cons c r ih =>
    by_cases hc : c = '*' ∧ r.head? = some '/'
    · obtain ⟨rfl, h⟩ := hc
      obtain ⟨t, rfl⟩ := List.head?_eq_some_iff.1 h
      exact Or.inl ⟨rfl, endsAtClose_cons.2 (Or.inl rfl)⟩
    · rw [cutBlockComment_cons hc]
      rcases ih with ⟨hclosed, hends⟩ | ⟨heq, hno⟩
      · have hne : (cutBlockComment r).taken ≠ [] := fun h => not_endsAtClose_nil (h ▸ hends)
        rw [← taken_append_rest_cutBlockComment r, List.head?_append_of_ne_nil _ hne] at hc
        exact Or.inl ⟨hclosed, endsAtClose_cons.2 (Or.inr ⟨hc, hends⟩)⟩
      · refine Or.inr ⟨by rw [heq]; rfl, ?_⟩
        rw [pair_infix_cons]
        exact not_or.2 ⟨hc, hno⟩

theorem cutBlockComment_append {s : Text} (h : EndsAtClose s) (rest : Text) :
    cutBlockComment (s ++ rest) = ⟨s, rest, true⟩ := by
  induction s with
  | nil => exact absurd h not_endsAtClose_nil
  | cons c s ih =>
    rcases endsAtClose_cons.1 h with h | ⟨hc, hs⟩
    · rw [h]
      rfl
    · have hne : s ≠ [] := fun h => not_endsAtClose_nil (h ▸ hs)
      have hc : ¬(c = '*' ∧ (s ++ rest).head? = some '/') := by
        rwa [List.head?_append_of_ne_nil _ hne]
      rw [List.cons_append, cutBlockComment_cons hc, ih hs]
      rfl

theorem cutBlockComment_of_not_infix {s : Text} (h : ¬['*', '/'] <:+: s) :
    cutBlockComment s = ⟨s, [], false⟩ := by
  induction s with
  | nil => rfl
  | cons c s ih =>
    rw [pair_infix_cons, not_or] at h
    rw [cutBlockComment_cons h.1, ih h.2]
    rfl

/-! ## Strings -/

theorem cutString_cons {c : Char} (h : c ≠ '\'') (s : Text) :
    cutString (c :: s) = (cutString s).push [c] := by
  rw [cutString]
  · rintro r rfl
    exact absurd rfl h
  · exact h

theorem cutString_quote {s : Text} (h : s.head? ≠ some '\'') :
    cutString ('\'' :: s) = ⟨['\''], s, true⟩ := by
  rw [cutString]
  rintro r rfl
  exact h rfl

/-- A string is read to a quote that no quote follows, or to the end of a text without one. -/
theorem cutString_spec (s : Text) :
    ((cutString s).closed = true ∧ (cutString s).rest.head? ≠ some '\'' ∧
      ∃ t, (cutString s).taken = t ++ ['\''] ∧ QuotedText t) ∨
      cutString s = ⟨s, [], false⟩ ∧ QuotedText s := by
  fun_induction cutString s with
  | case1 => exact Or.inr ⟨rfl, .nil⟩
  | case2 r ih =>
    rcases ih with ⟨hclosed, hnext, t, ht, hq⟩ | ⟨heq, hq⟩
    · refine Or.inl ⟨hclosed, hnext, '\'' :: '\'' :: t, ?_, .quote hq⟩
      rw [Cut.taken_push, ht]
      rfl
    · rw [heq]
      exact Or.inr ⟨rfl, .quote hq⟩
  | case3 r hr =>
    refine Or.inl ⟨rfl, fun h => ?_, [], rfl, .nil⟩
    obtain ⟨t, ht⟩ := List.head?_eq_some_iff.1 h
    exact hr t ht
  | case4 c r hc hc' ih =>
    rcases ih with ⟨hclosed, hnext, t, ht, hq⟩ | ⟨heq, hq⟩
    · refine Or.inl ⟨hclosed, hnext, c :: t, ?_, .char hc' hq⟩
      rw [Cut.taken_push, ht]
      rfl
    · rw [heq]
      exact Or.inr ⟨rfl, .char hc' hq⟩

theorem cutString_append {s rest : Text} (hs : QuotedText s) (h : rest.head? ≠ some '\'') :
    cutString (s ++ '\'' :: rest) = ⟨s ++ ['\''], rest, true⟩ := by
  induction hs with
  | nil => exact cutString_quote h
  | char hc _ ih =>
    rw [List.cons_append, cutString_cons hc, ih]
    rfl
  | quote _ ih =>
    rw [List.cons_append, List.cons_append, cutString, ih]
    rfl

theorem cutString_of_quotedText {s : Text} (hs : QuotedText s) :
    cutString s = ⟨s, [], false⟩ := by
  induction hs with
  | nil => rfl
  | char hc _ ih =>
    rw [cutString_cons hc, ih]
    rfl
  | quote _ ih =>
    rw [cutString, ih]
    rfl

/-! ## Line comments -/

/-- A line comment is read to the end of its line. -/
theorem cutLine_spec (s : Text) : '\n' ∉ (cutLine s).taken ∧ '\r' ∉ (cutLine s).taken ∧
    ((cutLine s).rest.head? = none ∨ (cutLine s).rest.head? = some '\n' ∨
      (cutLine s).rest.head? = some '\r') := by
  have hmem : ∀ c ∈ (cutLine s).taken, (!endsLine c) = true :=
    List.all_eq_true.1 (List.all_takeWhile ..)
  refine ⟨fun h => absurd (hmem _ h) (by decide), fun h => absurd (hmem _ h) (by decide), ?_⟩
  cases h : (cutLine s).rest.head? with
  | none => exact Or.inl rfl
  | some c =>
    have hnext := List.head?_dropWhile_not (fun c => !endsLine c) s
    rw [show s.dropWhile (fun c => !endsLine c) = (cutLine s).rest from rfl, h] at hnext
    simpa [endsLine, imp_iff_not_or] using hnext

theorem cutLine_append {s rest : Text} (hn : '\n' ∉ s) (hr : '\r' ∉ s)
    (h : rest.head? = none ∨ rest.head? = some '\n' ∨ rest.head? = some '\r') :
    cutLine (s ++ rest) = ⟨s, rest, true⟩ := by
  have hs : ∀ c ∈ s, (!endsLine c) = true := by
    intro c hc
    have h₁ : c ≠ '\n' := fun h => hn (h ▸ hc)
    have h₂ : c ≠ '\r' := fun h => hr (h ▸ hc)
    simp [endsLine, h₁, h₂]
  unfold cutLine
  rw [List.takeWhile_append_of_pos hs, List.dropWhile_append_of_pos hs]
  cases rest with
  | nil => simp
  | cons c r =>
    have hc : endsLine c = true := by simpa [endsLine] using h
    simp [hc]

/-! ## One region -/

theorem openingKind_cases (s : Text) : (∃ r, s = '/' :: '*' :: r) ∨ (∃ r, s = '-' :: '-' :: r) ∨
    (∃ r, s = '\'' :: r) ∨ openingKind s = .code := by
  unfold openingKind
  split
  · exact Or.inl ⟨_, rfl⟩
  · exact Or.inr (Or.inl ⟨_, rfl⟩)
  · exact Or.inr (Or.inr (Or.inl ⟨_, rfl⟩))
  · exact Or.inr (Or.inr (Or.inr rfl))

theorem cutRegion_of_code {s : Text} (h : openingKind s = .code) : cutRegion s = cutCode s := by
  simp only [cutRegion, h]

/-- The region that a text starts with is grammatical. -/
theorem grammatical_cutRegion (s : Text) :
    (Region.mk (openingKind s) (cutRegion s).taken (cutRegion s).closed).Grammatical
      (cutRegion s).rest.head? := by
  rcases openingKind_cases s with ⟨r, rfl⟩ | ⟨r, rfl⟩ | ⟨r, rfl⟩ | h
  · change (Region.mk .blockComment ('/' :: '*' :: (cutBlockComment r).taken)
      (cutBlockComment r).closed).Grammatical (cutBlockComment r).rest.head?
    rcases cutBlockComment_spec r with ⟨hclosed, hends⟩ | ⟨heq, hno⟩
    · rw [hclosed]
      exact ⟨_, rfl, hends⟩
    · rw [heq]
      exact ⟨r, rfl, hno, rfl⟩
  · obtain ⟨hn, hr, hnext⟩ := cutLine_spec r
    refine ⟨List.prefix_append ['-', '-'] (cutLine r).taken, ?_, ?_, hnext⟩
    · change '\n' ∉ '-' :: '-' :: (cutLine r).taken
      simp [hn]
    · change '\r' ∉ '-' :: '-' :: (cutLine r).taken
      simp [hr]
  · change (Region.mk .string ('\'' :: (cutString r).taken)
      (cutString r).closed).Grammatical (cutString r).rest.head?
    rcases cutString_spec r with ⟨hclosed, hnext, t, ht, hq⟩ | ⟨heq, hq⟩
    · rw [hclosed, ht]
      exact ⟨t, rfl, hq, hnext⟩
    · rw [heq]
      exact ⟨r, rfl, hq, rfl⟩
  · obtain ⟨htext, -, hclosed⟩ := codeText_cutCode s
    rw [cutRegion_of_code h, h, hclosed]
    exact htext

/-- A grammatical string or comment is read off the text that it starts. -/
theorem cutRegion_append_of_isProtected {r : Region} {rest : Text} (hp : r.isProtected = true)
    (h : r.Grammatical rest.head?) : openingKind (r.text ++ rest) = r.kind ∧
      cutRegion (r.text ++ rest) = ⟨r.text, rest, r.terminated⟩ := by
  obtain ⟨kind, text, terminated⟩ := r
  cases kind <;> cases terminated <;> simp only [Region.Grammatical] at h
  · cases hp
  · obtain ⟨s, rfl, hq, hnext⟩ := h
    obtain rfl := List.head?_eq_none_iff.1 hnext
    refine ⟨rfl, ?_⟩
    change (cutString (s ++ [])).push ['\''] = _
    rw [List.append_nil, cutString_of_quotedText hq]
    rfl
  · obtain ⟨s, rfl, hq, hnext⟩ := h
    refine ⟨rfl, ?_⟩
    change (cutString (s ++ ['\''] ++ rest)).push ['\''] = _
    rw [List.append_assoc, List.singleton_append, cutString_append hq hnext]
    rfl
  · obtain ⟨⟨s, rfl⟩, hn, hr, hnext⟩ := h
    simp only [List.cons_append, List.nil_append, List.mem_cons, not_or] at hn hr
    refine ⟨rfl, ?_⟩
    change (cutLine (s ++ rest)).push ['-', '-'] = _
    rw [cutLine_append hn.2.2 hr.2.2 hnext]
    rfl
  · obtain ⟨s, rfl, hno, hnext⟩ := h
    obtain rfl := List.head?_eq_none_iff.1 hnext
    refine ⟨rfl, ?_⟩
    change (cutBlockComment (s ++ [])).push ['/', '*'] = _
    rw [List.append_nil, cutBlockComment_of_not_infix hno]
    rfl
  · obtain ⟨s, rfl, hends⟩ := h
    refine ⟨rfl, ?_⟩
    change (cutBlockComment (s ++ rest)).push ['/', '*'] = _
    rw [cutBlockComment_append hends]
    rfl

/-- Grammatical code is read off the text that it starts if another region follows. -/
theorem cutRegion_append_of_code {s rest : Text} (hs : s ≠ []) (h : CodeText s rest.head?)
    (hrest : rest ≠ [] → openingKind rest ≠ .code) :
    openingKind (s ++ rest) = .code ∧ cutRegion (s ++ rest) = ⟨s, rest, true⟩ := by
  obtain ⟨c, t, rfl⟩ := List.exists_cons_of_ne_nil hs
  have hc := (codeText_cons.1 h).1
  rw [head?_append_toList, ← List.head?_append] at hc
  have hk : openingKind (c :: t ++ rest) = .code := openingKind_eq_code_iff.2 hc
  exact ⟨hk, by rw [cutRegion_of_code hk, cutCode_append h hrest]⟩

end SqlSnippet
