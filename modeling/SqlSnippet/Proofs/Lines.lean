import Mathlib.Data.List.Basic
import SqlSnippet.Editor.Position
import SqlSnippet.Source.Region

/-!
# Lines and positions

A text is a line, or a line, a line break and another text (`lineInduction`); what a position
counts is read off this (`after_of_isLine`, `after_break`). Moving over a text in two steps is
moving over it in one (`after_append`), unless the cut parts a carriage return from the line feed
after it (`Splits`).

An editor finds a position by the line breaks before it and then by the code units of its line
(`Text.offsetOf`). By `exists_line_after`, which says what the line of a position looks like, it
finds the offset that the position was made from (`offsetOf_after`).
-/

namespace SqlSnippet

/-! ## Line breaks -/

/-- No line break is in the text. -/
def IsLine (l : Text) : Prop :=
  ∀ c ∈ l, endsLine c = false

/-- A line break with the text after it : a carriage return takes a line feed along. -/
inductive IsLineBreak : Text → Text → Prop
  | both (rest : Text) : IsLineBreak ['\r', '\n'] rest
  | lineFeed (rest : Text) : IsLineBreak ['\n'] rest
  | carriageReturn {rest : Text} : rest.head? ≠ some '\n' → IsLineBreak ['\r'] rest

/-- A cut between the two texts parts a line break. -/
def Splits (s t : Text) : Prop :=
  s.getLast? = some '\r' ∧ t.head? = some '\n'

theorem isLine_cons {c : Char} {l : Text} :
    IsLine (c :: l) ↔ endsLine c = false ∧ IsLine l :=
  List.forall_mem_cons

theorem isLine_append {l m : Text} (hl : IsLine l) (hm : IsLine m) : IsLine (l ++ m) :=
  List.forall_mem_append.2 ⟨hl, hm⟩

theorem ne_break_of_endsLine {c : Char} (h : endsLine c = false) : c ≠ '\r' ∧ c ≠ '\n' := by
  constructor <;> rintro rfl <;> cases h

/-- Only the last character before a cut and the first one after it count. -/
theorem splits_append_left {s t u : Text} (h : t ≠ []) : Splits (s ++ t) u ↔ Splits t u := by
  unfold Splits
  rw [List.getLast?_append_of_ne_nil _ h]

theorem IsLineBreak.ne_nil {b rest : Text} (h : IsLineBreak b rest) : b ≠ [] := by
  cases h <;> exact List.cons_ne_nil _ _

/-- A line break stays one if the text after it goes on, where the cut parts none. -/
theorem IsLineBreak.append {l b r t : Text} (h : IsLineBreak b r)
    (ht : ¬Splits (l ++ (b ++ r)) t) : IsLineBreak b (r ++ t) ∧ ¬Splits r t := by
  have hne : b ++ r ≠ [] := List.append_ne_nil_of_left_ne_nil h.ne_nil r
  rw [splits_append_left hne] at ht
  cases r with
  | nil =>
    refine ⟨?_, nofun⟩
    cases h with
    | both => exact .both _
    | lineFeed => exact .lineFeed _
    | carriageReturn => exact .carriageReturn fun hhead => ht ⟨rfl, hhead⟩
  | cons c r =>
    refine ⟨?_, by rwa [splits_append_left (List.cons_ne_nil c r)] at ht⟩
    cases h with
    | both => exact .both _
    | lineFeed => exact .lineFeed _
    | carriageReturn hr => exact .carriageReturn hr

/-- A text is a line, or a line, a line break and another text. -/
theorem lineInduction {P : Text → Prop} (line : ∀ l, IsLine l → P l)
    (step : ∀ l b r, IsLine l → IsLineBreak b r → P r → P (l ++ (b ++ r))) (s : Text) : P s := by
  suffices h : ∀ l, IsLine l → P (l ++ s) from h [] (List.forall_mem_nil _)
  fun_induction Text.lines s with
  | case1 => simpa using line
  | case2 r ih =>
    exact fun l hl => step l ['\r', '\n'] r hl (.both r) (ih [] (List.forall_mem_nil _))
  | case3 r hr ih =>
    refine fun l hl => step l ['\r'] r hl (.carriageReturn fun h => ?_)
      (ih [] (List.forall_mem_nil _))
    obtain ⟨t, rfl⟩ := List.head?_eq_some_iff.1 h
    exact hr t rfl
  | case4 r ih =>
    exact fun l hl => step l ['\n'] r hl (.lineFeed r) (ih [] (List.forall_mem_nil _))
  | case5 c r hboth hcr hlf hnil => exact absurd hnil (Text.lines_ne_nil r)
  | case6 c r hboth hcr hlf m ms hr ih =>
    intro l hl
    have hc : endsLine c = false := by
      simp only [endsLine, Bool.or_eq_false_iff, beq_eq_false_iff_ne]
      exact ⟨hlf, hcr⟩
    have hrest := ih (l ++ [c]) (isLine_append hl (isLine_cons.2 ⟨hc, List.forall_mem_nil _⟩))
    rwa [List.append_assoc] at hrest

/-! ## Lines with their offsets -/

/-- The lines of a text together with the offsets at which they start, the first one at
`offset`. -/
def Text.placeLines (offset : Nat) : Text → List (Nat × Text)
  | [] => [(offset, [])]
  | '\r' :: '\n' :: r => (offset, []) :: Text.placeLines (offset + 2) r
  | '\r' :: r => (offset, []) :: Text.placeLines (offset + 1) r
  | '\n' :: r => (offset, []) :: Text.placeLines (offset + 1) r
  | c :: r =>
    match Text.placeLines (offset + 1) r with
    | [] => [(offset, [c])]
    | (_, l) :: ls => (offset, c :: l) :: ls

theorem map_snd_placeLines (o : Nat) (s : Text) :
    (Text.placeLines o s).map Prod.snd = Text.lines s := by
  fun_induction Text.placeLines o s with
  | case1 => rfl
  | case2 o r ih => rw [List.map_cons, ih, Text.lines]
  | case3 o r hr ih =>
    rw [List.map_cons, ih, Text.lines]
    exact hr
  | case4 o r ih => rw [List.map_cons, ih, Text.lines]
  | case5 o c r hboth hcr hlf hr ih =>
    rw [hr] at ih
    exact absurd ih.symm (Text.lines_ne_nil r)
  | case6 o c r hboth hcr hlf n m ms hr ih =>
    rw [Text.lines, ← ih, hr]
    · rfl
    · exact hboth
    · exact hcr
    · exact hlf

/-- The first line starts with the text. -/
theorem exists_placeLines (o : Nat) (s : Text) :
    ∃ m ms, Text.placeLines o s = (o, m) :: ms := by
  unfold Text.placeLines
  split
  any_goals exact ⟨_, _, rfl⟩
  split <;> exact ⟨_, _, rfl⟩

theorem placeLines_cons {c : Char} (hc : endsLine c = false) {s m : Text} {o n : Nat}
    {ms : List (Nat × Text)} (h : Text.placeLines (o + 1) s = (n, m) :: ms) :
    Text.placeLines o (c :: s) = (o, c :: m) :: ms := by
  obtain ⟨hcr, hlf⟩ := ne_break_of_endsLine hc
  rw [Text.placeLines, h]
  · exact fun _ h _ => hcr h
  · exact hcr
  · exact hlf

/-- A line in front of a text joins its first line. -/
theorem placeLines_append {l : Text} (hl : IsLine l) {s m : Text} {o n : Nat}
    {ms : List (Nat × Text)} (h : Text.placeLines (o + l.length) s = (n, m) :: ms) :
    Text.placeLines o (l ++ s) = (o, l ++ m) :: ms := by
  induction l generalizing o with
  | nil =>
    obtain ⟨k, ks, hk⟩ := exists_placeLines o s
    rw [List.length_nil, Nat.add_zero, hk] at h
    rw [List.nil_append, hk]
    simp_all
  | cons c l ih =>
    obtain ⟨hc, hl⟩ := isLine_cons.1 hl
    rw [List.length_cons, Nat.add_comm l.length, ← Nat.add_assoc] at h
    exact placeLines_cons hc (ih hl h)

theorem placeLines_of_isLine {l : Text} (hl : IsLine l) (o : Nat) :
    Text.placeLines o l = [(o, l)] := by
  have h := placeLines_append hl (s := []) (o := o) rfl
  simpa using h

/-- The first line of a text is followed by the lines after its line break. -/
theorem placeLines_break {l b r : Text} (hl : IsLine l) (hb : IsLineBreak b r) (o : Nat) :
    Text.placeLines o (l ++ (b ++ r)) =
      (o, l) :: Text.placeLines (o + l.length + b.length) r := by
  have hbreak : ∀ o, Text.placeLines o (b ++ r) = (o, []) :: Text.placeLines (o + b.length) r := by
    intro o
    cases hb with
    | both => rfl
    | lineFeed => rfl
    | carriageReturn hr =>
      change Text.placeLines o ('\r' :: r) = _
      rw [Text.placeLines]
      · rfl
      · rintro t rfl
        exact hr rfl
  rw [placeLines_append hl (hbreak _), List.append_nil]

theorem lines_of_isLine {l : Text} (hl : IsLine l) : Text.lines l = [l] := by
  rw [← map_snd_placeLines 0, placeLines_of_isLine hl]
  rfl

theorem lines_break {l b r : Text} (hl : IsLine l) (hb : IsLineBreak b r) :
    Text.lines (l ++ (b ++ r)) = l :: Text.lines r := by
  rw [← map_snd_placeLines 0, placeLines_break hl hb, List.map_cons, map_snd_placeLines]

/-! ## Moving a position -/

@[simp] theorem Text.units_append (s t : Text) :
    Text.units (s ++ t) = Text.units s + Text.units t := by
  induction s with
  | nil => simp [Text.units]
  | cons c s ih => simp [Text.units, ih, Nat.add_assoc]

namespace Position

theorem after_of_isLine {l : Text} (hl : IsLine l) (p : Position) :
    p.after l = ⟨p.line, p.column + Text.units l⟩ := by
  rw [after, lines_of_isLine hl]

/-- A line break leads to the start of the next line. -/
theorem after_break {l b r : Text} (hl : IsLine l) (hb : IsLineBreak b r) (p : Position) :
    p.after (l ++ (b ++ r)) = (⟨p.line + 1, 0⟩ : Position).after r := by
  obtain ⟨m, ms, hr⟩ := List.exists_cons_of_ne_nil (Text.lines_ne_nil r)
  rw [after, after, lines_break hl hb, hr]
  cases ms with
  | nil => simp
  | cons k ks => simp [List.getLastD]; omega

/-- The offset of a position is where the text before it leads to. -/
theorem ofOffset_append (s t : Text) : ofOffset (s ++ t) s.length = zero.after s := by
  rw [ofOffset, Text.before_natCast, List.take_left]

theorem endOf_eq (s : Text) : endOf s = zero.after s := by
  have h := ofOffset_append s []
  rwa [List.append_nil] at h

/-- The line of a position : `l` comes before the position in it, and `m` is the first line of the
text after. -/
theorem exists_line_after {s t : Text} (h : ¬Splits s t) (o n : Nat) :
    ∃ k start l m, (⟨n, 0⟩ : Position).after s = ⟨n + k, Text.units l⟩ ∧
      (Text.placeLines o (s ++ t))[k]? = some (start, l ++ m) ∧
      start + l.length = o + s.length ∧ (Text.lines t).head? = some m := by
  induction s using lineInduction generalizing o n with
  | line l hl =>
    obtain ⟨m, ms, ht⟩ := exists_placeLines (o + l.length) t
    refine ⟨0, o, l, m, ?_, ?_, rfl, ?_⟩
    · rw [after_of_isLine hl, Nat.zero_add, Nat.add_zero]
    · rw [placeLines_append hl ht]
      rfl
    · rw [← map_snd_placeLines (o + l.length), ht]
      rfl
  | step l b r hl hb ih =>
    obtain ⟨hbreak, hr⟩ := hb.append h
    obtain ⟨k, start, l', m, hafter, hline, hstart, hm⟩ :=
      ih hr (o + l.length + b.length) (n + 1)
    refine ⟨k + 1, start, l', m, ?_, ?_, ?_, hm⟩
    · rw [after_break hl hb, hafter, Nat.add_assoc, Nat.add_comm 1]
    · rw [List.append_assoc, List.append_assoc, placeLines_break hl hbreak,
        List.getElem?_cons_succ, hline]
    · simp only [List.length_append]
      omega

end Position

/-! ## Finding a position -/

/-- How many characters of a line come before a column; a column inside a character counts as the
start of that one. -/
def Text.charsWithin (column : Nat) : Text → Nat
  | [] => 0
  | c :: l =>
    if charUnits c ≤ column then Text.charsWithin (column - charUnits c) l + 1 else 0

/-- The offset that an editor finds for a position : it looks for the line first, then goes along
that line. -/
def Text.offsetOf (s : Text) (p : Position) : Nat :=
  match (Text.placeLines 0 s)[p.line]? with
  | none => s.length
  | some (start, l) => start + Text.charsWithin p.column l

theorem charsWithin_append (l m : Text) :
    Text.charsWithin (Text.units l) (l ++ m) = l.length := by
  induction l with
  | nil =>
    cases m with
    | nil => rfl
    | cons c m =>
      have hpos : ¬charUnits c ≤ 0 := by
        unfold charUnits
        split <;> decide
      exact if_neg hpos
  | cons c l ih =>
    rw [List.cons_append, Text.charsWithin, Text.units, if_pos (Nat.le_add_right _ _),
      Nat.add_sub_cancel_left, ih]
    rfl

/-- The offset of a position that parts no line break is found again. -/
theorem offsetOf_after {s t : Text} (h : ¬Splits s t) :
    Text.offsetOf (s ++ t) (Position.zero.after s) = s.length := by
  obtain ⟨k, start, l, m, hafter, hline, hstart, -⟩ := Position.exists_line_after h 0 0
  rw [Position.zero, hafter, Text.offsetOf, Nat.zero_add, hline]
  dsimp only
  rw [charsWithin_append, hstart, Nat.zero_add]

end SqlSnippet
