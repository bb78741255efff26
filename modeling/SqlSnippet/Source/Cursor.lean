import SqlSnippet.Source.Position
import SqlSnippet.Source.Token
import SqlSnippet.Text.Parts

/-!
# A cursor over a source

A cursor stands at a place of a source text that a caller may move it to, within the text or not,
and answers which character is there. Scanning and classifying move the cursor itself: they put it
at the start of the text, read one region after another from where it stands and leave it at the
end. The tokens that were found last stay with it. While it classifies, it also holds back the plain
text read since the last token, until the next token of a category or the end of the text.
-/

namespace SqlSnippet

/-! ## Places of a text -/

/-- The place of the first `mark`, which is not empty, at an offset or after it. -/
def Text.find? (mark s : Text) (offset : Int) : Option Nat :=
  let start := Text.bound s offset
  (Text.cut? mark (s.drop start)).map fun (before, _) => start + before.length

/-- Whether `mark` stands at an offset. -/
def Text.standsAt (mark s : Text) (offset : Int) : Bool :=
  mark.isPrefixOf (s.drop (Text.bound s offset))

/-- The part of a text between two offsets. -/
def Text.slice (s : Text) (start stop : Int) : Text :=
  (Text.before s stop).drop (Text.bound s start)

theorem Text.le_bound_or (s : Text) (offset : Int) :
    offset ≤ Text.bound s offset ∨ Text.bound s offset = s.length := by
  unfold Text.bound
  split <;> omega

theorem Text.lt_of_find? {mark s : Text} {offset : Int} {p : Nat} (hmark : mark ≠ [])
    (h : Text.find? mark s offset = some p) : offset ≤ p ∧ p < s.length := by
  obtain ⟨⟨before, rest⟩, hcut, hp⟩ := Option.map_eq_some_iff.1 h
  have hlength := congrArg List.length (Text.append_of_cut? hcut)
  have hrest := (Text.prefix_of_cut? hcut).length_le
  have hpos := List.length_pos_iff.2 hmark
  have hbound := Text.le_bound_or s offset
  rw [List.length_append, List.length_drop] at hlength
  dsimp only at hp
  omega

theorem Text.le_of_standsAt {mark s : Text} {p : Nat} (h : Text.standsAt mark s p = true)
    (hp : p ≤ s.length) : p + mark.length ≤ s.length := by
  have hle := (List.isPrefixOf_iff_prefix.1 h).length_le
  rw [Text.bound_of_le hp, List.length_drop] at hle
  omega

/-! ## The cursor -/

/-- A source text, the words to classify it by, a place in it, the tokens found last and the plain
texts held back since. -/
structure Cursor where
  source : Text
  vocabulary : Vocabulary
  place : Int
  tokens : List Token
  held : List Text

/-- A cursor at the start of a source. -/
def Cursor.ofSource (v : Vocabulary) (s : Text) : Cursor :=
  ⟨s, v, 0, [], []⟩

/-- What is found at a place of a text. -/
inductive Glimpse where
  | character (c : Char)
  | pastEnd
  | beforeStart
  | beyondIndex
  deriving DecidableEq, Repr

/-- The character at a distance from the cursor. A place with a negative number counts from the
end of the source; one that a signed 64-bit index cannot hold is not looked up. -/
def Cursor.peek (k : Cursor) (distance : Int) : Glimpse :=
  let place := k.place + distance
  let index := if place < 0 then place + k.source.length else place
  if place < -(Nat.pow 2 63) then .beyondIndex
  else if index < 0 then .beforeStart
  else match k.source[index.toNat]? with
    | some c => .character c
    | none => .pastEnd

/-- Put the cursor at a place. -/
def Cursor.seek (k : Cursor) (place : Int) : Cursor :=
  { k with place }

/-- Move the cursor by a distance. -/
def Cursor.move (k : Cursor) (distance : Int) : Cursor :=
  k.seek (k.place + distance)

section Seek

variable (k : Cursor) (p : Int)

@[simp] theorem Cursor.place_seek : (k.seek p).place = p := rfl
@[simp] theorem Cursor.source_seek : (k.seek p).source = k.source := rfl
@[simp] theorem Cursor.seek_place : k.seek k.place = k := rfl

end Seek

/-- Where there is a character, the cursor stands before the end. -/
theorem Cursor.place_lt_of_peek {k : Cursor} {c : Char} (h : k.peek 0 = .character c) :
    k.place < k.source.length := by
  unfold Cursor.peek at h
  dsimp only at h
  split at h
  · cases h
  · by_cases hneg : k.place + 0 < 0
    · omega
    · rw [if_neg hneg, if_neg hneg] at h
      cases hc : k.source[(k.place + 0).toNat]? with
      | none =>
        rw [hc] at h
        cases h
      | some d =>
        have hlt := (List.getElem?_eq_some_iff.1 hc).1
        omega

/-! ## Reading one region -/

/-- The kind of the region that opens at the place. -/
def Cursor.opening (k : Cursor) : RegionKind :=
  if k.peek 0 = .character '/' ∧ k.peek 1 = .character '*' then .blockComment
  else if k.peek 0 = .character '-' ∧ k.peek 1 = .character '-' then .lineComment
  else if k.peek 0 = .character '\'' then .string
  else .code

/-- Move behind the block comment that opens at the place. With each move over a region comes
whether that is closed. -/
def Cursor.passBlockComment (k : Cursor) : Bool × Cursor :=
  match Text.find? ['*', '/'] k.source (k.place + 2) with
  | none => (false, k.seek k.source.length)
  | some mark => (true, k.seek (mark + 2))

/-- Move to the end of the line. -/
def Cursor.passLine (k : Cursor) : Cursor :=
  match _h : k.peek 0 with
  | .character c => if endsLine c then k else (k.move 1).passLine
  | _ => k
termination_by (k.source.length - k.place).toNat
decreasing_by
  have := Cursor.place_lt_of_peek _h
  change ((k.source.length : Int) - (k.place + 1)).toNat < _
  omega

/-- Move behind the string that the place is in. -/
def Cursor.passString (k : Cursor) : Bool × Cursor :=
  match _h : Text.find? ['\''] k.source k.place with
  | none => (false, k.seek k.source.length)
  | some quote =>
    if Text.standsAt ['\'', '\''] k.source quote then (k.seek (quote + 2)).passString
    else (true, k.seek (quote + 1))
termination_by (k.source.length - k.place).toNat
decreasing_by
  have := Text.lt_of_find? (List.cons_ne_nil _ _) _h
  change ((k.source.length : Int) - (quote + 2)).toNat < _
  omega

/-- Move over what opens at the place: one character of code or the whole of another region. -/
def Cursor.pass (k : Cursor) : RegionKind → Bool × Cursor
  | .code => (true, k.move 1)
  | .string => (k.move 1).passString
  | .lineComment => (true, (k.move 2).passLine)
  | .blockComment => k.passBlockComment

theorem Cursor.exists_passLine (k : Cursor) : ∃ p, k.passLine = k.seek p ∧ k.place ≤ p := by
  fun_induction Cursor.passLine k with
  | case1 k c h hc => exact ⟨k.place, rfl, Int.le_refl _⟩
  | case2 k c h hc ih =>
    obtain ⟨p, hp, hle⟩ := ih
    exact ⟨p, hp, Int.le_trans (Int.le_add_one (Int.le_refl _)) hle⟩
  | case3 k h => exact ⟨k.place, rfl, Int.le_refl _⟩

theorem Cursor.exists_passString (k : Cursor) (hk : k.place ≤ k.source.length) :
    ∃ p, k.passString.2 = k.seek p ∧ k.place ≤ p := by
  fun_induction Cursor.passString k with
  | case1 k h => exact ⟨_, rfl, hk⟩
  | case2 k quote h hquote ih =>
    obtain ⟨hle, hlt⟩ := Text.lt_of_find? (List.cons_ne_nil _ _) h
    obtain ⟨p, hp, hlast⟩ := ih (Int.ofNat_le.2 (Text.le_of_standsAt hquote (Nat.le_of_lt hlt)))
    exact ⟨p, hp, by rw [Cursor.place_seek] at hlast; omega⟩
  | case3 k quote h hquote =>
    have hle := (Text.lt_of_find? (List.cons_ne_nil _ _) h).1
    exact ⟨_, rfl, by omega⟩

/-- A move over a region changes nothing but the place, and that to one further on. -/
theorem Cursor.exists_pass {k : Cursor} (hk : k.place < k.source.length) (kind : RegionKind) :
    ∃ p, (k.pass kind).2 = k.seek p ∧ k.place < p := by
  cases kind with
  | code => exact ⟨_, rfl, Int.lt_succ _⟩
  | string =>
    obtain ⟨p, hp, hle⟩ := (k.move 1).exists_passString hk
    exact ⟨p, hp, hle⟩
  | lineComment =>
    obtain ⟨p, hp, hle⟩ := (k.move 2).exists_passLine
    exact ⟨p, hp, Int.lt_of_lt_of_le (by rw [Cursor.move, Cursor.place_seek]; omega) hle⟩
  | blockComment =>
    change ∃ p, k.passBlockComment.2 = k.seek p ∧ k.place < p
    unfold Cursor.passBlockComment
    split
    · exact ⟨_, rfl, hk⟩
    · next mark h =>
      have hle := (Text.lt_of_find? (List.cons_ne_nil _ _) h).1
      exact ⟨_, rfl, by omega⟩

/-! ## Scanning -/

/-- A stretch of the source of one kind, by its offsets. -/
structure Span where
  kind : RegionKind
  start : Int
  stop : Int
  terminated : Bool
  deriving DecidableEq, Repr

/-- The span of code between two offsets, unless it is empty. -/
def Span.ofCode (start stop : Int) : List Span :=
  if start < stop then [⟨.code, start, stop, true⟩] else []

/-- The region that a span of a source is. -/
def Span.region (s : Text) (p : Span) : Region :=
  ⟨p.kind, Text.slice s p.start p.stop, p.terminated⟩

/-- The spans from the place on, where the code before the place starts at `start`. -/
def Cursor.spansFrom (k : Cursor) (start : Int) : List Span × Cursor :=
  if _h : k.place < k.source.length then
    let kind := k.opening
    let next := (k.pass kind).2
    if kind = .code then next.spansFrom start
    else
      let (spans, last) := next.spansFrom next.place
      (Span.ofCode start k.place ++ ⟨kind, k.place, next.place, (k.pass kind).1⟩ :: spans, last)
  else (Span.ofCode start k.source.length, k)
termination_by (k.source.length - k.place).toNat
decreasing_by
  all_goals
    obtain ⟨p, hp, hlt⟩ := Cursor.exists_pass _h k.opening
    have hless : ((k.pass k.opening).2.source.length - (k.pass k.opening).2.place).toNat <
        (k.source.length - k.place).toNat := by
      rw [hp, Cursor.source_seek, Cursor.place_seek]
      omega
    exact hless

/-- The spans of the source; the cursor moves to its end. -/
def Cursor.spans (k : Cursor) : List Span × Cursor :=
  (k.seek 0).spansFrom 0

/-- The regions of the source; the cursor moves to its end. -/
def Cursor.scan (k : Cursor) : List Region × Cursor :=
  let (spans, last) := k.spans
  (spans.map (Span.region k.source), last)

/-! ## Classifying -/

/-- The category of the text of a region, unless it is code. -/
def RegionKind.category : RegionKind → Option Category
  | .code => none
  | .string => some .string
  | .lineComment => some .comment
  | .blockComment => some .comment

/-- Make one token of the plain texts held back. -/
def Cursor.flush (k : Cursor) : Cursor :=
  if k.held.isEmpty then k
  else { k with tokens := k.tokens ++ [⟨k.held.flatten, none⟩], held := [] }

/-- Add a token, or hold its text back if it is plain. Empty text adds nothing. -/
def Cursor.emit (k : Cursor) (text : Text) (category : Option Category) : Cursor :=
  if text.isEmpty then k
  else match category with
    | none => { k with held := k.held ++ [text] }
    | some _ =>
      let flushed := k.flush
      { flushed with tokens := flushed.tokens ++ [⟨text, category⟩] }

/-- Add the tokens of code, of which `gap` has been read since the last of them. -/
def Cursor.emitCode (k : Cursor) (gap s : Text) : Cursor :=
  match s with
  | [] => k.emit gap none
  | c :: r =>
    if isIdentChar c then
      let word := c :: r.takeWhile isIdentChar
      let rest := r.dropWhile isIdentChar
      match wordCategory k.vocabulary word rest with
      | none => k.emitCode (gap ++ word) rest
      | some category => ((k.emit gap none).emit word (some category)).emitCode [] rest
    else k.emitCode (gap ++ [c]) r
termination_by s.length
decreasing_by
  · exact Nat.lt_succ_of_le (List.dropWhile_suffix _).length_le
  · exact Nat.lt_succ_of_le (List.dropWhile_suffix _).length_le
  · exact Nat.lt_succ_self _

/-- Add the tokens of a region. -/
def Cursor.emitRegion (k : Cursor) (r : Region) : Cursor :=
  match r.kind.category with
  | none => k.emitCode [] r.text
  | some category => k.emit r.text (some category)

/-- The tokens of the source; the cursor moves to its end and keeps them. -/
def Cursor.tokenize (k : Cursor) : List Token × Cursor :=
  let (regions, last) := { k with tokens := [], held := [] }.scan
  let done := (regions.foldl Cursor.emitRegion last).flush
  (done.tokens, done)

end SqlSnippet
