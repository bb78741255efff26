import SqlSnippet.Text.Blank

/-!
# Regions

Reading SQL text from left to right, each stretch of it is code, a string, a line comment or a
block comment. `scan` cuts a text into these regions; nothing is skipped, so the texts of the
regions put together are the text that was scanned (`flatten_scan`), and no region is empty
(`text_ne_nil_of_mem_scan`).

A region starts where the one before it ends. A string ends at its closing quote, where a doubled
quote stands for a quote inside it; a block comment ends at the first closing mark after its
opening mark; a line comment ends before the line break. Strings and block comments that are not
closed run to the end of the text and are marked as unterminated. Code ends where another kind of
region opens.
-/

namespace SqlSnippet

/-- What a stretch of SQL text is. -/
inductive RegionKind where
  | code
  | string
  | lineComment
  | blockComment
  deriving DecidableEq, Repr

/-- Whether text of this kind is copied as it is and never read for words. -/
def RegionKind.isProtected : RegionKind → Bool
  | .code => false
  | _ => true

/-- A stretch of text of one kind. -/
structure Region where
  kind : RegionKind
  text : Text
  terminated : Bool
  deriving DecidableEq, Repr

/-- Whether the region is copied as it is and never read for words. -/
def Region.isProtected (r : Region) : Bool :=
  r.kind.isProtected

/-! ## Cutting one region off -/

/-- A text cut in two: what a reader took, what is left, and whether the reader found the mark
that closes what it reads. -/
structure Cut where
  taken : Text
  rest : Text
  closed : Bool

/-- Take the characters of `s` as well, in front of those taken. -/
def Cut.push (s : Text) (cut : Cut) : Cut :=
  { cut with taken := s ++ cut.taken }

/-- The kind of the region that a text starts with. -/
def openingKind : Text → RegionKind
  | '/' :: '*' :: _ => .blockComment
  | '-' :: '-' :: _ => .lineComment
  | '\'' :: _ => .string
  | _ => .code

/-- Read to the end of a block comment, after its opening mark. -/
def cutBlockComment : Text → Cut
  | [] => ⟨[], [], false⟩
  | '*' :: '/' :: r => ⟨['*', '/'], r, true⟩
  | c :: r => (cutBlockComment r).push [c]

/-- Read to the end of a string, after its opening quote. -/
def cutString : Text → Cut
  | [] => ⟨[], [], false⟩
  | '\'' :: '\'' :: r => (cutString r).push ['\'', '\'']
  | '\'' :: r => ⟨['\''], r, true⟩
  | c :: r => (cutString r).push [c]

/-- Whether a character ends a line comment. -/
def endsLine (c : Char) : Bool :=
  c == '\n' || c == '\r'

/-- Read to the end of a line. -/
def cutLine (s : Text) : Cut :=
  ⟨s.takeWhile (!endsLine ·), s.dropWhile (!endsLine ·), true⟩

/-- Read code to the place where another kind of region opens. -/
def cutCode : Text → Cut
  | [] => ⟨[], [], true⟩
  | c :: r => if openingKind (c :: r) = .code then (cutCode r).push [c] else ⟨[], c :: r, true⟩

/-- Cut off the region that a text starts with. -/
def cutRegion (s : Text) : Cut :=
  match openingKind s with
  | .blockComment => (cutBlockComment (s.drop 2)).push (s.take 2)
  | .lineComment => (cutLine (s.drop 2)).push (s.take 2)
  | .string => (cutString (s.drop 1)).push (s.take 1)
  | .code => cutCode s

@[simp] theorem Cut.taken_push (s : Text) (cut : Cut) : (cut.push s).taken = s ++ cut.taken := rfl
@[simp] theorem Cut.rest_push (s : Text) (cut : Cut) : (cut.push s).rest = cut.rest := rfl
@[simp] theorem Cut.closed_push (s : Text) (cut : Cut) : (cut.push s).closed = cut.closed := rfl

theorem taken_append_rest_cutBlockComment (s : Text) :
    (cutBlockComment s).taken ++ (cutBlockComment s).rest = s := by
  fun_induction cutBlockComment s <;> simp_all

theorem taken_append_rest_cutString (s : Text) :
    (cutString s).taken ++ (cutString s).rest = s := by
  fun_induction cutString s <;> simp_all

theorem taken_append_rest_cutLine (s : Text) : (cutLine s).taken ++ (cutLine s).rest = s :=
  List.takeWhile_append_dropWhile

theorem taken_append_rest_cutCode (s : Text) : (cutCode s).taken ++ (cutCode s).rest = s := by
  fun_induction cutCode s <;> simp_all

/-- Cutting a region off loses nothing. -/
theorem taken_append_rest_cutRegion (s : Text) : (cutRegion s).taken ++ (cutRegion s).rest = s := by
  unfold cutRegion
  split
  · simp [List.append_assoc, taken_append_rest_cutBlockComment]
  · simp [List.append_assoc, taken_append_rest_cutLine]
  · simp only [Cut.taken_push, Cut.rest_push, List.append_assoc, taken_append_rest_cutString,
      List.take_append_drop]
  · exact taken_append_rest_cutCode s

/-- The region cut off a text that is not empty is not empty. -/
theorem taken_cutRegion_ne_nil {s : Text} (h : s ≠ []) : (cutRegion s).taken ≠ [] := by
  obtain ⟨c, r, rfl⟩ := List.exists_cons_of_ne_nil h
  unfold cutRegion
  split <;> rename_i hk
  · simp
  · simp
  · simp
  · simp [cutCode, hk]

theorem length_rest_cutRegion_lt {s : Text} (h : s ≠ []) :
    (cutRegion s).rest.length < s.length := by
  have h₁ := congrArg List.length (taken_append_rest_cutRegion s)
  have h₂ := List.length_pos_iff.2 (taken_cutRegion_ne_nil h)
  simp only [List.length_append] at h₁
  omega

/-! ## Scanning -/

/-- The regions of a text, from left to right. -/
def scan (s : Text) : List Region :=
  if _h : s = [] then []
  else ⟨openingKind s, (cutRegion s).taken, (cutRegion s).closed⟩ :: scan (cutRegion s).rest
termination_by s.length
decreasing_by exact length_rest_cutRegion_lt _h

/-- The text that a list of regions covers. -/
def Region.flatten (rs : List Region) : Text :=
  rs.flatMap Region.text

@[simp] theorem scan_nil : scan [] = [] := by
  rw [scan]; simp

theorem scan_of_ne_nil {s : Text} (h : s ≠ []) :
    scan s = ⟨openingKind s, (cutRegion s).taken, (cutRegion s).closed⟩ ::
      scan (cutRegion s).rest := by
  rw [scan]; simp [h]

/-- Scanning loses nothing: the regions cover the text. -/
theorem flatten_scan (s : Text) : Region.flatten (scan s) = s := by
  fun_induction scan s with
  | case1 => rfl
  | case2 s h ih =>
    simp only [Region.flatten, List.flatMap_cons] at ih ⊢
    rw [ih, taken_append_rest_cutRegion]

theorem text_ne_nil_of_mem_scan {s : Text} {r : Region} (h : r ∈ scan s) : r.text ≠ [] := by
  fun_induction scan s with
  | case1 => simp at h
  | case2 s hs ih =>
    rcases List.mem_cons.1 h with rfl | h
    · exact taken_cutRegion_ne_nil hs
    · exact ih h

/-! ## Places -/

/-- The regions together with the offsets at which they start, the first one at `offset`. -/
def Region.place (offset : Nat) : List Region → List (Nat × Region)
  | [] => []
  | r :: rs => (offset, r) :: Region.place (offset + r.text.length) rs

/-- The regions of a text with their offsets. -/
def scanPlaced (s : Text) : List (Nat × Region) :=
  Region.place 0 (scan s)

/-- The strings and block comments that run to the end of the text unclosed. -/
def unterminated (s : Text) : List (Nat × Region) :=
  (scanPlaced s).filter (!·.2.terminated)

end SqlSnippet
