import Mathlib.Data.List.TakeWhile
import SqlSnippet.Proofs.CaseBlank
import SqlSnippet.Proofs.Outline
import SqlSnippet.Proofs.TokenCover

/-!
# Tokens of an outline

The tokens of a text can be read off its outline, but for the white space in plain text
(`squeeze_classify_eq`). A word goes on while identifier characters follow without white space,
so `wordUnits` goes through an outline with the word so far. White space counts between two
identifier characters only, and layout leaves it alone there (`wordUnits_settled`).

Plain text is compared character by character (`Token.units`). That loses nothing : plain tokens
are no neighbours, so they can be put together again (`squeeze_classify`).
-/

namespace SqlSnippet

variable {v : Vocabulary}

/-! ## Plain text without white space -/

/-- The token without the white space in plain text; nothing is left of a plain token of white
space. -/
def Token.squeeze (t : Token) : List Token :=
  if t.isPlain then
    let s := t.text.filter (!isBlank ·)
    if s.isEmpty then [] else [⟨s, none⟩]
  else [t]

/-- The tokens without the white space in plain text. -/
def squeeze (ts : List Token) : List Token :=
  ts.flatMap Token.squeeze

/-- The token itself, or the characters of plain text that are not white space. -/
def Token.units (t : Token) : List Token :=
  if t.isPlain then (t.text.filter (!isBlank ·)).map fun c => ⟨[c], none⟩ else [t]

theorem units_of_isPlain {t : Token} (h : t.isPlain = true) :
    t.units = (t.text.filter (!isBlank ·)).map fun c => ⟨[c], none⟩ :=
  if_pos h

theorem units_of_not_isPlain {t : Token} (h : ¬t.isPlain = true) : t.units = [t] :=
  if_neg h

theorem units_append {t u : Token} (ht : t.isPlain = true) (hu : u.isPlain = true) :
    Token.units ⟨t.text ++ u.text, none⟩ = t.units ++ u.units := by
  rw [units_of_isPlain ht, units_of_isPlain hu, units_of_isPlain rfl, List.filter_append,
    List.map_append]

theorem flatMap_units_join (t : Token) (ts : List Token) :
    (t.join ts).flatMap Token.units = t.units ++ ts.flatMap Token.units := by
  cases ts with
  | nil => rfl
  | cons u us =>
    rw [Token.join]
    split
    · next h =>
      rw [Bool.and_eq_true] at h
      rw [List.flatMap_cons, List.flatMap_cons, units_append h.1 h.2, List.append_assoc]
    · rfl

/-- Joining plain text keeps its characters. -/
theorem flatMap_units_joinPlain (ts : List Token) :
    (joinPlain ts).flatMap Token.units = ts.flatMap Token.units := by
  induction ts with
  | nil => rfl
  | cons t ts ih =>
    rw [joinPlain, List.foldr_cons, flatMap_units_join, List.flatMap_cons]
    exact congrArg (t.units ++ ·) ih

/-- Characters of plain text are joined to one token before a token that is not plain. -/
theorem joinPlain_map_append (s : Text) {ts : List Token}
    (hts : ∀ t ∈ (joinPlain ts).head?, ¬t.isPlain = true) :
    joinPlain ((s.map fun c => ⟨[c], none⟩) ++ ts) =
      (if s.isEmpty then [] else [⟨s, none⟩]) ++ joinPlain ts := by
  induction s with
  | nil => rfl
  | cons c s ih =>
    have hjoin : joinPlain (((c :: s).map fun c => ⟨[c], none⟩) ++ ts) =
        Token.join ⟨[c], none⟩ (joinPlain ((s.map fun c => ⟨[c], none⟩) ++ ts)) := rfl
    rw [hjoin, ih]
    cases s with
    | cons d s => rfl
    | nil =>
      cases hrest : joinPlain ts with
      | nil => rfl
      | cons u us =>
        have hu := hts u (by rw [hrest]; rfl)
        change Token.join ⟨[c], none⟩ (u :: us) = _
        rw [Token.join, if_neg fun h => hu (Bool.and_eq_true_iff.1 h).2]
        rfl

theorem Token.join_of_not_isPlain {t : Token} (ht : ¬t.isPlain = true) (ts : List Token) :
    t.join ts = t :: ts := by
  cases ts with
  | nil => rfl
  | cons u us => exact if_neg fun h => ht (Bool.and_eq_true_iff.1 h).1

/-- Where plain tokens are no neighbours, nothing is lost by taking them apart. -/
theorem squeeze_eq_joinPlain {ts : List Token}
    (h : ts.IsChain fun t u => ¬(t.isPlain = true ∧ u.isPlain = true)) :
    squeeze ts = joinPlain (ts.flatMap Token.units) := by
  induction ts with
  | nil => rfl
  | cons t ts ih =>
    rw [List.isChain_cons] at h
    obtain ⟨hnext, hts⟩ := h
    rw [squeeze, List.flatMap_cons, List.flatMap_cons]
    by_cases ht : t.isPlain = true
    · rw [units_of_isPlain ht, joinPlain_map_append, ← ih hts, Token.squeeze, if_pos ht]
      · rfl
      · rw [← ih hts]
        intro u hu
        cases ts with
        | nil => cases hu
        | cons w ws =>
          have hw : ¬w.isPlain = true := fun hw => hnext w rfl ⟨ht, hw⟩
          rw [squeeze, List.flatMap_cons, Token.squeeze, if_neg hw] at hu
          obtain rfl := Option.some.inj hu
          exact hw
    · rw [units_of_not_isPlain ht, Token.squeeze, if_neg ht]
      change t :: squeeze ts = Token.join t (joinPlain (ts.flatMap Token.units))
      rw [Token.join_of_not_isPlain ht, ih hts]

/-- The tokens of a text without the white space in plain text are known from their units. -/
theorem squeeze_classify (v : Vocabulary) (s : Text) : squeeze (classify v s) =
    joinPlain (((scan s).flatMap (Region.tokens v)).flatMap Token.units) := by
  rw [classify, squeeze_eq_joinPlain (isChain_joinPlain _), flatMap_units_joinPlain]

/-! ## Words of an outline -/

/-- The units of a word, before the code `next`; there may be no word. -/
def wordToken (v : Vocabulary) (word next : Text) : List Token :=
  if word.isEmpty then [] else Token.units ⟨word, wordCategory v word next⟩

/-- The units of an outline that comes after the characters `word` of a word. -/
def wordUnits (v : Vocabulary) (word : Text) : List Cell → List Token
  | [] => wordToken v word []
  | ⟨_, .literal r⟩ :: cs => wordToken v word [] ++ (r.tokens v ++ wordUnits v [] cs)
  | ⟨spaced, .code c⟩ :: cs =>
    if isIdentChar c then
      if spaced then wordToken v word [c] ++ wordUnits v [c] cs
      else wordUnits v (word ++ [c]) cs
    else wordToken v word [c] ++ ⟨[c], none⟩ :: wordUnits v [] cs

/-- The code that an outline starts with. -/
def nextCode : List Cell → Text
  | ⟨_, .code c⟩ :: _ => [c]
  | _ => []

/-- Whether the cell goes on with a word before it. -/
def Cell.continuesWord : Cell → Bool
  | ⟨spaced, .code c⟩ => !spaced && isIdentChar c
  | ⟨_, .literal _⟩ => false

/-- White space before the first cell ends no word if there is none. -/
theorem wordUnits_nil_cons (g h : Bool) (a : Atom) (cs : List Cell) :
    wordUnits v [] (⟨g, a⟩ :: cs) = wordUnits v [] (⟨h, a⟩ :: cs) := by
  cases a with
  | literal r => rfl
  | code c =>
    unfold wordUnits
    cases g <;> cases h <;> rfl

theorem wordUnits_unspaceFirst (cs : List Cell) :
    wordUnits v [] (unspaceFirst cs) = wordUnits v [] cs := by
  cases cs with
  | nil => rfl
  | cons c cs => exact wordUnits_nil_cons false c.spaced c.atom cs

/-- A word ends before a cell that does not go on with it. -/
theorem wordUnits_of_stop {cs : List Cell} (h : ∀ c ∈ cs.head?, c.continuesWord = false)
    (word : Text) :
    wordUnits v word cs = wordToken v word (nextCode cs) ++ wordUnits v [] cs := by
  cases cs with
  | nil => exact (List.append_nil _).symm
  | cons c cs =>
    obtain ⟨spaced, a⟩ := c
    cases a with
    | literal r => rfl
    | code c =>
      have hstop : (!spaced && isIdentChar c) = false := h _ rfl
      cases hc : isIdentChar c with
      | false => simp [wordUnits, nextCode, hc, wordToken]
      | true =>
        obtain rfl : spaced = true := by simpa [hc] using hstop
        simp [wordUnits, nextCode, hc, wordToken]

/-- Identifier characters go on with a word. -/
theorem wordUnits_run {x : Text} (hx : ∀ c ∈ x, isIdentChar c = true) (word : Text)
    (as : List Atom) :
    wordUnits v word (outlineAfter false (x.map .code ++ as)) =
      wordUnits v (word ++ x) (outlineAfter false as) := by
  induction x generalizing word with
  | nil => rw [List.append_nil]; rfl
  | cons c x ih =>
    obtain ⟨hc, hx⟩ := List.forall_mem_cons.1 hx
    have hblank : (Atom.code c).isBlank = false := not_isBlank_of_isIdentChar hc
    rw [List.map_cons, List.cons_append, outlineAfter_cons hblank, wordUnits, if_pos hc,
      if_neg Bool.false_ne_true, ih hx, List.append_assoc]
    rfl

/-- What follows a word counts as far as an opening bracket goes. -/
theorem wordCategory_congr {rest next : Text} (h : opensCall rest = opensCall next)
    (word : Text) : wordCategory v word rest = wordCategory v word next := by
  unfold wordCategory
  rw [h]

theorem opensCall_nextCode (g : Bool) (x : Text) {as : List Atom}
    (has : ∀ a ∈ as.head?, ∃ r, a = .literal r) :
    opensCall (nextCode (outlineAfter g (x.map .code ++ as))) = opensCall x := by
  induction x generalizing g with
  | nil =>
    cases as with
    | nil => rfl
    | cons a as =>
      obtain ⟨r, rfl⟩ := has a rfl
      rfl
  | cons c x ih =>
    rw [List.map_cons, List.cons_append]
    cases hc : isBlank c with
    | true =>
      have ha : (Atom.code c).isBlank = true := hc
      rw [outlineAfter_cons_of_blank ha, ih, opensCall, opensCall, Text.trimStart, Text.trimStart,
        List.dropWhile_cons_of_pos hc]
    | false =>
      have ha : (Atom.code c).isBlank = false := hc
      have hc := Bool.eq_false_iff.1 hc
      rw [outlineAfter_cons ha, nextCode, opensCall, opensCall, Text.trimStart, Text.trimStart,
        List.dropWhile_cons_of_neg hc, List.dropWhile_cons_of_neg hc]
      rfl

/-- No word goes on after code that does not start with an identifier character. -/
theorem not_continuesWord_outlineAfter {x : Text} (hx : ∀ c ∈ x.head?, isIdentChar c = false)
    {as : List Atom} (has : ∀ a ∈ as.head?, ∃ r, a = .literal r) :
    ∀ c ∈ (outlineAfter false (x.map .code ++ as)).head?, c.continuesWord = false := by
  cases x with
  | nil =>
    cases as with
    | nil => nofun
    | cons a as =>
      obtain ⟨r, rfl⟩ := has a rfl
      rintro c ⟨⟩
      rfl
  | cons c x =>
    rw [List.map_cons, List.cons_append]
    cases hc : (Atom.code c).isBlank with
    | true =>
      rw [outlineAfter_cons_of_blank hc]
      intro e he
      obtain ⟨es, hes⟩ := List.head?_eq_some_iff.1 he
      obtain ⟨spaced, a⟩ := e
      obtain rfl : spaced = true := spaced_of_outlineAfter_true hes
      cases a <;> rfl
    | false =>
      rw [outlineAfter_cons hc]
      rintro e ⟨⟩
      exact hx c rfl

/-- A word of code is a word of its outline, and the rest starts a new one. -/
theorem wordUnits_cons_word {c : Char} (hc : isIdentChar c = true) (g : Bool) (x : Text)
    {as : List Atom} (has : ∀ a ∈ as.head?, ∃ r, a = .literal r) :
    wordUnits v [] (outlineAfter g ((c :: x).map .code ++ as)) =
      Token.units ⟨c :: x.takeWhile isIdentChar,
        wordCategory v (c :: x.takeWhile isIdentChar) (x.dropWhile isIdentChar)⟩ ++
      wordUnits v [] (outlineAfter false ((x.dropWhile isIdentChar).map .code ++ as)) := by
  have ha : (Atom.code c).isBlank = false := not_isBlank_of_isIdentChar hc
  have hrun : ∀ d ∈ x.takeWhile isIdentChar, isIdentChar d = true := fun d hd =>
    List.mem_takeWhile_imp hd
  have hstop : ∀ d ∈ (x.dropWhile isIdentChar).head?, isIdentChar d = false := by
    intro d hd
    have hnot := List.head?_dropWhile_not isIdentChar x
    rw [hd] at hnot
    exact hnot
  have hsplit : x.map Atom.code ++ as = (x.takeWhile isIdentChar).map .code ++
      ((x.dropWhile isIdentChar).map .code ++ as) := by
    rw [← List.append_assoc, ← List.map_append, List.takeWhile_append_dropWhile]
  have hcategory := wordCategory_congr (v := v)
    (opensCall_nextCode false (x.dropWhile isIdentChar) has) (c :: x.takeWhile isIdentChar)
  rw [List.map_cons, List.cons_append, outlineAfter_cons ha, wordUnits_nil_cons g false, wordUnits,
    if_pos hc, if_neg Bool.false_ne_true, hsplit, wordUnits_run hrun,
    wordUnits_of_stop (not_continuesWord_outlineAfter hstop has), ← hcategory]
  rfl

/-- The units of a stretch of code are those of its outline. -/
theorem flatMap_units_codeTokens (g : Bool) (x : Text) {as : List Atom}
    (has : ∀ a ∈ as.head?, ∃ r, a = .literal r) :
    (codeTokens v x).flatMap Token.units ++ wordUnits v [] (outlineAfter false as) =
      wordUnits v [] (outlineAfter g (x.map .code ++ as)) := by
  fun_induction codeTokens v x generalizing g with
  | case1 =>
    cases as with
    | nil => rfl
    | cons a as =>
      obtain ⟨r, rfl⟩ := has a rfl
      exact wordUnits_nil_cons false g _ _
  | case2 c r hc word rest ih =>
    rw [List.flatMap_cons, List.append_assoc, ih false, wordUnits_cons_word hc g r has]
  | case3 c r hc ih =>
    rw [List.flatMap_cons, List.map_cons, List.cons_append, List.append_assoc]
    cases ha : (Atom.code c).isBlank with
    | true =>
      have hunits : Token.units ⟨[c], none⟩ = [] := by
        simp [Token.units, Token.isPlain, show isBlank c = true from ha]
      rw [outlineAfter_cons_of_blank ha, hunits, ih true]
      rfl
    | false =>
      have hunits : Token.units ⟨[c], none⟩ = [⟨[c], none⟩] := by
        simp [Token.units, Token.isPlain, show isBlank c = false from ha]
      rw [outlineAfter_cons ha, hunits, ih false, wordUnits, if_neg hc]
      rfl

/-! ## Texts -/

theorem flatMap_units_tokens (v : Vocabulary) {r : Region} (hr : r.isProtected = true) :
    (r.tokens v).flatMap Token.units = r.tokens v := by
  obtain ⟨kind, text, terminated⟩ := r
  cases kind
  · cases hr
  · rfl
  · rfl
  · rfl

theorem flatMap_units_regions (v : Vocabulary) {rs : List Region} (h : IsReading rs) :
    (rs.flatMap (Region.tokens v)).flatMap Token.units =
      wordUnits v [] (outlineAfter false (rs.flatMap Region.atoms)) := by
  induction rs with
  | nil => rfl
  | cons r rs ih =>
    rw [List.flatMap_cons, List.flatMap_cons, List.flatMap_append, ih h.2.2.2]
    by_cases hp : r.isProtected = true
    · rw [flatMap_units_tokens v hp, Region.atoms, if_pos hp, List.singleton_append,
        outlineAfter_cons rfl]
      rfl
    · have hcode := Region.kind_of_not_isProtected hp
      have hnext : ∀ a ∈ (rs.flatMap Region.atoms).head?, ∃ q, a = .literal q := by
        intro a ha
        cases rs with
        | nil => cases ha
        | cons q qs =>
          have hq : q.isProtected = true := Region.isProtected_iff.2 (h.2.2.1 hcode q rfl)
          rw [List.flatMap_cons, Region.atoms, if_pos hq] at ha
          exact ⟨q, (Option.some.inj ha).symm⟩
      have htokens : r.tokens v = codeTokens v r.text := by
        rw [Region.tokens, hcode]
      rw [htokens, Region.atoms, if_neg hp, flatMap_units_codeTokens false r.text hnext]

/-- The tokens of a text, without the white space in plain text, are known from its outline. -/
theorem squeeze_classify_eq (v : Vocabulary) (s : Text) :
    squeeze (classify v s) = joinPlain (wordUnits v [] (outline s)) := by
  rw [squeeze_classify, flatMap_units_regions v (isReading_scan s)]
  rfl

/-! ## Settled outlines -/

/-- The rule of layout neither joins nor parts words. -/
theorem wordUnits_settle (word : Text) {before : Option Atom} {d : Nat} (cs : List Cell)
    (h : word ≠ [] → before.any (Atom.breaksAfter d) = false) :
    wordUnits v word (settle before d cs) = wordUnits v word cs := by
  induction cs generalizing word before d with
  | nil => rfl
  | cons c cs ih =>
    obtain ⟨spaced, a⟩ := c
    rw [settle]
    cases a with
    | literal r =>
      rw [wordUnits, wordUnits, ih [] fun hne => absurd rfl hne]
    | code c =>
      rw [wordUnits, wordUnits]
      split
      · next hc =>
        have hcomma : ∀ d, (Atom.code c).isListComma d = false := by
          intro d
          refine Bool.eq_false_iff.2 fun h => ?_
          obtain rfl := Atom.code.inj (Atom.isListComma_iff.1 h).2
          cases hc
        have hrest : ∀ word, wordUnits v word (settle (some (.code c)) (depthAfter d [c]) cs) =
            wordUnits v word cs := fun word => ih word fun _ => hcomma _
        dsimp only [Atom.depth]
        rw [hrest, hrest, Cell.settledSpace, hcomma]
        by_cases hword : word = []
        · rw [hword]
          cases before.any (Atom.breaksAfter d) <;> cases spaced <;> rfl
        · rw [h hword]
          rfl
      · rw [ih [] fun hne => absurd rfl hne]

theorem wordUnits_settled (v : Vocabulary) (cs : List Cell) :
    wordUnits v [] (settled cs) = wordUnits v [] cs := by
  rw [settled, wordUnits_unspaceFirst, wordUnits_settle [] cs fun hne => absurd rfl hne]

end SqlSnippet
