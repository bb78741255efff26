import Mathlib.Data.List.TakeWhile
import SqlSnippet.Proofs.Reading
import SqlSnippet.Proofs.TokenCover

/-!
# Words

The words of a text are its longest runs of identifier characters : none of these stands right
before a word or right after it (`IsWordAt`). What a word of code is shown as depends on its
characters and on what follows it in its region (`HasCategory`).

A text that starts with a word is that word and the words of the rest (`isWordAt_append`), which
is how the classifier goes through code, so in a code region the tokens with a category are the
words that have one (`mem_place_codeTokens_iff`). Regions do not overlap, and what is code but in
no such word is plain : `classify_words_iff` puts this together for whole texts.
-/

namespace SqlSnippet

variable {v : Vocabulary}

/-! ## Runs of identifier characters -/

/-- A text is a longest run of identifier characters where it stands, `before` coming before it
and `after` after it. -/
structure IsWord (before w after : Text) : Prop where
  nonempty : w ≠ []
  ident : ∀ c ∈ w, isIdentChar c = true
  starts : ∀ c ∈ before.getLast?, isIdentChar c = false
  stops : ∀ c ∈ after.head?, isIdentChar c = false

/-- A text has the word `w` at an offset, and `after` follows it. -/
def IsWordAt (s : Text) (n : Nat) (w after : Text) : Prop :=
  ∃ before, s = before ++ (w ++ after) ∧ before.length = n ∧ IsWord before w after

theorem IsWordAt.subset {s : Text} {n : Nat} {w after : Text} (h : IsWordAt s n w after) :
    w ⊆ s := by
  obtain ⟨before, rfl, -, -⟩ := h
  exact fun c hc => List.mem_append_right before (List.mem_append_left after hc)

theorem not_isWordAt_nil {n : Nat} {w after : Text} : ¬IsWordAt [] n w after := by
  rintro ⟨before, heq, -, hw⟩
  have hnil := (List.append_eq_nil_iff.1 heq.symm).2
  exact hw.nonempty (List.append_eq_nil_iff.1 hnil).1

/-- A character that is in no word comes before the words of the rest. -/
theorem isWordAt_cons {c : Char} (hc : isIdentChar c = false) {s : Text} {n : Nat}
    {w after : Text} :
    IsWordAt (c :: s) n w after ↔ ∃ m, n = m + 1 ∧ IsWordAt s m w after := by
  constructor
  · rintro ⟨before, heq, rfl, hw⟩
    cases before with
    | nil =>
      obtain ⟨d, w, rfl⟩ := List.exists_cons_of_ne_nil hw.nonempty
      have hd := hw.ident d List.mem_cons_self
      rw [← (List.cons.inj heq).1, hc] at hd
      cases hd
    | cons d before =>
      obtain ⟨rfl, rfl⟩ := List.cons.inj heq
      refine ⟨before.length, rfl, before, rfl, rfl, hw.nonempty, hw.ident, fun e he => ?_, hw.stops⟩
      exact hw.starts e (by cases before <;> simp_all)
  · rintro ⟨m, rfl, before, rfl, rfl, hw⟩
    refine ⟨c :: before, rfl, rfl, hw.nonempty, hw.ident, fun e he => ?_, hw.stops⟩
    cases before with
    | nil => simp_all
    | cons d before => exact hw.starts e (by simpa using he)

/-- A run of identifier characters ends where its text goes on with none. -/
theorem IsWord.takeWhile_eq {before w after : Text} (h : IsWord before w after) :
    (w ++ after).takeWhile isIdentChar = w := by
  rw [List.takeWhile_append_of_pos h.ident]
  cases after with
  | nil => simp
  | cons c after => simp [h.stops c rfl]

/-- The words of a text that starts with one are that word and those of the rest. -/
theorem isWordAt_append {u s : Text} (hu : IsWord [] u s) {n : Nat} {w after : Text} :
    IsWordAt (u ++ s) n w after ↔
      (n = 0 ∧ w = u ∧ after = s) ∨ ∃ m, n = u.length + m ∧ IsWordAt s m w after := by
  constructor
  · rintro ⟨before, heq, rfl, hw⟩
    rcases List.append_eq_append_iff.1 heq with ⟨a, rfl, hs⟩ | ⟨a, rfl, hs⟩
    · refine Or.inr ⟨a.length, by simp, a, hs, rfl, hw.nonempty, hw.ident, fun c hc => ?_, hw.stops⟩
      exact hw.starts c (by simp_all)
    · have hbefore : before = [] := by
        by_contra hne
        have hlast := List.getLast?_eq_some_getLast hne
        have hident := hu.ident _ (List.mem_append_left a (List.getLast_mem hne))
        rw [hw.starts _ hlast] at hident
        cases hident
      subst hbefore
      rw [List.nil_append] at hu ⊢
      have ha : w = a := by rw [← hw.takeWhile_eq, hs, hu.takeWhile_eq]
      subst ha
      exact Or.inl ⟨rfl, rfl, List.append_cancel_left hs⟩
  · rintro (⟨rfl, rfl, rfl⟩ | ⟨m, rfl, before, rfl, rfl, hw⟩)
    · exact ⟨[], rfl, rfl, hu⟩
    · refine ⟨u ++ before, by simp, by simp, hw.nonempty, hw.ident, fun c hc => ?_, hw.stops⟩
      cases before with
      | nil =>
        -- the rest would start with an identifier character, but `u` ends before it
        obtain ⟨d, w, rfl⟩ := List.exists_cons_of_ne_nil hw.nonempty
        have hd := hu.stops d rfl
        rw [hw.ident d List.mem_cons_self] at hd
        cases hd
      | cons d before =>
        rw [List.getLast?_append_of_ne_nil _ (List.cons_ne_nil _ _)] at hc
        exact hw.starts c hc

theorem isWord_takeWhile {c : Char} (hc : isIdentChar c = true) (s : Text) :
    IsWord [] (c :: s.takeWhile isIdentChar) (s.dropWhile isIdentChar) where
  nonempty := List.cons_ne_nil _ _
  ident := List.forall_mem_cons.2 ⟨hc, fun _ hd => List.mem_takeWhile_imp hd⟩
  starts := nofun
  stops d hd := by
    have hnot := List.head?_dropWhile_not isIdentChar s
    rwa [hd] at hnot

/-! ## Categories of words -/

/-- What a word of code is shown as, where `after` follows it in its region : a run of digits is
a number, another word of the keyword list a keyword, and another of the function list a function
if an opening bracket comes next but for white space. -/
def HasCategory (v : Vocabulary) (w after : Text) : Category → Prop
  | .number => ∀ d ∈ w, d.isDigit = true
  | .keyword => (∃ d ∈ w, d.isDigit = false) ∧ w.upper ∈ v.keywords
  | .function => (∃ d ∈ w, d.isDigit = false) ∧ w.upper ∉ v.keywords ∧ w.upper ∈ v.functions ∧
      ∃ blanks rest, after = blanks ++ '(' :: rest ∧ ∀ b ∈ blanks, isBlank b = true
  | .string => False
  | .comment => False

theorem opensCall_iff {s : Text} : opensCall s = true ↔
    ∃ blanks rest, s = blanks ++ '(' :: rest ∧ ∀ b ∈ blanks, isBlank b = true := by
  unfold opensCall Text.trimStart
  rw [beq_iff_eq]
  constructor
  · intro h
    obtain ⟨rest, hrest⟩ := List.head?_eq_some_iff.1 h
    refine ⟨s.takeWhile isBlank, rest, ?_, fun b hb => List.mem_takeWhile_imp hb⟩
    rw [← hrest, List.takeWhile_append_dropWhile]
  · rintro ⟨blanks, rest, rfl, hblank⟩
    rw [List.dropWhile_append_of_pos hblank, List.dropWhile_cons_of_neg (by decide)]
    rfl

theorem hasCategory_function {w after : Text} : HasCategory v w after .function ↔
    (∃ d ∈ w, d.isDigit = false) ∧ w.upper ∉ v.keywords ∧ w.upper ∈ v.functions ∧
      opensCall after = true := by
  rw [opensCall_iff]
  rfl

theorem wordCategory_eq_some_iff {w after : Text} {c : Category} :
    wordCategory v w after = some c ↔ HasCategory v w after c := by
  unfold wordCategory
  by_cases hdigits : ∀ d ∈ w, d.isDigit = true
  · have hnone : ¬∃ d ∈ w, d.isDigit = false := by simpa using hdigits
    rw [if_pos (List.all_eq_true.2 hdigits)]
    cases c <;> simp_all [HasCategory]
  · have hsome : ∃ d ∈ w, d.isDigit = false := by simpa using hdigits
    rw [if_neg (mt List.all_eq_true.1 hdigits)]
    cases c with
    | function =>
      rw [hasCategory_function]
      split_ifs <;> simp_all
    | _ => split_ifs <;> simp_all [HasCategory]

/-- In code, the tokens with a category are the words that have one. -/
theorem mem_place_codeTokens_iff {s w : Text} {o n : Nat} {c : Category} :
    (n, ⟨w, some c⟩) ∈ Token.place o (codeTokens v s) ↔
      ∃ m after, n = o + m ∧ IsWordAt s m w after ∧ HasCategory v w after c := by
  fun_induction codeTokens v s generalizing o with
  | case1 =>
    refine iff_of_false List.not_mem_nil ?_
    rintro ⟨m, after, -, hat, -⟩
    exact not_isWordAt_nil hat
  | case2 d r hd word rest =>
    rename_i ih
    have hsplit : d :: r = word ++ rest := by simp [word, rest]
    rw [Token.place, List.mem_cons, ih, hsplit]
    have hword : ∀ m after, IsWordAt (word ++ rest) m w after ↔
        (m = 0 ∧ w = word ∧ after = rest) ∨ ∃ k, m = word.length + k ∧ IsWordAt rest k w after :=
      fun m after => isWordAt_append (isWord_takeWhile hd r)
    simp only [hword]
    constructor
    · rintro (heq | ⟨m, after, rfl, hat, hc⟩)
      · simp only [Prod.mk.injEq, Token.mk.injEq] at heq
        obtain ⟨rfl, rfl, hc⟩ := heq
        exact ⟨0, rest, rfl, Or.inl ⟨rfl, rfl, rfl⟩, wordCategory_eq_some_iff.1 hc.symm⟩
      · exact ⟨word.length + m, after, by omega, Or.inr ⟨m, rfl, hat⟩, hc⟩
    · rintro ⟨m, after, rfl, ⟨rfl, rfl, rfl⟩ | ⟨m, rfl, hat⟩, hc⟩
      · rw [← wordCategory_eq_some_iff.2 hc]
        exact Or.inl rfl
      · exact Or.inr ⟨m, after, by simp only [word]; omega, hat, hc⟩
  | case3 d r hd ih =>
    rw [Token.place, List.mem_cons, ih]
    simp only [isWordAt_cons (Bool.eq_false_iff.2 hd)]
    constructor
    · rintro (heq | ⟨m, after, rfl, hat, hc⟩)
      · cases heq
      · exact ⟨m + 1, after, by simp; omega, ⟨m, rfl, hat⟩, hc⟩
    · rintro ⟨-, after, rfl, ⟨m, rfl, hat⟩, hc⟩
      exact Or.inr ⟨m, after, by simp; omega, hat, hc⟩

/-! ## Places -/

/-- An offset lies in a text that starts at `start`. -/
def Spans (start : Nat) (t : Text) (i : Nat) : Prop :=
  start ≤ i ∧ i < start + t.length

/-- Placed regions do not overlap. -/
theorem Region.eq_of_spans {o i : Nat} {rs : List Region} {p q : Nat × Region}
    (hp : p ∈ Region.place o rs) (hq : q ∈ Region.place o rs) (hpi : Spans p.1 p.2.text i)
    (hqi : Spans q.1 q.2.text i) : p = q := by
  let R (p q : Nat × Region) := p.1 + p.2.text.length ≤ q.1
  have htrans : IsTrans (Nat × Region) R := ⟨fun a b c hab hbc => by simp only [R] at *; omega⟩
  have hR : (Region.place o rs).Pairwise R :=
    ((Region.isChain_place o rs).imp fun a b h => h.le).pairwise
  unfold Spans at hpi hqi
  by_contra hne
  have hsymm : Std.Symm fun p q => R p q ∨ R q p := ⟨fun _ _ => Or.symm⟩
  have hapart := (hR.imp Or.inl : List.Pairwise (fun p q => R p q ∨ R q p) _).forall hp hq hne
  simp only [R] at hapart
  omega

/-- Placed tokens leave out no offset of their text. -/
theorem Token.exists_spans {o i : Nat} {ts : List Token} (h : Spans o (Token.flatten ts) i) :
    ∃ p ∈ Token.place o ts, Spans p.1 p.2.text i := by
  unfold Spans at *
  induction ts generalizing o with
  | nil => simp [Token.flatten] at h; omega
  | cons t ts ih =>
    rw [Token.place]
    by_cases hi : i < o + t.text.length
    · exact ⟨(o, t), List.mem_cons_self, h.1, hi⟩
    · obtain ⟨p, hp, hspan⟩ := ih (o := o + t.text.length) (by simp_all [Token.flatten]; omega)
      exact ⟨p, List.mem_cons_of_mem _ hp, hspan⟩

/-- The tokens of regions are placed where their region puts them. -/
theorem mem_place_flatMap_tokens {o : Nat} {rs : List Region} {p : Nat × Token} :
    p ∈ Token.place o (rs.flatMap (Region.tokens v)) ↔
      ∃ q ∈ Region.place o rs, p ∈ Token.place q.1 (q.2.tokens v) := by
  induction rs generalizing o with
  | nil => simp [Token.place, Region.place]
  | cons r rs ih =>
    rw [List.flatMap_cons, Token.place_append, List.mem_append, flatten_tokens, ih, Region.place]
    simp

/-! ## Words of texts -/

theorem HasCategory.isWord {w after : Text} {c : Category} (h : HasCategory v w after c) :
    Token.isWord ⟨w, some c⟩ = true := by
  cases c with
  | string => exact h.elim
  | comment => exact h.elim
  | _ => rfl

/-- Only code has keywords, functions and numbers. -/
theorem kind_of_mem_place_tokens {o : Nat} {r : Region} {p : Nat × Token}
    (hp : p ∈ Token.place o (r.tokens v)) (hword : p.2.isWord = true) : r.kind = .code := by
  unfold Region.tokens at hp
  split at hp
  · assumption
  all_goals
    rw [List.mem_singleton.1 hp] at hword
    cases hword

/-- The keywords, functions and numbers of a text are words of its code. -/
theorem mem_classifyPlaced_iff {s w : Text} {n : Nat} {c : Category} :
    (n, ⟨w, some c⟩) ∈ classifyPlaced v s ∧ Token.isWord ⟨w, some c⟩ = true ↔
      ∃ q ∈ scanPlaced s, q.2.kind = .code ∧
        ∃ m after, n = q.1 + m ∧ IsWordAt q.2.text m w after ∧ HasCategory v w after c := by
  have hplain : ∀ p : Nat × Token, p.2.isWord = true → p.2.isPlain = false := by
    rintro ⟨n, text, _ | c⟩ h
    · cases h
    · rfl
  have hcode : ∀ r : Region, r.kind = .code → r.tokens v = codeTokens v r.text := fun r h => by
    rw [Region.tokens, h]
  have hfilter : (n, ⟨w, some c⟩) ∈ (classifyPlaced v s).filter (·.2.isWord) ↔
      (n, ⟨w, some c⟩) ∈ classifyPlaced v s ∧ Token.isWord ⟨w, some c⟩ = true := List.mem_filter
  rw [← hfilter, classifyPlaced, classify, filter_place_joinPlain hplain, List.mem_filter,
    mem_place_flatMap_tokens]
  constructor
  · rintro ⟨⟨q, hq, hmem⟩, hword⟩
    have hk := kind_of_mem_place_tokens hmem hword
    rw [hcode q.2 hk, mem_place_codeTokens_iff] at hmem
    exact ⟨q, hq, hk, hmem⟩
  · rintro ⟨q, hq, hk, m, after, hn, hat, hc⟩
    refine ⟨⟨q, hq, ?_⟩, hc.isWord⟩
    rw [hcode q.2 hk, mem_place_codeTokens_iff]
    exact ⟨m, after, hn, hat, hc⟩

/-- Each string and each comment is a protected region. -/
theorem exists_region_of_isLiteral {s : Text} {p : Nat × Token} (hp : p ∈ classifyPlaced v s)
    (hlit : p.2.isLiteral = true) :
    ∃ q ∈ scanPlaced s, q.2.isProtected = true ∧ q.1 = p.1 ∧ q.2.text = p.2.text := by
  have hmem : p ∈ (classifyPlaced v s).filter (·.2.isLiteral) := List.mem_filter.2 ⟨hp, hlit⟩
  rw [filter_classifyPlaced] at hmem
  obtain ⟨q, hq, htoken⟩ := List.mem_filterMap.1 hmem
  refine ⟨q, hq, ?_⟩
  unfold Region.placedToken? at htoken
  split at htoken <;> cases htoken <;> simp_all [Region.isProtected, RegionKind.isProtected]

/-- No string or comment reaches into code. -/
theorem not_isLiteral_of_spans {s : Text} {q : Nat × Region} {p : Nat × Token} {i : Nat}
    (hq : q ∈ scanPlaced s) (hk : q.2.kind = .code) (hqi : Spans q.1 q.2.text i)
    (hp : p ∈ classifyPlaced v s) (hpi : Spans p.1 p.2.text i) : p.2.isLiteral = false := by
  refine Bool.eq_false_iff.2 fun hlit => ?_
  obtain ⟨q', hq', hprot, hstart, htext⟩ := exists_region_of_isLiteral hp hlit
  rw [← hstart, ← htext] at hpi
  rw [Region.eq_of_spans hq' hq hpi hqi] at hprot
  exact Region.isProtected_iff.1 hprot hk

/-- Words are classified exactly : a stretch of a text is a keyword, a function or a number if and
only if it is a word of a code region that has this category there, and every other character of
code is in a plain token. -/
theorem classify_words_iff (keywords functions : List Text) (s : Text) :
    (∀ n w c, (n, ⟨w, some c⟩) ∈ classifyPlaced (.ofWords keywords functions) s ∧
        Token.isWord ⟨w, some c⟩ = true ↔
      ∃ q ∈ scanPlaced s, q.2.kind = .code ∧ ∃ m after, n = q.1 + m ∧
        IsWordAt q.2.text m w after ∧
        HasCategory (.ofWords keywords functions) w after c) ∧
    ∀ q ∈ scanPlaced s, q.2.kind = .code → ∀ i, Spans q.1 q.2.text i →
      (¬∃ p ∈ classifyPlaced (.ofWords keywords functions) s,
        p.2.isWord = true ∧ Spans p.1 p.2.text i) →
      ∃ p ∈ classifyPlaced (.ofWords keywords functions) s,
        p.2.isPlain = true ∧ Spans p.1 p.2.text i := by
  refine ⟨fun n w c => mem_classifyPlaced_iff, fun q hq hk i hqi hno => ?_⟩
  have hspan : Spans 0 (Token.flatten (classify (.ofWords keywords functions) s)) i := by
    obtain ⟨as, bs, hscan, hstart⟩ := Region.mem_place.1 hq
    have hlen := congrArg (List.length ∘ Region.flatten) hscan
    simp only [Function.comp, flatten_scan, Region.flatten_append, Region.flatten_cons,
      List.length_append] at hlen
    unfold Spans at *
    rw [flatten_classify]
    omega
  obtain ⟨p, hp, hpi⟩ := Token.exists_spans hspan
  refine ⟨p, hp, ?_, hpi⟩
  have hlit := not_isLiteral_of_spans hq hk hqi hp hpi
  have hword : p.2.isWord ≠ true := fun h => hno ⟨p, hp, h, hpi⟩
  obtain ⟨n, w, _ | c⟩ := p
  · rfl
  · cases c <;> simp_all [Token.isLiteral, Token.isWord]

end SqlSnippet
