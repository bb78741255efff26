import Mathlib.Data.List.Chain
import Mathlib.Data.List.Pairwise
import SqlSnippet.Source.Token

/-!
# What tokens cover

`classify` neither drops nor repeats a character, and its tokens are as few as they can be : no
token is empty and no two plain tokens are neighbours. Its strings and comments are the
protected regions of the text, each at its offset, so a keyword, a function or a number never
reaches into one (`classify_lossless_minimal`).

Two facts carry this. Joining plain tokens moves no token that has a category
(`filter_place_joinPlain`), and placed tokens follow one another without overlap
(`pairwise_place`).
-/

namespace SqlSnippet

/-! ## Places -/

/-- The tokens together with the offsets at which they start, the first one at `offset`. -/
def Token.place (offset : Nat) : List Token → List (Nat × Token)
  | [] => []
  | t :: ts => (offset, t) :: Token.place (offset + t.text.length) ts

/-- The display tokens of a text with their offsets. -/
def classifyPlaced (v : Vocabulary) (s : Text) : List (Nat × Token) :=
  Token.place 0 (classify v s)

/-- The token of a protected region at an offset; code has none of its own. -/
def Region.placedToken? (p : Nat × Region) : Option (Nat × Token) :=
  match p.2.kind with
  | .code => none
  | .string => some (p.1, ⟨p.2.text, some .string⟩)
  | .lineComment => some (p.1, ⟨p.2.text, some .comment⟩)
  | .blockComment => some (p.1, ⟨p.2.text, some .comment⟩)

/-- Whether the token is a string or a comment. -/
def Token.isLiteral (t : Token) : Bool :=
  t.category == some .string || t.category == some .comment

/-- Whether the token is a keyword, a function or a number. -/
def Token.isWord (t : Token) : Bool :=
  t.category == some .keyword || t.category == some .function || t.category == some .number

theorem Token.flatten_append (ts us : List Token) :
    Token.flatten (ts ++ us) = Token.flatten ts ++ Token.flatten us :=
  List.flatMap_append

theorem Token.place_append (o : Nat) (ts us : List Token) : Token.place o (ts ++ us) =
    Token.place o ts ++ Token.place (o + (Token.flatten ts).length) us := by
  induction ts generalizing o with
  | nil => rfl
  | cons t ts ih =>
    have hlen : (Token.flatten (t :: ts)).length =
        t.text.length + (Token.flatten ts).length := by
      simp [Token.flatten]
    rw [List.cons_append, Token.place, ih, Token.place, hlen, Nat.add_assoc]
    rfl

theorem Token.le_of_mem_place {o : Nat} {ts : List Token} {p : Nat × Token}
    (h : p ∈ Token.place o ts) : o ≤ p.1 := by
  induction ts generalizing o with
  | nil => cases h
  | cons t ts ih =>
    rcases List.mem_cons.1 h with rfl | h
    · exact Nat.le_refl o
    · have := ih h
      omega

/-- A placed token ends before the next one starts. -/
theorem Token.pairwise_place (o : Nat) (ts : List Token) :
    (Token.place o ts).Pairwise fun p q => p.1 + p.2.text.length ≤ q.1 := by
  induction ts generalizing o with
  | nil => exact .nil
  | cons t ts ih => exact .cons (fun _ hq => Token.le_of_mem_place hq) (ih _)

/-- Two placed tokens do not overlap. -/
theorem Token.apart_of_mem_place {o : Nat} {ts : List Token} {p q : Nat × Token}
    (hp : p ∈ Token.place o ts) (hq : q ∈ Token.place o ts) (hne : p ≠ q) :
    p.1 + p.2.text.length ≤ q.1 ∨ q.1 + q.2.text.length ≤ p.1 := by
  let R (p q : Nat × Token) := p.1 + p.2.text.length ≤ q.1 ∨ q.1 + q.2.text.length ≤ p.1
  have hsymm : Std.Symm R := ⟨fun _ _ => Or.symm⟩
  have hR : (Token.place o ts).Pairwise R := (Token.pairwise_place o ts).imp Or.inl
  exact hR.forall hp hq hne

/-! ## Joining plain text -/

theorem ne_nil_of_mem_codeTokens {v : Vocabulary} {s : Text} {t : Token}
    (h : t ∈ codeTokens v s) : t.text ≠ [] := by
  fun_induction codeTokens v s with
  | case1 => cases h
  | case2 c r _ word rest ih =>
    rcases List.mem_cons.1 h with rfl | h
    · exact List.cons_ne_nil _ _
    · exact ih h
  | case3 c r _ ih =>
    rcases List.mem_cons.1 h with rfl | h
    · exact List.cons_ne_nil _ _
    · exact ih h

theorem ne_nil_of_mem_tokens {v : Vocabulary} {r : Region} (hr : r.text ≠ []) {t : Token}
    (h : t ∈ r.tokens v) : t.text ≠ [] := by
  unfold Region.tokens at h
  split at h
  · exact ne_nil_of_mem_codeTokens h
  all_goals
    rw [List.mem_singleton.1 h]
    exact hr

theorem ne_nil_of_mem_joinPlain {ts : List Token} (hts : ∀ t ∈ ts, t.text ≠ []) :
    ∀ t ∈ joinPlain ts, t.text ≠ [] := by
  induction ts with
  | nil => simp [joinPlain]
  | cons t ts ih =>
    obtain ⟨ht, hts⟩ := List.forall_mem_cons.1 hts
    have ih := ih hts
    rw [joinPlain, List.foldr_cons]
    change ∀ u ∈ t.join (joinPlain ts), u.text ≠ []
    cases h : joinPlain ts with
    | nil => simpa [Token.join] using ht
    | cons u us =>
      rw [h] at ih
      obtain ⟨hu, hus⟩ := List.forall_mem_cons.1 ih
      rw [Token.join]
      split
      · exact List.forall_mem_cons.2 ⟨List.append_ne_nil_of_left_ne_nil ht _, hus⟩
      · exact List.forall_mem_cons.2 ⟨ht, ih⟩

/-- Joined tokens have no plain neighbours. -/
theorem isChain_joinPlain (ts : List Token) :
    (joinPlain ts).IsChain fun t u => ¬(t.isPlain = true ∧ u.isPlain = true) := by
  induction ts with
  | nil => exact .nil
  | cons t ts ih =>
    rw [joinPlain, List.foldr_cons]
    change (t.join (joinPlain ts)).IsChain _
    cases h : joinPlain ts with
    | nil => exact .singleton t
    | cons u us =>
      rw [h] at ih
      rw [Token.join]
      split
      · next hp =>
        -- the joined token is plain as `u` was, so it fits what follows `u`
        rw [Bool.and_eq_true] at hp
        rw [List.isChain_cons] at ih ⊢
        exact ⟨fun w hw hc => ih.1 w hw ⟨hp.2, hc.2⟩, ih.2⟩
      · next hp =>
        rw [Bool.and_eq_true] at hp
        exact List.isChain_cons_cons.2 ⟨hp, ih⟩

/-- Joining plain tokens leaves every token with a category where it was. -/
theorem filter_place_joinPlain {f : Nat × Token → Bool}
    (hf : ∀ p, f p = true → p.2.isPlain = false) (o : Nat) (ts : List Token) :
    (Token.place o (joinPlain ts)).filter f = (Token.place o ts).filter f := by
  induction ts generalizing o with
  | nil => rfl
  | cons t ts ih =>
    have hplain : ∀ p : Nat × Token, p.2.isPlain = true → f p = false := fun p hp =>
      Bool.eq_false_iff.2 fun h => by rw [hf p h] at hp; cases hp
    rw [joinPlain, List.foldr_cons]
    change (Token.place o (t.join (joinPlain ts))).filter f = _
    rw [Token.place, List.filter_cons, ← ih]
    cases h : joinPlain ts with
    | nil => exact List.filter_cons
    | cons u us =>
      rw [Token.join]
      split
      · next hp =>
        rw [Bool.and_eq_true] at hp
        rw [Token.place, Token.place, List.filter_cons, List.filter_cons, hplain _ rfl,
          hplain (_, t) hp.1, hplain (_, u) hp.2, List.length_append, Nat.add_assoc]
        rfl
      · rw [Token.place, List.filter_cons]

/-! ## Literals -/

theorem isLiteral_of_mem_codeTokens {v : Vocabulary} {s : Text} {t : Token}
    (h : t ∈ codeTokens v s) : t.isLiteral = false := by
  fun_induction codeTokens v s with
  | case1 => cases h
  | case2 c r _ word rest ih =>
    rcases List.mem_cons.1 h with rfl | h
    · unfold Token.isLiteral wordCategory
      split_ifs <;> rfl
    · exact ih h
  | case3 c r _ ih =>
    rcases List.mem_cons.1 h with rfl | h
    · rfl
    · exact ih h

theorem filter_place_tokens (v : Vocabulary) (o : Nat) (r : Region) :
    (Token.place o (r.tokens v)).filter (·.2.isLiteral) =
      (Region.placedToken? (o, r)).toList := by
  obtain ⟨kind, text, terminated⟩ := r
  cases kind with
  | code =>
    refine List.filter_eq_nil_iff.2 fun p hp => ?_
    have hmem : p.2 ∈ codeTokens v text := by
      change p ∈ Token.place o (codeTokens v text) at hp
      generalize codeTokens v text = ts at hp
      induction ts generalizing o with
      | nil => cases hp
      | cons t ts ih =>
        rcases List.mem_cons.1 hp with rfl | hp
        · exact List.mem_cons_self ..
        · exact List.mem_cons_of_mem _ (ih _ hp)
    rw [isLiteral_of_mem_codeTokens hmem]
    exact Bool.false_ne_true
  | string => rfl
  | lineComment => rfl
  | blockComment => rfl

/-- The strings and comments among the tokens of regions are the protected regions. -/
theorem filter_place_flatMap_tokens (v : Vocabulary) (o : Nat) (rs : List Region) :
    (Token.place o (rs.flatMap (Region.tokens v))).filter (·.2.isLiteral) =
      (Region.place o rs).filterMap Region.placedToken? := by
  induction rs generalizing o with
  | nil => rfl
  | cons r rs ih =>
    rw [List.flatMap_cons, Token.place_append, List.filter_append, filter_place_tokens,
      flatten_tokens, ih, Region.place, List.filterMap_cons]
    cases Region.placedToken? (o, r) <;> rfl

theorem filter_classifyPlaced (v : Vocabulary) (s : Text) :
    (classifyPlaced v s).filter (·.2.isLiteral) =
      (scanPlaced s).filterMap Region.placedToken? := by
  rw [classifyPlaced, classify, filter_place_joinPlain, filter_place_flatMap_tokens, scanPlaced]
  rintro ⟨o, text, category⟩ h
  cases category with
  | none => cases h
  | some c => rfl

theorem not_isWord_of_isLiteral {t : Token} (h : t.isLiteral = true) : t.isWord = false := by
  obtain ⟨text, category⟩ := t
  cases category with
  | none => rfl
  | some c => cases c <;> first | rfl | cases h

/-- Each protected region is a token at its offset. -/
theorem mem_classifyPlaced_of_isProtected {v : Vocabulary} {s : Text} {q : Nat × Region}
    (hq : q ∈ scanPlaced s) (hp : q.2.isProtected = true) :
    ∃ t, (q.1, t) ∈ classifyPlaced v s ∧ t.text = q.2.text ∧ t.isLiteral = true := by
  obtain ⟨t, ht, htext⟩ : ∃ t, Region.placedToken? q = some (q.1, t) ∧ t.text = q.2.text := by
    obtain ⟨o, kind, text, terminated⟩ := q
    cases kind with
    | code => cases hp
    | string => exact ⟨_, rfl, rfl⟩
    | lineComment => exact ⟨_, rfl, rfl⟩
    | blockComment => exact ⟨_, rfl, rfl⟩
  have hmem : (q.1, t) ∈ (classifyPlaced v s).filter (·.2.isLiteral) := by
    rw [filter_classifyPlaced]
    exact List.mem_filterMap.2 ⟨q, hq, ht⟩
  obtain ⟨hmem, hlit⟩ := List.mem_filter.1 hmem
  exact ⟨t, hmem, htext, hlit⟩

/-- Classification loses nothing and cuts no more than it must : the tokens cover the text,
none is empty, no two plain ones are neighbours, the strings and comments are the protected
regions at their offsets, and no keyword, function or number overlaps one of these. -/
theorem classify_lossless_minimal (v : Vocabulary) (s : Text) :
    Token.flatten (classify v s) = s ∧
      (∀ t ∈ classify v s, t.text ≠ []) ∧
      ((classify v s).IsChain fun t u => ¬(t.isPlain = true ∧ u.isPlain = true)) ∧
      (classifyPlaced v s).filter (·.2.isLiteral) =
        (scanPlaced s).filterMap Region.placedToken? ∧
      ∀ p ∈ classifyPlaced v s, p.2.isWord = true →
        ∀ q ∈ scanPlaced s, q.2.isProtected = true →
          p.1 + p.2.text.length ≤ q.1 ∨ q.1 + q.2.text.length ≤ p.1 := by
  refine ⟨flatten_classify v s, ne_nil_of_mem_joinPlain fun t ht => ?_, isChain_joinPlain _,
    filter_classifyPlaced v s, fun p hp hword q hq hprot => ?_⟩
  · obtain ⟨r, hr, ht⟩ := List.mem_flatMap.1 ht
    exact ne_nil_of_mem_tokens (text_ne_nil_of_mem_scan hr) ht
  · obtain ⟨t, ht, htext, hlit⟩ := mem_classifyPlaced_of_isProtected (v := v) hq hprot
    have hne : p ≠ (q.1, t) := by
      rintro rfl
      exact Bool.false_ne_true ((not_isWord_of_isLiteral hlit).symm.trans hword)
    rw [← htext]
    exact Token.apart_of_mem_place hp ht hne

end SqlSnippet
