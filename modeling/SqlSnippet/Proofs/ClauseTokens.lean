import Mathlib.Data.List.DropRight
import Mathlib.Data.List.Sort
import SqlSnippet.Proofs.ClauseOccurrences
import SqlSnippet.Proofs.NormalForm
import SqlSnippet.Proofs.PieceTexts
import SqlSnippet.Proofs.Words

/-!
# Clause words and keywords

The formatter finds clause words by a pattern of its own, the classifier finds keywords among the
words of code. In ASCII they agree : a character matches regardless of case what has the same
capital (`sameFold_iff`), and the characters of words are the same for both. So in code the clause
words after white space are the keywords there that name one (`map_token_occurrences`). The texts
that the formatter looks through are such code (`isPieceText_of_mem`), and
`occurrences_eq_keywords` puts this together for the pieces of a text.
-/

namespace SqlSnippet

variable {v : Vocabulary} {ws : List Text} {s : Text}

/-! ## Clause words in ASCII -/

/-- The characters of words are the same for formatter and classifier. -/
theorem isWordChar_eq {c : Char} (hc : c.toNat < 128) : isWordChar c = isIdentChar c :=
  forall_ascii (P := fun c => isWordChar c = isIdentChar c) (by decide +kernel) hc

theorem toUpper_toLower {c : Char} (hc : c.toNat < 128) : c.toLower.toUpper = c.toUpper :=
  forall_ascii (P := fun c => c.toLower.toUpper = c.toUpper) (by decide +kernel) hc

theorem toLower_toUpper {c : Char} (hc : c.toNat < 128) : c.toUpper.toLower = c.toLower :=
  forall_ascii (P := fun c => c.toUpper.toLower = c.toLower) (by decide +kernel) hc

/-- Characters match regardless of case if they have the same capital. -/
theorem sameFold_iff {p c : Char} (hp : p.toNat < 128) (hc : c.toNat < 128) :
    sameFold p c = true ↔ p.toUpper = c.toUpper := by
  have hrelative : ((foldRelatives.lookup p.toLower.toNat).getD []).contains c.toLower.toNat =
      false := by
    refine Bool.eq_false_iff.2 fun h => ?_
    have hm := eq_of_mem_foldRelatives (toNat_toLower_lt hp) _ (List.contains_iff_mem.1 h)
    have hlt := toNat_toLower_lt hc
    omega
  simp only [sameFold, lowerChar, if_pos hp, if_pos hc, Bool.or_eq_true, hrelative,
    Bool.false_eq_true, or_false, beq_iff_eq]
  constructor
  · intro h
    rw [← toUpper_toLower hp, ← h, toUpper_toLower hc]
  · intro h
    rw [← toLower_toUpper hc, ← h, toLower_toUpper hp]

theorem forall₂_sameFold_iff {w word : Text} (hw : ∀ c ∈ w, c.toNat < 128)
    (hword : ∀ c ∈ word, c.toNat < 128) : List.Forall₂ (fun p c => sameFold p c = true) w word ↔
      w.map Char.toUpper = word.map Char.toUpper := by
  induction w generalizing word with
  | nil => exact List.forall₂_nil_left_iff.trans (List.map_eq_nil_iff.symm.trans eq_comm)
  | cons p w ih =>
    obtain ⟨hp, hw⟩ := List.forall_mem_cons.1 hw
    cases word with
    | nil => exact iff_of_false nofun nofun
    | cons c word =>
      obtain ⟨hc, hword⟩ := List.forall_mem_cons.1 hword
      rw [List.forall₂_cons, sameFold_iff hp hc, ih hw hword, List.map_cons, List.map_cons,
        List.cons.injEq]

/-- A clause word is known by its upper-case form. -/
theorem clauseAt_iff_upper (hws : AreIdentifiers ws) {word rest : Text}
    (hword : ∀ c ∈ word, c.toNat < 128) (hrest : ∀ c ∈ rest, c.toNat < 128) :
    ClauseAt ws word rest ↔
      word.upper ∈ WordSet.ofWords ws ∧ ∀ c ∈ rest.head?, isIdentChar c = false := by
  rw [clauseAt_iff hws, hws.mem_ofWords_iff, upper_eq_map hword]
  refine and_congr (exists_congr fun w => and_congr_right fun hw => ?_)
    (forall₂_congr fun c hc => ?_)
  · exact forall₂_sameFold_iff (fun c hc => toNat_lt_of_isIdentChar ((hws w hw).2 c hc)) hword
  · rw [isWordChar_eq (hrest c (List.mem_of_mem_head? hc))]

theorem ClauseAt.isWord (hws : AreIdentifiers ws) {u b word rest : Text}
    (hword : ∀ c ∈ word, c.toNat < 128) (hrest : ∀ c ∈ rest, c.toNat < 128) (hne : b ≠ [])
    (hb : ∀ c ∈ b, isBlank c = true) (h : ClauseAt ws word rest) : IsWord (u ++ b) word rest := by
  refine ⟨h.ne_nil hws, fun c hc => ?_, fun c hc => ?_,
    ((clauseAt_iff_upper hws hword hrest).1 h).2⟩
  · rw [← isWordChar_eq (hword c hc), h.isWordChar hws c hc]
  · rw [List.getLast?_append_of_ne_nil _ hne] at hc
    refine Bool.eq_false_iff.2 fun hident => ?_
    have hblank := hb c (List.mem_of_getLast? hc)
    rw [not_isBlank_of_isIdentChar hident] at hblank
    cases hblank

/-- A text ends with a run of white space, which may be empty. -/
theorem exists_trailing_blanks (x : Text) : ∃ u b, x = u ++ b ∧ (∀ c ∈ b, isBlank c = true) ∧
    ∀ c ∈ u.getLast?, isBlank c = false := by
  refine ⟨x.rdropWhile isBlank, x.rtakeWhile isBlank, List.rdropWhile_append_rtakeWhile.symm,
    fun c hc => List.mem_rtakeWhile_imp hc, fun c hc => ?_⟩
  have hne : x.rdropWhile isBlank ≠ [] := List.ne_nil_of_mem (List.mem_of_getLast? hc)
  have hlast := List.rdropWhile_last_not isBlank x hne
  rw [List.getLast?_eq_some_getLast hne] at hc
  obtain rfl := Option.some.inj hc
  exact Bool.eq_false_iff.2 hlast

/-- The clause words after white space are the words in the list before which white space
stands. -/
theorem exists_isClauseMatch_iff (hws : AreIdentifiers ws) (hs : ∀ c ∈ s, c.toNat < 128) {n : Nat}
    {w : Text} : (∃ u b r, n = u.length + b.length ∧ IsClauseMatch ws s u b w r) ↔
      (∃ after, IsWordAt s n w after) ∧ w.upper ∈ WordSet.ofWords ws ∧
        (s.take n).getLast?.any isBlank = true := by
  have hparts : ∀ {x w r : Text}, s = x ++ (w ++ r) →
      (∀ c ∈ w, c.toNat < 128) ∧ ∀ c ∈ r, c.toNat < 128 := by
    rintro x w r rfl
    exact List.forall_mem_append.1 (List.forall_mem_append.1 hs).2
  constructor
  · rintro ⟨u, b, r, rfl, h⟩
    have htext : s = (u ++ b) ++ (w ++ r) := by rw [h.text, List.append_assoc]
    obtain ⟨hw, hr⟩ := hparts htext
    refine ⟨⟨r, u ++ b, htext, List.length_append, h.clause.isWord hws hw hr h.nonempty h.blank⟩,
      ((clauseAt_iff_upper hws hw hr).1 h.clause).1, ?_⟩
    rw [htext, ← List.length_append, List.take_left, List.getLast?_append_of_ne_nil _ h.nonempty,
      List.getLast?_eq_some_getLast h.nonempty]
    exact h.blank _ (List.getLast_mem h.nonempty)
  · rintro ⟨⟨after, x, htext, rfl, hword⟩, hmem, hblank⟩
    obtain ⟨hw, hr⟩ := hparts htext
    obtain ⟨u, b, rfl, hb, hu⟩ := exists_trailing_blanks x
    refine ⟨u, b, after, List.length_append, by rw [htext, List.append_assoc], ?_, hb, hu,
      (clauseAt_iff_upper hws hw hr).2 ⟨hmem, hword.stops⟩⟩
    rintro rfl
    -- nothing but white space comes right before the word
    rw [htext, List.take_left, List.append_nil, Option.any_eq_true] at hblank
    obtain ⟨c, hc, hcblank⟩ := hblank
    rw [hu c hc] at hcblank
    cases hcblank

/-! ## Keywords -/

/-- The keyword that an occurrence of a clause word is, with its offset. -/
def ClauseMatch.token (m : ClauseMatch) : Nat × Token :=
  (m.start, ⟨m.word, some .keyword⟩)

/-- Whether a token of a text is a keyword of the list with white space right before it. -/
def startsClause (ws : List Text) (s : Text) (p : Nat × Token) : Bool :=
  p.2.category == some .keyword && decide (p.2.text.upper ∈ ws) &&
    (s.take p.1).getLast?.any isBlank

theorem startsClause_iff {n : Nat} {w : Text} {category : Option Category} :
    startsClause ws s (n, ⟨w, category⟩) = true ↔
      category = some .keyword ∧ w.upper ∈ ws ∧ (s.take n).getLast?.any isBlank = true := by
  rw [startsClause, Bool.and_eq_true, Bool.and_eq_true, beq_iff_eq, decide_eq_true_eq, and_assoc]

theorem scanPlaced_of_codeText (h : CodeText s none) (hne : s ≠ []) :
    scanPlaced s = [(0, ⟨.code, s, true⟩)] := by
  have hscan : scan s = [⟨.code, s, true⟩] :=
    scan_eq_iff.2 ⟨List.append_nil s, hne, h, fun _ => nofun, trivial⟩
  rw [scanPlaced, hscan]
  rfl

/-- The keywords of a text that is code are its words in the list. -/
theorem mem_classifyPlaced_keyword_iff (h : CodeText s none) {n : Nat} {w : Text} :
    (n, ⟨w, some .keyword⟩) ∈ classifyPlaced v s ↔
      ∃ after, IsWordAt s n w after ∧ HasCategory v w after .keyword := by
  have hword : Token.isWord ⟨w, some .keyword⟩ = true := rfl
  rw [← and_iff_left (a := _ ∈ _) hword, mem_classifyPlaced_iff]
  by_cases hne : s = []
  · subst hne
    refine iff_of_false ?_ ?_
    · rintro ⟨q, hq, -⟩
      rw [scanPlaced, scan_nil] at hq
      cases hq
    · rintro ⟨after, hat, -⟩
      exact not_isWordAt_nil hat
  · rw [scanPlaced_of_codeText h hne]
    constructor
    · rintro ⟨q, hq, -, m, after, rfl, hat, hc⟩
      obtain rfl := List.mem_singleton.1 hq
      exact ⟨after, by rwa [Nat.zero_add], hc⟩
    · rintro ⟨after, hat, hc⟩
      exact ⟨_, List.mem_singleton_self _, rfl, n, after, (Nat.zero_add n).symm, hat, hc⟩

/-- Clause words are in capitals, and are keywords but no numbers. -/
structure AreKeywords (v : Vocabulary) (ws : List Text) : Prop where
  identifiers : AreIdentifiers ws
  upper : ∀ w ∈ ws, w.map Char.toUpper = w
  keywords : ∀ w ∈ ws, w ∈ v.keywords
  letters : ∀ w ∈ ws, ∃ c ∈ w, c.isDigit = false

theorem AreKeywords.mem_ofWords (h : AreKeywords v ws) {w : Text} :
    w ∈ WordSet.ofWords ws ↔ w ∈ ws := by
  rw [h.identifiers.mem_ofWords_iff]
  constructor
  · rintro ⟨u, hu, rfl⟩
    rwa [h.upper u hu]
  · exact fun hw => ⟨w, hw, h.upper w hw⟩

theorem AreKeywords.hasCategory (h : AreKeywords v ws) {w after : Text}
    (hw : ∀ c ∈ w, c.toNat < 128) (hmem : w.upper ∈ ws) : HasCategory v w after .keyword := by
  refine ⟨?_, h.keywords _ hmem⟩
  obtain ⟨d, hd, hdigit⟩ := h.letters _ hmem
  rw [upper_eq_map hw] at hd
  obtain ⟨c, hc, rfl⟩ := List.mem_map.1 hd
  refine ⟨c, hc, Bool.eq_false_iff.2 fun hcdigit => ?_⟩
  have hkept : c.toUpper.isDigit = true :=
    forall_ascii (P := fun c => c.isDigit = true → c.toUpper.isDigit = true) (by decide +kernel)
      (hw c hc) hcdigit
  rw [hkept] at hdigit
  cases hdigit

/-- In code, the clause words after white space are the keywords that name one. -/
theorem map_token_occurrences (h : AreKeywords v ws) (hs : ∀ c ∈ s, c.toNat < 128)
    (hcode : CodeText s none) : ((Clauses.ofWords ws).occurrences s).map ClauseMatch.token =
      (classifyPlaced v s).filter (startsClause ws s) := by
  let R (p q : Nat × Token) := p.1 < q.1
  have hirrefl : Std.Irrefl R := ⟨fun p => Nat.lt_irrefl p.1⟩
  have hantisymm : Std.Antisymm R := ⟨fun p q hpq hqp => absurd hpq (Nat.lt_asymm hqp)⟩
  have hoccurrence : ∀ m ∈ (Clauses.ofWords ws).occurrences s,
      IsClauseMatch ws s m.before m.blanks m.word m.rest := fun m hm =>
    (mem_occurrences_iff h.identifiers m s).1 hm
  have hmatches : (((Clauses.ofWords ws).occurrences s).map ClauseMatch.token).Pairwise R := by
    refine List.pairwise_map.2 ((pairwise_occurrences s).imp_of_mem fun {m m'} _ hm' hle => ?_)
    have hpos := List.length_pos_iff.2 (hoccurrence m' hm').nonempty
    simp only [R, ClauseMatch.token, ClauseMatch.stop, ClauseMatch.start] at hle ⊢
    omega
  have htokens : ((classifyPlaced v s).filter (startsClause ws s)).Pairwise R := by
    refine ((Token.pairwise_place 0 _).filter _).imp_of_mem fun {p q} hp _ hle => ?_
    obtain ⟨n, w, category⟩ := p
    obtain ⟨hp, hclause⟩ := List.mem_filter.1 hp
    obtain ⟨rfl, -⟩ := startsClause_iff.1 hclause
    obtain ⟨_, ⟨_, -, -, hword⟩, -⟩ := (mem_classifyPlaced_keyword_iff hcode).1 hp
    have hpos := List.length_pos_iff.2 hword.nonempty
    simp only [R] at hle ⊢
    omega
  refine List.Pairwise.eq_of_mem_iff hmatches htokens fun p => ?_
  obtain ⟨n, w, category⟩ := p
  rw [List.mem_filter, startsClause_iff, ← h.mem_ofWords]
  constructor
  · intro hp
    obtain ⟨m, hm, htoken⟩ := List.mem_map.1 hp
    obtain ⟨rfl, rfl, rfl⟩ : m.start = n ∧ m.word = w ∧ some .keyword = category := by
      simpa [ClauseMatch.token] using htoken
    obtain ⟨⟨after, hat⟩, hmem, hblank⟩ := (exists_isClauseMatch_iff h.identifiers hs).1
      ⟨m.before, m.blanks, m.rest, rfl, hoccurrence m hm⟩
    have hw : ∀ c ∈ m.word, c.toNat < 128 := fun c hc => hs c (hat.subset hc)
    exact ⟨(mem_classifyPlaced_keyword_iff hcode).2
      ⟨after, hat, h.hasCategory hw (h.mem_ofWords.1 hmem)⟩, rfl, hmem, hblank⟩
  · rintro ⟨hp, rfl, hmem, hblank⟩
    obtain ⟨after, hat, -⟩ := (mem_classifyPlaced_keyword_iff hcode).1 hp
    obtain ⟨u, b, r, rfl, hmatch⟩ := (exists_isClauseMatch_iff h.identifiers hs).2
      ⟨⟨after, hat⟩, hmem, hblank⟩
    exact List.mem_map.2 ⟨⟨u, b, w, r⟩, (mem_occurrences_iff h.identifiers _ s).2 hmatch, rfl⟩

/-! ## Agreement -/

/-- The white space before a clause word is more than a line feed. -/
theorem IsClauseMatch.blanks_ne (hws : AreIdentifiers ws) {u b w r : Text}
    (h : IsClauseMatch ws s u b w r) (hs : IsPieceText s) : b ≠ ['\n'] := by
  rintro rfl
  have hchain := hs.chain
  rw [h.text] at hchain
  obtain ⟨c, w, rfl⟩ := List.exists_cons_of_ne_nil (h.clause.ne_nil hws)
  have hblank := (List.isChain_append_cons_cons.1 hchain).2.1.2.2 rfl
  rw [h.clause.isBlank_head? hws c rfl] at hblank
  cases hblank

theorem areKeywords_standardClauseWords : AreKeywords .standard standardClauseWords where
  identifiers := areIdentifiers_standardClauseWords
  upper := by decide +kernel
  keywords := by decide +kernel
  letters := by
    have hall : standardClauseWords.all (·.any (!·.isDigit)) = true := by decide +kernel
    simpa using hall

/-- Only two of the standard clause words are functions as well. -/
theorem mem_callWords_standard {w : Text} :
    w ∈ (Clauses.ofWords standardClauseWords).callWords ↔
      w = "LEFT".toList ∨ w = "RIGHT".toList := by
  have hwords : (Clauses.ofWords standardClauseWords).callWords =
      ["LEFT".toList, "RIGHT".toList] := by decide +kernel
  rw [hwords, List.mem_cons, List.mem_singleton]

/-- Formatter and classifier agree on the clause words of an ASCII text. In each code piece the
formatter finds all clause words after white space and puts gaps in place of the white space.
They are the keywords there that name a clause word and have white space right before them. The
white space stays as it is where `LEFT` or `RIGHT` is followed by an opening bracket, and nowhere
else. -/
theorem occurrences_eq_keywords (s : Text) (hs : ∀ c ∈ s, c.toNat < 128) (p : Piece)
    (hp : p ∈ breakCommaPieces .standard 0 (pieces s)) (hcode : p.kind = .code) :
    let k := Clauses.ofWords LayoutOptions.standard.clauseWords
    (p.breakClauses k).text = k.substitute p.text 0 (k.occurrences p.text) ∧
      (∀ m, m ∈ k.occurrences p.text ↔
        IsClauseMatch standardClauseWords p.text m.before m.blanks m.word m.rest) ∧
      (k.occurrences p.text).map ClauseMatch.token =
        (classifyPlaced .standard p.text).filter (startsClause standardClauseWords p.text) ∧
      ∀ m ∈ k.occurrences p.text, k.gap m.blanks m.word m.rest = m.blanks ↔
        (m.word.upper = "LEFT".toList ∨ m.word.upper = "RIGHT".toList) ∧
          m.rest.head? = some '(' := by
  have hindent : LayoutOptions.standard.indent ≠ [] ∧
      ∀ c ∈ LayoutOptions.standard.indent, c = ' ' :=
    ⟨by decide, fun c => List.eq_of_mem_replicate⟩
  have hpiece := isPieceText_of_mem hs hindent hp hcode
  refine ⟨?_, fun m => mem_occurrences_iff areIdentifiers_standardClauseWords m p.text,
    map_token_occurrences areKeywords_standardClauseWords hpiece.ascii hpiece.codeText,
    fun m hm => ?_⟩
  · rw [Piece.breakClauses, if_pos hcode]
    exact breakLines_eq_substitute _ p.text
  · have hmatch := (mem_occurrences_iff areIdentifiers_standardClauseWords m p.text).1 hm
    have hne := hmatch.blanks_ne areIdentifiers_standardClauseWords hpiece
    rw [and_comm, ← mem_callWords_standard]
    unfold Clauses.gap
    split
    · next hcall => exact iff_of_true rfl hcall
    · next hcall => exact iff_of_false (Ne.symm hne) hcall

theorem occurrences_eq_keywords_calls :
    let s := "select left(a, 3), b from t right (x) left join ORDER_x or 'and' and y".toList
    let p : Piece :=
      ⟨.code, "select left(a, 3),\n    b from t right (x) left join ORDER_x or ".toList⟩
    let k := Clauses.ofWords LayoutOptions.standard.clauseWords
    (∀ c ∈ s, c.toNat < 128) ∧ p ∈ breakCommaPieces .standard 0 (pieces s) ∧ p.kind = .code ∧
      (p.breakClauses k).text = k.substitute p.text 0 (k.occurrences p.text) ∧
      (∀ m, m ∈ k.occurrences p.text ↔
        IsClauseMatch standardClauseWords p.text m.before m.blanks m.word m.rest) ∧
      (k.occurrences p.text).map ClauseMatch.token =
        (classifyPlaced .standard p.text).filter (startsClause standardClauseWords p.text) ∧
      ∀ m ∈ k.occurrences p.text, k.gap m.blanks m.word m.rest = m.blanks ↔
        (m.word.upper = "LEFT".toList ∨ m.word.upper = "RIGHT".toList) ∧
          m.rest.head? = some '(' := by
  intro s p k
  have hall : s.all (·.toNat < 128) = true := by decide +kernel
  have hs : ∀ c ∈ s, c.toNat < 128 := by simpa using hall
  have hp : p ∈ breakCommaPieces .standard 0 (pieces s) := by decide +kernel
  exact ⟨hs, hp, rfl, occurrences_eq_keywords s hs p hp rfl⟩

end SqlSnippet
