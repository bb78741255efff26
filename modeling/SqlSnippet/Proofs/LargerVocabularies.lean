import SqlSnippet.Proofs.Words
import SqlSnippet.Settings.Config

/-!
# Larger vocabularies

More words cut the tokens of a text finer and take nothing back (`Refines`) : every string, comment,
number and keyword stays as it is, a function stays one unless its name has become a keyword, and
tokens start and end at least where they did. `classify_refines` : this holds whenever all words
of one vocabulary are words of another, as those of the standard one are of every configuration.

A word keeps its category, or is promoted from function to keyword, as what the category asks of it
is asked of the vocabulary only in that the word be in it (`HasCategory.of_isPart`). As plain
tokens are never neighbours, each edge of a token is one of a token with a category or an end of
the text (`IsTokenEdge.cases`), so the edges need no more than that.
-/

namespace SqlSnippet

variable {v w : Vocabulary} {s : Text} {o n : Nat}

/-! ## Vocabularies -/

/-- All words of a vocabulary are words of another. -/
structure Vocabulary.IsPart (v w : Vocabulary) : Prop where
  keywords : v.keywords ⊆ w.keywords
  functions : v.functions ⊆ w.functions

theorem WordSet.ofWords_subset_append (ws us : List Text) :
    WordSet.ofWords ws ⊆ WordSet.ofWords (ws ++ us) := by
  intro u hu
  obtain ⟨x, hx, hword⟩ := WordSet.mem_ofWords.1 hu
  exact WordSet.mem_ofWords.2 ⟨x, List.mem_append_left us hx, hword⟩

theorem Vocabulary.isPart_ofWords_append (keywords functions : List Text)
    (extraKeywords extraFunctions : List Text) : (Vocabulary.ofWords keywords functions).IsPart
      (.ofWords (keywords ++ extraKeywords) (functions ++ extraFunctions)) :=
  ⟨WordSet.ofWords_subset_append keywords extraKeywords,
    WordSet.ofWords_subset_append functions extraFunctions⟩

/-- A configuration takes no words away. -/
theorem Config.isPart_vocabulary (c : Config) : Vocabulary.standard.IsPart c.vocabulary := by
  unfold Vocabulary.standard Config.vocabulary
  exact Vocabulary.isPart_ofWords_append _ _ _ _

/-- A word has the same category in a larger vocabulary, unless it was a function and is a
keyword there. -/
theorem HasCategory.of_isPart (h : v.IsPart w) {x after : Text} {c : Category}
    (hc : HasCategory v x after c) :
    HasCategory w x after c ∨ c = .function ∧ HasCategory w x after .keyword := by
  cases c with
  | number => exact Or.inl hc
  | keyword => exact Or.inl ⟨hc.1, h.keywords hc.2⟩
  | function =>
    obtain ⟨hletter, -, hfunction, hcall⟩ := hc
    by_cases hkeyword : x.upper ∈ w.keywords
    · exact Or.inr ⟨rfl, hletter, hkeyword⟩
    · exact Or.inl ⟨hletter, hkeyword, h.functions hfunction, hcall⟩
  | string => exact hc.elim
  | comment => exact hc.elim

/-! ## Edges of tokens -/

/-- A placed token starts or ends at the offset. -/
def IsTokenEdge (ps : List (Nat × Token)) (n : Nat) : Prop :=
  ∃ p ∈ ps, n = p.1 ∨ n = p.1 + p.2.text.length

theorem IsTokenEdge.cons {ps : List (Nat × Token)} (h : IsTokenEdge ps n) (p : Nat × Token) :
    IsTokenEdge (p :: ps) n := by
  obtain ⟨q, hq, hn⟩ := h
  exact ⟨q, List.mem_cons_of_mem p hq, hn⟩

theorem Token.length_flatten_cons (t : Token) (ts : List Token) :
    (Token.flatten (t :: ts)).length = t.text.length + (Token.flatten ts).length := by
  simp [Token.flatten]

/-- Tokens start and end where their text does. -/
theorem isTokenEdge_ends {ts : List Token} (hts : ts ≠ []) (o : Nat) :
    IsTokenEdge (Token.place o ts) o ∧
      IsTokenEdge (Token.place o ts) (o + (Token.flatten ts).length) := by
  obtain ⟨t, ts, rfl⟩ := List.exists_cons_of_ne_nil hts
  refine ⟨⟨(o, t), List.mem_cons_self, Or.inl rfl⟩, ?_⟩
  induction ts generalizing o t with
  | nil => exact ⟨(o, t), List.mem_cons_self, Or.inr (Token.length_flatten_cons t [] ▸ rfl)⟩
  | cons u us ih =>
    have hend := ih (o + t.text.length) u (List.cons_ne_nil u us)
    rw [Nat.add_assoc, ← Token.length_flatten_cons] at hend
    exact hend.cons _

/-- Where no two plain tokens are neighbours, an edge is an end of the text or the edge of a token
with a category. -/
theorem IsTokenEdge.cases {ts : List Token}
    (hts : ts.IsChain fun t u => ¬(t.isPlain = true ∧ u.isPlain = true))
    (h : IsTokenEdge (Token.place o ts) n) : n = o ∨ n = o + (Token.flatten ts).length ∨
      ∃ p ∈ Token.place o ts, p.2.isPlain = false ∧ (n = p.1 ∨ n = p.1 + p.2.text.length) := by
  induction ts generalizing o with
  | nil =>
    obtain ⟨p, hp, -⟩ := h
    cases hp
  | cons t ts ih =>
    obtain ⟨hnext, hts⟩ := List.isChain_cons.1 hts
    rw [Token.place, Token.length_flatten_cons]
    -- where the first token ends, it or the next one has a category, or the text ends
    have hseam : n = o + t.text.length → n = o + (t.text.length + (Token.flatten ts).length) ∨
        ∃ p ∈ (o, t) :: Token.place (o + t.text.length) ts,
          p.2.isPlain = false ∧ (n = p.1 ∨ n = p.1 + p.2.text.length) := by
      intro hn
      cases ht : t.isPlain with
      | false => exact Or.inr ⟨(o, t), List.mem_cons_self, ht, Or.inr hn⟩
      | true =>
        cases ts with
        | nil => exact Or.inl hn
        | cons u us =>
          have hu : u.isPlain = false := Bool.eq_false_iff.2 fun hu => hnext u rfl ⟨ht, hu⟩
          exact Or.inr ⟨(o + t.text.length, u), List.mem_cons_of_mem _ List.mem_cons_self, hu,
            Or.inl hn⟩
    obtain ⟨p, hp, hn⟩ := h
    rcases List.mem_cons.1 hp with rfl | hp
    · exact hn.imp_right hseam
    · rcases ih hts ⟨p, hp, hn⟩ with hstart | hend | ⟨q, hq, hedge⟩
      · exact Or.inr (hseam hstart)
      · exact Or.inr (Or.inl (hend.trans (Nat.add_assoc _ _ _)))
      · exact Or.inr (Or.inr ⟨q, List.mem_cons_of_mem _ hq, hedge⟩)

/-! ## Refinement -/

/-- The placed tokens `qs` of a text refine the placed tokens `ps` of it. -/
structure Refines (ps qs : List (Nat × Token)) : Prop where
  /-- What is no function keeps its place and its category. -/
  kept : ∀ n x c, c ≠ .function → (n, ⟨x, some c⟩) ∈ ps → (n, ⟨x, some c⟩) ∈ qs
  /-- A function can become a keyword. -/
  function : ∀ n x, (n, ⟨x, some .function⟩) ∈ ps →
    (n, ⟨x, some .function⟩) ∈ qs ∨ (n, ⟨x, some .keyword⟩) ∈ qs
  edges : ∀ n, IsTokenEdge ps n → IsTokenEdge qs n

/-- Words of a text stay words of it in a larger vocabulary. -/
theorem mem_classifyPlaced_of_isPart (h : v.IsPart w) {x : Text} {c : Category}
    (hp : (n, ⟨x, some c⟩) ∈ classifyPlaced v s) (hword : Token.isWord ⟨x, some c⟩ = true) :
    (n, ⟨x, some c⟩) ∈ classifyPlaced w s ∨
      c = .function ∧ (n, ⟨x, some .keyword⟩) ∈ classifyPlaced w s := by
  obtain ⟨q, hq, hk, m, after, hn, hat, hc⟩ := mem_classifyPlaced_iff.1 ⟨hp, hword⟩
  refine (hc.of_isPart h).imp (fun hc => ?_) (And.imp_right fun hc => ?_)
  · exact (mem_classifyPlaced_iff.2 ⟨q, hq, hk, m, after, hn, hat, hc⟩).1
  · exact (mem_classifyPlaced_iff.2 ⟨q, hq, hk, m, after, hn, hat, hc⟩).1

/-- Strings and comments do not depend on the vocabulary. -/
theorem mem_classifyPlaced_of_isLiteral {p : Nat × Token} (hp : p ∈ classifyPlaced v s)
    (hlit : p.2.isLiteral = true) (w : Vocabulary) : p ∈ classifyPlaced w s := by
  have hmem : p ∈ (classifyPlaced v s).filter (·.2.isLiteral) := List.mem_filter.2 ⟨hp, hlit⟩
  rw [filter_classifyPlaced, ← filter_classifyPlaced w] at hmem
  exact (List.mem_filter.1 hmem).1

/-- A token with a category keeps its edges in a larger vocabulary. -/
theorem isTokenEdge_of_isPart (h : v.IsPart w) {p : Nat × Token} (hp : p ∈ classifyPlaced v s)
    (hplain : p.2.isPlain = false) (hn : n = p.1 ∨ n = p.1 + p.2.text.length) :
    IsTokenEdge (classifyPlaced w s) n := by
  obtain ⟨m, x, category⟩ := p
  cases category with
  | none => cases hplain
  | some c =>
    by_cases hlit : Token.isLiteral ⟨x, some c⟩ = true
    · exact ⟨_, mem_classifyPlaced_of_isLiteral hp hlit w, hn⟩
    · have hword : Token.isWord ⟨x, some c⟩ = true := by
        cases c <;> first | rfl | exact absurd rfl hlit
      rcases mem_classifyPlaced_of_isPart h hp hword with hq | ⟨-, hq⟩
      · exact ⟨_, hq, hn⟩
      · exact ⟨_, hq, hn⟩

/-- A larger vocabulary refines the tokens of a text. -/
theorem refines_of_isPart (h : v.IsPart w) (s : Text) :
    Refines (classifyPlaced v s) (classifyPlaced w s) := by
  refine ⟨fun n x c hc hp => ?_, fun n x hp => ?_, fun n hn => ?_⟩
  · cases c with
    | function => exact absurd rfl hc
    | keyword => exact (mem_classifyPlaced_of_isPart h hp rfl).resolve_right fun hq => hc hq.1
    | number => exact (mem_classifyPlaced_of_isPart h hp rfl).resolve_right fun hq => hc hq.1
    | string => exact mem_classifyPlaced_of_isLiteral hp rfl w
    | comment => exact mem_classifyPlaced_of_isLiteral hp rfl w
  · exact (mem_classifyPlaced_of_isPart h hp rfl).imp_right And.right
  · have hne : classify w s ≠ [] := by
      intro hnil
      have hs : s = [] := by rw [← flatten_classify w s, hnil]; rfl
      obtain ⟨p, hp, -⟩ := hn
      rw [hs, classifyPlaced, classify, scan_nil] at hp
      cases hp
    obtain ⟨hstart, hend⟩ := isTokenEdge_ends hne 0
    have hlength : (Token.flatten (classify w s)).length =
        (Token.flatten (classify v s)).length := by rw [flatten_classify, flatten_classify]
    rcases hn.cases (isChain_joinPlain _) with rfl | rfl | ⟨p, hp, hplain, hn⟩
    · exact hstart
    · rw [hlength] at hend
      exact hend
    · exact isTokenEdge_of_isPart h hp hplain hn

/-- More words only refine the tokens of a text, and so do the extra words of a configuration
beside the standard ones. -/
theorem classify_refines (s : Text) :
    (∀ keywords functions keywords' functions' : List Text,
      WordSet.ofWords keywords ⊆ WordSet.ofWords keywords' →
      WordSet.ofWords functions ⊆ WordSet.ofWords functions' →
      Refines (classifyPlaced (.ofWords keywords functions) s)
        (classifyPlaced (.ofWords keywords' functions') s)) ∧
    ∀ c : Config, Refines (classifyPlaced .standard s) (classifyPlaced c.vocabulary s) :=
  ⟨fun _ _ _ _ hkeywords hfunctions => refines_of_isPart ⟨hkeywords, hfunctions⟩ s,
    fun c => refines_of_isPart c.isPart_vocabulary s⟩

theorem classify_refines_promoted :
    let s := "Select f (x), 12 -- f".toList
    let keywords := [" select".toList]
    let functions := ["f".toList]
    let keywords' := ["F".toList, "SELECT".toList]
    let functions' := ["F ".toList, "g".toList]
    WordSet.ofWords keywords ⊆ WordSet.ofWords keywords' ∧
      WordSet.ofWords functions ⊆ WordSet.ofWords functions' ∧
      Refines (classifyPlaced (.ofWords keywords functions) s)
        (classifyPlaced (.ofWords keywords' functions') s) :=
  have hkeywords : WordSet.ofWords [" select".toList] ⊆
      WordSet.ofWords ["F".toList, "SELECT".toList] := by decide
  have hfunctions : WordSet.ofWords ["f".toList] ⊆
      WordSet.ofWords ["F ".toList, "g".toList] := by decide
  ⟨hkeywords, hfunctions, (classify_refines _).1 _ _ _ _ hkeywords hfunctions⟩

end SqlSnippet
