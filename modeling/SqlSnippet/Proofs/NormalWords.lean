import Mathlib.Data.List.Sort
import SqlSnippet.Proofs.TextLayout
import SqlSnippet.Proofs.UpperForms
import SqlSnippet.Settings.Config

/-!
# Normal words

A word in its normal form is in it for good : upper case is settled in one go, and makes no white
space at the ends of a word (`normalWord_normalWord`). A word set is ascending, so it is settled by
its members (`ofWords_congr`) : the set of a set is that set, and the set of two lists together has
the members of both sets. So classifier and formatter, which bring the words that they are given
into normal form themselves, can be given words or their sets (`wordSets_settled`).
-/

namespace SqlSnippet

/-! ## Words -/

/-- A normal word has no white space around it. -/
theorem trim_normalWord (w : Text) : Text.trim (normalWord w) = normalWord w :=
  trim_eq_self (isBlank_head?_upper (isBlank_head?_trim w))
    (isBlank_getLast?_upper (isBlank_getLast?_trim w))

/-- The normal form of a word is its own normal form. -/
theorem normalWord_normalWord (w : Text) : normalWord (normalWord w) = normalWord w := by
  rw [normalWord, trim_normalWord, normalWord, upper_upper]

theorem trim_ne_nil {w : Text} (hw : Text.isBlank w = false) : Text.trim w ≠ [] := by
  have hstart : Text.trimStart w ≠ [] := fun h =>
    Bool.false_ne_true (hw.symm.trans (Text.trimStart_eq_nil_iff.1 h))
  intro h
  rw [Text.trim, Text.trimEnd, List.reverse_eq_nil_iff, List.dropWhile_eq_nil_iff] at h
  -- the character that the word starts with after trimming is no white space
  have hhead := List.head?_dropWhile_not isBlank w
  rw [← Text.trimStart, List.head?_eq_some_head hstart] at hhead
  have hblank := h _ (List.mem_reverse.2 (List.head_mem hstart))
  exact Bool.false_ne_true (hhead.symm.trans hblank)

theorem upper_ne_nil {s : Text} (hs : s ≠ []) : Text.upper s ≠ [] := by
  obtain ⟨c, s, rfl⟩ := List.exists_cons_of_ne_nil hs
  rw [Text.upper_cons]
  exact List.append_ne_nil_of_left_ne_nil (upperChar_ne_nil c) _

/-- A word that is not blank has a normal form that is not blank. -/
theorem isBlank_normalWord {w : Text} (hw : Text.isBlank w = false) :
    Text.isBlank (normalWord w) = false := by
  have hne : normalWord w ≠ [] := upper_ne_nil (trim_ne_nil hw)
  have hhead := isBlank_head?_upper (isBlank_head?_trim w) _ (List.head?_eq_some_head hne)
  refine Bool.eq_false_iff.2 fun hall => ?_
  exact Bool.false_ne_true (hhead.symm.trans (List.all_eq_true.1 hall _ (List.head_mem hne)))

/-! ## Word sets -/

namespace WordSet

theorem pairwise_insert {w : Text} {s : WordSet} (h : s.Pairwise (· < ·)) :
    (WordSet.insert w s).Pairwise (· < ·) := by
  induction s with
  | nil => exact List.pairwise_singleton _ _
  | cons v vs ih =>
    obtain ⟨hv, hvs⟩ := List.pairwise_cons.1 h
    rw [WordSet.insert]
    split
    · next hlt =>
      refine List.pairwise_cons.2 ⟨fun u hu => ?_, h⟩
      rcases List.mem_cons.1 hu with rfl | hu
      · exact hlt
      · exact List.lt_trans hlt (hv u hu)
    · next hlt =>
      split
      · exact h
      · next hne =>
        refine List.pairwise_cons.2 ⟨fun u hu => ?_, ih hvs⟩
        rcases WordSet.mem_insert.1 hu with rfl | hu
        · exact List.not_le.1 fun hle => hne (List.le_antisymm hle (List.not_lt.1 hlt))
        · exact hv u hu

theorem pairwise_ofWords (ws : List Text) : (WordSet.ofWords ws).Pairwise (· < ·) := by
  rw [WordSet.ofWords]
  induction ws.filter (!Text.isBlank ·) with
  | nil => exact .nil
  | cons w ws ih => exact pairwise_insert ih

/-- A word set is settled by its members. -/
theorem ofWords_congr {ws us : List Text}
    (h : ∀ w, w ∈ WordSet.ofWords ws ↔ w ∈ WordSet.ofWords us) :
    WordSet.ofWords ws = WordSet.ofWords us :=
  (pairwise_ofWords ws).eq_of_mem_iff (pairwise_ofWords us) h

/-- The set of the words of a set is that set. -/
theorem ofWords_ofWords (ws : List Text) :
    WordSet.ofWords (WordSet.ofWords ws) = WordSet.ofWords ws := by
  refine ofWords_congr fun v => ?_
  rw [mem_ofWords]
  constructor
  · rintro ⟨w, hw, -, rfl⟩
    obtain ⟨u, hu, hblank, rfl⟩ := mem_ofWords.1 hw
    exact mem_ofWords.2 ⟨u, hu, hblank, (normalWord_normalWord u).symm⟩
  · intro hv
    obtain ⟨u, hu, hblank, rfl⟩ := mem_ofWords.1 hv
    exact ⟨normalWord u, hv, isBlank_normalWord hblank, normalWord_normalWord u⟩

theorem mem_ofWords_append {ws us : List Text} {w : Text} :
    w ∈ WordSet.ofWords (ws ++ us) ↔ w ∈ WordSet.ofWords ws ∨ w ∈ WordSet.ofWords us := by
  simp only [mem_ofWords, List.mem_append, or_and_right, exists_or]

end WordSet

/-! ## Classifier and formatter -/

theorem Vocabulary.ofWords_ofWords (keywords functions : List Text) :
    Vocabulary.ofWords (WordSet.ofWords keywords) (WordSet.ofWords functions) =
      .ofWords keywords functions := by
  rw [Vocabulary.ofWords, WordSet.ofWords_ofWords, WordSet.ofWords_ofWords]
  rfl

/-- A configuration has word sets already. -/
theorem Config.ofWords_vocabulary (c : Config) :
    Vocabulary.ofWords c.vocabulary.keywords c.vocabulary.functions = c.vocabulary := by
  have hwords : ∀ v ws us, v = Vocabulary.ofWords ws us →
      Vocabulary.ofWords v.keywords v.functions = v := by
    rintro _ ws us rfl
    exact Vocabulary.ofWords_ofWords ws us
  exact hwords c.vocabulary _ _ rfl

theorem Clauses.ofWords_ofWords (ws : List Text) :
    Clauses.ofWords (WordSet.ofWords ws) = Clauses.ofWords ws := by
  rw [Clauses.ofWords, WordSet.ofWords_ofWords]
  rfl

/-- Word sets are settled : the set of a set is that set, and the set of two lists together is the
union of their sets. So a text is classified, and a document laid out, by the words of a set as by
the words that the set was made of, as those of a configuration are. -/
theorem wordSets_settled (ws us : List Text) :
    WordSet.ofWords (WordSet.ofWords ws) = WordSet.ofWords ws ∧
    (∀ w, w ∈ WordSet.ofWords (ws ++ us) ↔ w ∈ WordSet.ofWords ws ∨ w ∈ WordSet.ofWords us) ∧
    (∀ s, classify (.ofWords (WordSet.ofWords ws) (WordSet.ofWords us)) s =
      classify (.ofWords ws us) s) ∧
    (∀ (c : Config) s, classify (.ofWords c.vocabulary.keywords c.vocabulary.functions) s =
      classify (.ofWords (reservedWords ++ textWords c.extraKeywords)
        (builtinFunctions ++ textWords c.extraFunctions)) s) ∧
    ∀ (o : LayoutOptions) s, formatDocument { o with clauseWords := WordSet.ofWords ws } s =
      formatDocument { o with clauseWords := ws } s := by
  refine ⟨WordSet.ofWords_ofWords ws, fun w => WordSet.mem_ofWords_append, fun s => ?_,
    fun c s => ?_, fun o s => ?_⟩
  · rw [Vocabulary.ofWords_ofWords]
  · rw [c.ofWords_vocabulary, Config.vocabulary]
  · refine formatDocument_congr_options ?_ ?_ ?_ s
    · rfl
    · exact Clauses.ofWords_ofWords ws
    · rfl

end SqlSnippet
