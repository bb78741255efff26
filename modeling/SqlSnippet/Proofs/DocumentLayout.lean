import SqlSnippet.Proofs.OutlineTokens
import SqlSnippet.Proofs.Statements
import SqlSnippet.Proofs.TextLayout

/-!
# Layout of documents

The two promises of layout, for a text as a whole and for a script statement by statement : it
keeps the tokens of what it lays out (`squeeze_classify_formatDocument`), and with clause words
that hold no white space it is done in one go (`formatDocument_formatDocument`).

Layout of a script keeps statements apart. A closed statement is laid out as a closed one
(`isClosed_formatText`) and the empty line in front of the next changes nothing in it, so the
statements of a script that has been laid out are the laid out statements with that line
(`statements_formatScript`, and for documents `statements_formatDocument`).
-/

namespace SqlSnippet

variable {o : LayoutOptions}

/-! ## White space in front -/

/-- White space in front of a text counts for its first cell only. -/
theorem unspaceFirst_outline_append {b : Text} (hb : ∀ c ∈ b, isBlank c = true) (t : Text) :
    unspaceFirst (outline (b ++ t)) = unspaceFirst (outline t) := by
  have hblank : ∀ a ∈ b.map Atom.code, a.isBlank = true := List.forall_mem_map.2 hb
  rw [outline, atoms_append_of_blank hb, ← outlineAfter_dropWhile,
    List.dropWhile_append_of_pos hblank, outlineAfter_dropWhile false]
  rfl

theorem settled_outline_append {b : Text} (hb : ∀ c ∈ b, isBlank c = true) (t : Text) :
    settled (outline (b ++ t)) = settled (outline t) := by
  rw [← settled_unspaceFirst, unspaceFirst_outline_append hb, settled_unspaceFirst]

theorem isClosed_append_of_blank {b : Text} (hb : ∀ c ∈ b, isBlank c = true) {t : Text}
    (ht : IsClosed t) : IsClosed (b ++ t) := by
  obtain ⟨as, has, hnot⟩ := ht
  refine ⟨b.map .code ++ as, ?_, fun h => ?_⟩
  · rw [atoms_append_of_blank hb, has, List.append_assoc]
  · rcases List.mem_append.1 h with h | h
    · exact semicolon_not_mem_of_blank hb h
    · exact hnot h

theorem isOpen_append_of_blank {b : Text} (hb : ∀ c ∈ b, isBlank c = true) {t : Text}
    (ht : IsOpen t) : IsOpen (b ++ t) := by
  obtain ⟨hnot, hblank⟩ := ht
  refine ⟨fun h => ?_, ?_⟩
  · rw [atoms_append_of_blank hb] at h
    rcases List.mem_append.1 h with h | h
    · exact semicolon_not_mem_of_blank hb h
    · exact hnot h
  · unfold Text.isBlank at hblank ⊢
    rw [List.all_append, hblank, Bool.and_false]

/-! ## Laid out statements -/

/-- Layout keeps the atoms that are not white space. -/
theorem filter_atoms_formatText (o : LayoutOptions) (t : Text) :
    (atoms (formatText o t)).filter (!·.isBlank) = (atoms t).filter (!·.isBlank) := by
  rw [← map_atom_outlineAfter false, ← map_atom_outlineAfter false (atoms t)]
  change (outline (formatText o t)).map Cell.atom = (outline t).map Cell.atom
  rw [outline_formatText, map_atom_settled]

theorem semicolon_mem_filter_iff {as : List Atom} :
    Atom.code ';' ∈ as.filter (!·.isBlank) ↔ Atom.code ';' ∈ as := by
  rw [List.mem_filter]
  exact and_iff_left (by decide)

theorem isClosed_formatText (o : LayoutOptions) {t : Text} (ht : IsClosed t) :
    IsClosed (formatText o t) := by
  obtain ⟨b, hb, hnot⟩ := ht
  have hfilter := filter_atoms_formatText o t
  have hlast : ∀ a ∈ (atoms (formatText o t)).getLast?, a.isBlank = false := by
    rw [atoms_formatText]
    exact isBlank_getLast?_trimAtoms _
  rw [hb, List.filter_append] at hfilter
  rcases List.eq_nil_or_concat (atoms (formatText o t)) with hnil | ⟨b', a, hconcat⟩
  · rw [hnil] at hfilter
    exact absurd hfilter.symm (List.append_ne_nil_of_right_ne_nil _ (List.cons_ne_nil _ _))
  · rw [List.concat_eq_append] at hconcat
    rw [hconcat, List.getLast?_concat] at hlast
    rw [hconcat, List.filter_append, List.filter_cons_of_pos (by simp [hlast a rfl])] at hfilter
    obtain ⟨hb', ha⟩ := List.append_inj' hfilter rfl
    obtain rfl := (List.cons.inj ha).1
    refine ⟨b', hconcat, fun h => hnot ?_⟩
    rw [← semicolon_mem_filter_iff] at h ⊢
    rwa [hb'] at h

theorem isOpen_formatText (o : LayoutOptions) {t : Text} (ht : IsOpen t) :
    IsOpen (formatText o t) := by
  obtain ⟨hnot, hblank⟩ := ht
  refine ⟨fun h => hnot ?_, Bool.eq_false_iff.2 fun h => ?_⟩
  · rw [← semicolon_mem_filter_iff] at h ⊢
    rwa [filter_atoms_formatText] at h
  · have hcells := map_atom_settled (outline t)
    rw [← outline_formatText o, outline_eq_nil_iff.2 h, List.map_nil, eq_comm,
      List.map_eq_nil_iff, outline_eq_nil_iff, hblank] at hcells
    cases hcells

/-! ## Scripts -/

/-- Texts with an empty line in front of each but the first. -/
def spaceOut : List Text → List Text
  | [] => []
  | t :: ts => t :: ts.map (['\n', '\n'] ++ ·)

theorem intercalate_eq_flatten_spaceOut (ts : List Text) :
    List.intercalate ['\n', '\n'] ts = (spaceOut ts).flatten := by
  induction ts with
  | nil => rfl
  | cons t ts ih =>
    cases ts with
    | nil => rfl
    | cons u us =>
      rw [List.intercalate_cons_cons, ih, spaceOut, spaceOut]
      simp

theorem isBlank_of_mem_newlines : ∀ c ∈ ['\n', '\n'], isBlank c = true :=
  List.forall_mem_cons.2 ⟨by decide, List.forall_mem_singleton.2 (by decide)⟩

theorem isScript_spaceOut {ts : List Text} (h : IsScript ts) : IsScript (spaceOut ts) := by
  cases h with
  | nil => exact .nil
  | last ht => exact .last ht
  | cons ht hts =>
    exact .cons ht (hts.map (fun _ => isClosed_append_of_blank isBlank_of_mem_newlines)
      fun _ => isOpen_append_of_blank isBlank_of_mem_newlines)

theorem isScript_map_formatText (o : LayoutOptions) (s : Text) :
    IsScript ((statements s).map (formatText o)) :=
  (isScript_statements s).map (fun _ => isClosed_formatText o) fun _ => isOpen_formatText o

/-- No statement of a script is laid out as nothing. -/
theorem formatScript_eq_flatten (o : LayoutOptions) (s : Text) :
    formatScript o s = (spaceOut ((statements s).map (formatText o))).flatten := by
  have hall : ∀ t ∈ (statements s).map (formatText o), (!t.isEmpty) = true := by
    intro t ht
    have hblank := (isScript_map_formatText o s).isBlank_of_mem t ht
    cases t with
    | nil => cases hblank
    | cons c t => rfl
  rw [formatScript, List.filter_eq_self.2 hall, intercalate_eq_flatten_spaceOut]

/-- The statements of a script that has been laid out. -/
theorem statements_formatScript (o : LayoutOptions) (s : Text) :
    statements (formatScript o s) = spaceOut ((statements s).map (formatText o)) := by
  rw [formatScript_eq_flatten, statements_flatten (isScript_spaceOut (isScript_map_formatText o s))]

theorem formatText_append_of_blank (hk : (Clauses.ofWords o.clauseWords).IsSolid) {b : Text}
    (hb : ∀ c ∈ b, isBlank c = true) (t : Text) : formatText o (b ++ t) = formatText o t := by
  rw [formatText_eq_render o _ hk, formatText_eq_render o t hk, settled_outline_append hb]

/-- With solid clause words, laying out a script that has been laid out changes nothing. -/
theorem formatScript_formatScript (o : LayoutOptions) (s : Text)
    (hk : (Clauses.ofWords o.clauseWords).IsSolid) :
    formatScript o (formatScript o s) = formatScript o s := by
  have hkept : ∀ ts : List Text, (∀ t ∈ ts, formatText o t = t) →
      (spaceOut ts).map (formatText o) = ts := by
    intro ts hts
    cases ts with
    | nil => rfl
    | cons t ts =>
      obtain ⟨ht, hts⟩ := List.forall_mem_cons.1 hts
      have hrest : ts.map (formatText o ∘ (['\n', '\n'] ++ ·)) = ts.map id :=
        List.map_congr_left fun u hu =>
          (formatText_append_of_blank hk isBlank_of_mem_newlines u).trans (hts u hu)
      rw [spaceOut, List.map_cons, List.map_map, ht, hrest, List.map_id]
  have hlaid : ∀ t ∈ (statements s).map (formatText o), formatText o t = t :=
    List.forall_mem_map.2 fun t _ => formatText_formatText o t hk
  rw [formatScript_eq_flatten o (formatScript o s), statements_formatScript, hkept _ hlaid,
    formatScript_eq_flatten]

/-! ## Tokens of a script -/

theorem wordUnits_append_semicolon {v : Vocabulary} (word : Text) (cs ds : List Cell) (g : Bool) :
    wordUnits v word (cs ++ ⟨g, .code ';'⟩ :: ds) =
      wordUnits v word (cs ++ [⟨g, .code ';'⟩]) ++ wordUnits v [] ds := by
  induction cs generalizing word with
  | nil =>
    have hsemicolon : isIdentChar ';' = false := by decide
    simp [wordUnits, hsemicolon, wordToken]
  | cons c cs ih =>
    obtain ⟨spaced, a⟩ := c
    cases a with
    | literal r =>
      rw [List.cons_append, List.cons_append, wordUnits, wordUnits, ih, List.append_assoc,
        List.append_assoc]
    | code c =>
      rw [List.cons_append, List.cons_append, wordUnits, wordUnits]
      split
      · split
        · rw [ih, List.append_assoc]
        · exact ih _
      · rw [ih, List.append_assoc]
        rfl

/-- The units of a text are those of its statements. -/
theorem wordUnits_statements (v : Vocabulary) (s : Text) :
    wordUnits v [] (outline s) = (statements s).flatMap fun t => wordUnits v [] (outline t) := by
  induction s using statementInduction with
  | hblank s h =>
    rw [statements_of_isBlank h, outline_eq_nil_iff.2 h]
    rfl
  | hopen t h =>
    rw [statements_of_isOpen h]
    exact (List.append_nil _).symm
  | hclosed t s h ih =>
    have hatoms := atoms_append h s
    rw [statements_append h, List.flatMap_cons, ← ih]
    obtain ⟨b, hb, -⟩ := h
    have hfirst : outline t = outlineAfter false b ++ [⟨pendingAfter false b, .code ';'⟩] := by
      rw [outline, hb, outlineAfter_append]
      rfl
    have hboth : outline (t ++ s) =
        outlineAfter false b ++ ⟨pendingAfter false b, .code ';'⟩ :: outline s := by
      rw [outline, hatoms, hb, List.append_assoc, outlineAfter_append]
      rfl
    rw [hboth, hfirst]
    exact wordUnits_append_semicolon _ _ _ _

theorem wordUnits_outline_append {v : Vocabulary} {b : Text} (hb : ∀ c ∈ b, isBlank c = true)
    (t : Text) : wordUnits v [] (outline (b ++ t)) = wordUnits v [] (outline t) := by
  rw [← wordUnits_unspaceFirst, unspaceFirst_outline_append hb, wordUnits_unspaceFirst]

theorem flatMap_spaceOut {α : Type} {f : Text → List α} (hf : ∀ t, f (['\n', '\n'] ++ t) = f t)
    (ts : List Text) : (spaceOut ts).flatMap f = ts.flatMap f := by
  cases ts with
  | nil => rfl
  | cons t ts =>
    rw [spaceOut, List.flatMap_cons, List.flatMap_cons, List.flatMap_map]
    exact congrArg (f t ++ ·) (List.flatMap_congr fun u _ => hf u)

theorem wordUnits_formatText (v : Vocabulary) (o : LayoutOptions) (t : Text) :
    wordUnits v [] (outline (formatText o t)) = wordUnits v [] (outline t) := by
  rw [outline_formatText, wordUnits_settled]

theorem wordUnits_formatScript (v : Vocabulary) (o : LayoutOptions) (s : Text) :
    wordUnits v [] (outline (formatScript o s)) = wordUnits v [] (outline s) := by
  rw [wordUnits_statements, wordUnits_statements v s, statements_formatScript,
    flatMap_spaceOut (wordUnits_outline_append isBlank_of_mem_newlines), List.flatMap_map]
  exact List.flatMap_congr fun t _ => wordUnits_formatText v o t

/-! ## The promises of layout -/

/-- Layout keeps every string, comment, keyword, function and number with its text, category and
place among the tokens, and the characters of the code between them, white space apart. -/
theorem squeeze_classify_formatDocument (v : Vocabulary) (o : LayoutOptions) (s : Text) :
    squeeze (classify v (formatDocument o s).text) = squeeze (classify v s) := by
  rw [squeeze_classify_eq, squeeze_classify_eq, formatDocument]
  dsimp only
  split
  · rw [wordUnits_formatScript]
  · rw [wordUnits_formatText]

/-- Where statements are laid out one by one, the statements of the result are those of the source,
each laid out on its own, with an empty line in front of each but the first. Layout leaves no
statement empty, cuts none in two and joins none to the next. -/
theorem statements_formatDocument (o : LayoutOptions) (s : Text) (h : o.splitStatements = true) :
    statements (formatDocument o s).text = spaceOut ((statements s).map (formatText o)) ∧
      ∀ t ∈ statements s,
        statements (formatText o t) = [formatText o t] ∧ formatText o t ≠ [] := by
  have hscript := isScript_map_formatText o s
  refine ⟨?_, fun t ht => ⟨?_, fun hnil => ?_⟩⟩
  · have htext : (formatDocument o s).text = formatScript o s := by
      unfold formatDocument
      exact if_pos h
    rw [htext, statements_formatScript]
  · exact hscript.statements_of_mem _ (List.mem_map_of_mem ht)
  · have hblank := hscript.isBlank_of_mem _ (List.mem_map_of_mem ht)
    rw [hnil] at hblank
    cases hblank

theorem statements_formatDocument_script :
    let s := "select a , b -- all; of\n; ; 'it''s;' , (c ; d) /* open".toList
    LayoutOptions.script.splitStatements = true ∧
      statements (formatDocument .script s).text =
        spaceOut ((statements s).map (formatText .script)) ∧
      ∀ t ∈ statements s, statements (formatText .script t) = [formatText .script t] ∧
        formatText .script t ≠ [] :=
  ⟨rfl, statements_formatDocument _ _ rfl⟩

/-- With clause words that hold no white space, layout of what has been laid out changes nothing
and says so. -/
theorem formatDocument_formatDocument (o : LayoutOptions) (s : Text)
    (h : ∀ w ∈ o.clauseWords, ∀ c ∈ Text.trim w, isBlank c = false) :
    (formatDocument o (formatDocument o s).text).text = (formatDocument o s).text ∧
      (formatDocument o (formatDocument o s).text).isChanged = false := by
  have hk := isSolid_ofWords h
  have htext : (formatDocument o (formatDocument o s).text).text =
      (formatDocument o s).text := by
    unfold formatDocument
    dsimp only
    split
    · exact formatScript_formatScript o s hk
    · exact formatText_formatText o s hk
  refine ⟨htext, ?_⟩
  change ((formatDocument o (formatDocument o s).text).text != _) = false
  rw [htext, bne_self_eq_false]

theorem formatDocument_formatDocument_script :
    let o : LayoutOptions := ⟨.spaces, 2, [" from ".toList, "and".toList], true⟩
    let s := "select a , b -- all; of\n from t; 'it''s;' , (c , d) /* open".toList
    (∀ w ∈ o.clauseWords, ∀ c ∈ Text.trim w, isBlank c = false) ∧
      (formatDocument o (formatDocument o s).text).text = (formatDocument o s).text ∧
      (formatDocument o (formatDocument o s).text).isChanged = false :=
  have hwords : ∀ w ∈ [" from ".toList, "and".toList], ∀ c ∈ Text.trim w, isBlank c = false := by
    have hall : [" from ".toList, "and".toList].all
        (fun w => (Text.trim w).all (!isBlank ·)) = true := by decide
    intro w hw c hc
    simpa using List.all_eq_true.1 (List.all_eq_true.1 hall w hw) c hc
  ⟨hwords, formatDocument_formatDocument _ _ hwords⟩

end SqlSnippet
