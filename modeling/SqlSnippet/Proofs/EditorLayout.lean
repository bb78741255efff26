import SqlSnippet.Editor.Server
import SqlSnippet.Proofs.Lines
import SqlSnippet.Proofs.OpenEnd

/-!
# Layout in an editor

The edit that lays a document out covers all of it, so an editor that applies it has the laid out
text (`applyEdits_layoutEdits`). The edit gives the text a line feed at its end if there was one
before. That is settled in one go and changes no token, unless the document ends with a line feed
that belongs to a string or block comment which is not closed : then the line feed is still there
after layout, and gets another one after it, each time that layout is asked for
(`layoutWanted_twice_iff`).
-/

namespace SqlSnippet

variable {o : LayoutOptions} {v : Vocabulary} {s : Text} {as : List Atom} {r : Region}

/-! ## Applying edits -/

/-- A text with an edit applied : what the range of the edit covers gives way to its text. -/
def TextEdit.apply (e : TextEdit) (s : Text) : Text :=
  s.take (Text.offsetOf s e.range.start) ++ e.text ++ s.drop (Text.offsetOf s e.range.stop)

/-- A text with edits applied, which are in the order of their ranges. The last one is applied
first, so that none moves what another one covers. -/
def applyEdits (es : List TextEdit) (s : Text) : Text :=
  es.foldr TextEdit.apply s

theorem offsetOf_zero (s : Text) : Text.offsetOf s .zero = 0 :=
  offsetOf_after (s := []) (t := s) nofun

theorem offsetOf_endOf (s : Text) : Text.offsetOf s (.endOf s) = s.length := by
  have h := offsetOf_after (s := s) (t := []) nofun
  rwa [List.append_nil, ← Position.endOf_eq] at h

/-- An editor that applies the edits has the laid out text. -/
theorem applyEdits_layoutEdits (o : LayoutOptions) (d : Document) :
    applyEdits (d.layoutEdits o) d.text = d.laidOut o := by
  unfold Document.layoutEdits
  dsimp only
  split
  · next h => exact h.symm
  · rw [applyEdits, List.foldr_cons, List.foldr_nil, TextEdit.apply, offsetOf_zero, offsetOf_endOf,
      List.take_zero, List.drop_length, List.nil_append, List.append_nil]

theorem layoutEdits_eq_nil_iff {d : Document} : d.layoutEdits o = [] ↔ d.laidOut o = d.text := by
  unfold Document.layoutEdits
  dsimp only
  split
  · next h => exact iff_of_true rfl h
  · next h => exact iff_of_false (List.cons_ne_nil _ _) h

/-! ## The end of a document -/

theorem EndsOpen.getLast? (h : EndsOpen s as r) : s.getLast? = r.text.getLast? := by
  rw [h.eq_append, List.getLast?_append_of_ne_nil _ h.text_ne_nil]

/-- Where a document does not end open with a line feed, its layout is settled in one go. -/
theorem laidOut_of_text_eq_laidOut (hk : (Clauses.ofWords o.clauseWords).IsSolid) {d e : Document}
    (he : e.text = d.laidOut o) (h : d.text.getLast? = some '\n' → unterminated d.text = []) :
    e.laidOut o = e.text := by
  rw [Document.laidOut, he, Document.laidOut]
  by_cases hends : (formatDocument o d.text).text ≠ [] ∧ d.text.getLast? = some '\n'
  · have hclosed := (unterminated_formatDocument o).2 (h hends.2)
    simp only [if_pos hends, formatDocument_lineFeed hk hclosed,
      text_formatDocument_formatDocument hk]
    exact if_pos ⟨hends.1, List.getLast?_concat⟩
  · simp only [if_neg hends, text_formatDocument_formatDocument hk]
    refine if_neg fun hstill => ?_
    by_cases hclosed : unterminated d.text = []
    · exact getLast?_formatDocument hclosed hstill.2
    · obtain ⟨as, r, hopen⟩ := exists_endsOpen hclosed
      obtain ⟨bs, hbs⟩ := hopen.exists_formatDocument o
      rw [hbs.getLast?, ← hopen.getLast?] at hstill
      exact hends hstill

theorem EndsOpen.laidOut {d : Document} (h : EndsOpen d.text as r)
    (hlast : d.text.getLast? = some '\n') :
    d.laidOut o = (formatDocument o d.text).text ++ ['\n'] := by
  obtain ⟨bs, hbs⟩ := h.exists_formatDocument o
  exact if_pos ⟨hbs.ne_nil, hlast⟩

/-- A document that ends open with a line feed gets another one, and ends open again. -/
theorem EndsOpen.laidOut_of_text_eq_laidOut (hk : (Clauses.ofWords o.clauseWords).IsSolid)
    {d e : Document} (he : e.text = d.laidOut o) (h : EndsOpen d.text as r)
    (hlast : d.text.getLast? = some '\n') :
    (∃ bs, EndsOpen e.text bs r.lineFeed) ∧ e.laidOut o = e.text ++ ['\n'] := by
  obtain ⟨bs, hbs⟩ := h.exists_formatDocument o
  rw [h.laidOut hlast] at he
  have hopen := hbs.lineFeed
  rw [← he] at hopen
  have hagain : e.text.getLast? = some '\n' := by
    rw [he]
    exact List.getLast?_concat
  refine ⟨⟨bs, hopen⟩, ?_⟩
  rw [hopen.laidOut hagain, he, hbs.formatDocument_lineFeed hk,
    text_formatDocument_formatDocument hk]

/-! ## Tokens -/

theorem wordUnits_formatDocument (v : Vocabulary) (o : LayoutOptions) (s : Text) :
    wordUnits v [] (outline (formatDocument o s).text) = wordUnits v [] (outline s) := by
  rw [formatDocument_text]
  split
  · exact wordUnits_formatScript v o s
  · exact wordUnits_formatText v o s

theorem squeeze_classify_laidOut (v : Vocabulary) {d : Document}
    (h : d.text.getLast? = some '\n' → unterminated d.text = []) :
    squeeze (classify v (d.laidOut o)) = squeeze (classify v d.text) := by
  rw [squeeze_classify_eq, squeeze_classify_eq]
  unfold Document.laidOut
  dsimp only
  split
  · next hends =>
    rw [outline_lineFeed ((unterminated_formatDocument o).2 (h hends.2)),
      wordUnits_formatDocument]
  · rw [wordUnits_formatDocument]

/-- A string or comment at the end of an outline is the last token. -/
theorem exists_wordUnits_append_literal (v : Vocabulary) (word : Text) (cs : List Cell) (g : Bool)
    (r : Region) :
    ∃ ts, wordUnits v word (cs ++ [⟨g, .literal r⟩]) = ts ++ r.tokens v := by
  induction cs generalizing word with
  | nil =>
    refine ⟨wordToken v word [], ?_⟩
    have hend : wordUnits v [] [] = [] := rfl
    rw [List.nil_append, wordUnits, hend, List.append_nil]
  | cons c cs ih =>
    obtain ⟨spaced, a⟩ := c
    cases a with
    | literal q =>
      obtain ⟨ts, hts⟩ := ih []
      exact ⟨wordToken v word [] ++ (q.tokens v ++ ts), by
        rw [List.cons_append, wordUnits, hts]; simp⟩
    | code c =>
      rw [List.cons_append, wordUnits]
      split
      · split
        · obtain ⟨ts, hts⟩ := ih [c]
          exact ⟨wordToken v word [c] ++ ts, by rw [hts, List.append_assoc]⟩
        · exact ih _
      · obtain ⟨ts, hts⟩ := ih []
        exact ⟨wordToken v word [c] ++ ⟨[c], none⟩ :: ts, by rw [hts]; simp⟩

theorem getLast?_joinPlain_append {t : Token} (ht : t.isPlain = false) (ts : List Token) :
    (joinPlain (ts ++ [t])).getLast? = some t := by
  induction ts with
  | nil => rfl
  | cons u us ih =>
    change (u.join (joinPlain (us ++ [t]))).getLast? = some t
    cases hrest : joinPlain (us ++ [t]) with
    | nil =>
      rw [hrest] at ih
      cases ih
    | cons w ws =>
      rw [hrest] at ih
      rw [Token.join]
      split
      · next hplain =>
        -- the token that `u` joins is plain, so it is not the last one
        rw [Bool.and_eq_true] at hplain
        cases ws with
        | nil =>
          obtain rfl : w = t := Option.some.inj ih
          exact absurd hplain.2 (Bool.eq_false_iff.1 ht)
        | cons x xs => rwa [List.getLast?_cons_cons] at ih ⊢
      · rwa [List.getLast?_cons_cons]

/-- What a text ends in without being closed is its last token. -/
theorem EndsOpen.getLast?_squeeze (v : Vocabulary) (h : EndsOpen s as r) :
    ∃ c, (squeeze (classify v s)).getLast? = some ⟨r.text, some c⟩ := by
  obtain ⟨c, hc⟩ : ∃ c, r.tokens v = [⟨r.text, some c⟩] := by
    have hfit := isFit_atoms s
    rw [h.atoms_eq] at hfit
    have hp := (isFit_append.1 hfit).2.1.1
    obtain ⟨kind, text, terminated⟩ := r
    cases kind with
    | code => cases hp
    | string => exact ⟨_, rfl⟩
    | lineComment => exact ⟨_, rfl⟩
    | blockComment => exact ⟨_, rfl⟩
  have houtline : outline s =
      outlineAfter false as ++ [⟨pendingAfter false as, .literal r⟩] := by
    rw [outline, h.atoms_eq, outlineAfter_append]
    rfl
  obtain ⟨ts, hts⟩ := exists_wordUnits_append_literal v [] (outlineAfter false as)
    (pendingAfter false as) r
  refine ⟨c, ?_⟩
  rw [squeeze_classify_eq, houtline, hts, hc, getLast?_joinPlain_append rfl]

theorem EndsOpen.squeeze_classify_laidOut_ne (v : Vocabulary)
    (hk : (Clauses.ofWords o.clauseWords).IsSolid) {d : Document} (h : EndsOpen d.text as r)
    (hlast : d.text.getLast? = some '\n') :
    squeeze (classify v (d.laidOut o)) ≠ squeeze (classify v d.text) := by
  intro heq
  obtain ⟨⟨bs, hbs⟩, -⟩ := h.laidOut_of_text_eq_laidOut hk
    (e := ⟨d.uri, d.laidOut o, d.version⟩) rfl hlast
  obtain ⟨c, hc⟩ := h.getLast?_squeeze v
  obtain ⟨c', hc'⟩ := hbs.getLast?_squeeze v
  rw [heq, hc] at hc'
  have hlength := congrArg (fun t => t.map fun t => t.text.length) hc'
  simp [Region.lineFeed] at hlength

/-! ## Requests -/

namespace Server

variable {server : Server} {uri : Text} {d : Document}

theorem handle_layoutWanted (w : EditorHost) (hd : server.document? uri = some d)
    (h : server.config.layout.checkIndent = .ok ()) :
    (server.handle w (.layoutWanted uri)).2.1 =
      .edits (d.layoutEdits server.config.layout) := by
  simp only [handle, hd, answerLayout, h]

/-- A change of a document leaves it with the new text, and the settings as they are. -/
theorem handle_changed (w : EditorHost) (version : Option Int) (text : Text) :
    (server.handle w (.changed uri version [text])).1.document? uri =
        some ⟨uri, text, version.getD 0⟩ ∧
      (server.handle w (.changed uri version [text])).1.config = server.config := by
  simp [handle, publish, keep, document?, close]

/-- Layout that is asked for, applied and asked for again. -/
theorem handle_layoutWanted_twice (w : EditorHost) (version : Option Int)
    (hd : server.document? uri = some d) (hindent : server.config.layout.checkIndent = .ok ()) :
    let text := d.laidOut server.config.layout
    let next := (server.handle w (.changed uri version [text])).1
    (server.handle w (.layoutWanted uri)).2.1 =
        .edits (d.layoutEdits server.config.layout) ∧
      ((next.handle w (.layoutWanted uri)).2.1 = .edits [] ↔
        Document.laidOut server.config.layout ⟨uri, text, version.getD 0⟩ = text) := by
  obtain ⟨hdocument, hconfig⟩ := @handle_changed server uri w version
    (d.laidOut server.config.layout)
  refine ⟨handle_layoutWanted w hd hindent, ?_⟩
  rw [handle_layoutWanted w hdocument (by rw [hconfig, hindent]), hconfig,
    Answer.edits.injEq, layoutEdits_eq_nil_iff]

end Server

/-- Layout of an open document changes no token, and is settled in one go : a second request on
the new text is answered without edits. Both fail where the document ends with a line feed inside
a string or block comment that is not closed, and only there. -/
theorem layoutWanted_twice_iff (w : EditorHost) (keywords functions : List Text)
    (version : Option Int) {server : Server} {uri : Text} {d : Document}
    (hd : server.document? uri = some d)
    (hindent : server.config.layout.checkIndent = .ok ())
    (hwords : ∀ w ∈ server.config.layout.clauseWords, ∀ c ∈ Text.trim w, isBlank c = false) :
    let v := Vocabulary.ofWords keywords functions
    ∃ es, (server.handle w (.layoutWanted uri)).2.1 = .edits es ∧
      let text := applyEdits es d.text
      let next := (server.handle w (.changed uri version [text])).1
      (squeeze (classify v text) = squeeze (classify v d.text) ↔
          (d.text.getLast? = some '\n' → unterminated d.text = [])) ∧
        ((next.handle w (.layoutWanted uri)).2.1 = .edits [] ↔
          (d.text.getLast? = some '\n' → unterminated d.text = [])) := by
  intro v
  have hk := isSolid_ofWords hwords
  obtain ⟨hfirst, hsecond⟩ := Server.handle_layoutWanted_twice w version hd hindent
  refine ⟨_, hfirst, ?_⟩
  dsimp only at hsecond ⊢
  rw [applyEdits_layoutEdits, hsecond]
  by_cases h : d.text.getLast? = some '\n' → unterminated d.text = []
  · exact ⟨iff_of_true (squeeze_classify_laidOut v h) h,
      iff_of_true (laidOut_of_text_eq_laidOut hk rfl h) h⟩
  · obtain ⟨hlast, hunclosed⟩ := Classical.not_imp.1 h
    obtain ⟨as, r, hopen⟩ := exists_endsOpen hunclosed
    have hagain := (hopen.laidOut_of_text_eq_laidOut hk
      (e := ⟨uri, d.laidOut server.config.layout, version.getD 0⟩) rfl hlast).2
    refine ⟨iff_of_false (hopen.squeeze_classify_laidOut_ne v hk hlast) h,
      iff_of_false (fun heq => ?_) h⟩
    rw [hagain] at heq
    cases List.append_right_eq_self.1 heq

theorem layoutWanted_twice_iff_standard :
    let w : EditorHost := ⟨.empty, [], fun uri => .ok (some uri)⟩
    let d : Document := ⟨"q".toList, "select a,b\r\nfrom t -- all\n".toList, 1⟩
    let server := (Server.start w.here none).keep d
    let v := Vocabulary.ofWords reservedWords builtinFunctions
    server.document? d.uri = some d ∧ server.config.layout.checkIndent = .ok () ∧
      (∀ w ∈ server.config.layout.clauseWords, ∀ c ∈ Text.trim w, isBlank c = false) ∧
      ∃ es, (server.handle w (.layoutWanted d.uri)).2.1 = .edits es ∧
        let text := applyEdits es d.text
        let next := (server.handle w (.changed d.uri (some 2) [text])).1
        (squeeze (classify v text) = squeeze (classify v d.text) ↔
            (d.text.getLast? = some '\n' → unterminated d.text = [])) ∧
          ((next.handle w (.layoutWanted d.uri)).2.1 = .edits [] ↔
            (d.text.getLast? = some '\n' → unterminated d.text = [])) :=
  ⟨rfl, rfl, isBlank_of_mem_standardClauseWords,
    layoutWanted_twice_iff _ _ _ _ rfl rfl isBlank_of_mem_standardClauseWords⟩

/-- A quote that is not closed, and a line feed : layout makes the string longer, and is not
settled after that. -/
theorem layoutWanted_open_string :
    let w : EditorHost := ⟨.empty, [], fun uri => .ok (some uri)⟩
    let d : Document := ⟨"q".toList, "'a\n".toList, 1⟩
    let server := (Server.start w.here none).keep d
    let v := Vocabulary.ofWords reservedWords builtinFunctions
    ∃ es, (server.handle w (.layoutWanted d.uri)).2.1 = .edits es ∧
      let text := applyEdits es d.text
      let next := (server.handle w (.changed d.uri (some 2) [text])).1
      squeeze (classify v text) ≠ squeeze (classify v d.text) ∧
        (next.handle w (.layoutWanted d.uri)).2.1 ≠ .edits [] := by
  intro w d server v
  have hopen : EndsOpen d.text [] ⟨.string, d.text, false⟩ :=
    endsOpen_quote (.char (by decide) (.char (by decide) .nil))
  have hk : (Clauses.ofWords server.config.layout.clauseWords).IsSolid :=
    isSolid_ofWords isBlank_of_mem_standardClauseWords
  obtain ⟨hfirst, hsecond⟩ := Server.handle_layoutWanted_twice w (some 2)
    (show server.document? d.uri = some d from rfl) rfl
  refine ⟨_, hfirst, ?_⟩
  dsimp only at hsecond ⊢
  rw [applyEdits_layoutEdits, Ne, Ne, hsecond, Option.getD_some]
  refine ⟨hopen.squeeze_classify_laidOut_ne v hk rfl, fun heq => ?_⟩
  rw [(hopen.laidOut_of_text_eq_laidOut hk
    (e := ⟨d.uri, d.laidOut server.config.layout, 2⟩) rfl rfl).2] at heq
  cases List.append_right_eq_self.1 heq

end SqlSnippet
