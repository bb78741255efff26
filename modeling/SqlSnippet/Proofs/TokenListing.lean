import SqlSnippet.Command.Listing
import SqlSnippet.Proofs.JsonReading
import SqlSnippet.Proofs.RenderedSources

/-!
# Listings that are read back

A listing has a line for each token, and cutting each line at its first tab gives back what the
token is called and its text (`ReadsBack`, `readsBack_listingBy`). As JSON it is read as the list
of the tokens (`read_jsonListing`). What a run lists are the tokens of the texts of its sources, and
they cover these texts (`tokens_readable`).
-/

namespace SqlSnippet

/-! ## Lines -/

/-- The lines of a text, each of which may end in any line break. -/
def brokenLines (s : Text) : List Text :=
  let parts := s.splitOnP (· ∈ lineBreaks)
  if parts.getLast? = some [] then parts.dropLast else parts

/-- Lines that are put together with a line feed after each fall apart again. -/
theorem brokenLines_flatMap {ls : List Text} (h : ∀ l ∈ ls, ∀ c ∈ l, c ∉ lineBreaks) :
    brokenLines (ls.flatMap (· ++ ['\n'])) = ls := by
  have hsplit : (ls.flatMap (· ++ ['\n'])).splitOnP (· ∈ lineBreaks) = ls ++ [[]] := by
    induction ls with
    | nil => rfl
    | cons l ls ih =>
      obtain ⟨hl, hls⟩ := List.forall_mem_cons.1 h
      rw [List.flatMap_cons, List.append_assoc, List.singleton_append,
        List.splitOnP_append_cons_of_forall_mem (fun c hc => decide_eq_false (hl c hc)) _
          (by decide), ih hls]
      rfl
  unfold brokenLines
  rw [hsplit]
  dsimp only
  rw [List.getLast?_concat, if_pos rfl, List.dropLast_concat]

/-- Read a line : what stands before its first tab, and the text that the literal after it shows. -/
def readLine? (l : Text) : Option (Text × Text) :=
  (unquoted (l.dropWhile (· ≠ '\t')).tail).map (l.takeWhile (· ≠ '\t'), ·)

/-- Read the lines of a listing. -/
def readListing? (s : Text) : Option (List (Text × Text)) :=
  (brokenLines s).mapM readLine?

theorem readLine?_append {label x s : Text} (hlabel : '\t' ∉ label) (h : unquoted x = some s) :
    readLine? (label ++ '\t' :: x) = some (label, s) := by
  have hbefore : ∀ c ∈ label, decide (c ≠ '\t') = true := fun c hc =>
    decide_eq_true fun heq => hlabel (heq ▸ hc)
  unfold readLine?
  rw [List.takeWhile_append_of_pos hbefore, List.dropWhile_append_of_pos hbefore,
    List.takeWhile_cons_of_neg (by decide), List.dropWhile_cons_of_neg (by decide), List.tail_cons,
    h, List.append_nil]
  rfl

/-! ## Tokens on lines -/

namespace Token

/-- A token as it is listed : what it is called, and its text. -/
def entry (t : Token) : Text × Text :=
  (t.label.toList, t.text)

/-- A token on one line, where `printable` says which characters are shown as they are. -/
def lineBy (printable : Char → Bool) (t : Token) : Text :=
  t.label.toList ++ '\t' :: quotedBy printable t.text

theorem line_eq (t : Token) : t.line = t.lineBy isPrintable ++ ['\n'] := by
  rw [line, lineBy, quoted_eq_quotedBy, List.append_assoc _ ['\t'], List.singleton_append]

theorem not_mem_of_mem_label (t : Token) {c : Char} (h : c ∈ t.label.toList) :
    c ∉ lineBreaks ∧ c ≠ '\t' := by
  have hplain : "plain".toList.all (fun c => c ∉ lineBreaks ∧ c ≠ '\t') = true := by decide
  have hnames : ∀ k : Category,
      k.name.toList.all (fun c => c ∉ lineBreaks ∧ c ≠ '\t') = true := by
    intro k
    cases k <;> decide
  obtain ⟨x, category⟩ := t
  cases category with
  | none => exact decide_eq_true_iff.1 (List.all_eq_true.1 hplain c h)
  | some k => exact decide_eq_true_iff.1 (List.all_eq_true.1 (hnames k) c h)

theorem readLine?_lineBy (printable : Char → Bool) (t : Token) :
    readLine? (t.lineBy printable) = some t.entry :=
  readLine?_append (fun h => (t.not_mem_of_mem_label h).2 rfl) (unquoted_quotedBy printable t.text)

theorem not_mem_lineBreaks_of_mem_lineBy {printable : Char → Bool} {t : Token} {c : Char}
    (hprintable : ∀ c ∈ lineBreaks, printable c = false) (h : c ∈ t.lineBy printable) :
    c ∉ lineBreaks := by
  rw [lineBy, List.mem_append, List.mem_cons] at h
  rcases h with h | rfl | h
  · exact (t.not_mem_of_mem_label h).1
  · decide
  · exact not_mem_lineBreaks_of_mem_quotedBy hprintable h

end Token

/-- There is a line for each token, and what they are called and their texts are read back. -/
structure ReadsBack (listing : Text) (ts : List Token) : Prop where
  lines : (brokenLines listing).length = ts.length
  entries : readListing? listing = some (ts.map Token.entry)

/-- Tokens on lines, where `printable` says which characters are shown as they are. -/
def listingBy (printable : Char → Bool) (ts : List Token) : Text :=
  ts.flatMap fun t => t.lineBy printable ++ ['\n']

theorem flatMap_line_eq (ts : List Token) : ts.flatMap Token.line = listingBy isPrintable ts := by
  rw [listingBy, ← funext Token.line_eq]

/-- Tokens on lines are read back, if line breaks are not shown as they are. -/
theorem readsBack_listingBy {printable : Char → Bool}
    (hprintable : ∀ c ∈ lineBreaks, printable c = false) (ts : List Token) :
    ReadsBack (listingBy printable ts) ts := by
  have hbroken : brokenLines (listingBy printable ts) = ts.map (Token.lineBy printable) := by
    rw [listingBy, ← List.flatMap_map (Token.lineBy printable) (· ++ ['\n'])]
    exact brokenLines_flatMap <| List.forall_mem_map.2 fun t _ c hc =>
      Token.not_mem_lineBreaks_of_mem_lineBy hprintable hc
  constructor
  · rw [hbroken, List.length_map]
  · rw [readListing?, hbroken, List.mapM_map]
    have hread : readLine? ∘ Token.lineBy printable = fun t => pure t.entry :=
      funext (Token.readLine?_lineBy printable)
    rw [hread, List.mapM_pure]
    rfl

/-! ## Tokens as JSON -/

namespace Token

/-- What a category is called in JSON. -/
def jsonCategory (t : Token) : Value :=
  match t.category with
  | none => .null
  | some c => .text (Text.loose c.name.toList)

/-- A token as a value. -/
def value (t : Token) : Value :=
  .table [(Text.loose "text".toList, .text t.text.loose),
    (Text.loose "category".toList, t.jsonCategory)]

/-- What a category is called, as JSON is written. -/
def writtenCategory (t : Token) : Text :=
  match t.category with
  | none => "null".toList
  | some c => Json.writeString c.name.toList

/-- A token as an item of a JSON array, after the indent of its first line. -/
def tableText (t : Token) : Text :=
  '\x7b' :: ("\n    ".toList ++ (Json.writeString "text".toList ++ (": ".toList ++
    (Json.writeString t.text ++ (",\n    ".toList ++ (Json.writeString "category".toList ++
      (": ".toList ++ (t.writtenCategory ++ "\n  \x7d".toList))))))))

theorem jsonItem_eq (t : Token) : t.jsonItem = ' ' :: ' ' :: t.tableText := by
  have htext : "  \x7b\n    \"text\": ".toList = ' ' :: ' ' :: '\x7b' ::
      ("\n    ".toList ++ (Json.writeString "text".toList ++ ": ".toList)) := by
    rfl
  have hcategory : ",\n    \"category\": ".toList =
      ",\n    ".toList ++ (Json.writeString "category".toList ++ ": ".toList) := by
    rfl
  unfold jsonItem tableText
  dsimp only
  rw [htext, hcategory]
  simp only [List.append_assoc, List.cons_append]
  rfl

theorem readsAs_writtenCategory (steps depth : Nat) (t : Token) :
    Json.ReadsAs (steps + 1) depth t.writtenCategory t.jsonCategory := by
  unfold writtenCategory jsonCategory
  cases t.category with
  | none => exact Json.readsAs_null steps depth
  | some c => exact Json.readsAs_writeString steps depth c.name.toList

/-- The item of a token is read as the token. -/
theorem readsAs_tableText (steps depth : Nat) (t : Token) :
    Json.ReadsAs (steps + 4) (depth + 1) t.tableText t.value where
  start rest := Json.skipSpace_cons (by decide)
  value rest := by
    simp only [tableText, List.cons_append, List.append_assoc]
    rw [Json.readValue_table rfl,
      Json.readEntries_entry_comma (Json.readsAs_writeString (steps + 1) depth t.text),
      Json.readEntries_entry_end (t.readsAs_writtenCategory steps depth)]
    rfl

theorem skipSpace_jsonItem (t : Token) (r : Text) :
    Json.skipSpace (t.jsonItem ++ r) = t.tableText ++ r := by
  rw [jsonItem_eq]
  exact (readsAs_tableText 0 0 t).start r

/-- The items of a JSON array, with commas between them. -/
def itemsText (ts : List Token) : Text :=
  List.intercalate ",\n".toList (ts.map jsonItem)

theorem itemsText_singleton (t : Token) : itemsText [t] = t.jsonItem :=
  List.intercalate_singleton

theorem itemsText_cons_cons (t u : Token) (us : List Token) :
    itemsText (t :: u :: us) = t.jsonItem ++ (",\n".toList ++ itemsText (u :: us)) := by
  rw [itemsText, List.map_cons, List.map_cons, List.intercalate_cons_cons, List.append_assoc,
    ← List.map_cons, itemsText]

theorem length_le_length_itemsText (ts : List Token) : ts.length ≤ (itemsText ts).length := by
  induction ts with
  | nil => exact Nat.zero_le _
  | cons t ts ih =>
    cases ts with
    | nil =>
      rw [itemsText_singleton, jsonItem_eq]
      exact Nat.succ_le_succ (Nat.zero_le _)
    | cons u us =>
      rw [itemsText_cons_cons, jsonItem_eq]
      simp only [List.length_append, List.length_cons] at ih ⊢
      omega

theorem head?_skipSpace_itemsText {ts : List Token} (hne : ts ≠ []) (r : Text) :
    (Json.skipSpace (itemsText ts ++ r)).head? = some '\x7b' := by
  cases ts with
  | nil => exact absurd rfl hne
  | cons t ts =>
    cases ts with
    | nil =>
      rw [itemsText_singleton, skipSpace_jsonItem]
      rfl
    | cons u us =>
      rw [itemsText_cons_cons, List.append_assoc, skipSpace_jsonItem]
      rfl

/-- The items of an array are read as the tokens. The reader takes a step for each item, and four
to go into an item and along its entries. -/
theorem readItems_itemsText {ts : List Token} (hne : ts ≠ []) {steps : Nat}
    (hsteps : ts.length + 4 ≤ steps) (depth : Nat) (rest : Text) :
    Json.readItems steps (depth + 1)
      (Json.skipSpace (itemsText ts ++ ("\n]".toList ++ rest))) = .ok (ts.map value, rest) := by
  induction ts generalizing steps with
  | nil => exact absurd rfl hne
  | cons t ts ih =>
    rw [List.length_cons] at hsteps
    obtain ⟨k, rfl⟩ : ∃ k, steps = k + 5 := ⟨steps - 5, by omega⟩
    have hitem := readsAs_tableText k depth t
    cases ts with
    | nil =>
      rw [itemsText_singleton, skipSpace_jsonItem, Json.readItems_item_end hitem]
      rfl
    | cons u us =>
      have htail : (u :: us).length + 4 ≤ k + 4 := by omega
      rw [itemsText_cons_cons, List.append_assoc, List.append_assoc, skipSpace_jsonItem,
        Json.readItems_item_comma hitem, ih (List.cons_ne_nil u us) htail]
      rfl

end Token

theorem jsonListing_eq {ts : List Token} (hne : ts ≠ []) : jsonListing ts =
    '[' :: '\n' :: (Token.itemsText ts ++ ("\n]".toList ++ ['\n'])) := by
  rw [jsonListing, if_neg (mt List.isEmpty_iff.1 hne), List.append_assoc]
  rfl

/-- A listing as JSON is read as the list of the tokens. -/
theorem read_jsonListing (ts : List Token) :
    Json.read (jsonListing ts) = .ok (.list (ts.map Token.value)) := by
  by_cases hne : ts = []
  · rw [hne]
    rfl
  have hlisting := jsonListing_eq hne
  have hsteps : ts.length + 4 ≤ 2 * (jsonListing ts).length + 1 := by
    have := Token.length_le_length_itemsText ts
    rw [hlisting, List.length_cons, List.length_cons, List.length_append]
    omega
  have hitems := Token.readItems_itemsText hne hsteps 987 ['\n']
  have hopening := Token.head?_skipSpace_itemsText hne ("\n]".toList ++ ['\n'])
  generalize jsonListing ts = listing at *
  generalize Token.itemsText ts ++ ("\n]".toList ++ ['\n']) = r at *
  have hread : Json.readValue (2 * listing.length + 2) Json.maxDepth listing =
      .ok (.list (ts.map Token.value), ['\n']) := by
    have hspace : Json.skipSpace ('\n' :: r) = Json.skipSpace r := rfl
    rw [Json.maxDepth]
    nth_rewrite 2 [hlisting]
    rw [Json.readValue_list (by rw [hspace, hopening]; decide), hspace, hitems]
    rfl
  have hstart : Json.skipSpace listing = listing := by
    rw [hlisting]
    rfl
  have hmark : listing.head? ≠ some '\ufeff' := by
    rw [hlisting]
    exact fun h => absurd (Option.some.inj h) (by decide)
  rw [Json.read, if_neg hmark, hstart, hread]
  rfl

/-! ## Runs -/

variable {w : Surroundings} {least : Severity} {c : Config} {path : Text} {asJson : Bool}
  {s s' : Session} {sources xs : List Text} {code : Nat}

/-- The tokens of texts, in order. -/
def tokensOf (c : Config) (xs : List Text) : List Token :=
  xs.flatMap (classify c.vocabulary)

theorem flatten_tokensOf (c : Config) (xs : List Text) :
    Token.flatten (tokensOf c xs) = xs.flatten := by
  rw [Token.flatten, tokensOf, List.flatMap_assoc, ← List.flatMap_id]
  exact congrArg (xs.flatMap ·) (funext (flatten_classify c.vocabulary))

/-- How tokens are listed. -/
def listingOf (asJson : Bool) (ts : List Token) : Text :=
  if asJson then jsonListing ts else ts.flatMap Token.line

theorem exists_run_sourceTokens (w : Surroundings) (least : Severity) (c : Config)
    (sources : List Text) (s : Session) :
    ∃ s', (sources.mapM (sourceTokens w least c)).run s =
        ((sourceTexts s.tree w.here s.input sources).map (List.map (classify c.vocabulary)), s') ∧
      OnlyLogs w.clock s s' := by
  have hjob : sourceTokens w least c =
      makeOfSource w least (fun _ x => scanNotes x) (classify c.vocabulary) := rfl
  rw [hjob]
  exact exists_run_mapM_makeOfSource (fun _ _ _ => severity_of_mem_scanNotes) w least _ sources s

/-- Where the texts of the sources are read, their tokens are listed. -/
theorem exists_yields_tokensJob (least : Severity) (asJson : Bool)
    (h : collectSources s.tree w.here [path] = .ok sources)
    (hread : sourceTexts s.tree w.here s.input sources = .ok xs) :
    ∃ s', (tokensJob w least c path asJson).Yields s 0 s' ∧
      s'.out = s.out ++ listingOf asJson (tokensOf c xs) := by
  obtain ⟨s₁, hrun, hlogs⟩ := exists_run_sourceTokens w least c sources s
  rw [hread] at hrun
  have hyields : (sources.mapM (sourceTokens w least c)).Yields s
    (xs.map (classify c.vocabulary)) s₁ := hrun
  refine ⟨{ s₁ with out := s₁.out ++ listingOf asJson (tokensOf c xs) },
    (Job.yields_get s).bind ?_, by rw [hlogs.out]⟩
  rw [h]
  exact (Job.yields_ofExcept _ s).bind (hyields.bind rfl)

/-- A listing that succeeds has read the texts of all sources. -/
theorem exists_sourceTexts_of_yields_tokensJob
    (h : (tokensJob w least c path asJson).Yields s code s') :
    ∃ sources xs, collectSources s.tree w.here [path] = .ok sources ∧
      sourceTexts s.tree w.here s.input sources = .ok xs := by
  cases hsources : collectSources s.tree w.here [path] with
  | error failure =>
    have hfails : (tokensJob w least c path asJson).Fails s failure s := by
      refine (Job.yields_get s).bind_fails ?_
      rw [hsources]
      exact (Job.fails_ofExcept failure s).bind _
    cases hfails.symm.trans h
  | ok sources =>
    cases hread : sourceTexts s.tree w.here s.input sources with
    | error failure =>
      obtain ⟨s₁, hrun, -⟩ := exists_run_sourceTokens w least c sources s
      rw [hread] at hrun
      have hstop : (sources.mapM (sourceTokens w least c)).Fails s failure s₁ := hrun
      have hfails : (tokensJob w least c path asJson).Fails s failure s₁ := by
        refine (Job.yields_get s).bind_fails ?_
        rw [hsources]
        exact (Job.yields_ofExcept _ s).bind_fails (hstop.bind _)
      cases hfails.symm.trans h
    | ok xs => exact ⟨sources, xs, rfl, hread⟩

/-- A listing of the tokens of texts that can be read back : its lines, whatever is shown of the
characters that break no line, and its JSON. The tokens cover the texts. -/
structure IsReadable (c : Config) (asJson : Bool) (xs : List Text) (listing : Text) : Prop where
  lines : asJson = false → listing = listingBy isPrintable (tokensOf c xs) ∧
    ReadsBack listing (tokensOf c xs)
  anyPrintable : ∀ printable : Char → Bool, (∀ b ∈ lineBreaks, printable b = false) →
    ReadsBack (listingBy printable (tokensOf c xs)) (tokensOf c xs)
  json : asJson = true → Json.read listing = .ok (.list ((tokensOf c xs).map Token.value))
  covers : Token.flatten (tokensOf c xs) = xs.flatten

theorem isReadable_listingOf (c : Config) (asJson : Bool) (xs : List Text) :
    IsReadable c asJson xs (listingOf asJson (tokensOf c xs)) where
  lines h := by
    have hlisting : listingOf asJson (tokensOf c xs) = listingBy isPrintable (tokensOf c xs) := by
      rw [h]
      exact flatMap_line_eq _
    rw [hlisting]
    exact ⟨rfl, readsBack_listingBy not_isPrintable_of_mem_lineBreaks _⟩
  anyPrintable _ h := readsBack_listingBy h _
  json h := by
    rw [h]
    exact read_jsonListing _
  covers := flatten_tokensOf c xs

/-- What a run lists can be read back as the tokens of the texts of its sources. -/
theorem tokens_readable (h : (tokensJob w least c path asJson).Yields s code s') :
    ∃ sources xs listing, collectSources s.tree w.here [path] = .ok sources ∧
      sourceTexts s.tree w.here s.input sources = .ok xs ∧ s'.out = s.out ++ listing ∧
      IsReadable c asJson xs listing := by
  obtain ⟨sources, xs, hsources, hread⟩ := exists_sourceTexts_of_yields_tokensJob h
  obtain ⟨s₁, hyields, hout⟩ := exists_yields_tokensJob least asJson hsources hread
  obtain rfl : s' = s₁ := congrArg Prod.snd (h.symm.trans hyields)
  exact ⟨sources, xs, _, hsources, hread, hout, isReadable_listingOf c asJson xs⟩

/-- A text with both quotes, a tab and a character that is not printable. -/
theorem tokens_readable_quotes :
    let w : Surroundings := ⟨[], .empty, "", "", fun _ => "", none⟩
    let c := Config.standard ⟨1, []⟩
    let q := "q.sql".toList
    let x := "SELECT '\"\t\u2028'".toList
    let s := Session.start (FileTree.empty.put [q] (.file (Utf8.encode x))) []
    ∃ s', (tokensJob w .warning c q false).Yields s 0 s' ∧
      ∃ listing, s'.out = s.out ++ listing ∧ IsReadable c false [x] listing := by
  intro w c q x s
  have hsources : collectSources s.tree w.here [q] = .ok [q] := rfl
  have hq : s.tree.readText w.here (.ofText q) = .ok x := by
    rw [FileTree.readText_of_not_denied rfl rfl, FileTree.textOfBytes_encode (by decide)]
  have hread : sourceTexts s.tree w.here s.input [q] = .ok [x] := by
    rw [sourceTexts, sourceText, if_neg (by decide), hq]
    rfl
  obtain ⟨s', hyields, -⟩ := exists_yields_tokensJob (c := c) .warning false hsources hread
  obtain ⟨sources, xs, listing, hsources', hread', hout, hreadable⟩ := tokens_readable hyields
  obtain rfl := Except.ok.inj (hsources.symm.trans hsources')
  obtain rfl := Except.ok.inj (hread.symm.trans hread')
  exact ⟨s', hyields, listing, hout, hreadable⟩

end SqlSnippet
