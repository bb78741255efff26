import SqlSnippet.Proofs.MarkupReading
import SqlSnippet.Proofs.WrittenFiles

/-!
# Rendering of sources as a whole

The command that renders sources is to print or store all of their fragments, or none. Up to its
last step it only tells of what it notices (`OnlyLogs`), and the fragments follow from the texts of
the sources (`exists_run_highlightSources`). So if an operand names nothing, a source cannot be read
or the output cannot be opened (`IsHindered`, `exists_isHindered_iff`), the run reports this one
failure, and no file has changed. One thing more can go wrong : a class that is shown may hold half
of a surrogate pair, and then the fragments make no text, which turns out when the output has been
emptied. The run is all or nothing exactly if that is not so : `highlight_all_or_nothing_iff`.
-/

namespace SqlSnippet

/-! ## The texts of sources -/

/-- The text of a source, where `input` is left to be read from the standard input. -/
def sourceText (t : FileTree) (here : Place) (input : List UInt8) (source : Text) :
    Except Failure Text :=
  if source = stdinName then (FileTree.textOfBytes input).mapError .fault
  else (t.readText here (.ofText source)).mapError (Job.unreadableSource source)

/-- What is left of the standard input after a source. -/
def inputAfter (input : List UInt8) (source : Text) : List UInt8 :=
  if source = stdinName then [] else input

/-- The texts of sources that are read in order. -/
def sourceTexts (t : FileTree) (here : Place) : List UInt8 → List Text → Except Failure (List Text)
  | _, [] => .ok []
  | input, p :: ps =>
    match sourceText t here input p with
    | .error failure => .error failure
    | .ok x => (sourceTexts t here (inputAfter input p) ps).map (x :: ·)

variable {t t' : FileTree} {here : Place} {input : List UInt8} {p : Text}
  {paths sources : List Text}

theorem exists_mapError_eq_error_iff {ε ε' α : Type} {r : Except ε α} {g : ε → ε'} :
    (∃ e', r.mapError g = .error e') ↔ ∃ e, r = .error e := by
  cases r with
  | error e => exact iff_of_true ⟨g e, rfl⟩ ⟨e, rfl⟩
  | ok a => exact iff_of_false nofun nofun

/-- Sources are refused if one of them cannot be read. The standard input is read once, and is empty
after that. -/
theorem exists_sourceTexts_eq_error_iff :
    (∃ failure, sourceTexts t here input sources = .error failure) ↔
      (∃ p ∈ sources, p ≠ stdinName ∧ ∃ f, t.readText here (.ofText p) = .error f) ∨
        stdinName ∈ sources ∧ ∃ f, FileTree.textOfBytes input = .error f := by
  induction sources generalizing input with
  | nil => exact iff_of_false nofun nofun
  | cons p ps ih =>
    have hfirst : (∃ failure, sourceText t here input p = .error failure) ↔
        if p = stdinName then ∃ f, FileTree.textOfBytes input = .error f
        else ∃ f, t.readText here (.ofText p) = .error f := by
      unfold sourceText
      split <;> exact exists_mapError_eq_error_iff
    have hcons : (∃ failure, sourceTexts t here input (p :: ps) = .error failure) ↔
        (∃ failure, sourceText t here input p = .error failure) ∨
          ∃ failure, sourceTexts t here (inputAfter input p) ps = .error failure := by
      rw [sourceTexts]
      cases sourceText t here input p with
      | error failure => exact iff_of_true ⟨failure, rfl⟩ (Or.inl ⟨failure, rfl⟩)
      | ok x =>
        cases sourceTexts t here (inputAfter input p) ps with
        | error failure => exact iff_of_true ⟨failure, rfl⟩ (Or.inr ⟨failure, rfl⟩)
        | ok xs => exact iff_of_false nofun (by rintro (⟨_, ⟨⟩⟩ | ⟨_, ⟨⟩⟩))
    rw [hcons, hfirst, ih, List.exists_mem_cons_iff, List.mem_cons, inputAfter]
    by_cases hp : p = stdinName
    · have hempty : FileTree.textOfBytes [] = .ok [] :=
        FileTree.textOfBytes_encode List.not_mem_nil
      have hrest : ¬∃ f, FileTree.textOfBytes [] = .error f := fun ⟨_, h⟩ => nomatch hempty ▸ h
      simp only [hp, hrest, if_true, ne_eq, not_true_eq_false, true_or, true_and, false_and,
        and_false, or_false, false_or]
      exact or_comm
    · rw [if_neg hp, if_neg hp, and_iff_right hp, or_iff_right (Ne.symm hp), or_assoc]

theorem run_readSource (s : Session) (here : Place) (source : Text) :
    (readSource here source).run s = (sourceText s.tree here s.input source,
      { s with input := inputAfter s.input source }) := by
  unfold readSource sourceText inputAfter
  split
  · rfl
  · rfl

/-! ## Jobs that only tell of what they notice -/

/-- The second session differs from the first one in what is left of the standard input, and in
records that tell of details. -/
structure OnlyLogs (clock : String) (s s' : Session) : Prop where
  tree : s'.tree = s.tree
  out : s'.out = s.out
  err : ∃ rs : List Record, (∀ r ∈ rs, r.severity = .debug) ∧
    s'.err = s.err ++ Job.recordLines clock rs

variable {clock : String} {s s' s'' : Session}

theorem onlyLogs_input (clock : String) (s : Session) (input : List UInt8) :
    OnlyLogs clock s { s with input } :=
  ⟨rfl, rfl, [], nofun, (List.append_nil s.err).symm⟩

theorem OnlyLogs.trans (h : OnlyLogs clock s s') (h' : OnlyLogs clock s' s'') :
    OnlyLogs clock s s'' := by
  obtain ⟨rs, hrs, herr⟩ := h.err
  obtain ⟨qs, hqs, herr'⟩ := h'.err
  refine ⟨h'.tree.trans h.tree, h'.out.trans h.out, rs ++ qs,
    List.forall_mem_append.2 ⟨hrs, hqs⟩, ?_⟩
  rw [herr', herr, Job.recordLines_append, List.append_assoc]

theorem exists_yields_tellRecords_onlyLogs (clock : String) (least : Severity) (rs : List Record)
    (h : ∀ r ∈ rs, r.severity = .debug) (s : Session) :
    ∃ s', (tellRecords clock least rs).Yields s () s' ∧ s'.input = s.input ∧ OnlyLogs clock s s' :=
  ⟨_, Job.yields_tellRecords clock least rs s, rfl, rfl, rfl, _,
    fun r hr => h r (List.mem_of_mem_filter hr), rfl⟩

theorem severity_of_mem_scanNotes {x : Text} {r : Record} (h : r ∈ scanNotes x) :
    r.severity = .debug := by
  obtain ⟨_, -, rfl⟩ := List.mem_map.1 h
  rfl

section

variable {α : Type} {w : Surroundings} {least : Severity} {g : Text → Text → List Record}
  {f : Text → α}

/-- Read a source, tell of what is noticed in it, and give what is made of its text. -/
def makeOfSource (w : Surroundings) (least : Severity) (g : Text → Text → List Record)
    (f : Text → α) (source : Text) : Job α := do
  let x ← readSource w.here source
  tellRecords w.clock least (g source x)
  return f x

theorem exists_run_makeOfSource (hg : ∀ source x, ∀ r ∈ g source x, r.severity = .debug)
    (w : Surroundings) (least : Severity) (f : Text → α) (source : Text) (s : Session) :
    ∃ s', (makeOfSource w least g f source).run s =
        ((sourceText s.tree w.here s.input source).map f, s') ∧
      s'.input = inputAfter s.input source ∧ OnlyLogs w.clock s s' := by
  unfold makeOfSource
  rw [Job.run_bind, run_readSource]
  cases sourceText s.tree w.here s.input source with
  | error failure => exact ⟨_, rfl, rfl, onlyLogs_input _ _ _⟩
  | ok x =>
    dsimp only
    obtain ⟨s', htold, hinput, hlogs⟩ := exists_yields_tellRecords_onlyLogs w.clock least
      (g source x) (hg source x) { s with input := inputAfter s.input source }
    exact ⟨s', htold.bind (Job.yields_pure _ _), hinput, (onlyLogs_input _ _ _).trans hlogs⟩

/-- What is made of sources comes of their texts. -/
theorem exists_run_mapM_makeOfSource (hg : ∀ source x, ∀ r ∈ g source x, r.severity = .debug)
    (w : Surroundings) (least : Severity) (f : Text → α) (sources : List Text) (s : Session) :
    ∃ s', (sources.mapM (makeOfSource w least g f)).run s =
        ((sourceTexts s.tree w.here s.input sources).map (List.map f), s') ∧
      OnlyLogs w.clock s s' := by
  induction sources generalizing s with
  | nil => exact ⟨s, rfl, onlyLogs_input w.clock s s.input⟩
  | cons p ps ih =>
    obtain ⟨s₁, hstep, hinput, hlogs⟩ := exists_run_makeOfSource hg w least f p s
    rw [sourceTexts]
    cases hread : sourceText s.tree w.here s.input p with
    | error failure =>
      rw [hread] at hstep
      exact ⟨s₁, Job.fails_mapM_head hstep ps, hlogs⟩
    | ok x =>
      rw [hread] at hstep
      obtain ⟨s', hrun, hlogs'⟩ := ih s₁
      rw [hinput, hlogs.tree] at hrun
      refine ⟨s', ?_, hlogs.trans hlogs'⟩
      dsimp only
      cases hreads : sourceTexts s.tree w.here (inputAfter s.input p) ps with
      | error failure =>
        rw [hreads] at hrun
        exact Job.fails_mapM_tail hstep hrun
      | ok xs =>
        rw [hreads] at hrun
        exact Job.yields_mapM_cons hstep hrun

end

/-! ## Fragments -/

variable {w : Surroundings} {least : Severity} {c : Config} {isWrapped : Bool} {x : Text}
  {output : Option Text}

/-- The classes of a configuration that are texts. -/
def Config.textClasses (c : Config) : ClassNames :=
  fun k => (c.classNames k).text?.getD []

/-- The classes of all tokens in a text are texts. -/
def Config.HasTextClasses (c : Config) (x : Text) : Prop :=
  ∀ t ∈ classify c.vocabulary x, ∀ k, t.category = some k → ∃ s, c.classNames k = Text.loose s

/-- The container of a fragment. -/
def containerOf (isWrapped : Bool) : Option Text :=
  if isWrapped then some standardContainer else none

/-- The fragment that shows a text. -/
def fragmentOf (c : Config) (isWrapped : Bool) (x : Text) : Text :=
  renderFragment c.textClasses (containerOf isWrapped) (classify c.vocabulary x)

/-- The fragments that show texts, joined. -/
def fragmentsText (c : Config) (isWrapped : Bool) (xs : List Text) : Text :=
  List.intercalate ['\n'] (xs.map (fragmentOf c isWrapped)) ++ ['\n']

/-- The fragment that shows a text, with classes of any kind. -/
def looseFragmentOf (c : Config) (isWrapped : Bool) (x : Text) : LooseText :=
  renderLoose c.classNames (containerOf isWrapped) (classify c.vocabulary x)

/-- The fragments that show texts, joined, with classes of any kind. -/
def looseFragmentsText (c : Config) (isWrapped : Bool) (xs : List Text) : LooseText :=
  List.intercalate [.char '\n'] (xs.map (looseFragmentOf c isWrapped)) ++ [.char '\n']

theorem looseFragmentOf_eq (h : c.HasTextClasses x) :
    looseFragmentOf c isWrapped x = Text.loose (fragmentOf c isWrapped x) := by
  refine renderLoose_eq (fun t ht k hk => ?_) _
  obtain ⟨s, hs⟩ := h t ht k hk
  rw [Config.textClasses, LooseText.text?_eq_some_iff.2 hs, hs]
  rfl

theorem exists_half_mem_looseFragmentOf_iff :
    (∃ n, CodePoint.half n ∈ looseFragmentOf c isWrapped x) ↔ ¬c.HasTextClasses x := by
  unfold looseFragmentOf Config.HasTextClasses
  simp only [half_mem_renderLoose_iff, not_forall, ← LooseText.exists_half_mem_iff, exists_prop]
  constructor
  · rintro ⟨n, t, ht, k, hk, hn⟩
    exact ⟨t, ht, k, hk, n, hn⟩
  · rintro ⟨t, ht, k, hk, n, hn⟩
    exact ⟨n, t, ht, k, hk, hn⟩

theorem mem_intercalate_of_mem {α : Type} {a : α} {sep xs : List α} {xss : List (List α)}
    (hxs : xs ∈ xss) (ha : a ∈ xs) : a ∈ List.intercalate sep xss := by
  induction xss with
  | nil => cases hxs
  | cons ys xss ih =>
    cases xss with
    | nil =>
      rw [List.intercalate_singleton, ← List.mem_singleton.1 hxs]
      exact ha
    | cons zs xss =>
      rw [List.intercalate_cons_cons]
      rcases List.mem_cons.1 hxs with rfl | hxs
      · exact List.mem_append_left _ (List.mem_append_left _ ha)
      · exact List.mem_append_right _ (ih hxs)

theorem loose_intercalate (sep : Text) (xs : List Text) :
    Text.loose (List.intercalate sep xs) = List.intercalate sep.loose (xs.map Text.loose) := by
  induction xs with
  | nil => rfl
  | cons x xs ih =>
    cases xs with
    | nil => rw [List.intercalate_singleton, List.map_singleton, List.intercalate_singleton]
    | cons y ys =>
      rw [List.intercalate_cons_cons, Text.loose, List.map_append, List.map_append, ← Text.loose,
        ← Text.loose, ← Text.loose, ih]
      exact (List.intercalate_cons_cons ..).symm

/-- Fragments whose classes are texts are joined to a text. -/
theorem toText_looseFragmentsText {xs : List Text} (h : ∀ x ∈ xs, c.HasTextClasses x)
    (isWrapped : Bool) :
    (looseFragmentsText c isWrapped xs).toText = .ok (fragmentsText c isWrapped xs) := by
  rw [LooseText.toText_eq_ok_iff, looseFragmentsText,
    List.map_congr_left fun x hx => looseFragmentOf_eq (h x hx), fragmentsText, Text.loose,
    List.map_append, ← Text.loose, loose_intercalate, List.map_map]
  rfl

/-- Fragments are joined to no text if a class that they show is none. -/
theorem exists_toText_looseFragmentsText_eq_error {xs : List Text}
    (h : ¬∀ x ∈ xs, c.HasTextClasses x) (isWrapped : Bool) :
    ∃ e, (looseFragmentsText c isWrapped xs).toText = .error e := by
  rw [not_forall₂] at h
  obtain ⟨x, hx, hclasses⟩ := h
  obtain ⟨n, hn⟩ := exists_half_mem_looseFragmentOf_iff.2 hclasses
  exact LooseText.exists_toText_eq_error_iff.2
    ⟨n, List.mem_append_left _ (mem_intercalate_of_mem (List.mem_map_of_mem hx) hn)⟩

/-- The fragments of sources come of their texts. -/
theorem exists_run_highlightSources (w : Surroundings) (least : Severity) (c : Config)
    (isWrapped : Bool) (sources : List Text) (s : Session) :
    ∃ s', (sources.mapM (highlightSource w least c isWrapped)).run s =
        ((sourceTexts s.tree w.here s.input sources).map
          (List.map (looseFragmentOf c isWrapped)), s') ∧
      OnlyLogs w.clock s s' := by
  let notes (source x : Text) : List Record := scanNotes x ++
    [⟨"complexsql.cli.commands.highlight", .debug,
      "Classified " ++ String.ofList source ++ " into " ++
        toString (classify c.vocabulary x).length ++ " tokens"⟩]
  have hnotes : ∀ source x, ∀ r ∈ notes source x, r.severity = .debug := fun source x =>
    List.forall_mem_append.2 ⟨fun _ => severity_of_mem_scanNotes, List.forall_mem_singleton.2 rfl⟩
  have hjob : highlightSource w least c isWrapped =
      makeOfSource w least notes (looseFragmentOf c isWrapped) := rfl
  rw [hjob]
  exact exists_run_mapM_makeOfSource hnotes w least _ sources s

/-! ## Files that are stored -/

namespace FileTree

variable {path : Path}

/-- The path leads to a file that holds the text, and all else is as it was. -/
structure Stores (t : FileTree) (here : Place) (path : Path) (x : Text) (t' : FileTree) : Prop where
  file : ∃ place, t'.find? here path = .ok (some (place, .file (Utf8.encode x)))
  other : ∀ q, t.follow here path ≠ .ok q → t'.get? q = t.get? q
  denials : t'.denials = t.denials

/-- A text that is written is stored. -/
theorem stores_of_writeText (h : t.writeText here path x = .ok t') : t.Stores here path x t' := by
  obtain ⟨hnull, place, hfollow, hplace, -, rfl⟩ := exists_of_writeText h
  have hput := get?_put t (.file (Utf8.encode x)) (ne_nil_of_get?_ne_directory hplace)
  refine ⟨⟨place, find?_eq_ok_iff.2 ⟨hnull, follow_put hplace _ hfollow, ?_⟩⟩, fun q hq => ?_, rfl⟩
  · rw [hput, if_pos rfl]
  · rw [hput, if_neg fun heq : q = place => hq (heq ▸ hfollow)]

end FileTree

/-! ## The command -/

/-- Why an output is refused that cannot be written. -/
def unwritableOutput (path : Path) (f : Fault) : Failure :=
  if f.isFile then .error (.ofFault ("Could not write " ++ String.ofList path.toText) none f)
  else .fault f

/-- What hinders the rendering of sources : operands that name nothing, sources that cannot be read,
or an output that cannot be opened. -/
inductive IsHindered (w : Surroundings) (paths : List Text) (output : Option Text) (s : Session) :
    Failure → Prop
  | operand {failure : Failure} (h : collectSources s.tree w.here paths = .error failure) :
    IsHindered w paths output s failure
  | source {failure : Failure} {sources : List Text}
      (h : collectSources s.tree w.here paths = .ok sources)
      (hread : sourceTexts s.tree w.here s.input sources = .error failure) :
    IsHindered w paths output s failure
  | output {sources xs : List Text} {p : Text} {f : Fault}
      (h : collectSources s.tree w.here paths = .ok sources)
      (hread : sourceTexts s.tree w.here s.input sources = .ok xs) (hp : output = some p)
      (hwrite : ∀ y, s.tree.writeText w.here (.ofText p) y = .error f) :
    IsHindered w paths output s (unwritableOutput (.ofText p) f)

/-- What there is to hinder it : an operand names nothing, a file or the standard input is no text
or may not be read, or the output cannot be opened. -/
theorem exists_isHindered_iff : (∃ failure, IsHindered w paths output s failure) ↔
    (∃ path ∈ paths, path ≠ stdinName ∧ NamesNothing s.tree w.here path) ∨
      ∃ sources, collectSources s.tree w.here paths = .ok sources ∧
        (((∃ p ∈ sources, p ≠ stdinName ∧ ∃ f, s.tree.readText w.here (.ofText p) = .error f) ∨
          stdinName ∈ sources ∧ ∃ f, FileTree.textOfBytes s.input = .error f) ∨
          ∃ p, output = some p ∧ ∃ f, ∀ y, s.tree.writeText w.here (.ofText p) y = .error f) := by
  have hoperands : (∃ path ∈ paths, path ≠ stdinName ∧ NamesNothing s.tree w.here path) ↔
      ∃ failure, collectSources s.tree w.here paths = .error failure := by
    rw [exists_collectSources_eq_error_iff]
    exact exists_congr fun path => and_congr_right fun _ => exists_sourcesOf_eq_error_iff.symm
  rw [hoperands]
  constructor
  · rintro ⟨failure, h⟩
    cases h with
    | operand h => exact Or.inl ⟨failure, h⟩
    | source h hread =>
      exact Or.inr ⟨_, h, Or.inl (exists_sourceTexts_eq_error_iff.1 ⟨failure, hread⟩)⟩
    | output h hread hp hwrite => exact Or.inr ⟨_, h, Or.inr ⟨_, hp, _, hwrite⟩⟩
  · rintro (⟨failure, h⟩ | ⟨sources, h, hread | ⟨p, hp, f, hwrite⟩⟩)
    · exact ⟨failure, .operand h⟩
    · obtain ⟨failure, hread⟩ := exists_sourceTexts_eq_error_iff.2 hread
      exact ⟨failure, .source h hread⟩
    · cases hread : sourceTexts s.tree w.here s.input sources with
      | error failure => exact ⟨failure, .source h hread⟩
      | ok xs => exact ⟨_, .output h hread hp hwrite⟩

/-- What is known where nothing hinders it : the sources, their texts, and that the output can be
opened. -/
structure IsReady (w : Surroundings) (paths : List Text) (output : Option Text) (s : Session)
    (sources xs : List Text) : Prop where
  collected : collectSources s.tree w.here paths = .ok sources
  read : sourceTexts s.tree w.here s.input sources = .ok xs
  opened : ∀ p, output = some p → ∀ y, ∃ t', s.tree.writeText w.here (.ofText p) y = .ok t'

/-- Sources can be rendered, or something hinders that. -/
theorem exists_isReady_or_isHindered (w : Surroundings) (paths : List Text) (output : Option Text)
    (s : Session) :
    (∃ sources xs, IsReady w paths output s sources xs) ∨
      ∃ failure, IsHindered w paths output s failure := by
  cases h : collectSources s.tree w.here paths with
  | error failure => exact Or.inr ⟨failure, .operand h⟩
  | ok sources =>
    cases hread : sourceTexts s.tree w.here s.input sources with
    | error failure => exact Or.inr ⟨failure, .source h hread⟩
    | ok xs =>
      cases output with
      | none => exact Or.inl ⟨sources, xs, h, hread, nofun⟩
      | some p =>
        cases hwrite : s.tree.writeText w.here (.ofText p) [] with
        | error f =>
          exact Or.inr ⟨_, .output h hread rfl (FileTree.writeText_eq_error_congr hwrite)⟩
        | ok t' =>
          exact Or.inl ⟨sources, xs, h, hread,
            fun q hq => Option.some.inj hq ▸ FileTree.exists_writeText_congr hwrite⟩

theorem IsReady.not_isHindered {xs : List Text} {failure : Failure}
    (h : IsReady w paths output s sources xs) : ¬IsHindered w paths output s failure := by
  intro hhindered
  cases hhindered with
  | operand h' => cases h.collected.symm.trans h'
  | source h' hread =>
    obtain rfl := Except.ok.inj (h'.symm.trans h.collected)
    cases hread.symm.trans h.read
  | output h' hread hp hwrite =>
    obtain ⟨_, hopen⟩ := h.opened _ hp []
    cases hopen.symm.trans (hwrite [])

/-- Where nothing hinders it, the fragments of all sources are made. -/
theorem IsReady.exists_yields_highlightSources {xs : List Text}
    (h : IsReady w paths output s sources xs) (least : Severity) (c : Config) (isWrapped : Bool) :
    ∃ s', (sources.mapM (highlightSource w least c isWrapped)).Yields s
        (xs.map (looseFragmentOf c isWrapped)) s' ∧ OnlyLogs w.clock s s' := by
  obtain ⟨s', hrun, hlogs⟩ := exists_run_highlightSources w least c isWrapped sources s
  rw [h.read] at hrun
  exact ⟨s', hrun, hlogs⟩

/-- The line that tells of fragments that have been stored. -/
def wroteLine (count : Nat) (path : Path) : String :=
  "Wrote " ++ toString count ++ " " ++ plural "fragment" count ++ " to " ++
    String.ofList path.toText

/-- What a run has done that renders sources : the text of their fragments has been printed, or is
stored. -/
structure IsRendered (w : Surroundings) (output : Option Text) (count : Nat) (y : Text)
    (s s' : Session) : Prop where
  printed : output = none → s'.tree = s.tree ∧ s'.out = s.out ++ y
  stored : ∀ p, output = some p → s.tree.Stores w.here (.ofText p) y s'.tree ∧
    s'.out = s.out ++ ((wroteLine count (.ofText p)).toList ++ ['\n'])
  err : ∃ rs : List Record, (∀ r ∈ rs, r.severity = .debug) ∧
    s'.err = s.err ++ Job.recordLines w.clock rs

/-- What hinders the rendering of sources is why it fails, and nothing has been done. -/
theorem IsHindered.exists_fails {failure : Failure} (h : IsHindered w paths output s failure)
    (least : Severity) (c : Config) (isWrapped : Bool) :
    ∃ s', (highlightJob w least c paths isWrapped output).Fails s failure s' ∧
      OnlyLogs w.clock s s' := by
  unfold highlightJob
  cases h with
  | operand h =>
    refine ⟨s, (Job.yields_get s).bind_fails ?_, onlyLogs_input w.clock s s.input⟩
    rw [h]
    exact (Job.fails_ofExcept failure s).bind _
  | source h hread =>
    obtain ⟨s', hrun, hlogs⟩ := exists_run_highlightSources w least c isWrapped _ s
    rw [hread] at hrun
    have hfails : (List.mapM (highlightSource w least c isWrapped) _).Fails s failure s' := hrun
    refine ⟨s', (Job.yields_get s).bind_fails ?_, hlogs⟩
    rw [h]
    exact (Job.yields_ofExcept _ s).bind_fails (hfails.bind _)
  | output h hread hp hwrite =>
    obtain ⟨s', hrun, hlogs⟩ := exists_run_highlightSources w least c isWrapped _ s
    rw [hread] at hrun
    have hyields : (List.mapM (highlightSource w least c isWrapped) _).Yields s _ s' := hrun
    refine ⟨s', (Job.yields_get s).bind_fails ?_, hlogs⟩
    rw [h, hp]
    refine (Job.yields_ofExcept _ s).bind_fails (hyields.bind_fails ?_)
    rw [← hlogs.tree] at hwrite
    exact (Job.fails_writeLoose _ _ hwrite).bind _

/-- Where nothing hinders it and the fragments make a text, sources are rendered. -/
theorem IsReady.exists_yields {xs : List Text} {y : Text} (h : IsReady w paths output s sources xs)
    (hy : (looseFragmentsText c isWrapped xs).toText = .ok y) (least : Severity) :
    ∃ s', (highlightJob w least c paths isWrapped output).Yields s 0 s' ∧
      IsRendered w output xs.length y s s' := by
  obtain ⟨s₁, hyields, hlogs⟩ := h.exists_yields_highlightSources least c isWrapped
  unfold highlightJob
  cases output with
  | none =>
    refine ⟨{ s₁ with out := s₁.out ++ y }, (Job.yields_get s).bind ?_,
      ⟨fun _ => ⟨hlogs.tree, ?_⟩, nofun, hlogs.err⟩⟩
    · rw [h.collected]
      exact (Job.yields_ofExcept _ s).bind (hyields.bind
        ((Job.yields_putLoose hy _).bind (Job.yields_pure _ _)))
    · dsimp only
      rw [hlogs.out]
  | some p =>
    obtain ⟨t', hwrite⟩ := h.opened p rfl y
    have hwrite' := hwrite
    rw [← hlogs.tree] at hwrite'
    refine ⟨{ s₁ with
        tree := t'
        out := s₁.out ++ ((wroteLine (xs.map (looseFragmentOf c isWrapped)).length
          (.ofText p)).toList ++ ['\n']) },
      (Job.yields_get s).bind ?_, ⟨nofun, fun q hq => ?_, hlogs.err⟩⟩
    · rw [h.collected]
      refine (Job.yields_ofExcept _ s).bind (hyields.bind ?_)
      exact (Job.yields_writeLoose _ hy hwrite').bind
        ((Job.yields_putLine _ _).bind (Job.yields_pure _ _))
    · obtain rfl := Option.some.inj hq
      rw [hlogs.out, List.length_map]
      exact ⟨FileTree.stores_of_writeText hwrite, rfl⟩

/-- What becomes of the files where the fragments make no text : an output is emptied. -/
structure IsEmptied (here : Place) (output : Option Text) (t t' : FileTree) : Prop where
  kept : output = none → t' = t
  emptied : ∀ p, output = some p → t.Stores here (.ofText p) [] t'

/-- Where nothing hinders it but a class that is shown is no text, the rendering fails at its last
step. -/
theorem IsReady.exists_fails {xs : List Text} {e : StrayHalves}
    (h : IsReady w paths output s sources xs)
    (he : (looseFragmentsText c isWrapped xs).toText = .error e) (least : Severity) :
    ∃ s', (highlightJob w least c paths isWrapped output).Fails s (.fault (.strayHalves e)) s' ∧
      s'.out = s.out ∧ IsEmptied w.here output s.tree s'.tree ∧
      ∃ rs : List Record, (∀ r ∈ rs, r.severity = .debug) ∧
        s'.err = s.err ++ Job.recordLines w.clock rs := by
  obtain ⟨s₁, hyields, hlogs⟩ := h.exists_yields_highlightSources least c isWrapped
  unfold highlightJob
  cases output with
  | none =>
    refine ⟨s₁, (Job.yields_get s).bind_fails ?_, hlogs.out, ⟨fun _ => hlogs.tree, nofun⟩,
      hlogs.err⟩
    rw [h.collected]
    exact (Job.yields_ofExcept _ s).bind_fails
      (hyields.bind_fails ((Job.fails_putLoose he _).bind _))
  | some p =>
    obtain ⟨t', hwrite⟩ := h.opened p rfl []
    refine ⟨{ s₁ with tree := t' }, (Job.yields_get s).bind_fails ?_, hlogs.out, ⟨nofun, ?_⟩,
      hlogs.err⟩
    · rw [h.collected]
      rw [← hlogs.tree] at hwrite
      exact (Job.yields_ofExcept _ s).bind_fails (hyields.bind_fails
        ((Job.fails_writeLoose_of_strayHalves _ he hwrite).bind _))
    · rintro q ⟨⟩
      exact FileTree.stores_of_writeText hwrite

/-! ## Runs -/

/-- What is reported of a failure that is not left to the caller. -/
def failureReport (w : Surroundings) (isVerbose : Bool) (failure : Failure) : Text :=
  (if w.environment.givesDetails isVerbose then failure.reportWithTrace (w.trace failure)
    else failure.report false).toList ++ ['\n']

theorem endFailed_eq (h : w.environment.reraises = false) (isVerbose : Bool) (failure : Failure)
    (s : Session) : endFailed w isVerbose failure s =
      (.exit 1, { s with err := s.err ++ failureReport w isVerbose failure }) := by
  rw [endFailed, if_neg (Bool.eq_false_iff.1 h), failureReport, ← List.append_assoc]

/-- A run has ended with the code one, having reported a failure and printed nothing. -/
structure HasReported (w : Surroundings) (isVerbose : Bool) (failure : Failure) (s : Session)
    (run : Ending × Session) : Prop where
  ending : run.1 = .exit 1
  out : run.2.out = s.out
  err : ∃ rs : List Record, (∀ r ∈ rs, r.severity = .debug) ∧
    run.2.err = s.err ++ Job.recordLines w.clock rs ++ failureReport w isVerbose failure

theorem hasReported_finish (hreraises : w.environment.reraises = false) (isVerbose : Bool)
    {job : Job Nat} {failure : Failure} (hfails : job.Fails s failure s') (hout : s'.out = s.out)
    (herr : ∃ rs : List Record, (∀ r ∈ rs, r.severity = .debug) ∧
      s'.err = s.err ++ Job.recordLines w.clock rs) :
    HasReported w isVerbose failure s (finish w isVerbose job s) := by
  obtain ⟨rs, hrs, herr⟩ := herr
  rw [finish_eq_of_fails isVerbose hfails, endFailed_eq hreraises]
  exact ⟨rfl, hout, rs, hrs, congrArg (· ++ failureReport w isVerbose failure) herr⟩

/-- A run that renders sources has printed or stored all of their fragments, or something hindered
it, and it has reported that and done nothing else. -/
def IsAllOrNothing (w : Surroundings) (isVerbose : Bool) (c : Config) (paths : List Text)
    (isWrapped : Bool) (output : Option Text) (s : Session) (run : Ending × Session) : Prop :=
  (∃ sources xs y, IsReady w paths output s sources xs ∧
    looseFragmentsText c isWrapped xs = Text.loose y ∧ run.1 = .exit 0 ∧
    IsRendered w output xs.length y s run.2) ∨
  ∃ failure, IsHindered w paths output s failure ∧ HasReported w isVerbose failure s run ∧
    run.2.tree = s.tree

/-- Nothing hinders the rendering of sources, but a class that is shown is no text. -/
def ShowsStrayHalf (w : Surroundings) (c : Config) (paths : List Text) (output : Option Text)
    (s : Session) : Prop :=
  ∃ sources xs, IsReady w paths output s sources xs ∧ ¬∀ x ∈ xs, c.HasTextClasses x

theorem IsAllOrNothing.not_showsStrayHalf {isVerbose : Bool} {run : Ending × Session}
    (h : IsAllOrNothing w isVerbose c paths isWrapped output s run) :
    ¬ShowsStrayHalf w c paths output s := by
  rintro ⟨sources', xs', hready', hnot⟩
  rcases h with ⟨sources, xs, y, hready, hy, -⟩ | ⟨failure, hhindered, -⟩
  · obtain rfl := Except.ok.inj (hready.collected.symm.trans hready'.collected)
    obtain rfl := Except.ok.inj (hready.read.symm.trans hready'.read)
    obtain ⟨e, he⟩ := exists_toText_looseFragmentsText_eq_error hnot isWrapped
    cases he.symm.trans (LooseText.toText_eq_ok_iff.2 hy)
  · exact hready'.not_isHindered hhindered

/-- A run that is to show a stray half reports that, having emptied the output. -/
theorem ShowsStrayHalf.exists_hasReported (h : ShowsStrayHalf w c paths output s)
    (hreraises : w.environment.reraises = false) (least : Severity) (isVerbose isWrapped : Bool) :
    let run := finish w isVerbose (commandJob w least c (.highlight paths isWrapped output)) s
    ∃ e, HasReported w isVerbose (.fault (.strayHalves e)) s run ∧
      IsEmptied w.here output s.tree run.2.tree := by
  intro run
  obtain ⟨sources, xs, hready, hclasses⟩ := h
  obtain ⟨e, he⟩ := exists_toText_looseFragmentsText_eq_error hclasses isWrapped
  obtain ⟨s', hfails, hout, hemptied, herr⟩ := hready.exists_fails he least
  have htree : run.2.tree = s'.tree :=
    (congrArg (·.2.tree) (finish_eq_of_fails isVerbose hfails)).trans (tree_endFailed _ _ _ _)
  exact ⟨e, hasReported_finish hreraises isVerbose hfails hout herr, htree ▸ hemptied⟩

/-- A run that renders sources prints or stores all of their fragments, or reports one failure and
does nothing else, unless a class that is shown is no text : then it reports that, and a file that
was to hold the fragments has been emptied. -/
theorem highlight_all_or_nothing_iff (hreraises : w.environment.reraises = false)
    (least : Severity) (isVerbose : Bool) (c : Config) (paths : List Text) (isWrapped : Bool)
    (output : Option Text) (s : Session) :
    let run := finish w isVerbose (commandJob w least c (.highlight paths isWrapped output)) s
    (IsAllOrNothing w isVerbose c paths isWrapped output s run ↔
      ¬ShowsStrayHalf w c paths output s) ∧
    (ShowsStrayHalf w c paths output s →
      ∃ e, HasReported w isVerbose (.fault (.strayHalves e)) s run ∧
        IsEmptied w.here output s.tree run.2.tree) := by
  intro run
  refine ⟨⟨IsAllOrNothing.not_showsStrayHalf, fun h => ?_⟩,
    fun h => h.exists_hasReported hreraises least isVerbose isWrapped⟩
  rcases exists_isReady_or_isHindered w paths output s with
    ⟨sources, xs, hready⟩ | ⟨failure, hhindered⟩
  · have hclasses : ∀ x ∈ xs, c.HasTextClasses x :=
      Classical.byContradiction fun hnot => h ⟨sources, xs, hready, hnot⟩
    have hy := toText_looseFragmentsText hclasses isWrapped
    obtain ⟨s', hyields, hrendered⟩ := hready.exists_yields hy least
    have hrun : run = (.exit 0, s') := finish_of_yields isVerbose hyields
    rw [hrun]
    exact Or.inl ⟨sources, xs, _, hready, LooseText.toText_eq_ok_iff.1 hy, rfl, hrendered⟩
  · obtain ⟨s', hfails, hlogs⟩ := hhindered.exists_fails least c isWrapped
    have htree : run.2.tree = s'.tree :=
      (congrArg (·.2.tree) (finish_eq_of_fails isVerbose hfails)).trans (tree_endFailed _ _ _ _)
    exact Or.inr ⟨failure, hhindered,
      hasReported_finish hreraises isVerbose hfails hlogs.out hlogs.err, htree.trans hlogs.tree⟩

/-- The last of the sources is no text. -/
theorem highlight_all_or_nothing_iff_malformed :
    let w : Surroundings := ⟨[], .empty, "", "", fun _ => "", none⟩
    let c := Config.standard ⟨1, []⟩
    let q := "q.sql".toList
    let r := "r.sql".toList
    let tree := (FileTree.empty.put [q] (.file (Utf8.encode "a".toList))).put [r] (.file [0xff])
    let s := Session.start tree []
    w.environment.reraises = false ∧ ∃ s', finish w false
        (commandJob w .warning c (.highlight [q, r] false (some "o.html".toList))) s =
          (.exit 1, s') ∧
      s'.tree = s.tree ∧ s'.out = [] := by
  intro w c q r tree s
  have hreraises : w.environment.reraises = false := rfl
  have hsources : collectSources s.tree w.here [q, r] = .ok [q, r] := rfl
  obtain ⟨m, hdecode⟩ : ∃ m, Utf8.decode [0xff] = .error m := ⟨_, by cbv⟩
  have hr : s.tree.readText w.here (.ofText r) = .error (.encoding m) := by
    rw [FileTree.readText_of_not_denied rfl rfl, FileTree.textOfBytes, hdecode]
  obtain ⟨failure, hread⟩ :
      ∃ failure, sourceTexts s.tree w.here s.input [q, r] = .error failure :=
    exists_sourceTexts_eq_error_iff.2 (Or.inl ⟨r, by decide, by decide, _, hr⟩)
  have hready : ∀ sources xs, ¬IsReady w [q, r] (some "o.html".toList) s sources xs :=
    fun _ _ h => h.not_isHindered (.source hsources hread)
  have hstray : ¬ShowsStrayHalf w c [q, r] (some "o.html".toList) s := by
    rintro ⟨sources, xs, h, -⟩
    exact hready sources xs h
  have hrun := (highlight_all_or_nothing_iff hreraises .warning false c [q, r] false
    (some "o.html".toList) s).1.2 hstray
  refine ⟨hreraises, ?_⟩
  generalize finish w false
    (commandJob w .warning c (.highlight [q, r] false (some "o.html".toList))) s = run at hrun ⊢
  rcases hrun with ⟨_, _, _, h, -⟩ | ⟨failure, -, hreported, htree⟩
  · exact absurd h (hready _ _)
  · exact ⟨run.2, Prod.ext hreported.ending rfl, htree, hreported.out⟩

/-- With half of a surrogate pair as the class of keywords, a keyword is not shown, and the file
that was to hold the fragment is emptied. -/
theorem highlight_stray_half :
    let w : Surroundings := ⟨[], .empty, "", "", fun _ => "", none⟩
    let c := { Config.standard ⟨1, []⟩ with classes := [(.keyword, [.half 0])] }
    let q := "q.sql".toList
    let out := "o.html".toList
    let tree := (FileTree.empty.put [q] (.file (Utf8.encode "select".toList))).put [out]
      (.file (Utf8.encode "old".toList))
    let s := Session.start tree []
    let run := finish w false (commandJob w .warning c (.highlight [q] false (some out))) s
    ¬IsAllOrNothing w false c [q] false (some out) s run ∧ run.1 = .exit 1 ∧
      s.tree.readBytes w.here (.ofText out) = .ok (Utf8.encode "old".toList) ∧
      run.2.tree.readBytes w.here (.ofText out) = .ok [] := by
  intro w c q out tree s
  have hclassify : classify c.vocabulary "select".toList = [⟨"select".toList, some .keyword⟩] := by
    decide +kernel
  have hclasses : ¬c.HasTextClasses "select".toList := by
    intro h
    obtain ⟨x, hx⟩ := h _ (hclassify ▸ List.mem_singleton_self _) .keyword rfl
    exact LooseText.exists_half_mem_iff.1 ⟨0, List.mem_singleton_self _⟩ ⟨x, hx⟩
  have hq : s.tree.HoldsText w.here (.ofText q) [q] "select".toList :=
    ⟨_, rfl, rfl, FileTree.textOfBytes_encode (by decide)⟩
  have hread : sourceTexts s.tree w.here s.input [q] = .ok ["select".toList] := by
    rw [sourceTexts, sourceText, if_neg (by decide), hq.readText]
    rfl
  have hopen : s.tree.writeText w.here (.ofText out) [] =
      .ok (s.tree.put [out] (.file (Utf8.encode []))) := rfl
  have hready : IsReady w [q] (some out) s [q] ["select".toList] :=
    ⟨rfl, hread, fun _ hp => Option.some.inj hp ▸ FileTree.exists_writeText_congr hopen⟩
  have hstray : ShowsStrayHalf w c [q] (some out) s :=
    ⟨_, _, hready, fun h => hclasses (h _ List.mem_cons_self)⟩
  have hrun := hstray.exists_hasReported rfl .warning false false
  generalize finish w false (commandJob w .warning c (.highlight [q] false (some out))) s = run
    at hrun ⊢
  obtain ⟨e, hreported, hemptied⟩ := hrun
  have hstores := hemptied.emptied out rfl
  obtain ⟨place, hfile⟩ := hstores.file
  have hreadable : run.2.tree.isDenied .reading place = false := by
    rw [FileTree.isDenied, hstores.denials]
    rfl
  exact ⟨fun h => h.not_showsStrayHalf hstray, hreported.ending, rfl,
    FileTree.readBytes_of_not_denied hfile hreadable⟩

end SqlSnippet
