import SqlSnippet.Proofs.FileAccess
import SqlSnippet.Proofs.Jobs
import SqlSnippet.Proofs.LayoutCharacters
import SqlSnippet.Proofs.StoredText

/-!
# Layout of files

A file that is laid out ends with a line feed. Layout drops that again, so a second layout changes
nothing, unless the text ends inside a string or block comment that is not closed : there every
layout puts one more line feed (`laidFile_laidFile_iff`).

What a command that lays out one file does is read off its parts (`yields_formatJob`,
`exists_yields_formatSource_check`, `exists_yields_formatSource_write`). Layout puts no carriage
return into a text (`carriageReturn_not_mem_laidFile`), so what is written is read again as it is,
and a check after a write finds the text that was written : `format_write_check_iff`.
-/

namespace SqlSnippet

variable {o : LayoutOptions} {x : Text}

/-! ## The text of a file -/

/-- The text of a file after layout. -/
def laidFile (o : LayoutOptions) (x : Text) : Text :=
  fileText (formatDocument o x).text

theorem carriageReturn_not_mem_laidFile (h : '\r' ∉ x) : '\r' ∉ laidFile o x := by
  have htext : '\r' ∉ (formatDocument o x).text := fun hmem =>
    (mem_of_mem_formatDocument hmem).elim h (by decide)
  unfold laidFile fileText
  split
  · exact List.not_mem_nil
  · exact fun hmem => (List.mem_append.1 hmem).elim htext (by decide)

/-- A file that is laid out ends with a line feed, unless it is empty. -/
theorem getLast?_laidFile (h : laidFile o x ≠ []) : (laidFile o x).getLast? = some '\n' := by
  unfold laidFile fileText at h ⊢
  split at h
  · exact absurd rfl h
  · next hne => rw [if_neg hne, List.getLast?_concat]

theorem laidFile_ne_self (hne : x ≠ []) (hlast : x.getLast? ≠ some '\n') :
    laidFile o x ≠ x := by
  intro h
  rw [← h] at hne hlast
  exact hlast (getLast?_laidFile hne)

theorem laidFile_laidFile (hk : (Clauses.ofWords o.clauseWords).IsSolid)
    (h : unterminated x = []) : laidFile o (laidFile o x) = laidFile o x := by
  have hclosed := (unterminated_formatDocument o).2 h
  have hagain := text_formatDocument_formatDocument (s := x) hk
  by_cases hnil : (formatDocument o x).text = []
  · have hempty : laidFile o x = [] := by rw [laidFile, hnil]; rfl
    rw [hempty, laidFile, ← hnil, hagain, hnil]
    rfl
  · rw [laidFile, laidFile, fileText, fileText, if_neg hnil, formatDocument_lineFeed hk hclosed,
      hagain, if_neg hnil]

theorem EndsOpen.laidFile_laidFile (hk : (Clauses.ofWords o.clauseWords).IsSolid)
    {as : List Atom} {r : Region} (h : EndsOpen x as r) :
    laidFile o (laidFile o x) = laidFile o x ++ ['\n'] := by
  obtain ⟨bs, hbs⟩ := h.exists_formatDocument o
  rw [laidFile, laidFile, fileText, fileText, if_neg hbs.ne_nil, hbs.formatDocument_lineFeed hk,
    text_formatDocument_formatDocument hk,
    if_neg (List.append_ne_nil_of_left_ne_nil hbs.ne_nil _)]

/-- Layout of a file neither opens nor closes its end. -/
theorem unterminated_laidFile : unterminated (laidFile o x) = [] ↔ unterminated x = [] := by
  by_cases h : unterminated x = []
  · refine iff_of_true ?_ h
    have hclosed := (unterminated_formatDocument o).2 h
    unfold laidFile fileText
    split
    · next hnil => rwa [hnil] at hclosed
    · refine (unterminated_congr ?_).2 hclosed
      rw [atoms_lineFeed hclosed, List.filter_append]
      exact List.append_nil _
  · refine iff_of_false ?_ h
    obtain ⟨as, r, hopen⟩ := exists_endsOpen h
    obtain ⟨bs, hbs⟩ := hopen.exists_formatDocument o
    rw [laidFile, fileText, if_neg hbs.ne_nil]
    exact hbs.lineFeed.unterminated_ne_nil

/-- Layout of a file is done in one go, unless the file ends inside a string or block comment that
is not closed. -/
theorem laidFile_laidFile_iff (hk : (Clauses.ofWords o.clauseWords).IsSolid) :
    laidFile o (laidFile o x) = laidFile o x ↔ unterminated x = [] := by
  by_cases h : unterminated x = []
  · exact iff_of_true (laidFile_laidFile hk h) h
  · obtain ⟨as, r, hopen⟩ := exists_endsOpen h
    refine iff_of_false (fun heq => ?_) h
    rw [hopen.laidFile_laidFile hk] at heq
    cases List.append_right_eq_self.1 heq

/-! ## One source -/

variable {w : Surroundings} {least : Severity} {s s' : Session} {source : Text}

/-- What is told of a text that is laid out changes nothing else. -/
theorem exists_run_told (clock : String) (least : Severity) (o : LayoutOptions) (x : Text)
    (shown : String) (s : Session) : ∃ err, ∀ {α : Type} (job : Job α),
      (do
        tellRecords clock least (formatNotes o x)
        (formatDocument o x).warnings.forM fun message =>
          tellLine ("Warning in " ++ shown ++ ": " ++ message)
        job).run s = job.run { s with err } := by
  obtain ⟨_, hrecords⟩ := Job.exists_yields_tellRecords clock least (formatNotes o x) s
  obtain ⟨err, hwarnings⟩ := Job.exists_yields_forM_tellLine
    (fun message => "Warning in " ++ shown ++ ": " ++ message) (formatDocument o x).warnings _
  rw [Job.Yields] at hrecords hwarnings
  refine ⟨err, fun job => ?_⟩
  rw [Job.run_bind, hrecords]
  dsimp only
  rw [Job.run_bind, hwarnings]

/-- A check of a source changes no file, and tells of the source if layout changes it. -/
theorem exists_yields_formatSource_check (least : Severity) (o : LayoutOptions) (many : Bool)
    (hname : source ≠ stdinName)
    (hread : s.tree.readText w.here (.ofText source) = .ok x) :
    ∃ err, (formatSource w least o .check many source).Yields s (laidFile o x != x)
      { s with
        out := s.out ++ if laidFile o x = x then [] else
          ("Would reformat " ++ String.ofList source).toList ++ ['\n']
        err } := by
  obtain ⟨err, htold⟩ := exists_run_told w.clock least o x (String.ofList source) s
  refine ⟨err, (Job.yields_readSource hname hread).bind ((htold _).trans ?_)⟩
  dsimp only
  have hlaid : fileText (formatDocument o x).text = laidFile o x := rfl
  rw [hlaid]
  by_cases h : laidFile o x = x
  · rw [if_neg (not_not_intro h), if_pos h, List.append_nil]
    exact Job.yields_pure _ _
  · rw [if_pos h, if_neg h]
    exact (Job.yields_putLine _ _).bind (Job.yields_pure _ _)

/-- A source is written, and told of, if layout changes it. -/
theorem exists_yields_formatSource_write (least : Severity) (o : LayoutOptions) (many : Bool)
    (hname : source ≠ stdinName)
    (hread : s.tree.readText w.here (.ofText source) = .ok x) {t : FileTree}
    (hwrite : laidFile o x ≠ x →
      s.tree.writeText w.here (.ofText source) (laidFile o x) = .ok t) :
    ∃ err, (formatSource w least o .write many source).Yields s (laidFile o x != x)
      { s with
        tree := if laidFile o x = x then s.tree else t
        out := s.out ++ if laidFile o x = x then [] else
          ("Formatted " ++ String.ofList source).toList ++ ['\n']
        err } := by
  obtain ⟨err, htold⟩ := exists_run_told w.clock least o x (String.ofList source) s
  refine ⟨err, (Job.yields_readSource hname hread).bind ((htold _).trans ?_)⟩
  dsimp only
  have hlaid : fileText (formatDocument o x).text = laidFile o x := rfl
  rw [hlaid]
  by_cases h : laidFile o x = x
  · rw [if_neg (not_not_intro h), if_pos h, if_pos h, List.append_nil]
    exact Job.yields_pure _ _
  · rw [if_pos h, if_neg h, if_neg h]
    have hwritten : (writeFile w.here (.ofText source) (laidFile o x) .fault).Yields
        { s with err } () { s with tree := t, err } :=
      Job.yields_writeFile .fault (hwrite h)
    exact hwritten.bind ((Job.yields_putLine _ _).bind (Job.yields_pure _ _))

/-- A source that cannot be read ends the layout. -/
theorem fails_formatSource_of_readText (least : Severity) (o : LayoutOptions) (mode : LayoutMode)
    (many : Bool) {f : Fault} (hname : source ≠ stdinName)
    (hread : s.tree.readText w.here (.ofText source) = .error f) :
    (formatSource w least o mode many source).Fails s (Job.unreadableSource source f) s :=
  (Job.fails_readSource hname hread).bind _

/-- A source that layout changes and that cannot be written ends the layout. -/
theorem exists_fails_formatSource_write (least : Severity) (o : LayoutOptions) (many : Bool)
    {f : Fault} (hname : source ≠ stdinName)
    (hread : s.tree.readText w.here (.ofText source) = .ok x) (h : laidFile o x ≠ x)
    (hwrite : s.tree.writeText w.here (.ofText source) (laidFile o x) = .error f) :
    ∃ err, (formatSource w least o .write many source).Fails s (.fault f) { s with err } := by
  obtain ⟨err, htold⟩ := exists_run_told w.clock least o x (String.ofList source) s
  refine ⟨err, (Job.yields_readSource hname hread).bind_fails ((htold _).trans ?_)⟩
  dsimp only
  have hlaid : fileText (formatDocument o x).text = laidFile o x := rfl
  rw [hlaid, if_pos h]
  have hfails : (writeFile w.here (.ofText source) (laidFile o x) .fault).Fails
      { s with err } (.fault f) { s with err } :=
    Job.fails_writeFile .fault hwrite
  exact hfails.bind _

/-! ## The command -/

/-- The exit code of a layout that changes so many sources. -/
def formatCode (mode : LayoutMode) (count : Nat) : Nat :=
  match mode with
  | .check => if count = 0 then 0 else 1
  | _ => 0

/-- What is printed after the last source of a layout that changes so many sources. -/
def formatSummary (mode : LayoutMode) (count : Nat) : Text :=
  let files := toString count ++ " " ++ plural "file" count
  match mode with
  | .print => []
  | .check =>
    if count = 0 then "All files are already formatted".toList ++ ['\n']
    else (files ++ " would be reformatted").toList ++ ['\n']
  | .write => ("Formatted " ++ files).toList ++ ['\n']

variable {c : Config} {paths sources : List Text} {mode : LayoutMode}
  {indent : Option (Option Text)} {split : Bool}

/-- A layout does what it does with the sources, and then sums up. -/
theorem yields_formatJob {changes : List Bool} {s' : Session}
    (ho : layoutOptions c indent split = .ok o)
    (hsources : collectSources s.tree w.here paths = .ok sources)
    (hstdin : ¬(mode ≠ .print ∧ stdinName ∈ sources))
    (hchanges : (sources.mapM (formatSource w least o mode (1 < sources.length))).Yields
      s changes s') :
    (formatJob w least c paths mode indent split).Yields s
      (formatCode mode (changes.count true))
      { s' with out := s'.out ++ formatSummary mode (changes.count true) } := by
  unfold formatJob
  rw [ho]
  refine (Job.yields_ofExcept o s).bind ((Job.yields_get s).bind ?_)
  rw [hsources]
  refine (Job.yields_ofExcept sources s).bind ?_
  rw [if_neg hstdin]
  refine hchanges.bind ?_
  cases mode with
  | print =>
    dsimp only [formatCode, formatSummary]
    rw [List.append_nil]
    exact Job.yields_pure _ _
  | check =>
    dsimp only [formatCode, formatSummary]
    by_cases hcount : changes.count true = 0
    · rw [if_pos hcount, if_pos hcount, if_pos hcount]
      exact (Job.yields_putLine _ _).bind (Job.yields_pure _ _)
    · rw [if_neg hcount, if_neg hcount, if_neg hcount]
      exact (Job.yields_putLine _ _).bind (Job.yields_pure _ _)
  | write =>
    exact (Job.yields_putLine _ _).bind (Job.yields_pure _ _)

theorem fails_formatJob_of_layoutOptions {failure : Failure}
    (h : layoutOptions c indent split = .error failure) :
    (formatJob w least c paths mode indent split).Fails s failure s := by
  unfold formatJob
  rw [h]
  exact (Job.fails_ofExcept failure s).bind _

theorem fails_formatJob_of_collectSources {failure : Failure}
    (ho : layoutOptions c indent split = .ok o)
    (h : collectSources s.tree w.here paths = .error failure) :
    (formatJob w least c paths mode indent split).Fails s failure s := by
  unfold formatJob
  rw [ho]
  refine (Job.yields_ofExcept o s).bind_fails ((Job.yields_get s).bind_fails ?_)
  rw [h]
  exact (Job.fails_ofExcept failure s).bind _

/-- The standard input is neither checked nor written. -/
theorem fails_formatJob_of_stdin (ho : layoutOptions c indent split = .ok o)
    (hsources : collectSources s.tree w.here paths = .ok sources)
    (hstdin : mode ≠ .print ∧ stdinName ∈ sources) :
    (formatJob w least c paths mode indent split).Fails s
      (.error (.ofKind .validation "--write and --check need file paths, not stdin"
        (some "Drop the flag to print the formatted SQL instead"))) s := by
  unfold formatJob
  rw [ho]
  refine (Job.yields_ofExcept o s).bind_fails ((Job.yields_get s).bind_fails ?_)
  rw [hsources]
  refine (Job.yields_ofExcept sources s).bind_fails ?_
  rw [if_pos hstdin]
  rfl

theorem fails_formatJob_of_mapM {failure : Failure} (ho : layoutOptions c indent split = .ok o)
    (hsources : collectSources s.tree w.here paths = .ok sources)
    (hstdin : ¬(mode ≠ .print ∧ stdinName ∈ sources))
    (hfails : (sources.mapM (formatSource w least o mode (1 < sources.length))).Fails
      s failure s') : (formatJob w least c paths mode indent split).Fails s failure s' := by
  unfold formatJob
  rw [ho]
  refine (Job.yields_ofExcept o s).bind_fails ((Job.yields_get s).bind_fails ?_)
  rw [hsources]
  refine (Job.yields_ofExcept sources s).bind_fails ?_
  rw [if_neg hstdin]
  exact hfails.bind _

/-- The options of a command differ from the settings in what the command asks for : a width of the
indent, and whether statements are parted. -/
theorem exists_of_layoutOptions (h : layoutOptions c indent split = .ok o) :
    ∃ n, (indent = none → n = c.layout.indentSize) ∧
      (∀ width ∈ indent, indentWidth (widthValue width) = .ok n) ∧
      o.checkIndent = .ok () ∧
      o = { c.layout with
        indentSize := n, splitStatements := c.layout.splitStatements || split } := by
  unfold layoutOptions at h
  cases indent with
  | none =>
    dsimp only [bind, Except.bind] at h
    split at h
    · next hcheck =>
      obtain rfl := Except.ok.inj h
      exact ⟨_, fun _ => rfl, nofun, hcheck, rfl⟩
    · cases h
  | some width =>
    dsimp only [bind, Except.bind] at h
    cases hwidth : indentWidth (widthValue width) with
    | error e =>
      rw [hwidth] at h
      cases h
    | ok n =>
      rw [hwidth] at h
      dsimp only at h
      split at h
      · next hcheck =>
        obtain rfl := Except.ok.inj h
        exact ⟨n, nofun, fun _ hmem => Option.some.inj hmem ▸ hwidth, hcheck, rfl⟩
      · cases h

/-! ## The end of a run -/

theorem finish_of_yields {job : Job Nat} {code : Nat} {s' : Session} (isVerbose : Bool)
    (h : job.Yields s code s') : finish w isVerbose job s = (.exit code, s') := by
  rw [Job.Yields] at h
  rw [finish, h]

/-- How a run ends that fails. -/
def failedEnding (w : Surroundings) (failure : Failure) : Ending :=
  if w.environment.reraises then .raised failure else .exit 1

theorem failedEnding_ne_exit_zero (w : Surroundings) (failure : Failure) :
    failedEnding w failure ≠ .exit 0 := by
  unfold failedEnding
  split <;> nofun

theorem endFailed_fst (w : Surroundings) (isVerbose : Bool) (failure : Failure) (s : Session) :
    (endFailed w isVerbose failure s).1 = failedEnding w failure := by
  unfold endFailed failedEnding
  split <;> rfl

theorem tree_endFailed (w : Surroundings) (isVerbose : Bool) (failure : Failure) (s : Session) :
    (endFailed w isVerbose failure s).2.tree = s.tree := by
  unfold endFailed
  split <;> rfl

theorem out_endFailed (w : Surroundings) (isVerbose : Bool) (failure : Failure) (s : Session) :
    (endFailed w isVerbose failure s).2.out = s.out := by
  unfold endFailed
  split <;> rfl

theorem finish_eq_of_fails {job : Job Nat} {failure : Failure} (isVerbose : Bool)
    (h : job.Fails s failure s') : finish w isVerbose job s = endFailed w isVerbose failure s' := by
  rw [Job.Fails] at h
  rw [finish, h]

/-- A run that fails does not end with the code zero. -/
theorem finish_of_fails {job : Job Nat} {failure : Failure} {s' : Session} (isVerbose : Bool)
    (h : job.Fails s failure s') : (finish w isVerbose job s).1 ≠ .exit 0 := by
  rw [finish_eq_of_fails isVerbose h, endFailed_fst]
  exact failedEnding_ne_exit_zero w failure

theorem Job.KeepsTree.tree_finish {job : Job Nat} (h : job.KeepsTree) (isVerbose : Bool)
    (s : Session) : (finish w isVerbose job s).2.tree = s.tree := by
  have hjob := h s
  unfold finish
  generalize job.run s = r at hjob
  obtain ⟨failure | code, s'⟩ := r
  · exact (tree_endFailed w isVerbose failure s').trans hjob
  · exact hjob

/-! ## A file that holds a text -/

namespace FileTree

/-- The path leads to a file at a place, which may be read and holds the text. -/
def HoldsText (t : FileTree) (here : Place) (p : Path) (place : Place) (x : Text) : Prop :=
  ∃ bytes, t.find? here p = .ok (some (place, .file bytes)) ∧
    t.isDenied .reading place = false ∧ textOfBytes bytes = .ok x

variable {t : FileTree} {here place : Place} {p : Path}

theorem HoldsText.readText (h : t.HoldsText here p place x) : t.readText here p = .ok x := by
  obtain ⟨bytes, hfind, hreadable, htext⟩ := h
  rw [readText_of_not_denied hfind hreadable, htext]

theorem exists_holdsText_of_readText (h : t.readText here p = .ok x) :
    ∃ place, t.HoldsText here p place x := by
  unfold readText readBytes at h
  cases hnull : p.hasNull with
  | true =>
    rw [hnull] at h
    cases h
  | false =>
    rw [hnull, if_neg Bool.false_ne_true] at h
    cases hfind : t.find here p with
    | error c =>
      rw [hfind] at h
      cases h
    | ok e =>
      rw [hfind] at h
      obtain ⟨place, _ | bytes⟩ := e
      · cases h
      · cases hreadable : t.isDenied .reading place with
        | true =>
          dsimp only at h
          rw [hreadable] at h
          cases h
        | false =>
          dsimp only at h
          rw [hreadable] at h
          exact ⟨place, bytes, find?_eq_some_iff.2 ⟨hnull, hfind⟩, hreadable, h⟩

theorem HoldsText.unique {y : Text} (h : t.HoldsText here p place x)
    (h' : t.HoldsText here p place y) : x = y :=
  Except.ok.inj (h.readText.symm.trans h'.readText)

theorem HoldsText.carriageReturn_not_mem (h : t.HoldsText here p place x) : '\r' ∉ x := by
  obtain ⟨_, -, -, htext⟩ := h
  exact carriageReturn_not_mem_of_textOfBytes htext

/-- A file that holds a text is written, unless that is denied. -/
theorem HoldsText.writeText (h : t.HoldsText here p place x) (y : Text) :
    t.writeText here p y =
      if t.isDenied .writing place then .error (.file .denied p.toText)
      else .ok (t.put place (.file (Utf8.encode y))) := by
  obtain ⟨bytes, hfind, -⟩ := h
  exact writeText_of_find? hfind y

/-- A file that holds a text holds the next one that is put there. -/
theorem HoldsText.put (h : t.HoldsText here p place x) {y : Text} (hy : '\r' ∉ y) :
    (t.put place (.file (Utf8.encode y))).HoldsText here p place y := by
  obtain ⟨bytes, hfind, hreadable, -⟩ := h
  exact ⟨_, find?_put hfind _, hreadable, textOfBytes_encode hy⟩

/-- The only source of a path that leads to a file is that path. -/
theorem collectSources_of_find? {path : Text} {bytes : List UInt8}
    (h : t.find? here (.ofText path) = .ok (some (place, .file bytes))) :
    collectSources t here [path] = .ok [(Path.ofText path).toText] := by
  have hsources : sourcesOf t here path = .ok [(Path.ofText path).toText] := by
    by_cases hname : path = stdinName
    · rw [hname]
      rfl
    · rw [sourcesOf, if_neg hname]
      dsimp only
      rw [h]
  rw [collectSources, List.mapM_cons, hsources]
  rfl

end FileTree

variable {path : Text} {place : Place} {bytes : List UInt8}

/-- The one source of a layout is told of or written, and then the layout sums up. -/
theorem yields_formatJob_of_find? (ho : layoutOptions c indent split = .ok o)
    (hname : (Path.ofText path).toText ≠ stdinName)
    (hfile : s.tree.find? w.here (.ofText path) = .ok (some (place, .file bytes)))
    {changed : Bool} {s' : Session}
    (hsource : (formatSource w least o mode false (Path.ofText path).toText).Yields s changed s') :
    (formatJob w least c [path] mode indent split).Yields s
      (formatCode mode changed.toNat)
      { s' with out := s'.out ++ formatSummary mode changed.toNat } := by
  have hcount : [changed].count true = changed.toNat := by cases changed <;> rfl
  rw [← hcount]
  refine yields_formatJob ho (FileTree.collectSources_of_find? hfile) (fun h => ?_)
    (Job.yields_mapM_cons hsource (Job.yields_mapM_nil _ _))
  exact hname (List.mem_singleton.1 h.2).symm

/-- The one source of a layout fails, and the layout with it. -/
theorem fails_formatJob_of_find? {failure : Failure} (ho : layoutOptions c indent split = .ok o)
    (hname : (Path.ofText path).toText ≠ stdinName)
    (hfile : s.tree.find? w.here (.ofText path) = .ok (some (place, .file bytes)))
    (hsource : (formatSource w least o mode false (Path.ofText path).toText).Fails s failure s') :
    (formatJob w least c [path] mode indent split).Fails s failure s' := by
  refine fails_formatJob_of_mapM ho (FileTree.collectSources_of_find? hfile) (fun h => ?_)
    (Job.fails_mapM_head hsource [])
  exact hname (List.mem_singleton.1 h.2).symm

/-- A check of one file that holds a text. -/
theorem exists_finish_format_check (isVerbose : Bool)
    (ho : layoutOptions c indent split = .ok o) (hname : (Path.ofText path).toText ≠ stdinName)
    (hx : s.tree.HoldsText w.here (.ofText path) place x) :
    ∃ err, finish w isVerbose (commandJob w least c (.format [path] .check indent split)) s =
      (.exit (if laidFile o x = x then 0 else 1),
        { s with
          out := s.out ++ if laidFile o x = x then formatSummary .check 0 else
            ("Would reformat " ++ String.ofList (Path.ofText path).toText).toList ++ ['\n'] ++
              formatSummary .check 1
          err }) := by
  have hread : s.tree.readText w.here (.ofText (Path.ofText path).toText) = .ok x := by
    rw [Path.ofText_toText (Path.isNormal_ofText path), hx.readText]
  obtain ⟨err, hsource⟩ := exists_yields_formatSource_check least o false hname hread
  obtain ⟨_, hfile, -⟩ := hx
  refine ⟨err, (finish_of_yields isVerbose
    (yields_formatJob_of_find? ho hname hfile hsource)).trans ?_⟩
  by_cases h : laidFile o x = x
  · rw [if_pos h, if_pos h, if_pos h, h, bne_self_eq_false, List.append_nil]
    rfl
  · rw [if_neg h, if_neg h, if_neg h, bne_iff_ne.2 h]
    dsimp only
    rw [List.append_assoc s.out]
    rfl

/-- A file that holds a text is written if layout changes the text. -/
theorem exists_finish_format_write (isVerbose : Bool)
    (ho : layoutOptions c indent split = .ok o) (hname : (Path.ofText path).toText ≠ stdinName)
    (hx : s.tree.HoldsText w.here (.ofText path) place x)
    (hwritable : laidFile o x ≠ x → s.tree.isDenied .writing place = false) :
    ∃ s', finish w isVerbose (commandJob w least c (.format [path] .write indent split)) s =
        (.exit 0, s') ∧
      s'.tree = if laidFile o x = x then s.tree else
        s.tree.put place (.file (Utf8.encode (laidFile o x))) := by
  have hpath : Path.ofText (Path.ofText path).toText = Path.ofText path :=
    Path.ofText_toText (Path.isNormal_ofText path)
  have hread : s.tree.readText w.here (.ofText (Path.ofText path).toText) = .ok x := by
    rw [hpath, hx.readText]
  obtain ⟨bytes, hfile, -⟩ := hx
  have hwrite : laidFile o x ≠ x →
      s.tree.writeText w.here (.ofText (Path.ofText path).toText) (laidFile o x) =
        .ok (s.tree.put place (.file (Utf8.encode (laidFile o x)))) := fun h => by
    rw [hpath, FileTree.writeText_of_find? hfile, if_neg (Bool.eq_false_iff.1 (hwritable h))]
  obtain ⟨err, hsource⟩ := exists_yields_formatSource_write least o false hname hread hwrite
  exact ⟨_, finish_of_yields isVerbose (yields_formatJob_of_find? ho hname hfile hsource), rfl⟩

/-- A file holds the text as it is laid out, once it has been written if that is another one. -/
theorem FileTree.HoldsText.laid (h : s.tree.HoldsText w.here (.ofText path) place x)
    (htree : s'.tree = if laidFile o x = x then s.tree else
      s.tree.put place (.file (Utf8.encode (laidFile o x)))) :
    s'.tree.HoldsText w.here (.ofText path) place (laidFile o x) ∧
      (s'.tree = s.tree ↔ laidFile o x = x) := by
  by_cases hlaid : laidFile o x = x
  · rw [htree, if_pos hlaid, hlaid]
    exact ⟨h, iff_of_true rfl rfl⟩
  · have hheld := h.put (carriageReturn_not_mem_laidFile (o := o) h.carriageReturn_not_mem)
    rw [htree, if_neg hlaid]
    refine ⟨hheld, iff_of_false (fun hsame => ?_) hlaid⟩
    rw [hsame] at hheld
    exact hlaid (hheld.unique h)

/-- What a run that ends well was given : options that can be gone by, and a file that may be read,
and written if layout changes it. -/
theorem exists_of_finish_format_write (isVerbose : Bool)
    (hfile : s.tree.find? w.here (.ofText path) = .ok (some (place, .file bytes)))
    (htext : FileTree.textOfBytes bytes = .ok x)
    (h : (finish w isVerbose
      (commandJob w least c (.format [path] .write indent split)) s).1 = .exit 0) :
    ∃ o, layoutOptions c indent split = .ok o ∧ (Path.ofText path).toText ≠ stdinName ∧
      s.tree.HoldsText w.here (.ofText path) place x ∧
      (laidFile o x ≠ x → s.tree.isDenied .writing place = false) := by
  have hpath : Path.ofText (Path.ofText path).toText = Path.ofText path :=
    Path.ofText_toText (Path.isNormal_ofText path)
  cases ho : layoutOptions c indent split with
  | error failure =>
    exact absurd h (finish_of_fails isVerbose (fails_formatJob_of_layoutOptions ho))
  | ok o =>
    have hname : (Path.ofText path).toText ≠ stdinName := fun hname => by
      have hstdin : LayoutMode.write ≠ .print ∧ stdinName ∈ [(Path.ofText path).toText] :=
        ⟨nofun, List.mem_singleton.2 hname.symm⟩
      exact finish_of_fails isVerbose (fails_formatJob_of_stdin ho
        (FileTree.collectSources_of_find? hfile) hstdin) h
    have hsource {failure : Failure} {s' : Session} : ¬(formatSource w least o .write false
        (Path.ofText path).toText).Fails s failure s' := fun hfails =>
      finish_of_fails isVerbose (fails_formatJob_of_find? ho hname hfile hfails) h
    have hreadable : s.tree.isDenied .reading place = false := by
      refine Bool.eq_false_iff.2 fun hdenied => ?_
      have hread := FileTree.readText_of_find? hfile
      rw [← hpath, if_pos hdenied] at hread
      exact hsource (fails_formatSource_of_readText least o .write false hname hread)
    have hx : s.tree.HoldsText w.here (.ofText path) place x := ⟨bytes, hfile, hreadable, htext⟩
    refine ⟨o, rfl, hname, hx, fun hlaid => Bool.eq_false_iff.2 fun hdenied => ?_⟩
    obtain ⟨_, hfails⟩ := exists_fails_formatSource_write least o false hname
      (by rw [hpath]; exact hx.readText) hlaid
      (by rw [hpath, FileTree.writeText_of_find? hfile, if_pos hdenied])
    exact hsource hfails

/-- A check after a write finds nothing to do and ends with the code zero, and a second write
leaves the files as they are. All of this fails where the text that was written first ends inside a
string or block comment that is not closed, and only there. -/
theorem format_write_check_iff (isVerbose : Bool) {place : Place} {bytes : List UInt8}
    {s' : Session} (hwords : ∀ v ∈ c.layout.clauseWords, ∀ a ∈ Text.trim v, isBlank a = false)
    (hfile : s.tree.find? w.here (.ofText path) = .ok (some (place, .file bytes)))
    (htext : FileTree.textOfBytes bytes = .ok x)
    (hwrite : finish w isVerbose
      (commandJob w least c (.format [path] .write indent split)) s = (.exit 0, s')) :
    let check := finish w isVerbose
      (commandJob w least c (.format [path] .check indent split)) s'
    let again := finish w isVerbose
      (commandJob w least c (.format [path] .write indent split)) s'
    (check.1 = .exit 0 ↔ unterminated x = []) ∧
      (check.2.out = s'.out ++ "All files are already formatted\n".toList ↔
        unterminated x = []) ∧
      (again.2.tree = s'.tree ↔ unterminated x = []) := by
  obtain ⟨o, ho, hname, hx, hwritable⟩ := exists_of_finish_format_write isVerbose hfile htext
    (congrArg Prod.fst hwrite)
  obtain ⟨_, -, -, -, hoptions⟩ := exists_of_layoutOptions ho
  have hk : (Clauses.ofWords o.clauseWords).IsSolid := by
    rw [hoptions]
    exact isSolid_ofWords hwords
  obtain ⟨s₁, hwritten, hlaid⟩ := exists_finish_format_write isVerbose ho hname hx hwritable
  obtain rfl : s₁ = s' := (Prod.mk.inj (hwritten.symm.trans hwrite)).2
  obtain ⟨hheld, -⟩ := hx.laid hlaid
  obtain ⟨err, hcheck⟩ := exists_finish_format_check isVerbose ho hname hheld
  -- a text that layout changes twice was changed at first, so the file may be written
  have hwritable' : laidFile o (laidFile o x) ≠ laidFile o x →
      s₁.tree.isDenied .writing place = false := fun hagain => by
    have hfirst : laidFile o x ≠ x := fun h => hagain (congrArg (laidFile o) h)
    rw [hlaid, if_neg hfirst]
    exact hwritable hfirst
  obtain ⟨_, hagain, hlaid'⟩ := exists_finish_format_write isVerbose ho hname hheld hwritable'
  rw [hcheck, hagain]
  dsimp only
  rw [(hheld.laid hlaid').2, ← @laidFile_laidFile_iff o x hk, List.append_right_inj]
  by_cases h : laidFile o (laidFile o x) = laidFile o x
  · rw [if_pos h, if_pos h]
    exact ⟨iff_of_true rfl h, iff_of_true rfl h, Iff.rfl⟩
  · rw [if_neg h, if_neg h]
    refine ⟨iff_of_false nofun h, iff_of_false (fun hout => ?_) h, Iff.rfl⟩
    -- the texts differ in the first character
    rw [String.toList_append] at hout
    exact absurd (Option.some.inj (congrArg List.head? hout)) (by decide)

theorem format_write_check_iff_windows :
    let w : Surroundings := ⟨[], .empty, "", "", fun _ => "", none⟩
    let c := Config.standard ⟨1, []⟩
    let path := "q.sql".toList
    let bytes := Utf8.encode "select a,b\r\nfrom t -- all".toList
    let x := "select a,b\nfrom t -- all".toList
    let s := Session.start (FileTree.empty.put [path] (.file bytes)) []
    ∃ s', (∀ v ∈ c.layout.clauseWords, ∀ a ∈ Text.trim v, isBlank a = false) ∧
      s.tree.find? w.here (.ofText path) = .ok (some ([path], .file bytes)) ∧
      FileTree.textOfBytes bytes = .ok x ∧
      finish w false (commandJob w .warning c (.format [path] .write none true)) s =
        (.exit 0, s') ∧
      let check := finish w false (commandJob w .warning c (.format [path] .check none true)) s'
      let again := finish w false (commandJob w .warning c (.format [path] .write none true)) s'
      (check.1 = .exit 0 ↔ unterminated x = []) ∧
        (check.2.out = s'.out ++ "All files are already formatted\n".toList ↔
          unterminated x = []) ∧
        (again.2.tree = s'.tree ↔ unterminated x = []) := by
  intro w c path bytes x s
  have hfile : s.tree.find? w.here (.ofText path) = .ok (some ([path], .file bytes)) := rfl
  have htext : FileTree.textOfBytes bytes = .ok x := by
    rw [FileTree.textOfBytes, Utf8.decode_encode]
    rfl
  have ho : layoutOptions c none true = .ok { c.layout with splitStatements := true } := rfl
  obtain ⟨s', hwrite, -⟩ := exists_finish_format_write false ho (by decide)
    ⟨_, hfile, rfl, htext⟩ fun _ => rfl
  exact ⟨s', isBlank_of_mem_standardClauseWords, hfile, htext, hwrite,
    format_write_check_iff false isBlank_of_mem_standardClauseWords hfile htext hwrite⟩

/-- A quote that is not closed : what was written is not laid out, and is written again. -/
theorem format_write_check_open_string :
    let w : Surroundings := ⟨[], .empty, "", "", fun _ => "", none⟩
    let c := Config.standard ⟨1, []⟩
    let path := "q.sql".toList
    let s := Session.start (FileTree.empty.put [path] (.file (Utf8.encode "'a".toList))) []
    ∃ s', finish w false (commandJob w .warning c (.format [path] .write none false)) s =
        (.exit 0, s') ∧
      (finish w false (commandJob w .warning c (.format [path] .check none false)) s').1 =
        .exit 1 ∧
      (finish w false (commandJob w .warning c (.format [path] .write none false)) s').2.tree ≠
        s'.tree := by
  intro w c path s
  have hk : (Clauses.ofWords c.layout.clauseWords).IsSolid :=
    isSolid_ofWords isBlank_of_mem_standardClauseWords
  have hopen : EndsOpen "'a".toList [] ⟨.string, "'a".toList, false⟩ :=
    endsOpen_quote (.char (by decide) .nil)
  have hagain : laidFile c.layout (laidFile c.layout "'a".toList) ≠ laidFile c.layout "'a".toList :=
    fun h => hopen.unterminated_ne_nil ((laidFile_laidFile_iff hk).1 h)
  have hx : s.tree.HoldsText w.here (.ofText path) [path] "'a".toList :=
    ⟨_, rfl, rfl, FileTree.textOfBytes_encode (by decide)⟩
  have ho : layoutOptions c none false = .ok c.layout := rfl
  have hname : (Path.ofText path).toText ≠ stdinName := by decide
  obtain ⟨s', hwritten, hlaid⟩ := exists_finish_format_write false ho hname hx fun _ => rfl
  have hwritable : s'.tree.isDenied .writing [path] = false := by
    rw [hlaid, if_neg (laidFile_ne_self (by decide) (by decide))]
    rfl
  obtain ⟨hheld, -⟩ := hx.laid hlaid
  obtain ⟨err, hcheck⟩ := exists_finish_format_check false ho hname hheld
  obtain ⟨s'', hwritten', hlaid'⟩ :=
    exists_finish_format_write false ho hname hheld fun _ => hwritable
  refine ⟨s', hwritten, ?_, ?_⟩
  · rw [hcheck, if_neg hagain]
  · rw [hwritten']
    exact fun h => hagain ((hheld.laid hlaid').2.1 h)

end SqlSnippet
