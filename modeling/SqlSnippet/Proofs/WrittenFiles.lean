import SqlSnippet.Proofs.CheckAndWrite

/-!
# Files that a layout writes

A layout that is not to replace files changes none (`keepsTree_formatJob`), nor does one that is
refused (`IsRefused`) : for its indent, for an operand that names nothing, or for the standard input
where files are wanted. A layout that replaces files goes through its sources in order, up to the
first that cannot be read, or that layout changes and that may not be written (`EndsLayout`). The
sources before that one are laid out, and everything else in the files is as it was
(`FileTree.AreLaid`, `exists_mapM_write`).
-/

namespace SqlSnippet

/-! ## Operands that name nothing -/

/-- An operand that names no source : it leads nowhere, or to a directory without SQL files, or it
or something below it cannot be looked up. -/
inductive NamesNothing (t : FileTree) (here : Place) (path : Text) : Prop
  | missing (h : t.find? here (.ofText path) = .ok none)
  | noFiles {place : Place} (h : t.find? here (.ofText path) = .ok (some (place, .directory)))
      (hfiles : sqlFilesBelow t place (.ofText path) = [])
  | tooLong {place : Place} {q : Path}
      (h : t.find? here (.ofText path) = .ok (some (place, .directory)))
      (hlong : tooLongBelow? t place (.ofText path) = some q)
  | fault {f : Fault} (h : t.find? here (.ofText path) = .error f)

variable {t : FileTree} {here : Place} {path : Text} {paths sources : List Text}

theorem exists_sourcesOf_eq_error_iff : (∃ failure, sourcesOf t here path = .error failure) ↔
    path ≠ stdinName ∧ NamesNothing t here path := by
  unfold sourcesOf
  by_cases hname : path = stdinName
  · rw [if_pos hname]
    exact iff_of_false nofun fun h => h.1 hname
  · rw [if_neg hname]
    dsimp only
    constructor
    · rintro ⟨failure, h⟩
      refine ⟨hname, ?_⟩
      split at h
      · next hfind => exact .fault hfind
      · next hfind =>
        split at h
        · next hlong => exact .tooLong hfind hlong
        · split at h
          · next hfiles => exact .noFiles hfind hfiles
          · cases h
      · cases h
      · next hfind => exact .missing hfind
    · rintro ⟨-, h⟩
      cases h with
      | missing h => rw [h]; exact ⟨_, rfl⟩
      | noFiles h hfiles =>
        rw [h]
        dsimp only
        rw [hfiles]
        cases tooLongBelow? t _ (.ofText path) <;> exact ⟨_, rfl⟩
      | tooLong h hlong =>
        rw [h]
        dsimp only
        rw [hlong]
        exact ⟨_, rfl⟩
      | fault h => rw [h]; exact ⟨_, rfl⟩

/-- Operands are refused if one of them is. -/
theorem exists_collectSources_eq_error_iff :
    (∃ failure, collectSources t here paths = .error failure) ↔
      ∃ path ∈ paths, ∃ failure, sourcesOf t here path = .error failure := by
  unfold collectSources
  induction paths with
  | nil => exact iff_of_false nofun nofun
  | cons p ps ih =>
    rw [List.mapM_cons, List.exists_mem_cons_iff, ← ih]
    cases sourcesOf t here p with
    | error failure => exact iff_of_true ⟨failure, rfl⟩ (Or.inl ⟨failure, rfl⟩)
    | ok names =>
      cases ps.mapM (sourcesOf t here) with
      | error failure => exact iff_of_true ⟨failure, rfl⟩ (Or.inr ⟨failure, rfl⟩)
      | ok namess => exact iff_of_false nofun (by rintro (⟨_, ⟨⟩⟩ | ⟨_, ⟨⟩⟩))

/-! ## Layouts that change no file -/

variable {w : Surroundings} {least : Severity} {s s' : Session} {c : Config} {mode : LayoutMode}
  {indent : Option (Option Text)} {split : Bool} {o : LayoutOptions} {x p : Text}

theorem keepsTree_formatSource (hmode : mode ≠ .write) (least : Severity) (o : LayoutOptions)
    (many : Bool) (source : Text) : (formatSource w least o mode many source).KeepsTree := by
  refine (Job.keepsTree_readSource _ _).bind fun x => (Job.keepsTree_tellRecords _ _ _).bind
    fun _ => (Job.keepsTree_forM_tellLine _ _).bind fun _ => ?_
  cases mode with
  | print =>
    dsimp only
    split
    · exact (Job.keepsTree_putText _).bind fun _ => (Job.keepsTree_putText _).bind fun _ =>
        Job.keepsTree_pure _
    · exact (Job.keepsTree_putText _).bind fun _ => Job.keepsTree_pure _
  | check =>
    dsimp only
    split
    · exact (Job.keepsTree_putText _).bind fun _ => Job.keepsTree_pure _
    · exact Job.keepsTree_pure _
  | write => exact absurd rfl hmode

/-- A layout that is not to replace files changes none. -/
theorem keepsTree_formatJob (hmode : mode ≠ .write) (w : Surroundings) (least : Severity)
    (c : Config) (paths : List Text) (indent : Option (Option Text)) (split : Bool) :
    (formatJob w least c paths mode indent split).KeepsTree := by
  refine (Job.keepsTree_ofExcept _).bind fun o => Job.keepsTree_get_bind fun s =>
    (Job.keepsTree_ofExcept _).bind fun sources => ?_
  dsimp only
  split
  · exact Job.keepsTree_throw _
  · refine (Job.keepsTree_mapM (keepsTree_formatSource hmode least o _) sources).bind
      fun changes => ?_
    cases mode with
    | print => exact Job.keepsTree_pure _
    | check =>
      dsimp only
      split
      · exact (Job.keepsTree_putText _).bind fun _ => Job.keepsTree_pure _
      · exact (Job.keepsTree_putText _).bind fun _ => Job.keepsTree_pure _
    | write => exact absurd rfl hmode

/-- What refuses a layout before it reads a source : an indent that cannot be made, an operand that
names nothing, or the standard input where files are wanted. -/
inductive IsRefused (t : FileTree) (here : Place) (c : Config) (paths : List Text)
    (mode : LayoutMode) (indent : Option (Option Text)) (split : Bool) : Prop
  | indent {failure : Failure} (h : layoutOptions c indent split = .error failure)
  | operand {path : Text} (h : path ∈ paths) (hname : path ≠ stdinName)
      (hnothing : NamesNothing t here path)
  | stdin {sources : List Text} (h : collectSources t here paths = .ok sources)
      (hmode : mode ≠ .print) (hname : stdinName ∈ sources)

theorem isRefused_of_collectSources {failure : Failure}
    (h : collectSources t here paths = .error failure) :
    IsRefused t here c paths mode indent split := by
  obtain ⟨path, hpath, hrefused⟩ := exists_collectSources_eq_error_iff.1 ⟨failure, h⟩
  obtain ⟨hname, hnothing⟩ := exists_sourcesOf_eq_error_iff.1 hrefused
  exact .operand hpath hname hnothing

/-- A layout that is refused has done nothing. -/
theorem IsRefused.exists_fails (h : IsRefused s.tree w.here c paths mode indent split)
    (least : Severity) :
    ∃ failure, (formatJob w least c paths mode indent split).Fails s failure s := by
  cases ho : layoutOptions c indent split with
  | error failure => exact ⟨failure, fails_formatJob_of_layoutOptions ho⟩
  | ok o =>
    cases h with
    | indent h => cases h.symm.trans ho
    | operand h hname hnothing =>
      obtain ⟨failure, hsources⟩ := exists_collectSources_eq_error_iff.2
        ⟨_, h, exists_sourcesOf_eq_error_iff.2 ⟨hname, hnothing⟩⟩
      exact ⟨failure, fails_formatJob_of_collectSources ho hsources⟩
    | stdin h hmode hname => exact ⟨_, fails_formatJob_of_stdin ho h ⟨hmode, hname⟩⟩

/-! ## Files that have been laid out -/

namespace FileTree

variable {t' : FileTree} {seen : List (Option Place)} {place : Place} {bytes : List UInt8}

/-- The bytes of a file after layout, which stay where layout does not change the text. -/
def laidBytes (o : LayoutOptions) (bytes : List UInt8) (x : Text) : List UInt8 :=
  if laidFile o x = x then bytes else Utf8.encode (laidFile o x)

theorem textOfBytes_laidBytes (h : textOfBytes bytes = .ok x) :
    textOfBytes (laidBytes o bytes x) = .ok (laidFile o x) := by
  unfold laidBytes
  split
  · next hlaid => rw [hlaid, h]
  · exact textOfBytes_encode
      (carriageReturn_not_mem_laidFile (carriageReturn_not_mem_of_textOfBytes h))

/-- The files of `t` at the places that have been seen are laid out in `t'`, and all else is as it
was. -/
structure AreLaid (o : LayoutOptions) (t : FileTree) (seen : List (Option Place))
    (t' : FileTree) : Prop where
  laid : ∀ q, some q ∈ seen → ∃ bytes x, t.get? q = some (.file bytes) ∧
    textOfBytes bytes = .ok x ∧ t'.get? q = some (.file (laidBytes o bytes x))
  other : ∀ q, some q ∉ seen → t'.get? q = t.get? q
  denials : t'.denials = t.denials

theorem areLaid_nil (o : LayoutOptions) (t : FileTree) : AreLaid o t [] t :=
  ⟨nofun, fun _ _ => rfl, rfl⟩

theorem AreLaid.sameShape (h : AreLaid o t seen t') : t'.SameShape t := by
  refine ⟨fun q => ?_, h.denials⟩
  by_cases hq : some q ∈ seen
  · obtain ⟨bytes, x, hget, -, hget'⟩ := h.laid q hq
    exact Or.inr ⟨⟨_, hget'⟩, _, hget⟩
  · exact Or.inl (h.other q hq)

/-- A file at a place that has not been seen is found as it was. -/
theorem AreLaid.holdsText_of_not_mem (h : AreLaid o t seen t') (hnew : some place ∉ seen)
    (hx : t.HoldsText here (.ofText p) place x) : t'.HoldsText here (.ofText p) place x := by
  obtain ⟨bytes, hfind, hreadable, htext⟩ := hx
  obtain ⟨hnull, hfollow, hget⟩ := find?_eq_ok_iff.1 hfind
  exact ⟨bytes, find?_eq_ok_iff.2
    ⟨hnull, (follow_congr h.sameShape here _).trans hfollow, (h.other place hnew).trans hget⟩,
    (h.sameShape.isDenied .reading place).trans hreadable, htext⟩

/-- What is read at a path depends on where paths lead and on what is there. -/
theorem readBytes_congr (h : t'.SameShape t)
    (hget : ∀ q, t.placeOf? here p = some q → t'.get? q = t.get? q) :
    t'.readBytes here (.ofText p) = t.readBytes here (.ofText p) := by
  unfold readBytes find
  rw [follow_congr h]
  unfold placeOf? at hget
  cases hfollow : t.follow here (.ofText p) with
  | error cause => rfl
  | ok q =>
    rw [hfollow] at hget
    dsimp only
    rw [hget q rfl]
    simp only [h.isDenied]

theorem AreLaid.readBytes_of_not_mem (h : AreLaid o t seen t')
    (hnew : t.placeOf? here p ∉ seen) :
    t'.readBytes here (.ofText p) = t.readBytes here (.ofText p) :=
  readBytes_congr h.sameShape fun q hq => h.other q (hq ▸ hnew)

/-- A file that is laid out has the bytes of its text after layout, and the others keep theirs. -/
theorem get?_laid (hget : t.get? place = some (.file bytes)) (q : Place) :
    (if laidFile o x = x then t else t.put place (.file (Utf8.encode (laidFile o x)))).get? q =
      if q = place then some (.file (laidBytes o bytes x)) else t.get? q := by
  unfold laidBytes
  by_cases hlaid : laidFile o x = x
  · rw [if_pos hlaid, if_pos hlaid]
    split
    · next hq => rw [hq, hget]
    · rfl
  · rw [if_neg hlaid, if_neg hlaid, get?_put t _ (ne_nil_of_get?_eq_file hget)]

/-- A file at a place that has not been seen is laid out once it is written. -/
theorem AreLaid.snoc (h : AreLaid o t seen t') (hnew : some place ∉ seen)
    (hx : t.HoldsText here (.ofText p) place x) :
    AreLaid o t (seen ++ [some place]) (if laidFile o x = x then t' else
      t'.put place (.file (Utf8.encode (laidFile o x)))) := by
  obtain ⟨bytes, hfind, -, htext⟩ := hx
  have hget := (find?_eq_ok_iff.1 hfind).2.2
  have hlaid := get?_laid (o := o) (x := x) ((h.other place hnew).trans hget)
  refine ⟨fun q hq => ?_, fun q hq => ?_, ?_⟩
  · rw [hlaid]
    split
    · next hplace => exact ⟨bytes, x, hplace ▸ hget, htext, rfl⟩
    · next hplace =>
      refine h.laid q ((List.mem_append.1 hq).resolve_right fun hlast => hplace ?_)
      exact Option.some.inj (List.mem_singleton.1 hlast)
  · rw [List.mem_append, List.mem_singleton, not_or] at hq
    rw [hlaid, if_neg fun hplace => hq.2 (congrArg some hplace), h.other q hq.1]
  · split
    · exact h.denials
    · exact h.denials

/-- A source that has been laid out is read as its text after layout. -/
theorem AreLaid.readText_of_mem (h : AreLaid o t seen t') (hseen : t.placeOf? here p ∈ seen)
    (hread : t.readText here (.ofText p) = .ok x) :
    t'.readText here (.ofText p) = .ok (laidFile o x) ∧
      (t'.readBytes here (.ofText p) = t.readBytes here (.ofText p) ∨
        t'.readBytes here (.ofText p) = .ok (Utf8.encode (laidFile o x))) := by
  obtain ⟨place, hx⟩ := exists_holdsText_of_readText hread
  rw [hx.placeOf?] at hseen
  obtain ⟨bytes, hfind, hreadable, htext⟩ := hx
  obtain ⟨hnull, hfollow, hget⟩ := find?_eq_ok_iff.1 hfind
  obtain ⟨bytes', x', hgot, htext', hget'⟩ := h.laid place hseen
  obtain rfl := Entry.file.inj (Option.some.inj (hget.symm.trans hgot))
  obtain rfl := Except.ok.inj (htext.symm.trans htext')
  have hfind' : t'.find? here (.ofText p) = .ok (some (place, .file (laidBytes o bytes x))) :=
    find?_eq_ok_iff.2 ⟨hnull, (follow_congr h.sameShape here _).trans hfollow, hget'⟩
  have hreadable' := (h.sameShape.isDenied .reading place).trans hreadable
  have hheld : t'.HoldsText here (.ofText p) place (laidFile o x) :=
    ⟨_, hfind', hreadable', textOfBytes_laidBytes htext⟩
  refine ⟨hheld.readText, ?_⟩
  rw [readBytes_of_not_denied hfind' hreadable', readBytes_of_not_denied hfind hreadable, laidBytes]
  split
  · exact Or.inl rfl
  · exact Or.inr rfl

/-- How far a layout has come that replaces files : the sources `done` have been laid out, each
as it was, and it has not come to the sources `rest`. -/
structure IsWritten (o : LayoutOptions) (t : FileTree) (here : Place) (done rest : List Text)
    (t' : FileTree) : Prop where
  laid : ∀ p ∈ done, ∃ x, t.readText here (.ofText p) = .ok x ∧
    t'.readText here (.ofText p) = .ok (laidFile o x) ∧
    (t'.readBytes here (.ofText p) = t.readBytes here (.ofText p) ∨
      t'.readBytes here (.ofText p) = .ok (Utf8.encode (laidFile o x)))
  kept : ∀ p ∈ rest, t'.readBytes here (.ofText p) = t.readBytes here (.ofText p)
  other : ∀ q, (∀ p ∈ done, t.placeOf? here p ≠ some q) → t'.get? q = t.get? q

theorem AreLaid.isWritten {done rest : List Text}
    (h : AreLaid o t (done.map (t.placeOf? here)) t')
    (hread : ∀ p ∈ done, ∃ x, t.readText here (.ofText p) = .ok x)
    (hnodup : ((done ++ rest).map (t.placeOf? here)).Nodup) :
    IsWritten o t here done rest t' where
  laid p hp := (hread p hp).imp fun x hx => ⟨hx, h.readText_of_mem (List.mem_map_of_mem hp) hx⟩
  kept p hp := by
    rw [List.map_append, List.nodup_append] at hnodup
    exact h.readBytes_of_not_mem fun hmem =>
      hnodup.2.2 _ hmem _ (List.mem_map_of_mem hp) rfl
  other q hq := h.other q fun hmem => by
    obtain ⟨p, hp, hplace⟩ := List.mem_map.1 hmem
    exact hq p hp hplace

end FileTree

/-! ## The run of a layout -/

/-- What ends a layout that replaces files : a source that cannot be read, or one that layout
changes and that may not be written. -/
inductive EndsLayout (o : LayoutOptions) (t : FileTree) (here : Place) (p : Text) : Failure → Prop
  | unreadable {f : Fault} (h : t.readText here (.ofText p) = .error f) :
    EndsLayout o t here p (Job.unreadableSource p f)
  | unwritable {x : Text} (h : t.readText here (.ofText p) = .ok x) (hchanged : laidFile o x ≠ x)
      (hdenied : t.DeniesWriting here p) : EndsLayout o t here p (deniedSource p)

variable {seen : List (Option Place)} {many : Bool}

/-- A source ends the layout, or is laid out. -/
theorem exists_formatSource_of_areLaid (least : Severity) (many : Bool)
    (h : FileTree.AreLaid o t seen s.tree) (hname : p ≠ stdinName)
    (hnew : t.placeOf? w.here p ∉ seen) :
    let job := formatSource w least o .write many p
    (∃ x changed s', t.readText w.here (.ofText p) = .ok x ∧ job.Yields s changed s' ∧
      FileTree.AreLaid o t (seen ++ [t.placeOf? w.here p]) s'.tree) ∨
      ∃ failure s', EndsLayout o t w.here p failure ∧ job.Fails s failure s' ∧
        s'.tree = s.tree := by
  intro job
  cases hread : t.readText w.here (.ofText p) with
  | error f =>
    have hread' : s.tree.readText w.here (.ofText p) = .error f := by
      rw [FileTree.readText, h.readBytes_of_not_mem hnew, ← FileTree.readText, hread]
    exact Or.inr ⟨_, s, .unreadable hread,
      fails_formatSource_of_readText least o .write many hname hread', rfl⟩
  | ok x =>
    obtain ⟨place, hx⟩ := FileTree.exists_holdsText_of_readText hread
    have hplace := hx.placeOf?
    rw [hplace] at hnew ⊢
    have hnow := h.holdsText_of_not_mem hnew hx
    have hwrite := hnow.writeText (laidFile o x)
    rw [h.sameShape.isDenied] at hwrite
    by_cases hends : laidFile o x ≠ x ∧ t.isDenied .writing place = true
    · rw [if_pos hends.2] at hwrite
      obtain ⟨_, hfails⟩ :=
        exists_fails_formatSource_write least o many hname hnow.readText hends.1 hwrite
      exact Or.inr ⟨_, _, .unwritable hread hends.1 ⟨place, hplace, hends.2⟩, hfails, rfl⟩
    · rw [not_and] at hends
      obtain ⟨_, hstep⟩ := exists_yields_formatSource_write least o many hname hnow.readText
        fun hlaid => hwrite.trans (if_neg (hends hlaid))
      exact Or.inl ⟨x, _, _, rfl, hstep, h.snoc hnew hx⟩

/-- A layout that replaces files goes through its sources up to the first that ends it. -/
theorem exists_mapM_write (least : Severity) (many : Bool)
    (h : FileTree.AreLaid o t seen s.tree)
    (hname : stdinName ∉ sources) (hnodup : (sources.map (t.placeOf? w.here)).Nodup)
    (hnew : ∀ p ∈ sources, t.placeOf? w.here p ∉ seen) :
    let job := sources.mapM (formatSource w least o .write many)
    ∃ laid rest s', sources = laid ++ rest ∧
      (∀ p ∈ laid, ∃ x, t.readText w.here (.ofText p) = .ok x) ∧
      FileTree.AreLaid o t (seen ++ laid.map (t.placeOf? w.here)) s'.tree ∧
      ((rest = [] ∧ ∃ changes, job.Yields s changes s') ∨
        ∃ p failure, rest.head? = some p ∧ EndsLayout o t w.here p failure ∧
          job.Fails s failure s') := by
  induction sources generalizing s seen with
  | nil =>
    exact ⟨[], [], s, rfl, nofun, (List.append_nil seen).symm ▸ h,
      Or.inl ⟨rfl, [], Job.yields_mapM_nil _ s⟩⟩
  | cons p ps ih =>
    obtain ⟨hp, hps⟩ := List.ne_and_not_mem_of_not_mem_cons hname
    obtain ⟨hfirst, hnodup⟩ := List.nodup_cons.1 hnodup
    obtain ⟨hnewp, hnews⟩ := List.forall_mem_cons.1 hnew
    rcases exists_formatSource_of_areLaid least many h hp.symm hnewp with
      ⟨x, changed, s₁, hread, hstep, hlaid⟩ | ⟨failure, s₁, hends, hfails, htree⟩
    · have hnews' : ∀ q ∈ ps, t.placeOf? w.here q ∉ seen ++ [t.placeOf? w.here p] := by
        intro q hq hmem
        rcases List.mem_append.1 hmem with hmem | hmem
        · exact hnews q hq hmem
        · exact hfirst (List.mem_singleton.1 hmem ▸ List.mem_map_of_mem hq)
      obtain ⟨laid, rest, s', rfl, hreads, hlaid', hend⟩ := ih hlaid hps hnodup hnews'
      rw [List.append_assoc] at hlaid'
      refine ⟨p :: laid, rest, s', rfl, List.forall_mem_cons.2 ⟨⟨x, hread⟩, hreads⟩, hlaid', ?_⟩
      rcases hend with ⟨hnil, changes, hrun⟩ | ⟨q, failure, hhead, hends, hrun⟩
      · exact Or.inl ⟨hnil, _, Job.yields_mapM_cons hstep hrun⟩
      · exact Or.inr ⟨q, failure, hhead, hends, Job.fails_mapM_tail hstep hrun⟩
    · rw [← htree] at h
      exact ⟨[], p :: ps, s₁, rfl, nofun, (List.append_nil seen).symm ▸ h,
        Or.inr ⟨p, failure, rfl, hends, Job.fails_mapM_head hfails ps⟩⟩

/-- A layout that replaces files comes to the end of its sources, or to the first of them that
ends it. -/
theorem exists_finish_write_files (least : Severity) (isVerbose : Bool)
    (ho : layoutOptions c indent split = .ok o)
    (hsources : collectSources s.tree w.here paths = .ok sources) (hname : stdinName ∉ sources)
    (hnodup : (sources.map (s.tree.placeOf? w.here)).Nodup) :
    let run := finish w isVerbose (commandJob w least c (.format paths .write indent split)) s
    ∃ done rest, sources = done ++ rest ∧
      FileTree.IsWritten o s.tree w.here done rest run.2.tree ∧
      ((rest = [] ∧ run.1 = .exit 0) ∨
        ∃ p failure, rest.head? = some p ∧ EndsLayout o s.tree w.here p failure ∧
          run.1 = failedEnding w failure) := by
  intro run
  have hstdin : ¬(LayoutMode.write ≠ .print ∧ stdinName ∈ sources) := fun h => hname h.2
  obtain ⟨done, rest, s', hsplit, hreads, hlaid, hend⟩ :=
    exists_mapM_write least (1 < sources.length) (FileTree.areLaid_nil o s.tree) hname hnodup
      fun _ _ => List.not_mem_nil
  refine ⟨done, rest, hsplit, ?_⟩
  rw [hsplit] at hnodup
  have hwritten := hlaid.isWritten hreads hnodup
  rcases hend with ⟨hnil, changes, hrun⟩ | ⟨p, failure, hhead, hends, hrun⟩
  · have hdone : run = (.exit 0, _) :=
      finish_of_yields isVerbose (yields_formatJob ho hsources hstdin hrun)
    rw [hdone]
    exact ⟨hwritten, Or.inl ⟨hnil, rfl⟩⟩
  · have hdone : run = endFailed w isVerbose _ s' :=
      finish_eq_of_fails isVerbose (fails_formatJob_of_mapM ho hsources hstdin hrun)
    rw [hdone, endFailed_fst, tree_endFailed]
    exact ⟨hwritten, Or.inr ⟨p, failure, hhead, hends, rfl⟩⟩

/-- What a layout does to files. One that is not to replace files changes none, and neither does
one that is refused. One that replaces files, where no two sources lead to the same file, lays out
the sources before the first that ends it, and changes nothing else. -/
theorem format_files (w : Surroundings) (least : Severity) (isVerbose : Bool) (c : Config)
    (paths : List Text) (mode : LayoutMode) (indent : Option (Option Text)) (split : Bool)
    (s : Session) :
    let run := finish w isVerbose (commandJob w least c (.format paths mode indent split)) s
    (mode ≠ .write → run.2.tree = s.tree) ∧
      (IsRefused s.tree w.here c paths mode indent split →
        run.2.tree = s.tree ∧ ∃ failure, run.1 = failedEnding w failure) ∧
      (¬IsRefused s.tree w.here c paths mode indent split → mode = .write →
        ∃ o sources, layoutOptions c indent split = .ok o ∧
          collectSources s.tree w.here paths = .ok sources ∧
          ((sources.map (s.tree.placeOf? w.here)).Nodup →
            ∃ done rest, sources = done ++ rest ∧
              FileTree.IsWritten o s.tree w.here done rest run.2.tree ∧
              ((rest = [] ∧ run.1 = .exit 0) ∨
                ∃ p failure, rest.head? = some p ∧ EndsLayout o s.tree w.here p failure ∧
                  run.1 = failedEnding w failure))) := by
  intro run
  refine ⟨fun hmode => (keepsTree_formatJob hmode w least c paths indent split).tree_finish
    isVerbose s, fun h => ?_, fun h hmode => ?_⟩
  · obtain ⟨failure, hfails⟩ := h.exists_fails least
    have hrun : run = endFailed w isVerbose failure s := finish_eq_of_fails isVerbose hfails
    rw [hrun, tree_endFailed, endFailed_fst]
    exact ⟨rfl, failure, rfl⟩
  · subst hmode
    cases ho : layoutOptions c indent split with
    | error failure => exact absurd (.indent ho) h
    | ok o =>
      cases hsources : collectSources s.tree w.here paths with
      | error failure => exact absurd (isRefused_of_collectSources hsources) h
      | ok sources =>
        exact ⟨o, sources, rfl, rfl, fun hnodup =>
          exists_finish_write_files least isVerbose ho hsources
            (fun hname => h (.stdin hsources nofun hname)) hnodup⟩

/-- The second of two sources is no text : the first has been laid out, and the second is kept. -/
theorem format_files_malformed :
    let w : Surroundings := ⟨[], .empty, "", "", fun _ => "", none⟩
    let c := Config.standard ⟨1, []⟩
    let q := "q.sql".toList
    let r := "r.sql".toList
    let tree := (FileTree.empty.put [q] (.file (Utf8.encode "a".toList))).put [r] (.file [0xff])
    let s := Session.start tree []
    ∃ s', finish w false (commandJob w .warning c (.format [q, r] .write none false)) s =
        (.exit 1, s') ∧
      s'.tree.readText w.here (.ofText q) = .ok (laidFile c.layout "a".toList) ∧
      s'.tree.readBytes w.here (.ofText r) = s.tree.readBytes w.here (.ofText r) := by
  intro w c q r tree s
  have ho : layoutOptions c none false = .ok c.layout := rfl
  have hsources : collectSources s.tree w.here [q, r] = .ok [q, r] := rfl
  have hq : s.tree.HoldsText w.here (.ofText q) [q] "a".toList :=
    ⟨_, rfl, rfl, FileTree.textOfBytes_encode (by decide)⟩
  obtain ⟨m, hdecode⟩ : ∃ m, Utf8.decode [0xff] = .error m := ⟨_, by cbv⟩
  have hr : s.tree.readText w.here (.ofText r) = .error (.encoding m) := by
    rw [FileTree.readText_of_not_denied rfl rfl, FileTree.textOfBytes, hdecode]
  have hallowed : ¬IsRefused s.tree w.here c [q, r] .write none false := by
    intro h
    cases h with
    | indent h => cases ho.symm.trans h
    | operand hmem hname hnothing =>
      obtain ⟨failure, h⟩ := exists_collectSources_eq_error_iff.2
        ⟨_, hmem, exists_sourcesOf_eq_error_iff.2 ⟨hname, hnothing⟩⟩
      cases hsources.symm.trans h
    | stdin h hmode hname =>
      obtain rfl := Except.ok.inj (hsources.symm.trans h)
      exact absurd hname (by decide)
  obtain ⟨o, sources, ho', hsources', hrun⟩ :=
    (format_files w .warning false c [q, r] .write none false s).2.2 hallowed rfl
  obtain rfl := Except.ok.inj (ho.symm.trans ho')
  obtain rfl := Except.ok.inj (hsources.symm.trans hsources')
  obtain ⟨done, rest, hsplit, hwritten, hend⟩ := hrun (by decide)
  generalize finish w false (commandJob w .warning c (.format [q, r] .write none false)) s = run
    at hwritten hend ⊢
  have hunread : r ∉ done := by
    intro hmem
    obtain ⟨x, hx, -⟩ := hwritten.laid r hmem
    cases hr.symm.trans hx
  rcases hend with ⟨rfl, -⟩ | ⟨p, failure, hhead, hends, hexit⟩
  · rw [List.append_nil] at hsplit
    exact absurd (hsplit ▸ List.mem_cons_of_mem q List.mem_cons_self) hunread
  cases done with
  | nil =>
    rw [List.nil_append] at hsplit
    rw [← hsplit] at hhead
    obtain rfl := Option.some.inj hhead
    cases hends with
    | unreadable h => cases hq.readText.symm.trans h
    | unwritable _ _ hdenied =>
      obtain ⟨_, -, hdenied⟩ := hdenied
      cases hdenied
  | cons a done =>
    obtain ⟨rfl, htail⟩ := List.cons.inj hsplit
    cases done with
    | nil =>
      obtain ⟨x, hx, hlaid, -⟩ := hwritten.laid q List.mem_cons_self
      obtain rfl := Except.ok.inj (hq.readText.symm.trans hx)
      have hrest : [r] = rest := htail
      have hkept := hwritten.kept r (hrest ▸ List.mem_cons_self)
      exact ⟨run.2, Prod.ext hexit rfl, hlaid, hkept⟩
    | cons b done =>
      obtain ⟨rfl, -⟩ := List.cons.inj htail
      exact absurd (List.mem_cons_of_mem q List.mem_cons_self) hunread

end SqlSnippet
