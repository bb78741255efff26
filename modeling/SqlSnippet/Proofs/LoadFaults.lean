import SqlSnippet.Proofs.Jobs
import SqlSnippet.Proofs.SettingsFile

/-!
# Faults of loading settings

Most of what can be wrong with a configuration file is a problem of the configuration, and a
command that meets it fails with an error of that kind. What is left are faults (`Unloadable`) : a
root that cannot be resolved, a name too long to look for, a directory in place of the file, a file
that may not be read, bytes that are no text, and numbers and nesting beyond the limits of the
readers.

These are all that is followed here. Loading fails with a fault just if one of them is there
(`load_eq_fault_iff`), and otherwise gives a configuration or a configuration problem; the commands
that load do the same (`reports_load_iff`). One limit is left out, as in `Value.asText` : tables can
be put below each other without nesting, by keys of many parts, and to write about a thousand of
them as the text of a word is a fault as well.
-/

namespace SqlSnippet

variable {t : FileTree} {here : Place} {root path : Path} {named : Option Path} {f : Fault}

/-! ## Limits of the readers -/

/-- What stops the reader of JSON is a limit of its own, which shows as a fault. -/
inductive JsonLimit : Json.Fault → Fault → Prop
  | digits (n : Nat) : JsonLimit (.tooManyDigits n) (.tooManyDigits n)
  | list :
    JsonLimit .listTooDeep (.tooDeep " while decoding a JSON array from a unicode string")
  | table :
    JsonLimit .tableTooDeep (.tooDeep " while decoding a JSON object from a unicode string")

/-- What stops the reader of TOML is a limit of its own, which shows as a fault. -/
inductive TomlLimit : Toml.Fault → Fault → Prop
  | digits (n : Nat) : TomlLimit (.tooManyDigits n) (.tooManyDigits n)
  | depth : TomlLimit .tooDeep (.tooDeep "")

/-- A reader stops at a problem of the configuration, or at a limit of its own. -/
def ReportsUnless (limit : Fault → Prop) (e : LoadError) : Prop :=
  (∃ p : Problem, e = .problem p ∧ p.kind = .configuration) ∨ ∃ f, e = .fault f ∧ limit f

theorem jsonError_eq {e : Stuck Json.Fault} (h : JsonLimit e.cause f) (path : Path) (s : Text) :
    Config.jsonError path s e = .fault f := by
  obtain ⟨cause, rest⟩ := e
  cases h <;> rfl

theorem reportsUnless_jsonError (e : Stuck Json.Fault) (path : Path) (s : Text) :
    ReportsUnless (JsonLimit e.cause) (Config.jsonError path s e) := by
  obtain ⟨cause, rest⟩ := e
  cases cause with
  | tooManyDigits n => exact Or.inr ⟨_, rfl, .digits n⟩
  | listTooDeep => exact Or.inr ⟨_, rfl, .list⟩
  | tableTooDeep => exact Or.inr ⟨_, rfl, .table⟩
  | _ => exact Or.inl ⟨_, rfl, rfl⟩

theorem tomlError_eq {e : Stuck Toml.Fault} (h : TomlLimit e.cause f) (path : Path) (s : Text) :
    Config.tomlError path s e = .fault f := by
  obtain ⟨cause, rest⟩ := e
  cases h <;> rfl

theorem reportsUnless_tomlError (e : Stuck Toml.Fault) (path : Path) (s : Text) :
    ReportsUnless (TomlLimit e.cause) (Config.tomlError path s e) := by
  obtain ⟨cause, rest⟩ := e
  cases cause with
  | tooManyDigits n => exact Or.inr ⟨_, rfl, .digits n⟩
  | tooDeep => exact Or.inr ⟨_, rfl, .depth⟩
  | _ => exact Or.inl ⟨_, rfl, rfl⟩

/-! ## The search for the file -/

/-- Only a name too long stops a search. -/
theorem exists_of_find?_eq_error {p : Path} (h : t.find? here p = .error f) :
    f = .file .nameTooLong p.toText := by
  unfold FileTree.find? at h
  split at h
  · cases h
  · split at h
    · cases h
    · exact (Except.error.inj h).symm
    · cases h

theorem exists_of_firstPresent_eq_error {ps : List Path}
    (h : Config.firstPresent t here ps = .error f) : ∃ p, f = .file .nameTooLong p := by
  induction ps with
  | nil => cases h
  | cons p ps ih =>
    rw [Config.firstPresent] at h
    split at h
    · next e hfind =>
      obtain rfl := Except.error.inj h
      exact ⟨_, exists_of_find?_eq_error hfind⟩
    · cases h
    · exact ih h

/-- What a search finds is there. -/
theorem exists_find_of_firstPresent {ps : List Path}
    (h : Config.firstPresent t here ps = .ok (some path)) :
    path.hasNull = false ∧ ∃ place e, t.find here path = .ok (place, e) := by
  induction ps with
  | nil => cases h
  | cons p ps ih =>
    rw [Config.firstPresent] at h
    split at h
    · cases h
    · next e hfind =>
      obtain rfl := Option.some.inj (Except.ok.inj h)
      unfold FileTree.find? at hfind
      split at hfind
      · cases hfind
      · next hnull =>
        refine ⟨Bool.eq_false_iff.2 hnull, ?_⟩
        split at hfind
        · next place hplace => exact ⟨_, _, hplace⟩
        · cases hfind
        · cases hfind
    · exact ih h

/-! ## What stops loading -/

/-- What stops loading with a fault. -/
inductive Unloadable (t : FileTree) (here : Place) (root : Path) (named : Option Path) :
    Fault → Prop
  | root (h : root.hasNull = true) : Unloadable t here root named .nullInPath
  | search {p : Text} (h : root.hasNull = false)
    (hsearch : Config.locate t here (root.resolve here) named = .error (.file .nameTooLong p)) :
    Unloadable t here root named (.file .nameTooLong p)
  | directory {path : Path} {place : Place} (h : Located t here root named path)
    (hfind : t.find here path = .ok (place, .directory)) :
    Unloadable t here root named (.file .isDirectory path.toText)
  | denied {path : Path} {place : Place} {bytes : List UInt8}
    (h : Located t here root named path) (hfind : t.find here path = .ok (place, .file bytes))
    (hdenied : t.isDenied .reading place = true) :
    Unloadable t here root named (.file .denied path.toText)
  | encoding {path : Path} {bytes : List UInt8} {m : Utf8.Malformed}
    (h : Located t here root named path) (hbytes : t.readBytes here path = .ok bytes)
    (hdecode : Utf8.decode bytes = .error m) : Unloadable t here root named (.encoding m)
  | json {path : Path} {bytes : List UInt8} {s : Text} {e : Stuck Json.Fault} {f : Fault}
    (h : Located t here root named path) (hbytes : t.readBytes here path = .ok bytes)
    (hdecode : Utf8.decode bytes = .ok s) (hsuffix : path.suffix ≠ ".toml".toList)
    (hread : Json.read (Text.unifyBreaks s) = .error e) (hlimit : JsonLimit e.cause f) :
    Unloadable t here root named f
  | toml {path : Path} {bytes : List UInt8} {s : Text} {e : Stuck Toml.Fault} {f : Fault}
    (h : Located t here root named path) (hbytes : t.readBytes here path = .ok bytes)
    (hdecode : Utf8.decode bytes = .ok s) (hsuffix : path.suffix = ".toml".toList)
    (hread : Toml.read (Toml.joinBreaks s) = .error e) (hlimit : TomlLimit e.cause f) :
    Unloadable t here root named f
  | number {path : Path} {es : Entries} (h : Holds t here root named path (.table es))
    (hread : Config.ofEntries (root.resolve here) path es = .error .unwritable) :
    Unloadable t here root named .unwritable

theorem load_eq_root (h : root.hasNull = true) :
    (Config.load t here root named).2 = .error (.fault .nullInPath) := by
  rw [Config.load, if_pos h]

theorem load_eq_search (h : root.hasNull = false)
    (hsearch : Config.locate t here (root.resolve here) named = .error f) :
    (Config.load t here root named).2 = .error (.fault f) := by
  rw [Config.load, if_neg (Bool.eq_false_iff.1 h)]
  dsimp only
  rw [hsearch]

/-- A file that cannot be read stops loading. -/
theorem load_eq_of_readFile {e : LoadError} (h : Located t here root named path)
    (hread : Config.readFile t here path = .error e) :
    (Config.load t here root named).2 = .error e := by
  rw [load_of_located h, Config.loadFile, hread]

/-- The file that loading reads is there. -/
theorem Located.exists_find (h : Located t here root named path) :
    path.hasNull = false ∧ ∃ place e, t.find here path = .ok (place, e) :=
  exists_find_of_firstPresent h.located

theorem Located.readBytes_of_directory {place : Place} (h : Located t here root named path)
    (hfind : t.find here path = .ok (place, .directory)) :
    t.readBytes here path = .error (.file .isDirectory path.toText) := by
  rw [FileTree.readBytes, if_neg (Bool.eq_false_iff.1 h.exists_find.1), hfind]

theorem Located.readBytes_of_file {place : Place} {bytes : List UInt8}
    (h : Located t here root named path)
    (hfind : t.find here path = .ok (place, .file bytes)) :
    t.readBytes here path =
      if t.isDenied .reading place then .error (.file .denied path.toText) else .ok bytes := by
  rw [FileTree.readBytes, if_neg (Bool.eq_false_iff.1 h.exists_find.1), hfind]

/-! ## Reading the file -/

/-- What keeps the bytes of a file from being read keeps the file from being read. -/
theorem readFile_of_readBytes_error (h : t.readBytes here path = .error f) :
    Config.readFile t here path = .error (.fault f) := by
  unfold Config.readFile
  split
  · rw [Config.readTomlFile, h]
  · rw [Config.readJsonFile, FileTree.readText, h]

theorem readFile_of_decode_error {bytes : List UInt8} {m : Utf8.Malformed}
    (h : t.readBytes here path = .ok bytes) (hdecode : Utf8.decode bytes = .error m) :
    Config.readFile t here path = .error (.fault (.encoding m)) := by
  unfold Config.readFile
  split
  · simp only [Config.readTomlFile, h, hdecode]
  · simp only [Config.readJsonFile, FileTree.readText, h, FileTree.textOfBytes, hdecode]

theorem readFile_of_decode_toml {bytes : List UInt8} {s : Text}
    (h : t.readBytes here path = .ok bytes) (hdecode : Utf8.decode bytes = .ok s)
    (hsuffix : path.suffix = ".toml".toList) :
    Config.readFile t here path =
      (Toml.read (Toml.joinBreaks s)).mapError (Config.tomlError path (Toml.joinBreaks s)) := by
  rw [Config.readFile, if_pos hsuffix]
  simp only [Config.readTomlFile, h, hdecode]

theorem readFile_of_decode_json {bytes : List UInt8} {s : Text}
    (h : t.readBytes here path = .ok bytes) (hdecode : Utf8.decode bytes = .ok s)
    (hsuffix : path.suffix ≠ ".toml".toList) :
    Config.readFile t here path =
      (Json.read (Text.unifyBreaks s)).mapError
        (Config.jsonError path (Text.unifyBreaks s)) := by
  rw [Config.readFile, if_neg hsuffix]
  simp only [Config.readJsonFile, FileTree.readText, h, FileTree.textOfBytes, hdecode]

/-! ## Loading -/

theorem load_eq_of_unloadable (h : Unloadable t here root named f) :
    (Config.load t here root named).2 = .error (.fault f) := by
  cases h with
  | root h => exact load_eq_root h
  | search h hsearch => exact load_eq_search h hsearch
  | directory h hfind =>
    exact load_eq_of_readFile h (readFile_of_readBytes_error (h.readBytes_of_directory hfind))
  | denied h hfind hdenied =>
    have hbytes := h.readBytes_of_file hfind
    rw [if_pos hdenied] at hbytes
    exact load_eq_of_readFile h (readFile_of_readBytes_error hbytes)
  | encoding h hbytes hdecode =>
    exact load_eq_of_readFile h (readFile_of_decode_error hbytes hdecode)
  | json h hbytes hdecode hsuffix hread hlimit =>
    refine load_eq_of_readFile h ?_
    rw [readFile_of_decode_json hbytes hdecode hsuffix, hread, Except.mapError, jsonError_eq hlimit]
  | toml h hbytes hdecode hsuffix hread hlimit =>
    refine load_eq_of_readFile h ?_
    rw [readFile_of_decode_toml hbytes hdecode hsuffix, hread, Except.mapError, tomlError_eq hlimit]
  | number h hread =>
    rw [load_of_holds_table h, hread]
    rfl

theorem ReportsUnless.mono {limit limit' : Fault → Prop} {e : LoadError}
    (h : ReportsUnless limit e) (hlimit : ∀ f, limit f → limit' f) : ReportsUnless limit' e :=
  h.imp_right fun ⟨f, he, hf⟩ => ⟨f, he, hlimit f hf⟩

/-- A file that cannot be read is a problem of the configuration, or something that stops
loading. -/
theorem reportsUnless_readFile {e : LoadError} (h : Located t here root named path)
    (hread : Config.readFile t here path = .error e) :
    ReportsUnless (Unloadable t here root named) e := by
  obtain ⟨-, place, entry, hfind⟩ := h.exists_find
  cases entry with
  | directory =>
    rw [readFile_of_readBytes_error (h.readBytes_of_directory hfind)] at hread
    exact Or.inr ⟨_, (Except.error.inj hread).symm, .directory h hfind⟩
  | file bytes =>
    have hbytes := h.readBytes_of_file hfind
    by_cases hdenied : t.isDenied .reading place = true
    · rw [if_pos hdenied] at hbytes
      rw [readFile_of_readBytes_error hbytes] at hread
      exact Or.inr ⟨_, (Except.error.inj hread).symm, .denied h hfind hdenied⟩
    rw [if_neg hdenied] at hbytes
    cases hdecode : Utf8.decode bytes with
    | error m =>
      rw [readFile_of_decode_error hbytes hdecode] at hread
      exact Or.inr ⟨_, (Except.error.inj hread).symm, .encoding h hbytes hdecode⟩
    | ok s =>
      by_cases hsuffix : path.suffix = ".toml".toList
      · rw [readFile_of_decode_toml hbytes hdecode hsuffix] at hread
        obtain ⟨stuck, hstuck, rfl⟩ := exists_of_mapError_eq_error hread
        exact (reportsUnless_tomlError ..).mono fun f hf =>
          .toml h hbytes hdecode hsuffix hstuck hf
      · rw [readFile_of_decode_json hbytes hdecode hsuffix] at hread
        obtain ⟨stuck, hstuck, rfl⟩ := exists_of_mapError_eq_error hread
        exact (reportsUnless_jsonError ..).mono fun f hf =>
          .json h hbytes hdecode hsuffix hstuck hf

/-- What a file holds that is no settings is a problem of the configuration, or a number that
cannot be written. -/
theorem reportsUnless_holds {v : Value} {e : LoadError} (h : Holds t here root named path v)
    (he : (Config.load t here root named).2 = .error e) :
    ReportsUnless (Unloadable t here root named) e := by
  by_cases htable : ∃ es, v = .table es
  · obtain ⟨es, rfl⟩ := htable
    rw [load_of_holds_table h] at he
    obtain ⟨cause, hread, rfl⟩ := exists_of_mapError_eq_error he
    by_cases hcause : cause = .unwritable
    · rw [hcause] at hread ⊢
      exact Or.inr ⟨_, rfl, .number h hread⟩
    · exact Or.inl ⟨_, configError_eq hcause path, rfl⟩
  · rw [load_of_holds h (not_exists.1 htable)] at he
    exact Or.inl ⟨_, (Except.error.inj he).symm, rfl⟩

/-- Loading that gives no configuration reports a problem of the configuration, or is stopped. -/
theorem reportsUnless_load {e : LoadError}
    (he : (Config.load t here root named).2 = .error e) :
    ReportsUnless (Unloadable t here root named) e := by
  by_cases hroot : root.hasNull = true
  · rw [load_eq_root hroot] at he
    exact Or.inr ⟨_, (Except.error.inj he).symm, .root hroot⟩
  rw [Bool.not_eq_true] at hroot
  cases hlocate : Config.locate t here (root.resolve here) named with
  | error f =>
    obtain ⟨p, rfl⟩ := exists_of_firstPresent_eq_error hlocate
    rw [load_eq_search hroot hlocate] at he
    exact Or.inr ⟨_, (Except.error.inj he).symm, .search hroot hlocate⟩
  | ok located =>
    cases located with
    | some path =>
      have hlocated : Located t here root named path := ⟨hroot, hlocate⟩
      cases hread : Config.readFile t here path with
      | error cause =>
        rw [load_eq_of_readFile hlocated hread] at he
        rw [← Except.error.inj he]
        exact reportsUnless_readFile hlocated hread
      | ok v => exact reportsUnless_holds ⟨hlocated, hread⟩ he
    | none =>
      rw [Config.load, if_neg (Bool.eq_false_iff.1 hroot)] at he
      dsimp only at he
      rw [hlocate] at he
      cases named with
      | some p => exact Or.inl ⟨_, (Except.error.inj he).symm, rfl⟩
      | none => cases he

/-- Loading fails with a fault just if something stops it. -/
theorem load_eq_fault_iff :
    (Config.load t here root named).2 = .error (.fault f) ↔ Unloadable t here root named f := by
  refine ⟨fun he => ?_, load_eq_of_unloadable⟩
  obtain ⟨p, hp, -⟩ | ⟨f', hf, hstops⟩ := reportsUnless_load he
  · cases hp
  · exact LoadError.fault.inj hf ▸ hstops

/-- Loading gives a configuration, or reports a problem of the configuration. -/
def Reports (r : Except LoadError Config) : Prop :=
  (∃ c, r = .ok c) ∨ ∃ p : Problem, r = .error (.problem p) ∧ p.kind = .configuration

theorem reports_load_iff_forall_not :
    Reports (Config.load t here root named).2 ↔ ∀ f, ¬Unloadable t here root named f := by
  constructor
  · intro h f hf
    rw [load_eq_fault_iff.2 hf] at h
    obtain ⟨c, hc⟩ | ⟨p, hp, -⟩ := h
    · cases hc
    · cases hp
  · intro h
    cases hload : (Config.load t here root named).2 with
    | ok c => exact Or.inl ⟨c, rfl⟩
    | error e =>
      obtain ⟨p, rfl, hkind⟩ | ⟨f, -, hf⟩ := reportsUnless_load hload
      · exact Or.inr ⟨p, rfl, hkind⟩
      · exact absurd hf (h f)

/-! ## Commands -/

/-- The root of the workspace of an invocation. -/
def Invocation.workspaceRoot (i : Invocation) (here : Place) : Path :=
  match i.workspace with
  | none => ⟨1, here⟩
  | some s => Path.ofText s

/-- The failure of a command whose settings cannot be loaded. -/
def LoadError.toFailure : LoadError → Failure
  | .problem p => .error (.ofProblem p)
  | .fault f => .fault f

theorem loadJob_eq (w : Surroundings) (least : Severity) (i : Invocation) :
    loadJob w least i = (do
      let loaded := Config.load (← get).tree w.here (i.workspaceRoot w.here)
        (i.config.map Path.ofText)
      tellRecords w.clock least loaded.1
      Job.ofExcept (loaded.2.mapError LoadError.toFailure)) :=
  rfl

/-- The settings of a command are those that loading gives; only its records are shown. -/
theorem exists_run_loadJob (w : Surroundings) (least : Severity) (i : Invocation)
    (s : Session) : ∃ err, (loadJob w least i).run s =
      ((Config.load s.tree w.here (i.workspaceRoot w.here) (i.config.map Path.ofText)).2.mapError
        LoadError.toFailure, { s with err := err }) := by
  obtain ⟨err, htell⟩ := Job.exists_yields_tellRecords w.clock least
    (Config.load s.tree w.here (i.workspaceRoot w.here) (i.config.map Path.ofText)).1 s
  refine ⟨err, ?_⟩
  rw [loadJob_eq, Job.run_bind, Job.yields_get s]
  dsimp only
  rw [Job.run_bind, htell]
  rfl

/-- A job gives a result, or fails with an error about the configuration. -/
def Job.Reports {α : Type} (job : Job α) (s : Session) : Prop :=
  (∃ a s', job.Yields s a s') ∨
    ∃ (e : CommandError) (s' : Session), job.Fails s (.error e) s' ∧ e.kind = .configuration

/-- A command reports what loading its settings reports. -/
theorem loadJob_reports_iff (w : Surroundings) (least : Severity) (i : Invocation)
    (s : Session) : (loadJob w least i).Reports s ↔
      Reports (Config.load s.tree w.here (i.workspaceRoot w.here)
        (i.config.map Path.ofText)).2 := by
  obtain ⟨err, hrun⟩ := exists_run_loadJob w least i s
  unfold Job.Reports Job.Yields Job.Fails
  rw [hrun]
  cases hload : (Config.load s.tree w.here (i.workspaceRoot w.here)
      (i.config.map Path.ofText)).2 with
  | ok c => exact ⟨fun _ => Or.inl ⟨c, rfl⟩, fun _ => Or.inl ⟨c, _, rfl⟩⟩
  | error e =>
    cases e with
    | problem p =>
      refine ⟨fun _ => ?_, fun _ => Or.inr ⟨.ofProblem p, _, rfl, rfl⟩⟩
      obtain ⟨p', hp', hkind⟩ | ⟨f, hf, -⟩ := reportsUnless_load hload
      · exact Or.inr ⟨p', congrArg _ hp', hkind⟩
      · cases hf
    | fault f =>
      constructor
      · rintro (⟨a, s', h⟩ | ⟨e, s', h, -⟩) <;> cases h
      · rintro (⟨c, h⟩ | ⟨p, h, -⟩) <;> cases h

/-! ## Loading and the commands that load -/

/-- Loading reports just if nothing stops it, and so do the commands that load. -/
theorem reports_load_iff (t : FileTree) (here : Place) (root : Path) (named : Option Path)
    (w : Surroundings) (least : Severity) (i : Invocation) (s : Session) :
    (Reports (Config.load t here root named).2 ↔ ∀ f, ¬Unloadable t here root named f) ∧
      ((loadJob w least i).Reports s ↔
        ∀ f, ¬Unloadable s.tree w.here (i.workspaceRoot w.here) (i.config.map Path.ofText) f) :=
  ⟨reports_load_iff_forall_not,
    (loadJob_reports_iff w least i s).trans reports_load_iff_forall_not⟩

/-- A configuration file of bytes that are no text is not reported. -/
theorem not_reports_load_bytes :
    ¬Reports (Config.load
      (FileTree.empty.plant ["w".toList, ".complexsqlrc".toList] (.file [0xff]))
      ["w".toList] ⟨0, []⟩ none).2 := by
  intro h
  have hlocated : Located
      (FileTree.empty.plant ["w".toList, ".complexsqlrc".toList] (.file [0xff]))
      ["w".toList] ⟨0, []⟩ none ⟨1, ["w".toList, ".complexsqlrc".toList]⟩ := ⟨rfl, by cbv⟩
  have hbytes : (FileTree.empty.plant ["w".toList, ".complexsqlrc".toList] (.file [0xff])).readBytes
      ["w".toList] ⟨1, ["w".toList, ".complexsqlrc".toList]⟩ = .ok [0xff] := by cbv
  obtain ⟨m, hdecode⟩ : ∃ m, Utf8.decode [0xff] = .error m := ⟨_, by cbv⟩
  exact reports_load_iff_forall_not.1 h _ (.encoding hlocated hbytes hdecode)

end SqlSnippet
