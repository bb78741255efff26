import Mathlib
import SqlSnippet.Proofs.Settings
import SqlSnippet.Settings.Load

/-!
# Settings of a file

What loading the settings of a workspace gives once its configuration file has been read
(`Holds`). The file is judged by its entries : they give the configuration that they describe if
they are valid, and a configuration problem that names the file if not (`IsJudged`).

Loading judges a file where every vacant value counts as left out, unless it is stopped by a number
with too many digits to be written. It judges it where null alone does just if, besides, no vacant
value stands where null would mean something else (`isJudged_load_iff`, `not_isJudged_load`). Both
are said of loading as it is followed here, where a value has a text however deep it is
(`Value.asText`).
-/

namespace SqlSnippet

variable {t : FileTree} {here : Place} {root path : Path} {named : Option Path} {v : Value}

/-- The configuration file of a workspace is the one at `path`. -/
structure Located (t : FileTree) (here : Place) (root : Path) (named : Option Path)
    (path : Path) : Prop where
  resolvable : root.hasNull = false
  located : Config.locate t here (root.resolve here) named = .ok (some path)

/-- The configuration file of a workspace is the one at `path`, and holds the value `v`. -/
structure Holds (t : FileTree) (here : Place) (root : Path) (named : Option Path) (path : Path)
    (v : Value) : Prop extends Located t here root named path where
  read : Config.readFile t here path = .ok v

/-- The result is the configuration that the value describes, if it is a table of valid entries,
and otherwise a configuration problem of the file. -/
structure IsJudged (leftOut : Value → Bool) (root path : Path) (v : Value)
    (r : Except LoadError Config) : Prop where
  gives : ∀ c, r = .ok c ↔
    ∃ es, v = .table es ∧ IsValid leftOut es ∧ c = described leftOut root path es
  refuses : (∀ c, r ≠ .ok c) → ∃ p : Problem, r = .error (.problem p) ∧
    p.kind = .configuration ∧ p.path = some (String.ofList path.toText)

/-- An error that has been changed comes from an error. -/
theorem exists_of_mapError_eq_error {α ε ε' : Type} {x : Except ε α} {g : ε → ε'} {e' : ε'}
    (h : x.mapError g = .error e') : ∃ e, x = .error e ∧ g e = e' := by
  cases x with
  | ok a => cases h
  | error e => exact ⟨e, rfl, Except.error.inj h⟩

/-- What is judged is no fault. -/
theorem IsJudged.ne_fault {leftOut : Value → Bool} {r : Except LoadError Config}
    (h : IsJudged leftOut root path v r) (f : Fault) : r ≠ .error (.fault f) := by
  rintro rfl
  obtain ⟨p, hp, -⟩ := h.refuses nofun
  cases hp

theorem load_of_located (h : Located t here root named path) :
    (Config.load t here root named).2 =
      (Config.loadFile t here (root.resolve here) path).2 := by
  rw [Config.load, if_neg (Bool.eq_false_iff.1 h.resolvable)]
  dsimp only
  rw [h.located]

theorem load_of_holds_table {es : Entries} (h : Holds t here root named path (.table es)) :
    (Config.load t here root named).2 =
      (Config.ofEntries (root.resolve here) path es).mapError (Config.configError path) := by
  rw [load_of_located h.toLocated, Config.loadFile, h.read]

theorem load_of_holds (h : Holds t here root named path v) (hv : ∀ es, v ≠ .table es) :
    (Config.load t here root named).2 = .error (.problem
      (Config.problemAt path "Configuration root must be a table" none)) := by
  rw [load_of_located h.toLocated, Config.loadFile, h.read]
  cases v with
  | table es => exact absurd rfl (hv es)
  | _ => rfl

/-- A fault of the settings is a problem of the file, unless a number could not be written. -/
theorem configError_eq {f : ConfigFault} (hf : f ≠ .unwritable) (path : Path) :
    Config.configError path f = .problem (Config.problemAt path f.message f.hint?) := by
  cases f <;> first | rfl | exact absurd rfl hf

theorem isJudged_problem {leftOut : Value → Bool} (message : String) (hint : Option String)
    (h : ∀ es, v = .table es → ¬IsValid leftOut es) :
    IsJudged leftOut root path v (.error (.problem (Config.problemAt path message hint))) := by
  refine ⟨fun c => ⟨nofun, ?_⟩, fun _ => ⟨_, rfl, rfl, rfl⟩⟩
  rintro ⟨es, hv, hvalid, -⟩
  exact absurd hvalid (h es hv)

theorem isJudged_ok {leftOut : Value → Bool} {es : Entries} (h : IsValid leftOut es) :
    IsJudged leftOut root path (.table es) (.ok (described leftOut root path es)) := by
  refine ⟨fun c => ⟨fun hc => ⟨es, rfl, h, (Except.ok.inj hc).symm⟩, ?_⟩,
    fun hne => absurd rfl (hne _)⟩
  rintro ⟨es', hes, -, rfl⟩
  obtain rfl := Value.table.inj hes
  rfl

/-- What loading a table gives, by whether its entries are valid. -/
theorem load_of_holds_table_cases {es : Entries}
    (h : Holds t here root named path (.table es)) :
    (IsValid Value.isVacant es ∧ (Config.load t here root named).2 =
        .ok (described Value.isVacant (root.resolve here) path es)) ∨
      (Config.load t here root named).2 = .error (.fault .unwritable) ∨
      ¬IsValid Value.isVacant es ∧ ∃ message hint, (Config.load t here root named).2 =
        .error (.problem (Config.problemAt path message hint)) := by
  have hjudges := judges_ofEntries (root.resolve here) path es
  rw [load_of_holds_table h]
  by_cases hvalid : IsValid Value.isVacant es
  · rcases hjudges.accepts hvalid with hr | hr
    · exact Or.inl ⟨hvalid, by rw [hr]; rfl⟩
    · exact Or.inr (Or.inl (by rw [hr]; rfl))
  · obtain ⟨f, hr⟩ := hjudges.refuses hvalid
    by_cases hf : f = .unwritable
    · exact Or.inr (Or.inl (by rw [hr, hf]; rfl))
    · refine Or.inr (Or.inr ⟨hvalid, f.message, f.hint?, ?_⟩)
      rw [hr, Except.mapError, configError_eq hf]

theorem isJudged_isVacant_iff (h : Holds t here root named path v) :
    IsJudged Value.isVacant (root.resolve here) path v (Config.load t here root named).2 ↔
      (Config.load t here root named).2 ≠ .error (.fault .unwritable) := by
  refine ⟨fun hjudged => hjudged.ne_fault _, fun hne => ?_⟩
  by_cases htable : ∃ es, v = .table es
  · obtain ⟨es, rfl⟩ := htable
    rcases load_of_holds_table_cases h with ⟨hvalid, hr⟩ | hr | ⟨hnot, message, hint, hr⟩
    · rw [hr]
      exact isJudged_ok hvalid
    · exact absurd hr hne
    · rw [hr]
      exact isJudged_problem message hint fun _ heq => Value.table.inj heq ▸ hnot
  · rw [load_of_holds h (not_exists.1 htable)]
    exact isJudged_problem _ _ fun es heq => absurd ⟨es, heq⟩ htable

theorem isJudged_isNull_iff (h : Holds t here root named path v) :
    IsJudged Value.isNull (root.resolve here) path v (Config.load t here root named).2 ↔
      (Config.load t here root named).2 ≠ .error (.fault .unwritable) ∧
        ∀ es, v = .table es → IsValid Value.isVacant es → IsPlain es := by
  constructor
  · intro hjudged
    refine ⟨hjudged.ne_fault _, ?_⟩
    rintro es rfl hvalid
    rcases load_of_holds_table_cases h with ⟨-, hr⟩ | hr | ⟨hnot, -⟩
    · obtain ⟨es', hes, hvalid', heq⟩ := (hjudged.gives _).1 hr
      obtain rfl := Value.table.inj hes
      exact (isPlain_iff hvalid).2 ⟨hvalid', heq.symm⟩
    · exact absurd hr (hjudged.ne_fault _)
    · exact absurd hvalid hnot
  · rintro ⟨hne, hplain⟩
    by_cases htable : ∃ es, v = .table es
    · obtain ⟨es, rfl⟩ := htable
      rcases load_of_holds_table_cases h with ⟨hvalid, hr⟩ | hr | ⟨hnot, message, hint, hr⟩
      · obtain ⟨hvalid', heq⟩ := (isPlain_iff hvalid).1 (hplain es rfl hvalid)
        rw [hr, ← heq]
        exact isJudged_ok hvalid'
      · exact absurd hr hne
      · rw [hr]
        exact isJudged_problem message hint fun _ heq =>
          Value.table.inj heq ▸ mt IsValid.mono hnot
    · rw [load_of_holds h (not_exists.1 htable)]
      exact isJudged_problem _ _ fun es heq => absurd ⟨es, heq⟩ htable

/-- A value that cannot be written holds a number of too many digits. -/
theorem isWritable_of_load_eq (h : Holds t here root named path v)
    (hr : (Config.load t here root named).2 = .error (.fault .unwritable)) :
    v.isWritable = false := by
  refine Bool.eq_false_iff.2 fun hw => ?_
  by_cases htable : ∃ es, v = .table es
  · obtain ⟨es, rfl⟩ := htable
    have hjudges := judges_ofEntries (root.resolve here) path es
    rw [load_of_holds_table h] at hr
    obtain ⟨f, hread, hf⟩ := exists_of_mapError_eq_error hr
    by_cases hcause : f = .unwritable
    · exact hjudges.writes (areEntriesWritable_iff.1 hw) (hcause ▸ hread)
    · rw [configError_eq hcause] at hf
      cases hf
  · rw [load_of_holds h (not_exists.1 htable)] at hr
    cases hr

/-! ## Loading a file -/

/-- Loading judges a file with every vacant value left out unless a number cannot be written, and
with null alone left out just if the vacant values of valid entries are plain besides. Only a value
with a number of too many digits cannot be written. -/
theorem isJudged_load_iff (h : Holds t here root named path v) :
    (IsJudged Value.isVacant (root.resolve here) path v (Config.load t here root named).2 ↔
      (Config.load t here root named).2 ≠ .error (.fault .unwritable)) ∧
    (IsJudged Value.isNull (root.resolve here) path v (Config.load t here root named).2 ↔
      (Config.load t here root named).2 ≠ .error (.fault .unwritable) ∧
        ∀ es, v = .table es → IsValid Value.isVacant es → IsPlain es) ∧
    ((Config.load t here root named).2 = .error (.fault .unwritable) → v.isWritable = false) :=
  ⟨isJudged_isVacant_iff h, isJudged_isNull_iff h, isWritable_of_load_eq h⟩

/-- The tree with one configuration file. -/
def treeOf (s : String) : FileTree :=
  FileTree.empty.plant ["w".toList, ".complexsqlrc".toList] (.file (Utf8.encode s.toList))

theorem isJudged_load_iff_tabs :
    let t := treeOf "\x7b\"format\": \x7b\"indent_style\": \"Tabs\"\x7d, \"highlight\": null\x7d"
    let root : Path := ⟨0, []⟩
    let path : Path := ⟨1, ["w".toList, ".complexsqlrc".toList]⟩
    let v : Value := .table
      [(Text.loose "format".toList,
          .table [(Text.loose "indent_style".toList, .text (Text.loose "Tabs".toList))]),
        (Text.loose "highlight".toList, .null)]
    let r := (Config.load t ["w".toList] root none).2
    Holds t ["w".toList] root none path v ∧
      (IsJudged Value.isVacant (root.resolve ["w".toList]) path v r ↔
        r ≠ .error (.fault .unwritable)) ∧
      (IsJudged Value.isNull (root.resolve ["w".toList]) path v r ↔
        r ≠ .error (.fault .unwritable) ∧
          ∀ es, v = .table es → IsValid Value.isVacant es → IsPlain es) ∧
      (r = .error (.fault .unwritable) → v.isWritable = false) := by
  have hholds : Holds
      (treeOf "\x7b\"format\": \x7b\"indent_style\": \"Tabs\"\x7d, \"highlight\": null\x7d")
      ["w".toList] ⟨0, []⟩ none ⟨1, ["w".toList, ".complexsqlrc".toList]⟩
      (.table
        [(Text.loose "format".toList,
            .table [(Text.loose "indent_style".toList, .text (Text.loose "Tabs".toList))]),
          (Text.loose "highlight".toList, .null)]) := ⟨⟨rfl, by cbv⟩, by cbv⟩
  exact ⟨hholds, isJudged_load_iff hholds⟩

theorem not_isJudged_load :
    let t := treeOf "\x7b\"highlight\": 0\x7d"
    let root : Path := ⟨0, []⟩
    let path : Path := ⟨1, ["w".toList, ".complexsqlrc".toList]⟩
    let v : Value := .table [(Text.loose "highlight".toList, .whole 0)]
    Holds t ["w".toList] root none path v ∧
      ¬IsJudged Value.isNull (root.resolve ["w".toList]) path v
        (Config.load t ["w".toList] root none).2 := by
  have hholds : Holds (treeOf "\x7b\"highlight\": 0\x7d") ["w".toList] ⟨0, []⟩ none
      ⟨1, ["w".toList, ".complexsqlrc".toList]⟩
      (.table [(Text.loose "highlight".toList, .whole 0)]) := ⟨⟨rfl, by cbv⟩, by cbv⟩
  refine ⟨hholds, fun hjudged => ?_⟩
  have hvalid : IsValid Value.isVacant [(Text.loose "highlight".toList, .whole 0)] :=
    ⟨Or.inl ⟨rfl, rfl⟩, trivial, trivial, trivial, trivial, trivial, trivial, trivial, trivial⟩
  have hplain := ((isJudged_isNull_iff hholds).1 hjudged).2 _ rfl hvalid
  rcases hplain.highlight rfl [] rfl with hnull | ⟨⟨es, htable⟩, -⟩
  · cases hnull
  · cases htable

end SqlSnippet
