import Mathlib.Data.List.Basic
import SqlSnippet.Proofs.ValueText

/-!
# Settings and their values

A setting takes some values, each of which means something, and has a standard value for when its
key is absent (`Setting`). Whether the entries of a file are valid and which configuration they
describe depends on which values count as left out (`IsValid`, `described`) : null alone, or
every vacant value.

The reader goes by the second : it gives the configuration that valid entries describe and refuses
all others (`judges_ofEntries`). The two agree on entries whose vacant values are null, or are of
the kind that the setting takes and mean what null means (`isPlain_iff`).
-/

namespace SqlSnippet

/-! ## Readers -/

section Judges

variable {α β : Type} {r : Except ConfigFault α} {a : α} {valid writable : Prop}

/-- The result gives `a` if the input is valid and is a fault if not. Valid input too is refused
where a number cannot be written, which takes input that is not writable. -/
structure Judges (r : Except ConfigFault α) (valid writable : Prop) (a : α) : Prop where
  accepts : valid → r = .ok a ∨ r = .error .unwritable
  refuses : ¬valid → ∃ f, r = .error f
  writes : writable → r ≠ .error .unwritable

theorem judges_ok (h : valid) : Judges (.ok a) valid writable a :=
  ⟨fun _ => Or.inl rfl, fun hnot => absurd h hnot, fun _ => nofun⟩

theorem judges_error {f : ConfigFault} (h : ¬valid) (hf : f ≠ .unwritable) :
    Judges (.error f) valid writable a :=
  ⟨fun hv => absurd hv h, fun _ => ⟨f, rfl⟩, fun _ heq => hf (Except.error.inj heq)⟩

theorem Judges.congr (h : Judges r valid writable a) {valid' writable' : Prop}
    (hvalid : valid ↔ valid') (hwritable : writable' → writable) :
    Judges r valid' writable' a :=
  ⟨fun hv => h.accepts (hvalid.2 hv), fun hv => h.refuses (mt hvalid.1 hv),
    fun hw => h.writes (hwritable hw)⟩

/-- What is judged either gives what it should, or fails. -/
theorem Judges.cases (h : Judges r valid writable a) : valid ∧ r = .ok a ∨ ∃ f, r = .error f := by
  by_cases hv : valid
  · rcases h.accepts hv with hr | hr
    · exact Or.inl ⟨hv, hr⟩
    · exact Or.inr ⟨_, hr⟩
  · exact Or.inr (h.refuses hv)

/-- One reader after another : both must find their input valid. -/
theorem Judges.bind (h : Judges r valid writable a) {g : α → Except ConfigFault β} {b : β}
    {valid' : Prop} (hg : Judges (g a) valid' writable b) :
    Judges (r >>= g) (valid ∧ valid') writable b := by
  rcases h.cases with ⟨hv, rfl⟩ | ⟨f, rfl⟩
  · exact hg.congr (and_iff_right hv).symm id
  · have herror : (Except.error f >>= g) = .error f := rfl
    rw [herror]
    refine ⟨fun hv => ?_, fun _ => ⟨f, rfl⟩, fun hw heq => ?_⟩
    · rcases h.accepts hv.1 with hr | hr
      · cases hr
      · exact Or.inr (congrArg _ (Except.error.inj hr))
    · exact h.writes hw (congrArg _ (Except.error.inj heq))

theorem Judges.map (h : Judges r valid writable a) (g : α → β) :
    Judges (r.map g) valid writable (g a) := by
  have hbind : r.map g = r >>= fun x => .ok (g x) := by cases r <;> rfl
  rw [hbind]
  exact (h.bind (g := fun x => .ok (g x)) (judges_ok trivial)).congr (and_iff_left trivial) id

/-- Items are read one by one. -/
theorem judges_mapM {γ : Type} {f : γ → Except ConfigFault β} {valid : γ → Prop} {g : γ → β}
    {writable : Prop} {xs : List γ}
    (h : ∀ x ∈ xs, Judges (f x) (valid x) writable (g x)) :
    Judges (xs.mapM f) (∀ x ∈ xs, valid x) writable (xs.map g) := by
  induction xs with
  | nil => exact judges_ok nofun
  | cons x xs ih =>
    obtain ⟨hx, hxs⟩ := List.forall_mem_cons.1 h
    have hrest : Judges (xs.mapM f >>= fun ys => .ok (g x :: ys)) ((∀ y ∈ xs, valid y) ∧ True)
        writable (g x :: xs.map g) := (ih hxs).bind (judges_ok trivial)
    rw [List.mapM_cons]
    refine (hx.bind (g := fun y => xs.mapM f >>= fun ys => .ok (y :: ys)) hrest).congr ?_ id
    rw [and_true, List.forall_mem_cons]

end Judges

/-! ## Settings -/

/-- Whether a value is null. -/
def Value.isNull : Value → Bool
  | .null => true
  | _ => false

/-- Null is vacant. -/
theorem Value.isVacant_of_isNull {v : Value} (h : v.isNull = true) : v.isVacant = true := by
  cases v with
  | null => rfl
  | _ => cases h

/-- A setting : the values that it takes and what they mean, what it is if its value is left out,
unless it must not be, and what it is if its key is absent. -/
structure Setting (α : Type) where
  key : String
  Takes : Value → Prop
  meaning : Value → α
  whenLeftOut : Option α
  standard : α

namespace Setting

variable {α : Type} {s : Setting α} {es : Entries}

/-- The value of the setting is left out, if it may be, or is one that the setting takes. -/
def IsValid (leftOut : Value → Bool) (s : Setting α) (es : Entries) : Prop :=
  match es.get? s.key.toList with
  | none => True
  | some v => (leftOut v = true ∧ s.whenLeftOut.isSome = true) ∨ s.Takes v

/-- What the setting is by its entry. -/
def valueIn (leftOut : Value → Bool) (s : Setting α) (es : Entries) : α :=
  match es.get? s.key.toList with
  | none => s.standard
  | some v => if leftOut v then s.whenLeftOut.getD (s.meaning v) else s.meaning v

/-- A vacant value of the setting, if it may be left out, is null, or the setting takes it and it
means what null means. -/
def IsPlain (s : Setting α) (es : Entries) : Prop :=
  match es.get? s.key.toList with
  | none => True
  | some v => v.isVacant = true → ∀ a ∈ s.whenLeftOut,
      v.isNull = true ∨ s.Takes v ∧ s.meaning v = a

/-- Where null alone counts as left out, plain settings are what they are where every vacant value
does. -/
theorem isPlain_iff (h : s.IsValid Value.isVacant es) : s.IsPlain es ↔
    s.IsValid Value.isNull es ∧ s.valueIn Value.isNull es = s.valueIn Value.isVacant es := by
  unfold IsPlain IsValid valueIn at *
  generalize es.get? s.key.toList = entry at h ⊢
  cases entry with
  | none => exact ⟨fun _ => ⟨trivial, rfl⟩, fun _ => trivial⟩
  | some v =>
    dsimp only at h ⊢
    cases hnull : v.isNull with
    | true =>
      have hvacant := Value.isVacant_of_isNull hnull
      rw [hvacant] at h ⊢
      exact ⟨fun _ => ⟨h, rfl⟩, fun _ _ _ _ => Or.inl rfl⟩
    | false =>
      cases hvacant : v.isVacant with
      | false =>
        rw [hvacant] at h
        exact ⟨fun _ => ⟨h, rfl⟩, fun _ => nofun⟩
      | true =>
        cases hout : s.whenLeftOut with
        | none =>
          rw [hout] at h
          exact ⟨fun _ => ⟨Or.inr (h.resolve_left nofun), rfl⟩, fun _ _ _ => nofun⟩
        | some a =>
          constructor
          · intro hplain
            obtain ⟨htakes, hmeaning⟩ := (hplain rfl a rfl).resolve_left nofun
            exact ⟨Or.inr htakes, hmeaning⟩
          · rintro ⟨hvalid, hmeaning⟩ - b hb
            obtain rfl := Option.some.inj hb
            exact Or.inr ⟨hvalid.resolve_left nofun, hmeaning⟩

/-- A setting that must not be left out is plain. -/
theorem isPlain_of_required (h : s.whenLeftOut = none) : s.IsPlain es := by
  unfold IsPlain
  split
  · trivial
  · rw [h]
    exact fun _ _ => nofun

/-- What is valid where null alone counts as left out is so where every vacant value does. -/
theorem IsValid.mono (h : s.IsValid Value.isNull es) : s.IsValid Value.isVacant es := by
  unfold IsValid at *
  generalize es.get? s.key.toList = entry at h ⊢
  cases entry with
  | none => trivial
  | some v => exact h.imp_left fun h => ⟨Value.isVacant_of_isNull h.1, h.2⟩

/-! ## Reading one setting -/

variable {writable : Prop} {a : α} {r : Except ConfigFault α}

/-- A setting is read from its entry. -/
theorem judges_get (key : String) (hkey : s.key = key) (hout : s.whenLeftOut = none)
    (hnone : es.get? key.toList = none → r = .ok s.standard)
    (hsome : ∀ v, es.get? key.toList = some v → Judges r (s.Takes v) writable (s.meaning v)) :
    Judges r (s.IsValid Value.isVacant es) writable (s.valueIn Value.isVacant es) := by
  unfold IsValid valueIn
  rw [hkey]
  generalize es.get? key.toList = entry at hnone hsome ⊢
  cases entry with
  | none =>
    rw [hnone rfl]
    exact judges_ok trivial
  | some v =>
    rw [hout]
    dsimp only
    rw [Option.getD_none, ite_self]
    exact (hsome v rfl).congr ⟨Or.inr, fun h => h.resolve_left nofun⟩ id

/-- A setting whose value may be left out is read from its entry unless that is vacant. -/
theorem judges_occupied (key : String) (hkey : s.key = key) (hout : s.whenLeftOut = some a)
    (hstandard : s.standard = a) (hnone : Config.occupied? es key = none → r = .ok a)
    (hsome : ∀ v, Config.occupied? es key = some v → es.get? key.toList = some v →
      Judges r (s.Takes v) writable (s.meaning v)) :
    Judges r (s.IsValid Value.isVacant es) writable (s.valueIn Value.isVacant es) := by
  unfold Config.occupied? at hnone hsome
  unfold IsValid valueIn
  rw [hkey]
  generalize es.get? key.toList = entry at hnone hsome ⊢
  cases entry with
  | none =>
    rw [hnone rfl, hstandard]
    exact judges_ok trivial
  | some v =>
    rw [hout]
    dsimp only
    cases hvacant : v.isVacant with
    | true =>
      rw [hnone (Option.filter_some_neg (by rw [hvacant]; decide))]
      exact judges_ok (Or.inl ⟨rfl, rfl⟩)
    | false =>
      exact (hsome v (Option.filter_some_pos (by rw [hvacant]; rfl)) rfl).congr
        ⟨Or.inr, fun h => h.resolve_left nofun⟩ id

end Setting

/-! ## The settings of a file -/

namespace Setting

/-- A section of settings. -/
def table (key : String) : Setting Entries where
  key
  Takes v := ∃ es, v = .table es
  meaning
    | .table es => es
    | _ => []
  whenLeftOut := some []
  standard := []

/-- Words : a list of them, or a single one. -/
def words (key : String) (standard : List LooseText) : Setting (List LooseText) where
  key
  Takes v := (∃ x, v = .text x) ∨ ∃ vs, v = .list vs
  meaning
    | .text x => [x]
    | .list vs => vs.map Value.asText
    | _ => []
  whenLeftOut := some []
  standard

/-- The classes of categories, which are named in any case. -/
def classes : Setting (List (Category × LooseText)) where
  key := "css_classes"
  Takes v := ∃ es, v = .table es ∧
    ∀ e ∈ es, ∃ c : Category, e.1.lower = Text.loose c.name.toList
  meaning
    | .table es => es.map fun e => ((Config.categoryOf? e.1).getD .keyword, e.2.asText)
    | _ => []
  whenLeftOut := some []
  standard := []

/-- The size of the indent. -/
def indentSize : Setting Int where
  key := "indent_size"
  Takes v := ∃ n, v = .whole n ∧ 1 ≤ n
  meaning
    | .whole n => n
    | _ => 0
  whenLeftOut := none
  standard := FormatSettings.standard.indentSize

/-- The style of the indent, which is named in any case. -/
def indentStyle : Setting IndentStyle where
  key := "indent_style"
  Takes v := ∃ x, v = .text x ∧ ∃ i : IndentStyle, x.lower = Text.loose i.name.toList
  meaning
    | .text x => (Config.indentStyleOf? x).getD .spaces
    | _ => .spaces
  whenLeftOut := some .spaces
  standard := .spaces

/-- The words that start a line. -/
def clauseWords : Setting (List LooseText) :=
  words "clause_keywords" FormatSettings.standard.clauseWords

/-- Whether each statement is laid out on its own. -/
def splitStatements : Setting Bool where
  key := "split_statements"
  Takes v := ∃ b, v = .bool b
  meaning
    | .bool b => b
    | _ => false
  whenLeftOut := none
  standard := false

end Setting

/-! ## Writable values -/

/-- The values of entries hold no number of too many digits. -/
def IsWritable (es : Entries) : Prop :=
  ∀ e ∈ es, e.2.isWritable = true

theorem areItemsWritable_iff {vs : List Value} :
    Value.areItemsWritable vs = true ↔ ∀ v ∈ vs, v.isWritable = true := by
  induction vs with
  | nil => exact ⟨fun _ => nofun, fun _ => rfl⟩
  | cons v vs ih => rw [Value.areItemsWritable, Bool.and_eq_true, ih, List.forall_mem_cons]

theorem areEntriesWritable_iff {es : Entries} :
    Value.areEntriesWritable es = true ↔ IsWritable es := by
  unfold IsWritable
  induction es with
  | nil => exact ⟨fun _ => nofun, fun _ => rfl⟩
  | cons e es ih =>
    obtain ⟨k, v⟩ := e
    rw [Value.areEntriesWritable, Bool.and_eq_true, ih, List.forall_mem_cons]

theorem IsWritable.get? {es : Entries} (h : IsWritable es) {key : Text} {v : Value}
    (hv : es.get? key = some v) : v.isWritable = true := by
  obtain ⟨before, after, heq, -⟩ := List.lookup_eq_some_iff.1 hv
  refine h (key.loose, v) ?_
  rw [heq]
  exact List.mem_append_right _ List.mem_cons_self

theorem Setting.table_valueIn_cases (leftOut : Value → Bool) (key : String) (es : Entries) :
    (Setting.table key).valueIn leftOut es = [] ∨
      es.get? key.toList = some (.table ((Setting.table key).valueIn leftOut es)) := by
  unfold Setting.valueIn
  have hkey : (Setting.table key).key = key := rfl
  rw [hkey]
  cases es.get? key.toList with
  | none => exact Or.inl rfl
  | some v =>
    dsimp only
    split
    · exact Or.inl rfl
    · cases v with
      | table t => exact Or.inr rfl
      | _ => exact Or.inl rfl

theorem IsWritable.table {es : Entries} (h : IsWritable es) (key : String) :
    IsWritable ((Setting.table key).valueIn Value.isVacant es) := by
  rcases Setting.table_valueIn_cases Value.isVacant key es with heq | heq
  · rw [heq]
    exact nofun
  · exact areEntriesWritable_iff.1 (h.get? heq)

/-! ## The readers of a file -/

section Readers

variable {es : Entries}

theorem judges_readSection (key : String) : Judges (Config.readSection es key)
    ((Setting.table key).IsValid Value.isVacant es) (IsWritable es)
    ((Setting.table key).valueIn Value.isVacant es) := by
  refine Setting.judges_occupied key rfl rfl rfl (fun h => ?_) fun v h _ => ?_
  · rw [Config.readSection, h]
  rw [Config.readSection, h]
  cases v with
  | table t => exact judges_ok ⟨t, rfl⟩
  | _ => exact judges_error (by rintro ⟨_, h⟩; cases h) nofun

theorem judges_readText (v : Value) :
    Judges (Config.readText v) True (v.isWritable = true) v.asText := by
  unfold Config.readText
  split
  · exact judges_ok trivial
  · next h => exact ⟨fun _ => Or.inr rfl, fun hnot => absurd trivial hnot, fun hw => absurd hw h⟩

theorem judges_readWords (es : Entries) (key : String) : Judges (Config.readWords es key)
    ((Setting.words key []).IsValid Value.isVacant es) (IsWritable es)
    ((Setting.words key []).valueIn Value.isVacant es) := by
  refine Setting.judges_occupied key rfl rfl rfl (fun h => ?_) fun v h hv => ?_
  · rw [Config.readWords, h]
  rw [Config.readWords, h]
  cases v with
  | text x => exact judges_ok (Or.inl ⟨x, rfl⟩)
  | list vs =>
    have hwritable : IsWritable es → ∀ v ∈ vs, v.isWritable = true := fun h =>
      areItemsWritable_iff.1 (h.get? hv)
    have hwords := judges_mapM fun v (hv : v ∈ vs) =>
      (judges_readText v).congr Iff.rfl fun h => hwritable h v hv
    exact hwords.congr ⟨fun _ => Or.inr ⟨vs, rfl⟩, fun _ _ _ => trivial⟩ id
  | _ => exact judges_error (by rintro (⟨_, h⟩ | ⟨_, h⟩) <;> cases h) nofun

theorem judges_readClass (e : LooseText × Value) : Judges (Config.readClass e)
    (∃ c : Category, e.1.lower = Text.loose c.name.toList) (e.2.isWritable = true)
    ((Config.categoryOf? e.1).getD .keyword, e.2.asText) := by
  unfold Config.readClass
  cases hc : Config.categoryOf? e.1 with
  | none =>
    refine judges_error ?_ nofun
    rintro ⟨c, h⟩
    rw [← Config.categoryOf?_eq_some_iff, hc] at h
    cases h
  | some c =>
    have htext := (judges_readText e.2).map (c, ·)
    exact htext.congr
      ⟨fun _ => ⟨c, Config.categoryOf?_eq_some_iff.1 hc⟩, fun _ => trivial⟩ id

theorem judges_readClasses : Judges (Config.readClasses es)
    (Setting.classes.IsValid Value.isVacant es) (IsWritable es)
    (Setting.classes.valueIn Value.isVacant es) := by
  refine Setting.judges_occupied "css_classes" rfl rfl rfl (fun h => ?_) fun v h hv => ?_
  · rw [Config.readClasses, h]
  rw [Config.readClasses, h]
  cases v with
  | table t =>
    have hwritable : IsWritable es → IsWritable t := fun h => areEntriesWritable_iff.1 (h.get? hv)
    have hclasses := judges_mapM fun e (he : e ∈ t) =>
      (judges_readClass e).congr Iff.rfl fun h => hwritable h e he
    refine hclasses.congr ⟨fun h => ⟨t, rfl, h⟩, ?_⟩ id
    rintro ⟨t', ht, h⟩
    obtain rfl := Value.table.inj ht
    exact h
  | _ => exact judges_error (by rintro ⟨_, h, -⟩; cases h) nofun

theorem judges_readIndentSize : Judges (Config.readIndentSize es)
    (Setting.indentSize.IsValid Value.isVacant es) (IsWritable es)
    (Setting.indentSize.valueIn Value.isVacant es) := by
  refine Setting.judges_get "indent_size" rfl rfl (fun h => ?_) fun v h => ?_
  · rw [Config.readIndentSize, h]
    rfl
  rw [Config.readIndentSize, h]
  cases v with
  | whole n =>
    dsimp only
    split
    · next h => exact judges_ok ⟨n, rfl, h⟩
    · next h =>
      refine judges_error ?_ nofun
      rintro ⟨m, hm, hpos⟩
      obtain rfl := Value.whole.inj hm
      exact h hpos
  | _ => exact judges_error (by rintro ⟨_, h, -⟩; cases h) nofun

theorem judges_readIndentStyle : Judges (Config.readIndentStyle es)
    (Setting.indentStyle.IsValid Value.isVacant es) (IsWritable es)
    (Setting.indentStyle.valueIn Value.isVacant es) := by
  refine Setting.judges_occupied "indent_style" rfl rfl rfl (fun h => ?_) fun v h hv => ?_
  · rw [Config.readIndentStyle, h]
  rw [Config.readIndentStyle, h]
  have htext := (judges_readText v).congr Iff.rfl fun (h : IsWritable es) => h.get? hv
  refine (htext.bind ?_).congr (and_iff_right trivial) id
  cases hi : Config.indentStyleOf? v.asText with
  | none =>
    refine judges_error ?_ nofun
    rintro ⟨x, rfl, i, h⟩
    rw [← Config.indentStyleOf?_eq_some_iff] at h
    cases hi.symm.trans h
  | some i =>
    have hname := Config.indentStyleOf?_eq_some_iff.1 hi
    obtain ⟨x, rfl⟩ := exists_text_of_lower_asText hname
    have hmeaning : Setting.indentStyle.meaning (.text x) = i := congrArg (·.getD .spaces) hi
    rw [hmeaning]
    exact judges_ok ⟨x, rfl, i, hname⟩

theorem judges_readSplitStatements : Judges (Config.readSplitStatements es)
    (Setting.splitStatements.IsValid Value.isVacant es) (IsWritable es)
    (Setting.splitStatements.valueIn Value.isVacant es) := by
  refine Setting.judges_get "split_statements" rfl rfl (fun h => ?_) fun v h => ?_
  · rw [Config.readSplitStatements, h]
    rfl
  rw [Config.readSplitStatements, h]
  cases v with
  | bool b => exact judges_ok ⟨b, rfl⟩
  | _ => exact judges_error (by rintro ⟨_, h⟩; cases h) nofun

theorem judges_readClauseWords : Judges (Config.readClauseWords es)
    (Setting.clauseWords.IsValid Value.isVacant es) (IsWritable es)
    (Setting.clauseWords.valueIn Value.isVacant es) := by
  unfold Setting.clauseWords
  have hkey : ∀ ws, (Setting.words "clause_keywords" ws).key = "clause_keywords" := fun _ => rfl
  cases h : es.get? "clause_keywords".toList with
  | none =>
    have hread : Config.readClauseWords es = .ok FormatSettings.standard.clauseWords := by
      rw [Config.readClauseWords, h]
    unfold Setting.IsValid Setting.valueIn
    rw [hread, hkey, h]
    exact judges_ok trivial
  | some v =>
    have hread : Config.readClauseWords es = Config.readWords es "clause_keywords" := by
      rw [Config.readClauseWords, h]
    have hwords := judges_readWords es "clause_keywords"
    unfold Setting.IsValid Setting.valueIn at hwords ⊢
    rw [hread]
    rw [hkey, h] at hwords ⊢
    exact hwords

end Readers

/-! ## The settings of a file -/

section File

variable {root path : Path} {es : Entries}

/-- The entries under `highlight`. -/
def highlightOf (leftOut : Value → Bool) (es : Entries) : Entries :=
  (Setting.table "highlight").valueIn leftOut es

/-- The entries under `format`. -/
def formatOf (leftOut : Value → Bool) (es : Entries) : Entries :=
  (Setting.table "format").valueIn leftOut es

/-- The settings of the layout are valid, where `leftOut` says which values count as left out. -/
structure IsFormatValid (leftOut : Value → Bool) (es : Entries) : Prop where
  table : (Setting.table "format").IsValid leftOut es
  indentSize : Setting.indentSize.IsValid leftOut (formatOf leftOut es)
  indentStyle : Setting.indentStyle.IsValid leftOut (formatOf leftOut es)
  splitStatements : Setting.splitStatements.IsValid leftOut (formatOf leftOut es)
  clauseWords : Setting.clauseWords.IsValid leftOut (formatOf leftOut es)

/-- The entries of a file are valid, where `leftOut` says which values count as left out. -/
structure IsValid (leftOut : Value → Bool) (es : Entries) : Prop where
  highlight : (Setting.table "highlight").IsValid leftOut es
  classes : Setting.classes.IsValid leftOut (highlightOf leftOut es)
  extraKeywords :
    (Setting.words "extra_keywords" []).IsValid leftOut (highlightOf leftOut es)
  extraFunctions :
    (Setting.words "extra_functions" []).IsValid leftOut (highlightOf leftOut es)
  format : IsFormatValid leftOut es

/-- The settings of the layout that the entries of a file describe. -/
def describedFormat (leftOut : Value → Bool) (es : Entries) : FormatSettings where
  indentStyle := Setting.indentStyle.valueIn leftOut (formatOf leftOut es)
  indentSize := Setting.indentSize.valueIn leftOut (formatOf leftOut es)
  clauseWords := Setting.clauseWords.valueIn leftOut (formatOf leftOut es)
  splitStatements := Setting.splitStatements.valueIn leftOut (formatOf leftOut es)

/-- The configuration that the entries of a file describe. -/
def described (leftOut : Value → Bool) (root path : Path) (es : Entries) : Config where
  root
  extraKeywords := (Setting.words "extra_keywords" []).valueIn leftOut (highlightOf leftOut es)
  extraFunctions := (Setting.words "extra_functions" []).valueIn leftOut (highlightOf leftOut es)
  classes := Setting.classes.valueIn leftOut (highlightOf leftOut es)
  format := describedFormat leftOut es
  path := some path

/-- No vacant value stands where another kind of value is expected, nor for another value than
null would. -/
structure IsPlain (es : Entries) : Prop where
  highlight : (Setting.table "highlight").IsPlain es
  classes : Setting.classes.IsPlain (highlightOf Value.isVacant es)
  extraKeywords : (Setting.words "extra_keywords" []).IsPlain (highlightOf Value.isVacant es)
  extraFunctions : (Setting.words "extra_functions" []).IsPlain (highlightOf Value.isVacant es)
  format : (Setting.table "format").IsPlain es
  indentStyle : Setting.indentStyle.IsPlain (formatOf Value.isVacant es)
  clauseWords : Setting.clauseWords.IsPlain (formatOf Value.isVacant es)

theorem judges_readFormat : Judges (Config.readFormat es) (IsFormatValid Value.isVacant es)
    (IsWritable es) (describedFormat Value.isVacant es) := by
  have hformat : IsWritable es → IsWritable (formatOf Value.isVacant es) := fun h => h.table _
  have hread : Judges (Config.readFormat es)
      ((Setting.table "format").IsValid Value.isVacant es ∧
        Setting.indentSize.IsValid Value.isVacant (formatOf Value.isVacant es) ∧
        Setting.indentStyle.IsValid Value.isVacant (formatOf Value.isVacant es) ∧
        Setting.splitStatements.IsValid Value.isVacant (formatOf Value.isVacant es) ∧
        Setting.clauseWords.IsValid Value.isVacant (formatOf Value.isVacant es) ∧ True)
      (IsWritable es) (describedFormat Value.isVacant es) := by
    unfold Config.readFormat
    refine (judges_readSection "format").bind ?_
    refine (judges_readIndentSize.congr Iff.rfl hformat).bind ?_
    refine (judges_readIndentStyle.congr Iff.rfl hformat).bind ?_
    refine (judges_readSplitStatements.congr Iff.rfl hformat).bind ?_
    exact (judges_readClauseWords.congr Iff.rfl hformat).bind (judges_ok trivial)
  refine hread.congr ⟨?_, ?_⟩ id
  · rintro ⟨hl, hs, hi, hp, hw, -⟩
    exact ⟨hl, hs, hi, hp, hw⟩
  · rintro ⟨hl, hs, hi, hp, hw⟩
    exact ⟨hl, hs, hi, hp, hw, trivial⟩

/-- Reading gives the configuration that valid entries describe and refuses all others. -/
theorem judges_ofEntries (root path : Path) (es : Entries) :
    Judges (Config.ofEntries root path es) (IsValid Value.isVacant es) (IsWritable es)
      (described Value.isVacant root path es) := by
  have hhighlight : IsWritable es → IsWritable (highlightOf Value.isVacant es) :=
    fun h => h.table _
  have hread : Judges (Config.ofEntries root path es)
      ((Setting.table "highlight").IsValid Value.isVacant es ∧
        Setting.classes.IsValid Value.isVacant (highlightOf Value.isVacant es) ∧
        (Setting.words "extra_keywords" []).IsValid Value.isVacant
          (highlightOf Value.isVacant es) ∧
        (Setting.words "extra_functions" []).IsValid Value.isVacant
          (highlightOf Value.isVacant es) ∧ IsFormatValid Value.isVacant es ∧ True)
      (IsWritable es) (described Value.isVacant root path es) := by
    unfold Config.ofEntries
    refine (judges_readSection "highlight").bind ?_
    refine (judges_readClasses.congr Iff.rfl hhighlight).bind ?_
    refine ((judges_readWords _ "extra_keywords").congr Iff.rfl hhighlight).bind ?_
    refine ((judges_readWords _ "extra_functions").congr Iff.rfl hhighlight).bind ?_
    exact judges_readFormat.bind (judges_ok trivial)
  refine hread.congr ⟨?_, ?_⟩ id
  · rintro ⟨hh, hc, hk, hf, hl, -⟩
    exact ⟨hh, hc, hk, hf, hl⟩
  · rintro ⟨hh, hc, hk, hf, hl⟩
    exact ⟨hh, hc, hk, hf, hl, trivial⟩

/-! ## Plain entries -/

theorem Setting.isPlain_table {key : String}
    (h : (Setting.table key).IsValid Value.isNull es) : (Setting.table key).IsPlain es := by
  unfold Setting.IsValid Setting.IsPlain at *
  generalize es.get? (Setting.table key).key.toList = entry at h ⊢
  cases entry with
  | none => trivial
  | some v =>
    intro hvacant a ha
    obtain rfl := Option.some.inj ha
    refine h.imp And.left ?_
    rintro ⟨t, rfl⟩
    exact ⟨⟨t, rfl⟩, List.isEmpty_iff.1 hvacant⟩

/-- A section that is valid where null alone counts as left out holds the same entries as where
every vacant value does. -/
theorem Setting.valueIn_table {key : String}
    (h : (Setting.table key).IsValid Value.isNull es) :
    (Setting.table key).valueIn Value.isNull es = (Setting.table key).valueIn Value.isVacant es :=
  ((Setting.isPlain_iff h.mono).1 (Setting.isPlain_table h)).2

theorem highlightOf_isNull (h : (Setting.table "highlight").IsValid Value.isNull es) :
    highlightOf Value.isNull es = highlightOf Value.isVacant es :=
  Setting.valueIn_table h

theorem formatOf_isNull (h : (Setting.table "format").IsValid Value.isNull es) :
    formatOf Value.isNull es = formatOf Value.isVacant es :=
  Setting.valueIn_table h

/-- What is valid where null alone counts as left out is so where every vacant value does. -/
theorem IsValid.mono (h : IsValid Value.isNull es) : IsValid Value.isVacant es := by
  obtain ⟨hh, hc, hk, hf, hl, hs, hi, hp, hw⟩ := h
  rw [highlightOf_isNull hh] at hc hk hf
  rw [formatOf_isNull hl] at hs hi hp hw
  exact ⟨hh.mono, hc.mono, hk.mono, hf.mono, hl.mono, hs.mono, hi.mono, hp.mono, hw.mono⟩

/-- Plain entries are those that are valid and describe the same where null alone counts as left
out. -/
theorem isPlain_iff (h : IsValid Value.isVacant es) : IsPlain es ↔
    IsValid Value.isNull es ∧
      described Value.isNull root path es = described Value.isVacant root path es := by
  obtain ⟨hh, hc, hk, hf, hl, hs, hi, hp, hw⟩ := h
  unfold described describedFormat
  constructor
  · rintro ⟨ph, pc, pk, pf, pl, pi, pw⟩
    have vh := ((Setting.isPlain_iff hh).1 ph).1
    have vl := ((Setting.isPlain_iff hl).1 pl).1
    obtain ⟨vc, ec⟩ := (Setting.isPlain_iff hc).1 pc
    obtain ⟨vk, ek⟩ := (Setting.isPlain_iff hk).1 pk
    obtain ⟨vf, ef⟩ := (Setting.isPlain_iff hf).1 pf
    obtain ⟨vs, es⟩ := (Setting.isPlain_iff hs).1 (Setting.isPlain_of_required rfl)
    obtain ⟨vi, ei⟩ := (Setting.isPlain_iff hi).1 pi
    obtain ⟨vp, ep⟩ := (Setting.isPlain_iff hp).1 (Setting.isPlain_of_required rfl)
    obtain ⟨vw, ew⟩ := (Setting.isPlain_iff hw).1 pw
    have eh := highlightOf_isNull vh
    have el := formatOf_isNull vl
    refine ⟨⟨vh, eh ▸ vc, eh ▸ vk, eh ▸ vf, vl, el ▸ vs, el ▸ vi, el ▸ vp, el ▸ vw⟩, ?_⟩
    rw [eh, el, ec, ek, ef, es, ei, ep, ew]
  · rintro ⟨⟨vh, vc, vk, vf, vl, -, vi, -, vw⟩, heq⟩
    rw [highlightOf_isNull vh] at vc vk vf heq
    rw [formatOf_isNull vl] at vi vw heq
    obtain ⟨-, ek, ef, ec, el, -⟩ := Config.mk.inj heq
    obtain ⟨ei, -, ew, -⟩ := FormatSettings.mk.inj el
    exact ⟨Setting.isPlain_table vh, (Setting.isPlain_iff hc).2 ⟨vc, ec⟩,
      (Setting.isPlain_iff hk).2 ⟨vk, ek⟩, (Setting.isPlain_iff hf).2 ⟨vf, ef⟩,
      Setting.isPlain_table vl, (Setting.isPlain_iff hi).2 ⟨vi, ei⟩,
      (Setting.isPlain_iff hw).2 ⟨vw, ew⟩⟩

end File

end SqlSnippet
