import SqlSnippet.Proofs.RenderedSources
import SqlSnippet.Proofs.SourceExpansion

/-!
# Sources that are read from the standard input

An operand is looked up as a path, but its source is a text again, and the name of the standard
input is recognized in both. So a path that is another way to write this name is found as a file and
then not read (`SpellsInput`). Without such an operand, as many sources are read from the standard
input as operands name it, and every operand that names a file is read from this file
(`readsAsNamed_iff`).
-/

namespace SqlSnippet

variable {t : FileTree} {here place : Place} {operand source : Text} {bytes : List UInt8}
  {operands names : List Text} {namess : List (List Text)}

/-- Some session has another standard input after the source has been read. -/
def TakesInput (here : Place) (source : Text) : Prop :=
  ∃ s : Session, ((readSource here source).run s).2.input ≠ s.input

theorem takesInput_iff : TakesInput here source ↔ source = stdinName := by
  simp only [TakesInput, run_readSource, inputAfter]
  constructor
  · rintro ⟨s, hs⟩
    by_contra hsource
    rw [if_neg hsource] at hs
    exact hs rfl
  · intro hsource
    refine ⟨.start .empty [0], ?_⟩
    rw [if_pos hsource]
    exact (List.cons_ne_nil 0 []).symm

instance : DecidablePred (TakesInput here) :=
  fun _ => decidable_of_iff _ takesInput_iff.symm

/-- The source is read from the file at a place with these bytes, if that may be read, and nothing
else is changed by that. -/
def ReadsFile (t : FileTree) (here : Place) (source : Text) (place : Place) (bytes : List UInt8) :
    Prop :=
  ∀ s : Session, s.tree = t → (readSource here source).run s =
    ((if t.isDenied .reading place then .error (.file .denied source)
      else FileTree.textOfBytes bytes).mapError (Job.unreadableSource source), s)

theorem readsFile_toText (hname : (Path.ofText operand).toText ≠ stdinName)
    (hfind : t.find? here (.ofText operand) = .ok (some (place, .file bytes))) :
    ReadsFile t here (Path.ofText operand).toText place bytes := by
  rintro s rfl
  rw [run_readSource, sourceText, inputAfter, if_neg hname, if_neg hname,
    Path.ofText_toText (Path.isNormal_ofText operand), FileTree.readText_of_find? hfind]

/-! ## Paths that are written as the standard input -/

/-- A path in whose text there is no slash has one name at most. -/
theorem Path.names_of_toText {p : Path} (h : '/' ∉ p.toText) :
    p.names = [] ∨ p.names = [p.toText] := by
  obtain ⟨k, ns⟩ := p
  match k, ns with
  | _, [] => exact Or.inl rfl
  | 0, [n] => exact Or.inr (by simp [toText])
  | k + 1, n :: ns => exact absurd List.mem_cons_self h
  | 0, n :: m :: ns =>
    refine absurd ?_ h
    change '/' ∈ List.intercalate ['/'] (n :: m :: ns)
    rw [List.intercalate_cons_cons]
    simp

/-- The path to a SQL file below a directory is not written as the standard input. -/
theorem IsSqlFileBelow.toText_ne {p q : Path} (h : IsSqlFileBelow t place p q) :
    q.toText ≠ stdinName := by
  obtain ⟨names, bytes, hne, -, hq, hsql⟩ := h
  intro hname
  have hslash : '/' ∉ q.toText := hname ▸ by decide
  rcases Path.names_of_toText hslash with hnames | hnames
  · rw [hq] at hnames
    exact hne (List.append_eq_nil_iff.1 hnames).2
  · rw [Path.suffix, Path.name, hnames, hname] at hsql
    exact absurd hsql (by decide)

/-- An operand that is another way to write the name of the standard input, and leads to a file. -/
def SpellsInput (t : FileTree) (here : Place) (operand : Text) : Prop :=
  operand ≠ stdinName ∧ (Path.ofText operand).toText = stdinName ∧
    ∃ place bytes, t.find? here (.ofText operand) = .ok (some (place, .file bytes))

open scoped Classical in
theorem Expands.count (h : Expands t here operand names) : names.count stdinName =
    (if operand = stdinName then 1 else 0) + if SpellsInput t here operand then 1 else 0 := by
  cases h with
  | input hname =>
    have hspells : ¬SpellsInput t here operand := fun h => h.1 hname
    rw [if_pos hname, if_neg hspells]
    rfl
  | file hname hfind =>
    have hspells : SpellsInput t here operand ↔ (Path.ofText operand).toText = stdinName :=
      ⟨fun h => h.2.1, fun h => ⟨hname, h, _, _, hfind⟩⟩
    rw [if_neg hname, Nat.zero_add, List.count_singleton]
    simp only [hspells, beq_iff_eq]
  | directory hname hfind hne hmem =>
    have hspells : ¬SpellsInput t here operand := by
      rintro ⟨-, -, _, _, h⟩
      cases hfind.symm.trans h
    rw [if_neg hname, if_neg hspells, List.count_eq_zero]
    rintro hinput
    obtain ⟨q, hq, hqname⟩ := List.mem_map.1 hinput
    exact ((hmem q).1 hq).toText_ne hqname

open scoped Classical in
/-- The sources that are read from the standard input are as many as the operands that name it or
are other ways to write its name. -/
theorem count_flatten_of_expands (h : List.Forall₂ (Expands t here) operands namess) :
    namess.flatten.count stdinName =
      operands.count stdinName + operands.countP (SpellsInput t here ·) := by
  induction h with
  | nil => rfl
  | cons hhead _ ih =>
    rw [List.flatten_cons, List.count_append, ih, hhead.count, List.count_cons, List.countP_cons]
    simp only [beq_iff_eq, decide_eq_true_eq]
    omega

/-! ## Operands that are read as they are named -/

/-- As many sources are read from the standard input as operands name it, and another operand that
names a file is read from it. -/
structure ReadsAsNamed (t : FileTree) (here : Place) (operands sources : List Text) : Prop where
  input : sources.countP (TakesInput here ·) = operands.count stdinName
  files : ∃ namess, sources = namess.flatten ∧ List.Forall₂ (fun operand names =>
    Expands t here operand names ∧ ∀ place bytes, operand ≠ stdinName →
      t.find? here (.ofText operand) = .ok (some (place, .file bytes)) →
        ∃ source, names = [source] ∧ ReadsFile t here source place bytes) operands namess

theorem countP_takesInput (sources : List Text) :
    sources.countP (TakesInput here ·) = sources.count stdinName := by
  refine List.countP_congr fun source _ => ?_
  rw [decide_eq_true_iff, takesInput_iff, beq_iff_eq]

theorem Expands.exists_readsFile (h : Expands t here operand names)
    (hspells : ¬SpellsInput t here operand) (hname : operand ≠ stdinName)
    (hfind : t.find? here (.ofText operand) = .ok (some (place, .file bytes))) :
    ∃ source, names = [source] ∧ ReadsFile t here source place bytes := by
  cases h with
  | input hinput => exact absurd hinput hname
  | file =>
    exact ⟨_, rfl, readsFile_toText (fun h => hspells ⟨hname, h, _, _, hfind⟩) hfind⟩
  | directory _ hdirectory => cases hdirectory.symm.trans hfind

/-- Operands are read as they are named, if none is another way to write the name of the standard
input. -/
theorem readsAsNamed_iff {sources : List Text} (h : collectSources t here operands = .ok sources) :
    ReadsAsNamed t here operands sources ↔ ∀ operand ∈ operands, ¬SpellsInput t here operand := by
  classical
  unfold collectSources at h
  cases hmap : operands.mapM (sourcesOf t here) with
  | error failure =>
    rw [hmap] at h
    cases h
  | ok namess =>
    rw [hmap] at h
    obtain rfl := Except.ok.inj h
    have heach : List.Forall₂ (Expands t here) operands namess :=
      (forall₂_of_mapM_eq_ok hmap).imp fun _ _ => expands_of_sourcesOf
    have hinput : namess.flatten.countP (TakesInput here ·) = operands.count stdinName ↔
        ∀ operand ∈ operands, ¬SpellsInput t here operand := by
      rw [countP_takesInput, count_flatten_of_expands heach, Nat.add_eq_left, List.countP_eq_zero]
      simp only [decide_eq_true_iff]
    refine ⟨fun h => hinput.1 h.input, fun hspells => ⟨hinput.2 hspells, namess, rfl, ?_⟩⟩
    refine ((List.forall₂_and_left operands namess).2 ⟨hspells, heach⟩).imp
      fun operand names hread => ⟨hread.2, fun place bytes hname hfind => ?_⟩
    exact hread.2.exists_readsFile hread.1 hname hfind

/-- The standard input and a file next to it. -/
theorem readsAsNamed_iff_dash_and_file :
    let t := FileTree.empty.put ["q.sql".toList] (.file [0x31])
    let operands := [stdinName, "./q.sql".toList]
    collectSources t [] operands = .ok [stdinName, "q.sql".toList] ∧
      ReadsAsNamed t [] operands [stdinName, "q.sql".toList] := by
  intro t operands
  have h : collectSources t [] operands = .ok [stdinName, "q.sql".toList] := rfl
  refine ⟨h, (readsAsNamed_iff h).2 ?_⟩
  rw [List.forall_mem_cons, List.forall_mem_singleton]
  exact ⟨fun hspells => hspells.1 rfl, fun hspells => absurd hspells.2.1 (by decide)⟩

/-- A file whose name is a dash is looked up with a point before it, and then not read. -/
theorem not_readsAsNamed_point_dash :
    let t := FileTree.empty.put [stdinName] (.file [0x31])
    collectSources t [] ["./-".toList] = .ok [stdinName] ∧
      ¬ReadsAsNamed t [] ["./-".toList] [stdinName] := by
  refine ⟨rfl, fun h => ?_⟩
  have hinput := h.input
  rw [countP_takesInput] at hinput
  exact absurd hinput (by decide)

end SqlSnippet
