import Mathlib.Data.Prod.Basic
import SqlSnippet.Proofs.FileLayout
import SqlSnippet.Proofs.UnifiedBreaks

/-!
# Strings and comments of files

Layout keeps the strings and comments of a text (`literalRegions_formatDocument`). A file is not
laid out as it is, though : reading it makes all its line breaks line feeds, also those inside of
strings and block comments (`literalRegions_unifyBreaks`), and the line feed at the end of a file
goes on with a string or block comment that is not closed
(`EndsOpen.exists_literalRegions_laidFile`). `format_write_literals_iff` : where a file is written
at all, it keeps its strings and comments if neither befalls it, and only then.
-/

namespace SqlSnippet

variable {o : LayoutOptions} {s x y : Text} {as : List Atom} {r : Region}

/-! ## Strings and comments -/

/-- The strings and comments of a text. -/
def literalRegions (s : Text) : List Region :=
  (scan s).filter Region.isProtected

/-- The strings and comments of a text, each as its kind and what it reads. -/
def literals (s : Text) : List (RegionKind × Text) :=
  (literalRegions s).map fun r => (r.kind, r.text)

/-- The string or comment that an atom is. -/
def Atom.literal? : Atom → Option Region
  | .code _ => none
  | .literal r => some r

theorem filterMap_literal?_atoms (s : Text) :
    (atoms s).filterMap Atom.literal? = literalRegions s := by
  have hregion : ∀ r : Region, r.atoms.filterMap Atom.literal? =
      [r].filter Region.isProtected := by
    intro r
    unfold Region.atoms
    split
    · next hp => rw [List.filter_cons_of_pos hp]; rfl
    · next hp =>
      rw [List.filter_cons_of_neg hp]
      exact List.filterMap_eq_nil_iff.2 (List.forall_mem_map.2 fun _ _ => rfl)
  unfold atoms literalRegions
  induction scan s with
  | nil => rfl
  | cons r rs ih =>
    rw [List.flatMap_cons, List.filterMap_append, ih, hregion, ← List.filter_append,
      List.singleton_append]

/-- Texts that differ in the white space of their code have the same strings and comments. -/
theorem literalRegions_congr {t : Text}
    (h : (atoms s).filter (!·.isBlank) = (atoms t).filter (!·.isBlank)) :
    literalRegions s = literalRegions t := by
  have hfilter : ∀ u, literalRegions u =
      ((atoms u).filter (!·.isBlank)).filterMap Atom.literal? := by
    intro u
    rw [← filterMap_literal?_atoms, List.filterMap_filter]
    refine List.filterMap_congr fun a _ => ?_
    cases a with
    | code c => exact (ite_self none).symm
    | literal r => rfl
  rw [hfilter, hfilter, h]

/-- Layout keeps strings and comments as they are. -/
theorem literalRegions_formatDocument (o : LayoutOptions) (s : Text) :
    literalRegions (formatDocument o s).text = literalRegions s :=
  literalRegions_congr (filter_atoms_formatDocument o s)

theorem EndsOpen.literalRegions_eq (h : EndsOpen s as r) :
    literalRegions s = as.filterMap Atom.literal? ++ [r] := by
  rw [← filterMap_literal?_atoms, h.atoms_eq, List.filterMap_append]
  rfl

/-! ## The line feed at the end of a file -/

theorem literalRegions_laidFile (h : unterminated x = []) :
    literalRegions (laidFile o x) = literalRegions x := by
  rw [← literalRegions_formatDocument o x]
  unfold laidFile fileText
  split
  · next hnil => rw [hnil]
  · rw [← filterMap_literal?_atoms, atoms_lineFeed ((unterminated_formatDocument o).2 h),
      List.filterMap_append, filterMap_literal?_atoms]
    exact List.append_nil _

/-- The line feed goes on with what is not closed. -/
theorem EndsOpen.exists_literalRegions_laidFile (h : EndsOpen x as r) (o : LayoutOptions) :
    ∃ rs, literalRegions x = rs ++ [r] ∧ literalRegions (laidFile o x) = rs ++ [r.lineFeed] := by
  obtain ⟨bs, hbs⟩ := h.exists_formatDocument o
  refine ⟨bs.filterMap Atom.literal?, ?_, ?_⟩
  · rw [← literalRegions_formatDocument o, hbs.literalRegions_eq]
  · rw [laidFile, fileText, if_neg hbs.ne_nil, hbs.lineFeed.literalRegions_eq]

/-! ## The line breaks of a file -/

theorem literalRegions_unifyBreaks (s : Text) :
    literalRegions (Text.unifyBreaks s) = (literalRegions s).map Region.unify := by
  rw [literalRegions, scan_unifyBreaks, List.filter_map]
  rfl

theorem unifyBreaks_eq_self_iff : Text.unifyBreaks s = s ↔ '\r' ∉ s :=
  ⟨fun h => h ▸ carriageReturn_not_mem_unifyBreaks s, unifyBreaks_of_not_mem⟩

theorem unifyBreaks_append_lineFeed_ne (s : Text) : Text.unifyBreaks s ++ ['\n'] ≠ s := by
  intro h
  have hmem : '\r' ∉ Text.unifyBreaks s ++ ['\n'] := fun hr =>
    (List.mem_append.1 hr).elim (carriageReturn_not_mem_unifyBreaks s) (by decide)
  rw [h] at hmem
  rw [unifyBreaks_of_not_mem hmem] at h
  exact List.cons_ne_nil _ _ (List.append_right_eq_self.1 h)

theorem unterminated_unifyBreaks :
    unterminated (Text.unifyBreaks s) = [] ↔ unterminated s = [] := by
  rw [unterminated_eq_nil_iff_scan, unterminated_eq_nil_iff_scan, scan_unifyBreaks,
    List.forall_mem_map]
  exact Iff.rfl

/-- What a file that is read and laid out keeps its strings and comments by : it does not end
inside one, and there is no carriage return in any. -/
theorem literals_laidFile_iff : literals (laidFile o (Text.unifyBreaks y)) = literals y ↔
    unterminated y = [] ∧ ∀ l ∈ literals y, '\r' ∉ l.2 := by
  rw [← unterminated_unifyBreaks (s := y)]
  by_cases h : unterminated (Text.unifyBreaks y) = []
  · rw [literals, literalRegions_laidFile h, literalRegions_unifyBreaks, List.map_map, literals,
      List.map_inj_left, List.forall_mem_map, and_iff_right h]
    refine forall₂_congr fun r _ => ?_
    rw [← unifyBreaks_eq_self_iff]
    exact Prod.mk_right_inj
  · refine iff_of_false (fun heq => ?_) (fun hboth => h hboth.1)
    obtain ⟨as, r, hopen⟩ := exists_endsOpen h
    obtain ⟨rs, hx, hlaid⟩ := hopen.exists_literalRegions_laidFile o
    rw [literalRegions_unifyBreaks] at hx
    obtain ⟨qs, _, hy, -, hq⟩ := List.map_eq_append_iff.1 hx
    obtain ⟨q, rfl, rfl⟩ := List.map_eq_singleton_iff.1 hq
    rw [literals, literals, hlaid, hy, List.map_append, List.map_append] at heq
    obtain ⟨-, hlast⟩ := List.append_inj' heq rfl
    exact unifyBreaks_append_lineFeed_ne _ (Prod.mk.inj (List.cons.inj hlast).1).2

/-! ## The command -/

variable {w : Surroundings} {least : Severity} {c : Config} {path : Text}
  {indent : Option (Option Text)} {split : Bool} {st st' : Session}

/-- A layout that replaces a file keeps its strings and comments, as they are in its bytes, unless
one of them holds a carriage return or the file ends inside one. A file that is laid out already,
once its line breaks are line feeds, is not replaced. -/
theorem format_write_literals_iff (isVerbose : Bool) {place : Place} {bytes : List UInt8}
    (hfile : st.tree.find? w.here (.ofText path) = .ok (some (place, .file bytes)))
    (hdecode : Utf8.decode bytes = .ok y)
    (hwrite : finish w isVerbose
      (commandJob w least c (.format [path] .write indent split)) st = (.exit 0, st')) :
    ∃ o bytes' y', layoutOptions c indent split = .ok o ∧
      st'.tree.find? w.here (.ofText path) = .ok (some (place, .file bytes')) ∧
      Utf8.decode bytes' = .ok y' ∧
      (literals y' = literals y ↔
        laidFile o (Text.unifyBreaks y) = Text.unifyBreaks y ∨
          unterminated y = [] ∧ ∀ l ∈ literals y, '\r' ∉ l.2) := by
  have htext : FileTree.textOfBytes bytes = .ok (Text.unifyBreaks y) := by
    rw [FileTree.textOfBytes, hdecode]
  obtain ⟨o, ho, hname, hx, hwritable⟩ := exists_of_finish_format_write isVerbose hfile htext
    (congrArg Prod.fst hwrite)
  obtain ⟨_, hwritten, htree⟩ := exists_finish_format_write isVerbose ho hname hx hwritable
  obtain rfl := (Prod.mk.inj (hwritten.symm.trans hwrite)).2
  by_cases hlaid : laidFile o (Text.unifyBreaks y) = Text.unifyBreaks y
  · rw [if_pos hlaid] at htree
    refine ⟨o, bytes, y, ho, ?_, hdecode, iff_of_true rfl (Or.inl hlaid)⟩
    rw [htree, hfile]
  · rw [if_neg hlaid] at htree
    refine ⟨o, _, laidFile o (Text.unifyBreaks y), ho, ?_, Utf8.decode_encode _, ?_⟩
    · rw [htree]
      exact FileTree.find?_put hfile _
    · rw [literals_laidFile_iff, or_iff_right hlaid]

theorem format_write_literals_iff_windows :
    let w : Surroundings := ⟨[], .empty, "", "", fun _ => "", none⟩
    let c := Config.standard ⟨1, []⟩
    let path := "q.sql".toList
    let y := "select 'a',b\r\nfrom t -- all\r\n".toList
    let bytes := Utf8.encode y
    let st := Session.start (FileTree.empty.put [path] (.file bytes)) []
    ∃ st', st.tree.find? w.here (.ofText path) = .ok (some ([path], .file bytes)) ∧
      Utf8.decode bytes = .ok y ∧
      finish w false (commandJob w .warning c (.format [path] .write none true)) st =
        (.exit 0, st') ∧
      ∃ o bytes' y', layoutOptions c none true = .ok o ∧
        st'.tree.find? w.here (.ofText path) = .ok (some ([path], .file bytes')) ∧
        Utf8.decode bytes' = .ok y' ∧
        (literals y' = literals y ↔
          laidFile o (Text.unifyBreaks y) = Text.unifyBreaks y ∨
            unterminated y = [] ∧ ∀ l ∈ literals y, '\r' ∉ l.2) := by
  intro w c path y bytes st
  have hfile : st.tree.find? w.here (.ofText path) = .ok (some ([path], .file bytes)) := rfl
  have hdecode : Utf8.decode bytes = .ok y := Utf8.decode_encode y
  have ho : layoutOptions c none true = .ok { c.layout with splitStatements := true } := rfl
  have htext : FileTree.textOfBytes bytes = .ok (Text.unifyBreaks y) := by
    rw [FileTree.textOfBytes, hdecode]
  obtain ⟨st', hwrite, -⟩ := exists_finish_format_write false ho (by decide)
    ⟨bytes, hfile, rfl, htext⟩ fun _ => rfl
  exact ⟨st', hfile, hdecode, hwrite, format_write_literals_iff false hfile hdecode hwrite⟩

/-- The string on two lines of a file with carriage returns is written with a line feed. -/
theorem literals_format_write_ne :
    let w : Surroundings := ⟨[], .empty, "", "", fun _ => "", none⟩
    let c := Config.standard ⟨1, []⟩
    let path := "q.sql".toList
    let y := "'a\r\nb'".toList
    let st := Session.start (FileTree.empty.put [path] (.file (Utf8.encode y))) []
    ∃ st' bytes' y',
      finish w false (commandJob w .warning c (.format [path] .write none false)) st =
        (.exit 0, st') ∧
      st'.tree.find? w.here (.ofText path) = .ok (some ([path], .file bytes')) ∧
      Utf8.decode bytes' = .ok y' ∧
      literals y = [(.string, y)] ∧ literals y' ≠ literals y := by
  intro w c path y st
  have hfile : st.tree.find? w.here (.ofText path) =
      .ok (some ([path], .file (Utf8.encode y))) := rfl
  have htext : FileTree.textOfBytes (Utf8.encode y) = .ok "'a\nb'".toList := by
    rw [FileTree.textOfBytes, Utf8.decode_encode]
    rfl
  have hquoted : QuotedText "a\r\nb".toList :=
    .char (by decide) (.char (by decide) (.char (by decide) (.char (by decide) .nil)))
  have hscan : scan y = [⟨.string, y, true⟩] :=
    scan_eq_iff.2 ⟨rfl, List.cons_ne_nil _ _, ⟨_, rfl, hquoted, (Option.some_ne_none _).symm⟩,
      fun h => RegionKind.noConfusion h, trivial⟩
  have hliterals : literals y = [(.string, y)] := by
    rw [literals, literalRegions, hscan]
    rfl
  have ho : layoutOptions c none false = .ok c.layout := rfl
  obtain ⟨st', hwrite, htree⟩ := exists_finish_format_write false ho (by decide)
    ⟨_, hfile, rfl, htext⟩ fun _ => rfl
  rw [if_neg (laidFile_ne_self (by decide) (by decide))] at htree
  refine ⟨st', _, laidFile c.layout (Text.unifyBreaks y), hwrite, ?_, Utf8.decode_encode _,
    hliterals, fun h => ?_⟩
  · rw [htree]
    exact FileTree.find?_put hfile _
  · have hkept := (literals_laidFile_iff.1 h).2 (.string, y)
    rw [hliterals] at hkept
    exact hkept (List.mem_singleton_self _) (by decide)

end SqlSnippet
