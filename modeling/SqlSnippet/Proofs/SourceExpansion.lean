import SqlSnippet.Proofs.WrittenFiles

/-!
# What operands expand to

An operand stands for the standard input, for a file or for the SQL files below a directory, which
are listed in order and without repetition (`Expands`). Operands that all stand for something are
expanded one by one, and if one of them stands for nothing, none is expanded (`IsExpanded`). That is
so unless a path too long to be looked up comes before : an operand, or the path to something below
an operand (`FailsLookup`). Then the failure is that of the lookup
(`isExpanded_collectSources_iff`).
-/

namespace SqlSnippet

/-! ## The files below a directory -/

namespace FileTree

variable {t : FileTree} {place : Place} {names : List Text}

/-- An entry is found at its place. -/
theorem lookup_eq_some_iff_mem {e : Entry} {es : List (Place × Entry)}
    (h : es.Pairwise (·.1 < ·.1)) : es.lookup place = some e ↔ (place, e) ∈ es := by
  rw [List.lookup_eq_some_iff]
  constructor
  · rintro ⟨before, after, rfl, -⟩
    exact List.mem_append_right before List.mem_cons_self
  · intro hmem
    obtain ⟨before, after, rfl⟩ := List.append_of_mem hmem
    refine ⟨before, after, rfl, fun x hx => bne_iff_ne.2 fun heq => ?_⟩
    have hlt : x.1 < place := h.rel_of_mem_append hx List.mem_cons_self
    exact List.lt_irrefl place (heq ▸ hlt)

theorem mem_entriesBelow_iff {e : Entry} : (names, e) ∈ t.entriesBelow place ↔
    names ≠ [] ∧ t.get? (place ++ names) = some e := by
  have hbelow : ∀ x : Place × Entry,
      (if place.isPrefixOf x.1 && place != x.1 then some (x.1.drop place.length, x.2) else none) =
        some (names, e) ↔ names ≠ [] ∧ x = (place ++ names, e) := by
    rintro ⟨q, e'⟩
    rw [Option.ite_none_right_eq_some, Bool.and_eq_true, bne_iff_ne, List.isPrefixOf_iff_prefix,
      Option.some.injEq]
    constructor
    · rintro ⟨⟨⟨rest, rfl⟩, hne⟩, h⟩
      obtain ⟨hnames, rfl⟩ := Prod.mk.inj h
      rw [List.drop_left] at hnames
      obtain rfl := hnames
      exact ⟨fun hnil => hne (by rw [hnil, List.append_nil]), rfl⟩
    · rintro ⟨hne, ⟨⟩⟩
      exact ⟨⟨List.prefix_append place names, fun h => hne (List.self_eq_append_right.1 h)⟩,
        congrArg (·, e) List.drop_left⟩
  unfold entriesBelow
  rw [List.mem_filterMap]
  simp only [hbelow]
  constructor
  · rintro ⟨_, hmem, hne, rfl⟩
    rw [get?, if_neg (List.append_ne_nil_of_right_ne_nil place hne)]
    exact ⟨hne, (lookup_eq_some_iff_mem t.ascending).2 hmem⟩
  · rintro ⟨hne, h⟩
    rw [get?, if_neg (List.append_ne_nil_of_right_ne_nil place hne)] at h
    exact ⟨_, (lookup_eq_some_iff_mem t.ascending).1 h, hne, rfl⟩

theorem mem_filesBelow_iff : names ∈ t.filesBelow place ↔
    names ≠ [] ∧ ∃ bytes, t.get? (place ++ names) = some (.file bytes) := by
  unfold filesBelow
  rw [List.mem_filterMap]
  constructor
  · rintro ⟨⟨ns, e⟩, hmem, h⟩
    cases e with
    | directory => cases h
    | file bytes =>
      obtain rfl := Option.some.inj h
      obtain ⟨hne, hget⟩ := mem_entriesBelow_iff.1 hmem
      exact ⟨hne, bytes, hget⟩
  · rintro ⟨hne, bytes, hget⟩
    exact ⟨(names, .file bytes), mem_entriesBelow_iff.2 ⟨hne, hget⟩, rfl⟩

theorem lt_of_append_lt_append {names' : List Text} (h : place ++ names < place ++ names') :
    names < names' := by
  induction place with
  | nil => exact h
  | cons n place ih => exact ih (List.cons_lt_cons_self.1 h)

/-- What is below a directory is listed in the order of its names. -/
theorem pairwise_entriesBelow (t : FileTree) (place : Place) :
    (t.entriesBelow place).Pairwise (·.1 < ·.1) := by
  unfold entriesBelow
  refine t.ascending.filterMap _ fun x y hlt a ha b hb => ?_
  dsimp only at ha hb
  split at ha
  · next hx =>
    split at hb
    · next hy =>
      obtain rfl := Option.some.inj ha
      obtain rfl := Option.some.inj hb
      rw [Bool.and_eq_true, List.isPrefixOf_iff_prefix] at hx hy
      obtain ⟨names, hnames⟩ := hx.1
      obtain ⟨names', hnames'⟩ := hy.1
      rw [← hnames, ← hnames'] at hlt
      rw [← hnames, ← hnames', List.drop_left, List.drop_left]
      exact lt_of_append_lt_append hlt
    · cases hb
  · cases ha

theorem pairwise_filesBelow (t : FileTree) (place : Place) :
    (t.filesBelow place).Pairwise (· < ·) := by
  unfold filesBelow
  refine (pairwise_entriesBelow t place).filterMap _ fun x y hlt a ha b hb => ?_
  obtain ⟨names, _ | _⟩ := x
  · cases ha
  obtain ⟨names', _ | _⟩ := y
  · cases hb
  obtain rfl := Option.some.inj ha
  obtain rfl := Option.some.inj hb
  exact hlt

end FileTree

variable {t : FileTree} {here place : Place} {operand : Text} {operands : List Text}

/-- A path to a SQL file at any depth below the directory at a place, to which `p` leads. -/
def IsSqlFileBelow (t : FileTree) (place : Place) (p q : Path) : Prop :=
  ∃ names bytes, names ≠ [] ∧ t.get? (place ++ names) = some (.file bytes) ∧
    q = ⟨p.slashes, p.names ++ names⟩ ∧ Text.lower q.suffix = ".sql".toList

theorem mem_sqlFilesBelow_iff {p q : Path} :
    q ∈ sqlFilesBelow t place p ↔ IsSqlFileBelow t place p q := by
  unfold sqlFilesBelow
  rw [List.mem_filter, List.mem_map, isSqlPath, decide_eq_true_iff]
  constructor
  · rintro ⟨⟨names, hnames, rfl⟩, hsql⟩
    obtain ⟨hne, bytes, hget⟩ := FileTree.mem_filesBelow_iff.1 hnames
    exact ⟨names, bytes, hne, hget, rfl, hsql⟩
  · rintro ⟨names, bytes, hne, hget, rfl, hsql⟩
    exact ⟨⟨names, FileTree.mem_filesBelow_iff.2 ⟨hne, bytes, hget⟩, rfl⟩, hsql⟩

theorem pairwise_sqlFilesBelow (t : FileTree) (place : Place) (p : Path) :
    (sqlFilesBelow t place p).Pairwise (·.names < ·.names) := by
  refine List.Pairwise.filter _ (List.Pairwise.map _ (fun names names' hlt => ?_)
    (FileTree.pairwise_filesBelow t place))
  exact List.append_left_lt hlt

-- By their names, which is not the order of the paths as texts.
example :
    let t := (FileTree.empty.plant ["a-b.SQL".toList] (.file [])).plant
      ["a".toList, "x.sql".toList] (.file [])
    (sqlFilesBelow t [] ⟨0, []⟩).map Path.toText = ["a/x.sql".toList, "a-b.SQL".toList] := by
  decide +kernel

theorem sqlFilesBelow_eq_nil_iff {p : Path} :
    sqlFilesBelow t place p = [] ↔ ∀ q, ¬IsSqlFileBelow t place p q := by
  simp only [List.eq_nil_iff_forall_not_mem, mem_sqlFilesBelow_iff]

/-- A path, longer than one may be, to something below the directory at a place, to which `p`
leads. -/
def IsTooLongBelow (t : FileTree) (place : Place) (p q : Path) : Prop :=
  ∃ names e, names ≠ [] ∧ t.get? (place ++ names) = some e ∧
    q = ⟨p.slashes, p.names ++ names⟩ ∧ Path.maxBytes < (Utf8.encode q.toText).length

theorem exists_tooLongBelow?_eq_some_iff {p : Path} :
    (∃ q, tooLongBelow? t place p = some q) ↔ ∃ q, IsTooLongBelow t place p q := by
  unfold tooLongBelow?
  rw [← Option.isSome_iff_exists, List.find?_isSome]
  constructor
  · rintro ⟨q, hq, hlong⟩
    obtain ⟨⟨names, e⟩, hmem, rfl⟩ := List.mem_map.1 hq
    obtain ⟨hne, hget⟩ := FileTree.mem_entriesBelow_iff.1 hmem
    exact ⟨_, names, e, hne, hget, rfl, of_decide_eq_true hlong⟩
  · rintro ⟨_, names, e, hne, hget, rfl, hlong⟩
    exact ⟨_, List.mem_map_of_mem (FileTree.mem_entriesBelow_iff.2 ⟨hne, hget⟩),
      decide_eq_true hlong⟩

/-! ## The expansion of an operand -/

/-- What an operand stands for. -/
inductive Expands (t : FileTree) (here : Place) (operand : Text) : List Text → Prop
  | input (hname : operand = stdinName) : Expands t here operand [stdinName]
  | file {place : Place} {bytes : List UInt8} (hname : operand ≠ stdinName)
      (hfind : t.find? here (.ofText operand) = .ok (some (place, .file bytes))) :
      Expands t here operand [(Path.ofText operand).toText]
  | directory {place : Place} {files : List Path} (hname : operand ≠ stdinName)
      (hfind : t.find? here (.ofText operand) = .ok (some (place, .directory)))
      (hne : files ≠ []) (hmem : ∀ q, q ∈ files ↔ IsSqlFileBelow t place (.ofText operand) q)
      (hascending : files.Pairwise (·.names < ·.names)) :
      Expands t here operand (files.map Path.toText)

/-- An operand that stands for nothing : it is no file and no directory, or it is a directory with
no SQL file below it. -/
inductive LacksSource (t : FileTree) (here : Place) (operand : Text) : Prop
  | missing (hname : operand ≠ stdinName)
      (h : ∀ found, t.find? here (.ofText operand) ≠ .ok (some found))
  | noFiles {place : Place} (hname : operand ≠ stdinName)
      (hfind : t.find? here (.ofText operand) = .ok (some (place, .directory)))
      (h : ∀ q, ¬IsSqlFileBelow t place (.ofText operand) q)

/-- An operand that cannot be looked up, or something below it cannot. -/
inductive FailsLookup (t : FileTree) (here : Place) (operand : Text) : Prop
  | operand {f : Fault} (hname : operand ≠ stdinName)
      (h : t.find? here (.ofText operand) = .error f)
  | below {place : Place} {q : Path} (hname : operand ≠ stdinName)
      (hfind : t.find? here (.ofText operand) = .ok (some (place, .directory)))
      (hlong : IsTooLongBelow t place (.ofText operand) q)

theorem FailsLookup.exists_fault (h : FailsLookup t here operand) :
    ∃ f, sourcesOf t here operand = .error (.fault f) := by
  cases h with
  | operand hname h =>
    rw [sourcesOf, if_neg hname]
    dsimp only
    rw [h]
    exact ⟨_, rfl⟩
  | below hname hfind hlong =>
    obtain ⟨q, hq⟩ := exists_tooLongBelow?_eq_some_iff.2 ⟨_, hlong⟩
    rw [sourcesOf, if_neg hname]
    dsimp only
    rw [hfind]
    dsimp only
    rw [hq]
    exact ⟨_, rfl⟩

theorem LacksSource.exists_failure (h : LacksSource t here operand) :
    ∃ failure, sourcesOf t here operand = .error failure := by
  rw [exists_sourcesOf_eq_error_iff]
  cases h with
  | missing hname h =>
    refine ⟨hname, ?_⟩
    cases hfind : t.find? here (.ofText operand) with
    | error f => exact .fault hfind
    | ok found =>
      cases found with
      | none => exact .missing hfind
      | some found => exact absurd hfind (h found)
  | noFiles hname hfind h => exact ⟨hname, .noFiles hfind (sqlFilesBelow_eq_nil_iff.2 h)⟩

/-- An operand is refused as missing, unless there is a fault. -/
theorem lacksSource_or_failsLookup_of_sourcesOf {failure : Failure}
    (h : sourcesOf t here operand = .error failure) :
    (LacksSource t here operand ∧ ∃ message hint, failure = missingSource message hint) ∨
      FailsLookup t here operand := by
  unfold sourcesOf at h
  split at h
  · cases h
  next hname =>
  dsimp only at h
  split at h
  · next hfind => exact Or.inr (.operand hname hfind)
  · next hfind =>
    split at h
    · next hlong =>
      obtain ⟨_, hbelow⟩ := exists_tooLongBelow?_eq_some_iff.1 ⟨_, hlong⟩
      exact Or.inr (.below hname hfind hbelow)
    · split at h
      · next hfiles =>
        exact Or.inl ⟨.noFiles hname hfind (sqlFilesBelow_eq_nil_iff.1 hfiles), _, _,
          (Except.error.inj h).symm⟩
      · cases h
  · cases h
  · next hfind =>
    exact Or.inl ⟨.missing hname (by rw [hfind]; nofun), _, _, (Except.error.inj h).symm⟩

theorem expands_of_sourcesOf {names : List Text} (h : sourcesOf t here operand = .ok names) :
    Expands t here operand names := by
  unfold sourcesOf at h
  by_cases hname : operand = stdinName
  · rw [if_pos hname, Except.ok.injEq] at h
    exact h ▸ .input hname
  · rw [if_neg hname] at h
    dsimp only at h
    split at h
    · cases h
    · next hfind =>
      split at h
      · cases h
      · split at h
        · cases h
        · next files hfiles =>
          rw [Except.ok.injEq] at h
          exact h ▸ .directory hname hfind hfiles (fun q => mem_sqlFilesBelow_iff)
            (pairwise_sqlFilesBelow t _ _)
    · next hfind =>
      rw [Except.ok.injEq] at h
      exact h ▸ .file hname hfind
    · cases h

/-! ## The expansion of operands -/

section Except

variable {ε α β : Type} {g : α → Except ε β} {as : List α} {bs : List β}

theorem forall₂_of_mapM_eq_ok (h : as.mapM g = .ok bs) :
    List.Forall₂ (fun a b => g a = .ok b) as bs := by
  induction as generalizing bs with
  | nil =>
    obtain rfl := Except.ok.inj h
    exact .nil
  | cons a as ih =>
    rw [List.mapM_cons] at h
    cases hhead : g a with
    | error e =>
      rw [hhead] at h
      cases h
    | ok b =>
      cases htail : as.mapM g with
      | error e =>
        rw [hhead, htail] at h
        cases h
      | ok bs' =>
        rw [hhead, htail] at h
        obtain rfl := Except.ok.inj h
        exact .cons hhead (ih htail)

/-- The first item with `p`, before which all have `q`, is the head or is found in the tail. -/
theorem exists_first_cons_iff {p q : α → Prop} {a : α} :
    (∃ before a' after, a :: as = before ++ a' :: after ∧ (∀ b ∈ before, q b) ∧ p a') ↔
      p a ∨ q a ∧ ∃ before a' after, as = before ++ a' :: after ∧ (∀ b ∈ before, q b) ∧ p a' := by
  constructor
  · rintro ⟨before, a', after, hsplit, hbefore, h⟩
    cases before with
    | nil =>
      obtain ⟨rfl, -⟩ := List.cons.inj hsplit
      exact Or.inl h
    | cons b before =>
      obtain ⟨rfl, htail⟩ := List.cons.inj hsplit
      obtain ⟨hb, hbefore⟩ := List.forall_mem_cons.1 hbefore
      exact Or.inr ⟨hb, before, a', after, htail, hbefore, h⟩
  · rintro (h | ⟨hq, before, a', after, rfl, hbefore, h⟩)
    · exact ⟨[], a, as, rfl, List.forall_mem_nil q, h⟩
    · exact ⟨a :: before, a', after, rfl, List.forall_mem_cons.2 ⟨hq, hbefore⟩, h⟩

/-- The first failure is that of the whole. -/
theorem mapM_eq_error_iff {e : ε} : as.mapM g = .error e ↔ ∃ before a after,
    as = before ++ a :: after ∧ (∀ b ∈ before, ¬∃ e', g b = .error e') ∧ g a = .error e := by
  induction as with
  | nil =>
    refine iff_of_false nofun ?_
    rintro ⟨before, a, after, h, -⟩
    exact List.append_ne_nil_of_right_ne_nil before (List.cons_ne_nil a after) h.symm
  | cons a as ih =>
    rw [List.mapM_cons, exists_first_cons_iff, ← ih]
    cases hhead : g a with
    | error e' =>
      constructor
      · rintro ⟨⟩
        exact Or.inl rfl
      · rintro (h | ⟨hstop, -⟩)
        · cases h
          rfl
        · exact absurd ⟨e', rfl⟩ hstop
    | ok b =>
      rw [or_iff_right nofun, and_iff_right nofun]
      cases as.mapM g with
      | error e' => exact Iff.rfl
      | ok bs => exact iff_of_false nofun nofun

end Except

/-- The sources of operands are those of each in turn, and there are none if an operand stands for
nothing. -/
structure IsExpanded (t : FileTree) (here : Place) (operands : List Text)
    (result : Except Failure (List Text)) : Prop where
  expanded : (∀ operand ∈ operands, ¬LacksSource t here operand) →
    ∃ namess, List.Forall₂ (Expands t here) operands namess ∧ result = .ok namess.flatten
  refused : (∃ operand ∈ operands, LacksSource t here operand) →
    ∃ message hint, result = .error (missingSource message hint)

/-- An operand fails to be looked up, and those before it neither do nor stand for nothing. -/
def StopsAtFault (t : FileTree) (here : Place) (operands : List Text) : Prop :=
  ∃ before operand after, operands = before ++ operand :: after ∧
    (∀ p ∈ before, ¬LacksSource t here p ∧ ¬FailsLookup t here p) ∧ FailsLookup t here operand

/-- Operands are expanded, or refused as missing, unless there is a fault before that. -/
theorem isExpanded_collectSources_iff (t : FileTree) (here : Place) (operands : List Text) :
    IsExpanded t here operands (collectSources t here operands) ↔
      ¬StopsAtFault t here operands := by
  unfold collectSources StopsAtFault
  constructor
  · rintro h ⟨before, operand, after, rfl, hbefore, hfault⟩
    obtain ⟨f, hoperand⟩ := hfault.exists_fault
    have hsound : ∀ p ∈ before, ¬∃ failure, sourcesOf t here p = .error failure := by
      rintro p hp ⟨failure, hrefused⟩
      rcases lacksSource_or_failsLookup_of_sourcesOf hrefused with ⟨hlacks, -⟩ | hfails
      · exact (hbefore p hp).1 hlacks
      · exact (hbefore p hp).2 hfails
    have hresult := mapM_eq_error_iff.2 ⟨before, operand, after, rfl, hsound, hoperand⟩
    rw [hresult] at h
    -- a fault is neither an expansion nor a refusal
    by_cases hlacks : ∃ p ∈ before ++ operand :: after, LacksSource t here p
    · obtain ⟨message, hint, hrefused⟩ := h.refused hlacks
      cases hrefused
    · obtain ⟨_, -, hexpanded⟩ := h.expanded fun p hp hlack => hlacks ⟨p, hp, hlack⟩
      cases hexpanded
  · intro hsound
    cases hresult : operands.mapM (sourcesOf t here) with
    | ok namess =>
      refine ⟨fun _ => ⟨namess,
        (forall₂_of_mapM_eq_ok hresult).imp fun _ _ => expands_of_sourcesOf, rfl⟩, ?_⟩
      rintro ⟨operand, hmem, hlacks⟩
      obtain ⟨failure, hrefused⟩ := exists_collectSources_eq_error_iff.2
        ⟨operand, hmem, hlacks.exists_failure⟩
      rw [collectSources, hresult] at hrefused
      cases hrefused
    | error failure =>
      obtain ⟨before, operand, after, rfl, hbefore, hoperand⟩ := mapM_eq_error_iff.1 hresult
      rcases lacksSource_or_failsLookup_of_sourcesOf hoperand with
        ⟨hlacks, message, hint, rfl⟩ | hfault
      · exact ⟨fun h => absurd hlacks (h operand (List.mem_append_right before List.mem_cons_self)),
          fun _ => ⟨message, hint, rfl⟩⟩
      · have hfree : ∀ p ∈ before, ¬LacksSource t here p ∧ ¬FailsLookup t here p := by
          refine fun p hp => ⟨fun hlacks => hbefore p hp hlacks.exists_failure, fun hfails => ?_⟩
          obtain ⟨f, hf⟩ := hfails.exists_fault
          exact hbefore p hp ⟨_, hf⟩
        exact absurd ⟨before, operand, after, rfl, hfree, hfault⟩ hsound

/-- A name of 256 letters is too long to be looked up. -/
theorem not_isExpanded_long_name :
    ¬IsExpanded .empty [] [List.replicate 256 'a']
      (collectSources .empty [] [List.replicate 256 'a']) := by
  intro h
  have hfault : FileTree.empty.find? [] (.ofText (List.replicate 256 'a')) =
      .error (.file .nameTooLong (List.replicate 256 'a')) := by decide +kernel
  have hname : List.replicate 256 'a' ≠ stdinName := by decide
  have hfails : collectSources .empty [] [List.replicate 256 'a'] =
      .error (.fault (.file .nameTooLong (List.replicate 256 'a'))) := by
    rw [collectSources, List.mapM_cons, sourcesOf, if_neg hname]
    dsimp only
    rw [hfault]
    rfl
  have hmissing : LacksSource .empty [] (List.replicate 256 'a') :=
    .missing hname fun found hfound => by cases hfault.symm.trans hfound
  obtain ⟨message, hint, hresult⟩ := h.refused ⟨_, List.mem_cons_self, hmissing⟩
  cases hfails.symm.trans hresult

end SqlSnippet
