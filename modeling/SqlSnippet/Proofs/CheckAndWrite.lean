import Mathlib.Logic.Function.Iterate
import SqlSnippet.Proofs.FileLayout

/-!
# Checks and writes of many files

A check reads files that stay as they are. A layout that replaces files reads a file that an earlier
source led to as it was left there, so a text has been laid out once for each earlier source that
leads to the same place (`visits`, `IsLaidAfter`). `format_check_write` : what a check tells of is
told of by a write as well, unless an earlier source led to the same file and layout changes what
is in it no more, or the write has come to an end at a file that may not be written. With clause
words that hold no white space layout changes no file twice, but where the file ends inside a string
or block comment that is not closed (`isChangedAfter_succ_iff`).
-/

namespace SqlSnippet

variable {o : LayoutOptions} {x : Text} {k : Nat}

/-! ## Layout again and again -/

/-- Layout changes a text that has been laid out `k` times. -/
def isChangedAfter (o : LayoutOptions) (k : Nat) (x : Text) : Bool :=
  (laidFile o)^[k + 1] x != (laidFile o)^[k] x

theorem isChangedAfter_eq : isChangedAfter o k x =
    (laidFile o ((laidFile o)^[k] x) != (laidFile o)^[k] x) := by
  rw [isChangedAfter, Function.iterate_succ_apply']

theorem isChangedAfter_iff : isChangedAfter o k x = true ↔
    laidFile o ((laidFile o)^[k] x) ≠ (laidFile o)^[k] x := by
  rw [isChangedAfter_eq, bne_iff_ne]

/-- A text that layout does not change never changes. -/
theorem isChangedAfter_zero_of (h : isChangedAfter o k x = true) :
    isChangedAfter o 0 x = true := by
  rw [isChangedAfter_iff] at h ⊢
  intro hlaid
  rw [Function.iterate_zero_apply] at hlaid
  rw [Function.iterate_fixed hlaid] at h
  exact h hlaid

theorem unterminated_iterate_laidFile :
    unterminated ((laidFile o)^[k] x) = [] ↔ unterminated x = [] := by
  induction k generalizing x with
  | zero => exact Iff.rfl
  | succ k ih => rw [Function.iterate_succ_apply, ih, unterminated_laidFile]

/-- What has been laid out once is changed again only if it ends inside a string or block comment
that is not closed. -/
theorem isChangedAfter_succ_iff (hk : (Clauses.ofWords o.clauseWords).IsSolid) :
    isChangedAfter o (k + 1) x = true ↔ unterminated x ≠ [] := by
  rw [isChangedAfter_iff, Function.iterate_succ_apply', Ne, laidFile_laidFile_iff hk,
    unterminated_iterate_laidFile]

/-! ## Visits -/

namespace FileTree

variable {t t' : FileTree} {here : Place} {seen : List (Option Place)} {p : Text}
  {sources : List Text}

/-- The place that a source leads to. -/
def placeOf? (t : FileTree) (here : Place) (source : Text) : Option Place :=
  (t.follow here (.ofText source)).toOption

/-- Sources, each with the number of times that its place has been seen before. -/
def visitsAfter (t : FileTree) (here : Place) (seen : List (Option Place)) :
    List Text → List (Text × Nat)
  | [] => []
  | p :: ps => (p, seen.count (t.placeOf? here p)) ::
      visitsAfter t here (t.placeOf? here p :: seen) ps

/-- Sources, each with the number of sources before it that lead to the same place. -/
def visits (t : FileTree) (here : Place) (sources : List Text) : List (Text × Nat) :=
  t.visitsAfter here [] sources

theorem map_fst_visitsAfter : (t.visitsAfter here seen sources).map Prod.fst = sources := by
  induction sources generalizing seen with
  | nil => rfl
  | cons p ps ih => rw [visitsAfter, List.map_cons, ih]

/-- Sources that lead to places of their own visit them for the first time. -/
theorem visitsAfter_of_nodup (hseen : ∀ p ∈ sources, t.placeOf? here p ∉ seen)
    (h : (sources.map (t.placeOf? here)).Nodup) :
    t.visitsAfter here seen sources = sources.map (·, 0) := by
  induction sources generalizing seen with
  | nil => rfl
  | cons p ps ih =>
    obtain ⟨hp, hps⟩ := List.forall_mem_cons.1 hseen
    obtain ⟨hnew, hnodup⟩ := List.nodup_cons.1 h
    rw [visitsAfter, List.count_eq_zero_of_not_mem hp, List.map_cons, ih _ hnodup]
    refine fun q hq => List.not_mem_cons_of_ne_of_not_mem (fun heq => hnew ?_) (hps q hq)
    exact heq ▸ List.mem_map_of_mem hq

/-- Every place that sources lead to is visited for the first time by some source. -/
theorem exists_mem_visitsAfter (t : FileTree) (here : Place) (hp : p ∈ sources)
    (hseen : t.placeOf? here p ∉ seen) :
    ∃ q ∈ sources, t.placeOf? here q = t.placeOf? here p ∧
      (q, 0) ∈ t.visitsAfter here seen sources := by
  induction sources generalizing seen with
  | nil => cases hp
  | cons a as ih =>
    rw [visitsAfter]
    by_cases ha : t.placeOf? here a = t.placeOf? here p
    · refine ⟨a, List.mem_cons_self, ha, ?_⟩
      rw [ha, List.count_eq_zero_of_not_mem hseen]
      exact List.mem_cons_self
    · have hne : p ≠ a := fun heq => ha (heq ▸ rfl)
      obtain ⟨q, hq, hplace, hmem⟩ := ih ((List.mem_cons.1 hp).resolve_left hne)
        (List.not_mem_cons_of_ne_of_not_mem (Ne.symm ha) hseen)
      exact ⟨q, List.mem_cons_of_mem a hq, hplace, List.mem_cons_of_mem _ hmem⟩

variable {place : Place} {bytes : List UInt8}

theorem HoldsText.placeOf? (h : t.HoldsText here (.ofText p) place x) :
    t.placeOf? here p = some place := by
  obtain ⟨bytes, hfind, -⟩ := h
  rw [FileTree.placeOf?, (find?_eq_ok_iff.1 hfind).2.1]
  rfl

/-- The place that a source leads to may not be written. -/
def DeniesWriting (t : FileTree) (here : Place) (source : Text) : Prop :=
  ∃ place, t.placeOf? here source = some place ∧ t.isDenied .writing place = true

theorem deniesWriting_iff (h : t.placeOf? here p = some place) :
    t.DeniesWriting here p ↔ t.isDenied .writing place = true := by
  simp only [DeniesWriting, h, Option.some.injEq, exists_eq_left']

/-- Sources that lead to the same place are read alike. -/
theorem HoldsText.eq_of_placeOf? {place' : Place} {q y : Text}
    (hp : t.HoldsText here (.ofText p) place x) (hq : t.HoldsText here (.ofText q) place' y)
    (h : t.placeOf? here q = t.placeOf? here p) : y = x := by
  rw [hp.placeOf?, hq.placeOf?] at h
  obtain rfl := Option.some.inj h
  obtain ⟨bytes, hfind, -, htext⟩ := hp
  obtain ⟨bytes', hfind', -, htext'⟩ := hq
  have hget := (find?_eq_ok_iff.1 hfind).2.2
  rw [(find?_eq_ok_iff.1 hfind').2.2] at hget
  obtain rfl := Entry.file.inj (Option.some.inj hget)
  exact Except.ok.inj (htext'.symm.trans htext)

/-! ## Files that have been laid out -/

/-- The files of `t`, each laid out as often as its place has been seen, are those of `t'`. -/
structure IsLaidAfter (o : LayoutOptions) (t : FileTree) (seen : List (Option Place))
    (t' : FileTree) : Prop where
  shape : t'.SameShape t
  text : ∀ place bytes x, t.get? place = some (.file bytes) → textOfBytes bytes = .ok x →
    ∃ bytes', t'.get? place = some (.file bytes') ∧
      textOfBytes bytes' = .ok ((laidFile o)^[seen.count (some place)] x)

theorem isLaidAfter_nil (o : LayoutOptions) (t : FileTree) : IsLaidAfter o t [] t :=
  ⟨.refl t, fun _ bytes _ hget htext => ⟨bytes, hget, htext⟩⟩

theorem IsLaidAfter.exists_find? (h : IsLaidAfter o t seen t') {q : Path}
    (hfind : t.find? here q = .ok (some (place, .file bytes))) (htext : textOfBytes bytes = .ok x) :
    ∃ bytes', t'.find? here q = .ok (some (place, .file bytes')) ∧
      textOfBytes bytes' = .ok ((laidFile o)^[seen.count (some place)] x) := by
  obtain ⟨hnull, hfollow, hget⟩ := find?_eq_ok_iff.1 hfind
  obtain ⟨bytes', hget', htext'⟩ := h.text place bytes x hget htext
  exact ⟨bytes', find?_eq_ok_iff.2 ⟨hnull, (follow_congr h.shape here q).trans hfollow, hget'⟩,
    htext'⟩

/-- A place that is seen once more is laid out once more, and the others stay as they are. -/
theorem IsLaidAfter.cons (h : IsLaidAfter o t seen t') (hget : t.get? place = some (.file bytes))
    (htext : textOfBytes bytes = .ok x) {u : FileTree} (hshape : u.SameShape t')
    (hother : ∀ q, q ≠ place → u.get? q = t'.get? q) {bytes' : List UInt8}
    (hget' : u.get? place = some (.file bytes'))
    (htext' : textOfBytes bytes' = .ok (laidFile o ((laidFile o)^[seen.count (some place)] x))) :
    IsLaidAfter o t (some place :: seen) u := by
  refine ⟨hshape.trans h.shape, fun q bytes₁ x₁ hq hx => ?_⟩
  by_cases hplace : q = place
  · subst hplace
    rw [hget] at hq
    obtain rfl := Entry.file.inj (Option.some.inj hq)
    obtain rfl := Except.ok.inj (htext.symm.trans hx)
    rw [List.count_cons_self, Function.iterate_succ_apply']
    exact ⟨bytes', hget', htext'⟩
  · rw [hother q hplace, List.count_cons_of_ne fun heq => hplace (Option.some.inj heq).symm]
    exact h.text q bytes₁ x₁ hq hx

/-- A file that may be read is found as layout has left it. -/
theorem IsLaidAfter.holdsText (h : IsLaidAfter o t seen t') {q : Path}
    (hx : t.HoldsText here q place x) :
    t'.HoldsText here q place ((laidFile o)^[seen.count (some place)] x) := by
  obtain ⟨bytes, hfind, hreadable, htext⟩ := hx
  obtain ⟨bytes', hfind', htext'⟩ := h.exists_find? hfind htext
  exact ⟨bytes', hfind', (h.shape.isDenied .reading place).trans hreadable, htext'⟩

/-- A file as layout leaves it once more. -/
theorem IsLaidAfter.relaid (h : IsLaidAfter o t seen t') {q : Path}
    (hx : t.HoldsText here q place x) :
    let y := (laidFile o)^[seen.count (some place)] x
    IsLaidAfter o t (some place :: seen)
      (if laidFile o y = y then t' else t'.put place (.file (Utf8.encode (laidFile o y)))) := by
  intro y
  obtain ⟨bytes, hfind, -, htext⟩ := hx
  obtain ⟨bytes', hfind', htext'⟩ := h.exists_find? hfind htext
  have hget := (find?_eq_ok_iff.1 hfind).2.2
  have hget' := (find?_eq_ok_iff.1 hfind').2.2
  split
  · next hlaid =>
    exact h.cons hget htext (.refl t') (fun _ _ => rfl) hget' (htext'.trans (congrArg _ hlaid.symm))
  · have hne := ne_nil_of_get?_eq_file hget'
    refine h.cons hget htext (sameShape_put hget' _) (fun q hq => ?_) ?_
      (textOfBytes_encode (carriageReturn_not_mem_laidFile
        (carriageReturn_not_mem_of_textOfBytes htext')))
    · rw [get?_put t' _ hne, if_neg hq]
    · rw [get?_put t' _ hne, if_pos rfl]

end FileTree

/-! ## Runs -/

/-- The lines that tell of sources, each after the same words. -/
def toldLines (words : String) (sources : List Text) : Text :=
  sources.flatMap fun source => (words ++ String.ofList source).toList ++ ['\n']

/-- The sources of visits that find a text which layout changes, where `text` is what the sources
read before there was any layout. -/
def changedSources (o : LayoutOptions) (text : Text → Text) (vs : List (Text × Nat)) : List Text :=
  (vs.filter fun v => isChangedAfter o v.2 (text v.1)).map Prod.fst

variable {text : Text → Text} {vs : List (Text × Nat)} {p : Text}

theorem changedSources_cons (p : Text) (k : Nat) : changedSources o text ((p, k) :: vs) =
    if isChangedAfter o k (text p) then p :: changedSources o text vs
    else changedSources o text vs := by
  unfold changedSources
  rw [List.filter_cons]
  split <;> rfl

theorem toldLines_changedSources_cons (words : String) (p : Text) (k : Nat) :
    toldLines words (changedSources o text ((p, k) :: vs)) =
      (if laidFile o ((laidFile o)^[k] (text p)) = (laidFile o)^[k] (text p) then []
        else (words ++ String.ofList p).toList ++ ['\n']) ++
        toldLines words (changedSources o text vs) := by
  rw [changedSources_cons]
  by_cases h : isChangedAfter o k (text p) = true
  · rw [if_pos h, if_neg (isChangedAfter_iff.1 h)]
    rfl
  · rw [if_neg h, if_pos (not_not.1 (mt isChangedAfter_iff.2 h))]
    rfl

theorem count_isChangedAfter : (vs.map fun v => isChangedAfter o v.2 (text v.1)).count true =
    (changedSources o text vs).length := by
  rw [changedSources, List.length_map, ← List.countP_eq_length_filter, List.count, List.countP_map]
  exact List.countP_congr fun v _ => beq_iff_eq

variable {w : Surroundings} {least : Severity} {s : Session} {sources : List Text} {many : Bool}

theorem exists_yields_check (hname : p ≠ stdinName)
    (hread : s.tree.readText w.here (.ofText p) = .ok x) :
    ∃ s', (formatSource w least o .check many p).Yields s (isChangedAfter o 0 x) s' ∧
      s'.tree = s.tree ∧ s'.out = s.out ++ if laidFile o x = x then [] else
        ("Would reformat " ++ String.ofList p).toList ++ ['\n'] := by
  obtain ⟨_, hstep⟩ := exists_yields_formatSource_check least o many hname hread
  exact ⟨_, hstep, rfl, rfl⟩

/-- Why a layout ends at a source that may not be written. -/
def deniedSource (source : Text) : Failure :=
  .fault (.file .denied (Path.ofText source).toText)

/-- A write of a source whose place has been seen finds the text as it was left there. -/
theorem exists_yields_write {t : FileTree} {seen : List (Option Place)}
    (h : FileTree.IsLaidAfter o t seen s.tree) (hname : p ≠ stdinName)
    (hread : t.readText w.here (.ofText p) = .ok x) :
    let k := seen.count (t.placeOf? w.here p)
    let y := (laidFile o)^[k] x
    (isChangedAfter o k x = true → ¬t.DeniesWriting w.here p) →
    ∃ s', (formatSource w least o .write many p).Yields s (isChangedAfter o k x) s' ∧
      FileTree.IsLaidAfter o t (t.placeOf? w.here p :: seen) s'.tree ∧
      s'.out = s.out ++ if laidFile o y = y then [] else
        ("Formatted " ++ String.ofList p).toList ++ ['\n'] := by
  intro k y hwritable
  obtain ⟨place, hx⟩ := FileTree.exists_holdsText_of_readText hread
  have hafter := h.relaid hx
  have hnow := h.holdsText hx
  rw [← hx.placeOf?] at hafter hnow
  rw [FileTree.deniesWriting_iff hx.placeOf?, ← h.shape.isDenied, isChangedAfter_iff] at hwritable
  obtain ⟨_, hstep⟩ := exists_yields_formatSource_write least o many hname hnow.readText
    fun hlaid => (hnow.writeText _).trans (if_neg (hwritable hlaid))
  rw [isChangedAfter_eq]
  exact ⟨_, hstep, hafter, rfl⟩

/-- A write ends at a source that layout changes, if it may not be written. -/
theorem exists_fails_write {t : FileTree} {seen : List (Option Place)}
    (h : FileTree.IsLaidAfter o t seen s.tree) (hname : p ≠ stdinName)
    (hread : t.readText w.here (.ofText p) = .ok x)
    (hchanged : isChangedAfter o (seen.count (t.placeOf? w.here p)) x = true)
    (hdenied : t.DeniesWriting w.here p) :
    ∃ s', (formatSource w least o .write many p).Fails s (deniedSource p) s' ∧ s'.out = s.out := by
  obtain ⟨place, hx⟩ := FileTree.exists_holdsText_of_readText hread
  have hnow := h.holdsText hx
  rw [← hx.placeOf?] at hnow
  rw [FileTree.deniesWriting_iff hx.placeOf?, ← h.shape.isDenied] at hdenied
  obtain ⟨err, hfails⟩ := exists_fails_formatSource_write least o many hname hnow.readText
    (isChangedAfter_iff.1 hchanged) ((hnow.writeText _).trans (if_pos hdenied))
  exact ⟨_, hfails, rfl⟩

/-- A check finds every source as it is. -/
theorem exists_yields_mapM_check (hname : stdinName ∉ sources)
    (hread : ∀ p ∈ sources, s.tree.readText w.here (.ofText p) = .ok (text p)) :
    ∃ s', (sources.mapM (formatSource w least o .check many)).Yields s
      ((sources.map (·, 0)).map fun v => isChangedAfter o v.2 (text v.1)) s' ∧
      s'.out = s.out ++
        toldLines "Would reformat " (changedSources o text (sources.map (·, 0))) := by
  induction sources generalizing s with
  | nil => exact ⟨s, Job.yields_mapM_nil _ s, (List.append_nil _).symm⟩
  | cons p ps ih =>
    obtain ⟨hp, hps⟩ := List.ne_and_not_mem_of_not_mem_cons hname
    obtain ⟨hreadp, hreads⟩ := List.forall_mem_cons.1 hread
    obtain ⟨s₁, hstep, htree, hout₁⟩ := exists_yields_check hp.symm hreadp
    rw [← htree] at hreads
    obtain ⟨s', hrun, hout⟩ := ih hps hreads
    refine ⟨s', Job.yields_mapM_cons hstep hrun, ?_⟩
    rw [List.map_cons, toldLines_changedSources_cons, ← List.append_assoc, hout, hout₁]
    rfl

/-- A write finds every source as the ones before it left it, and goes on to the first that layout
changes and that may not be written. -/
theorem exists_mapM_write_visits {t : FileTree} {seen : List (Option Place)} (least : Severity)
    (many : Bool) (h : FileTree.IsLaidAfter o t seen s.tree) (hname : stdinName ∉ sources)
    (hread : ∀ p ∈ sources, t.readText w.here (.ofText p) = .ok (text p)) :
    let job := sources.mapM (formatSource w least o .write many)
    ∃ done rest s', t.visitsAfter w.here seen sources = done ++ rest ∧
      (∀ p ∈ changedSources o text done, ¬t.DeniesWriting w.here p) ∧
      s'.out = s.out ++ toldLines "Formatted " (changedSources o text done) ∧
      ((rest = [] ∧ job.Yields s (done.map fun v => isChangedAfter o v.2 (text v.1)) s') ∨
        ∃ v, rest.head? = some v ∧ isChangedAfter o v.2 (text v.1) = true ∧
          t.DeniesWriting w.here v.1 ∧ job.Fails s (deniedSource v.1) s') := by
  induction sources generalizing s seen with
  | nil =>
    exact ⟨[], [], s, rfl, nofun, (List.append_nil _).symm, Or.inl ⟨rfl, Job.yields_mapM_nil _ s⟩⟩
  | cons p ps ih =>
    obtain ⟨hp, hps⟩ := List.ne_and_not_mem_of_not_mem_cons hname
    obtain ⟨hreadp, hreads⟩ := List.forall_mem_cons.1 hread
    by_cases hends : isChangedAfter o (seen.count (t.placeOf? w.here p)) (text p) = true ∧
        t.DeniesWriting w.here p
    · obtain ⟨s', hfails, hout⟩ := exists_fails_write h hp.symm hreadp hends.1 hends.2
      exact ⟨[], _, s', rfl, nofun, hout.trans (List.append_nil _).symm,
        Or.inr ⟨_, rfl, hends.1, hends.2, Job.fails_mapM_head hfails ps⟩⟩
    · rw [not_and] at hends
      obtain ⟨s₁, hstep, hafter, hout₁⟩ := exists_yields_write h hp.symm hreadp hends
      obtain ⟨done, rest, s', hvisits, hwritable, hout, hend⟩ := ih hafter hps hreads
      refine ⟨(p, seen.count (t.placeOf? w.here p)) :: done, rest, s', ?_, ?_, ?_, ?_⟩
      · rw [FileTree.visitsAfter, hvisits]
        rfl
      · rw [changedSources_cons]
        split
        · next hchanged => exact List.forall_mem_cons.2 ⟨hends hchanged, hwritable⟩
        · exact hwritable
      · rw [toldLines_changedSources_cons, ← List.append_assoc, hout, hout₁]
      · rcases hend with ⟨hnil, hrun⟩ | ⟨v, hhead, hchanged, hdenied, hrun⟩
        · exact Or.inl ⟨hnil, Job.yields_mapM_cons hstep hrun⟩
        · exact Or.inr ⟨v, hhead, hchanged, hdenied, Job.fails_mapM_tail hstep hrun⟩

/-! ## The command -/

variable {c : Config} {paths : List Text} {indent : Option (Option Text)} {split : Bool}

/-- A check of sources that can all be read. -/
theorem exists_finish_check (least : Severity) (isVerbose : Bool)
    (ho : layoutOptions c indent split = .ok o)
    (hsources : collectSources s.tree w.here paths = .ok sources) (hname : stdinName ∉ sources)
    (hread : ∀ p ∈ sources, s.tree.readText w.here (.ofText p) = .ok (text p)) :
    let told := changedSources o text (sources.map (·, 0))
    ∃ s', finish w isVerbose (commandJob w least c (.format paths .check indent split)) s =
        (.exit (if told = [] then 0 else 1), s') ∧
      s'.out = s.out ++ toldLines "Would reformat " told ++ formatSummary .check told.length := by
  intro told
  obtain ⟨_, hrun, hout⟩ := exists_yields_mapM_check hname hread
  have hjob := yields_formatJob ho hsources (fun h => hname h.2) hrun
  have hcode : formatCode .check told.length = if told = [] then 0 else 1 :=
    if_congr List.length_eq_zero_iff rfl rfl
  rw [count_isChangedAfter, hcode] at hjob
  exact ⟨_, finish_of_yields isVerbose hjob, congrArg (· ++ formatSummary _ _) hout⟩

/-- A write of sources that can all be read. -/
theorem exists_finish_write (least : Severity) (isVerbose : Bool)
    (ho : layoutOptions c indent split = .ok o)
    (hsources : collectSources s.tree w.here paths = .ok sources) (hname : stdinName ∉ sources)
    (hread : ∀ p ∈ sources, s.tree.readText w.here (.ofText p) = .ok (text p)) :
    let write := finish w isVerbose (commandJob w least c (.format paths .write indent split)) s
    ∃ done rest, s.tree.visits w.here sources = done ++ rest ∧
      (∀ p ∈ changedSources o text done, ¬s.tree.DeniesWriting w.here p) ∧
      let written := changedSources o text done
      ((rest = [] ∧ write.1 = .exit 0 ∧ write.2.out =
          s.out ++ toldLines "Formatted " written ++ formatSummary .write written.length) ∨
        ∃ v, rest.head? = some v ∧ isChangedAfter o v.2 (text v.1) = true ∧
          s.tree.DeniesWriting w.here v.1 ∧ write.1 = failedEnding w (deniedSource v.1) ∧
          write.2.out = s.out ++ toldLines "Formatted " written) := by
  intro write
  have hstdin : ¬(LayoutMode.write ≠ .print ∧ stdinName ∈ sources) := fun h => hname h.2
  obtain ⟨done, rest, s', hvisits, hwritable, hout, hend⟩ := exists_mapM_write_visits least
    (1 < sources.length) (FileTree.isLaidAfter_nil o s.tree) hname hread
  refine ⟨done, rest, hvisits, hwritable, ?_⟩
  intro written
  rcases hend with ⟨hnil, hrun⟩ | ⟨v, hhead, hchanged, hdenied, hrun⟩
  · have hjob := yields_formatJob ho hsources hstdin hrun
    rw [count_isChangedAfter] at hjob
    have hdone : write = _ := finish_of_yields isVerbose hjob
    rw [hdone]
    exact Or.inl ⟨hnil, rfl, congrArg (· ++ formatSummary _ _) hout⟩
  · have hdone : write = endFailed w isVerbose _ s' :=
      finish_eq_of_fails isVerbose (fails_formatJob_of_mapM ho hsources hstdin hrun)
    rw [hdone, endFailed_fst, out_endFailed]
    exact Or.inr ⟨v, hhead, hchanged, hdenied, rfl, hout⟩

/-- Where no file is reached twice, a write finds every source as it was. -/
theorem changedSources_visits_of_nodup {t : FileTree} {here : Place}
    (h : (sources.map (t.placeOf? here)).Nodup) :
    changedSources o text (t.visits here sources) =
      changedSources o text (sources.map (·, 0)) := by
  rw [FileTree.visits, FileTree.visitsAfter_of_nodup (fun _ _ => List.not_mem_nil) h]

theorem changedSources_map_zero : changedSources o text (sources.map (·, 0)) =
    sources.filter fun p => isChangedAfter o 0 (text p) := by
  rw [changedSources, List.filter_map, List.map_map]
  exact List.map_id _

/-- What a check tells of, as visits of a write. -/
theorem changedSources_map_zero_eq_visits (t : FileTree) (here : Place) :
    changedSources o text (sources.map (·, 0)) =
      ((t.visits here sources).filter fun v => isChangedAfter o 0 (text v.1)).map Prod.fst := by
  have hsources : (t.visits here sources).map Prod.fst = sources := FileTree.map_fst_visitsAfter
  rw [changedSources_map_zero]
  conv_lhs => rw [← hsources, List.filter_map]
  rfl

theorem filter_isChangedAfter_sublist (o : LayoutOptions) (text : Text → Text)
    (vs : List (Text × Nat)) : (vs.filter fun v => isChangedAfter o v.2 (text v.1)).Sublist
      (vs.filter fun v => isChangedAfter o 0 (text v.1)) :=
  List.monotone_filter_right vs fun _ => isChangedAfter_zero_of

/-- A write tells of no source that a check does not tell of. -/
theorem changedSources_visits_sublist (t : FileTree) (here : Place) :
    (changedSources o text (t.visits here sources)).Sublist
      (changedSources o text (sources.map (·, 0))) := by
  rw [changedSources_map_zero_eq_visits t here]
  exact (filter_isChangedAfter_sublist o text _).map Prod.fst

/-- A write tells of all that a check tells of if layout goes on changing the files that it
changes, whenever they are visited again. -/
theorem changedSources_visits_eq_iff {t : FileTree} {here : Place} :
    changedSources o text (t.visits here sources) = changedSources o text (sources.map (·, 0)) ↔
      ∀ v ∈ t.visits here sources, isChangedAfter o 0 (text v.1) = true →
        isChangedAfter o v.2 (text v.1) = true := by
  rw [changedSources_map_zero_eq_visits t here, changedSources]
  constructor
  · intro h v hv hchanged
    have hlength := congrArg List.length h
    rw [List.length_map, List.length_map] at hlength
    have hfilter := (filter_isChangedAfter_sublist o text _).eq_of_length hlength
    have hmem : v ∈ (t.visits here sources).filter fun v => isChangedAfter o 0 (text v.1) :=
      List.mem_filter.2 ⟨hv, hchanged⟩
    rw [← hfilter] at hmem
    exact (List.mem_filter.1 hmem).2
  · intro h
    exact congrArg _ (List.filter_congr fun v hv =>
      Bool.eq_iff_iff.2 ⟨isChangedAfter_zero_of, h v hv⟩)

/-- The first source that leads to a file is told of by a write as by a check. -/
theorem changedSources_visits_eq_nil_iff {t : FileTree} {here : Place}
    (hread : ∀ p ∈ sources, t.readText here (.ofText p) = .ok (text p)) :
    changedSources o text (t.visits here sources) = [] ↔
      changedSources o text (sources.map (·, 0)) = [] := by
  constructor
  · intro h
    rw [changedSources, List.map_eq_nil_iff, List.filter_eq_nil_iff] at h
    rw [changedSources_map_zero, List.filter_eq_nil_iff]
    intro p hp
    obtain ⟨q, hq, hplace, hvisit⟩ := FileTree.exists_mem_visitsAfter t here hp List.not_mem_nil
    obtain ⟨_, hpx⟩ := FileTree.exists_holdsText_of_readText (hread p hp)
    obtain ⟨_, hqx⟩ := FileTree.exists_holdsText_of_readText (hread q hq)
    rw [← hpx.eq_of_placeOf? hqx hplace]
    exact h (q, 0) hvisit
  · intro h
    have hsublist : (changedSources o text (t.visits here sources)).Sublist
        (changedSources o text (sources.map (·, 0))) := changedSources_visits_sublist t here
    rw [h] at hsublist
    exact List.eq_nil_of_sublist_nil hsublist

/-- What a check and a write tell of, where all of the sources can be read. A source that leads to
the same file as `k` sources before it is told of by a write if layout changes what `k` layouts make
of the file, and by a check if layout changes the file. A write goes on to the first of those that
may not be written. If there is none, it tells of no source that a check does not tell of, and of
none only if a check does; and it tells of all of them where no two sources lead to the same
file. -/
theorem format_check_write (isVerbose : Bool) (ho : layoutOptions c indent split = .ok o)
    (hsources : collectSources s.tree w.here paths = .ok sources) (hname : stdinName ∉ sources)
    (hread : ∀ p ∈ sources, s.tree.readText w.here (.ofText p) = .ok (text p)) :
    let told := changedSources o text (sources.map (·, 0))
    let visits := s.tree.visits w.here sources
    let all := changedSources o text visits
    let check := finish w isVerbose (commandJob w least c (.format paths .check indent split)) s
    let write := finish w isVerbose (commandJob w least c (.format paths .write indent split)) s
    (check.1 = .exit (if told = [] then 0 else 1) ∧ check.2.out =
      s.out ++ toldLines "Would reformat " told ++ formatSummary .check told.length) ∧
    (∃ done rest, visits = done ++ rest ∧
      (∀ p ∈ changedSources o text done, ¬s.tree.DeniesWriting w.here p) ∧
      let written := changedSources o text done
      ((rest = [] ∧ write.1 = .exit 0 ∧ write.2.out =
          s.out ++ toldLines "Formatted " written ++ formatSummary .write written.length) ∨
        ∃ v, rest.head? = some v ∧ isChangedAfter o v.2 (text v.1) = true ∧
          s.tree.DeniesWriting w.here v.1 ∧ write.1 = failedEnding w (deniedSource v.1) ∧
          write.2.out = s.out ++ toldLines "Formatted " written)) ∧
    ((sources.map (s.tree.placeOf? w.here)).Nodup → all = told) ∧
    (all = told ↔ ∀ v ∈ visits,
      isChangedAfter o 0 (text v.1) = true → isChangedAfter o v.2 (text v.1) = true) ∧
    all.Sublist told ∧ (all = [] ↔ told = []) := by
  intro told visits all check write
  obtain ⟨s₁, hcheck, hout⟩ := exists_finish_check least isVerbose ho hsources hname hread
  have hchecked : check = (.exit (if told = [] then 0 else 1), s₁) := hcheck
  rw [hchecked]
  exact ⟨⟨rfl, hout⟩, exists_finish_write least isVerbose ho hsources hname hread,
    changedSources_visits_of_nodup, changedSources_visits_eq_iff,
    changedSources_visits_sublist s.tree w.here, changedSources_visits_eq_nil_iff hread⟩

theorem format_check_write_overlapping :
    let w : Surroundings := ⟨[], .empty, "", "", fun _ => "", none⟩
    let c := Config.standard ⟨1, []⟩
    let q := "q.sql".toList
    let r := "r.sql".toList
    let paths := [".".toList, "./q.sql".toList]
    let sources := [q, r, q]
    let text : Text → Text := fun p => if p = q then "a".toList else "'b".toList
    let tree := (FileTree.empty.put [q] (.file (Utf8.encode (text q)))).put [r]
      (.file (Utf8.encode (text r)))
    let s := Session.start (tree.deny .writing [r]) []
    let o := c.layout
    layoutOptions c none false = .ok o ∧ collectSources s.tree w.here paths = .ok sources ∧
      stdinName ∉ sources ∧
      (∀ p ∈ sources, s.tree.readText w.here (.ofText p) = .ok (text p)) ∧
      let told := changedSources o text (sources.map (·, 0))
      let visits := s.tree.visits w.here sources
      let all := changedSources o text visits
      let check := finish w false (commandJob w .warning c (.format paths .check none false)) s
      let write := finish w false (commandJob w .warning c (.format paths .write none false)) s
      (check.1 = .exit (if told = [] then 0 else 1) ∧ check.2.out =
        s.out ++ toldLines "Would reformat " told ++ formatSummary .check told.length) ∧
      (∃ done rest, visits = done ++ rest ∧
        (∀ p ∈ changedSources o text done, ¬s.tree.DeniesWriting w.here p) ∧
        let written := changedSources o text done
        ((rest = [] ∧ write.1 = .exit 0 ∧ write.2.out =
            s.out ++ toldLines "Formatted " written ++ formatSummary .write written.length) ∨
          ∃ v, rest.head? = some v ∧ isChangedAfter o v.2 (text v.1) = true ∧
            s.tree.DeniesWriting w.here v.1 ∧ write.1 = failedEnding w (deniedSource v.1) ∧
            write.2.out = s.out ++ toldLines "Formatted " written)) ∧
      ((sources.map (s.tree.placeOf? w.here)).Nodup → all = told) ∧
      (all = told ↔ ∀ v ∈ visits,
        isChangedAfter o 0 (text v.1) = true → isChangedAfter o v.2 (text v.1) = true) ∧
      all.Sublist told ∧ (all = [] ↔ told = []) := by
  intro w c q r paths sources text tree s o
  have ho : layoutOptions c none false = .ok o := rfl
  have hsources : collectSources s.tree w.here paths = .ok sources := rfl
  have hname : stdinName ∉ sources := by decide
  have hq : s.tree.HoldsText w.here (.ofText q) [q] (text q) :=
    ⟨_, rfl, rfl, FileTree.textOfBytes_encode (by decide)⟩
  have hr : s.tree.HoldsText w.here (.ofText r) [r] (text r) :=
    ⟨_, rfl, rfl, FileTree.textOfBytes_encode (by decide)⟩
  have hread : ∀ p ∈ sources, s.tree.readText w.here (.ofText p) = .ok (text p) :=
    List.forall_mem_cons.2 ⟨hq.readText, List.forall_mem_cons.2 ⟨hr.readText,
      List.forall_mem_singleton.2 hq.readText⟩⟩
  exact ⟨ho, hsources, hname, hread, format_check_write false ho hsources hname hread⟩

/-- A file that two operands name is told of by a check twice, and by a write once. -/
theorem format_check_write_twice :
    let w : Surroundings := ⟨[], .empty, "", "", fun _ => "", none⟩
    let c := Config.standard ⟨1, []⟩
    let q := "q.sql".toList
    let s := Session.start (FileTree.empty.put [q] (.file (Utf8.encode "a".toList))) []
    ∃ s₁ s₂,
      finish w false (commandJob w .warning c (.format [q, q] .check none false)) s =
        (.exit 1, s₁) ∧
      finish w false (commandJob w .warning c (.format [q, q] .write none false)) s =
        (.exit 0, s₂) ∧
      s₁.out = "Would reformat q.sql\nWould reformat q.sql\n2 files would be reformatted\n".toList ∧
      s₂.out = "Formatted q.sql\nFormatted 1 file\n".toList := by
  intro w c q s
  have ho : layoutOptions c none false = .ok c.layout := rfl
  have hsources : collectSources s.tree w.here [q, q] = .ok [q, q] := rfl
  have hname : stdinName ∉ [q, q] := by decide
  have hread : ∀ p ∈ [q, q], s.tree.readText w.here (.ofText p) = .ok "a".toList := by
    have hq : s.tree.HoldsText w.here (.ofText q) [q] "a".toList :=
      ⟨_, rfl, rfl, FileTree.textOfBytes_encode (by decide)⟩
    exact List.forall_mem_cons.2 ⟨hq.readText, List.forall_mem_singleton.2 hq.readText⟩
  have hk : (Clauses.ofWords c.layout.clauseWords).IsSolid :=
    isSolid_ofWords isBlank_of_mem_standardClauseWords
  have hscan : scan "a".toList = [⟨.code, "a".toList, true⟩] :=
    scan_eq_iff.2 ⟨rfl, List.cons_ne_nil _ _, ⟨by decide, by decide, by decide⟩, nofun, trivial⟩
  have hclosed : unterminated "a".toList = [] := by
    rw [unterminated_eq_nil_iff_scan, hscan]
    exact List.forall_mem_singleton.2 rfl
  have hfirst : isChangedAfter c.layout 0 "a".toList = true :=
    isChangedAfter_iff.2 (laidFile_ne_self (by decide) (by decide))
  have hsecond : isChangedAfter c.layout 1 "a".toList = false :=
    Bool.eq_false_iff.2 fun h => (isChangedAfter_succ_iff hk).1 h hclosed
  have htold : changedSources c.layout (fun _ => "a".toList) ([q, q].map (·, 0)) = [q, q] := by
    rw [List.map_cons, changedSources_cons, if_pos hfirst, List.map_cons, changedSources_cons,
      if_pos hfirst]
    rfl
  have hwritten : changedSources c.layout (fun _ => "a".toList) (s.tree.visits w.here [q, q]) =
      [q] := by
    have hvisits : s.tree.visits w.here [q, q] = [(q, 0), (q, 1)] := rfl
    rw [hvisits, changedSources_cons, if_pos hfirst, changedSources_cons,
      if_neg (Bool.eq_false_iff.1 hsecond)]
    rfl
  obtain ⟨s₁, hcheck, hout₁⟩ := exists_finish_check .warning false ho hsources hname hread
  rw [htold] at hcheck hout₁
  have hwrite := exists_finish_write .warning false ho hsources hname hread
  generalize finish w false (commandJob w .warning c (.format [q, q] .write none false)) s = write
    at hwrite ⊢
  obtain ⟨done, rest, hvisits, -, ⟨rfl, hexit, hout₂⟩ | ⟨v, -, -, ⟨_, -, hdenied⟩, -⟩⟩ := hwrite
  · rw [List.append_nil] at hvisits
    rw [← hvisits, hwritten] at hout₂
    exact ⟨s₁, write.2, hcheck, Prod.ext hexit rfl, hout₁.trans (by decide),
      hout₂.trans (by decide)⟩
  · cases hdenied

end SqlSnippet
