import Mathlib
import SqlSnippet.Proofs.Statements
import SqlSnippet.Proofs.TextLayout

/-!
# White space of the source

Layout looks at the white space of a source as little as at its own : of a run of white space in
code only that it is there counts. `Respaced` says that the runs of one text stand in place of
those of another. Such texts have the same strings and comments (`Respaced.isFit`) and the same
code once it is collapsed (`Respaced.map_collapse_regions`), which is all that layout goes by
(`formatText_congr`).

White space in front of a text is taken off by trimming, but clause words are looked for before
that, and after white space only. So it counts where the text starts with a clause word that has
another one inside it (`Clauses.hidesWord`) : with the white space the first word is found, which
hides the second, and without it the second. Nowhere else does it count
(`formatText_eq_of_isRespacing`, `formatText_append_ne`).
-/

namespace SqlSnippet

variable {o : LayoutOptions} {k : Clauses}

/-! ## Collapsed regions -/

theorem trimStart_append {b : Text} (hb : ∀ c ∈ b, isBlank c = true) (s : Text) :
    Text.trimStart (b ++ s) = Text.trimStart s :=
  List.dropWhile_append_of_pos hb

/-- Collapsing leaves no white space at the start of a text where there is none. -/
theorem trimStart_collapse (s : Text) :
    Text.trimStart (Text.collapse s) = Text.collapse (Text.trimStart s) := by
  unfold Text.trimStart
  induction s with
  | nil => rfl
  | cons c s ih =>
    cases hc : isBlank c with
    | true =>
      have hspace : isBlank ' ' = true := by decide
      rw [collapse_cons_of_blank hc, List.dropWhile_cons_of_pos hspace,
        List.dropWhile_cons_of_pos hc, Text.trimStart, ← ih]
      exact List.dropWhile_idempotent isBlank _
    | false =>
      rw [List.dropWhile_cons_of_neg (Bool.eq_false_iff.1 hc), collapse_cons hc,
        List.dropWhile_cons_of_neg (Bool.eq_false_iff.1 hc)]

/-- A region with its white space collapsed if it is code. -/
def Region.collapse (r : Region) : Region :=
  if r.isProtected then r else { r with text := Text.collapse r.text }

/-- Put a space in front of regions; it joins the white space that a code region starts with. -/
def Region.consSpace : List Region → List Region
  | ⟨.code, s, terminated⟩ :: rs => ⟨.code, ' ' :: Text.trimStart s, terminated⟩ :: rs
  | rs => ⟨.code, [' '], true⟩ :: rs

theorem Region.kind_collapse (r : Region) : r.collapse.kind = r.kind := by
  unfold Region.collapse
  split <;> rfl

theorem map_collapse_consCode {c : Char} (hc : isBlank c = false) (rs : List Region) :
    (Region.consCode c rs).map Region.collapse = Region.consCode c (rs.map Region.collapse) := by
  have hcode : ∀ s terminated, Region.collapse ⟨.code, c :: s, terminated⟩ =
      ⟨.code, c :: Text.collapse s, terminated⟩ := by
    intro s terminated
    rw [← collapse_cons hc]
    rfl
  rcases rs with _ | ⟨⟨kind, s, terminated⟩, rs⟩
  · exact congrArg (· :: []) (hcode [] true)
  · cases kind with
    | code => exact congrArg (· :: _) (hcode s terminated)
    | string => exact congrArg (· :: _) (hcode [] true)
    | lineComment => exact congrArg (· :: _) (hcode [] true)
    | blockComment => exact congrArg (· :: _) (hcode [] true)

theorem map_collapse_consCode_of_blank {c : Char} (hc : isBlank c = true) (rs : List Region) :
    (Region.consCode c rs).map Region.collapse = Region.consSpace (rs.map Region.collapse) := by
  have hcode : ∀ s terminated, Region.collapse ⟨.code, c :: s, terminated⟩ =
      ⟨.code, ' ' :: Text.trimStart (Text.collapse s), terminated⟩ := by
    intro s terminated
    rw [trimStart_collapse, ← collapse_cons_of_blank hc]
    rfl
  rcases rs with _ | ⟨⟨kind, s, terminated⟩, rs⟩
  · exact congrArg (· :: []) (hcode [] true)
  · cases kind with
    | code => exact congrArg (· :: _) (hcode s terminated)
    | string => exact congrArg (· :: _) (hcode [] true)
    | lineComment => exact congrArg (· :: _) (hcode [] true)
    | blockComment => exact congrArg (· :: _) (hcode [] true)

theorem consSpace_consSpace (rs : List Region) :
    Region.consSpace (Region.consSpace rs) = Region.consSpace rs := by
  have htrim : ∀ s, Text.trimStart (' ' :: Text.trimStart s) = Text.trimStart s :=
    fun s => List.dropWhile_idempotent isBlank s
  rcases rs with _ | ⟨⟨kind, s, terminated⟩, rs⟩
  · rfl
  · cases kind with
    | code => exact congrArg (fun x => ⟨.code, ' ' :: x, terminated⟩ :: rs) (htrim s)
    | string => rfl
    | lineComment => rfl
    | blockComment => rfl

/-- A run of white space counts as one space. -/
theorem map_collapse_regions_append {b : Text} (hne : b ≠ []) (hb : ∀ c ∈ b, isBlank c = true)
    (as : List Atom) : (regions (b.map .code ++ as)).map Region.collapse =
      Region.consSpace ((regions as).map Region.collapse) := by
  induction b with
  | nil => exact absurd rfl hne
  | cons c b ih =>
    obtain ⟨hc, hb⟩ := List.forall_mem_cons.1 hb
    rw [List.map_cons, List.cons_append, regions, map_collapse_consCode_of_blank hc]
    cases b with
    | nil => rfl
    | cons d b => rw [ih (List.cons_ne_nil d b) hb, consSpace_consSpace]

theorem map_collapse_scan_append {b : Text} (hne : b ≠ []) (hb : ∀ c ∈ b, isBlank c = true)
    (s : Text) : (scan (b ++ s)).map Region.collapse =
      Region.consSpace ((scan s).map Region.collapse) := by
  rw [scan_eq_regions, scan_eq_regions, atoms_append_of_blank hb,
    map_collapse_regions_append hne hb]

/-! ## Layout of collapsed regions -/

theorem laidCode_congr {x y : Text} (h : Text.collapse x = Text.collapse y) (afterComment : Bool)
    (d : Nat) : laidCode o k afterComment d x = laidCode o k afterComment d y := by
  rw [laidCode, laidCode, ← trimStart_collapse, ← trimStart_collapse, h]

/-- Layout goes by the collapsed regions. -/
theorem laidAtoms_congr {rs qs : List Region}
    (h : rs.map Region.collapse = qs.map Region.collapse) (before : Option Region) (d : Nat) :
    laidAtoms o k before d rs = laidAtoms o k before d qs := by
  induction rs generalizing qs before d with
  | nil =>
    obtain rfl : qs = [] := List.map_eq_nil_iff.1 h.symm
    rfl
  | cons r rs ih =>
    cases qs with
    | nil => cases h
    | cons q qs =>
      obtain ⟨hhead, htail⟩ := List.cons.inj h
      have hkind : r.isProtected = q.isProtected := by
        unfold Region.isProtected
        rw [← Region.kind_collapse, hhead, Region.kind_collapse]
      unfold Region.collapse at hhead
      rw [laidAtoms, laidAtoms]
      rw [hkind] at hhead ⊢
      split at hhead
      · next hp =>
        subst hhead
        rw [if_pos hp, if_pos hp, ih htail]
      · next hp =>
        have htext : Text.collapse r.text = Text.collapse q.text := congrArg Region.text hhead
        rw [if_neg hp, if_neg hp, laidCode_congr htext, ← depthAfter_collapse, htext,
          depthAfter_collapse, ih htail]

theorem formatText_congr {s t : Text}
    (h : (scan s).map Region.collapse = (scan t).map Region.collapse) :
    formatText o s = formatText o t := by
  rw [formatText_eq_flatten, formatText_eq_flatten, laidAtoms_congr h]

/-! ## Other white space in code -/

/-- Each run of white space in code is replaced by another one, or by itself. After a line comment,
which `afterComment` says comes first, the new one starts with a line break. -/
inductive Respaced : (afterComment : Bool) → List Atom → List Atom → Prop
  | nil {afterComment : Bool} : Respaced afterComment [] []
  | keep {afterComment : Bool} {a : Atom} {as bs : List Atom} (ha : a.isBlank = false)
      (h : Respaced a.isLineComment as bs) : Respaced afterComment (a :: as) (a :: bs)
  | run {afterComment : Bool} {x y : Text} {as bs : List Atom} (hx : x ≠ []) (hy : y ≠ [])
      (hxblank : ∀ c ∈ x, isBlank c = true) (hyblank : ∀ c ∈ y, isBlank c = true)
      (hends : afterComment = true → ∀ c ∈ y.head?, endsLine c = true)
      (h : Respaced false as bs) :
      Respaced afterComment (x.map .code ++ as) (y.map .code ++ bs)

/-- The text `t` is `s` with other white space in its code. -/
def IsRespacing (s t : Text) : Prop :=
  ∃ as, Respaced false (atoms s) as ∧ Atom.flatten as = t

theorem Respaced.map_collapse_regions {g : Bool} {as bs : List Atom} (h : Respaced g as bs) :
    (regions as).map Region.collapse = (regions bs).map Region.collapse := by
  induction h with
  | nil => rfl
  | @keep g a as bs ha h ih =>
    cases a with
    | code c =>
      rw [regions, regions, map_collapse_consCode ha, map_collapse_consCode ha, ih]
    | literal r => exact congrArg (r.collapse :: ·) ih
  | run hx hy hxblank hyblank hends h ih =>
    rw [map_collapse_regions_append hx hxblank, map_collapse_regions_append hy hyblank, ih]

/-- What an atom fits, it fits with other white space too. -/
theorem Respaced.fits {a : Atom} {as bs : List Atom} (h : Respaced a.isLineComment as bs)
    (hfit : IsFit none as) (ha : a.Fits (Atom.flatten as).head?) :
    a.Fits (Atom.flatten bs).head? := by
  cases h with
  | nil => exact ha
  | keep _ h =>
    rw [head?_flatten_cons hfit.1.text_ne_nil] at ha ⊢
    exact ha
  | run hx hy hxblank hyblank hends h =>
    obtain ⟨c, x, rfl⟩ := List.exists_cons_of_ne_nil hx
    obtain ⟨d, y, rfl⟩ := List.exists_cons_of_ne_nil hy
    have hgap : a.FitsGap := Atom.Fits.gap ha
    exact hgap d (hyblank d List.mem_cons_self) fun hline => hends hline d rfl

/-- With other white space, atoms fit as they did. -/
theorem Respaced.isFit {g : Bool} {as bs : List Atom} (h : Respaced g as bs)
    (hfit : IsFit none as) : IsFit none bs := by
  induction h with
  | nil => trivial
  | keep _ h ih =>
    obtain ⟨ha, has⟩ := hfit
    rw [Option.or_none] at ha
    refine ⟨?_, ih has⟩
    rw [Option.or_none]
    exact h.fits has ha
  | run hx hy hxblank hyblank hends h ih =>
    exact isFit_append.2 ⟨isFit_map_code_of_blank hyblank _, ih (isFit_append.1 hfit).2⟩

/-- Other white space in the code of a text does not change how it is laid out. -/
theorem formatText_of_isRespacing (o : LayoutOptions) {s t : Text} (h : IsRespacing s t) :
    formatText o t = formatText o s := by
  obtain ⟨as, has, rfl⟩ := h
  refine formatText_congr ?_
  rw [scan_eq_regions, scan_eq_regions, atoms_flatten (has.isFit (isFit_atoms s)),
    has.map_collapse_regions]

/-! ## White space in front -/

/-- Whether the clause word that a text starts with holds white space with a clause word after
it. -/
def Clauses.hidesWord (k : Clauses) (x : Text) : Bool :=
  (k.lengthAt? x).any fun n => (List.range n).any fun i =>
    x[i]?.any isBlank && (k.lengthAt? (Text.trimStart (x.drop (i + 1)))).isSome

/-- The code that a text starts with, in lines as the list commas make them. -/
def leadingCode (o : LayoutOptions) (s : Text) : Text :=
  breakCommas o 0 false [] (Text.collapse (codeRun (atoms s)))

theorem breakLines_cons_of_blank {c : Char} (hc : isBlank c = true) {s : Text}
    (h : k.lengthAt? (Text.trimStart s) = none) :
    k.breakLines (c :: s) = c :: k.breakLines s := by
  unfold Text.trimStart at h
  rw [breakLines_of_none hc h]
  cases s with
  | nil => rfl
  | cons d s =>
    cases hd : isBlank d with
    | true =>
      rw [List.dropWhile_cons_of_pos hd] at h
      rw [breakLines_of_none hd h, List.takeWhile_cons_of_pos hd, List.dropWhile_cons_of_pos hd]
      rfl
    | false =>
      have hd := Bool.eq_false_iff.1 hd
      rw [List.takeWhile_cons_of_neg hd, List.dropWhile_cons_of_neg hd]
      rfl

/-- Lines do not break inside a text if no clause word comes after white space in it. -/
theorem breakLines_append_of_lengthAt? {x y : Text} (h : ∀ i < x.length,
    x[i]?.any isBlank = true → k.lengthAt? (Text.trimStart ((x ++ y).drop (i + 1))) = none) :
    k.breakLines (x ++ y) = x ++ k.breakLines y := by
  induction x with
  | nil => rfl
  | cons c x ih =>
    have hrest := ih fun i hi => h (i + 1) (Nat.succ_lt_succ hi)
    rw [List.cons_append, List.cons_append, ← hrest]
    cases hc : isBlank c with
    | true => exact breakLines_cons_of_blank hc (h 0 (Nat.succ_pos _) hc)
    | false => exact breakLines_cons hc _

theorem breakLines_of_hidesWord {y : Text} {n : Nat} (hn : k.lengthAt? y = some n)
    (h : k.hidesWord y = false) : k.breakLines y = y.take n ++ k.breakLines (y.drop n) := by
  have hlines := breakLines_append_of_lengthAt? (k := k) (x := y.take n) (y := y.drop n)
  rw [List.take_append_drop] at hlines
  refine hlines fun i hi hblank => ?_
  rw [List.length_take] at hi
  have hi := lt_of_lt_of_le hi (Nat.min_le_left _ _)
  rw [List.getElem?_take_of_lt hi] at hblank
  rw [Clauses.hidesWord, hn, Option.any_some, List.any_eq_false] at h
  have hnot := h i (List.mem_range.2 hi)
  rw [hblank, Bool.true_and, Option.not_isSome_iff_eq_none] at hnot
  exact hnot

theorem breakLines_cons_of_lengthAt? {c : Char} (hc : isBlank c = true) {y : Text}
    (hy : ∀ d ∈ y.head?, isBlank d = false) {n : Nat} (hn : k.lengthAt? y = some n) :
    k.breakLines (c :: y) =
      k.gap [c] (y.take n) (y.drop n) ++ (y.take n ++ k.breakLines (y.drop n)) := by
  have hstop : y.takeWhile isBlank = [] ∧ y.dropWhile isBlank = y := by
    cases y with
    | nil => exact ⟨rfl, rfl⟩
    | cons d y =>
      have hd := Bool.eq_false_iff.1 (hy d rfl)
      exact ⟨List.takeWhile_cons_of_neg hd, List.dropWhile_cons_of_neg hd⟩
  have hfound := hn
  rw [← hstop.2] at hfound
  rw [breakLines_of_some hc hfound, hstop.1, hstop.2]
  exact List.append_assoc _ _ _

/-- The first line is the same with white space in front of it, unless a word is hidden. -/
theorem trimStart_breakLines_cons {c : Char} (hc : isBlank c = true) {y : Text}
    (hy : ∀ d ∈ y.head?, isBlank d = false) (h : k.hidesWord y = false) :
    Text.trimStart (k.breakLines (c :: y)) = Text.trimStart (k.breakLines y) := by
  cases hn : k.lengthAt? y with
  | none =>
    have hstart : Text.trimStart y = y := by
      cases y with
      | nil => rfl
      | cons d y => exact List.dropWhile_cons_of_neg (Bool.eq_false_iff.1 (hy d rfl))
    rw [breakLines_cons_of_blank hc (by rw [hstart, hn])]
    exact List.dropWhile_cons_of_pos hc
  | some n =>
    have hgap : ∀ d ∈ k.gap [c] (y.take n) (y.drop n), isBlank d = true := by
      unfold Clauses.gap
      split
      · exact List.forall_mem_singleton.2 hc
      · exact List.forall_mem_singleton.2 (by decide)
    rw [breakLines_cons_of_lengthAt? hc hy hn, ← breakLines_of_hidesWord hn h,
      trimStart_append hgap]

/-- A space in front of code is dropped before a comma and kept before all else. -/
theorem breakCommas_cons_space {d : Nat} {x : Text} (hx : ∀ c ∈ x.head?, isBlank c = false) :
    breakCommas o d false [] (' ' :: x) = breakCommas o d false [] x ∨
      breakCommas o d false [] (' ' :: x) = ' ' :: breakCommas o d false [] x := by
  rw [breakCommas_hold_blank d [] x (by decide)]
  cases x with
  | nil => exact Or.inr rfl
  | cons c x =>
    have hc := hx c rfl
    cases hcomma : (Atom.code c).isListComma d with
    | true =>
      obtain ⟨rfl, hch⟩ := Atom.isListComma_iff.1 hcomma
      obtain rfl := Atom.code.inj hch
      exact Or.inl (by rw [breakCommas_comma, breakCommas_comma])
    | false =>
      rw [breakCommas_cons hc hcomma, breakCommas_cons hc hcomma]
      exact Or.inr rfl

/-- What does not start with white space does not start with any once it is in lines. -/
theorem isBlank_head?_breakCommas {d : Nat} {x : Text} (hx : ∀ c ∈ x.head?, isBlank c = false) :
    ∀ c ∈ (breakCommas o d false [] x).head?, isBlank c = false := by
  cases x with
  | nil => nofun
  | cons c x =>
    have hc := hx c rfl
    cases hcomma : (Atom.code c).isListComma d with
    | true =>
      obtain ⟨rfl, hch⟩ := Atom.isListComma_iff.1 hcomma
      obtain rfl := Atom.code.inj hch
      rw [breakCommas_comma]
      exact hx
    | false =>
      rw [breakCommas_cons hc hcomma]
      exact hx

/-- White space in front of code is laid out as white space. -/
theorem trimStart_laidCode_append {w x : Text} (hne : w ≠ []) (hw : ∀ c ∈ w, isBlank c = true)
    (hx : ∀ c ∈ x.head?, isBlank c = false) {d : Nat}
    (h : k.hidesWord (breakCommas o d false [] (Text.collapse x)) = false) :
    Text.trimStart (laidCode o k false d (w ++ x)) = Text.trimStart (laidCode o k false d x) := by
  have hcollapse : Text.collapse (w ++ x) = ' ' :: Text.collapse x ∧
      ∀ c ∈ (Text.collapse x).head?, isBlank c = false := by
    obtain ⟨c, w, rfl⟩ := List.exists_cons_of_ne_nil hne
    obtain ⟨hc, hw⟩ := List.forall_mem_cons.1 hw
    rw [List.cons_append, collapse_cons_of_blank hc, trimStart_append hw]
    cases x with
    | nil => exact ⟨rfl, nofun⟩
    | cons d x =>
      have hd := hx d rfl
      rw [Text.trimStart, List.dropWhile_cons_of_neg (Bool.eq_false_iff.1 hd), collapse_cons hd]
      exact ⟨rfl, hx⟩
  have hunfold : ∀ x, laidCode o k false d x =
      k.breakLines (breakCommas o d false [] (Text.collapse x)) := fun _ => rfl
  rw [hunfold, hunfold, hcollapse.1]
  rcases breakCommas_cons_space (o := o) (d := d) hcollapse.2 with heq | heq
  · rw [heq]
  · rw [heq, trimStart_breakLines_cons (by decide) (isBlank_head?_breakCommas hcollapse.2) h]

/-- Atoms are the code that they start with and what comes after it. -/
theorem exists_codeRun_append (as : List Atom) : ∃ bs, as = (codeRun as).map .code ++ bs ∧
    ∀ a ∈ bs.head?, ∃ r, a = .literal r := by
  induction as with
  | nil => exact ⟨[], rfl, nofun⟩
  | cons a as ih =>
    cases a with
    | code c =>
      obtain ⟨bs, has, hbs⟩ := ih
      exact ⟨bs, congrArg (.code c :: ·) has, hbs⟩
    | literal r => exact ⟨.literal r :: as, rfl, fun a ha => ⟨r, (Option.some.inj ha).symm⟩⟩

/-- The code that atoms start with is laid out as one stretch. -/
theorem laidAtoms_regions_append (d : Nat) (x : Text) {as : List Atom} (hfit : IsFit none as)
    (has : ∀ a ∈ as.head?, ∃ r, a = .literal r) :
    laidAtoms o k none d (regions (x.map .code ++ as)) =
      (laidCode o k false d x).map .code ++ laidAtoms o k none (depthAfter d x) (regions as) := by
  have hregions : ∀ c x, regions ((c :: x : Text).map .code ++ as) =
      ⟨.code, c :: x, true⟩ :: regions as := by
    intro c x
    induction x generalizing c with
    | nil =>
      cases as with
      | nil => rfl
      | cons a as =>
        obtain ⟨⟨kind, text, terminated⟩, rfl⟩ := has a rfl
        have hp := hfit.1.1
        cases kind with
        | code => cases hp
        | string => rfl
        | lineComment => rfl
        | blockComment => rfl
    | cons d x ih =>
      rw [List.map_cons, List.cons_append, regions, ih d]
      rfl
  cases x with
  | nil =>
    have hnil : laidCode o k false d [] = [] := breakLines_nil k
    rw [hnil]
    rfl
  | cons c x =>
    rw [hregions, laidAtoms]
    rfl

theorem trimAtoms_append_congr {x y : Text} (h : Text.trimStart x = Text.trimStart y)
    (as : List Atom) : trimAtoms (x.map .code ++ as) = trimAtoms (y.map .code ++ as) := by
  have hdrop : ∀ x : Text, (x.map Atom.code).dropWhile Atom.isBlank =
      (Text.trimStart x).map .code := fun x => List.dropWhile_map
  unfold trimAtoms
  rw [List.dropWhile_append, List.dropWhile_append, hdrop, hdrop, h]

/-- White space in front of a text does not change how it is laid out, unless the text starts with
a clause word that hides another. -/
theorem formatText_append {w s : Text} (hw : ∀ c ∈ w, isBlank c = true)
    (h : s.head?.any isBlank = true ∨
      (Clauses.ofWords o.clauseWords).hidesWord (leadingCode o s) = false) :
    formatText o (w ++ s) = formatText o s := by
  by_cases hne : w = []
  · rw [hne, List.nil_append]
  by_cases hblank : s.head?.any isBlank = true
  · -- the white space joins the run that the text starts with
    cases s with
    | nil => cases hblank
    | cons c s =>
      have hc : ∀ d ∈ [c], isBlank d = true := List.forall_mem_singleton.2 hblank
      have hwc : ∀ d ∈ w ++ [c], isBlank d = true := List.forall_mem_append.2 ⟨hw, hc⟩
      have hcode := map_collapse_scan_append (List.append_ne_nil_of_left_ne_nil hne _) hwc s
      rw [List.append_assoc] at hcode
      exact formatText_congr
        (hcode.trans (map_collapse_scan_append (List.cons_ne_nil c []) hc s).symm)
  · obtain ⟨as, has, hhead⟩ := exists_codeRun_append (atoms s)
    have hfit := isFit_atoms s
    rw [has] at hfit
    have hfit := (isFit_append.1 hfit).2
    have hx : ∀ c ∈ (codeRun (atoms s)).head?, isBlank c = false := by
      intro c hc
      have htext : s = codeRun (atoms s) ++ Atom.flatten as := by
        rw [← Atom.flatten_map_code (codeRun _), ← Atom.flatten_append, ← has, flatten_atoms]
      rw [htext, List.head?_append, Option.mem_def.1 hc] at hblank
      exact Bool.eq_false_iff.2 hblank
    have hspaced : atoms (w ++ s) = (w ++ codeRun (atoms s)).map .code ++ as := by
      rw [atoms_append_of_blank hw, List.map_append, List.append_assoc, ← has]
    rw [formatText_eq_flatten, formatText_eq_flatten, scan_eq_regions, scan_eq_regions, hspaced,
      laidAtoms_regions_append 0 _ hfit hhead, depthAfter_append, depthAfter_of_blank hw,
      trimAtoms_append_congr (trimStart_laidCode_append hne hw hx (h.resolve_left hblank)),
      ← laidAtoms_regions_append 0 _ hfit hhead, ← has]

/-! ## One clause word inside another -/

/-- Two clause words, of which one ends with the other. -/
theorem lengthAt?_groupBy (s : Text) :
    (Clauses.ofWords ["GROUP BY".toList, "BY".toList]).lengthAt? s =
      (Clauses.mk ["GROUP BY".toList, "BY".toList] sameFold []).lengthAt? s := by
  have hset : WordSet.ofWords ["GROUP BY".toList, "BY".toList] =
      ["BY".toList, "GROUP BY".toList] := by cbv
  have hsort : ["BY".toList, "GROUP BY".toList].mergeSort (fun v w => w.length ≤ v.length) =
      ["GROUP BY".toList, "BY".toList] := by cbv
  rw [Clauses.ofWords, hset, Clauses.lengthAt?, hsort]
  rfl

theorem isRespacing_groupBy :
    IsRespacing "by -- x\n' '".toList "by\n\n-- x\r\t' '".toList := by
  have hatoms : atoms "by -- x\n' '".toList = .code 'b' :: .code 'y' :: ([' '].map .code ++
      .literal ⟨.lineComment, "-- x".toList, true⟩ :: (['\n'].map .code ++
        [.literal ⟨.string, "' '".toList, true⟩])) := by cbv
  have hblank : ∀ y : Text, y.all isBlank = true → ∀ c ∈ y, isBlank c = true :=
    fun _ => List.all_eq_true.1
  have hend : Respaced false [.literal ⟨.string, "' '".toList, true⟩]
      [.literal ⟨.string, "' '".toList, true⟩] := .keep rfl .nil
  rw [IsRespacing, hatoms]
  refine ⟨_, .keep rfl (.keep rfl (.run (y := ['\n', '\n']) (List.cons_ne_nil _ _)
    (List.cons_ne_nil _ _) (hblank _ rfl) (hblank _ rfl) (absurd · Bool.false_ne_true) (.keep rfl
      (.run (y := ['\r', '\t']) (List.cons_ne_nil _ _) (List.cons_ne_nil _ _) (hblank _ rfl)
        (hblank _ rfl) (by rintro - _ ⟨⟩; rfl) hend)))), by decide⟩

theorem formatText_of_code {s x : Text} (hscan : scan s = [⟨.code, x, true⟩]) : formatText o s =
    Text.trim (laidCode o (Clauses.ofWords o.clauseWords) false 0 x) := by
  have hlaid : ∀ k, laidAtoms o k none 0 [⟨.code, x, true⟩] =
      (laidCode o k false 0 x).map .code := fun _ => List.append_nil _
  have htrim : ∀ y : Text, trimAtoms (y.map .code) = (Text.trim y).map .code := by
    intro y
    unfold trimAtoms List.rdropWhile Text.trim Text.trimEnd Text.trimStart
    rw [List.dropWhile_map, ← List.map_reverse, List.dropWhile_map, ← List.map_reverse]
    rfl
  rw [formatText_eq_flatten, hscan, hlaid, htrim, Atom.flatten_map_code]

/-! ## The white space of a source -/

/-- The white space of a source does not change its layout : neither what stands in front of the
text, unless the text starts with a clause word that hides another, nor how long the runs in its
code are and what they are made of. -/
theorem formatText_eq_of_isRespacing (o : LayoutOptions) (s : Text) :
    (∀ w : Text, (∀ c ∈ w, isBlank c = true) → (s.head?.any isBlank = true ∨
        (Clauses.ofWords o.clauseWords).hidesWord (leadingCode o s) = false) →
      formatText o (w ++ s) = formatText o s) ∧
    ∀ t, IsRespacing s t → formatText o t = formatText o s :=
  ⟨fun _ => formatText_append, fun _ => formatText_of_isRespacing o⟩

theorem formatText_eq_of_isRespacing_groupBy :
    let o : LayoutOptions := ⟨.spaces, 4, ["GROUP BY".toList, "BY".toList], false⟩
    let s := "by -- x\n' '".toList
    let t := "by\n\n-- x\r\t' '".toList
    ((∀ c ∈ "\n\t".toList, isBlank c = true) ∧
      (Clauses.ofWords o.clauseWords).hidesWord (leadingCode o s) = false ∧
      formatText o ("\n\t".toList ++ s) = formatText o s) ∧
    IsRespacing s t ∧ formatText o t = formatText o s := by
  have hblank : ∀ c ∈ "\n\t".toList, isBlank c = true := List.all_eq_true.1 (by decide)
  have hhides : (Clauses.ofWords ["GROUP BY".toList, "BY".toList]).hidesWord
      (leadingCode ⟨.spaces, 4, ["GROUP BY".toList, "BY".toList], false⟩
        "by -- x\n' '".toList) = false := by
    have hcode : codeRun (atoms "by -- x\n' '".toList) = "by ".toList := by cbv
    rw [Clauses.hidesWord, leadingCode, hcode]
    simp only [lengthAt?_groupBy]
    decide +kernel
  have hboth := formatText_eq_of_isRespacing
    ⟨.spaces, 4, ["GROUP BY".toList, "BY".toList], false⟩ "by -- x\n' '".toList
  exact ⟨⟨hblank, hhides, hboth.1 _ hblank (Or.inr hhides)⟩, isRespacing_groupBy,
    hboth.2 _ isRespacing_groupBy⟩

/-- Where one clause word ends with another, a text that starts with it is laid out in one line
with white space in front of it and in two without. -/
theorem formatText_append_ne :
    let o : LayoutOptions := ⟨.spaces, 4, ["GROUP BY".toList, "BY".toList], false⟩
    (∀ c ∈ " ".toList, isBlank c = true) ∧
      formatText o (" ".toList ++ "GROUP BY".toList) ≠ formatText o "GROUP BY".toList := by
  have hspace : " ".toList = [' '] := by decide
  have hfirst : "GROUP BY".toList = ['G', 'R', 'O', 'U', 'P'] ++ [' ', 'B', 'Y'] := by decide
  have hlast : "BY".toList = ['B', 'Y'] := by decide
  have hat := lengthAt?_groupBy
  rw [hfirst, hlast] at hat ⊢
  rw [hspace]
  refine ⟨List.forall_mem_singleton.2 (by decide), ?_⟩
  rw [formatText_of_code (by cbv), formatText_of_code (by cbv)]
  dsimp only
  generalize Clauses.ofWords _ = k at hat ⊢
  have hgap : ∀ word, k.gap [' '] word [] = ['\n'] := fun word =>
    if_neg fun h => Option.some_ne_none _ h.1.symm
  have hstart : ∀ (c : Char) (x : Text), isBlank c = false →
      ∀ d ∈ (c :: x).head?, isBlank d = false := by
    rintro c x hc _ ⟨⟩
    exact hc
  have hone : k.breakLines (' ' :: ['G', 'R', 'O', 'U', 'P', ' ', 'B', 'Y']) =
      '\n' :: ['G', 'R', 'O', 'U', 'P', ' ', 'B', 'Y'] := by
    rw [breakLines_cons_of_lengthAt? (n := 8) (by decide) (hstart _ _ (by decide))
      (by rw [hat]; decide +kernel)]
    exact congrArg₂ (· ++ ·) (hgap _) (congrArg _ (breakLines_nil k))
  have htwo : k.breakLines (['G', 'R', 'O', 'U', 'P'] ++ [' ', 'B', 'Y']) =
      ['G', 'R', 'O', 'U', 'P'] ++ ['\n', 'B', 'Y'] := by
    have hword : ['G', 'R', 'O', 'U', 'P'].all (!isBlank ·) = true := by decide
    rw [breakLines_append (fun c hc => by simpa using List.all_eq_true.1 hword c hc),
      breakLines_cons_of_lengthAt? (n := 2) (by decide) (hstart _ _ (by decide))
        (by rw [hat]; decide +kernel)]
    exact congrArg (_ ++ ·) (congrArg₂ (· ++ ·) (hgap _) (congrArg _ (breakLines_nil k)))
  have hlaid : ∀ o x, breakCommas o 0 false [] (Text.collapse x) = x →
      laidCode o k false 0 x = k.breakLines x := fun _ _ hx => congrArg k.breakLines hx
  rw [hlaid _ _ (by decide), hlaid _ _ (by decide)]
  refine ne_of_eq_of_ne (congrArg Text.trim hone)
    (ne_of_ne_of_eq ?_ (congrArg Text.trim htwo).symm)
  decide

end SqlSnippet
