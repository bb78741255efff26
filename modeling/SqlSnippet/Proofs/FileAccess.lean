import SqlSnippet.Files.Tree

/-!
# Access to files

A path is written so that reading it gives the path back (`Path.ofText_toText`). Where a path leads
depends on which places hold directories and which hold files, but not on what is in the files. So
once a file that a path leads to is written, the path leads to the new bytes (`FileTree.find?_put`).
A file can be written where no directory is and nothing denies it (`FileTree.exists_of_writeText`),
and then the path leads to it (`FileTree.follow_put`).
-/

namespace SqlSnippet

/-! ## Paths -/

namespace Path

/-- The path has no more slashes at its start than are told apart, and its names are names. -/
structure IsNormal (p : Path) : Prop where
  slashes : p.slashes ≤ 2
  names : ∀ n ∈ p.names, isName n = true ∧ '/' ∉ n

theorem isNormal_ofText (s : Text) : (ofText s).IsNormal where
  slashes := by
    change keptSlashes s ≤ 2
    unfold keptSlashes
    split <;> decide
  names n hn := by
    obtain ⟨hmem, hname⟩ := List.mem_filter.1 hn
    exact ⟨hname, Text.not_mem_of_mem_parts hmem⟩

theorem filter_parts_slashes (k : Nat) (s : Text) :
    (Text.parts '/' (List.replicate k '/' ++ s)).filter isName =
      (Text.parts '/' s).filter isName := by
  induction k with
  | zero => rfl
  | succ k ih =>
    rw [List.replicate_succ, List.cons_append, Text.parts, if_pos rfl,
      List.filter_cons_of_neg (by decide), ih]

theorem keptSlashes_append {k : Nat} (hk : k ≤ 2) {s : Text} (hs : s.head? ≠ some '/') :
    keptSlashes (List.replicate k '/' ++ s) = k := by
  have hrun : (List.replicate k '/' ++ s).takeWhile (· == '/') = List.replicate k '/' := by
    rw [List.takeWhile_append_of_pos fun c hc => beq_iff_eq.2 (List.mem_replicate.1 hc).2]
    cases s with
    | nil => simp
    | cons c s =>
      have hc : ¬(c == '/') = true := fun h => hs (congrArg some (beq_iff_eq.1 h))
      rw [List.takeWhile_cons, if_neg hc, List.append_nil]
  rw [keptSlashes, hrun, List.length_replicate]
  match k, hk with
  | 0, _ => rfl
  | 1, _ => rfl
  | 2, _ => rfl

/-- A path in normal form is written so that it can be read. -/
theorem ofText_toText {p : Path} (h : p.IsNormal) : ofText p.toText = p := by
  obtain ⟨k, ns⟩ := p
  obtain ⟨hk, hns⟩ := h
  dsimp only at hk hns
  unfold toText
  split
  · next hpoint =>
    obtain ⟨rfl, rfl⟩ : k = 0 ∧ ns = [] := hpoint
    rfl
  · rw [ofText, Path.mk.injEq]
    have hhead : (List.intercalate ['/'] ns).head? ≠ some '/' := by
      cases ns with
      | nil => nofun
      | cons n ns =>
        obtain ⟨hname, hslash⟩ := hns n List.mem_cons_self
        obtain ⟨c, n, rfl⟩ := List.exists_cons_of_ne_nil (l := n) (by rintro rfl; cases hname)
        have hcons : (List.intercalate ['/'] ((c :: n) :: ns)).head? = some c := by
          cases ns with
          | nil => rfl
          | cons m ms => rw [List.intercalate_cons_cons]; rfl
        rw [hcons]
        rintro ⟨⟩
        exact hslash List.mem_cons_self
    refine ⟨keptSlashes_append hk hhead, ?_⟩
    rw [filter_parts_slashes]
    by_cases hnil : ns = []
    · rw [hnil]
      rfl
    · rw [Text.parts_intercalate hnil fun n hn => (hns n hn).2]
      exact List.filter_eq_self.2 fun n hn => (hns n hn).1

end Path

/-! ## Where paths lead -/

namespace FileTree

variable {t : FileTree} {here place : Place} {p : Path} {bytes : List UInt8}

/-- Two trees have directories at the same places and files at the same places, and deny the same
accesses. -/
structure SameShape (t u : FileTree) : Prop where
  entries : ∀ q, t.get? q = u.get? q ∨
    (∃ b, t.get? q = some (.file b)) ∧ ∃ b, u.get? q = some (.file b)
  denials : t.denials = u.denials

theorem SameShape.refl (t : FileTree) : t.SameShape t :=
  ⟨fun _ => Or.inl rfl, rfl⟩

theorem SameShape.trans {u v : FileTree} (h : t.SameShape u) (h' : u.SameShape v) :
    t.SameShape v := by
  refine ⟨fun q => ?_, h.denials.trans h'.denials⟩
  rcases h.entries q with heq | ⟨ht, hu⟩
  · rw [heq]
    exact h'.entries q
  · rcases h'.entries q with heq | ⟨-, hv⟩
    · exact Or.inr ⟨ht, heq ▸ hu⟩
    · exact Or.inr ⟨ht, hv⟩

theorem SameShape.isDenied {u : FileTree} (h : t.SameShape u) (a : Access) (q : Place) :
    t.isDenied a q = u.isDenied a q := by
  rw [FileTree.isDenied, FileTree.isDenied, h.denials]

/-- What is in files makes no difference to where names lead. -/
theorem walk_congr {u : FileTree} (h : t.SameShape u) (start : Place) (ns : List Text) :
    t.walk start ns = u.walk start ns := by
  induction ns generalizing start with
  | nil => rfl
  | cons n ns ih =>
    rw [walk, walk]
    rcases h.entries start with heq | ⟨⟨b, hb⟩, b', hb'⟩
    · rw [heq, ih, ih]
    · rw [hb, hb']

theorem ne_nil_of_get?_eq_file (h : t.get? place = some (.file bytes)) : place ≠ [] := by
  rintro rfl
  cases h

theorem sameShape_put (h : t.get? place = some (.file bytes)) (bytes' : List UInt8) :
    (t.put place (.file bytes')).SameShape t := by
  refine ⟨fun q => ?_, rfl⟩
  rw [get?_put t _ (ne_nil_of_get?_eq_file h)]
  by_cases hq : q = place
  · rw [if_pos hq, hq]
    exact Or.inr ⟨⟨_, rfl⟩, _, h⟩
  · rw [if_neg hq]
    exact Or.inl rfl

theorem follow_congr {u : FileTree} (h : t.SameShape u) (here : Place) (p : Path) :
    t.follow here p = u.follow here p := by
  rw [follow, follow, walk_congr h]

theorem find_eq_ok_iff {e : Entry} : t.find here p = .ok (place, e) ↔
    t.follow here p = .ok place ∧ t.get? place = some e := by
  unfold find
  cases t.follow here p with
  | error c => simp
  | ok q =>
    dsimp only
    rw [Except.ok.injEq]
    constructor
    · intro h
      cases hget : t.get? q with
      | none =>
        rw [hget] at h
        cases h
      | some f =>
        rw [hget] at h
        cases h
        exact ⟨rfl, hget⟩
    · rintro ⟨rfl, hget⟩
      rw [hget]

theorem find?_eq_some_iff {e : Entry} : t.find? here p = .ok (some (place, e)) ↔
    p.hasNull = false ∧ t.find here p = .ok (place, e) := by
  unfold find?
  cases p.hasNull with
  | true => simp
  | false =>
    rw [if_neg Bool.false_ne_true]
    cases t.find here p with
    | ok x => simp
    | error c => cases c <;> simp

theorem find?_eq_ok_iff {e : Entry} : t.find? here p = .ok (some (place, e)) ↔
    p.hasNull = false ∧ t.follow here p = .ok place ∧ t.get? place = some e := by
  rw [find?_eq_some_iff, find_eq_ok_iff]

/-- A path that leads to a file leads to the bytes that are put there. -/
theorem find?_put (h : t.find? here p = .ok (some (place, .file bytes))) (bytes' : List UInt8) :
    (t.put place (.file bytes')).find? here p = .ok (some (place, .file bytes')) := by
  obtain ⟨hnull, hfollow, hget⟩ := find?_eq_ok_iff.1 h
  refine find?_eq_ok_iff.2 ⟨hnull, ?_, ?_⟩
  · rw [follow_congr (sameShape_put hget bytes'), hfollow]
  · rw [get?_put t _ (ne_nil_of_get?_eq_file hget), if_pos rfl]

theorem readBytes_of_find? (h : t.find? here p = .ok (some (place, .file bytes))) :
    t.readBytes here p =
      if t.isDenied .reading place then .error (.file .denied p.toText) else .ok bytes := by
  obtain ⟨hnull, hfind⟩ := find?_eq_some_iff.1 h
  rw [readBytes, if_neg (Bool.eq_false_iff.1 hnull), hfind]

theorem readBytes_of_not_denied (h : t.find? here p = .ok (some (place, .file bytes)))
    (hreadable : t.isDenied .reading place = false) : t.readBytes here p = .ok bytes := by
  rw [readBytes_of_find? h, if_neg (Bool.eq_false_iff.1 hreadable)]

theorem readText_of_find? (h : t.find? here p = .ok (some (place, .file bytes))) :
    t.readText here p =
      if t.isDenied .reading place then .error (.file .denied p.toText)
      else textOfBytes bytes := by
  rw [readText, readBytes_of_find? h]
  cases t.isDenied .reading place <;> rfl

theorem readText_of_not_denied (h : t.find? here p = .ok (some (place, .file bytes)))
    (hreadable : t.isDenied .reading place = false) : t.readText here p = textOfBytes bytes := by
  rw [readText_of_find? h, if_neg (Bool.eq_false_iff.1 hreadable)]

theorem writeText_of_find? (h : t.find? here p = .ok (some (place, .file bytes))) (s : Text) :
    t.writeText here p s =
      if t.isDenied .writing place then .error (.file .denied p.toText)
      else .ok (t.put place (.file (Utf8.encode s))) := by
  obtain ⟨hnull, hfollow, hget⟩ := find?_eq_ok_iff.1 h
  rw [writeText, if_neg (Bool.eq_false_iff.1 hnull), hfollow]
  dsimp only
  rw [hget]

/-! ## Files that are written -/

theorem ne_nil_of_get?_ne_directory (h : t.get? place ≠ some .directory) : place ≠ [] := by
  rintro rfl
  exact h rfl

/-- Names that lead to a place that is no directory lead there whatever is put there. -/
theorem walk_put (hplace : t.get? place ≠ some .directory) (e : Entry) {start : Place}
    {ns : List Text} (h : t.walk start ns = .ok place) :
    (t.put place e).walk start ns = .ok place := by
  induction ns generalizing start with
  | nil => exact h
  | cons n ns ih =>
    rw [walk] at h ⊢
    cases hget : t.get? start with
    | none =>
      rw [hget] at h
      cases h
    | some e' =>
      cases e' with
      | file bytes =>
        rw [hget] at h
        cases h
      | directory =>
        have hstart : start ≠ place := fun heq => hplace (heq ▸ hget)
        rw [hget] at h
        rw [get?_put t e (ne_nil_of_get?_ne_directory hplace), if_neg hstart, hget]
        dsimp only at h ⊢
        split at h
        · next hup =>
          rw [if_pos hup]
          exact ih h
        · next hup =>
          split at h
          · cases h
          · next hshort =>
            rw [if_neg hup, if_neg hshort]
            exact ih h

theorem follow_put (hplace : t.get? place ≠ some .directory) (e : Entry)
    (h : t.follow here p = .ok place) : (t.put place e).follow here p = .ok place := by
  unfold follow at h ⊢
  split at h
  · cases h
  · next hshort =>
    rw [if_neg hshort]
    exact walk_put hplace e h

/-- A file is written where its path leads, unless that is a directory or it is denied. -/
theorem exists_of_writeText {s : Text} {u : FileTree} (h : t.writeText here p s = .ok u) :
    p.hasNull = false ∧ ∃ place, t.follow here p = .ok place ∧ t.get? place ≠ some .directory ∧
      t.isDenied .writing place = false ∧ u = t.put place (.file (Utf8.encode s)) := by
  unfold writeText at h
  split at h
  · cases h
  next hnull =>
  refine ⟨Bool.eq_false_iff.2 hnull, ?_⟩
  cases hfollow : t.follow here p with
  | error cause =>
    rw [hfollow] at h
    cases h
  | ok place =>
    rw [hfollow] at h
    dsimp only at h
    split at h
    · cases h
    · next hplace =>
      split at h
      · cases h
      · next hallowed =>
        exact ⟨place, rfl, hplace, Bool.eq_false_iff.2 hallowed, (Except.ok.inj h).symm⟩

/-- Whether a file can be written does not depend on the text. -/
theorem writeText_eq_error_congr {f : Fault} {s : Text} (h : t.writeText here p s = .error f)
    (s' : Text) : t.writeText here p s' = .error f := by
  unfold writeText at h ⊢
  split
  · next hnull => rwa [if_pos hnull] at h
  next hnull =>
  rw [if_neg hnull] at h
  cases hfollow : t.follow here p with
  | error cause => rwa [hfollow] at h
  | ok place =>
    rw [hfollow] at h
    dsimp only at h ⊢
    split at h
    · exact h
    · split at h
      · next hdenied =>
        rw [if_pos hdenied]
        exact h
      · cases h

theorem exists_writeText_congr {s : Text} {u : FileTree} (h : t.writeText here p s = .ok u)
    (s' : Text) : ∃ u', t.writeText here p s' = .ok u' := by
  cases h' : t.writeText here p s' with
  | ok u' => exact ⟨u', rfl⟩
  | error f => cases h.symm.trans (writeText_eq_error_congr h' s)

end FileTree

end SqlSnippet
