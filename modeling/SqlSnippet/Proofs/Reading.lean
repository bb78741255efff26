import Mathlib.Data.List.Chain
import SqlSnippet.Proofs.Grammar

/-!
# Readings

A list of regions is a *reading* if each region is grammatical before the ones that follow it
and code is not followed by code (`IsReading`). A scan finds a reading, and every reading is
found by scanning its text (`scan_eq_iff`), so a text can be scanned by exhibiting its regions.

With offsets the same reads as a grammar of the whole text (`IsPartition`) : the regions abut,
cover the text, and each has the shape of its kind. `scanPlaced_eq_iff` : the regions that a
scan finds, with their offsets, are the only ones that satisfy this grammar.
-/

namespace SqlSnippet

/-! ## Lists of regions -/

/-- A list of regions that a scan can find : none is empty, each is grammatical before what
follows it, and code is not followed by code. -/
def IsReading : List Region → Prop
  | [] => True
  | r :: rs => r.text ≠ [] ∧ r.Grammatical (Region.flatten rs).head? ∧
      (r.kind = .code → ∀ q ∈ rs.head?, q.kind ≠ .code) ∧ IsReading rs

theorem Region.flatten_append (rs qs : List Region) :
    Region.flatten (rs ++ qs) = Region.flatten rs ++ Region.flatten qs :=
  List.flatMap_append

theorem Region.flatten_cons (r : Region) (rs : List Region) :
    Region.flatten (r :: rs) = r.text ++ Region.flatten rs :=
  List.flatMap_cons

/-- The code of regions. -/
def Region.codeText (rs : List Region) : Text :=
  rs.flatMap fun r => if r.isProtected then [] else r.text

theorem Region.codeText_cons (r : Region) (rs : List Region) : Region.codeText (r :: rs) =
    (if r.isProtected then [] else r.text) ++ Region.codeText rs :=
  List.flatMap_cons

theorem isReading_scan (s : Text) : IsReading (scan s) := by
  fun_induction scan s with
  | case1 => trivial
  | case2 s hs ih =>
    refine ⟨taken_cutRegion_ne_nil hs, ?_, fun hk q hq => ?_, ih⟩
    · rw [flatten_scan]
      exact grammatical_cutRegion s
    · rw [cutRegion_of_code hk] at hq
      by_cases hrest : (cutCode s).rest = []
      · rw [hrest, scan_nil] at hq
        cases hq
      · rw [scan_of_ne_nil hrest, List.head?_cons, Option.mem_some_iff] at hq
        subst hq
        exact (codeText_cutCode s).2.1 hrest

theorem isReading_of_append {rs qs : List Region} (h : IsReading (rs ++ qs)) : IsReading qs := by
  induction rs with
  | nil => exact h
  | cons r rs ih => exact ih h.2.2.2

theorem openingKind_flatten {r : Region} {rs : List Region} (h : IsReading (r :: rs))
    (hp : r.isProtected = true) : openingKind (Region.flatten (r :: rs)) = r.kind := by
  rw [Region.flatten_cons]
  exact (cutRegion_append_of_isProtected hp h.2.1).1

theorem Region.isProtected_iff {r : Region} : r.isProtected = true ↔ r.kind ≠ .code := by
  unfold Region.isProtected
  cases r.kind <;> decide

theorem Region.kind_of_not_isProtected {r : Region} (h : ¬r.isProtected = true) :
    r.kind = .code :=
  not_not.1 (mt Region.isProtected_iff.2 h)

/-- The first region of a reading is cut off its text. -/
theorem cutRegion_flatten {r : Region} {rs : List Region} (h : IsReading (r :: rs)) :
    openingKind (Region.flatten (r :: rs)) = r.kind ∧
      cutRegion (Region.flatten (r :: rs)) = ⟨r.text, Region.flatten rs, r.terminated⟩ := by
  have ⟨hne, hg, hnext, hrs⟩ := h
  by_cases hp : r.isProtected = true
  · rw [Region.flatten_cons]
    exact cutRegion_append_of_isProtected hp hg
  · obtain ⟨kind, text, terminated⟩ := r
    obtain rfl : kind = .code := Region.kind_of_not_isProtected hp
    cases terminated with
    | false => exact hg.elim
    | true =>
      rw [Region.flatten_cons]
      refine cutRegion_append_of_code hne hg fun hrest => ?_
      cases rs with
      | nil => exact absurd rfl hrest
      | cons q rs =>
        have hq : q.kind ≠ .code := hnext rfl q rfl
        rw [openingKind_flatten hrs (Region.isProtected_iff.2 hq)]
        exact hq

theorem scan_flatten : ∀ {rs : List Region}, IsReading rs → scan (Region.flatten rs) = rs
  | [], _ => scan_nil
  | r :: rs, h => by
    have hne : Region.flatten (r :: rs) ≠ [] := by
      rw [Region.flatten_cons]
      exact List.append_ne_nil_of_left_ne_nil h.1 _
    obtain ⟨hk, hc⟩ := cutRegion_flatten h
    rw [scan_of_ne_nil hne, hk, hc, scan_flatten h.2.2.2]

/-- A text is scanned by exhibiting its regions. -/
theorem scan_eq_iff {s : Text} {rs : List Region} :
    scan s = rs ↔ Region.flatten rs = s ∧ IsReading rs := by
  constructor
  · rintro rfl
    exact ⟨flatten_scan s, isReading_scan s⟩
  · rintro ⟨rfl, h⟩
    exact scan_flatten h

theorem isReading_iff {rs : List Region} : IsReading rs ↔ (∀ r ∈ rs, r.text ≠ []) ∧
    (∀ as r bs, rs = as ++ r :: bs → r.Grammatical (Region.flatten bs).head?) ∧
      rs.IsChain fun r q => ¬(r.kind = .code ∧ q.kind = .code) := by
  induction rs with
  | nil => simp [IsReading]
  | cons r rs ih =>
    rw [IsReading, ih, List.isChain_cons]
    constructor
    · rintro ⟨hne, hg, hnext, hnes, hgs, hchain⟩
      refine ⟨List.forall_mem_cons.2 ⟨hne, hnes⟩, fun as q bs heq => ?_,
        fun q hq hk => hnext hk.1 q hq hk.2, hchain⟩
      cases as with
      | nil =>
        obtain ⟨rfl, rfl⟩ := List.cons.inj heq
        exact hg
      | cons a as => exact hgs as q bs (List.cons.inj heq).2
    · rintro ⟨hnes, hgs, hnext, hchain⟩
      refine ⟨(List.forall_mem_cons.1 hnes).1, hgs [] r rs rfl,
        fun hk q hq hk' => hnext q hq ⟨hk, hk'⟩, (List.forall_mem_cons.1 hnes).2,
        fun as q bs heq => hgs (r :: as) q bs (congrArg (r :: ·) heq), hchain⟩

/-! ## Places -/

/-- The regions `ps`, each with its offset, cut `s` into grammatical regions : they are not
empty, the first starts at 0, each starts where the one before it ends, the last ends with
`s`, and no two code regions are neighbours. -/
structure IsPartition (s : Text) (ps : List (Nat × Region)) : Prop where
  nonempty : ∀ p ∈ ps, p.2.text ≠ []
  slice : ∀ p ∈ ps, p.2.text <+: s.drop p.1
  starts : ∀ p ∈ ps.head?, p.1 = 0
  abut : ps.IsChain fun p q => p.1 + p.2.text.length = q.1
  ends : ∀ p ∈ ps.getLast?, p.1 + p.2.text.length = s.length
  empty : ps = [] → s = []
  apart : ps.IsChain fun p q => ¬(p.2.kind = .code ∧ q.2.kind = .code)
  grammatical : ∀ p ∈ ps, p.2.Grammatical s[p.1 + p.2.text.length]?

theorem Region.place_append (o : Nat) (rs qs : List Region) : Region.place o (rs ++ qs) =
    Region.place o rs ++ Region.place (o + (Region.flatten rs).length) qs := by
  induction rs generalizing o with
  | nil => rfl
  | cons r rs ih =>
    rw [List.cons_append, Region.place, ih, Region.place, Region.flatten_cons,
      List.length_append, Nat.add_assoc]
    rfl

theorem Region.getLast?_place_concat (o : Nat) (rs : List Region) (r : Region) :
    (Region.place o (rs ++ [r])).getLast? = some (o + (Region.flatten rs).length, r) := by
  rw [Region.place_append]
  exact List.getLast?_concat

theorem Region.length_flatten_concat (rs : List Region) (r : Region) :
    (Region.flatten (rs ++ [r])).length = (Region.flatten rs).length + r.text.length := by
  rw [Region.flatten_append, List.length_append, Region.flatten_cons]
  simp [Region.flatten]

theorem Region.map_snd_place (o : Nat) (rs : List Region) :
    (Region.place o rs).map Prod.snd = rs := by
  induction rs generalizing o with
  | nil => rfl
  | cons r rs ih => rw [Region.place, List.map_cons, ih]

/-- A placed region stands after the text of the regions before it. -/
theorem Region.mem_place {o : Nat} {rs : List Region} {p : Nat × Region} :
    p ∈ Region.place o rs ↔
      ∃ as bs, rs = as ++ p.2 :: bs ∧ p.1 = o + (Region.flatten as).length := by
  constructor
  · intro h
    obtain ⟨xs, ys, hxy⟩ := List.append_of_mem h
    have hrs : rs = xs.map Prod.snd ++ p.2 :: ys.map Prod.snd := by
      rw [← Region.map_snd_place o rs, hxy, List.map_append, List.map_cons]
    refine ⟨xs.map Prod.snd, ys.map Prod.snd, hrs, ?_⟩
    rw [hrs, Region.place_append, Region.place] at hxy
    have hlen : (Region.place o (xs.map Prod.snd)).length = xs.length := by
      rw [← List.length_map (f := Prod.snd), Region.map_snd_place, List.length_map]
    exact (congrArg Prod.fst (List.cons.inj (List.append_inj hxy hlen).2).1).symm
  · rintro ⟨as, bs, rfl, hp⟩
    rw [Region.place_append, Region.place, ← hp]
    exact List.mem_append_right _ (List.mem_cons_self ..)

theorem Region.isChain_place (o : Nat) (rs : List Region) :
    (Region.place o rs).IsChain fun p q => p.1 + p.2.text.length = q.1 := by
  induction rs generalizing o with
  | nil => exact .nil
  | cons r rs ih =>
    refine List.isChain_cons.2 ⟨fun q hq => ?_, ih _⟩
    cases rs with
    | nil => cases hq
    | cons r' rs =>
      rw [Region.place, List.head?_cons, Option.mem_some_iff] at hq
      rw [← hq]

theorem Region.place_map_snd {o : Nat} {ps : List (Nat × Region)} (hs : ∀ p ∈ ps.head?, p.1 = o)
    (h : ps.IsChain fun p q => p.1 + p.2.text.length = q.1) :
    Region.place o (ps.map Prod.snd) = ps := by
  induction ps generalizing o with
  | nil => rfl
  | cons p ps ih =>
    obtain ⟨hnext, hchain⟩ := List.isChain_cons.1 h
    obtain rfl : p.1 = o := hs p rfl
    rw [List.map_cons, Region.place, ih (fun q hq => (hnext q hq).symm) hchain]

/-- The text after the regions `as ++ [r]` of a text, looked up in it. -/
theorem getElem?_flatten (as : List Region) (r : Region) (bs : List Region) :
    (Region.flatten (as ++ r :: bs))[(Region.flatten as).length + r.text.length]? =
      (Region.flatten bs).head? := by
  rw [Region.flatten_append, Region.flatten_cons, ← List.append_assoc, ← List.length_append,
    List.getElem?_append_right (Nat.le_refl _), Nat.sub_self, List.head?_eq_getElem?]

/-- The regions of a reading, placed one after the other, cut their text. -/
theorem isPartition_place {rs : List Region} (h : IsReading rs) :
    IsPartition (Region.flatten rs) (Region.place 0 rs) := by
  obtain ⟨hne, hg, hchain⟩ := isReading_iff.1 h
  refine ⟨fun p hp => ?_, fun p hp => ?_, fun p hp => ?_, Region.isChain_place 0 rs,
    fun p hp => ?_, fun hp => ?_, ?_, fun p hp => ?_⟩
  · obtain ⟨as, bs, rfl, -⟩ := Region.mem_place.1 hp
    exact hne p.2 (by simp)
  · obtain ⟨as, bs, rfl, hstart⟩ := Region.mem_place.1 hp
    rw [hstart, Nat.zero_add, Region.flatten_append, List.drop_left, Region.flatten_cons]
    exact List.prefix_append _ _
  · cases rs with
    | nil => cases hp
    | cons r rs =>
      rw [Region.place, List.head?_cons, Option.mem_some_iff] at hp
      rw [← hp]
  · rcases List.eq_nil_or_concat' rs with rfl | ⟨as, r, rfl⟩
    · cases hp
    · rw [Region.getLast?_place_concat, Option.mem_some_iff] at hp
      rw [← hp, Region.length_flatten_concat, Nat.zero_add]
  · cases rs with
    | nil => rfl
    | cons r rs => cases hp
  · rw [← Region.map_snd_place 0 rs, List.isChain_map] at hchain
    exact hchain
  · obtain ⟨as, bs, hrs, hstart⟩ := Region.mem_place.1 hp
    rw [hstart, Nat.zero_add, hrs, getElem?_flatten]
    exact hg as p.2 bs hrs

theorem flatten_prefix_of_slices {s : Text} : ∀ {rs : List Region} {o : Nat},
    (∀ p ∈ Region.place o rs, p.2.text <+: s.drop p.1) → Region.flatten rs <+: s.drop o
  | [], _, _ => List.nil_prefix
  | r :: rs, o, h => by
    obtain ⟨hr, hrs⟩ := List.forall_mem_cons.1 h
    obtain ⟨t, ht⟩ := hr
    have ih := flatten_prefix_of_slices hrs
    rw [← List.drop_drop, ← ht, List.drop_left] at ih
    rw [Region.flatten_cons]
    change r.text ++ _ <+: s.drop o
    rw [← ht]
    exact (List.prefix_append_right_inj _).2 ih

/-- Placed regions that satisfy the grammar are a reading of the text. -/
theorem isReading_of_isPartition {s : Text} {ps : List (Nat × Region)} (h : IsPartition s ps) :
    ∃ rs, ps = Region.place 0 rs ∧ Region.flatten rs = s ∧ IsReading rs := by
  have hps : Region.place 0 (ps.map Prod.snd) = ps := Region.place_map_snd h.starts h.abut
  set rs := ps.map Prod.snd with hrs
  have hflat : Region.flatten rs = s := by
    have hprefix : Region.flatten rs <+: s := by
      have hslice : ∀ p ∈ Region.place 0 rs, p.2.text <+: s.drop p.1 := hps ▸ h.slice
      exact flatten_prefix_of_slices hslice
    refine hprefix.eq_of_length ?_
    rcases List.eq_nil_or_concat' rs with hnil | ⟨as, r, heq⟩
    · rw [h.empty (by rw [← hps, hnil]; rfl), hnil]
      rfl
    · have hlast := h.ends (0 + (Region.flatten as).length, r) (by
        rw [← hps, heq, Region.getLast?_place_concat]
        rfl)
      rw [heq, Region.length_flatten_concat, ← hlast, Nat.zero_add]
  refine ⟨rs, hps.symm, hflat, isReading_iff.2 ⟨fun r hr => ?_, fun as r bs heq => ?_, ?_⟩⟩
  · obtain ⟨p, hp, rfl⟩ := List.mem_map.1 hr
    exact h.nonempty p hp
  · have hp : ((Region.flatten as).length, r) ∈ ps := by
      rw [← hps]
      exact Region.mem_place.2 ⟨as, bs, heq, (Nat.zero_add _).symm⟩
    have hg := h.grammatical _ hp
    rwa [← hflat, heq, getElem?_flatten] at hg
  · rw [hrs, List.isChain_map]
    exact h.apart

/-- The regions that a scan finds, with their offsets, are the only ones that satisfy the
grammar. -/
theorem scanPlaced_eq_iff (s : Text) (ps : List (Nat × Region)) :
    scanPlaced s = ps ↔ IsPartition s ps := by
  constructor
  · rintro rfl
    have h := isPartition_place (isReading_scan s)
    rwa [flatten_scan] at h
  · intro h
    obtain ⟨rs, rfl, rfl, hrs⟩ := isReading_of_isPartition h
    rw [scanPlaced, scan_flatten hrs]

end SqlSnippet
