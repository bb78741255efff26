import SqlSnippet.Proofs.Reading
import SqlSnippet.Source.Cursor

/-!
# Scanning by a cursor

A cursor looks for marks in the whole of its source, from its place on. At a place within the source
it so finds the region that the rest of the source opens with (`Cursor.opening_eq`) and moves over
what is cut off that (`Cursor.pass_eq`). Code that it has moved over since the last region is the
span before the next one (`map_ofPlaced_drop`), which carries the induction over the places of the
source (`Cursor.spansFrom_eq`). So wherever it stands, a cursor scans the regions of its source
(`Cursor.spans_eq`, `Cursor.scan_eq`).
-/

namespace SqlSnippet

/-! ## Marks in a text -/

/-- A block comment ends with the first closing mark. -/
theorem cutBlockComment_eq (s : Text) : cutBlockComment s =
    match Text.cut? ['*', '/'] s with
    | none => ⟨s, [], false⟩
    | some (before, rest) => ⟨before ++ ['*', '/'], rest.drop 2, true⟩ := by
  induction s with
  | nil => rfl
  | cons c r ih =>
    rw [Text.cut?]
    by_cases hmark : ['*', '/'] <+: c :: r
    · obtain ⟨t, ht⟩ := hmark
      rw [← ht]
      rfl
    · rw [if_neg (mt List.isPrefixOf_iff_prefix.1 hmark),
        cutBlockComment_cons (mt pair_prefix_cons.2 hmark), ih]
      cases Text.cut? ['*', '/'] r <;> rfl

/-- A string is read from quote to quote, as far as these are doubled. -/
theorem cutString_eq (s : Text) : cutString s =
    match Text.cut? ['\''] s with
    | none => ⟨s, [], false⟩
    | some (before, rest) =>
      if ['\'', '\''].isPrefixOf rest then (cutString (rest.drop 2)).push (before ++ ['\'', '\''])
      else ⟨before ++ ['\''], rest.drop 1, true⟩ := by
  induction s with
  | nil => rfl
  | cons c r ih =>
    rw [Text.cut?]
    by_cases hc : c = '\''
    · subst hc
      have hmark : ['\''].isPrefixOf ('\'' :: r) = true := List.isPrefixOf_iff_prefix.2 ⟨r, rfl⟩
      rw [if_pos hmark]
      dsimp only
      split
      · next hquotes =>
        obtain ⟨t, ht⟩ := List.isPrefixOf_iff_prefix.1 hquotes
        obtain rfl := (List.cons.inj ht).2
        rfl
      · next hquotes =>
        refine cutString_quote fun hquote => hquotes (List.isPrefixOf_iff_prefix.2 ?_)
        exact pair_prefix_cons.2 ⟨rfl, hquote⟩
    · have hmark : ¬['\''].isPrefixOf (c :: r) = true := fun h =>
        hc (List.cons_prefix_cons.1 (List.isPrefixOf_iff_prefix.1 h)).1.symm
      rw [if_neg hmark, cutString_cons hc, ih]
      cases Text.cut? ['\''] r with
      | none => rfl
      | some cut =>
        dsimp only [Option.map_some]
        split <;> rfl

/-! ## One region -/

theorem openingKind_eq_ite (s : Text) : openingKind s =
    if s[0]? = some '/' ∧ s[1]? = some '*' then .blockComment
    else if s[0]? = some '-' ∧ s[1]? = some '-' then .lineComment
    else if s[0]? = some '\'' then .string
    else .code := by
  unfold openingKind
  split
  · simp
  · simp
  · simp
  · next hblock hline hstring =>
    have hpair : ∀ a b, s[0]? = some a ∧ s[1]? = some b → ∃ r, s = a :: b :: r := by
      rcases s with _ | ⟨c, _ | ⟨d, r⟩⟩ <;> simp
    rw [if_neg fun h => (hpair _ _ h).elim hblock, if_neg fun h => (hpair _ _ h).elim hline,
      if_neg fun h => (List.head?_eq_some_iff.1 (List.head?_eq_getElem?.trans h)).elim hstring]

section Places

variable {k : Cursor} {n : Nat}

theorem Cursor.peek_eq_iff (hk : k.place = n) (d : Nat) (c : Char) :
    k.peek d = .character c ↔ (k.source.drop n)[d]? = some c := by
  have hplace : k.place + d = (n + d : Nat) := by omega
  unfold Cursor.peek
  dsimp only
  rw [hplace, if_neg (by omega), if_neg (by omega), if_neg (by omega), Int.toNat_natCast,
    List.getElem?_drop]
  cases k.source[n + d]? <;> simp

/-- The region that opens is that of the rest of the source. -/
theorem Cursor.opening_eq (hk : k.place = n) : k.opening = openingKind (k.source.drop n) := by
  have h0 : ∀ c, k.peek 0 = .character c ↔ (k.source.drop n)[0]? = some c :=
    Cursor.peek_eq_iff hk 0
  have h1 : ∀ c, k.peek 1 = .character c ↔ (k.source.drop n)[1]? = some c :=
    Cursor.peek_eq_iff hk 1
  rw [openingKind_eq_ite, Cursor.opening]
  simp only [h0, h1]

theorem Text.find?_eq {mark s : Text} (hn : n ≤ s.length) : Text.find? mark s n =
    (Text.cut? mark (s.drop n)).map fun (before, _) => n + before.length := by
  unfold Text.find?
  rw [Text.bound_of_le hn]

/-- Where a mark is found, the text is cut. -/
theorem Text.exists_of_find? {mark s : Text} {p : Nat} (hn : n ≤ s.length)
    (h : Text.find? mark s n = some p) :
    ∃ before rest, Text.cut? mark (s.drop n) = some (before, rest) ∧
      p = n + before.length ∧ s.drop p = rest := by
  rw [Text.find?_eq hn] at h
  obtain ⟨⟨before, rest⟩, hcut, hp⟩ := Option.map_eq_some_iff.1 h
  obtain rfl : p = n + before.length := hp.symm
  refine ⟨before, rest, hcut, rfl, ?_⟩
  rw [← List.drop_drop, ← Text.append_of_cut? hcut, List.drop_left]

theorem Text.standsAt_eq {mark s : Text} (hn : n ≤ s.length) :
    Text.standsAt mark s n = mark.isPrefixOf (s.drop n) := by
  unfold Text.standsAt
  rw [Text.bound_of_le hn]

theorem Cursor.passBlockComment_eq (hk : k.place = n) (hn : n + 2 ≤ k.source.length) :
    k.passBlockComment = ((cutBlockComment (k.source.drop (n + 2))).closed,
      k.seek (n + 2 + (cutBlockComment (k.source.drop (n + 2))).taken.length : Nat)) := by
  have hplace : k.place + 2 = (n + 2 : Nat) := by omega
  unfold Cursor.passBlockComment
  rw [hplace, Text.find?_eq hn, cutBlockComment_eq]
  cases hcut : Text.cut? ['*', '/'] (k.source.drop (n + 2)) with
  | none =>
    dsimp only [Option.map_none]
    rw [List.length_drop, Nat.add_sub_cancel' hn]
  | some cut =>
    refine Prod.ext rfl (congrArg k.seek ?_)
    dsimp only
    rw [List.length_append]
    rfl

theorem Cursor.seek_of_place (hk : k.place = n) : k.seek n = k := by
  rw [← hk, Cursor.seek_place]

theorem Cursor.drop_of_peek (hk : k.place = n) {c : Char} (h : k.peek 0 = .character c) :
    k.source.drop n = c :: k.source.drop (n + 1) := by
  have hget : (k.source.drop n)[0]? = some c := (Cursor.peek_eq_iff hk 0 c).1 h
  rw [← List.head?_eq_getElem?] at hget
  obtain ⟨r, hr⟩ := List.head?_eq_some_iff.1 hget
  rw [← List.drop_drop, hr, List.drop_one, List.tail_cons]

theorem Cursor.passLine_eq (hk : k.place = n) :
    k.passLine = k.seek (n + (cutLine (k.source.drop n)).taken.length : Nat) := by
  fun_induction Cursor.passLine k generalizing n with
  | case1 k c h hc =>
    rw [cutLine, Cursor.drop_of_peek hk h, List.takeWhile_cons, hc]
    exact (Cursor.seek_of_place hk).symm
  | case2 k c h hc ih =>
    have hnext : (k.move 1).place = (n + 1 : Nat) := congrArg (· + 1) hk
    rw [ih hnext, cutLine, cutLine, Cursor.drop_of_peek hk h, List.takeWhile_cons,
      Bool.eq_false_iff.2 hc]
    refine congrArg k.seek (congrArg Int.ofNat ?_)
    exact Nat.add_right_comm n 1 _
  | case3 k h =>
    have hnil : k.source.drop n = [] := by
      cases hs : k.source.drop n with
      | nil => rfl
      | cons c r => exact (h c ((Cursor.peek_eq_iff hk 0 c).2 (by rw [hs]; rfl))).elim
    rw [hnil]
    exact (Cursor.seek_of_place hk).symm

theorem Cursor.passString_eq (hk : k.place = n) (hn : n ≤ k.source.length) :
    k.passString = ((cutString (k.source.drop n)).closed,
      k.seek (n + (cutString (k.source.drop n)).taken.length : Nat)) := by
  fun_induction Cursor.passString k generalizing n with
  | case1 k h =>
    rw [hk, Text.find?_eq hn, Option.map_eq_none_iff] at h
    rw [cutString_eq, h]
    dsimp only
    rw [List.length_drop, Nat.add_sub_cancel' hn]
  | case2 k quote h hquote ih =>
    have hle := Nat.le_of_lt (Text.lt_of_find? (List.cons_ne_nil _ _) h).2
    have hnext := Text.le_of_standsAt hquote hle
    rw [hk] at h
    obtain ⟨before, rest, hcut, rfl, hrest⟩ := Text.exists_of_find? hn h
    rw [Text.standsAt_eq hle, hrest] at hquote
    rw [ih (n := n + before.length + 2) rfl hnext, cutString_eq (k.source.drop n), hcut]
    dsimp only
    rw [if_pos hquote, ← hrest, List.drop_drop]
    refine Prod.ext rfl (congrArg k.seek (congrArg Int.ofNat ?_))
    simp only [Cut.taken_push, List.length_append, List.length_cons, List.length_nil,
      Cursor.source_seek]
    omega
  | case3 k quote h hquote =>
    have hle := Nat.le_of_lt (Text.lt_of_find? (List.cons_ne_nil _ _) h).2
    rw [hk] at h
    obtain ⟨before, rest, hcut, rfl, hrest⟩ := Text.exists_of_find? hn h
    rw [Text.standsAt_eq hle, hrest] at hquote
    rw [cutString_eq, hcut]
    dsimp only
    rw [if_neg hquote]
    dsimp only
    rw [List.length_append]
    rfl

/-- What comes behind an opening mark of `d` characters, and how far that is. -/
theorem Text.drop_of_drop_eq_append (a : Text) (d : Nat) {s r : Text} (hn : n ≤ s.length)
    (ha : a.length = d) (h : s.drop n = a ++ r) : s.drop (n + d) = r ∧ n + d ≤ s.length ∧
      ∀ t : Text, n + d + t.length = n + (a ++ t).length := by
  subst ha
  have hlength := congrArg List.length h
  rw [List.length_drop, List.length_append] at hlength
  refine ⟨by rw [← List.drop_drop, h, List.drop_left], by omega, fun t => ?_⟩
  rw [List.length_append, Nat.add_assoc]

/-- A move over a region reads it off the rest of the source. -/
theorem Cursor.pass_eq (hk : k.place = n) (hn : n ≤ k.source.length) (hkind : k.opening ≠ .code) :
    k.pass k.opening = ((cutRegion (k.source.drop n)).closed,
      k.seek (n + (cutRegion (k.source.drop n)).taken.length : Nat)) := by
  have hmove : ∀ d : Nat, (k.move d).place = (n + d : Nat) := fun d => congrArg (· + (d : Int)) hk
  rw [Cursor.opening_eq hk] at hkind ⊢
  rcases openingKind_cases (k.source.drop n) with ⟨r, hr⟩ | ⟨r, hr⟩ | ⟨r, hr⟩ | hcode
  · obtain ⟨hrest, hle, hlength⟩ := Text.drop_of_drop_eq_append ['/', '*'] 2 hn rfl hr
    have hpass := Cursor.passBlockComment_eq hk hle
    rw [hrest] at hpass
    rw [hr]
    exact hpass.trans (congrArg (fun p : Nat => (_, k.seek p)) (hlength _))
  · obtain ⟨hrest, -, hlength⟩ := Text.drop_of_drop_eq_append ['-', '-'] 2 hn rfl hr
    have hpass := Cursor.passLine_eq (hmove 2)
    rw [Cursor.move, Cursor.source_seek, hrest] at hpass
    rw [hr]
    exact congrArg (Prod.mk true) (hpass.trans (congrArg (fun p : Nat => k.seek p) (hlength _)))
  · obtain ⟨hrest, hle, hlength⟩ := Text.drop_of_drop_eq_append ['\''] 1 hn rfl hr
    have hpass := Cursor.passString_eq (hmove 1) hle
    rw [Cursor.move, Cursor.source_seek, hrest] at hpass
    rw [hr]
    exact hpass.trans (congrArg (fun p : Nat => (_, k.seek p)) (hlength _))
  · exact absurd hcode hkind

end Places

/-! ## All regions -/

/-- The span of a region at its place. -/
def Span.ofPlaced (p : Nat × Region) : Span :=
  ⟨p.2.kind, p.1, p.1 + p.2.text.length, p.2.terminated⟩

section Code

variable {s : Text} {n : Nat}

/-- Code is read to the first place where another region opens. -/
theorem cutCode_drop (hn : n ≤ s.length) (hstop : n < s.length → openingKind (s.drop n) ≠ .code)
    (d : Nat) {m : Nat} (hm : m + d = n)
    (hcode : ∀ j, m ≤ j → j < n → openingKind (s.drop j) = .code) :
    cutCode (s.drop m) = ⟨(s.drop m).take d, s.drop n, true⟩ := by
  induction d generalizing m with
  | zero =>
    obtain rfl : m = n := hm
    cases hs : s.drop m with
    | nil => rfl
    | cons c r =>
      have hlt : m < s.length := by
        by_contra hle
        rw [List.drop_of_length_le (Nat.le_of_not_lt hle)] at hs
        cases hs
      rw [cutCode, if_neg (hs ▸ hstop hlt)]
      rfl
  | succ d ih =>
    have hlt : m < s.length := by omega
    have hopens := hcode m (Nat.le_refl m) (by omega)
    rw [List.drop_eq_getElem_cons hlt] at hopens ⊢
    rw [cutCode, if_pos hopens, ih (by omega) fun j hj => hcode j (by omega)]
    rfl

/-- Code before the place where another region opens, or the text ends, is one span. -/
theorem map_ofPlaced_drop (hn : n ≤ s.length)
    (hstop : n < s.length → openingKind (s.drop n) ≠ .code) {m : Nat} (hm : m ≤ n)
    (hcode : ∀ j, m ≤ j → j < n → openingKind (s.drop j) = .code) :
    (Region.place m (scan (s.drop m))).map Span.ofPlaced =
      Span.ofCode m n ++ (Region.place n (scan (s.drop n))).map Span.ofPlaced := by
  unfold Span.ofCode
  rcases Nat.eq_or_lt_of_le hm with rfl | hlt
  · rw [if_neg (Int.lt_irrefl _), List.nil_append]
  · have hopens := hcode m (Nat.le_refl m) hlt
    have hne : s.drop m ≠ [] := List.ne_nil_of_length_pos (by rw [List.length_drop]; omega)
    have hlength : m + ((s.drop m).take (n - m)).length = n := by
      rw [List.length_take, List.length_drop]
      omega
    rw [if_pos (Int.ofNat_lt.2 hlt), scan_of_ne_nil hne, cutRegion_of_code hopens,
      cutCode_drop hn hstop (n - m) (Nat.add_sub_cancel' hm) hcode, hopens, Region.place,
      List.map_cons, Span.ofPlaced]
    dsimp only
    rw [← Int.natCast_add, hlength]
    rfl

/-- Behind a region is what is left of the text. -/
theorem drop_add_length_cutRegion (s : Text) (n : Nat) :
    s.drop (n + (cutRegion (s.drop n)).taken.length) = (cutRegion (s.drop n)).rest := by
  rw [← List.drop_drop]
  exact (congrArg (List.drop _) (taken_append_rest_cutRegion (s.drop n)).symm).trans
    List.drop_left

theorem add_length_cutRegion_le (hn : n ≤ s.length) :
    n + (cutRegion (s.drop n)).taken.length ≤ s.length := by
  have hlength := congrArg List.length (taken_append_rest_cutRegion (s.drop n))
  rw [List.length_append, List.length_drop] at hlength
  omega

end Code

/-- A cursor scans the regions of its source from `start` on, where nothing but code opens between
that and its place. -/
theorem Cursor.spansFrom_eq (k : Cursor) {start : Int} {m n : Nat} (hstart : start = m)
    (hk : k.place = n) (hm : m ≤ n) (hn : n ≤ k.source.length)
    (hcode : ∀ j, m ≤ j → j < n → openingKind (k.source.drop j) = .code) :
    k.spansFrom start = ((Region.place m (SqlSnippet.scan (k.source.drop m))).map Span.ofPlaced,
      k.seek k.source.length) := by
  fun_induction Cursor.spansFrom k start generalizing m n with
  | case1 k start h kind next =>
    rename_i hkind ih
    have hlt : n < k.source.length := by omega
    have hnext : next = k.move 1 := congrArg (fun kind => (k.pass kind).2) hkind
    have hopens : openingKind (k.source.drop n) = .code := (Cursor.opening_eq hk).symm.trans hkind
    rw [hnext] at ih ⊢
    refine ih hstart (congrArg (· + 1) hk) (Nat.le_succ_of_le hm) hlt fun j hj hjn => ?_
    rcases Nat.lt_succ_iff_lt_or_eq.1 hjn with hjn | rfl
    · exact hcode j hj hjn
    · exact hopens
  | case2 k start h kind next hkind spans last =>
    rename_i hrest ih
    have hlt : n < k.source.length := by omega
    have hopens : openingKind (k.source.drop n) ≠ .code := Cursor.opening_eq hk ▸ hkind
    have hne : k.source.drop n ≠ [] := fun hnil => hopens (by rw [hnil]; rfl)
    have hpass := Cursor.pass_eq hk hn hkind
    have hnext : next = k.seek (n + (cutRegion (k.source.drop n)).taken.length : Nat) :=
      congrArg Prod.snd hpass
    have hterminated : (k.pass kind).1 = (cutRegion (k.source.drop n)).closed :=
      congrArg Prod.fst hpass
    have hopening : kind = openingKind (k.source.drop n) := Cursor.opening_eq hk
    have hplace := congrArg Cursor.place hnext
    have hsource := congrArg Cursor.source hnext
    -- behind the region the rest of the source is scanned, with no code before it
    have hlast := hrest.symm.trans (ih hplace hplace (Nat.le_refl _)
      (by rw [hsource]; exact add_length_cutRegion_le hn)
      fun j hj hjn => absurd hj (Nat.not_le_of_lt hjn))
    obtain ⟨rfl, rfl⟩ := Prod.mk.inj hlast
    rw [map_ofPlaced_drop hn (fun _ => hopens) hm hcode, scan_of_ne_nil hne,
      ← drop_add_length_cutRegion, hstart, hk, hplace, hsource, hterminated, hopening, hnext]
    rfl
  | case3 k start h =>
    obtain rfl : n = k.source.length := by omega
    rw [map_ofPlaced_drop hn (absurd · (Nat.lt_irrefl _)) hm hcode, List.drop_length, scan_nil,
      hstart]
    exact Prod.ext (List.append_nil _).symm (Cursor.seek_of_place hk).symm

/-- Wherever it stands, a cursor scans the regions of its source. -/
theorem Cursor.spans_eq (k : Cursor) :
    k.spans = ((scanPlaced k.source).map Span.ofPlaced, k.seek k.source.length) :=
  (k.seek 0).spansFrom_eq rfl rfl (Nat.le_refl 0) (Nat.zero_le _)
    fun _ hj hjn => absurd hj (Nat.not_le_of_lt hjn)

/-- The text of a region is what the source has between its offsets. -/
theorem Span.region_ofPlaced {s : Text} {p : Nat × Region} (h : p ∈ scanPlaced s) :
    Span.region s (Span.ofPlaced p) = p.2 := by
  obtain ⟨as, bs, hrs, hstart⟩ := Region.mem_place.1 h
  have hs : s = Region.flatten as ++ (p.2.text ++ Region.flatten bs) := by
    rw [← Region.flatten_cons, ← Region.flatten_append, ← hrs, flatten_scan]
  rw [Nat.zero_add] at hstart
  have hlength := congrArg List.length hs
  rw [List.length_append, List.length_append, ← hstart] at hlength
  have hslice : Text.slice s p.1 (p.1 + p.2.text.length : Nat) = p.2.text := by
    rw [Text.slice, Text.before_natCast, Text.bound_of_le (by omega), List.drop_take, hstart,
      Nat.add_sub_cancel_left]
    conv_lhs => rw [hs, List.drop_left, List.take_left]
  exact congrArg (fun text => Region.mk p.2.kind text p.2.terminated) hslice

theorem Cursor.scan_eq (k : Cursor) :
    k.scan = (SqlSnippet.scan k.source, k.seek k.source.length) := by
  rw [Cursor.scan, Cursor.spans_eq]
  refine Prod.ext ?_ rfl
  dsimp only
  rw [List.map_map]
  calc (scanPlaced k.source).map (Span.region k.source ∘ Span.ofPlaced)
      = (scanPlaced k.source).map Prod.snd := List.map_congr_left fun p hp =>
        Span.region_ofPlaced hp
    _ = SqlSnippet.scan k.source := Region.map_snd_place 0 _

end SqlSnippet
