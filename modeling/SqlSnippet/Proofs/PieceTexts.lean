import SqlSnippet.Proofs.LayoutCharacters

/-!
# Code as it comes to the clause words

Before layout looks for clause words it has collapsed the white space of code and broken it at
commas. What it looks through is code all the same, read on its own : neither step brings
characters together that open a comment, as each puts white space or a comma in between
(`isChain_collapse`, `isChain_breakCommas`). Where the indent is made of spaces, such a text also
has one after every line feed (`IsPieceText`).
-/

namespace SqlSnippet

variable {s : Text} {o : LayoutOptions} {d : Nat} {skip : Bool} {held : Text}

/-! ## Neighbours -/

/-- The characters may stand one after the other in code that has come through collapsing and
breaking at commas. -/
def MayPrecede (c d : Char) : Prop :=
  ¬(c = '-' ∧ d = '-') ∧ ¬(c = '/' ∧ d = '*') ∧ (c = '\n' → isBlank d = true)

theorem mayPrecede_space (d : Char) : MayPrecede ' ' d :=
  ⟨fun h => absurd h.1 (by decide), fun h => absurd h.1 (by decide),
    fun h => absurd h (by decide)⟩

theorem mayPrecede_of_isBlank {c d : Char} (hd : isBlank d = true) : MayPrecede c d := by
  refine ⟨?_, ?_, fun _ => hd⟩
  · rintro ⟨-, rfl⟩
    exact absurd hd (by decide)
  · rintro ⟨-, rfl⟩
    exact absurd hd (by decide)

theorem mayPrecede_comma {c : Char} (hc : isBlank c = false) : MayPrecede c ',' := by
  refine ⟨fun h => absurd h.2 (by decide), fun h => absurd h.2 (by decide), ?_⟩
  rintro rfl
  exact absurd hc (by decide)

theorem mayPrecede_of_not_opens {c d : Char} (hc : isBlank c = false) (h : ¬Opens c (some d)) :
    MayPrecede c d := by
  refine ⟨?_, ?_, ?_⟩
  · rintro ⟨rfl, rfl⟩
    exact h (Or.inr (Or.inl ⟨rfl, rfl⟩))
  · rintro ⟨rfl, rfl⟩
    exact h (Or.inr (Or.inr ⟨rfl, rfl⟩))
  · rintro rfl
    exact absurd hc (by decide)

/-- A text of ASCII that is code, where an indent comes after every line feed. -/
structure IsPieceText (s : Text) : Prop where
  ascii : ∀ c ∈ s, c.toNat < 128
  quote : '\'' ∉ s
  chain : s.IsChain MayPrecede

theorem IsPieceText.codeText (h : IsPieceText s) : CodeText s none := by
  refine ⟨h.quote, fun hinfix => ?_, fun hinfix => ?_⟩
  · rw [Option.toList_none, List.append_nil] at hinfix
    have hpair := List.IsChain.infix h.chain hinfix
    exact (List.isChain_pair.1 hpair).1 ⟨rfl, rfl⟩
  · rw [Option.toList_none, List.append_nil] at hinfix
    have hpair := List.IsChain.infix h.chain hinfix
    exact (List.isChain_pair.1 hpair).2.1 ⟨rfl, rfl⟩

theorem isChain_spaces_append {b x : Text} (hb : ∀ c ∈ b, c = ' ') (hx : x.IsChain MayPrecede) :
    (b ++ x).IsChain MayPrecede := by
  induction b with
  | nil => exact hx
  | cons c b ih =>
    obtain ⟨rfl, hspaces⟩ := List.forall_mem_cons.1 hb
    exact List.isChain_cons.2 ⟨fun d _ => mayPrecede_space d, ih hspaces⟩

/-! ## Collapsing -/

theorem eq_space_of_mem_collapse {c : Char} (h : c ∈ Text.collapse s) (hc : isBlank c = true) :
    c = ' ' := by
  fun_induction Text.collapse s with
  | case1 => cases h
  | case2 d hd => exact List.mem_singleton.1 h
  | case3 d hd e r he ih => exact ih h
  | case4 d hd e r he ih => exact (List.mem_cons.1 h).elim id ih
  | case5 d r hd ih =>
    rcases List.mem_cons.1 h with rfl | h
    · exact absurd hc hd
    · exact ih h

theorem head?_collapse : ∀ c ∈ (Text.collapse s).head?, isBlank c = true ∨ c ∈ s.head? := by
  fun_induction Text.collapse s with
  | case1 => exact fun c hc => absurd hc (Option.not_mem_none c)
  | case2 c hc =>
    rintro d ⟨⟩
    exact Or.inl (by decide)
  | case3 c hc d r hd ih =>
    intro e he
    rcases ih e he with he | he
    · exact Or.inl he
    · obtain rfl := Option.some.inj he
      exact Or.inl hd
  | case4 c hc d r hd ih =>
    rintro e ⟨⟩
    exact Or.inl (by decide)
  | case5 c r hc ih => exact fun d hd => Or.inr hd

theorem isChain_collapse (h : CodeText s none) : (Text.collapse s).IsChain MayPrecede := by
  fun_induction Text.collapse s with
  | case1 => exact .nil
  | case2 c hc => exact .singleton ' '
  | case3 c hc d r hd ih => exact ih (codeText_cons.1 h).2
  | case4 c hc d r hd ih =>
    exact List.isChain_cons.2 ⟨fun e _ => mayPrecede_space e, ih (codeText_cons.1 h).2⟩
  | case5 c r hc ih =>
    obtain ⟨hopens, hr⟩ := codeText_cons.1 h
    refine List.isChain_cons.2 ⟨fun d hd => ?_, ih hr⟩
    rcases head?_collapse d hd with hd | hd
    · exact mayPrecede_of_isBlank hd
    · rw [Option.toList_none, List.append_nil, hd] at hopens
      exact mayPrecede_of_not_opens (Bool.eq_false_iff.2 hc) hopens

/-! ## Breaking at commas -/

theorem head?_breakCommas (hheld : ∀ c ∈ held, isBlank c = true) :
    ∀ c ∈ (breakCommas o d skip held s).head?, isBlank c = true ∨ c = ',' ∨ skip = true ∨
      (held = [] ∧ c ∈ s.head?) := by
  fun_induction breakCommas o d skip held s with
  | case1 => exact fun c hc => Or.inl (hheld c (List.mem_of_mem_head? hc))
  | case2 => exact fun c _ => Or.inr (Or.inr (Or.inl rfl))
  | case3 d skip held c r hc hskip ih =>
    intro e he
    rcases ih (List.forall_mem_append.2 ⟨hheld, List.forall_mem_singleton.2 hc⟩) e he with
      he | he | he | he
    · exact Or.inl he
    · exact Or.inr (Or.inl he)
    · cases he
    · exact absurd he.1 (List.append_ne_nil_of_right_ne_nil _ (List.cons_ne_nil c []))
  | case4 d skip held c r hc hcomma ih =>
    rintro e ⟨⟩
    exact Or.inr (Or.inl rfl)
  | case5 d skip held c r hc hcomma depth' ih =>
    intro e he
    cases held with
    | nil => exact Or.inr (Or.inr (Or.inr ⟨rfl, he⟩))
    | cons b held =>
      obtain rfl := Option.some.inj he
      exact Or.inl (hheld b List.mem_cons_self)

theorem isChain_breakCommas (hindent : o.indent ≠ [] ∧ ∀ c ∈ o.indent, c = ' ')
    (hheld : ∀ c ∈ held, c = ' ') (hs : ∀ c ∈ s, isBlank c = true → c = ' ')
    (h : s.IsChain MayPrecede) : (breakCommas o d skip held s).IsChain MayPrecede := by
  fun_induction breakCommas o d skip held s with
  | case1 =>
    have hchain := isChain_spaces_append hheld .nil
    rwa [List.append_nil] at hchain
  | case2 d held c r hc ih =>
    exact ih hheld (List.forall_mem_cons.1 hs).2 (List.isChain_cons.1 h).2
  | case3 d skip held c r hc hskip ih =>
    obtain ⟨hspace, hs⟩ := List.forall_mem_cons.1 hs
    exact ih (List.forall_mem_append.2 ⟨hheld, List.forall_mem_singleton.2 (hspace hc)⟩) hs
      (List.isChain_cons.1 h).2
  | case4 d skip held c r hc hcomma ih =>
    obtain ⟨rfl, -⟩ := hcomma
    have hrest := isChain_spaces_append hindent.2
      (ih (List.forall_mem_nil _) (List.forall_mem_cons.1 hs).2 (List.isChain_cons.1 h).2)
    obtain ⟨b, indent, heq⟩ := List.exists_cons_of_ne_nil hindent.1
    have hb : isBlank b = true := isBlank_of_mem_indent o b (heq ▸ List.mem_cons_self)
    rw [heq] at hrest ⊢
    exact .cons_cons (mayPrecede_of_isBlank (by decide))
      (.cons_cons (mayPrecede_of_isBlank hb) hrest)
  | case5 d skip held c r hc hcomma depth' ih =>
    obtain ⟨hnext, hr⟩ := List.isChain_cons.1 h
    have hlater := ih (List.forall_mem_nil _) (List.forall_mem_cons.1 hs).2 hr
    refine isChain_spaces_append hheld (List.isChain_cons.2 ⟨fun e he => ?_, hlater⟩)
    rcases head?_breakCommas (List.forall_mem_nil _) e he with he | rfl | he | ⟨-, he⟩
    · exact mayPrecede_of_isBlank he
    · exact mayPrecede_comma (Bool.eq_false_iff.2 hc)
    · cases he
    · exact hnext e he

/-! ## The pieces of a text -/

theorem exists_region_of_mem_piecesAfter {g : Bool} {rs : List Region} {p : Piece}
    (hp : p ∈ piecesAfter g rs) (hcode : p.kind = .code) :
    ∃ r ∈ rs, r.kind = .code ∧ ∃ x, x <:+ r.text ∧ p.text = Text.collapse x := by
  induction rs generalizing g with
  | nil => cases hp
  | cons r rs ih =>
    have hlater : p ∈ piecesAfter (r.kind = .lineComment) rs →
        ∃ q ∈ r :: rs, q.kind = .code ∧ ∃ x, x <:+ q.text ∧ p.text = Text.collapse x :=
      fun hp => by
        obtain ⟨q, hq, h⟩ := ih hp
        exact ⟨q, List.mem_cons_of_mem r hq, h⟩
    rw [piecesAfter] at hp
    dsimp only at hp
    split at hp
    · rcases List.mem_cons.1 hp with rfl | hp
      · cases hcode
      · exact hlater hp
    · next hr =>
      have hkind := Region.kind_of_not_isProtected hr
      have hpiece : ∀ {x : Text}, x <:+ r.text →
          p ∈ (if (Text.collapse x).isEmpty then [] else [⟨.code, Text.collapse x⟩]) ++
            piecesAfter (r.kind = .lineComment) rs →
          ∃ q ∈ r :: rs, q.kind = .code ∧ ∃ x, x <:+ q.text ∧ p.text = Text.collapse x := by
        intro x hx hp
        rcases List.mem_append.1 hp with hp | hp
        · split at hp
          · cases hp
          · rw [List.mem_singleton.1 hp]
            exact ⟨r, List.mem_cons_self, hkind, x, hx, rfl⟩
        · exact hlater hp
      cases g with
      | false => exact hpiece List.suffix_rfl hp
      | true =>
        rcases List.mem_cons.1 hp with rfl | hp
        · cases hcode
        · exact hpiece (List.dropWhile_suffix _) hp

theorem exists_piece_of_mem_breakCommaPieces {ps : List Piece} {p : Piece}
    (hp : p ∈ breakCommaPieces o d ps) (hcode : p.kind = .code) :
    ∃ q ∈ ps, q.kind = .code ∧ ∃ d', p.text = breakCommas o d' false [] q.text := by
  induction ps generalizing d with
  | nil => cases hp
  | cons q ps ih =>
    have hlater : ∀ {d}, p ∈ breakCommaPieces o d ps →
        ∃ q' ∈ q :: ps, q'.kind = .code ∧ ∃ d', p.text = breakCommas o d' false [] q'.text :=
      fun hp => by
        obtain ⟨q', hq, h⟩ := ih hp
        exact ⟨q', List.mem_cons_of_mem q hq, h⟩
    rw [breakCommaPieces] at hp
    split at hp
    · next hq =>
      rcases List.mem_cons.1 hp with rfl | hp
      · exact ⟨q, List.mem_cons_self, hq, d, rfl⟩
      · exact hlater hp
    · next hq =>
      rcases List.mem_cons.1 hp with rfl | hp
      · exact absurd hcode hq
      · exact hlater hp

theorem codeText_of_mem_scan {r : Region} (hr : r ∈ scan s) (hcode : r.kind = .code) :
    CodeText r.text none := by
  obtain ⟨as, bs, hscan⟩ := List.append_of_mem hr
  have hg := (isReading_iff.1 (isReading_scan s)).2.1 as r bs hscan
  obtain ⟨kind, text, terminated⟩ := r
  obtain rfl : kind = .code := hcode
  cases terminated with
  | false => exact hg.elim
  | true =>
    obtain ⟨hquote, hline, hblock⟩ := hg
    have hinfix : text ++ (none : Option Char).toList <:+:
        text ++ ((Region.flatten bs).head?).toList := by
      rw [Option.toList_none, List.append_nil]
      exact (List.prefix_append _ _).isInfix
    exact ⟨hquote, fun h => hline (h.trans hinfix), fun h => hblock (h.trans hinfix)⟩

theorem CodeText.suffix {x : Text} (h : CodeText s none) (hx : x <:+ s) : CodeText x none := by
  obtain ⟨hquote, hline, hblock⟩ := h
  rw [Option.toList_none, List.append_nil] at hline hblock
  rw [CodeText, Option.toList_none, List.append_nil]
  exact ⟨fun h => hquote (hx.subset h), fun h => hline (h.trans hx.isInfix),
    fun h => hblock (h.trans hx.isInfix)⟩

/-- Code comes to the clause words as code, with an indent after every line feed. -/
theorem isPieceText_of_mem (hs : ∀ c ∈ s, c.toNat < 128)
    (hindent : o.indent ≠ [] ∧ ∀ c ∈ o.indent, c = ' ') {p : Piece}
    (hp : p ∈ breakCommaPieces o 0 (pieces s)) (hcode : p.kind = .code) : IsPieceText p.text := by
  obtain ⟨q, hq, hqcode, d, hptext⟩ := exists_piece_of_mem_breakCommaPieces hp hcode
  obtain ⟨r, hr, hrcode, x, hx, hqtext⟩ := exists_region_of_mem_piecesAfter hq hqcode
  have htext : CodeText x none := (codeText_of_mem_scan hr hrcode).suffix hx
  have hxs : ∀ c ∈ x, c.toNat < 128 ∧ c ≠ '\'' := by
    refine fun c hc => ⟨hs c ?_, ?_⟩
    · rw [← flatten_scan s]
      exact List.mem_flatMap.2 ⟨r, hr, hx.subset hc⟩
    · rintro rfl
      exact htext.1 hc
  have hblanks : ∀ c ∈ layoutBlanks, c.toNat < 128 ∧ c ≠ '\'' := by
    have hall : layoutBlanks.all (fun c => c.toNat < 128 && c != '\'') = true := by decide
    simpa using hall
  have hkept : ∀ c ∈ p.text, c.toNat < 128 ∧ c ≠ '\'' := by
    rw [hptext, hqtext]
    exact forall_mem_breakCommas hblanks (List.forall_mem_nil _)
      (forall_mem_collapse hblanks hxs)
  refine ⟨fun c hc => (hkept c hc).1, fun h => (hkept _ h).2 rfl, ?_⟩
  rw [hptext, hqtext]
  exact isChain_breakCommas hindent (List.forall_mem_nil _)
    (fun c => eq_space_of_mem_collapse) (isChain_collapse htext)

end SqlSnippet
