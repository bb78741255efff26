import SqlSnippet.Markup.Html
import SqlSnippet.Proofs.Grammar
import SqlSnippet.Proofs.TokenCover

/-!
# Reading markup

A rendered fragment is read back by a grammar that is not about rendering (`IsFragment`) : text
stands by itself or inside a `span`, and both may stand inside an element for code. A raw `<` is
the only character that ends text and a raw `"` the only one that ends the value of an attribute;
entities stand for characters (`Escaped`). The grammar reads a markup in one way only
(`IsFragment.unique`), so what is found in it is all there is.

Which characters open and close tags and the values of attributes is a matter of place : a reader
is in text, in a tag or in a value (`MarkupPlace`). In escaped text and in escaped values it stays
where it is, so these characters are the same whatever the texts and the classes are.
`renderFragment_classify` puts this together for the tokens of a text.
-/

namespace SqlSnippet

/-! ## The grammar -/

/-- The entities with the characters that they stand for. -/
def entities : List (Text × Char) :=
  [("&amp;".toList, '&'), ("&lt;".toList, '<'), ("&gt;".toList, '>'), ("&quot;".toList, '"'),
    ("&#x27;".toList, '\'')]

/-- The markup of a text that ends before `stop`, and the text : an entity stands for its
character, and every character but the ampersand and `stop` for itself. -/
inductive Escaped (stop : Char) : Text → Text → Prop
  | nil : Escaped stop [] []
  | char {c : Char} {m s : Text} : c ≠ '&' → c ≠ stop → Escaped stop m s →
    Escaped stop (c :: m) (c :: s)
  | entity {e : Text × Char} {m s : Text} : e ∈ entities → Escaped stop m s →
    Escaped stop (e.1 ++ m) (e.2 :: s)

/-- The markup of texts, each with its class if it stands in a `span`. A text that stands by
itself goes on to the next tag. -/
inductive IsBody : Text → List (Option Text × Text) → Prop
  | nil : IsBody [] []
  | text {m s rest : Text} {ns : List (Option Text × Text)} : Escaped '<' m s → m ≠ [] →
    (∀ c ∈ rest.head?, c = '<') → IsBody rest ns → IsBody (m ++ rest) ((none, s) :: ns)
  | span {v cls m s rest : Text} {ns : List (Option Text × Text)} : Escaped '"' v cls →
    Escaped '<' m s → IsBody rest ns →
    IsBody ("<span class=\"".toList ++ (v ++ ("\">".toList ++ (m ++ ("</span>".toList ++ rest)))))
      ((some cls, s) :: ns)

/-- The markup of texts, inside an element for code if a class is given for it. -/
inductive IsFragment : Text → Option Text → List (Option Text × Text) → Prop
  | bare {b : Text} {ns : List (Option Text × Text)} : IsBody b ns → IsFragment b none ns
  | wrapped {v cls b : Text} {ns : List (Option Text × Text)} : Escaped '"' v cls → IsBody b ns →
    IsFragment ("<pre class=\"".toList ++ (v ++ ("\"><code>".toList ++ (b ++
      "</code></pre>".toList)))) (some cls) ns

/-! ## Escaped text -/

theorem eq_of_entity_append {e f : Text × Char} (he : e ∈ entities) (hf : f ∈ entities)
    {m n : Text} (h : e.1 ++ m = f.1 ++ n) : e = f := by
  have hapart : ∀ e ∈ entities, ∀ f ∈ entities, e.1 <+: f.1 → e = f := by decide
  rcases List.prefix_or_prefix_of_prefix (List.prefix_append e.1 m)
    (h ▸ List.prefix_append f.1 n) with hpre | hpre
  · exact hapart e he f hf hpre
  · exact (hapart f hf e he hpre).symm

theorem exists_entity_eq {e : Text × Char} (he : e ∈ entities) : ∃ r, e.1 = '&' :: r := by
  have hall : ∀ e ∈ entities, e.1 = '&' :: e.1.tail := by decide
  exact ⟨_, hall e he⟩

namespace Escaped

variable {stop : Char} {m n s t : Text}

/-- Markup stands for one text only. -/
theorem unique (h : Escaped stop m s) (h' : Escaped stop m t) : s = t := by
  induction h generalizing t with
  | nil =>
    generalize hm : ([] : Text) = m at h'
    cases h' with
    | nil => rfl
    | char => cases hm
    | entity he =>
      obtain ⟨r, hr⟩ := exists_entity_eq he
      rw [hr] at hm
      cases hm
  | @char c m s hc _ _ ih =>
    generalize hm : c :: m = n at h'
    cases h' with
    | nil => cases hm
    | char _ _ h =>
      obtain ⟨rfl, rfl⟩ := List.cons.inj hm
      rw [ih h]
    | entity he =>
      obtain ⟨r, hr⟩ := exists_entity_eq he
      rw [hr] at hm
      exact absurd (List.cons.inj hm).1 hc
  | @entity e m s he _ ih =>
    generalize hm : e.1 ++ m = n at h'
    obtain ⟨r, hr⟩ := exists_entity_eq he
    cases h' with
    | nil =>
      rw [hr] at hm
      cases hm
    | char hc =>
      rw [hr] at hm
      exact absurd (List.cons.inj hm).1.symm hc
    | @entity f _ _ hf h =>
      obtain rfl := eq_of_entity_append he hf hm
      rw [ih (List.append_cancel_left hm ▸ h)]

/-- The character that ends it is not in the markup of a text. -/
theorem stop_not_mem (hstop : ∀ e ∈ entities, stop ∉ e.1) (h : Escaped stop m s) : stop ∉ m := by
  induction h with
  | nil => exact List.not_mem_nil
  | char _ hc _ ih =>
    rw [List.mem_cons, not_or]
    exact ⟨Ne.symm hc, ih⟩
  | entity he _ ih =>
    rw [List.mem_append, not_or]
    exact ⟨hstop _ he, ih⟩

theorem bracket_not_mem (h : Escaped '<' m s) : '<' ∉ m :=
  h.stop_not_mem (by decide)

theorem quote_not_mem (h : Escaped '"' m s) : '"' ∉ m :=
  h.stop_not_mem (by decide)

end Escaped

theorem escapeTextChar_cases (c : Char) : (escapeTextChar c, c) ∈ entities ∨
    escapeTextChar c = [c] ∧ c ≠ '&' ∧ c ≠ '<' ∧ c ≠ '>' := by
  unfold escapeTextChar
  split
  · exact Or.inl (by decide)
  · exact Or.inl (by decide)
  · exact Or.inl (by decide)
  · next h₁ h₂ h₃ => exact Or.inr ⟨rfl, h₁, h₂, h₃⟩

theorem escapeValueChar_cases (c : Char) : (escapeValueChar c, c) ∈ entities ∨
    escapeValueChar c = [c] ∧ c ≠ '&' ∧ c ≠ '"' := by
  unfold escapeValueChar
  split
  · exact Or.inl (by decide)
  · exact Or.inl (by decide)
  · next h₁ _ =>
    exact (escapeTextChar_cases c).imp_right fun ⟨heq, hamp, _⟩ => ⟨heq, hamp, h₁⟩

/-- What is written for a text stands for it. -/
theorem escaped_flatMap {stop : Char} {f : Char → Text}
    (hf : ∀ c, (f c, c) ∈ entities ∨ f c = [c] ∧ c ≠ '&' ∧ c ≠ stop) (s : Text) :
    Escaped stop (s.flatMap f) s := by
  induction s with
  | nil => exact .nil
  | cons c s ih =>
    rw [List.flatMap_cons]
    rcases hf c with he | ⟨heq, hamp, hstop⟩
    · exact .entity he ih
    · rw [heq]
      exact .char hamp hstop ih

theorem escaped_escapeText (s : Text) : Escaped '<' (escapeText s) s :=
  escaped_flatMap (fun c => (escapeTextChar_cases c).imp_right fun ⟨heq, hamp, hlt, _⟩ =>
    ⟨heq, hamp, hlt⟩) s

theorem escaped_escapeValue (s : Text) : Escaped '"' (escapeValue s) s :=
  escaped_flatMap escapeValueChar_cases s

/-! ## One way to read -/

/-- What comes before a character that is not in it is known from the whole. -/
theorem append_char_inj {stop : Char} {m n x y : Text} (hm : stop ∉ m) (hn : stop ∉ n)
    (hx : ∀ c ∈ x.head?, c = stop) (hy : ∀ c ∈ y.head?, c = stop) (h : m ++ x = n ++ y) :
    m = n ∧ x = y := by
  have hrun : ∀ {m : Text}, stop ∉ m → ∀ c ∈ m, (c != stop) = true := by
    intro m hm c hc
    exact bne_iff_ne.2 (ne_of_mem_of_not_mem hc hm)
  have hends : ∀ {x : Text}, (∀ c ∈ x.head?, c = stop) → ∀ c ∈ x.head?, (c != stop) = false := by
    intro x hx c hc
    rw [hx c hc, bne_self_eq_false]
  exact append_stop_inj (hrun hm) (hrun hn) (hends hx) (hends hy) h

/-- The same where what comes after starts with one and the same piece of a tag. -/
theorem append_piece_inj {stop : Char} {q m n x y : Text} (hq : q.head? = some stop)
    (hm : stop ∉ m) (hn : stop ∉ n) (h : m ++ (q ++ x) = n ++ (q ++ y)) : m = n ∧ x = y := by
  have hhead : ∀ z : Text, ∀ c ∈ (q ++ z).head?, c = stop := by
    intro z c hc
    rw [List.head?_append, hq] at hc
    exact (Option.some.inj hc).symm
  obtain ⟨rfl, hrest⟩ := append_char_inj hm hn (hhead x) (hhead y) h
  exact ⟨rfl, List.append_cancel_left hrest⟩

/-- Text that stands by itself does not start with a tag. -/
theorem Escaped.append_ne_cons {m s rest : Text} (h : Escaped '<' m s) (hm : m ≠ []) (r : Text) :
    m ++ rest ≠ '<' :: r := by
  obtain ⟨c, m, rfl⟩ := List.exists_cons_of_ne_nil hm
  intro heq
  exact h.bracket_not_mem ((List.cons.inj heq).1 ▸ List.mem_cons_self)

/-- A body is read in one way only. -/
theorem IsBody.unique {b : Text} {ns ns' : List (Option Text × Text)} (h : IsBody b ns)
    (h' : IsBody b ns') : ns = ns' := by
  induction h generalizing ns' with
  | nil =>
    generalize hb : ([] : Text) = b at h'
    cases h' with
    | nil => rfl
    | text _ hne => exact absurd (List.append_eq_nil_iff.1 hb.symm).1 hne
    | span => cases hb
  | @text m s rest ns hm hne hrest _ ih =>
    generalize hb : m ++ rest = b at h'
    cases h' with
    | nil => exact absurd (List.append_eq_nil_iff.1 hb).1 hne
    | text hm' _ hrest' h' =>
      obtain ⟨rfl, rfl⟩ :=
        append_char_inj hm.bracket_not_mem hm'.bracket_not_mem hrest hrest' hb
      rw [hm.unique hm', ih h']
    | span => exact absurd hb (hm.append_ne_cons hne _)
  | @span v cls m s rest ns hv hm _ ih =>
    generalize hb : "<span class=\"".toList ++
      (v ++ ("\">".toList ++ (m ++ ("</span>".toList ++ rest)))) = b at h'
    cases h' with
    | nil => cases hb
    | text hm' hne' => exact absurd hb.symm (hm'.append_ne_cons hne' _)
    | span hv' hm' h' =>
      obtain ⟨rfl, htext⟩ := append_piece_inj rfl hv.quote_not_mem hv'.quote_not_mem
        (List.append_cancel_left hb)
      obtain ⟨rfl, rfl⟩ := append_piece_inj rfl hm.bracket_not_mem hm'.bracket_not_mem htext
      rw [hv.unique hv', hm.unique hm', ih h']

/-- The element for code is not read as a body. -/
theorem not_isBody_pre {r : Text} {ns : List (Option Text × Text)} :
    ¬IsBody ("<pre class=\"".toList ++ r) ns := by
  generalize hb : "<pre class=\"".toList ++ r = b
  intro h
  cases h with
  | nil => cases hb
  | text hm hne => exact hm.append_ne_cons hne _ hb.symm
  | span => cases (List.cons.inj (List.cons.inj hb).2).1

/-- A fragment is read in one way only. -/
theorem IsFragment.unique {f : Text} {w w' : Option Text} {ns ns' : List (Option Text × Text)}
    (h : IsFragment f w ns) (h' : IsFragment f w' ns') : w = w' ∧ ns = ns' := by
  cases h with
  | bare h =>
    cases h' with
    | bare h' => exact ⟨rfl, h.unique h'⟩
    | wrapped => exact absurd h not_isBody_pre
  | @wrapped v cls b ns hv h =>
    generalize hf : "<pre class=\"".toList ++ (v ++ ("\"><code>".toList ++ (b ++
      "</code></pre>".toList))) = f at h'
    cases h' with
    | bare h' => exact absurd (hf ▸ h') not_isBody_pre
    | wrapped hv' h' =>
      obtain ⟨rfl, hb⟩ := append_piece_inj rfl hv.quote_not_mem hv'.quote_not_mem
        (List.append_cancel_left hf)
      obtain rfl := List.append_cancel_right hb
      rw [hv.unique hv', h.unique h']
      exact ⟨rfl, rfl⟩

/-! ## Rendered tokens -/

/-- Render one token with classes that are texts. -/
def Token.render (names : ClassNames) (t : Token) : Text :=
  t.renderBy id fun c => escapeValue (names c)

/-- Render tokens one after the other with classes that are texts. -/
def renderTokens (names : ClassNames) (ts : List Token) : Text :=
  ts.flatMap (Token.render names)

/-- What is shown of a token : its class, if it has a category, and its text. -/
def Token.shown (names : ClassNames) (t : Token) : Option Text × Text :=
  (t.category.map names, t.text)

theorem escapeText_ne_nil {s : Text} (h : s ≠ []) : escapeText s ≠ [] := by
  intro hnil
  exact h (Escaped.unique (hnil ▸ escaped_escapeText s) .nil)

theorem render_of_plain {t : Token} (h : t.category = none) (names : ClassNames) :
    t.render names = escapeText t.text := by
  rw [Token.render, Token.renderBy, h]
  exact List.map_id _

theorem render_append {t : Token} {c : Category} (h : t.category = some c) (names : ClassNames)
    (rest : Text) : t.render names ++ rest = "<span class=\"".toList ++ (escapeValue (names c) ++
      ("\">".toList ++ (escapeText t.text ++ ("</span>".toList ++ rest)))) := by
  rw [Token.render, Token.renderBy, h]
  simp only [List.map_id, List.append_assoc]

theorem renderTokens_cons (names : ClassNames) (t : Token) (ts : List Token) :
    renderTokens names (t :: ts) = t.render names ++ renderTokens names ts :=
  List.flatMap_cons

/-- After plain text comes a tag, if anything. -/
theorem head?_renderTokens (names : ClassNames) {ts : List Token}
    (h : ∀ t ∈ ts.head?, t.isPlain = false) : ∀ c ∈ (renderTokens names ts).head?, c = '<' := by
  cases ts with
  | nil => nofun
  | cons t ts =>
    obtain ⟨c, hc⟩ := Option.isSome_iff_exists.1 (Option.isNone_eq_false_iff.1 (h t rfl))
    rw [renderTokens_cons, render_append hc]
    rintro d ⟨⟩
    rfl

theorem isBody_renderTokens (names : ClassNames) {ts : List Token} (hne : ∀ t ∈ ts, t.text ≠ [])
    (hplain : ts.IsChain fun t u => ¬(t.isPlain = true ∧ u.isPlain = true)) :
    IsBody (renderTokens names ts) (ts.map (Token.shown names)) := by
  induction ts with
  | nil => exact .nil
  | cons t ts ih =>
    obtain ⟨ht, hne⟩ := List.forall_mem_cons.1 hne
    obtain ⟨hnext, hplain⟩ := List.isChain_cons.1 hplain
    have hrest := ih hne hplain
    rw [renderTokens_cons, List.map_cons, Token.shown]
    cases hc : t.category with
    | none =>
      rw [render_of_plain hc]
      refine .text (escaped_escapeText _) (escapeText_ne_nil ht)
        (head?_renderTokens names fun u hu => Bool.eq_false_iff.2 fun hp => ?_) hrest
      exact hnext u hu ⟨Option.isNone_iff_eq_none.2 hc, hp⟩
    | some c =>
      rw [render_append hc]
      exact .span (escaped_escapeValue _) (escaped_escapeText _) hrest

theorem renderFragment_some (names : ClassNames) (cls : Text) (ts : List Token) :
    renderFragment names (some cls) ts = "<pre class=\"".toList ++ (escapeValue cls ++
      ("\"><code>".toList ++ (renderTokens names ts ++ "</code></pre>".toList))) := by
  have hbody : ts.flatMap (Token.renderBy id fun c => escapeValue (names c)) =
      renderTokens names ts := rfl
  unfold renderFragment renderFragmentBy
  rw [hbody]
  dsimp only
  rw [List.map_id, List.map_id, List.map_id, List.map_id, List.append_assoc, List.append_assoc,
    List.append_assoc]

theorem isFragment_renderFragment (names : ClassNames) (container : Option Text) {ts : List Token}
    (h : IsBody (renderTokens names ts) (ts.map (Token.shown names))) :
    IsFragment (renderFragment names container ts) container (ts.map (Token.shown names)) := by
  cases container with
  | none => exact .bare h
  | some cls =>
    rw [renderFragment_some]
    exact .wrapped (escaped_escapeValue cls) h

/-! ## Places of a reader -/

/-- Where a reader of markup is : in text, in a tag, or in the value of an attribute. -/
inductive MarkupPlace where
  | text
  | tag
  | value
  deriving DecidableEq

/-- Where a reader is after a character. -/
def MarkupPlace.next : MarkupPlace → Char → MarkupPlace
  | .text, c => if c = '<' then .tag else .text
  | .tag, c => if c = '>' then .text else if c = '"' then .value else .tag
  | .value, c => if c = '"' then .tag else .value

/-- Where a reader is after a markup. -/
def MarkupPlace.after (p : MarkupPlace) (m : Text) : MarkupPlace :=
  m.foldl MarkupPlace.next p

/-- The markup without its tags, from a place on. -/
def stripTags (p : MarkupPlace) : Text → Text
  | [] => []
  | c :: m =>
    if p = .text ∧ p.next c = .text then c :: stripTags (p.next c) m else stripTags (p.next c) m

/-- The characters of the markup that open or close a tag or a value, from a place on. -/
def delimiters (p : MarkupPlace) : Text → Text
  | [] => []
  | c :: m => if p.next c = p then delimiters (p.next c) m else c :: delimiters (p.next c) m

theorem stripTags_append (p : MarkupPlace) (m n : Text) :
    stripTags p (m ++ n) = stripTags p m ++ stripTags (p.after m) n := by
  induction m generalizing p with
  | nil => rfl
  | cons c m ih =>
    rw [List.cons_append, stripTags, stripTags, ih]
    split <;> rfl

theorem delimiters_append (p : MarkupPlace) (m n : Text) :
    delimiters p (m ++ n) = delimiters p m ++ delimiters (p.after m) n := by
  induction m generalizing p with
  | nil => rfl
  | cons c m ih =>
    rw [List.cons_append, delimiters, delimiters, ih]
    split <;> rfl

/-- Reading the markup `m` takes a reader from the place `p` to `q`, past the text `shown` and the
delimiters `ds`. -/
structure Reads (p : MarkupPlace) (m : Text) (q : MarkupPlace) (shown ds : Text) : Prop where
  arrives : p.after m = q
  shows : stripTags p m = shown
  passes : delimiters p m = ds

theorem Reads.nil (p : MarkupPlace) : Reads p [] p [] [] :=
  ⟨rfl, rfl, rfl⟩

theorem Reads.append {p q r : MarkupPlace} {m n a b d e : Text} (h : Reads p m q a d)
    (h' : Reads q n r b e) : Reads p (m ++ n) r (a ++ b) (d ++ e) := by
  obtain ⟨rfl, rfl, rfl⟩ := h
  obtain ⟨rfl, rfl, rfl⟩ := h'
  exact ⟨List.foldl_append, stripTags_append p m n, delimiters_append p m n⟩

/-- Where a reader stays at its place, nothing is opened or closed. -/
theorem reads_of_stays {p : MarkupPlace} {m : Text} (h : ∀ c ∈ m, p.next c = p) :
    Reads p m p (if p = .text then m else []) [] := by
  induction m with
  | nil => exact ⟨rfl, (ite_self _).symm, rfl⟩
  | cons c m ih =>
    obtain ⟨hc, hm⟩ := List.forall_mem_cons.1 h
    obtain ⟨hafter, hstrip, hdelimiters⟩ := ih hm
    refine ⟨?_, ?_, ?_⟩
    · rw [MarkupPlace.after, List.foldl_cons, hc]
      exact hafter
    · simp only [stripTags, hc, and_self, hstrip]
      split <;> rfl
    · rw [delimiters, if_pos hc, hc, hdelimiters]

theorem reads_escapeText (s : Text) : Reads .text (escapeText s) .text (escapeText s) [] :=
  reads_of_stays fun _ hc =>
    if_neg (ne_of_mem_of_not_mem hc (escaped_escapeText s).bracket_not_mem)

theorem reads_escapeValue (s : Text) : Reads .value (escapeValue s) .value [] [] :=
  reads_of_stays fun _ hc =>
    if_neg (ne_of_mem_of_not_mem hc (escaped_escapeValue s).quote_not_mem)

/-- The delimiters of a token. -/
def Token.delimiters (t : Token) : Text :=
  if t.isPlain then [] else "<\"\"><>".toList

theorem reads_render (names : ClassNames) (t : Token) :
    Reads .text (t.render names) .text (escapeText t.text) t.delimiters := by
  cases hc : t.category with
  | none =>
    rw [render_of_plain hc, Token.delimiters, Token.isPlain, hc]
    exact reads_escapeText t.text
  | some c =>
    have hopen : Reads .text "<span class=\"".toList .value [] "<\"".toList := by
      constructor <;> decide
    have hshow : Reads .value "\">".toList .text [] "\">".toList := by
      constructor <;> decide
    have hclose : Reads .text "</span>".toList .text [] "<>".toList := by
      constructor <;> decide
    have hread := hopen.append ((reads_escapeValue (names c)).append
      (hshow.append ((reads_escapeText t.text).append (hclose.append (.nil .text)))))
    rw [← render_append hc names, List.append_nil] at hread
    simpa [Token.delimiters, Token.isPlain, hc] using hread

theorem reads_renderTokens (names : ClassNames) (ts : List Token) :
    Reads .text (renderTokens names ts) .text (escapeText (Token.flatten ts))
      (ts.flatMap Token.delimiters) := by
  induction ts with
  | nil => exact .nil .text
  | cons t ts ih =>
    have htext : escapeText (Token.flatten (t :: ts)) =
        escapeText t.text ++ escapeText (Token.flatten ts) := List.flatMap_append
    rw [renderTokens_cons, htext, List.flatMap_cons]
    exact (reads_render names t).append ih

/-- The delimiters of the element for code. -/
def containerDelimiters : Option Text → Text × Text
  | none => ([], [])
  | some _ => ("<\"\"><>".toList, "<><>".toList)

theorem reads_renderFragment (names : ClassNames) (container : Option Text) (ts : List Token) :
    Reads .text (renderFragment names container ts) .text (escapeText (Token.flatten ts))
      ((containerDelimiters container).1 ++ (ts.flatMap Token.delimiters ++
        (containerDelimiters container).2)) := by
  have hbody := reads_renderTokens names ts
  cases container with
  | none =>
    have hnone : containerDelimiters none = ([], []) := rfl
    rw [hnone, List.nil_append, List.append_nil]
    exact hbody
  | some cls =>
    have hopen : Reads .text "<pre class=\"".toList .value [] "<\"".toList := by
      constructor <;> decide
    have hcode : Reads .value "\"><code>".toList .text [] "\"><>".toList := by
      constructor <;> decide
    have hclose : Reads .text "</code></pre>".toList .text [] "<><>".toList := by
      constructor <;> decide
    have hread := hopen.append ((reads_escapeValue cls).append
      (hcode.append (hbody.append hclose)))
    have hsome : containerDelimiters (some cls) =
        ("<\"\"><>".toList, "<><>".toList) := rfl
    rw [← renderFragment_some names cls ts] at hread
    rw [hsome]
    simpa using hread

/-! ## Classes that are loose texts -/

/-- The value of an attribute that is a text is written as such. -/
theorem LooseText.escapeValue_loose (s : Text) :
    s.loose.escapeValue = Text.loose (SqlSnippet.escapeValue s) := by
  rw [escapeValue, Text.loose, List.flatMap_map, Text.loose, SqlSnippet.escapeValue,
    List.map_flatMap]
  rfl

theorem LooseText.half_mem_escapeValue_iff {x : LooseText} {n : Fin 0x800} :
    CodePoint.half n ∈ x.escapeValue ↔ CodePoint.half n ∈ x := by
  unfold escapeValue
  rw [List.mem_flatMap]
  constructor
  · rintro ⟨p, hp, hn⟩
    cases p with
    | char c =>
      obtain ⟨_, -, hc⟩ := List.mem_map.1 hn
      cases hc
    | half m => exact List.mem_singleton.1 hn ▸ hp
  · exact fun h => ⟨_, h, List.mem_singleton_self _⟩

theorem half_not_mem_map (s : Text) (n : Fin 0x800) :
    CodePoint.half n ∉ s.map CodePoint.char := by
  intro h
  obtain ⟨_, -, hc⟩ := List.mem_map.1 h
  cases hc

/-- Where the classes of tokens are texts, the markup is a text as well. -/
theorem renderLoose_eq {looseNames : Category → LooseText} {names : ClassNames} {ts : List Token}
    (h : ∀ t ∈ ts, ∀ c, t.category = some c → looseNames c = Text.loose (names c))
    (container : Option Text) :
    renderLoose looseNames container ts = Text.loose (renderFragment names container ts) := by
  have htoken : ∀ t ∈ ts, t.renderBy .char (fun c => (looseNames c).escapeValue) =
      Text.loose (t.render names) := by
    intro t ht
    rw [Token.render]
    unfold Token.renderBy
    cases hc : t.category with
    | none => exact congrArg _ (List.map_id _).symm
    | some c =>
      dsimp only
      rw [h t ht c hc, LooseText.escapeValue_loose]
      simp only [Text.loose, List.map_id, List.map_append]
  have hbody : ts.flatMap (Token.renderBy .char fun c => (looseNames c).escapeValue) =
      Text.loose (renderTokens names ts) := by
    rw [renderTokens, Text.loose, List.map_flatMap, List.flatMap_congr htoken]
    rfl
  cases container with
  | none => exact hbody
  | some cls =>
    rw [renderFragment_some]
    unfold renderLoose renderFragmentBy
    rw [hbody]
    dsimp only
    simp only [Text.loose, List.map_append, List.append_assoc]

/-- Halves in the markup are those in the classes of tokens. -/
theorem half_mem_renderLoose_iff {looseNames : Category → LooseText} {container : Option Text}
    {ts : List Token} {n : Fin 0x800} :
    CodePoint.half n ∈ renderLoose looseNames container ts ↔
      ∃ t ∈ ts, ∃ c, t.category = some c ∧ CodePoint.half n ∈ looseNames c := by
  have htoken : ∀ t : Token,
      CodePoint.half n ∈ t.renderBy .char (fun c => (looseNames c).escapeValue) ↔
        ∃ c, t.category = some c ∧ CodePoint.half n ∈ looseNames c := by
    intro t
    unfold Token.renderBy
    cases t.category with
    | none => exact iff_of_false (half_not_mem_map _ n) (by rintro ⟨_, ⟨⟩, -⟩)
    | some c =>
      simp only [List.mem_append, half_not_mem_map, LooseText.half_mem_escapeValue_iff, false_or,
        or_false, Option.some.injEq, exists_eq_left']
  have hbody : CodePoint.half n ∈
      ts.flatMap (Token.renderBy .char fun c => (looseNames c).escapeValue) ↔
        ∃ t ∈ ts, ∃ c, t.category = some c ∧ CodePoint.half n ∈ looseNames c := by
    rw [List.mem_flatMap]
    exact exists_congr fun t => and_congr_right fun _ => htoken t
  cases container with
  | none => exact hbody
  | some cls =>
    rw [← hbody]
    unfold renderLoose renderFragmentBy
    dsimp only
    simp only [List.mem_append, half_not_mem_map, false_or, or_false]

/-! ## Rendered texts -/

/-- The tokens of a text as markup : the grammar reads back the container class and all tokens
with their classes, and nothing else; the markup without its tags stands for the text; and what
opens and closes tags and values is the same as if all texts and classes were empty. -/
theorem renderFragment_classify (v : Vocabulary) (names : ClassNames) (container : Option Text)
    (s : Text) :
    let ts := classify v s
    let out := renderFragment names container ts
    (∀ w ns, IsFragment out w ns ↔ w = container ∧ ns = ts.map (Token.shown names)) ∧
      (∀ t, Escaped '<' (stripTags .text out) t ↔ t = s) ∧
      delimiters .text out = delimiters .text (renderFragment (fun _ => [])
        (container.map fun _ => []) (ts.map fun t => { t with text := [] })) := by
  intro ts out
  have hread := reads_renderFragment names container ts
  have hne : ∀ t ∈ ts, t.text ≠ [] := ne_nil_of_mem_joinPlain fun t ht => by
    obtain ⟨r, hr, ht⟩ := List.mem_flatMap.1 ht
    exact ne_nil_of_mem_tokens (text_ne_nil_of_mem_scan hr) ht
  have hfragment : IsFragment out container (ts.map (Token.shown names)) :=
    isFragment_renderFragment names container
      (isBody_renderTokens names hne (isChain_joinPlain _))
  refine ⟨fun w ns => ⟨fun h => h.unique hfragment, ?_⟩, fun t => ?_, ?_⟩
  · rintro ⟨rfl, rfl⟩
    exact hfragment
  · have htext : Escaped '<' (stripTags .text out) s := by
      rw [hread.shows, flatten_classify]
      exact escaped_escapeText s
    exact ⟨fun h => h.unique htext, fun h => h ▸ htext⟩
  · rw [hread.passes, (reads_renderFragment _ _ _).passes, List.flatMap_map]
    cases container <;> rfl

end SqlSnippet
