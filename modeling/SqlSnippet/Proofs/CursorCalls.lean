import SqlSnippet.Proofs.CursorScan
import SqlSnippet.Proofs.OutlineTokens

/-!
# Calls of a cursor

A cursor that classifies carries the tokens found so far and the plain text held back from one
region to the next. To emit a token is to put it before all that is still to come (`Cursor.upTo`,
`Cursor.upTo_emit`), and so it is with the tokens of code and of all regions
(`Cursor.upTo_emitCode`, `Cursor.upTo_foldl_emitRegion`). Starting with none, the cursor comes to
the tokens of its source (`Cursor.tokenize_eq`).

Its owner can call a cursor in any order and put it at any place. Scanning and classifying do not
depend on the place, and each call keeps what the next one relies on (`IsKept`, `IsKept.call`) : so
a cursor can be used again after any calls (`cursor_reusable`).
-/

namespace SqlSnippet

/-! ## Joined plain text -/

/-- The plain token of a text, unless that is empty. -/
def plainToken (s : Text) : List Token :=
  if s.isEmpty then [] else [⟨s, none⟩]

theorem joinPlain_cons (t : Token) (ts : List Token) :
    joinPlain (t :: ts) = t.join (joinPlain ts) :=
  rfl

theorem joinPlain_append_congr {us vs : List Token} (h : joinPlain us = joinPlain vs)
    (ts : List Token) : joinPlain (ts ++ us) = joinPlain (ts ++ vs) := by
  rw [joinPlain, joinPlain, List.foldr_append, List.foldr_append]
  exact congrArg (ts.foldr Token.join) h

/-- Plain text can be joined before anything after it is known. -/
theorem joinPlain_cons_cons (s t : Text) (us : List Token) :
    joinPlain (⟨s, none⟩ :: ⟨t, none⟩ :: us) = joinPlain (⟨s ++ t, none⟩ :: us) := by
  rw [joinPlain_cons, joinPlain_cons, joinPlain_cons]
  cases joinPlain us with
  | nil => rfl
  | cons u us =>
    obtain ⟨text, category⟩ := u
    cases category with
    | none => exact congrArg (fun text => ⟨text, none⟩ :: us) (List.append_assoc s t text).symm
    | some c => rfl

theorem joinPlain_plainToken_append (s : Text) {t : Text} (ht : t ≠ []) (us : List Token) :
    joinPlain (plainToken (s ++ t) ++ us) = joinPlain (plainToken s ++ ⟨t, none⟩ :: us) := by
  have happend : plainToken (s ++ t) = [⟨s ++ t, none⟩] :=
    if_neg fun h => ht (List.append_eq_nil_iff.1 (List.isEmpty_iff.1 h)).2
  rw [happend]
  cases s with
  | nil => rfl
  | cons c s => exact (joinPlain_cons_cons (c :: s) t us).symm

/-! ## Emitted tokens -/

/-- The token that the plain text held back comes to. -/
def Cursor.pending (k : Cursor) : List Token :=
  if k.held.isEmpty then [] else [⟨k.held.flatten, none⟩]

/-- The tokens that a cursor comes to if `us` are emitted next. -/
def Cursor.upTo (k : Cursor) (us : List Token) : List Token :=
  k.tokens ++ joinPlain (k.pending ++ us)

/-- What emitting tokens does not change. -/
structure Cursor.StandsAs (k k' : Cursor) : Prop where
  source : k'.source = k.source
  vocabulary : k'.vocabulary = k.vocabulary
  place : k'.place = k.place

theorem Cursor.StandsAs.trans {k₁ k₂ k₃ : Cursor} (h₁ : k₁.StandsAs k₂) (h₂ : k₂.StandsAs k₃) :
    k₁.StandsAs k₃ :=
  ⟨h₂.source.trans h₁.source, h₂.vocabulary.trans h₁.vocabulary, h₂.place.trans h₁.place⟩

theorem Cursor.upTo_congr (k : Cursor) {us vs : List Token} (h : joinPlain us = joinPlain vs) :
    k.upTo us = k.upTo vs :=
  congrArg (k.tokens ++ ·) (joinPlain_append_congr h k.pending)

theorem Cursor.flush_eq (k : Cursor) : k.flush = { k with tokens := k.upTo [], held := [] } := by
  obtain ⟨source, vocabulary, place, tokens, held⟩ := k
  cases held with
  | nil => exact congrArg (fun ts => Cursor.mk _ _ _ ts _) (List.append_nil tokens).symm
  | cons => rfl

theorem Cursor.upTo_plainToken_append (k : Cursor) (s : Text) {t : Text} (ht : t ≠ [])
    (us : List Token) :
    k.upTo (plainToken (s ++ t) ++ us) = k.upTo (plainToken s ++ ⟨t, none⟩ :: us) :=
  k.upTo_congr (joinPlain_plainToken_append s ht us)

/-- Plain text is held back as a token that further plain text joins. -/
theorem Cursor.upTo_emit_plain (k : Cursor) (text : Text) (us : List Token) :
    (k.emit text none).upTo us = k.upTo (plainToken text ++ us) := by
  obtain ⟨source, vocabulary, place, tokens, held⟩ := k
  cases text with
  | nil => rfl
  | cons c text =>
    refine congrArg (tokens ++ ·) ?_
    cases held with
    | nil =>
      exact congrArg (fun text => joinPlain (⟨text, none⟩ :: us)) (List.append_nil (c :: text))
    | cons h held =>
      have hflat : (h :: held ++ [c :: text]).flatten = (h :: held).flatten ++ c :: text := by
        rw [List.flatten_append, List.flatten_singleton]
      exact (congrArg (fun text => joinPlain (⟨text, none⟩ :: us)) hflat).trans
        (joinPlain_cons_cons _ _ us).symm

/-- A token of a category ends the plain text before it. -/
theorem Cursor.upTo_emit (k : Cursor) {text : Text} (htext : text ≠ []) (c : Category)
    (us : List Token) : (k.emit text (some c)).upTo us = k.upTo (⟨text, some c⟩ :: us) := by
  have hempty : ¬text.isEmpty = true := fun h => htext (List.isEmpty_iff.1 h)
  have hplain : ¬(Token.mk text (some c)).isPlain = true := Bool.false_ne_true
  have hjoin : joinPlain (⟨text, some c⟩ :: us) = ⟨text, some c⟩ :: joinPlain us :=
    Token.join_of_not_isPlain hplain _
  have hend : (k.emit text (some c)).upTo us = k.upTo [] ++ ⟨text, some c⟩ :: joinPlain us := by
    rw [Cursor.emit, if_neg hempty]
    dsimp only
    rw [Cursor.flush_eq]
    exact List.append_assoc _ _ _
  rw [hend, Cursor.upTo, Cursor.upTo, List.append_assoc]
  refine congrArg (k.tokens ++ ·) ?_
  unfold Cursor.pending
  split
  · exact hjoin.symm
  · exact (congrArg (Token.join ⟨k.held.flatten, none⟩) hjoin).symm

theorem Cursor.standsAs_flush (k : Cursor) : k.StandsAs k.flush := by
  rw [Cursor.flush_eq]
  exact ⟨rfl, rfl, rfl⟩

theorem Cursor.standsAs_emit (k : Cursor) (text : Text) (c : Option Category) :
    k.StandsAs (k.emit text c) := by
  unfold Cursor.emit
  split
  · exact ⟨rfl, rfl, rfl⟩
  · cases c with
    | none => exact ⟨rfl, rfl, rfl⟩
    | some c =>
      have hflush := k.standsAs_flush
      exact ⟨hflush.source, hflush.vocabulary, hflush.place⟩

theorem Cursor.standsAs_emitCode (k : Cursor) (gap s : Text) : k.StandsAs (k.emitCode gap s) := by
  fun_induction Cursor.emitCode k gap s with
  | case1 k gap => exact k.standsAs_emit gap none
  | case2 k gap c r hc word rest hcategory ih => exact ih
  | case3 k gap c r hc word rest category hcategory ih =>
    exact ((k.standsAs_emit gap none).trans (Cursor.standsAs_emit _ word _)).trans ih
  | case4 k gap c r hc ih => exact ih

/-- Emitting code comes to its tokens. -/
theorem Cursor.upTo_emitCode (k : Cursor) (gap s : Text) (us : List Token) :
    (k.emitCode gap s).upTo us = k.upTo (plainToken gap ++ (codeTokens k.vocabulary s ++ us)) := by
  fun_induction Cursor.emitCode k gap s with
  | case1 k gap => rw [Cursor.upTo_emit_plain, codeTokens, List.nil_append]
  | case2 k gap c r hc word rest hcategory ih =>
    rw [ih, Cursor.upTo_plainToken_append k gap (List.cons_ne_nil _ _), codeTokens, if_pos hc]
    dsimp only
    rw [hcategory]
    rfl
  | case3 k gap c r hc word rest category hcategory ih =>
    have hstands := (k.standsAs_emit gap none).trans (Cursor.standsAs_emit _ word (some category))
    rw [ih, hstands.vocabulary, Cursor.upTo_emit _ (List.cons_ne_nil _ _), Cursor.upTo_emit_plain,
      codeTokens, if_pos hc]
    dsimp only
    rw [hcategory]
    rfl
  | case4 k gap c r hc ih =>
    rw [ih, Cursor.upTo_plainToken_append k gap (List.cons_ne_nil _ _), codeTokens, if_neg hc]
    rfl

theorem Cursor.standsAs_emitRegion (k : Cursor) (r : Region) : k.StandsAs (k.emitRegion r) := by
  unfold Cursor.emitRegion
  split
  · exact k.standsAs_emitCode [] r.text
  · exact k.standsAs_emit r.text _

theorem Cursor.upTo_emitRegion (k : Cursor) {r : Region} (hr : r.text ≠ []) (us : List Token) :
    (k.emitRegion r).upTo us = k.upTo (r.tokens k.vocabulary ++ us) := by
  obtain ⟨kind, text, terminated⟩ := r
  cases kind with
  | code => exact k.upTo_emitCode [] text us
  | string => exact k.upTo_emit hr .string us
  | lineComment => exact k.upTo_emit hr .comment us
  | blockComment => exact k.upTo_emit hr .comment us

/-- Emitting regions one after the other comes to all of their tokens. -/
theorem Cursor.upTo_foldl_emitRegion {rs : List Region} (hrs : ∀ r ∈ rs, r.text ≠ [])
    (k : Cursor) (us : List Token) : (rs.foldl Cursor.emitRegion k).upTo us =
      k.upTo (rs.flatMap (Region.tokens k.vocabulary) ++ us) ∧
        k.StandsAs (rs.foldl Cursor.emitRegion k) := by
  induction rs generalizing k with
  | nil => exact ⟨rfl, rfl, rfl, rfl⟩
  | cons r rs ih =>
    obtain ⟨hr, hrs⟩ := List.forall_mem_cons.1 hrs
    have hstands := k.standsAs_emitRegion r
    obtain ⟨hupTo, hrest⟩ := ih hrs (k.emitRegion r)
    refine ⟨?_, hstands.trans hrest⟩
    rw [List.foldl_cons, hupTo, hstands.vocabulary, Cursor.upTo_emitRegion k hr,
      List.flatMap_cons, List.append_assoc]

/-- Whatever a cursor carries, it classifies its source. -/
theorem Cursor.tokenize_eq (k : Cursor) : k.tokenize = (classify k.vocabulary k.source,
    ⟨k.source, k.vocabulary, k.source.length, classify k.vocabulary k.source, []⟩) := by
  obtain ⟨hupTo, hstands⟩ := Cursor.upTo_foldl_emitRegion
    (fun _ hr => text_ne_nil_of_mem_scan hr) ⟨k.source, k.vocabulary, k.source.length, [], []⟩ []
  rw [List.append_nil] at hupTo
  have hdone : ((SqlSnippet.scan k.source).foldl Cursor.emitRegion
      ⟨k.source, k.vocabulary, k.source.length, [], []⟩).flush =
        ⟨k.source, k.vocabulary, k.source.length, classify k.vocabulary k.source, []⟩ := by
    rw [Cursor.flush_eq, hupTo, hstands.source, hstands.vocabulary, hstands.place]
    rfl
  unfold Cursor.tokenize
  rw [Cursor.scan_eq]
  exact congrArg (fun last : Cursor => (last.tokens, last)) hdone

/-! ## Calls in any order -/

/-- A call of a cursor by its owner, or the cursor put at another place. -/
inductive Cursor.Call where
  | peek (distance : Int)
  | seek (place : Int)
  | scan
  | tokenize
  deriving DecidableEq, Repr

/-- What a call gives back. -/
inductive Cursor.Answer where
  | glimpse (g : Glimpse)
  | nothing
  | spans (ps : List Span)
  | tokens (ts : List Token)
  deriving DecidableEq, Repr

/-- The answer of a call, and the cursor after it. -/
def Cursor.call (k : Cursor) : Cursor.Call → Cursor.Answer × Cursor
  | .peek distance => (.glimpse (k.peek distance), k)
  | .seek place => (.nothing, k.seek place)
  | .scan => (.spans k.spans.1, k.spans.2)
  | .tokenize => (.tokens k.tokenize.1, k.tokenize.2)

theorem Cursor.call_scan (k : Cursor) : k.call .scan =
    (.spans ((scanPlaced k.source).map Span.ofPlaced), k.seek k.source.length) := by
  rw [Cursor.call, Cursor.spans_eq]

theorem Cursor.call_tokenize (k : Cursor) : k.call .tokenize =
    (.tokens (classify k.vocabulary k.source),
      ⟨k.source, k.vocabulary, k.source.length, classify k.vocabulary k.source, []⟩) := by
  rw [Cursor.call, Cursor.tokenize_eq]

/-- A cursor after calls. -/
def Cursor.after (k : Cursor) (calls : List Cursor.Call) : Cursor :=
  calls.foldl (fun k c => (k.call c).2) k

/-- What a cursor keeps through calls : its source and its words, no plain text held back, and the
tokens of the source once it has been classified. -/
structure IsKept (v : Vocabulary) (s : Text) (calls : List Cursor.Call) (k : Cursor) : Prop where
  source : k.source = s
  vocabulary : k.vocabulary = v
  held : k.held = []
  tokens : k.tokens = if .tokenize ∈ calls then classify v s else []

theorem isKept_ofSource (v : Vocabulary) (s : Text) : IsKept v s [] (Cursor.ofSource v s) :=
  ⟨rfl, rfl, rfl, rfl⟩

section Kept

variable {v : Vocabulary} {s : Text} {calls : List Cursor.Call} {k : Cursor}

/-- Each call keeps it. -/
theorem IsKept.call (h : IsKept v s calls k) (c : Cursor.Call) :
    IsKept v s (calls ++ [c]) (k.call c).2 := by
  have htokens : c ≠ .tokenize →
      k.tokens = if .tokenize ∈ calls ++ [c] then classify v s else [] := by
    intro hc
    refine h.tokens.trans (if_congr ?_ rfl rfl)
    rw [List.mem_append, List.mem_singleton, or_iff_left hc.symm]
  cases c with
  | peek d => exact ⟨h.source, h.vocabulary, h.held, htokens nofun⟩
  | seek p => exact ⟨h.source, h.vocabulary, h.held, htokens nofun⟩
  | scan =>
    rw [Cursor.call_scan]
    exact ⟨h.source, h.vocabulary, h.held, htokens nofun⟩
  | tokenize =>
    have hmem : Cursor.Call.tokenize ∈ calls ++ [.tokenize] :=
      List.mem_append_right _ (List.mem_singleton_self _)
    rw [Cursor.call_tokenize]
    exact ⟨h.source, h.vocabulary, rfl, by rw [if_pos hmem, h.source, h.vocabulary]⟩

/-- Calls one after another keep it. -/
theorem IsKept.after (h : IsKept v s calls k) (more : List Cursor.Call) :
    IsKept v s (calls ++ more) (k.after more) := by
  induction more generalizing calls k with
  | nil => rwa [List.append_nil]
  | cons c more ih =>
    rw [List.append_cons]
    exact ih (h.call c)

end Kept

/-- A cursor can be called in any order and put at any place : each scan gives the regions of the
source and each classification its tokens, both leave the cursor at the end, and after every call
it has the source and the words it was made of, no plain text held back, and the tokens of the
source if it has been classified and none otherwise. -/
theorem cursor_reusable (s : Text) (keywords functions : List Text) (calls : List Cursor.Call)
    (c : Cursor.Call) :
    let v := Vocabulary.ofWords keywords functions
    let before := (Cursor.ofSource v s).after calls
    let answer := (before.call c).1
    let k := (before.call c).2
    (c = .scan → answer = .spans ((scanPlaced s).map Span.ofPlaced) ∧ k.place = s.length) ∧
    (c = .tokenize → answer = .tokens (classify v s) ∧ k.place = s.length) ∧
    k.tokens = (if .tokenize ∈ calls ++ [c] then classify v s else []) ∧
    k.held = [] ∧ k.source = s ∧ k.vocabulary = v := by
  intro v before answer k
  have hbefore : IsKept v s calls before := (isKept_ofSource v s).after calls
  have hk := hbefore.call c
  refine ⟨?_, ?_, hk.tokens, hk.held, hk.source, hk.vocabulary⟩
  · rintro rfl
    have hscan := before.call_scan
    rw [hbefore.source] at hscan
    exact ⟨congrArg Prod.fst hscan, congrArg (Cursor.place ∘ Prod.snd) hscan⟩
  · rintro rfl
    have htokenize := before.call_tokenize
    rw [hbefore.source, hbefore.vocabulary] at htokenize
    exact ⟨congrArg Prod.fst htokenize, congrArg (Cursor.place ∘ Prod.snd) htokenize⟩

end SqlSnippet
