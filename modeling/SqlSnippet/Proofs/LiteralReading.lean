import Mathlib.Algebra.Group.Nat.Defs
import SqlSnippet.Data.Reading
import SqlSnippet.Proofs.StoredText
import SqlSnippet.Text.Quoted

/-!
# Quoted literals that are read back

A quoted literal shows a text so that it can be read back (`unquoted_quotedBy`) and stands on one
line (`not_mem_lineBreaks_of_mem_quotedBy`). Which characters are shown as they are makes no
difference to the first, and to the second only that line breaks are not.
-/

namespace SqlSnippet

/-! ## Hexadecimal digits -/

theorem hexValue?_digitChar : ∀ d < 16, hexValue? (Nat.digitChar d) = some d := by
  decide

theorem readHex?_concat (s : Text) (c : Char) : readHex? (s ++ [c]) =
    (readHex? s).bind fun n => (hexValue? c).map (n * 16 + ·) := by
  rw [readHex?, List.foldlM_append, ← readHex?]
  simp only [List.foldlM_cons, List.foldlM_nil, bind_pure]
  rfl

/-- Hexadecimal digits are read as the number whose last digits they are. -/
theorem readHex?_hexDigits (width n : Nat) :
    readHex? (hexDigits width n) = some (n % 16 ^ width) := by
  induction width generalizing n with
  | zero =>
    rw [Nat.pow_zero, Nat.mod_one]
    rfl
  | succ width ih =>
    rw [hexDigits, readHex?_concat, ih, hexValue?_digitChar _ (Nat.mod_lt n (by decide)),
      Nat.pow_succ', Nat.mod_mul, Nat.add_comm, Nat.mul_comm 16]
    rfl

theorem length_hexDigits (width n : Nat) : (hexDigits width n).length = width := by
  induction width generalizing n with
  | zero => rfl
  | succ width ih => rw [hexDigits, List.length_append, ih, List.length_singleton]

theorem exists_digitChar_of_mem_hexDigits {width n : Nat} {c : Char} (h : c ∈ hexDigits width n) :
    ∃ d < 16, c = Nat.digitChar d := by
  induction width generalizing n with
  | zero => cases h
  | succ width ih =>
    rcases List.mem_append.1 h with h | h
    · exact ih h
    · exact ⟨_, Nat.mod_lt n (by decide), List.mem_singleton.1 h⟩

/-! ## Reading -/

/-- The character that one stands for after a backslash. -/
def escapedChar? : Char → Option Char
  | '\\' => some '\\'
  | '\'' => some '\''
  | '"' => some '"'
  | 'n' => some '\n'
  | 'r' => some '\r'
  | 't' => some '\t'
  | _ => none

/-- How many hexadecimal digits follow a letter after a backslash. -/
def escapeWidth? : Char → Option Nat
  | 'x' => some 2
  | 'u' => some 4
  | 'U' => some 8
  | _ => none

/-- Read an escape after its backslash. -/
def readEscape? : Text → Option (Char × Text)
  | [] => none
  | e :: r =>
    match escapeWidth? e with
    | none => (escapedChar? e).map (·, r)
    | some width =>
      if r.length < width then none
      else (readHex? (r.take width)).bind fun n =>
        if n.isValidChar then some (Char.ofNat n, r.drop width) else none

theorem length_lt_of_readEscape? {s r : Text} {c : Char} (h : readEscape? s = some (c, r)) :
    r.length < s.length := by
  cases s with
  | nil => cases h
  | cons e s =>
    rw [readEscape?] at h
    split at h
    · obtain ⟨_, -, heq⟩ := Option.map_eq_some_iff.1 h
      obtain rfl := (Prod.mk.inj heq).2
      exact Nat.lt_succ_self _
    · split at h
      · cases h
      · obtain ⟨n, -, hn⟩ := Option.bind_eq_some_iff.1 h
        rw [Option.ite_none_right_eq_some, Option.some.injEq, Prod.mk.injEq] at hn
        rw [← hn.2.2, List.length_drop, List.length_cons]
        omega

/-- Read a literal to the quote at its end. -/
def readLiteral? (quote : Char) (s : Text) : Option (Text × Text) :=
  match s with
  | [] => none
  | c :: r =>
    if c = quote then some ([], r)
    else if c = '\\' then
      match _ : readEscape? r with
      | none => none
      | some (d, rest) => (readLiteral? quote rest).map fun (t, rest) => (d :: t, rest)
    else (readLiteral? quote r).map fun (t, rest) => (c :: t, rest)
termination_by s.length
decreasing_by
  · next h => exact Nat.lt_succ_of_lt (length_lt_of_readEscape? h)
  · exact Nat.lt_succ_self _

/-- The text that a quoted literal shows, which is all of a text. -/
def unquoted : Text → Option Text
  | [] => none
  | quote :: r =>
    if quote = '\'' ∨ quote = '"' then
      match readLiteral? quote r with
      | some (s, []) => some s
      | _ => none
    else none

/-! ## Writing -/

/-- Write a character between quotes, where `printable` says which are shown as they are. -/
def quoteCharBy (printable : Char → Bool) (quote c : Char) : Text :=
  if c = quote ∨ c = '\\' then ['\\', c]
  else if c = '\n' then ['\\', 'n']
  else if c = '\r' then ['\\', 'r']
  else if c = '\t' then ['\\', 't']
  else if printable c then [c]
  else if c.toNat < 0x100 then '\\' :: 'x' :: hexDigits 2 c.toNat
  else if c.toNat < 0x10000 then '\\' :: 'u' :: hexDigits 4 c.toNat
  else '\\' :: 'U' :: hexDigits 8 c.toNat

/-- The quoted literal of a text, where `printable` says which characters are shown as they are. -/
def quotedBy (printable : Char → Bool) (s : Text) : Text :=
  quoteFor s :: s.flatMap (quoteCharBy printable (quoteFor s)) ++ [quoteFor s]

theorem quoted_eq_quotedBy (s : Text) : quoted s = quotedBy isPrintable s :=
  rfl

/-! ## Reading what has been written -/

section

variable {printable : Char → Bool} {quote c d e : Char} {s r rest : Text}

theorem readEscape?_hexDigits {width : Nat} (he : escapeWidth? e = some width)
    (hc : c.toNat < 16 ^ width) (r : Text) :
    readEscape? (e :: (hexDigits width c.toNat ++ r)) = some (c, r) := by
  have hlength := length_hexDigits width c.toNat
  have hshort : ¬(hexDigits width c.toNat ++ r).length < width := by
    rw [List.length_append, hlength]
    omega
  have hvalid : c.toNat.isValidChar := c.valid
  rw [readEscape?, he]
  dsimp only
  rw [if_neg hshort, List.take_left' hlength, List.drop_left' hlength, readHex?_hexDigits,
    Nat.mod_eq_of_lt hc, Option.bind_some, if_pos hvalid, Char.ofNat_toNat]

theorem readLiteral?_backslash (hquote : quote ≠ '\\') (h : readEscape? r = some (d, rest)) :
    readLiteral? quote ('\\' :: r) =
      (readLiteral? quote rest).map fun (t, rest) => (d :: t, rest) := by
  rw [readLiteral?, if_neg (Ne.symm hquote), if_pos rfl]
  split
  · next hr => cases hr.symm.trans h
  · next hr =>
    cases hr.symm.trans h
    rfl

/-- A character between quotes is read back. -/
theorem readLiteral?_quoteCharBy (printable : Char → Bool) (hquote : quote = '\'' ∨ quote = '"')
    (c : Char) (r : Text) : readLiteral? quote (quoteCharBy printable quote c ++ r) =
      (readLiteral? quote r).map fun (t, rest) => (c :: t, rest) := by
  have hbackslash : quote ≠ '\\' := by
    rcases hquote with rfl | rfl <;> decide
  unfold quoteCharBy
  split
  · next hc =>
    refine readLiteral?_backslash hbackslash ?_
    rcases hc with rfl | rfl
    · rcases hquote with rfl | rfl <;> rfl
    · rfl
  next hc =>
  obtain ⟨hcquote, hcbackslash⟩ := not_or.1 hc
  split
  · next hc => exact readLiteral?_backslash hbackslash (hc ▸ rfl)
  split
  · next hc => exact readLiteral?_backslash hbackslash (hc ▸ rfl)
  split
  · next hc => exact readLiteral?_backslash hbackslash (hc ▸ rfl)
  split
  · rw [List.singleton_append, readLiteral?, if_neg hcquote, if_neg hcbackslash]
  split
  · next hc => exact readLiteral?_backslash hbackslash (readEscape?_hexDigits rfl hc r)
  split
  · next hc => exact readLiteral?_backslash hbackslash (readEscape?_hexDigits rfl hc r)
  · have hc : c.toNat < 16 ^ 8 := by
      have := Utf8.toNat_lt c
      omega
    exact readLiteral?_backslash hbackslash (readEscape?_hexDigits rfl hc r)

theorem readLiteral?_flatMap (printable : Char → Bool) (hquote : quote = '\'' ∨ quote = '"')
    (s r : Text) : readLiteral? quote (s.flatMap (quoteCharBy printable quote) ++ quote :: r) =
      some (s, r) := by
  induction s with
  | nil => rw [List.flatMap_nil, List.nil_append, readLiteral?, if_pos rfl]
  | cons c s ih =>
    rw [List.flatMap_cons, List.append_assoc, readLiteral?_quoteCharBy printable hquote, ih]
    rfl

theorem quoteFor_eq (s : Text) : quoteFor s = '\'' ∨ quoteFor s = '"' := by
  unfold quoteFor
  split
  · exact Or.inr rfl
  · exact Or.inl rfl

/-- A quoted literal is read back. -/
theorem unquoted_quotedBy (printable : Char → Bool) (s : Text) :
    unquoted (quotedBy printable s) = some s := by
  rw [quotedBy, List.cons_append, unquoted, if_pos (quoteFor_eq s),
    readLiteral?_flatMap printable (quoteFor_eq s) s []]

end

/-! ## Line breaks -/

/-- The characters at which a text may be taken to break into lines. -/
def lineBreaks : List Char :=
  ['\n', '\x0b', '\x0c', '\r', '\x1c', '\x1d', '\x1e', '\x85', '\u2028', '\u2029']

theorem not_isPrintable_of_mem_lineBreaks : ∀ c ∈ lineBreaks, isPrintable c = false := by
  have hall : lineBreaks.all (!isPrintable ·) = true := by decide +kernel
  intro c hc
  rw [← Bool.not_eq_true', List.all_eq_true.1 hall c hc]

theorem not_mem_lineBreaks_of_mem_hexDigits {width n : Nat} {c : Char}
    (h : c ∈ hexDigits width n) : c ∉ lineBreaks := by
  have hdigits : ∀ d < 16, Nat.digitChar d ∉ lineBreaks := by decide
  obtain ⟨d, hd, rfl⟩ := exists_digitChar_of_mem_hexDigits h
  exact hdigits d hd

/-- A character between quotes breaks no line, if line breaks are not shown as they are. -/
theorem not_mem_lineBreaks_of_mem_quoteCharBy {printable : Char → Bool} {quote c d : Char}
    (hprintable : ∀ c ∈ lineBreaks, printable c = false) (hquote : quote ∉ lineBreaks)
    (h : d ∈ quoteCharBy printable quote c) : d ∉ lineBreaks := by
  have hescape : ∀ {e : Char} {ds : Text}, e ∉ lineBreaks → (∀ d ∈ ds, d ∉ lineBreaks) →
      ∀ d ∈ '\\' :: e :: ds, d ∉ lineBreaks := fun he hds =>
    List.forall_mem_cons.2 ⟨by decide, List.forall_mem_cons.2 ⟨he, hds⟩⟩
  unfold quoteCharBy at h
  split at h
  · next hc =>
    refine hescape ?_ (List.forall_mem_nil _) d h
    rcases hc with rfl | rfl
    · exact hquote
    · decide
  split at h
  · exact hescape (by decide) (List.forall_mem_nil _) d h
  split at h
  · exact hescape (by decide) (List.forall_mem_nil _) d h
  split at h
  · exact hescape (by decide) (List.forall_mem_nil _) d h
  split at h
  · next hc =>
    obtain rfl := List.mem_singleton.1 h
    intro hbreak
    rw [hprintable d hbreak] at hc
    cases hc
  have hdigits : ∀ {width : Nat}, ∀ d ∈ hexDigits width c.toNat, d ∉ lineBreaks :=
    fun d => not_mem_lineBreaks_of_mem_hexDigits
  split at h
  · exact hescape (by decide) hdigits d h
  split at h
  · exact hescape (by decide) hdigits d h
  · exact hescape (by decide) hdigits d h

/-- A quoted literal stands on one line. -/
theorem not_mem_lineBreaks_of_mem_quotedBy {printable : Char → Bool} {s : Text} {d : Char}
    (hprintable : ∀ c ∈ lineBreaks, printable c = false) (h : d ∈ quotedBy printable s) :
    d ∉ lineBreaks := by
  have hquote : quoteFor s ∉ lineBreaks := by
    rcases quoteFor_eq s with hq | hq <;> rw [hq] <;> decide
  rw [quotedBy, List.cons_append, List.mem_cons, List.mem_append, List.mem_singleton] at h
  rcases h with rfl | h | rfl
  · exact hquote
  · obtain ⟨c, -, hd⟩ := List.mem_flatMap.1 h
    exact not_mem_lineBreaks_of_mem_quoteCharBy hprintable hquote hd
  · exact hquote

end SqlSnippet
