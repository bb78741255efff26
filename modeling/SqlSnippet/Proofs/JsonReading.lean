import SqlSnippet.Data.Json
import SqlSnippet.Proofs.LiteralReading

/-!
# JSON that is read back

A string is read back as it was written (`Json.readString_flatMap`) : a character beyond the basic
plane is written as a surrogate pair, and the reader, which wants a character after the digits of an
escape, always finds the closing quote there.
-/

namespace SqlSnippet.Json

variable {start r rest s : Text} {c d : Char} {n : Nat}

/-! ## Strings -/

theorem readEscape_hexDigits (hn : n < 0xD800 ∨ 0xDFFF < n ∧ n < 0x10000) (hr : r ≠ []) :
    readEscape start ('u' :: (hexDigits 4 n ++ r)) = .ok (.char (.ofNat n), 5) := by
  have hlength := length_hexDigits 4 n
  have hlong : ¬(hexDigits 4 n ++ r).length < 5 := by
    have := List.length_pos_iff.2 hr
    rw [List.length_append]
    omega
  rw [readEscape, if_neg hlong, List.take_left' hlength, readHex?_hexDigits,
    Nat.mod_eq_of_lt (by omega)]
  dsimp only
  rw [if_neg (by omega), if_neg (by omega)]

/-- The two halves of a surrogate pair are one character. -/
theorem readEscape_surrogates {high low : Nat} (hhigh : 0xD800 ≤ high ∧ high < 0xDC00)
    (hlow : 0xDC00 ≤ low ∧ low < 0xE000) (hr : r ≠ []) :
    readEscape start ('u' :: (hexDigits 4 high ++ (unicodeEscape low ++ r))) =
      .ok (.char (.ofNat (0x10000 + (high - 0xD800) * 0x400 + (low - 0xDC00))), 11) := by
  have hlength := length_hexDigits 4 high
  have hlength' := length_hexDigits 4 low
  have hlong : 10 < (hexDigits 4 high ++ (unicodeEscape low ++ r)).length := by
    have := List.length_pos_iff.2 hr
    rw [List.length_append, List.length_append, unicodeEscape, List.length_cons, List.length_cons]
    omega
  have hsecond : (hexDigits 4 high ++ (unicodeEscape low ++ r)).drop 6 = hexDigits 4 low ++ r := by
    rw [show 6 = 4 + 2 from rfl, ← List.drop_drop, List.drop_left' hlength]
    rfl
  rw [readEscape, if_neg (by omega), List.take_left' hlength, readHex?_hexDigits,
    Nat.mod_eq_of_lt (by omega), List.drop_left' hlength, hsecond, List.take_left' hlength',
    readHex?_hexDigits, Nat.mod_eq_of_lt (by omega)]
  dsimp only
  rw [if_pos ⟨hhigh.1, hhigh.2, hlong, rfl⟩, if_pos hlow]

theorem readString_backslash {p : CodePoint} (h : readEscape start r = .ok (p, n)) :
    readString start ('\\' :: r) =
      (readString start (r.drop n)).map fun (x, rest) => (p :: x, rest) := by
  rw [readString, if_neg (by decide), if_pos rfl]
  split
  · next hr => cases hr.symm.trans h
  · next hr =>
    cases hr.symm.trans h
    rfl

theorem readString_escaped {e : Char} (hu : e ≠ 'u') (h : escaped? e = some d) (r : Text) :
    readString start ('\\' :: e :: r) =
      (readString start r).map fun (x, rest) => (.char d :: x, rest) := by
  have hescape : readEscape start (e :: r) = .ok (.char d, 1) := by
    rw [readEscape]
    · rw [h]
    · exact hu
  exact readString_backslash hescape

theorem readString_unicodeEscape (hn : n < 0xD800 ∨ 0xDFFF < n ∧ n < 0x10000) (hr : r ≠ []) :
    readString start (unicodeEscape n ++ r) =
      (readString start r).map fun (x, rest) => (.char (.ofNat n) :: x, rest) := by
  have hdrop : ('u' :: (hexDigits 4 n ++ r)).drop 5 = r :=
    List.drop_left' (length_hexDigits 4 n)
  rw [unicodeEscape, List.cons_append, List.cons_append,
    readString_backslash (readEscape_hexDigits hn hr), hdrop]

theorem readString_surrogates {high low : Nat} (hhigh : 0xD800 ≤ high ∧ high < 0xDC00)
    (hlow : 0xDC00 ≤ low ∧ low < 0xE000) (hr : r ≠ []) :
    readString start (unicodeEscape high ++ unicodeEscape low ++ r) =
      (readString start r).map fun (x, rest) =>
        (.char (.ofNat (0x10000 + (high - 0xD800) * 0x400 + (low - 0xDC00))) :: x, rest) := by
  have hdrop : ('u' :: (hexDigits 4 high ++ (unicodeEscape low ++ r))).drop 11 = r := by
    have hlength : (hexDigits 4 high ++ unicodeEscape low).length = 10 := by
      rw [List.length_append, unicodeEscape, List.length_cons, List.length_cons,
        length_hexDigits, length_hexDigits]
    rw [← List.append_assoc]
    exact List.drop_left' hlength
  rw [List.append_assoc]
  exact (readString_backslash (readEscape_surrogates hhigh hlow hr)).trans (by rw [hdrop])

/-- A character of a string is read back. -/
theorem readString_writeChar (start : Text) (c : Char) (hr : r ≠ []) :
    readString start (writeChar c ++ r) =
      (readString start r).map fun (x, rest) => (.char c :: x, rest) := by
  have hvalid := Utf8.toNat_lt c
  unfold writeChar
  split
  iterate 7 exact readString_escaped (by decide) rfl r
  next hquote hbackslash _ _ _ _ _ =>
  dsimp only
  split
  · next hc =>
    rw [List.singleton_append, readString, if_neg hquote, if_neg hbackslash, if_neg (by omega)]
  split
  · next hc =>
    rw [readString_unicodeEscape (by omega) hr, Char.ofNat_toNat]
  · next hc =>
    have hcode : 0x10000 + (0xD800 + (c.toNat - 0x10000) / 0x400 - 0xD800) * 0x400 +
        (0xDC00 + (c.toNat - 0x10000) % 0x400 - 0xDC00) = c.toNat := by omega
    rw [readString_surrogates (by omega) (by omega) hr, hcode, Char.ofNat_toNat]

/-- A string is read back. -/
theorem readString_flatMap (start s rest : Text) :
    readString start (s.flatMap writeChar ++ '"' :: rest) = .ok (s.loose, rest) := by
  induction s with
  | nil =>
    rw [List.flatMap_nil, List.nil_append, readString, if_pos rfl]
    rfl
  | cons c s ih =>
    rw [List.flatMap_cons, List.append_assoc,
      readString_writeChar start c (List.append_ne_nil_of_right_ne_nil _ (List.cons_ne_nil _ _)),
      ih]
    rfl

/-! ## Values -/

variable {steps depth : Nat} {x : Text} {v : Value}

theorem skipSpace_cons (hc : isSpace c = false) : skipSpace (c :: r) = c :: r :=
  List.dropWhile_cons_of_neg (Bool.eq_false_iff.1 hc)

/-- The text starts a value, and is read as this value whatever follows it. -/
structure ReadsAs (steps depth : Nat) (x : Text) (v : Value) : Prop where
  start : ∀ rest, skipSpace (x ++ rest) = x ++ rest
  value : ∀ rest, readValue steps depth (x ++ rest) = .ok (v, rest)

theorem readsAs_writeString (steps depth : Nat) (s : Text) :
    ReadsAs (steps + 1) depth (writeString s) (.text s.loose) where
  start rest := skipSpace_cons (by decide)
  value rest := by
    rw [writeString, List.append_assoc, List.cons_append, List.singleton_append, readValue,
      readString_flatMap]
    rfl

theorem readsAs_null (steps depth : Nat) : ReadsAs (steps + 1) depth "null".toList .null where
  start rest := skipSpace_cons (by decide)
  value rest := rfl

/-- How the reader goes on after the entries of a table that it has read. -/
def entriesAfter (steps depth : Nat) (es : Entries) (r : Text) : Reading Fault Entries :=
  match skipSpace r with
  | '\x7d' :: r => .ok (es, r)
  | ',' :: r => readEntries steps depth es (skipSpace r)
  | r => stuck .expectingComma r

theorem readEntries_entry (h : ReadsAs steps depth x v) (es : Entries) (key r : Text) :
    readEntries (steps + 1) depth es (writeString key ++ (": ".toList ++ (x ++ r))) =
      entriesAfter steps depth (es.set key.loose v) r := by
  have hcolon : skipSpace (": ".toList ++ (x ++ r)) = ':' :: ' ' :: (x ++ r) := rfl
  have hspace : skipSpace (' ' :: (x ++ r)) = x ++ r := h.start r
  rw [writeString, List.append_assoc, List.cons_append, List.singleton_append, readEntries,
    readString_flatMap]
  simp only [hcolon, hspace, h.value]
  rfl

theorem readEntries_entry_comma (h : ReadsAs steps depth x v) (es : Entries)
    (key key' r : Text) :
    readEntries (steps + 1) depth es
      (writeString key ++ (": ".toList ++ (x ++ (",\n    ".toList ++ (writeString key' ++ r))))) =
      readEntries steps depth (es.set key.loose v) (writeString key' ++ r) :=
  readEntries_entry h es key _

theorem readEntries_entry_end (h : ReadsAs steps depth x v) (es : Entries) (key r : Text) :
    readEntries (steps + 1) depth es
      (writeString key ++ (": ".toList ++ (x ++ ("\n  \x7d".toList ++ r)))) =
      .ok (es.set key.loose v, r) :=
  readEntries_entry h es key _

/-- How the reader goes on after an item of a list that it has read. -/
def itemsAfter (steps depth : Nat) (v : Value) (r : Text) : Reading Fault (List Value) :=
  match skipSpace r with
  | ']' :: r => .ok ([v], r)
  | ',' :: r => (readItems steps depth (skipSpace r)).map fun (vs, rest) => (v :: vs, rest)
  | r => stuck .expectingComma r

theorem readItems_item (h : ReadsAs steps depth x v) (r : Text) :
    readItems (steps + 1) depth (x ++ r) = itemsAfter steps depth v r := by
  rw [readItems, h.value]
  rfl

theorem readItems_item_comma (h : ReadsAs steps depth x v) (r : Text) :
    readItems (steps + 1) depth (x ++ (",\n".toList ++ r)) =
      (readItems steps depth (skipSpace r)).map fun (vs, rest) => (v :: vs, rest) :=
  readItems_item h _

theorem readItems_item_end (h : ReadsAs steps depth x v) (r : Text) :
    readItems (steps + 1) depth (x ++ ("\n]".toList ++ r)) = .ok ([v], r) :=
  readItems_item h _

theorem readValue_list (hr : (skipSpace r).head? ≠ some ']') :
    readValue (steps + 1) (depth + 1) ('[' :: r) =
      (readItems steps depth (skipSpace r)).map fun (vs, rest) => (.list vs, rest) := by
  rw [readValue, if_neg (Nat.succ_ne_zero depth)]
  split
  · next heq => exact absurd (congrArg List.head? heq) hr
  · rfl

theorem readValue_table {key : Text} (hr : skipSpace r = writeString key ++ rest) :
    readValue (steps + 1) (depth + 1) ('\x7b' :: r) =
      (readEntries steps depth [] (writeString key ++ rest)).map
        fun (es, rest) => (.table es, rest) := by
  rw [readValue, if_neg (Nat.succ_ne_zero depth), hr]
  rfl

end SqlSnippet.Json
