import SqlSnippet.Files.Tree

/-!
# Stored texts

A text that is written as bytes is read back (`decode_encode`). The first byte of a character says
how many follow and what the second one may be, so there is a law for each length
(`decodeHead_one` and so on), put together in `exists_encodeChar`. Reading makes all line breaks
line feeds, so a text without carriage returns is read back from a file as it was written
(`textOfBytes_encode`).
-/

namespace SqlSnippet

namespace Utf8

/-! ## Shapes of sequences -/

theorem sequenceShape?_one {n : Nat} (h : n < 0x80) :
    sequenceShape? (.ofNat n) = some (0, 0x80, 0xBF) :=
  (show ∀ i : Fin 0x80, sequenceShape? (.ofNat i) = some (0, 0x80, 0xBF) by decide) ⟨n, h⟩

theorem sequenceShape?_two {n : Nat} (h : 2 ≤ n) (h' : n < 0x20) :
    sequenceShape? (.ofNat (0xC0 + n)) = some (1, 0x80, 0xBF) :=
  (show ∀ i : Fin 0x20, 2 ≤ i.val → sequenceShape? (.ofNat (0xC0 + i)) = some (1, 0x80, 0xBF)
    by decide) ⟨n, h'⟩ h

theorem sequenceShape?_three {n : Nat} (h : n < 0x10) :
    sequenceShape? (.ofNat (0xE0 + n)) =
      some (2, if n = 0 then 0xA0 else 0x80, if n = 13 then 0x9F else 0xBF) :=
  (show ∀ i : Fin 0x10, sequenceShape? (.ofNat (0xE0 + i)) =
    some (2, if i.val = 0 then 0xA0 else 0x80, if i.val = 13 then 0x9F else 0xBF)
    by decide) ⟨n, h⟩

theorem sequenceShape?_four {n : Nat} (h : n < 5) :
    sequenceShape? (.ofNat (0xF0 + n)) =
      some (3, if n = 0 then 0x90 else 0x80, if n = 4 then 0x8F else 0xBF) :=
  (show ∀ i : Fin 5, sequenceShape? (.ofNat (0xF0 + i)) =
    some (3, if i.val = 0 then 0x90 else 0x80, if i.val = 4 then 0x8F else 0xBF)
    by decide) ⟨n, h⟩

/-! ## Characters -/

theorem toNat_ofNat_of_lt {n : Nat} (h : n < 256) : (UInt8.ofNat n).toNat = n := by
  rw [UInt8.toNat_ofNat']
  exact Nat.mod_eq_of_lt h

/-- A byte that continues a sequence gives its six low bits to the character. -/
theorem decodeTail_continue (seen : List UInt8) (code : Nat) {lo hi : UInt8} (follow : Nat)
    (rest : List UInt8) {n : Nat} (hn : n < 64) (hlo : lo.toNat ≤ 0x80 + n)
    (hhi : 0x80 + n ≤ hi.toNat) :
    decodeTail seen code lo hi (follow + 1) (.ofNat (0x80 + n) :: rest) =
      decodeTail (seen ++ [.ofNat (0x80 + n)]) (code * 64 + n) 0x80 0xBF follow rest := by
  have hbyte : (UInt8.ofNat (0x80 + n)).toNat = 0x80 + n := toNat_ofNat_of_lt (by omega)
  have hbits : (0x80 + n) % 64 = n := by omega
  have hrange : lo ≤ .ofNat (0x80 + n) ∧ .ofNat (0x80 + n) ≤ hi := by
    rw [UInt8.le_iff_toNat_le, UInt8.le_iff_toNat_le, hbyte]
    exact ⟨hlo, hhi⟩
  rw [decodeTail, if_pos hrange, hbyte, hbits]

/-- No byte that continues a sequence lies below the least one. -/
theorem leastTail_le (n : Nat) : (0x80 : UInt8).toNat ≤ 0x80 + n :=
  Nat.le_add_right _ _

theorem le_mostTail {n : Nat} (h : n < 64) : 0x80 + n ≤ (0xBF : UInt8).toNat := by
  change _ ≤ 0xBF
  omega

theorem decodeTail_last (seen : List UInt8) (code : Nat) (lo hi : UInt8) (rest : List UInt8) :
    decodeTail seen code lo hi 0 rest = .ok (code, rest) := by
  rw [decodeTail]

/-- The code points of characters leave out the surrogates. -/
theorem toNat_lt (c : Char) : c.toNat < 0xD800 ∨ 0xDFFF < c.toNat ∧ c.toNat < 0x110000 :=
  c.valid

theorem decodeHead_one {n : Nat} (h : n < 0x80) (rest : List UInt8) :
    decodeHead (.ofNat n) rest = .ok (n, rest) := by
  rw [decodeHead, sequenceShape?_one h]
  dsimp only
  rw [decodeTail_last, leadBits, toNat_ofNat_of_lt (by omega)]

theorem decodeHead_two {n : Nat} (h : 0x80 ≤ n) (h' : n < 0x800) (rest : List UInt8) :
    decodeHead (.ofNat (0xC0 + n / 64)) (.ofNat (0x80 + n % 64) :: rest) = .ok (n, rest) := by
  have hcut : n % 64 < 64 := Nat.mod_lt _ (by decide)
  have hlead : leadBits (.ofNat (0xC0 + n / 64)) 1 = n / 64 := by
    rw [leadBits, toNat_ofNat_of_lt (by omega)]
    omega
  have hcode : n / 64 * 64 + n % 64 = n := by omega
  rw [decodeHead, sequenceShape?_two (by omega) (by omega)]
  dsimp only
  rw [hlead, decodeTail_continue _ _ _ _ hcut (leastTail_le _) (le_mostTail hcut),
    decodeTail_last, hcode]

theorem decodeHead_three {n : Nat} (h : 0x800 ≤ n) (h' : n < 0x10000)
    (hvalid : n < 0xD800 ∨ 0xDFFF < n) (rest : List UInt8) :
    decodeHead (.ofNat (0xE0 + n / 4096))
      (.ofNat (0x80 + n / 64 % 64) :: .ofNat (0x80 + n % 64) :: rest) = .ok (n, rest) := by
  have hcut : ∀ m : Nat, m % 64 < 64 := fun m => Nat.mod_lt _ (by decide)
  have hlead : leadBits (.ofNat (0xE0 + n / 4096)) 2 = n / 4096 := by
    rw [leadBits, toNat_ofNat_of_lt (by omega)]
    omega
  have hleast : (if n / 4096 = 0 then 0xA0 else 0x80 : UInt8).toNat ≤ 0x80 + n / 64 % 64 := by
    split
    · change 0xA0 ≤ _
      omega
    · exact leastTail_le _
  -- surrogates are left out
  have hmost : 0x80 + n / 64 % 64 ≤ (if n / 4096 = 13 then 0x9F else 0xBF : UInt8).toNat := by
    split
    · change _ ≤ 0x9F
      omega
    · exact le_mostTail (hcut _)
  have hcode : (n / 4096 * 64 + n / 64 % 64) * 64 + n % 64 = n := by omega
  rw [decodeHead, sequenceShape?_three (by omega)]
  dsimp only
  rw [hlead, decodeTail_continue _ _ _ _ (hcut _) hleast hmost,
    decodeTail_continue _ _ _ _ (hcut _) (leastTail_le _) (le_mostTail (hcut _)),
    decodeTail_last, hcode]

theorem decodeHead_four {n : Nat} (h : 0x10000 ≤ n) (h' : n < 0x110000) (rest : List UInt8) :
    decodeHead (.ofNat (0xF0 + n / 262144))
      (.ofNat (0x80 + n / 4096 % 64) :: .ofNat (0x80 + n / 64 % 64) ::
        .ofNat (0x80 + n % 64) :: rest) = .ok (n, rest) := by
  have hcut : ∀ m : Nat, m % 64 < 64 := fun m => Nat.mod_lt _ (by decide)
  have hlead : leadBits (.ofNat (0xF0 + n / 262144)) 3 = n / 262144 := by
    change (UInt8.ofNat _).toNat % 0x08 = _
    rw [toNat_ofNat_of_lt (by omega)]
    omega
  have hleast : (if n / 262144 = 0 then 0x90 else 0x80 : UInt8).toNat ≤ 0x80 + n / 4096 % 64 := by
    split
    · change 0x90 ≤ _
      omega
    · exact leastTail_le _
  have hmost : 0x80 + n / 4096 % 64 ≤ (if n / 262144 = 4 then 0x8F else 0xBF : UInt8).toNat := by
    split
    · change _ ≤ 0x8F
      omega
    · exact le_mostTail (hcut _)
  have hcode : ((n / 262144 * 64 + n / 4096 % 64) * 64 + n / 64 % 64) * 64 + n % 64 = n := by
    omega
  rw [decodeHead, sequenceShape?_four (by omega)]
  dsimp only
  rw [hlead, decodeTail_continue _ _ _ _ (hcut _) hleast hmost,
    decodeTail_continue _ _ _ _ (hcut _) (leastTail_le _) (le_mostTail (hcut _)),
    decodeTail_continue _ _ _ _ (hcut _) (leastTail_le _) (le_mostTail (hcut _)),
    decodeTail_last, hcode]

/-- A character that is written is read. -/
theorem exists_encodeChar (c : Char) : ∃ b bs, encodeChar c = b :: bs ∧
    ∀ rest, decodeHead b (bs ++ rest) = .ok (c.toNat, rest) := by
  have hvalid := toNat_lt c
  have hzero (n : Nat) : n / Nat.pow 64 0 = n := Nat.div_one n
  unfold encodeChar
  dsimp only
  rw [hzero]
  split
  · next h => exact ⟨_, _, rfl, decodeHead_one h⟩
  split
  · next h h' => exact ⟨_, _, rfl, decodeHead_two (Nat.not_lt.1 h) h'⟩
  split
  · next h h' => exact ⟨_, _, rfl, decodeHead_three (Nat.not_lt.1 h) h' (by omega)⟩
  · next h => exact ⟨_, _, rfl, decodeHead_four (Nat.not_lt.1 h) (by omega)⟩

/-! ## Texts -/

theorem decodeFrom_encode (offset : Nat) (s : List Char) :
    decodeFrom offset (encode s) = .ok s := by
  induction s generalizing offset with
  | nil => rw [encode, List.flatMap_nil, decodeFrom]
  | cons c s ih =>
    obtain ⟨b, bs, hc, hhead⟩ := exists_encodeChar c
    rw [encode, List.flatMap_cons, hc, List.cons_append, decodeFrom]
    split
    · next h =>
      rw [hhead] at h
      cases h
    · next code rest h =>
      rw [hhead] at h
      cases h
      change (decodeFrom _ (encode s)).map _ = _
      rw [ih, Char.ofNat_toNat]
      rfl

/-- A text that is written is read. -/
theorem decode_encode (s : List Char) : decode (encode s) = .ok s :=
  decodeFrom_encode 0 s

end Utf8

/-! ## Line breaks -/

theorem unifyBreaks_of_not_mem {s : Text} (h : '\r' ∉ s) : Text.unifyBreaks s = s := by
  fun_induction Text.unifyBreaks s with
  | case1 => rfl
  | case2 r => exact absurd List.mem_cons_self h
  | case3 r => exact absurd List.mem_cons_self h
  | case4 c r hboth hcr ih => rw [ih fun hr => h (List.mem_cons_of_mem c hr)]

theorem carriageReturn_not_mem_unifyBreaks (s : Text) : '\r' ∉ Text.unifyBreaks s := by
  fun_induction Text.unifyBreaks s with
  | case1 => exact List.not_mem_nil
  | case2 r ih => exact List.not_mem_cons_of_ne_of_not_mem (by decide) ih
  | case3 r hr ih => exact List.not_mem_cons_of_ne_of_not_mem (by decide) ih
  | case4 c r hboth hcr ih => exact List.not_mem_cons_of_ne_of_not_mem (Ne.symm hcr) ih

namespace FileTree

theorem carriageReturn_not_mem_of_textOfBytes {bytes : List UInt8} {s : Text}
    (h : textOfBytes bytes = .ok s) : '\r' ∉ s := by
  unfold textOfBytes at h
  split at h
  · cases h
  · rw [← Except.ok.inj h]
    exact carriageReturn_not_mem_unifyBreaks _

/-- A text without carriage returns is read as it was written. -/
theorem textOfBytes_encode {s : Text} (h : '\r' ∉ s) : textOfBytes (Utf8.encode s) = .ok s := by
  rw [textOfBytes, Utf8.decode_encode]
  exact congrArg Except.ok (unifyBreaks_of_not_mem h)

end FileTree

end SqlSnippet
