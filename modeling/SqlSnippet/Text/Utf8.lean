/-!
# UTF-8

Texts are stored as bytes in UTF-8. `Utf8.decode` reads bytes and refuses them at the first
sequence that is not well-formed, with the bytes that make it so: a byte that starts no sequence,
a byte that does not continue one, or an end in the middle of one. `Utf8.encode` writes a text.
-/

namespace SqlSnippet.Utf8

/-- Why bytes are not well-formed. -/
inductive Cause where
  | invalidStart
  | invalidContinuation
  | unexpectedEnd
  deriving DecidableEq, Repr

/-- Bytes that are not well-formed: the offset of the first and how many they are. -/
structure Malformed where
  cause : Cause
  offset : Nat
  bytes : List UInt8
  deriving DecidableEq, Repr

/-- The wording of a cause. -/
def Cause.message : Cause → String
  | .invalidStart => "invalid start byte"
  | .invalidContinuation => "invalid continuation byte"
  | .unexpectedEnd => "unexpected end of data"

/-- A byte as two hexadecimal digits. -/
def hexByte (b : UInt8) : String :=
  String.ofList [Nat.digitChar (b.toNat / 16), Nat.digitChar (b.toNat % 16)]

/-- The wording of malformed bytes. -/
def Malformed.message (m : Malformed) : String :=
  let what := match m.bytes with
    | [b] => "byte 0x" ++ hexByte b ++ " in position " ++ toString m.offset
    | bs => "bytes in position " ++ toString m.offset ++ "-" ++ toString (m.offset + bs.length - 1)
  "'utf-8' codec can't decode " ++ what ++ ": " ++ m.cause.message

/-- How many bytes follow the first byte of a sequence, and the range that the second byte must
lie in. -/
def sequenceShape? (b : UInt8) : Option (Nat × UInt8 × UInt8) :=
  if b < 0x80 then some (0, 0x80, 0xBF)
  else if b < 0xC2 then none
  else if b < 0xE0 then some (1, 0x80, 0xBF)
  else if b < 0xF0 then
    some (2, if b = 0xE0 then 0xA0 else 0x80, if b = 0xED then 0x9F else 0xBF)
  else if b < 0xF5 then
    some (3, if b = 0xF0 then 0x90 else 0x80, if b = 0xF4 then 0x8F else 0xBF)
  else none

/-- How many bytes a sequence has that starts with a byte. -/
def sequenceLength (b : UInt8) : Nat :=
  match sequenceShape? b with
  | none => 1
  | some (follow, _, _) => follow + 1

/-- The bits that the first byte of a sequence gives to the character. -/
def leadBits (b : UInt8) (follow : Nat) : Nat :=
  match follow with
  | 0 => b.toNat
  | 1 => b.toNat % 0x20
  | 2 => b.toNat % 0x10
  | _ => b.toNat % 0x08

/-- Bytes that do not make a character, and why. -/
structure Flaw where
  cause : Cause
  bytes : List UInt8
  deriving DecidableEq, Repr

/-- Read the bytes that continue a sequence of which `seen` has been read; the next of them must
lie between `lo` and `hi`. Gives the code point and the bytes after the sequence. -/
def decodeTail (seen : List UInt8) (code : Nat) (lo hi : UInt8) :
    Nat → List UInt8 → Except Flaw (Nat × List UInt8)
  | 0, rest => .ok (code, rest)
  | _ + 1, [] => .error ⟨.unexpectedEnd, seen⟩
  | follow + 1, b :: rest =>
    if lo ≤ b ∧ b ≤ hi then
      decodeTail (seen ++ [b]) (code * 64 + b.toNat % 64) 0x80 0xBF follow rest
    else .error ⟨.invalidContinuation, seen⟩

/-- Read one character: its code point and the bytes after it. -/
def decodeHead (b : UInt8) (rest : List UInt8) : Except Flaw (Nat × List UInt8) :=
  match sequenceShape? b with
  | none => .error ⟨.invalidStart, [b]⟩
  | some (follow, lo, hi) => decodeTail [b] (leadBits b follow) lo hi follow rest

theorem length_le_of_decodeTail {seen : List UInt8} {code : Nat} {lo hi : UInt8} {follow : Nat}
    {bs : List UInt8} {r : Nat × List UInt8} (h : decodeTail seen code lo hi follow bs = .ok r) :
    r.2.length ≤ bs.length := by
  fun_induction decodeTail seen code lo hi follow bs with
  | case1 => cases h; exact Nat.le_refl _
  | case2 => cases h
  | case3 => rename_i ih; exact Nat.le_succ_of_le (ih h)
  | case4 => cases h

theorem length_le_of_decodeHead {b : UInt8} {bs : List UInt8} {r : Nat × List UInt8}
    (h : decodeHead b bs = .ok r) : r.2.length ≤ bs.length := by
  unfold decodeHead at h
  split at h
  · cases h
  · exact length_le_of_decodeTail h

/-- Read bytes that start at an offset. -/
def decodeFrom (offset : Nat) (bs : List UInt8) : Except Malformed (List Char) :=
  match bs with
  | [] => .ok []
  | b :: rest =>
    match _h : decodeHead b rest with
    | .error e => .error ⟨e.cause, offset, e.bytes⟩
    | .ok (code, after) =>
      (decodeFrom (offset + sequenceLength b) after).map (Char.ofNat code :: ·)
termination_by bs.length
decreasing_by exact Nat.lt_succ_of_le (length_le_of_decodeHead _h)

/-- Read bytes. -/
def decode (bs : List UInt8) : Except Malformed (List Char) :=
  decodeFrom 0 bs

/-- Read bytes, with a replacement character for every sequence that is not well-formed. -/
def decodeReplacing (bs : List UInt8) : List Char :=
  match bs with
  | [] => []
  | b :: rest =>
    match _h : decodeHead b rest with
    | .error e => '\ufffd' :: decodeReplacing (rest.drop (e.bytes.length - 1))
    | .ok (code, after) => Char.ofNat code :: decodeReplacing after
termination_by bs.length
decreasing_by
  · simp only [List.length_drop, List.length_cons]; omega
  · exact Nat.lt_succ_of_le (length_le_of_decodeHead _h)

/-- The bytes of a character. -/
def encodeChar (c : Char) : List UInt8 :=
  let n := c.toNat
  let tail (k : Nat) : UInt8 := .ofNat (0x80 + n / Nat.pow 64 k % 64)
  if n < 0x80 then [.ofNat n]
  else if n < 0x800 then [.ofNat (0xC0 + n / 64), tail 0]
  else if n < 0x10000 then [.ofNat (0xE0 + n / Nat.pow 64 2), tail 1, tail 0]
  else [.ofNat (0xF0 + n / Nat.pow 64 3), tail 2, tail 1, tail 0]

/-- The bytes of a text. -/
def encode (s : List Char) : List UInt8 :=
  s.flatMap encodeChar

end SqlSnippet.Utf8
