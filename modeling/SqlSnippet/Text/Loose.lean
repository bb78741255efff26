import SqlSnippet.Text.Lower
import SqlSnippet.Text.Quoted

/-!
# Loose texts

A character beyond the basic plane can be written as the two halves of a surrogate pair, and a
format that does so can also write a half without the other. A half alone is no character. A loose
text is a sequence of characters and such halves; it is a text if it holds no half
(`LooseText.toText_eq_ok_iff`), and only then can it be printed or stored. Where it has to be shown
all the same, an escape stands for each half.
-/

namespace SqlSnippet

/-- A character, or one of the 2048 halves of surrogate pairs. -/
inductive CodePoint where
  | char (c : Char)
  | half (n : Fin 0x800)
  deriving DecidableEq, Repr

/-- A text in which halves of surrogate pairs may stand alone. -/
abbrev LooseText := List CodePoint

/-- The character that a code point is, unless it is a half. -/
def CodePoint.char? : CodePoint → Option Char
  | .char c => some c
  | .half _ => none

/-- A text as a loose one. -/
def Text.loose (s : Text) : LooseText :=
  s.map .char

theorem Text.loose_inj {s t : Text} : s.loose = t.loose ↔ s = t :=
  List.map_inj_right fun _ _ => CodePoint.char.inj

/-- The escape that stands for a half. -/
def escapeHalf (n : Fin 0x800) : Text :=
  '\\' :: 'u' :: hexDigits 4 (0xD800 + n)

/-- Halves that keep a loose text from being a text: they stand together at an offset. -/
structure StrayHalves where
  offset : Nat
  halves : List (Fin 0x800)
  deriving DecidableEq, Repr

/-- The wording of halves that have no bytes. -/
def StrayHalves.message (e : StrayHalves) : String :=
  let what := match e.halves with
    | [n] => "character '" ++ String.ofList (escapeHalf n) ++ "' in position " ++ toString e.offset
    | ns => "characters in position " ++ toString e.offset ++ "-" ++
      toString (e.offset + ns.length - 1)
  "'utf-8' codec can't encode " ++ what ++ ": surrogates not allowed"

namespace LooseText

/-! ## Texts among loose texts -/

/-- The halves that a loose text starts with. -/
def firstHalves : LooseText → List (Fin 0x800)
  | .half n :: x => n :: firstHalves x
  | _ => []

/-- Read a loose text, which starts at an offset, as a text. -/
def toTextFrom (offset : Nat) : LooseText → Except StrayHalves Text
  | [] => .ok []
  | .char c :: x => (toTextFrom (offset + 1) x).map (c :: ·)
  | x => .error ⟨offset, firstHalves x⟩

/-- Read a loose text as a text. -/
def toText (x : LooseText) : Except StrayHalves Text :=
  toTextFrom 0 x

/-- The text that a loose text is, unless it holds a half. -/
def text? (x : LooseText) : Option Text :=
  x.toText.toOption

theorem toTextFrom_loose (offset : Nat) (s : Text) : toTextFrom offset s.loose = .ok s := by
  induction s generalizing offset with
  | nil => rfl
  | cons c s ih => exact congrArg (Except.map (c :: ·)) (ih (offset + 1))

theorem eq_loose_of_toTextFrom {offset : Nat} {x : LooseText} {s : Text}
    (h : toTextFrom offset x = .ok s) : x = s.loose := by
  induction x generalizing offset s with
  | nil =>
    cases h
    rfl
  | cons p x ih =>
    cases p with
    | half n => cases h
    | char c =>
      rw [toTextFrom] at h
      cases hx : toTextFrom (offset + 1) x with
      | error e =>
        rw [hx] at h
        cases h
      | ok t =>
        rw [hx] at h
        cases h
        rw [ih hx]
        rfl

/-- The loose texts that are texts are those that come of one. -/
theorem toText_eq_ok_iff {x : LooseText} {s : Text} : x.toText = .ok s ↔ x = s.loose :=
  ⟨eq_loose_of_toTextFrom, fun h => h ▸ toTextFrom_loose 0 s⟩

theorem text?_eq_some_iff {x : LooseText} {s : Text} : x.text? = some s ↔ x = s.loose := by
  rw [← toText_eq_ok_iff, text?]
  cases x.toText <;> simp [Except.toOption]

/-- Halves alone keep a loose text from being a text. -/
theorem exists_toText_eq_error_iff {x : LooseText} :
    (∃ e, x.toText = .error e) ↔ ∃ n, CodePoint.half n ∈ x := by
  constructor
  · rintro ⟨e, h⟩
    refine Classical.byContradiction fun hnot => ?_
    have hloose : ∃ s, x = Text.loose s := by
      clear h
      induction x with
      | nil => exact ⟨[], rfl⟩
      | cons p x ih =>
        obtain ⟨s, rfl⟩ := ih fun ⟨n, hn⟩ => hnot ⟨n, List.mem_cons_of_mem p hn⟩
        cases p with
        | char c => exact ⟨c :: s, rfl⟩
        | half n => exact absurd ⟨n, List.mem_cons_self⟩ hnot
    obtain ⟨s, hs⟩ := hloose
    cases h.symm.trans (toText_eq_ok_iff.2 hs)
  · rintro ⟨n, hn⟩
    cases h : x.toText with
    | error e => exact ⟨e, rfl⟩
    | ok s =>
      rw [toText_eq_ok_iff.1 h] at hn
      obtain ⟨c, -, hc⟩ := List.mem_map.1 hn
      cases hc

theorem exists_half_mem_iff {x : LooseText} :
    (∃ n, CodePoint.half n ∈ x) ↔ ¬∃ s, x = Text.loose s := by
  rw [← exists_toText_eq_error_iff]
  simp only [← toText_eq_ok_iff]
  cases x.toText <;> simp

/-! ## Showing loose texts -/

/-- Write a loose text with escapes for its halves, where `f` writes its characters. -/
def writeBy (f : Char → Text) (x : LooseText) : Text :=
  x.flatMap fun
    | .char c => f c
    | .half n => escapeHalf n

/-- A loose text as it is shown. -/
def shown (x : LooseText) : Text :=
  x.writeBy ([·])

/-- The quoted literal of a loose text. -/
def quoted (x : LooseText) : Text :=
  let quote := quoteFor (x.filterMap CodePoint.char?)
  quote :: x.writeBy (quoteChar quote) ++ [quote]

/-! ## Lower case -/

/-- The characters before the first half, and each half with the characters after it. -/
def stretches : LooseText → Text × List (Fin 0x800 × Text)
  | [] => ([], [])
  | .char c :: x =>
    let (s, rest) := stretches x
    (c :: s, rest)
  | .half n :: x =>
    let (s, rest) := stretches x
    ([], (n, s) :: rest)

/-- The lower-case form of a loose text. A half has no case, and no word goes on across it. -/
def lower (x : LooseText) : LooseText :=
  let (s, rest) := x.stretches
  (Text.lower s).loose ++ rest.flatMap fun (n, s) => .half n :: (Text.lower s).loose

theorem lower_loose (s : Text) : s.loose.lower = (Text.lower s).loose := by
  have hstretches : s.loose.stretches = (s, []) := by
    induction s with
    | nil => rfl
    | cons c s ih =>
      have hcons : stretches (Text.loose (c :: s)) =
          (c :: (Text.loose s).stretches.1, (Text.loose s).stretches.2) := rfl
      rw [hcons, ih]
  rw [lower, hstretches]
  exact List.append_nil _

end LooseText

end SqlSnippet
