import SqlSnippet.Data.Reading
import SqlSnippet.Data.Value
import SqlSnippet.Number.Whole

/-!
# JSON

Reading and writing JSON. The reader takes one value with white space around it; besides the
numbers of the format it takes `NaN` and the two infinities, and of entries with one key the last
counts. A half of a surrogate pair that is written by itself stays one. Lists and tables that stand
too deep inside each other are refused. The writer puts one
entry or item on a line and writes all but printable ASCII as escapes.
-/

namespace SqlSnippet.Json

/-- Why a text is not JSON. -/
inductive Fault where
  | expectingValue
  | expectingName
  | expectingColon
  | expectingComma
  | extraData
  | unterminatedString
  | controlCharacter
  | invalidEscape
  | invalidUnicodeEscape
  | byteOrderMark
  | tooManyDigits (count : Nat)
  | listTooDeep
  | tableTooDeep
  deriving DecidableEq, Repr

/-- The wording of a fault. -/
def Fault.message : Fault → String
  | .expectingValue => "Expecting value"
  | .expectingName => "Expecting property name enclosed in double quotes"
  | .expectingColon => "Expecting ':' delimiter"
  | .expectingComma => "Expecting ',' delimiter"
  | .extraData => "Extra data"
  | .unterminatedString => "Unterminated string starting at"
  | .controlCharacter => "Invalid control character at"
  | .invalidEscape => "Invalid \\escape"
  | .invalidUnicodeEscape => "Invalid \\uXXXX escape"
  | .byteOrderMark => "Unexpected UTF-8 BOM (decode using utf-8-sig)"
  | .tooManyDigits _ => "Too many digits"
  | .listTooDeep => "List too deep"
  | .tableTooDeep => "Table too deep"

/-! ## Reading -/

/-- White space between the parts of a value. -/
def isSpace (c : Char) : Bool :=
  c == ' ' || c == '\t' || c == '\n' || c == '\r'

/-- Skip white space. -/
def skipSpace (s : Text) : Text :=
  s.dropWhile isSpace

/-- The character that a letter stands for after a backslash. -/
def escaped? : Char → Option Char
  | '"' => some '"'
  | '\\' => some '\\'
  | '/' => some '/'
  | 'b' => some '\x08'
  | 'f' => some '\x0c'
  | 'n' => some '\n'
  | 'r' => some '\r'
  | 't' => some '\t'
  | _ => none

/-- Read an escape after its backslash: what it stands for and how many characters it takes. At
least one more character must follow four hexadecimal digits. The two halves of a surrogate pair
are one character. -/
def readEscape (start r : Text) : Except (Stuck Fault) (CodePoint × Nat) :=
  match r with
  | [] => stuck .unterminatedString start
  | 'u' :: hex =>
    if hex.length < 5 then stuck .invalidUnicodeEscape r
    else match readHex? (hex.take 4) with
      | none => stuck .invalidUnicodeEscape r
      | some high =>
        if 0xD800 ≤ high ∧ high < 0xDC00 ∧ 10 < hex.length ∧ (hex.drop 4).take 2 = ['\\', 'u'] then
          match readHex? ((hex.drop 6).take 4) with
          | none => stuck .invalidUnicodeEscape (hex.drop 5)
          | some low =>
            if 0xDC00 ≤ low ∧ low < 0xE000 then
              .ok (.char (.ofNat (0x10000 + (high - 0xD800) * 0x400 + (low - 0xDC00))), 11)
            else .ok (.half (.ofNat _ (high - 0xD800)), 5)
        else if 0xD800 ≤ high ∧ high < 0xE000 then .ok (.half (.ofNat _ (high - 0xD800)), 5)
        else .ok (.char (.ofNat high), 5)
  | c :: _ =>
    match escaped? c with
    | some d => .ok (.char d, 1)
    | none => stuck .invalidEscape ('\\' :: r)

/-- Read a string after its opening quote; `start` is the text from that quote on. -/
def readString (start s : Text) : Reading Fault LooseText :=
  match s with
  | [] => stuck .unterminatedString start
  | c :: r =>
    if c = '"' then .ok ([], r)
    else if c = '\\' then
      match readEscape start r with
      | .error e => .error e
      | .ok (d, n) => (readString start (r.drop n)).map fun (t, rest) => (d :: t, rest)
    else if c.toNat < 32 then stuck .controlCharacter s
    else (readString start r).map fun (t, rest) => (.char c :: t, rest)
termination_by s.length
decreasing_by
  · simp only [List.length_drop, List.length_cons]; omega
  · exact Nat.lt_succ_self _

/-- The digits of a fraction after a point, if there are any. -/
def readFraction (s : Text) : Text × Text :=
  match s with
  | '.' :: r =>
    let ds := r.takeWhile Char.isDigit
    if ds.isEmpty then ([], s) else (ds, r.dropWhile Char.isDigit)
  | _ => ([], s)

/-- The value of an exponent, if there is one. -/
def readExponent (s : Text) : Option Int × Text :=
  match s with
  | [] => (none, s)
  | c :: r =>
    if c = 'e' ∨ c = 'E' then
      let (negative, body) : Bool × Text := match r with
        | '-' :: b => (true, b)
        | '+' :: b => (false, b)
        | b => (false, b)
      let ds := body.takeWhile Char.isDigit
      if ds.isEmpty then (none, s)
      else
        let n : Int := ofDigits 10 (ds.map (·.toNat - 48))
        (some (if negative then -n else n), body.dropWhile Char.isDigit)
    else (none, s)

/-- The digits of the whole part of a number: no zero stands in front of others. -/
def readWholePart (s : Text) : Text × Text :=
  match s with
  | '0' :: r => (['0'], r)
  | _ => (s.takeWhile Char.isDigit, s.dropWhile Char.isDigit)

/-- Read a number: with a fraction or an exponent it is of floating point. -/
def readNumber (s : Text) : Reading Fault Value :=
  let (negative, body) : Bool × Text := match s with
    | '-' :: r => (true, r)
    | _ => (false, s)
  let (whole, r₁) := readWholePart body
  if whole.isEmpty then stuck .expectingValue s
  else
    let (fraction, r₂) := readFraction r₁
    let (exponent, r₃) := readExponent r₂
    let value (ds : Text) : Nat := ofDigits 10 (ds.map (·.toNat - 48))
    if fraction.isEmpty ∧ exponent.isNone then
      if maxDigits < whole.length then stuck (.tooManyDigits whole.length) s
      else
        let n : Int := value whole
        .ok (.whole (if negative then -n else n), r₃)
    else
      .ok (.float (.ofDecimal negative (value (whole ++ fraction))
        (exponent.getD 0 - fraction.length)), r₃)

/-- The words that are values. -/
def words : List (Text × Value) :=
  [("null".toList, .null), ("true".toList, .bool true), ("false".toList, .bool false),
   ("NaN".toList, .float .nan), ("Infinity".toList, .float (.infinite false)),
   ("-Infinity".toList, .float (.infinite true))]

/-- Read a value that is neither a string nor a list nor a table. -/
def readScalar (s : Text) : Reading Fault Value :=
  match words.find? fun (w, _) => w.isPrefixOf s with
  | some (w, v) => .ok (v, s.drop w.length)
  | none => readNumber s

/-- The most lists and tables that may stand inside each other. It is what one set-up of the program
leaves of its stack; another one would leave another number. -/
def maxDepth : Nat := 989

mutual

/-- Read a value inside of which `depth` lists and tables may stand in each other. Each step into
or along a list or a table uses up one of the `steps`. -/
def readValue (steps depth : Nat) (s : Text) : Reading Fault Value :=
  match steps, s with
  | 0, _ => stuck .expectingValue s
  | _ + 1, '"' :: r => (readString s r).map fun (t, rest) => (.text t, rest)
  | steps + 1, '[' :: r =>
    if depth = 0 then stuck .listTooDeep s
    else match skipSpace r with
      | ']' :: rest => .ok (.list [], rest)
      | r => (readItems steps (depth - 1) r).map fun (vs, rest) => (.list vs, rest)
  | steps + 1, '\x7b' :: r =>
    if depth = 0 then stuck .tableTooDeep s
    else match skipSpace r with
      | '\x7d' :: rest => .ok (.table [], rest)
      | r => (readEntries steps (depth - 1) [] r).map fun (es, rest) => (.table es, rest)
  | _ + 1, _ => readScalar s

/-- Read the items of a list to its end. -/
def readItems (steps depth : Nat) (s : Text) : Reading Fault (List Value) :=
  match steps with
  | 0 => stuck .expectingValue s
  | steps + 1 =>
    match readValue steps depth s with
    | .error e => .error e
    | .ok (v, rest) =>
      match skipSpace rest with
      | ']' :: r => .ok ([v], r)
      | ',' :: r => (readItems steps depth (skipSpace r)).map fun (vs, rest) => (v :: vs, rest)
      | r => stuck .expectingComma r

/-- Read the entries of a table to its end, after those read already. -/
def readEntries (steps depth : Nat) (es : Entries) (s : Text) : Reading Fault Entries :=
  match steps, s with
  | 0, _ => stuck .expectingName s
  | steps + 1, '"' :: r =>
    match readString s r with
    | .error e => .error e
    | .ok (key, rest) =>
      match skipSpace rest with
      | ':' :: r =>
        match readValue steps depth (skipSpace r) with
        | .error e => .error e
        | .ok (v, rest) =>
          match skipSpace rest with
          | '\x7d' :: r => .ok (es.set key v, r)
          | ',' :: r => readEntries steps depth (es.set key v) (skipSpace r)
          | r => stuck .expectingComma r
      | r => stuck .expectingColon r
  | _ + 1, _ => stuck .expectingName s

end

/-- Read a text that is one value. -/
def read (s : Text) : Except (Stuck Fault) Value :=
  if s.head? = some '\ufeff' then stuck .byteOrderMark s
  else
    match readValue (2 * s.length + 2) maxDepth (skipSpace s) with
    | .error e => .error e
    | .ok (v, rest) =>
      match skipSpace rest with
      | [] => .ok v
      | r => stuck .extraData r

/-! ## Writing -/

/-- Write a code unit as an escape. -/
def unicodeEscape (n : Nat) : Text :=
  '\\' :: 'u' :: hexDigits 4 n

/-- Write a character of a string. -/
def writeChar (c : Char) : Text :=
  match c with
  | '"' => ['\\', '"']
  | '\\' => ['\\', '\\']
  | '\n' => ['\\', 'n']
  | '\r' => ['\\', 'r']
  | '\t' => ['\\', 't']
  | '\x0c' => ['\\', 'f']
  | '\x08' => ['\\', 'b']
  | c =>
    let n := c.toNat
    if 32 ≤ n ∧ n < 127 then [c]
    else if n < 0x10000 then unicodeEscape n
    else unicodeEscape (0xD800 + (n - 0x10000) / 0x400) ++
      unicodeEscape (0xDC00 + (n - 0x10000) % 0x400)

/-- Write a string. -/
def writeString (s : Text) : Text :=
  '"' :: s.flatMap writeChar ++ ['"']

end SqlSnippet.Json
