import SqlSnippet.Data.Reading
import SqlSnippet.Data.Value
import SqlSnippet.Number.Whole
import SqlSnippet.Text.Parts

/-!
# TOML

Reading TOML. A document is a sequence of statements: a header opens a table or adds a table to a
list, and an assignment gives a key of the open table a value. What a document has said once it
may not say otherwise: `Document` keeps, beside the entries, which tables have been declared and
which values are closed to additions. Values that stand too deep inside each other are refused.
-/

namespace SqlSnippet.Toml

/-- A path of keys through tables. -/
abbrev Key := List Text

/-- Why a text is not TOML. -/
inductive Fault where
  | invalidStatement
  | expectedNewline
  | invalidKeyStart
  | expectedEquals
  | expectedTableEnd
  | expectedListHeaderEnd
  | invalidValue
  | unclosedList
  | unclosedTable
  | duplicateKey (key : Text)
  | declaredTwice (key : Key)
  | closedNamespace (key : Key)
  | redefinedNamespace (key : Key)
  | overwrite
  | unterminatedString
  | expectedMark (mark : Text)
  | illegalCharacter (c : Char)
  | foundCharacter (c : Char)
  | badEscape
  | badHex
  | notScalar
  | invalidMoment
  | tooManyDigits (count : Nat)
  | tooDeep
  deriving DecidableEq, Repr

/-- A key as its parts between brackets, with a comma after a lone part. -/
def Key.literal (key : Key) : Text :=
  match key with
  | [k] => '(' :: quoted k ++ [',', ')']
  | ks => '(' :: List.intercalate ", ".toList (ks.map quoted) ++ [')']

/-- The wording of a fault. -/
def Fault.message : Fault → String
  | .invalidStatement => "Invalid statement"
  | .expectedNewline => "Expected newline or end of document after a statement"
  | .invalidKeyStart => "Invalid initial character for a key part"
  | .expectedEquals => "Expected '=' after a key in a key/value pair"
  | .expectedTableEnd => "Expected ']' at the end of a table declaration"
  | .expectedListHeaderEnd => "Expected ']]' at the end of an array declaration"
  | .invalidValue => "Invalid value"
  | .unclosedList => "Unclosed array"
  | .unclosedTable => "Unclosed inline table"
  | .duplicateKey key => "Duplicate inline table key " ++ String.ofList (quoted key)
  | .declaredTwice key => "Cannot declare " ++ String.ofList (Key.literal key) ++ " twice"
  | .closedNamespace key =>
    "Cannot mutate immutable namespace " ++ String.ofList (Key.literal key)
  | .redefinedNamespace key => "Cannot redefine namespace " ++ String.ofList (Key.literal key)
  | .overwrite => "Cannot overwrite a value"
  | .unterminatedString => "Unterminated string"
  | .expectedMark mark => "Expected " ++ String.ofList (quoted mark)
  | .illegalCharacter c => "Illegal character " ++ String.ofList (quoted [c])
  | .foundCharacter c => "Found invalid character " ++ String.ofList (quoted [c])
  | .badEscape => "Unescaped '\\' in a string"
  | .badHex => "Invalid hex value"
  | .notScalar => "Escaped character is not a Unicode scalar value"
  | .invalidMoment => "Invalid date or datetime"
  | .tooManyDigits _ => "Too many digits"
  | .tooDeep => "Value too deep"

/-! ## Characters -/

/-- White space within a line. -/
def isSpace (c : Char) : Bool :=
  c == ' ' || c == '\t'

/-- Characters of a key that is not quoted. -/
def isBareKeyChar (c : Char) : Bool :=
  c.isAlpha || c.isDigit || c == '-' || c == '_'

/-- Control characters that no line of text may hold; the tab is none of them. -/
def isControl (c : Char) : Bool :=
  (c.toNat < 32 && c != '\t') || c.toNat == 127

/-- Control characters that no text of several lines may hold. -/
def isControlInLines (c : Char) : Bool :=
  isControl c && c != '\n'

/-- Skip white space within a line. -/
def skipSpace (s : Text) : Text :=
  s.dropWhile isSpace

/-- Refuse the first character of `taken` that is not allowed; `s` starts with `taken`. -/
def refuse (isRefused : Char → Bool) (taken s : Text) : Except (Stuck Fault) Unit :=
  match taken.dropWhile (!isRefused ·) with
  | [] => .ok ()
  | c :: r => stuck (.foundCharacter c) (s.drop (taken.length - (r.length + 1)))

/-- Skip a comment, if there is one, to the end of its line. -/
def skipComment (s : Text) : Except (Stuck Fault) Text :=
  match s with
  | '#' :: r => do
    refuse isControl (r.takeWhile (· != '\n')) r
    return r.dropWhile (· != '\n')
  | _ => return s

/-- Skip white space, line breaks and comments. -/
def skipFiller (steps : Nat) (s : Text) : Except (Stuck Fault) Text :=
  match steps with
  | 0 => return s
  | steps + 1 => do
    let r := s.dropWhile fun c => isSpace c || c == '\n'
    match r with
    | '#' :: _ => skipFiller steps (← skipComment r)
    | _ => return r

/-! ## Strings -/

/-- The character that a letter stands for after a backslash. -/
def escaped? : Char → Option Char
  | 'b' => some '\x08'
  | 't' => some '\t'
  | 'n' => some '\n'
  | 'f' => some '\x0c'
  | 'r' => some '\r'
  | '"' => some '"'
  | '\\' => some '\\'
  | _ => none

/-- Read the hexadecimal digits of a character. -/
def readCodePoint (width : Nat) (s : Text) : Except (Stuck Fault) Char :=
  if s.length < width then stuck .badHex s
  else match readHex? (s.take width) with
    | none => stuck .badHex s
    | some n =>
      if n < 0xD800 ∨ (0xE000 ≤ n ∧ n < 0x110000) then .ok (Char.ofNat n)
      else stuck .notScalar (s.drop width)

/-- Read an escape after its backslash: the text that it stands for and how many characters it
takes. In a text of several lines, a backslash at the end of a line takes the line break and all
white space after it. -/
def readEscape (inLines : Bool) (r : Text) : Except (Stuck Fault) (Text × Nat) :=
  match r with
  | 'u' :: h => (readCodePoint 4 h).map fun c => ([c], 5)
  | 'U' :: h => (readCodePoint 8 h).map fun c => ([c], 9)
  | [] => stuck .badEscape []
  | c :: rest =>
    if inLines ∧ (isSpace c ∨ c = '\n') then
      let skip (s : Text) : Text := s.dropWhile fun c => isSpace c || c == '\n'
      if c = '\n' then .ok ([], r.length - (skip rest).length)
      else match skipSpace rest with
        | [] => .ok ([], r.length)
        | '\n' :: s => .ok ([], r.length - (skip s).length)
        | s => stuck .badEscape s
    else match escaped? c with
      | some d => .ok ([d], 1)
      | none => stuck .badEscape rest

/-- Read a string with escapes after its opening mark. -/
def readBasic (inLines : Bool) (s : Text) : Reading Fault Text :=
  match s with
  | [] => stuck .unterminatedString []
  | c :: r =>
    if c = '"' ∧ (!inLines || ['"', '"'].isPrefixOf r) then
      .ok ([], if inLines then r.drop 2 else r)
    else if c = '\\' then
      match readEscape inLines r with
      | .error e => .error e
      | .ok (t, n) => (readBasic inLines (r.drop n)).map fun (u, rest) => (t ++ u, rest)
    else if (if inLines then isControlInLines c else isControl c) then
      stuck (.illegalCharacter c) s
    else (readBasic inLines r).map fun (u, rest) => (c :: u, rest)
termination_by s.length
decreasing_by
  · simp only [List.length_drop, List.length_cons]; omega
  · exact Nat.lt_succ_self _

/-- Read a string without escapes after its opening mark, up to `mark`. -/
def readLiteral (mark : Text) (isRefused : Char → Bool) (s : Text) :
    Except (Stuck Fault) (Text × Text) :=
  match Text.cut? mark s with
  | none => stuck (.expectedMark mark) []
  | some (t, rest) => do
    refuse isRefused t s
    return (t, rest.drop mark.length)

/-- After the three quotes that end a string of several lines, up to two more belong to it. -/
def extraQuotes (quote : Char) (r : Reading Fault Text) : Reading Fault Text :=
  r.map fun (t, rest) =>
    let n := ((rest.take 2).takeWhile (· == quote)).length
    (t ++ List.replicate n quote, rest.drop n)

/-- Skip the line break right after the opening mark of a string of several lines. -/
def skipFirstBreak : Text → Text
  | '\n' :: r => r
  | r => r

/-- Read a string that starts with a double quote. -/
def readDoubleQuoted (r : Text) : Reading Fault Text :=
  match r with
  | '"' :: '"' :: s => extraQuotes '"' (readBasic true (skipFirstBreak s))
  | _ => readBasic false r

/-- Read a string that starts with a single quote. -/
def readSingleQuoted (r : Text) : Reading Fault Text :=
  match r with
  | '\'' :: '\'' :: s =>
    extraQuotes '\'' (readLiteral ['\'', '\'', '\''] isControlInLines (skipFirstBreak s))
  | _ => readLiteral ['\''] isControl r

/-! ## Keys -/

/-- Read one part of a key. -/
def readKeyPart (s : Text) : Reading Fault Text :=
  match s with
  | '"' :: r => readBasic false r
  | '\'' :: r => readLiteral ['\''] isControl r
  | _ =>
    let part := s.takeWhile isBareKeyChar
    if part.isEmpty then stuck .invalidKeyStart s else .ok (part, s.dropWhile isBareKeyChar)

/-- Read a key with its parts between points, and the white space after it. -/
def readKey (steps : Nat) (s : Text) : Reading Fault Key :=
  match steps with
  | 0 => stuck .invalidKeyStart s
  | steps + 1 =>
    match readKeyPart s with
    | .error e => .error e
    | .ok (part, rest) =>
      match skipSpace rest with
      | '.' :: r => (readKey steps (skipSpace r)).map fun (ks, rest) => (part :: ks, rest)
      | r => .ok ([part], r)

/-! ## Moments -/

/-- The number that some digits at the front of a text write, and the rest. -/
def takeNumber? (width : Nat) (s : Text) : Option (Nat × Text) :=
  let ds := s.take width
  if ds.length = width ∧ ds.all Char.isDigit then
    some (ofDigits 10 (ds.map (·.toNat - 48)), s.drop width)
  else none

/-- A number of two digits within bounds. -/
def takePair? (lo hi : Nat) (s : Text) : Option (Nat × Text) := do
  let (n, r) ← takeNumber? 2 s
  if lo ≤ n ∧ n ≤ hi then some (n, r) else none

/-- The text after a character that it starts with. -/
def after? (c : Char) : Text → Option Text
  | d :: r => if d = c then some r else none
  | [] => none

/-- Year, month and day, as far as their form goes. -/
def takeDay? (s : Text) : Option (Day × Text) := do
  let (year, r) ← takeNumber? 4 s
  let (month, r) ← takePair? 1 12 (← after? '-' r)
  let (day, r) ← takePair? 1 31 (← after? '-' r)
  return (⟨year, month, day⟩, r)

/-- The microseconds that a fraction of a second gives; digits beyond the sixth do not count. -/
def takeMicro (s : Text) : Nat × Text :=
  match s with
  | '.' :: r =>
    let ds := r.takeWhile Char.isDigit
    if ds.isEmpty then (0, s)
    else
      let six := ds.take 6
      (ofDigits 10 (six.map (·.toNat - 48)) * Nat.pow 10 (6 - six.length), r.dropWhile Char.isDigit)
  | _ => (0, s)

/-- Hours, minutes and seconds. -/
def takeClock? (s : Text) : Option (Clock × Text) := do
  let (hour, r) ← takePair? 0 23 s
  let (minute, r) ← takePair? 0 59 (← after? ':' r)
  let (second, r) ← takePair? 0 59 (← after? ':' r)
  let (micro, r) := takeMicro r
  return (⟨hour, minute, second, micro⟩, r)

/-- A distance from universal time, in minutes to the east. -/
def takeOffset? (s : Text) : Option (Int × Text) :=
  match s with
  | [] => none
  | c :: r =>
    if c = 'Z' ∨ c = 'z' then some (0, r)
    else if c = '+' ∨ c = '-' then do
      let (hour, r) ← takePair? 0 23 r
      let (minute, r) ← takePair? 0 59 (← after? ':' r)
      let n : Int := (hour * 60 + minute : Nat)
      return (if c = '-' then -n else n, r)
    else none

/-- A time of day after the mark that parts it from a day. -/
def takeClockAfterDay? (s : Text) : Option (Clock × Text) :=
  match s with
  | [] => none
  | c :: r => if c = 'T' ∨ c = 't' ∨ c = ' ' then takeClock? r else none

/-- Read a day, with a time and a distance from universal time if they follow. -/
def readDayAndClock? (s : Text) : Option (Moment × Text) := do
  let (d, r) ← takeDay? s
  match takeClockAfterDay? r with
  | none => return (.day d, r)
  | some (t, r) =>
    match takeOffset? r with
    | none => return (.both d t none, r)
    | some (east, r) => return (.both d t (some east), r)

/-- The day of a moment, if it has one. -/
def dayOf? : Moment → Option Day
  | .day d => some d
  | .clock _ => none
  | .both d _ _ => some d

/-! ## Numbers -/

/-- Digits with single underscores between them; the underscores are left out. -/
def takeDigits (isDigit : Char → Bool) : Text → Text × Text
  | [] => ([], [])
  | [c] => if isDigit c then ([c], []) else ([], [c])
  | c :: '_' :: d :: r =>
    if isDigit c then
      if isDigit d then
        let (ds, rest) := takeDigits isDigit (d :: r)
        (c :: ds, rest)
      else ([c], '_' :: d :: r)
    else ([], c :: '_' :: d :: r)
  | c :: r =>
    if isDigit c then
      let (ds, rest) := takeDigits isDigit r
      (c :: ds, rest)
    else ([], c :: r)

/-- The base that a letter after a zero names, and its digits. -/
def base? : Char → Option (Nat × (Char → Bool))
  | 'x' => some (16, fun c => (hexValue? c).isSome)
  | 'b' => some (2, fun c => c == '0' || c == '1')
  | 'o' => some (8, fun c => '0' ≤ c && c ≤ '7')
  | _ => none

/-- Read a whole number of base sixteen, eight or two. -/
def readBased? (s : Text) : Option (Value × Text) :=
  match s with
  | '0' :: c :: r => do
    let (base, isDigit) ← base? c
    let (ds, rest) := takeDigits isDigit r
    if ds.isEmpty then none
    else some (.whole (ofDigits base (ds.map fun d => (hexValue? d).getD 0)), rest)
  | _ => none

/-- The digits of a fraction after a point, if there are any. -/
def takeFraction (s : Text) : Text × Text :=
  match s with
  | '.' :: r =>
    let (ds, rest) := takeDigits Char.isDigit r
    if ds.isEmpty then ([], s) else (ds, rest)
  | _ => ([], s)

/-- The value of an exponent, if there is one. -/
def takeExponent (s : Text) : Option Int × Text :=
  match s with
  | [] => (none, s)
  | c :: r =>
    if c = 'e' ∨ c = 'E' then
      let (negative, body) : Bool × Text := match r with
        | '-' :: b => (true, b)
        | '+' :: b => (false, b)
        | b => (false, b)
      let (ds, rest) := takeDigits Char.isDigit body
      if ds.isEmpty then (none, s)
      else
        let n : Int := ofDigits 10 (ds.map (·.toNat - 48))
        (some (if negative then -n else n), rest)
    else (none, s)

/-- Read a decimal number: with a fraction or an exponent it is of floating point. -/
def readDecimal (s : Text) : Except (Stuck Fault) (Option (Value × Text)) :=
  let (negative, body) : Bool × Text := match s with
    | '-' :: r => (true, r)
    | '+' :: r => (false, r)
    | _ => (false, s)
  let (whole, r₁) : Text × Text := match body with
    | '0' :: r => (['0'], r)
    | _ => takeDigits Char.isDigit body
  if whole.isEmpty then .ok none
  else
    let (fraction, r₂) := takeFraction r₁
    let (exponent, r₃) := takeExponent r₂
    let value (ds : Text) : Nat := ofDigits 10 (ds.map (·.toNat - 48))
    if fraction.isEmpty ∧ exponent.isNone then
      if maxDigits < whole.length then stuck (.tooManyDigits whole.length) s
      else
        let n : Int := value whole
        .ok (some (.whole (if negative then -n else n), r₃))
    else
      .ok (some (.float (.ofDecimal negative (value (whole ++ fraction))
        (exponent.getD 0 - fraction.length)), r₃))

/-- The words that are values of floating point. -/
def floatWords : List (Text × Binary64) :=
  [("inf".toList, .infinite false), ("nan".toList, .nan), ("-inf".toList, .infinite true),
   ("+inf".toList, .infinite false), ("-nan".toList, .nan), ("+nan".toList, .nan)]

/-- Read a moment or a number. -/
def readScalar (s : Text) : Reading Fault Value :=
  match readDayAndClock? s with
  | some (m, rest) =>
    if (dayOf? m).all Day.isValid then .ok (.moment m, rest) else stuck .invalidMoment s
  | none =>
    match takeClock? s with
    | some (t, rest) => .ok (.moment (.clock t), rest)
    | none =>
      match readBased? s with
      | some r => .ok r
      | none =>
        match readDecimal s with
        | .error e => .error e
        | .ok (some r) => .ok r
        | .ok none =>
          match floatWords.find? fun (w, _) => w.isPrefixOf s with
          | some (w, x) => .ok (.float x, s.drop w.length)
          | none => stuck .invalidValue s

/-! ## Tables -/

/-- Change the table that a key leads to, with `change`; tables on the way that are not there are
made. If `intoLists` says so, a list on the way stands for its last item. -/
def changeAt (intoLists : Bool) (change : Entries → Except Fault Entries) :
    Key → Entries → Except Fault Entries
  | [], es => change es
  | k :: ks, es =>
    let set (v : Value) : Entries := es.set k.loose v
    match es.get? k with
    | none => (changeAt intoLists change ks []).map fun t => set (.table t)
    | some (.table t) => (changeAt intoLists change ks t).map fun t => set (.table t)
    | some (.list vs) =>
      match intoLists, vs.getLast? with
      | true, some (.table t) =>
        (changeAt intoLists change ks t).map fun t => set (.list (vs.dropLast ++ [.table t]))
      | _, _ => .error .overwrite
    | some _ => .error .overwrite

/-- Give a key a value, unless it has one. -/
def add (key : Text) (v : Value) (es : Entries) (fault : Fault) : Except Fault Entries :=
  if (es.get? key).isSome then .error fault else .ok (es.set key.loose v)

/-- Add a table to the list of a key, which may be new. -/
def addToList (key : Text) (es : Entries) : Except Fault Entries :=
  match es.get? key with
  | none => .ok (es.set key.loose (.list [.table []]))
  | some (.list vs) => .ok (es.set key.loose (.list (vs ++ [.table []])))
  | some _ => .error .overwrite

/-- Whether a value was written in brackets and takes no additions. -/
def isClosedValue : Value → Bool
  | .list _ => true
  | .table _ => true
  | _ => false

/-- Whether a key leads to or through one of some keys. -/
def leadsThrough (keys : List Key) (key : Key) : Bool :=
  keys.any (·.isPrefixOf key)

/-- Say where a fault lies. -/
def located {α : Type} (rest : Text) (r : Except Fault α) : Except (Stuck Fault) α :=
  r.mapError (⟨·, rest⟩)

/-- The most levels that a value may be deep. It is what one set-up of the program leaves of its
stack; another one would leave another number. -/
def maxDepth : Nat := 986

/-- How many levels a list counts for. -/
def listLevels : Nat := 2

/-- How many levels a table in braces counts for. -/
def tableLevels : Nat := 3

mutual

/-- Read a value that may be `depth` levels deep. Each step into or along a list or a table uses up
one of the `steps`. -/
def readValue (steps depth : Nat) (s : Text) : Except (Stuck Fault) (Value × Text) :=
  match steps, s with
  | 0, _ => stuck .invalidValue s
  | _ + 1, '"' :: r => (readDoubleQuoted r).map fun (t, rest) => (.text t.loose, rest)
  | _ + 1, '\'' :: r => (readSingleQuoted r).map fun (t, rest) => (.text t.loose, rest)
  | steps + 1, '[' :: r => do
    if depth < listLevels then stuck .tooDeep s
    match ← skipFiller (s.length + 1) r with
    | ']' :: rest => return (.list [], rest)
    | r => (readItems steps (depth - listLevels) r).map fun (vs, rest) => (.list vs, rest)
  | steps + 1, '\x7b' :: r => do
    if depth < tableLevels then stuck .tooDeep s
    match skipSpace r with
    | '\x7d' :: rest => return (.table [], rest)
    | r =>
      (readInline steps (depth - tableLevels) [] [] r).map fun (es, rest) => (.table es, rest)
  | _ + 1, _ =>
    if "true".toList.isPrefixOf s then .ok (.bool true, s.drop 4)
    else if "false".toList.isPrefixOf s then .ok (.bool false, s.drop 5)
    else readScalar s

/-- Read the items of a list to its end; a comma may stand after the last. -/
def readItems (steps depth : Nat) (s : Text) : Except (Stuck Fault) (List Value × Text) :=
  match steps with
  | 0 => stuck .invalidValue s
  | steps + 1 => do
    let (v, rest) ← readValue steps depth s
    match ← skipFiller (s.length + 1) rest with
    | ']' :: r => return ([v], r)
    | ',' :: r =>
      match ← skipFiller (s.length + 1) r with
      | ']' :: r => return ([v], r)
      | r => (readItems steps depth r).map fun (vs, rest) => (v :: vs, rest)
    | r => stuck .unclosedList r

/-- Read the entries of a table in braces to its end, after those read already; no key may lead
into one of the `closed` values. -/
def readInline (steps depth : Nat) (closed : List Key) (es : Entries) (s : Text) :
    Except (Stuck Fault) (Entries × Text) :=
  match steps with
  | 0 => stuck .unclosedTable s
  | steps + 1 => do
    let (key, v, rest) ← readPair steps depth s
    if leadsThrough closed key then stuck (.closedNamespace key) rest
    let stem := key.getLastD []
    let es ← located rest
      (changeAt false (add stem v · (.duplicateKey stem)) key.dropLast es)
    match skipSpace rest with
    | '\x7d' :: r => return (es, r)
    | ',' :: r =>
      readInline steps depth (if isClosedValue v then key :: closed else closed) es (skipSpace r)
    | r => stuck .unclosedTable r

/-- Read a key and its value. -/
def readPair (steps depth : Nat) (s : Text) : Except (Stuck Fault) (Key × Value × Text) :=
  match steps with
  | 0 => stuck .invalidValue s
  | steps + 1 => do
    let (key, rest) ← readKey (s.length + 1) s
    match rest with
    | '=' :: r =>
      let (v, rest) ← readValue steps depth (skipSpace r)
      return (key, v, rest)
    | r => stuck .expectedEquals r

end

/-! ## Documents -/

/-- What a document has said so far: its entries, the keys of values that take no additions, the
keys of tables that may not be declared again, those that become so at the next header, and the
key of the open table. -/
structure Document where
  entries : Entries
  closed : List Key
  declared : List Key
  pending : List Key
  header : Key

namespace Document

/-- The document that has said nothing. -/
def empty : Document :=
  ⟨[], [], [], [], []⟩

/-- Read a header that opens a table, after its bracket. -/
def openTable (doc : Document) (s : Text) : Except (Stuck Fault) (Document × Text) := do
  let (key, rest) ← readKey (s.length + 1) (skipSpace s)
  if key ∈ doc.declared ∨ leadsThrough doc.closed key then stuck (.declaredTwice key) rest
  let entries ← located rest (changeAt true .ok key doc.entries)
  match rest with
  | ']' :: r => return ({ doc with entries, declared := key :: doc.declared, header := key }, r)
  | r => stuck .expectedTableEnd r

/-- Read a header that adds a table to a list, after its brackets. What was declared below the
list belongs to an earlier table of it and is forgotten. -/
def openItem (doc : Document) (s : Text) : Except (Stuck Fault) (Document × Text) := do
  let (key, rest) ← readKey (s.length + 1) (skipSpace s)
  if leadsThrough doc.closed key then stuck (.closedNamespace key) rest
  let entries ← located rest
    (changeAt true (addToList (key.getLastD [])) key.dropLast doc.entries)
  let outside (ks : List Key) : List Key := ks.filter (!key.isPrefixOf ·)
  match rest with
  | ']' :: ']' :: r =>
    return ({ doc with
      entries
      closed := outside doc.closed
      declared := key :: outside doc.declared
      header := key }, r)
  | r => stuck .expectedListHeaderEnd r

/-- Read a header. Tables that assignments have made on their way may be declared no more from
here on. -/
def readHeader (doc : Document) (s : Text) : Except (Stuck Fault) (Document × Text) :=
  let doc := { doc with declared := doc.pending ++ doc.declared, pending := [] }
  match s with
  | '[' :: r => doc.openItem r
  | _ => doc.openTable s

/-- The keys on the way to a key, below the open table. -/
def keysBelow (header : Key) (key : Key) : List Key :=
  (List.range (key.length - 1)).map fun i => header ++ key.take (i + 1)

/-- Read an assignment. -/
def assign (doc : Document) (s : Text) : Except (Stuck Fault) (Document × Text) := do
  let (key, v, rest) ← readPair (2 * s.length + 2) maxDepth s
  let way := keysBelow doc.header key
  match way.find? (· ∈ doc.declared) with
  | some k => stuck (.redefinedNamespace k) rest
  | none =>
    let parent := doc.header ++ key.dropLast
    if leadsThrough doc.closed parent then stuck (.closedNamespace parent) rest
    let entries ← located rest
      (changeAt true (add (key.getLastD []) v · .overwrite) parent doc.entries)
    return ({ doc with
      entries
      closed := if isClosedValue v then (doc.header ++ key) :: doc.closed else doc.closed
      pending := way ++ doc.pending }, rest)

/-- Whether a key may start with the character. -/
def startsKey (c : Char) : Bool :=
  isBareKeyChar c || c == '"' || c == '\''

/-- Read the statement at the front of a line. -/
def readStatement (doc : Document) (s : Text) : Except (Stuck Fault) (Document × Text) :=
  match s with
  | '[' :: r => doc.readHeader r
  | '#' :: _ => .ok (doc, s)
  | c :: _ => if startsKey c then doc.assign s else stuck .invalidStatement s
  | [] => .ok (doc, [])

/-- Read the statements of a document, one on a line. -/
def readLines (steps : Nat) (doc : Document) (s : Text) : Except (Stuck Fault) Document :=
  match steps with
  | 0 => .ok doc
  | steps + 1 =>
    match skipSpace s with
    | [] => .ok doc
    | '\n' :: r => readLines steps doc r
    | s => do
      let (doc, rest) ← doc.readStatement s
      match ← skipComment (skipSpace rest) with
      | [] => return doc
      | '\n' :: r => readLines steps doc r
      | r => stuck .expectedNewline r

end Document

/-- Read the line break of two characters as one. -/
def joinBreaks : Text → Text
  | [] => []
  | '\r' :: '\n' :: r => '\n' :: joinBreaks r
  | c :: r => c :: joinBreaks r

/-- Read a document whose line breaks are joined. -/
def read (s : Text) : Except (Stuck Fault) Value :=
  (Document.empty.readLines (s.length + 1) s).map fun doc => .table doc.entries

end SqlSnippet.Toml
