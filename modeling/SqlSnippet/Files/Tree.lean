import SqlSnippet.Files.Fault
import SqlSnippet.Files.Path
import SqlSnippet.Text.Newline

/-!
# File trees

The files and directories that a command works on, as a value. A tree lists its entries in
ascending order of their places, so every place occurs once and a directory is listed in order.
Commands read a tree and give a changed one back; only the outermost layer of the program touches
the disk.

Following a path needs every directory on the way to be there. What a place holds after a write
is said by `get?_put`. A file may be kept from being read or written; directories may always be
listed and gone through. All names are texts, so a name whose bytes are no text has no place here.
-/

namespace SqlSnippet

/-- The names that lead to an entry from the root. -/
abbrev Place := List Text

/-- A directory, or a file with its bytes. -/
inductive Entry where
  | directory
  | file (bytes : List UInt8)
  deriving DecidableEq, Repr

/-- Put an entry into an ascending list, in place of one at the same place. -/
def insertEntry (place : Place) (e : Entry) : List (Place × Entry) → List (Place × Entry)
  | [] => [(place, e)]
  | (q, f) :: rest =>
    if place < q then (place, e) :: (q, f) :: rest
    else if place = q then (place, e) :: rest
    else (q, f) :: insertEntry place e rest

theorem mem_insertEntry {place : Place} {e : Entry} {es : List (Place × Entry)}
    {x : Place × Entry} (h : x ∈ insertEntry place e es) : x = (place, e) ∨ x ∈ es := by
  fun_induction insertEntry place e es with
  | case1 => simpa using h
  | case2 => simpa using h
  | case3 =>
    rcases List.mem_cons.1 h with h | h
    · exact .inl h
    · exact .inr (List.mem_cons_of_mem _ h)
  | case4 _ _ _ _ _ ih =>
    rcases List.mem_cons.1 h with h | h
    · exact .inr (h ▸ List.mem_cons_self)
    · exact (ih h).imp_right (List.mem_cons_of_mem _)

theorem pairwise_insertEntry {place : Place} {e : Entry} {es : List (Place × Entry)}
    (h : es.Pairwise (·.1 < ·.1)) : (insertEntry place e es).Pairwise (·.1 < ·.1) := by
  fun_induction insertEntry place e es with
  | case1 => simp
  | case2 q f rest hlt =>
    refine List.pairwise_cons.2 ⟨fun x hx => ?_, h⟩
    rcases List.mem_cons.1 hx with rfl | hx
    · exact hlt
    · exact List.lt_trans hlt ((List.pairwise_cons.1 h).1 x hx)
  | case3 f rest hlt =>
    exact List.pairwise_cons.2 (List.pairwise_cons.1 h)
  | case4 q f rest hlt hne ih =>
    refine List.pairwise_cons.2 ⟨fun x hx => ?_, ih (List.pairwise_cons.1 h).2⟩
    rcases mem_insertEntry hx with rfl | hx
    · by_cases hq : q < place
      · exact hq
      · exact absurd (List.le_antisymm (List.not_lt.1 hq) (List.not_lt.1 hlt)) hne
    · exact (List.pairwise_cons.1 h).1 x hx

/-- What is done with a file. -/
inductive Access where
  | reading
  | writing
  deriving DecidableEq, Repr

/-- The entries of a file tree in ascending order of their places, and what is denied at which
places. The root is a directory that is not listed. A file that is not there yet is made by writing
it, which can be denied as well. -/
structure FileTree where
  entries : List (Place × Entry)
  ascending : entries.Pairwise (·.1 < ·.1)
  denials : List (Access × Place)

namespace FileTree

/-- The tree of an empty root. -/
def empty : FileTree :=
  ⟨[], .nil, []⟩

/-- Whether an access to the file at a place is denied. -/
def isDenied (t : FileTree) (a : Access) (place : Place) : Bool :=
  (a, place) ∈ t.denials

/-- Deny an access to the file at a place. -/
def deny (t : FileTree) (a : Access) (place : Place) : FileTree :=
  { t with denials := (a, place) :: t.denials }

/-- What is at a place. -/
def get? (t : FileTree) (place : Place) : Option Entry :=
  if place = [] then some .directory else t.entries.lookup place

/-- Put an entry at a place. -/
def put (t : FileTree) (place : Place) (e : Entry) : FileTree :=
  ⟨insertEntry place e t.entries, pairwise_insertEntry t.ascending, t.denials⟩

theorem lookup_cons_eq (q p : Place) (e : Entry) (es : List (Place × Entry)) :
    ((p, e) :: es).lookup q = if q = p then some e else es.lookup q := by
  by_cases h : q = p
  · subst h
    rw [List.lookup_cons_self, if_pos rfl]
  · rw [List.lookup_cons, beq_false_of_ne h, if_neg h]

theorem lookup_insertEntry (place q : Place) (e : Entry) (es : List (Place × Entry)) :
    (insertEntry place e es).lookup q = if q = place then some e else es.lookup q := by
  induction es with
  | nil => simp [insertEntry, lookup_cons_eq]
  | cons x rest ih =>
    obtain ⟨p, f⟩ := x
    simp only [insertEntry]
    split
    · exact lookup_cons_eq ..
    · split
      · rename_i hp
        subst hp
        by_cases h : q = place <;> simp [lookup_cons_eq, h]
      · rename_i hne
        by_cases hq : q = p
        · subst hq
          simp [Ne.symm hne]
        · simp [lookup_cons_eq, hq, ih]

/-- A write changes what is at its place and nothing else. -/
theorem get?_put (t : FileTree) {place : Place} (e : Entry) (h : place ≠ []) (q : Place) :
    (t.put place e).get? q = if q = place then some e else t.get? q := by
  by_cases hq : q = []
  · simp [get?, hq, Ne.symm h]
  · simp [get?, put, hq, lookup_insertEntry]

/-- Put an entry at a place, and directories on the way to it. -/
def plant (t : FileTree) (place : Place) (e : Entry) : FileTree :=
  let parents := (List.range (place.length - 1)).map fun i => place.take (i + 1)
  (parents.foldl (fun t p => t.put p .directory) t).put place e

/-! ## Following paths -/

/-- The most bytes that a name may have. -/
def maxNameBytes : Nat := 255

/-- Follow names from a place. -/
def walk (t : FileTree) : Place → List Text → Except FileCause Place
  | place, [] => .ok place
  | place, n :: ns =>
    match t.get? place with
    | none => .error .notFound
    | some (.file _) => .error .notDirectory
    | some .directory =>
      if n = ['.', '.'] then t.walk place.dropLast ns
      else if maxNameBytes < (Utf8.encode n).length then .error .nameTooLong
      else t.walk (place ++ [n]) ns

/-- The place that a path leads to, where `here` is the place that relative paths start from;
nothing need be there yet. -/
def follow (t : FileTree) (here : Place) (p : Path) : Except FileCause Place :=
  if p.isTooLong then .error .nameTooLong
  else t.walk (if p.isAbsolute then [] else here) p.names

/-- What a path leads to. -/
def find (t : FileTree) (here : Place) (p : Path) : Except FileCause (Place × Entry) :=
  match t.follow here p with
  | .error c => .error c
  | .ok place =>
    match t.get? place with
    | none => .error .notFound
    | some e => .ok (place, e)

/-- What a path leads to, or nothing where it leads nowhere; a name too long is a fault, unless a
null character in the path keeps it from being followed at all. -/
def find? (t : FileTree) (here : Place) (p : Path) : Except Fault (Option (Place × Entry)) :=
  if p.hasNull then .ok none
  else match t.find here p with
    | .ok e => .ok (some e)
    | .error .nameTooLong => .error (.file .nameTooLong p.toText)
    | .error _ => .ok none

/-! ## Reading and writing -/

/-- The bytes of a file. -/
def readBytes (t : FileTree) (here : Place) (p : Path) : Except Fault (List UInt8) :=
  if p.hasNull then .error .nullInPath
  else match t.find here p with
    | .error c => .error (.file c p.toText)
    | .ok (_, .directory) => .error (.file .isDirectory p.toText)
    | .ok (place, .file bytes) =>
      if t.isDenied .reading place then .error (.file .denied p.toText) else .ok bytes

/-- Read bytes as a text, with line feeds for all line breaks. -/
def textOfBytes (bytes : List UInt8) : Except Fault Text :=
  match Utf8.decode bytes with
  | .error m => .error (.encoding m)
  | .ok s => .ok (Text.unifyBreaks s)

/-- The text of a file. -/
def readText (t : FileTree) (here : Place) (p : Path) : Except Fault Text :=
  match t.readBytes here p with
  | .error f => .error f
  | .ok bytes => textOfBytes bytes

/-- Write a text to a file, which may be new. -/
def writeText (t : FileTree) (here : Place) (p : Path) (s : Text) : Except Fault FileTree :=
  if p.hasNull then .error .nullInPath
  else match t.follow here p with
    | .error c => .error (.file c p.toText)
    | .ok place =>
      match t.get? place with
      | some .directory => .error (.file .isDirectory p.toText)
      | _ =>
        if t.isDenied .writing place then .error (.file .denied p.toText)
        else .ok (t.put place (.file (Utf8.encode s)))

/-! ## What is below a place -/

/-- The names that lead from a place to what is below it, in ascending order, each with what is
there. -/
def entriesBelow (t : FileTree) (place : Place) : List (List Text × Entry) :=
  t.entries.filterMap fun (q, e) =>
    if place.isPrefixOf q && place != q then some (q.drop place.length, e) else none

/-- The names that lead from a place to the files below it, in ascending order. -/
def filesBelow (t : FileTree) (place : Place) : List (List Text) :=
  (t.entriesBelow place).filterMap fun
    | (_, .directory) => none
    | (names, .file _) => some names

end FileTree

end SqlSnippet
