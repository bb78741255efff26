import SqlSnippet.Layout.Clause
import SqlSnippet.Layout.Options
import SqlSnippet.Source.Region

/-!
# Pieces

Layout works on a text in pieces: strings and comments are literal pieces, which no step changes;
code is the rest; and after each line comment a piece of its own keeps the line break that ends
it. The steps are: collapse white space, break lines at list commas, break lines at clause words,
and trim the whole.
-/

namespace SqlSnippet

/-- What a piece of a text is. -/
inductive PieceKind where
  | code
  | literal
  | lineBreak
  deriving DecidableEq, Repr

/-- A piece of a text that is being laid out. -/
structure Piece where
  kind : PieceKind
  text : Text
  deriving DecidableEq, Repr

/-! ## White space -/

/-- The pieces of regions, with white space collapsed in code. What precedes the first region is
a line comment or not. -/
def piecesAfter (afterComment : Bool) : List Region → List Piece
  | [] => []
  | r :: rs =>
    let rest := piecesAfter (r.kind = .lineComment) rs
    if r.isProtected then ⟨.literal, r.text⟩ :: rest
    else
      let code := Text.collapse (if afterComment then Text.trimStart r.text else r.text)
      let codePiece : List Piece := if code.isEmpty then [] else [⟨.code, code⟩]
      if afterComment then ⟨.lineBreak, ['\n']⟩ :: (codePiece ++ rest) else codePiece ++ rest

/-- The pieces of a text, with white space collapsed in code. -/
def pieces (s : Text) : List Piece :=
  piecesAfter false (scan s)

/-! ## List commas -/

/-- The depth of brackets after a code text that starts at `depth`; a closing bracket too many
counts for nothing. -/
def depthAfter (depth : Nat) : Text → Nat
  | [] => depth
  | c :: r => depthAfter (if c = '(' then depth + 1 else if c = ')' then depth - 1 else depth) r

/-- Break the line after each comma outside brackets and indent the next. White space before such
a comma is dropped, so it is held back in `held` until the next character is known; white space
after one is dropped too, which `skip` says. -/
def breakCommas (o : LayoutOptions) (depth : Nat) (skip : Bool) (held : Text) : Text → Text
  | [] => held
  | c :: r =>
    if isBlank c then
      if skip then breakCommas o depth true held r
      else breakCommas o depth false (held ++ [c]) r
    else if c = ',' ∧ depth = 0 then
      ',' :: '\n' :: o.indent ++ breakCommas o depth true [] r
    else
      let depth' := if c = '(' then depth + 1 else if c = ')' then depth - 1 else depth
      held ++ c :: breakCommas o depth' false [] r

/-- Break lines at the list commas of all code pieces; the depth of brackets runs on from one to
the next. -/
def breakCommaPieces (o : LayoutOptions) (depth : Nat) : List Piece → List Piece
  | [] => []
  | p :: ps =>
    if p.kind = .code then
      ⟨.code, breakCommas o depth false [] p.text⟩ ::
        breakCommaPieces o (depthAfter depth p.text) ps
    else p :: breakCommaPieces o depth ps

/-! ## Clause words -/

/-- Break lines at the clause words of a code piece. -/
def Piece.breakClauses (k : Clauses) (p : Piece) : Piece :=
  if p.kind = .code then { p with text := k.breakLines p.text } else p

/-! ## Trimming -/

/-- Strip pieces from the front with `strip` until one is literal or something is left of it. -/
def stripPieces (strip : Text → Text) : List Piece → List Piece
  | [] => []
  | p :: ps =>
    if p.kind = .literal then p :: ps
    else
      let text := strip p.text
      if text.isEmpty then stripPieces strip ps else { p with text } :: ps

/-- The text of pieces without the white space around it that no literal piece holds. -/
def trimPieces (ps : List Piece) : Text :=
  (stripPieces Text.trimEnd (stripPieces Text.trimStart ps).reverse).reverse.flatMap Piece.text

end SqlSnippet
