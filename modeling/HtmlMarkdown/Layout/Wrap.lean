import HtmlMarkdown.Layout.Block
import HtmlMarkdown.Text.Columns

/-!
Greedy line breaking. The text of a block is a sequence of words with white space in front of
each. A word that does not fit on the line starts a new one; no word is ever split.
-/
namespace HtmlMarkdown.Layout

/-- White space and what follows it: a word, or a newline that is kept. White space at the end
of the text is a word. -/
structure Piece where
  gap : List Char
  word : List Char
deriving DecidableEq

def Piece.text (piece : Piece) : List Char := piece.gap ++ piece.word

def Piece.isNewline (piece : Piece) : Bool := piece.word == ['\n']

/-- White space that can stand in front of a word on a line. -/
def isGap (c : Char) : Bool := Text.isBlank c && c != '\n'

/-- Splits a text into its pieces. -/
def pieces (text : List Char) : List Piece :=
  match _h : text.dropWhile isGap with
  | [] => if text.isEmpty then [] else [⟨[], text⟩]
  | c :: rest =>
    if c = '\n' then ⟨text.takeWhile isGap, ['\n']⟩ :: pieces rest
    else
      ⟨text.takeWhile isGap, c :: rest.takeWhile (!Text.isBlank ·)⟩ ::
        pieces (rest.dropWhile (!Text.isBlank ·))
termination_by text.length
decreasing_by
  all_goals
    have h₁ := (List.dropWhile_sublist (l := text) isGap).length_le
    rw [_h] at h₁
    have h₂ := (List.dropWhile_sublist (l := rest) (!Text.isBlank ·)).length_le
    simp only [List.length_cons] at h₁
    omega

/-- Lays out pieces, starting at column `col`. With `fresh`, nothing has been written on the line
but its prefix; the white space in front of a line's first word is not written, but it counts. -/
def layPieces (margins : List Margin) (maxWidth : Nat) :
    List Piece → (col : Nat) → (fresh : Bool) → LineCounts → List Char × LineCounts
  | [], _, _, counts => ([], counts)
  | piece :: rest, col, fresh, counts =>
    let width := Text.columns piece.text
    let shown := if fresh then piece.word else piece.text
    if piece.isNewline then
      let (start, counts) := renderMargins margins counts
      let (more, counts) :=
        layPieces margins maxWidth rest (Text.columns start + width) false counts
      (shown ++ start ++ more, counts)
    else if !fresh && 0 < maxWidth && maxWidth < col + width then
      let (start, counts) := renderMargins margins counts
      let (more, counts) :=
        layPieces margins maxWidth rest (Text.columns start + width) false counts
      ('\n' :: start ++ piece.word ++ more, counts)
    else
      let (more, counts) := layPieces margins maxWidth rest (col + width) false counts
      (shown ++ more, counts)

/-- The text that is laid out: newlines at the end go, and if the others are not to be kept they
become spaces and all white space at the end goes. -/
def flatten (preserveNewlines : Bool) (text : List Char) : List Char :=
  let text := Text.stripTrailingNewlines text
  if preserveNewlines then text
  else Text.trimEnd (text.map fun c => if c = '\n' then ' ' else c)

/-- The lines of a text under the given margins. -/
def wrap (text : List Char) (margins : List Margin) (options : BlockOptions)
    (counts : LineCounts) : List Char × LineCounts :=
  let (start, counts) := renderMargins margins counts
  let (more, counts) := layPieces margins options.maxWidth
    (pieces (flatten options.preserveNewlines text)) (Text.columns start) true counts
  (start ++ more, counts)

/-- The lines of a block; none for a block that was never given any text. -/
def Block.render (block : Block) (counts : LineCounts) : List Char × LineCounts :=
  match block.contents with
  | none => ([], counts)
  | some contents => wrap contents.toList block.margins block.options counts

end HtmlMarkdown.Layout
