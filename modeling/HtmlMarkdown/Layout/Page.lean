import HtmlMarkdown.Layout.Draft

/-!
Joining the blocks of a draft into one text. Blank lines, made of prefixes only, stand between
blocks that show anything, and the reference lines follow after one blank line.
-/
namespace HtmlMarkdown.Layout

/-- The line between a block that has been written and the next: none after a hard break and
between two headings. It is what the next line under the earlier block would start with, without
the white space at its ends. -/
def separatorLine (earlier : Option Block) (later : Block) (counts : LineCounts) :
    List Char × LineCounts :=
  match earlier with
  | none => ([], counts)
  | some earlier =>
    if (later.isHeading && earlier.isHeading) || earlier.options.endsWithHardBreak then
      ([], counts)
    else
      let (start, counts) := renderMargins earlier.margins counts
      (Text.trim start ++ ['\n'], counts)

/-- What stands behind a block: two spaces make a hard break. -/
def Block.ending (block : Block) : List Char :=
  if block.options.endsWithHardBreak then [' ', ' ', '\n'] else ['\n']

/-- Joins the blocks that show anything. The block written before them is `earlier`. -/
def joinBlocks (earlier : Option Block) : List Block → LineCounts → List Char × LineCounts
  | [], counts => ([], counts)
  | block :: rest, counts =>
    let (shown, counts) := block.render counts
    if shown.isEmpty then joinBlocks earlier rest counts
    else
      let (separator, counts) := separatorLine earlier block counts
      let (more, counts) := joinBlocks (some block) rest counts
      (separator ++ shown ++ block.ending ++ more, counts)

namespace Draft

/-- The text of all blocks, and the line counts after it. -/
def body (draft : Draft) : List Char × LineCounts :=
  joinBlocks none draft.blocks (LineCounts.start draft.opened)

def bodyText (draft : Draft) : String := String.ofList draft.body.1

/-- The prefix of the reference lines: that of the next line under the last block that accepts
them, or nothing. -/
def trailerPrefix (draft : Draft) (counts : LineCounts) : List Char :=
  match draft.blocks.reverse.find? (·.options.acceptsTrailers) with
  | none => []
  | some block => (renderMargins block.margins counts).1

/-- How many lines that hold `blank` a text needs behind it to end in a whole line of that kind.
It never needs more than two: after one of them the text ends with a newline. -/
def paddingNeeded (text blank : List Char) : Nat :=
  let separator := '\n' :: blank ++ ['\n']
  if separator.isSuffixOf text then 0
  else if separator.isSuffixOf (text ++ blank ++ ['\n']) then 1
  else 2

def padding (text blank : List Char) : List Char :=
  (List.replicate (paddingNeeded text blank) (blank ++ ['\n'])).flatten

/-- The whole text: the blocks and, after one blank line, the trailers. -/
def finish (draft : Draft) : List Char :=
  let (text, counts) := draft.body
  let start := draft.trailerPrefix counts
  if draft.trailers.isEmpty then text
  else text ++ padding text (Text.trimEnd start)
    ++ draft.trailers.flatMap fun line => start ++ line.toList ++ ['\n']

def finished (draft : Draft) : String := String.ofList draft.finish

/-- What the next line of a block would start with, several times in a row, after `counts`. -/
def nextPrefixes (block : Block) : (times : Nat) → LineCounts → List String
  | 0, _ => []
  | times + 1, counts =>
    let (start, counts) := renderMargins block.margins counts
    String.ofList start :: nextPrefixes block times counts

end Draft
end HtmlMarkdown.Layout
