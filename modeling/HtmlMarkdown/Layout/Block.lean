import HtmlMarkdown.Text.Blank
import HtmlMarkdown.Text.Quoted

/-!
Blocks of laid-out text. A block is a paragraph-like group of lines. Each of its lines starts with
the texts of all prefixes that were open when the block was, and a prefix may show another text
on the first line under it than on the later ones.
-/
namespace HtmlMarkdown.Layout

/-- A text in front of lines, such as `> `. A list item's first line has a marker, and the lines
after it are only indented. -/
structure LinePrefix where
  first : String
  later : String
deriving DecidableEq

/-- The same text on every line. -/
def LinePrefix.uniform (s : String) : LinePrefix := ⟨s, s⟩

/-- A prefix that has been opened, with the number of prefixes opened before it. -/
structure Margin where
  linePrefix : LinePrefix
  slot : Nat
deriving DecidableEq

structure BlockOptions where
  /-- The column at which lines are broken; zero breaks none. -/
  maxWidth : Nat := 80
  preserveNewlines : Bool := false
  /-- Reference lines may stand under this block's prefixes. -/
  acceptsTrailers : Bool := false
  endsWithHardBreak : Bool := false
deriving DecidableEq

structure Block where
  /-- The prefixes of each line, the outermost first. -/
  margins : List Margin
  options : BlockOptions := {}
  /-- The text, if any has been given, be it empty. -/
  contents : Option String := none
deriving DecidableEq

def Block.append (block : Block) (text : String) : Block :=
  { block with contents := some (block.contents.getD "" ++ text) }

/-- A block right under a heading's marker. -/
def Block.isHeading (block : Block) : Bool :=
  match block.margins.getLast? with
  | none => false
  | some margin => (Text.trimEnd margin.linePrefix.first.toList).getLast? == some '#'

/-- For each prefix in the order of opening, how many lines have been written under it. -/
abbrev LineCounts := List Nat

/-- No lines yet under any of `opened` prefixes. -/
def LineCounts.start (opened : Nat) : LineCounts := List.replicate opened 0

/-- The text in front of the next line under the margins. Every margin counts the line. -/
def renderMargins : List Margin → LineCounts → List Char × LineCounts
  | [], counts => ([], counts)
  | margin :: inner, counts =>
    let shown := if counts.getD margin.slot 0 = 0 then margin.linePrefix.first
      else margin.linePrefix.later
    let (rest, counts) := renderMargins inner (counts.modify margin.slot (· + 1))
    (shown.toList ++ rest, counts)

end HtmlMarkdown.Layout
