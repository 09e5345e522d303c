import HtmlMarkdown.Layout.Wrap

/-!
A draft is a Markdown document while it is being laid out: the prefixes that are open, the blocks
so far, and the lines that will follow the last block. Opening and closing a prefix both start a
new block, so blocks end exactly where the nesting changes.
-/
namespace HtmlMarkdown.Layout

/-- The prefix that was to be closed is not the one opened last. -/
structure PrefixMismatch where
  expected : LinePrefix
  found : Option LinePrefix
deriving DecidableEq

def LinePrefix.dump (p : LinePrefix) : String :=
  "Prefix \x7b first: " ++ Text.quote p.first ++ ", subsequent: " ++ Text.quote p.later ++ " \x7d"

def PrefixMismatch.message (m : PrefixMismatch) : String :=
  let found := match m.found with
    | none => "None"
    | some p => "Some(" ++ p.dump ++ ")"
  "pop of " ++ m.expected.dump ++ " does not match what was pushed (" ++ found ++ ")"

structure Draft where
  /-- The open prefixes, the outermost first. -/
  margins : List Margin := []
  blocks : List Block := []
  /-- How many prefixes have ever been opened. -/
  opened : Nat := 0
  /-- The targets that have a reference number: the first has number one. -/
  hrefs : List String := []
  /-- The lines that follow the last block. -/
  trailers : List String := []
deriving DecidableEq

/-- Applies `f` to the last element of a list. -/
def onLast (f : α → α) : List α → List α
  | [] => []
  | [x] => [f x]
  | x :: rest => x :: onLast f rest

namespace Draft

/-- Opens a prefix and a new block under it. -/
def openPrefix (draft : Draft) (linePrefix : LinePrefix) (options : BlockOptions) : Draft :=
  let margins := draft.margins ++ [⟨linePrefix, draft.opened⟩]
  { draft with
    margins := margins
    opened := draft.opened + 1
    blocks := draft.blocks ++ [{ margins := margins, options := options }] }

/-- Gives text to the last block. Where there is none yet, one opens under an empty prefix. -/
def append (draft : Draft) (text : String) : Draft :=
  let draft := if draft.blocks.isEmpty then draft.openPrefix (.uniform "") {} else draft
  { draft with blocks := onLast (·.append text) draft.blocks }

/-- Closes the prefix opened last and starts a block under the others. If it is not the one
expected, it is closed all the same, but no block starts. -/
def closePrefix (draft : Draft) (expected : LinePrefix) : Except PrefixMismatch Unit × Draft :=
  let outer := draft.margins.dropLast
  match draft.margins.getLast? with
  | none => (.error ⟨expected, none⟩, draft)
  | some margin =>
    if margin.linePrefix = expected then
      (.ok (), { draft with margins := outer, blocks := draft.blocks ++ [{ margins := outer }] })
    else (.error ⟨expected, some margin.linePrefix⟩, { draft with margins := outer })

/-- Makes the last block end with a hard line break. -/
def markHardBreak (draft : Draft) : Draft :=
  let mark := fun block : Block =>
    { block with options := { block.options with endsWithHardBreak := true } }
  { draft with blocks := onLast mark draft.blocks }

/-- Adds a line that will follow the last block. -/
def addTrailer (draft : Draft) (line : String) : Draft :=
  { draft with trailers := draft.trailers ++ [line] }

/-- The line that says where a reference leads. -/
def referenceLine (number : Nat) (href : String) : String :=
  "[" ++ toString number ++ "]: " ++ href

/-- The reference number of a target. A new target gets the next number and its line among the
trailers. -/
def reference (draft : Draft) (href : String) : Nat × Draft :=
  match draft.hrefs.idxOf? href with
  | some position => (position + 1, draft)
  | none =>
    let number := draft.hrefs.length + 1
    (number, { draft with hrefs := draft.hrefs ++ [href] }.addTrailer (referenceLine number href))

end Draft
end HtmlMarkdown.Layout
