import HtmlMarkdown.Document.Outline
import HtmlMarkdown.Layout.Page

/-!
Laying out an outline. Block-level nodes open a prefix around their contents, inline nodes write
delimiters, and a link becomes a reference unless it shows its own target.
-/
namespace HtmlMarkdown.Layout

open Document

/-- Why an outline cannot be laid out. -/
inductive LayoutFault where
  | document (fault : Fault)
  | mismatch (mismatch : PrefixMismatch)
deriving DecidableEq

def LayoutFault.message : LayoutFault → String
  | document fault => "IR error: " ++ fault.message
  | mismatch m => "Render error: " ++ m.message

/-- An item's number, with at least two digits, and its period. -/
def itemMarker (number : Nat) : String :=
  (if number < 10 then "0" else "") ++ toString number ++ ". "

/-- The prefix and the options of the block that a kind of node opens, if it is block-level.
Wrapping a heading would make several headings of it. -/
def blockOf? : Kind → Option (LinePrefix × BlockOptions)
  | .heading level =>
    some (⟨String.ofList (List.replicate level.value '#' ++ [' ']), ""⟩, { maxWidth := 0 })
  | .listItem => some (⟨"  - ", "    "⟩, {})
  | .numberedItem number => some (⟨itemMarker number, "    "⟩, {})
  | .preformatted => some (.uniform "    ", { maxWidth := 0, preserveNewlines := true })
  | .paragraph => some (.uniform "", {})
  | .blockquote acceptsTrailers => some (.uniform "> ", { acceptsTrailers := acceptsTrailers })
  | _ => none

/-- What stands on both sides of an inline node. -/
def delimiterOf? : Kind → Option String
  | .bold => some "**"
  | .italic => some "*"
  | .code => some "`"
  | _ => none

/-- A link is written between angle brackets if its contents are its own target and nothing
else. -/
def isAutolink (href : String) (children : List Outline) : Bool :=
  Outline.joinedTexts? children == some href

/-- Closes a prefix around which nothing else has been left open. -/
def closing (linePrefix : LinePrefix) (draft : Draft) : Except LayoutFault Draft :=
  match draft.closePrefix linePrefix with
  | (.ok (), draft) => .ok draft
  | (.error m, _) => .error (.mismatch m)

/-- Ends the open block, so that what follows starts another. -/
def boundary (draft : Draft) : Except LayoutFault Draft :=
  closing (.uniform "") (draft.openPrefix (.uniform "") {})

mutual

/-- Writes an outline into a draft. -/
def layOutline : Outline → Draft → Except LayoutFault Draft
  | .text contents, draft => .ok (draft.append contents)
  | .node kind children, draft =>
    match blockOf? kind, delimiterOf? kind with
    | some (linePrefix, options), _ => do
      let draft ← layOutlines children (draft.openPrefix linePrefix options)
      closing linePrefix draft
    | none, some delimiter => do
      let draft ← layOutlines children (draft.append delimiter)
      .ok (draft.append delimiter)
    | none, none =>
      match kind with
      | .link href =>
        if isAutolink href children then do
          let draft ← layOutlines children (draft.append "<")
          .ok (draft.append ">")
        else do
          let (number, draft) := draft.reference href
          let draft ← layOutlines children (draft.append "[")
          .ok (draft.append ("][" ++ toString number ++ "]"))
      | .lineBreak => boundary draft.markHardBreak
      | .separator => boundary draft
      | .orderedList => .error (.document (.unrenderable .orderedList))
      | _ => layOutlines children draft

def layOutlines : List Outline → Draft → Except LayoutFault Draft
  | [], draft => .ok draft
  | first :: rest, draft => do
    let draft ← layOutline first draft
    layOutlines rest draft

end

/-! What is done with a node of each kind. -/

/-- The ways of laying out a node. -/
inductive Treatment : Kind → Prop
  | block {k : Kind} {p : LinePrefix} {options : BlockOptions}
      (h : blockOf? k = some (p, options)) : Treatment k
  | delimited {k : Kind} {delimiter : String} (hblock : blockOf? k = none)
      (h : delimiterOf? k = some delimiter) : Treatment k
  | link (href : String) : Treatment (.link href)
  | lineBreak : Treatment .lineBreak
  | separator : Treatment .separator
  | orderedList : Treatment .orderedList
  | document : Treatment .document

theorem treatment (k : Kind) : Treatment k := by
  cases k with
  | document => exact .document
  | link href => exact .link href
  | lineBreak => exact .lineBreak
  | separator => exact .separator
  | orderedList => exact .orderedList
  | bold | italic | code => exact .delimited rfl rfl
  | heading | listItem | numberedItem | preformatted | paragraph | blockquote => exact .block rfl

section Equations

variable {k : Kind} (children : List Outline) (d : Draft)

theorem layOutline_block {p : LinePrefix} {options : BlockOptions}
    (h : blockOf? k = some (p, options)) : layOutline (.node k children) d =
      (layOutlines children (d.openPrefix p options)).bind (closing p) := by
  simp only [layOutline, h]
  rfl

theorem layOutline_delimited {delimiter : String} (hblock : blockOf? k = none)
    (h : delimiterOf? k = some delimiter) : layOutline (.node k children) d =
      (layOutlines children (d.append delimiter)).bind fun d => .ok (d.append delimiter) := by
  simp only [layOutline, hblock, h]
  rfl

theorem layOutline_autolink {href : String} (h : isAutolink href children) :
    layOutline (.node (.link href) children) d =
      (layOutlines children (d.append "<")).bind fun d => .ok (d.append ">") := by
  simp only [layOutline, blockOf?, delimiterOf?, if_pos h]
  rfl

theorem layOutline_reference {href : String} (h : ¬ isAutolink href children) :
    layOutline (.node (.link href) children) d =
      (layOutlines children ((d.reference href).2.append "[")).bind fun d' =>
        .ok (d'.append ("][" ++ toString (d.reference href).1 ++ "]")) := by
  simp only [layOutline, blockOf?, delimiterOf?, if_neg h]
  rfl

theorem layOutline_lineBreak :
    layOutline (.node .lineBreak children) d = boundary d.markHardBreak := rfl

theorem layOutline_separator : layOutline (.node .separator children) d = boundary d := rfl

theorem layOutline_document :
    layOutline (.node .document children) d = layOutlines children d := rfl

end Equations

/-- Lays out what lies below a node of a tree, in a draft of its own. -/
def layTree (t : Tree) (id : NodeId) : Except LayoutFault Draft :=
  layOutline (t.outline id) {}

end HtmlMarkdown.Layout
