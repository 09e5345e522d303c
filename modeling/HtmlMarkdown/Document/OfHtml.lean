import HtmlMarkdown.Document.Passes
import HtmlMarkdown.Html.Node

/-!
Conversion of HTML into a document tree. Elements that have a meaning in Markdown become nodes;
the children of every other element take the element's place. Comments and the like are left out.
-/
namespace HtmlMarkdown.Document

structure ConversionOptions where
  /-- Put everything into one block quote. -/
  quote : Bool := false
  /-- Keep links; otherwise their contents replace them. -/
  links : Bool := true
deriving DecidableEq

/-- The kind of node that an element becomes, if it has a meaning in Markdown. The letter case of
the tag does not matter. A definition list is no list in Markdown, but its terms become
paragraphs. -/
def kindOfElement (tag : String) (attributes : List Html.Attribute) : Except Fault (Option Kind) :=
  let upper := tag.map Char.toUpper
  match upper with
  | "H1" | "H2" | "H3" | "H4" | "H5" | "H6" =>
    (HeadingLevel.ofTag upper).map fun level => some (.heading level)
  | "B" | "STRONG" => .ok (some .bold)
  | "I" | "EM" => .ok (some .italic)
  | "OL" => .ok (some .orderedList)
  | "LI" => .ok (some .listItem)
  | "A" =>
    match Html.attribute? attributes "href" with
    | some href => .ok (if href = "" then none else some (.link href))
    | none => .ok none
  | "PRE" => .ok (some .preformatted)
  | "P" | "DL" | "DT" => .ok (some .paragraph)
  | "BLOCKQUOTE" => .ok (some (.blockquote false))
  | "TT" | "CODE" => .ok (some .code)
  | "BR" => .ok (some .lineBreak)
  | _ => .ok none

namespace Tree

/-- Puts a new node behind the children of `owner` and returns its number. -/
def pushNew (owner : NodeId) (kind : Kind) : Edit NodeId := do
  let id ← modifyGet fun t => t.add kind
  push owner (.node id)
  return id

mutual

/-- Puts what an HTML node becomes behind the children of `owner`. A text that is a lone newline
only lays out the source, unless it is preformatted. -/
def pushHtml (owner : NodeId) : Html.Node → Edit Unit
  | .text contents => do
    if contents != "\n" || (← get).isOrHasParentNamed owner .preformatted then
      push owner (.text contents)
  | .element _ tag attributes children => do
    match kindOfElement tag attributes with
    | .ok (some kind) => pushAllHtml (← pushNew owner kind) children
    | .ok none => pushAllHtml owner children
    | .error fault => throw fault
  | .comment _ | .doctype _ | .instruction _ _ | .document _ => pure ()

def pushAllHtml (owner : NodeId) : List Html.Node → Edit Unit
  | [] => pure ()
  | first :: rest => do
    pushHtml owner first
    pushAllHtml owner rest

end

/-- Puts a whole document below the root, inside a block quote if `quote` is set. -/
def pushDocument (quote : Bool) (document : List Html.Node) : Edit Unit := do
  let owner ← if quote then pushNew root (.blockquote true) else pure root
  pushAllHtml owner document

/-- The tree that a document becomes before any pass. -/
def rawOfHtml (document : List Html.Node) (options : ConversionOptions) : Except Fault Tree :=
  match pushDocument options.quote document empty with
  | .ok () t => .ok t
  | .error fault _ => .error fault

/-- The tree that a document becomes, in normal form. -/
def ofHtml (document : List Html.Node) (options : ConversionOptions) : Except Fault Tree := do
  let raw ← rawOfHtml document options
  match normalize (!options.links) raw with
  | .ok () t => .ok t
  | .error fault _ => .error fault

end Tree
end HtmlMarkdown.Document
