import HtmlMarkdown.Document.OfHtml
import HtmlMarkdown.Document.Dump
import HtmlMarkdown.Layout.OfOutline

/-!
The conversion from HTML to Markdown as a whole: a document becomes a tree in normal form, the
tree is laid out, and the draft is written as text.
-/
namespace HtmlMarkdown

open Document Layout

/-- The draft that a document is laid out into. -/
def draftOfHtml (document : List Html.Node) (options : ConversionOptions) :
    Except LayoutFault Draft :=
  match Tree.ofHtml document options with
  | .ok t => layTree t Tree.root
  | .error fault => .error (.document fault)

/-- The Markdown text of a document. -/
def markdownOfHtml (document : List Html.Node) (options : ConversionOptions) :
    Except LayoutFault String :=
  (draftOfHtml document options).map Draft.finished

end HtmlMarkdown
