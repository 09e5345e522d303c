import HtmlMarkdown.Document.Tree

/-!
Outlines: a node of a document tree with all that lies below it, as a finite tree of its own.
What a tree is dumped and laid out from is its outline.
-/
namespace HtmlMarkdown.Document

/-- A text, or a node of some kind with the outlines of its children. -/
inductive Outline where
  | text (contents : String)
  | node (kind : Kind) (children : List Outline)

/-- What lies below a node, down to the given depth. -/
def Tree.outlineTo (t : Tree) : (depth : Nat) → NodeId → Outline
  | 0, id => .node (t.kind id) []
  | depth + 1, id =>
    .node (t.kind id) ((t.children id).map fun child =>
      match child with
      | .text contents => .text contents
      | .node below => t.outlineTo depth below)

/-- All that lies below a node. Where no node lies below itself, no way down is longer than the
array of nodes. -/
def Tree.outline (t : Tree) (id : NodeId) : Outline := t.outlineTo t.size id

namespace Outline

def children : Outline → List Outline
  | text _ => []
  | node _ below => below

def text? : Outline → Option String
  | text contents => some contents
  | node _ _ => none

/-- The texts of the outlines, joined, if all of them are texts. -/
def joinedTexts? (outlines : List Outline) : Option String :=
  (outlines.mapM text?).map String.join

end Outline
end HtmlMarkdown.Document
