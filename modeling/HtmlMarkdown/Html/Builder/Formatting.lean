import HtmlMarkdown.Html.Builder.State

/-!
Formatting elements such as `b` and `a`. Where the source closes one while another is still open
inside it, the inner one goes on after the end tag: it is opened again, or, where blocks are
involved, the tree is rearranged so that every element holds what the source put into it.
-/
namespace HtmlMarkdown.Html

/-- Elements with rules of their own, beyond which an end tag without such rules closes
nothing. -/
def specialTags : List String :=
  ["address", "applet", "area", "article", "aside", "base", "basefont", "bgsound", "blockquote",
    "body", "br", "button", "caption", "center", "col", "colgroup", "dd", "details", "dir",
    "div", "dl", "dt", "embed", "fieldset", "figcaption", "figure", "footer", "form", "frame",
    "frameset", "h1", "h2", "h3", "h4", "h5", "h6", "head", "header", "hgroup", "hr", "html",
    "iframe", "img", "input", "isindex", "li", "link", "listing", "main", "marquee", "menu",
    "meta", "nav", "noembed", "noframes", "noscript", "object", "ol", "p", "param", "plaintext",
    "pre", "script", "section", "select", "source", "style", "summary", "table", "tbody", "td",
    "template", "textarea", "tfoot", "th", "thead", "title", "tr", "track", "ul", "wbr", "xmp"]

def FormatEntry.isMarker : FormatEntry → Bool
  | .marker => true
  | .element _ _ => false

/-- True if the entry is for the given element. -/
def FormatEntry.isFor (id : CellId) : FormatEntry → Bool
  | .marker => false
  | .element other _ => other == id

def FormatEntry.element? : FormatEntry → Option (CellId × Tag)
  | .marker => none
  | .element id tag => some (id, tag)

/-- Two tags of one name whose attributes are the same in some order. -/
def Tag.sameAs (a b : Tag) : Bool := a.name == b.name && a.attributes.isPerm b.attributes

namespace Builder

def pushMarker (b : Builder) : Builder := { b with formatting := .marker :: b.formatting }

/-- Forgets the formatting elements up to the latest marker, and the marker. -/
def clearToMarker (b : Builder) : Builder :=
  { b with formatting := (b.formatting.dropWhile fun e => !e.isMarker).drop 1 }

/-- The formatting elements after the latest marker, the latest first. -/
def entriesToMarker (b : Builder) : List (CellId × Tag) :=
  (b.formatting.takeWhile fun e => !e.isMarker).filterMap FormatEntry.element?

def forget (b : Builder) (id : CellId) : Builder :=
  { b with formatting := b.formatting.filter fun e => !e.isFor id }

def replaceEntry (b : Builder) (id : CellId) (entry : FormatEntry) : Builder :=
  { b with formatting := b.formatting.map fun e => if e.isFor id then entry else e }

/-- Opens a formatting element and remembers it. Of more than three that look the same the first
is forgotten. -/
def openFormatting (b : Builder) (tag : Tag) : Builder :=
  let same := b.entriesToMarker.filter fun (_, other) => tag.sameAs other
  let b := match same.getLast? with
    | some (first, _) => if 3 ≤ same.length then b.forget first else b
    | none => b
  let (id, b) := b.openElement tag
  { b with formatting := .element id tag :: b.formatting }

/-- Opens again the latest formatting elements that are no longer open. -/
def reopenFormatting (b : Builder) : Builder :=
  let closed := b.formatting.takeWhile fun e =>
    match e with
    | .marker => false
    | .element id _ => !b.opened.contains id
  (closed.filterMap FormatEntry.element?).reverse.foldl (fun b (old, tag) =>
    let (id, b) := b.openElement tag
    b.replaceEntry old (.element id tag)) b

/-- An end tag without rules of its own closes the innermost element of its name, unless an
element with rules of its own is reached first. -/
def closeAny (b : Builder) (name : String) : Builder :=
  match b.opened.find? fun id => b.isHtml id [name] || b.isHtml id specialTags with
  | none => b
  | some id =>
    if b.isHtml id [name] then { b with opened := (b.opened.dropWhile (· != id)).drop 1 } else b

/-- Where a formatting element is remembered after the rearrangement. -/
inductive Bookmark where
  | inPlaceOf (id : CellId)
  | after (id : CellId)

/-- Goes outwards from the furthest block through the elements inside the formatting element.
Those that are formatting elements themselves are made anew around `last`, the first three of
them; the others are no longer open. -/
def rebuildBetween (furthest : CellId) : (counter : Nat) → List CellId → (last : CellId) →
    Bookmark → Builder → CellId × Bookmark × Builder
  | _, [], last, bookmark, b => (last, bookmark, b)
  | counter, id :: outer, last, bookmark, b =>
    let entry := (b.formatting.filterMap FormatEntry.element?).find? (·.1 == id)
    match entry with
    | none => rebuildBetween furthest (counter + 1) outer last bookmark (b.removeOpened id)
    | some (_, tag) =>
      if 3 < counter then
        rebuildBetween furthest (counter + 1) outer last bookmark ((b.forget id).removeOpened id)
      else
        let (fresh, b) := b.create .html tag.name (plainAttributes tag.attributes)
        let b := { b with opened := b.opened.map fun o => if o == id then fresh else o }
        let b := b.replaceEntry id (.element fresh tag)
        let bookmark := if last == furthest then .after fresh else bookmark
        let b := { b with forest := (b.forest.detach last).append fresh last }
        rebuildBetween furthest (counter + 1) outer fresh bookmark b

/-- Remembers a formatting element at a bookmark, and forgets the one it has been made from. -/
def placeEntry (b : Builder) (old : CellId) (entry : FormatEntry) : Bookmark → Builder
  | .inPlaceOf id => b.replaceEntry id entry
  | .after id =>
    let formatting := b.formatting.flatMap fun e => if e.isFor id then [entry, e] else [e]
    { b with formatting := formatting }.forget old

/-- Rearranges the tree around the formatting element `id` and the furthest block inside it. -/
def rearrange (b : Builder) (id : CellId) (tag : Tag) (furthest : CellId) : Builder :=
  let inside := b.opened.takeWhile (· != id)
  let ancestor := ((b.opened.dropWhile (· != id)).drop 1).headD Forest.document
  let between := (inside.dropWhile (· != furthest)).drop 1
  let (last, bookmark, b) := rebuildBetween furthest 1 between furthest (.inPlaceOf id) b
  let b := { b with forest := b.forest.detach last }
  let b := b.putNode (b.placeIn ancestor) last
  let (fresh, b) := b.create .html tag.name (plainAttributes tag.attributes)
  let forest := (b.forest.moveChildren furthest fresh).append furthest fresh
  let b := { b with forest := forest }.placeEntry id (.element fresh tag) bookmark
  let b := b.removeOpened id
  { b with opened := b.opened.flatMap fun o => if o == furthest then [fresh, o] else [o] }

/-- One round of closing a formatting element; the answer tells whether there may be more to
do. -/
def closeFormattingOnce (b : Builder) (name : String) : Bool × Builder :=
  match b.entriesToMarker.find? fun (_, tag) => tag.name == name with
  | none => (false, b.closeAny name)
  | some (id, tag) =>
    if !b.opened.contains id then (false, b.forget id)
    else if !b.inScopeWhere .default (· == id) then (false, b)
    else
      let inside := b.opened.takeWhile (· != id)
      match inside.reverse.find? fun o => b.isHtml o specialTags with
      | none =>
        let opened := (b.opened.dropWhile (· != id)).drop 1
        (false, { b with opened := opened }.forget id)
      | some furthest => (true, b.rearrange id tag furthest)

def closeFormattingRounds (name : String) : (rounds : Nat) → Builder → Builder
  | 0, b => b
  | rounds + 1, b =>
    match b.closeFormattingOnce name with
    | (true, b) => closeFormattingRounds name rounds b
    | (false, b) => b

/-- Closes a formatting element, in at most eight rounds. -/
def closeFormatting (b : Builder) (name : String) : Builder :=
  let isRemembered := b.formatting.any fun e => e.isFor b.current
  if b.currentIs [name] && !isRemembered then b.pop
  else closeFormattingRounds name 8 b

/-- An `a` inside another one closes it. -/
def closeOuterLink (b : Builder) : Builder :=
  match b.entriesToMarker.find? fun (id, _) => b.isHtml id ["a"] with
  | none => b
  | some (id, _) => ((b.closeFormatting "a").forget id).removeOpened id

end Builder
end HtmlMarkdown.Html
