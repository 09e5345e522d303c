import HtmlMarkdown.Html.Builder.Forest
import HtmlMarkdown.Html.Token

/-!
The state of building a document from tokens: the nodes so far, the elements that are open, the
formatting elements that broken source makes reopen, and the rules in force (the insertion mode).
-/
namespace HtmlMarkdown.Html

/-- Which rules the next token is treated by. -/
inductive InsertionMode where
  | initial
  | beforeHtml
  | beforeHead
  | inHead
  | afterHead
  | inBody
  | text
  | inTable
  | inTableText
  | inCaption
  | inColumnGroup
  | inTableBody
  | inRow
  | inCell
  | inSelect
  | inSelectInTable
  | inTemplate
  | afterBody
  | inFrameset
  | afterFrameset
  | afterAfterBody
  | afterAfterFrameset
deriving DecidableEq, Repr, Inhabited

/-- A start tag, as formatting elements are made from it again. -/
structure Tag where
  name : String
  attributes : List (String × String) := []
  selfClosing : Bool := false
deriving DecidableEq

/-- An entry in the list of active formatting elements. -/
inductive FormatEntry where
  /-- Nothing before a marker is reopened while the marker is there. -/
  | marker
  | element (id : CellId) (tag : Tag)

structure Builder where
  forest : Forest := .start
  mode : InsertionMode := .initial
  /-- The mode to go back to after text and after the text of a table. -/
  laterMode : InsertionMode := .initial
  templateModes : List InsertionMode := []
  /-- The open elements, the innermost first. -/
  opened : List CellId := []
  /-- The active formatting elements, the latest first. -/
  formatting : List FormatEntry := []
  head : Option CellId := none
  form : Option CellId := none
  framesetOk : Bool := true
  fosterParenting : Bool := false
  /-- The document is laid out the old way. -/
  isOld : Bool := false
  /-- The next newline is dropped if it comes at once. -/
  skipNewline : Bool := false
  /-- The text of a table that has not been put anywhere, the latest character first. -/
  tableText : List Char := []
  model : ContentModel := .markup

namespace Builder

/-- The innermost open element. -/
def current (b : Builder) : CellId := b.opened.headD Forest.document

def isHtml (b : Builder) (id : CellId) (tags : List String) : Bool := b.forest.isHtml id tags

def currentIs (b : Builder) (tags : List String) : Bool := b.isHtml b.current tags

def push (b : Builder) (id : CellId) : Builder := { b with opened := id :: b.opened }

def pop (b : Builder) : Builder := { b with opened := b.opened.drop 1 }

/-- Closes an open element wherever it stands among them. -/
def removeOpened (b : Builder) (id : CellId) : Builder :=
  { b with opened := b.opened.filter (· != id) }

/-- The outermost open element. -/
def outermost (b : Builder) : CellId := b.opened.getLastD Forest.document

/-- The second of the open elements from outside, if it is the body. -/
def body? (b : Builder) : Option CellId :=
  match b.opened.reverse with
  | _ :: second :: _ => if b.isHtml second ["body"] then some second else none
  | _ => none

/-- True if an element of the HTML vocabulary with the given tag is open. -/
def hasOpened (b : Builder) (tag : String) : Bool := b.opened.any fun id => b.isHtml id [tag]

/-! Scopes: how far outwards open elements are looked for. -/

/-- Elements of other vocabularies in which HTML text may stand. -/
def isTextIntegration (b : Builder) (id : CellId) : Bool :=
  match b.forest.name? id with
  | some (.mathml, tag) => ["mi", "mo", "mn", "ms", "mtext"].contains tag
  | _ => false

/-- Elements of other vocabularies in which HTML may stand. -/
def isHtmlIntegration (b : Builder) (id : CellId) : Bool :=
  match b.forest.name? id with
  | some (.svg, tag) => ["foreignObject", "desc", "title"].contains tag
  | _ => false

/-- What a search for open elements does not go beyond. -/
inductive Scope where
  | default
  | button
  | listItem
  | table
  | select
deriving DecidableEq

def endsDefaultScope (b : Builder) (id : CellId) : Bool :=
  b.isHtml id ["applet", "caption", "html", "table", "td", "th", "marquee", "object", "template"]
    || b.isTextIntegration id || b.isHtmlIntegration id

def endsScope (b : Builder) (scope : Scope) (id : CellId) : Bool :=
  match scope with
  | .default => b.endsDefaultScope id
  | .button => b.endsDefaultScope id || b.isHtml id ["button"]
  | .listItem => b.endsDefaultScope id || b.isHtml id ["ol", "ul"]
  | .table => b.isHtml id ["html", "table", "template"]
  | .select => !b.isHtml id ["optgroup", "option"]

/-- True if an element that satisfies `p` is reached before the scope ends. -/
def reaches (b : Builder) (scope : Scope) (p : CellId → Bool) : List CellId → Bool
  | [] => false
  | id :: outer => p id || (!b.endsScope scope id && b.reaches scope p outer)

def inScopeWhere (b : Builder) (scope : Scope) (p : CellId → Bool) : Bool :=
  b.reaches scope p b.opened

def inScope (b : Builder) (scope : Scope) (tags : List String) : Bool :=
  b.inScopeWhere scope fun id => b.isHtml id tags

/-! Closing. -/

/-- Closes elements until one with one of the given tags has been closed. -/
def popUntil (b : Builder) (tags : List String) : Builder :=
  { b with opened := (b.opened.dropWhile fun id => !b.isHtml id tags).drop 1 }

/-- Closes elements until one with one of the given tags is the innermost. -/
def popUntilCurrent (b : Builder) (tags : List String) : Builder :=
  { b with opened := b.opened.dropWhile fun id => !b.isHtml id tags }

/-- Elements whose end tag may be left out. -/
def impliedEnds : List String :=
  ["dd", "dt", "li", "option", "optgroup", "p", "rb", "rp", "rt", "rtc"]

def thoroughImpliedEnds : List String :=
  impliedEnds ++ ["caption", "colgroup", "tbody", "td", "tfoot", "th", "thead", "tr"]

/-- Closes elements whose end tag has been left out. -/
def closeImplied (b : Builder) (tags : List String) : Builder :=
  { b with opened := b.opened.dropWhile fun id => b.isHtml id tags }

def closeImpliedExcept (b : Builder) (tag : String) : Builder :=
  b.closeImplied (impliedEnds.filter (· != tag))

/-- Closes a paragraph and what has been left open in it. -/
def closeParagraph (b : Builder) : Builder := (b.closeImpliedExcept "p").popUntil ["p"]

def closeParagraphInScope (b : Builder) : Builder :=
  if b.inScope .button ["p"] then b.closeParagraph else b

/-! Inserting. -/

/-- Where a node is put. -/
inductive Place where
  | lastChild (above : CellId)
  /-- In front of a table, or, if that is nowhere, behind the children of the element outside. -/
  | outsideTable (table outer : CellId)

/-- The node that holds the children of an element: its own for all but templates. -/
def holder (b : Builder) (id : CellId) : CellId := ((b.forest.cell id).contents).getD id

/-- Where misplaced contents of a table go: in front of the innermost table. -/
def fosterPlace (b : Builder) : List CellId → Place
  | [] => .lastChild b.outermost
  | id :: outer =>
    if b.isHtml id ["template"] then .lastChild (b.holder id)
    else if b.isHtml id ["table"] then .outsideTable id (outer.headD Forest.document)
    else b.fosterPlace outer

/-- Where a node goes that belongs into `target`. -/
def placeIn (b : Builder) (target : CellId) : Place :=
  if b.fosterParenting && b.isHtml target ["table", "tbody", "tfoot", "thead", "tr"] then
    b.fosterPlace b.opened
  else .lastChild (b.holder target)

/-- Puts a detached node into its place. -/
def putNode (b : Builder) (place : Place) (id : CellId) : Builder :=
  let forest := match place with
    | .lastChild above => b.forest.append above id
    | .outsideTable table outer =>
      if (b.forest.cell table).parent.isSome then b.forest.insertBefore table id
      else b.forest.append outer id
  { b with forest := forest }

def putText (b : Builder) (text : String) : Builder :=
  let forest := match b.placeIn b.current with
    | .lastChild above => b.forest.appendText above text
    | .outsideTable table outer =>
      if (b.forest.cell table).parent.isSome then b.forest.insertTextBefore table text
      else b.forest.appendText outer text
  { b with forest := forest }

def putChar (b : Builder) (c : Char) : Builder := b.putText (String.singleton c)

/-- Puts a comment into a given node. -/
def putCommentIn (b : Builder) (above : CellId) (contents : String) : Builder :=
  let (id, forest) := b.forest.add (.comment contents)
  { b with forest := forest.append above id }

def putComment (b : Builder) (contents : String) : Builder :=
  let (id, forest) := b.forest.add (.comment contents)
  { b with forest := forest }.putNode (b.placeIn b.current) id

/-- The attributes of a tag as those of an element. -/
def plainAttributes (attributes : List (String × String)) : List Attribute :=
  attributes.map fun (name, value) => { name := name, value := value }

/-- Makes an element that is nowhere yet. A template gets a node for its contents. -/
def create (b : Builder) (space : Namespace) (tag : String) (attributes : List Attribute) :
    CellId × Builder :=
  let (id, forest) := b.forest.add (.element space tag attributes)
  if space == .html && tag == "template" then
    let (contents, forest) := forest.add .document
    (id, { b with forest := forest.update id fun c => { c with contents := some contents } })
  else (id, { b with forest := forest })

/-- Makes an element and puts it into the place for it. -/
def insert (b : Builder) (space : Namespace) (tag : String) (attributes : List Attribute) :
    CellId × Builder :=
  let place := b.placeIn b.current
  let (id, b) := b.create space tag attributes
  (id, b.putNode place id)

/-- Puts an element of the HTML vocabulary into its place and opens it. -/
def openElement (b : Builder) (tag : Tag) : CellId × Builder :=
  let (id, b) := b.insert .html tag.name (plainAttributes tag.attributes)
  (id, b.push id)

def openTag (b : Builder) (tag : Tag) : Builder := (b.openElement tag).2

/-- Puts an element that stays empty into its place. -/
def putTag (b : Builder) (tag : Tag) : Builder :=
  (b.insert .html tag.name (plainAttributes tag.attributes)).2

/-- Opens an element that the source has left out. -/
def openPhantom (b : Builder) (name : String) : Builder := b.openTag { name := name }

/-- Opens an element that holds nothing but text. -/
def openText (b : Builder) (tag : Tag) (model : ContentModel) : Builder :=
  { b.openTag tag with laterMode := b.mode, mode := .text, model := model }

/-! The insertion mode that the open elements ask for. -/

/-- The mode that an open element asks for, if it asks for one. `outer` are the elements around
it. -/
def modeOf? (b : Builder) (id : CellId) (outer : List CellId) : Option InsertionMode :=
  match b.forest.name? id with
  | some (.html, tag) =>
    match tag with
    | "select" =>
      let around := outer.find? fun o => b.isHtml o ["template", "table"]
      match around with
      | some o => if b.isHtml o ["table"] then some .inSelectInTable else some .inSelect
      | none => some .inSelect
    | "td" | "th" => if outer.isEmpty then none else some .inCell
    | "tr" => some .inRow
    | "tbody" | "thead" | "tfoot" => some .inTableBody
    | "caption" => some .inCaption
    | "colgroup" => some .inColumnGroup
    | "table" => some .inTable
    | "template" => some (b.templateModes.headD .inTemplate)
    | "head" => if outer.isEmpty then none else some .inHead
    | "body" => some .inBody
    | "frameset" => some .inFrameset
    | "html" => if b.head.isNone then some .beforeHead else some .afterHead
    | _ => none
  | _ => none

def modeFrom (b : Builder) : List CellId → InsertionMode
  | [] => .inBody
  | id :: outer =>
    match b.modeOf? id outer with
    | some mode => mode
    | none => b.modeFrom outer

/-- The mode that suits the open elements. -/
def fittingMode (b : Builder) : InsertionMode := b.modeFrom b.opened

def resetMode (b : Builder) : Builder := { b with mode := b.fittingMode }

end Builder

/-- What comes of treating a token: the state, or the state and a token that is to be treated
once more by its rules. -/
inductive Outcome where
  | done (b : Builder)
  | again (b : Builder)

/-- The state in which a token is treated once more, under another mode. -/
def Outcome.under (mode : InsertionMode) (b : Builder) : Outcome := .again { b with mode := mode }

end HtmlMarkdown.Html
