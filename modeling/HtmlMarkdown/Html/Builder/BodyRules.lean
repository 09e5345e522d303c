import HtmlMarkdown.Html.Builder.HeadRules
import HtmlMarkdown.Html.Builder.Foreign

/-!
Rules for the body, and for the text of elements that hold nothing else.
-/
namespace HtmlMarkdown.Html.Builder

/-- Block elements, which no paragraph can hold. -/
def blockTags : List String :=
  ["address", "article", "aside", "blockquote", "center", "details", "dialog", "dir", "div",
    "dl", "fieldset", "figcaption", "figure", "footer", "header", "hgroup", "main", "menu",
    "nav", "ol", "p", "search", "section", "summary", "ul"]

/-- Elements that an end tag closes if they are in scope, with what is open in them. -/
def closableTags : List String :=
  ["address", "article", "aside", "blockquote", "button", "center", "details", "dialog", "dir",
    "div", "dl", "fieldset", "figcaption", "figure", "footer", "header", "hgroup", "listing",
    "main", "menu", "nav", "ol", "pre", "search", "section", "summary", "ul"]

def headingTags : List String := ["h1", "h2", "h3", "h4", "h5", "h6"]

def formattingTags : List String :=
  ["b", "big", "code", "em", "font", "i", "s", "small", "strike", "strong", "tt", "u"]

/-- Elements that make sense inside a table or a frameset only. -/
def misplacedTags : List String :=
  ["caption", "col", "colgroup", "frame", "head", "tbody", "td", "tfoot", "th", "thead", "tr"]

/-- True if an attribute says that an input is hidden. -/
def isHidden (attributes : List (String × String)) : Bool :=
  attributes.any fun (name, value) => name == "type" && value.map Char.toLower == "hidden"

/-- The text of a body. NUL characters are left out. -/
def bodyChar (b : Builder) (c : Char) : Builder :=
  if c = '\x00' then b
  else
    let b := b.reopenFormatting
    let b := if isWhite c then b else { b with framesetOk := false }
    b.putChar c

/-- Closes the item that a new list item, term or description ends. -/
def closeItem (b : Builder) (tags : List String) : Builder :=
  let stops := fun id => b.isHtml id tags ||
    b.isHtml id (specialTags.filter fun t => !(["address", "div", "p"].contains t))
  match b.opened.find? stops with
  | none => b
  | some id =>
    match b.forest.name? id with
    | some (_, name) =>
      if b.isHtml id tags then (b.closeImpliedExcept name).popUntil [name] else b
    | none => b

/-- Closes the element in scope that an end tag names, with what is open in it. -/
def closeInScope (b : Builder) (name : String) : Builder :=
  if b.inScope .default [name] then (b.closeImplied impliedEnds).popUntil [name] else b

def closeForm (b : Builder) : Builder :=
  if b.hasOpened "template" then
    if b.inScope .default ["form"] then (b.closeImplied impliedEnds).popUntil ["form"] else b
  else
    let without := { b with form := none }
    match b.form with
    | none => b
    | some form =>
      if without.inScopeWhere .default (· == form) then
        (without.closeImplied impliedEnds).removeOpened form
      else without

def bodyFrameset (b : Builder) (tag : Tag) : Builder :=
  match b.body? with
  | none => b
  | some body =>
    if b.framesetOk then
      let b := { b with forest := b.forest.detach body, opened := b.opened.reverse.take 1 }
      { b.openTag tag with mode := .inFrameset }
    else b

/-- A start tag in the body, other than those that belong into the head. -/
def bodyStartTag (b : Builder) (tag : Tag) : Builder :=
  let blocking := { b with framesetOk := false }
  match tag.name with
  | "html" => b.mergeHtml tag.attributes
  | "body" =>
    match b.body? with
    | none => b
    | some body =>
      if b.hasOpened "template" then b
      else { blocking with
        forest := b.forest.addMissingAttributes body (plainAttributes tag.attributes) }
  | "frameset" => b.bodyFrameset tag
  | "h1" | "h2" | "h3" | "h4" | "h5" | "h6" =>
    let b := b.closeParagraphInScope
    let b := if b.currentIs headingTags then b.pop else b
    b.openTag tag
  | "pre" | "listing" =>
    { (b.closeParagraphInScope.openTag tag) with skipNewline := true, framesetOk := false }
  | "form" =>
    let inTemplate := b.hasOpened "template"
    if b.form.isSome && !inTemplate then b
    else
      let (id, b) := b.closeParagraphInScope.openElement tag
      if inTemplate then b else { b with form := some id }
  | "li" => ((blocking.closeItem ["li"]).closeParagraphInScope).openTag tag
  | "dd" | "dt" => ((blocking.closeItem ["dd", "dt"]).closeParagraphInScope).openTag tag
  | "plaintext" => { b.closeParagraphInScope.openTag tag with model := .plainText }
  | "button" =>
    let b :=
      if b.inScope .default ["button"] then (b.closeImplied impliedEnds).popUntil ["button"]
      else b
    { b.reopenFormatting.openTag tag with framesetOk := false }
  | "a" => b.closeOuterLink.reopenFormatting.openFormatting tag
  | "nobr" =>
    let b := b.reopenFormatting
    let b :=
      if b.inScope .default ["nobr"] then (b.closeFormatting "nobr").reopenFormatting else b
    b.openFormatting tag
  | "applet" | "marquee" | "object" =>
    { (b.reopenFormatting.openTag tag).pushMarker with framesetOk := false }
  | "table" =>
    let b := if b.isOld then b else b.closeParagraphInScope
    { b.openTag tag with framesetOk := false, mode := .inTable }
  | "area" | "br" | "embed" | "img" | "keygen" | "wbr" =>
    { b.reopenFormatting.putTag tag with framesetOk := false }
  | "image" => { b.reopenFormatting.putTag { tag with name := "img" } with framesetOk := false }
  | "input" =>
    let put := b.reopenFormatting.putTag tag
    if isHidden tag.attributes then put else { put with framesetOk := false }
  | "param" | "source" | "track" => b.putTag tag
  | "hr" => { b.closeParagraphInScope.putTag tag with framesetOk := false }
  | "textarea" => { blocking.openText tag (.text tag.name) with skipNewline := true }
  | "xmp" =>
    { b.closeParagraphInScope.reopenFormatting with framesetOk := false }.openText tag
      (.rawText tag.name)
  | "iframe" => blocking.openText tag (.rawText tag.name)
  | "noembed" | "noscript" => b.openText tag (.rawText tag.name)
  | "select" =>
    let inTable := [InsertionMode.inTable, .inCaption, .inTableBody, .inRow, .inCell].contains b.mode
    { b.reopenFormatting.openTag tag with
      framesetOk := false, mode := if inTable then .inSelectInTable else .inSelect }
  | "optgroup" | "option" =>
    (if b.currentIs ["option"] then b.pop else b).reopenFormatting.openTag tag
  | "rb" | "rtc" =>
    (if b.inScope .default ["ruby"] then b.closeImplied impliedEnds else b).openTag tag
  | "rp" | "rt" =>
    (if b.inScope .default ["ruby"] then b.closeImpliedExcept "rtc" else b).openTag tag
  | "math" => b.openForeign .mathml tag
  | "svg" => b.openForeign .svg tag
  | name =>
    if blockTags.contains name then b.closeParagraphInScope.openTag tag
    else if formattingTags.contains name then b.reopenFormatting.openFormatting tag
    else if misplacedTags.contains name then b
    else b.reopenFormatting.openTag tag

/-- An end tag in the body, other than those of the body and the document. -/
def bodyEndTag (b : Builder) (name : String) : Builder :=
  match name with
  | "form" => b.closeForm
  | "p" => (if b.inScope .button ["p"] then b else b.openPhantom "p").closeParagraph
  | "li" =>
    if b.inScope .listItem ["li"] then (b.closeImpliedExcept "li").popUntil ["li"] else b
  | "dd" | "dt" =>
    if b.inScope .default [name] then (b.closeImpliedExcept name).popUntil [name] else b
  | "applet" | "marquee" | "object" =>
    if b.inScope .default [name] then (b.closeInScope name).clearToMarker else b
  | "br" => b.bodyStartTag { name := "br" }
  | "template" => b.closeTemplate
  | _ =>
    if closableTags.contains name then b.closeInScope name
    else if headingTags.contains name then
      if b.inScope .default headingTags then (b.closeImplied impliedEnds).popUntil headingTags
      else b
    else if name == "a" || name == "nobr" || formattingTags.contains name then
      b.closeFormatting name
    else b.closeAny name

/-- What is left of a template when the source ends in it is closed. -/
def endInTemplate (b : Builder) : Outcome :=
  if b.hasOpened "template" then
    let b := (b.popUntil ["template"]).clearToMarker
    .again { b with templateModes := b.templateModes.drop 1 }.resetMode
  else .done b

def inBody (b : Builder) (token : Token) : Outcome :=
  match token with
  | .char c => .done (b.bodyChar c)
  | .comment contents => .done (b.putComment contents)
  | .startTag name attributes selfClosing =>
    if headTags.contains name then b.inHead token
    else .done (b.bodyStartTag ⟨name, attributes, selfClosing⟩)
  | .endTag "body" =>
    .done (if b.inScope .default ["body"] then { b with mode := .afterBody } else b)
  | .endTag "html" => if b.inScope .default ["body"] then .under .afterBody b else .done b
  | .endTag name => .done (b.bodyEndTag name)
  | .endOfSource => if b.templateModes.isEmpty then .done b else b.endInTemplate
  | .doctype _ | .nothing => .done b

/-- Text up to an end tag, which is the only tag that can come. -/
def inText (b : Builder) (token : Token) : Outcome :=
  match token with
  | .char c => .done (b.putChar c)
  | .endTag _ => .done { b.pop with mode := b.laterMode, model := .markup }
  | .endOfSource => .under b.laterMode { b.pop with model := .markup }
  | _ => .done b

end HtmlMarkdown.Html.Builder
