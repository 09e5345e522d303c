import HtmlMarkdown.Html.Builder.Formatting

/-!
Rules for what stands before the body: the modes up to the end of the head.
-/
namespace HtmlMarkdown.Html

/-- White space in text. A carriage return can only come from a character reference. -/
def isWhite (c : Char) : Bool := isSpace c || c == '\r'

namespace Builder

/-- Attributes of a second `html` tag go to the outermost element. -/
def mergeHtml (b : Builder) (attributes : List (String × String)) : Builder :=
  if b.hasOpened "template" then b
  else { b with
    forest := b.forest.addMissingAttributes b.outermost (plainAttributes attributes) }

/-- Opens the outermost element. -/
def openRoot (b : Builder) (attributes : List (String × String)) : Builder :=
  let (id, b) := b.create .html "html" (plainAttributes attributes)
  { b with forest := b.forest.append Forest.document id }.push id

def initial (b : Builder) (token : Token) : Outcome :=
  let other := Outcome.under .beforeHtml { b with isOld := true }
  match token with
  | .char c => if isWhite c then .done b else other
  | .comment contents => .done (b.putCommentIn Forest.document contents)
  | _ => other

/-- End tags that open what the source has left out, as text would. -/
def openingEndTags : List String := ["head", "body", "html", "br"]

def beforeHtml (b : Builder) (token : Token) : Outcome :=
  let other := Outcome.under .beforeHead (b.openRoot [])
  match token with
  | .char c => if isWhite c then .done b else other
  | .comment contents => .done (b.putCommentIn Forest.document contents)
  | .startTag "html" attributes _ => .done { b.openRoot attributes with mode := .beforeHead }
  | .endTag name => if openingEndTags.contains name then other else .done b
  | _ => other

def beforeHead (b : Builder) (token : Token) : Outcome :=
  let openHead := fun (tag : Tag) =>
    let (id, b) := b.openElement tag
    { b with head := some id }
  let other := Outcome.under .inHead (openHead { name := "head" })
  match token with
  | .char c => if isWhite c then .done b else other
  | .comment contents => .done (b.putComment contents)
  | .startTag "html" attributes _ => .done (b.mergeHtml attributes)
  | .startTag "head" attributes selfClosing =>
    .done { openHead ⟨"head", attributes, selfClosing⟩ with mode := .inHead }
  | .endTag name => if openingEndTags.contains name then other else .done b
  | _ => other

/-- Closes a template and all that is open in it. -/
def closeTemplate (b : Builder) : Builder :=
  if b.hasOpened "template" then
    let b := ((b.closeImplied thoroughImpliedEnds).popUntil ["template"]).clearToMarker
    { b with templateModes := b.templateModes.drop 1 }.resetMode
  else b

def openTemplate (b : Builder) (tag : Tag) : Builder :=
  { (b.openTag tag).pushMarker with
    framesetOk := false, mode := .inTemplate, templateModes := .inTemplate :: b.templateModes }

def inHead (b : Builder) (token : Token) : Outcome :=
  let other := Outcome.under .afterHead b.pop
  match token with
  | .char c => if isWhite c then .done (b.putChar c) else other
  | .comment contents => .done (b.putComment contents)
  | .startTag name attributes selfClosing =>
    let tag : Tag := ⟨name, attributes, selfClosing⟩
    match name with
    | "html" => .done (b.mergeHtml attributes)
    | "base" | "basefont" | "bgsound" | "link" | "meta" => .done (b.putTag tag)
    | "title" => .done (b.openText tag (.text name))
    | "noframes" | "style" | "noscript" => .done (b.openText tag (.rawText name))
    | "script" => .done (b.openText tag .script)
    | "template" => .done (b.openTemplate tag)
    | "head" => .done b
    | _ => other
  | .endTag name =>
    match name with
    | "head" => .done { b.pop with mode := .afterHead }
    | "template" => .done b.closeTemplate
    | _ => if openingEndTags.contains name then other else .done b
  | _ => other

/-- Elements that belong into the head wherever they stand. -/
def headTags : List String :=
  ["base", "basefont", "bgsound", "link", "meta", "noframes", "script", "style", "template",
    "title"]

/-- Treats a token by the rules for the head while the head is open once more. -/
def inReopenedHead (b : Builder) (token : Token) : Outcome :=
  match b.head with
  | none => .done b
  | some head =>
    match (b.push head).inHead token with
    | .done b => .done (b.removeOpened head)
    | .again b => .again (b.removeOpened head)

def afterHead (b : Builder) (token : Token) : Outcome :=
  let other := Outcome.under .inBody (b.openPhantom "body")
  match token with
  | .char c => if isWhite c then .done (b.putChar c) else other
  | .comment contents => .done (b.putComment contents)
  | .startTag name attributes selfClosing =>
    let tag : Tag := ⟨name, attributes, selfClosing⟩
    match name with
    | "html" => .done (b.mergeHtml attributes)
    | "body" => .done { b.openTag tag with framesetOk := false, mode := .inBody }
    | "frameset" => .done { b.openTag tag with mode := .inFrameset }
    | "head" => .done b
    | _ => if headTags.contains name then b.inReopenedHead token else other
  | .endTag name =>
    match name with
    | "template" => .done b.closeTemplate
    | "body" | "html" | "br" => other
    | _ => .done b
  | _ => other

end Builder
end HtmlMarkdown.Html
