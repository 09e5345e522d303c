import HtmlMarkdown.Html.Builder.TableRules

/-!
Rules for selections, templates, framesets, what follows the body, and other vocabularies.
-/
namespace HtmlMarkdown.Html.Builder

/-- Closes a selection, if one is in scope, and treats the token again outside of it. -/
def leaveSelect (b : Builder) : Outcome :=
  if b.inScope .select ["select"] then .again (b.popUntil ["select"]).resetMode else .done b

def closeSelect (b : Builder) : Builder :=
  if b.inScope .select ["select"] then (b.popUntil ["select"]).resetMode else b

def popIf (b : Builder) (tag : String) : Builder := if b.currentIs [tag] then b.pop else b

def inSelect (b : Builder) (token : Token) : Outcome :=
  match token with
  | .char c => .done (if c = '\x00' then b else b.putChar c)
  | .comment contents => .done (b.putComment contents)
  | .startTag name attributes selfClosing =>
    let tag : Tag := ⟨name, attributes, selfClosing⟩
    match name with
    | "html" => .done (b.mergeHtml attributes)
    | "option" => .done ((b.popIf "option").openTag tag)
    | "optgroup" => .done (((b.popIf "option").popIf "optgroup").openTag tag)
    | "hr" => .done (((b.popIf "option").popIf "optgroup").putTag tag)
    | "select" => .done b.closeSelect
    | "input" | "keygen" | "textarea" => b.leaveSelect
    | "script" | "template" => b.inHead token
    | _ => .done b
  | .endTag name =>
    match name with
    | "optgroup" =>
      let inGroup := match b.opened with
        | option :: group :: _ => b.isHtml option ["option"] && b.isHtml group ["optgroup"]
        | _ => false
      .done ((if inGroup then b.pop else b).popIf "optgroup")
    | "option" => .done (b.popIf "option")
    | "select" => .done b.closeSelect
    | "template" => .done b.closeTemplate
    | _ => .done b
  | .endOfSource => b.inBody token
  | .doctype _ | .nothing => .done b

def inSelectInTable (b : Builder) (token : Token) : Outcome :=
  let parts := ["caption", "table", "tbody", "tfoot", "thead", "tr", "td", "th"]
  let leave := Outcome.again (b.popUntil ["select"]).resetMode
  match token with
  | .startTag name _ _ => if parts.contains name then leave else b.inSelect token
  | .endTag name =>
    if parts.contains name then
      if b.inScope .table [name] then leave else .done b
    else b.inSelect token
  | _ => b.inSelect token

/-- Treats a token again by the rules for a part of a document that is what a template holds. -/
def templateAs (b : Builder) (mode : InsertionMode) : Outcome :=
  .under mode { b with templateModes := mode :: b.templateModes.drop 1 }

def inTemplate (b : Builder) (token : Token) : Outcome :=
  match token with
  | .char c => if c = '\x00' then .done b else b.inBody token
  | .comment _ => b.inBody token
  | .startTag name _ _ =>
    if headTags.contains name then b.inHead token
    else match name with
      | "caption" | "colgroup" | "tbody" | "tfoot" | "thead" => b.templateAs .inTable
      | "col" => b.templateAs .inColumnGroup
      | "tr" => b.templateAs .inTableBody
      | "td" | "th" => b.templateAs .inRow
      | _ => b.templateAs .inBody
  | .endTag "template" => .done b.closeTemplate
  | .endTag _ => .done b
  | .endOfSource => b.endInTemplate
  | .doctype _ | .nothing => .done b

def afterBody (b : Builder) (token : Token) : Outcome :=
  let other := Outcome.under .inBody b
  match token with
  | .char c => if isWhite c then b.inBody token else other
  | .comment contents => .done (b.putCommentIn b.outermost contents)
  | .startTag "html" attributes _ => .done (b.mergeHtml attributes)
  | .endTag "html" => .done { b with mode := .afterAfterBody }
  | .endOfSource => .done b
  | _ => other

def afterAfterBody (b : Builder) (token : Token) : Outcome :=
  let other := Outcome.under .inBody b
  match token with
  | .char c => if isWhite c then b.inBody token else other
  | .comment contents => .done (b.putCommentIn Forest.document contents)
  | .startTag "html" attributes _ => .done (b.mergeHtml attributes)
  | .endOfSource => .done b
  | _ => other

def inFrameset (b : Builder) (token : Token) : Outcome :=
  match token with
  | .char c => .done (if isWhite c then b.putChar c else b)
  | .comment contents => .done (b.putComment contents)
  | .startTag name attributes selfClosing =>
    let tag : Tag := ⟨name, attributes, selfClosing⟩
    match name with
    | "html" => .done (b.mergeHtml attributes)
    | "frameset" => .done (b.openTag tag)
    | "frame" => .done (b.putTag tag)
    | "noframes" => b.inHead token
    | _ => .done b
  | .endTag "frameset" =>
    if b.opened.length ≤ 1 then .done b
    else
      let b := b.pop
      .done (if b.currentIs ["frameset"] then b else { b with mode := .afterFrameset })
  | _ => .done b

def afterFrameset (b : Builder) (token : Token) : Outcome :=
  match token with
  | .char c => .done (if isWhite c then b.putChar c else b)
  | .comment contents => .done (b.putComment contents)
  | .startTag "html" attributes _ => .done (b.mergeHtml attributes)
  | .startTag "noframes" _ _ => b.inHead token
  | .endTag "html" => .done { b with mode := .afterAfterFrameset }
  | _ => .done b

def afterAfterFrameset (b : Builder) (token : Token) : Outcome :=
  match token with
  | .char c => if isWhite c then b.inBody token else .done b
  | .comment contents => .done (b.putCommentIn Forest.document contents)
  | .startTag "html" attributes _ => .done (b.mergeHtml attributes)
  | .startTag "noframes" _ _ => b.inHead token
  | _ => .done b

/-- Treats a token by the rules of the mode in force. -/
def byMode (b : Builder) (token : Token) : Outcome :=
  match b.mode with
  | .initial => b.initial token
  | .beforeHtml => b.beforeHtml token
  | .beforeHead => b.beforeHead token
  | .inHead => b.inHead token
  | .afterHead => b.afterHead token
  | .inBody => b.inBody token
  | .text => b.inText token
  | .inTable => b.inTable token
  | .inTableText => b.inTableText token
  | .inCaption => b.inCaption token
  | .inColumnGroup => b.inColumnGroup token
  | .inTableBody => b.inTableBody token
  | .inRow => b.inRow token
  | .inCell => b.inCell token
  | .inSelect => b.inSelect token
  | .inSelectInTable => b.inSelectInTable token
  | .inTemplate => b.inTemplate token
  | .afterBody => b.afterBody token
  | .inFrameset => b.inFrameset token
  | .afterFrameset => b.afterFrameset token
  | .afterAfterBody => b.afterAfterBody token
  | .afterAfterFrameset => b.afterAfterFrameset token

/-! Other vocabularies. -/

/-- HTML elements whose start tag ends the part of the document in another vocabulary. -/
def breakingTags : List String :=
  ["b", "big", "blockquote", "body", "br", "center", "code", "dd", "div", "dl", "dt", "em",
    "embed", "h1", "h2", "h3", "h4", "h5", "h6", "head", "hr", "i", "img", "li", "listing",
    "menu", "meta", "nobr", "ol", "p", "pre", "ruby", "s", "small", "span", "strong", "strike",
    "sub", "sup", "table", "tt", "u", "ul", "var"]

/-- Closes the elements of other vocabularies and treats a token by the rules of the mode. -/
def leaveForeign (b : Builder) (token : Token) : Outcome :=
  let stays := fun id =>
    (b.forest.name? id).all (fun (space, _) => space == .html) || b.isTextIntegration id
      || b.isHtmlIntegration id
  { b with opened := b.opened.dropWhile (!stays ·) }.byMode token

/-- An end tag closes the innermost element of its name, in any letter case, unless an element of
the HTML vocabulary is reached first, whose rules then hold. The innermost element is not
asked whether it is one. -/
def foreignEndTag (b : Builder) (name : String) (isFirst : Bool) : List CellId → Outcome
  | [] => .done b
  | [_] => .done b
  | id :: outer =>
    match b.forest.name? id with
    | none => .done b
    | some (space, tag) =>
      if !isFirst && space == .html then b.byMode (.endTag name)
      else if tag.map Char.toLower == name then .done { b with opened := outer }
      else b.foreignEndTag name false outer

def inForeign (b : Builder) (token : Token) : Outcome :=
  match token with
  | .char '\x00' => .done (b.putChar '\uFFFD')
  | .char c =>
    let b := if isWhite c then b else { b with framesetOk := false }
    .done (b.putChar c)
  | .comment contents => .done (b.putComment contents)
  | .startTag name attributes selfClosing =>
    let isStyledFont := name == "font" &&
      attributes.any fun (name, _) => ["color", "face", "size"].contains name
    if breakingTags.contains name || isStyledFont then b.leaveForeign token
    else match b.forest.name? b.current with
      | none => .done b
      | some (space, _) =>
        let name := if space == .svg then respell svgTags name else name
        .done (b.openForeign space ⟨name, attributes, selfClosing⟩)
  | .endTag name =>
    if name == "br" || name == "p" then b.leaveForeign token
    else b.foreignEndTag name true b.opened
  | .doctype _ | .nothing | .endOfSource => .done b

end HtmlMarkdown.Html.Builder
