import HtmlMarkdown.Html.Builder.BodyRules

/-!
Rules for tables. What does not belong into a table where it stands is put in front of the table.
-/
namespace HtmlMarkdown.Html.Builder

/-- Treats a token by the rules for the body, but puts what comes of it in front of the table. -/
def inFrontOfTable (b : Builder) (token : Token) : Outcome :=
  match { b with fosterParenting := true }.inBody token with
  | .done b => .done { b with fosterParenting := false }
  | .again b => .again { b with fosterParenting := false }

/-- The elements around the rows and cells of a table. -/
def tableContext : List String := ["table", "template", "html"]

def bodyContext : List String := ["tbody", "tfoot", "thead", "template", "html"]

def rowContext : List String := ["tr", "template", "html"]

/-- Text directly in a table is held back until it is known to be white space or not. -/
def tableChar (b : Builder) (token : Token) : Outcome :=
  if b.currentIs ["table", "tbody", "tfoot", "thead", "tr"] then
    .under .inTableText { b with laterMode := b.mode }
  else b.inFrontOfTable token

/-- Puts the text of a table that has been held back: into the table if it is white space, in front
of the table otherwise. -/
def putTableText (b : Builder) : Builder :=
  let text := b.tableText.reverse
  let b := { b with tableText := [] }
  if text.all isWhite then text.foldl putChar b
  else
    let b := text.foldl bodyChar { b with fosterParenting := true }
    { b with fosterParenting := false }

def inTableText (b : Builder) (token : Token) : Outcome :=
  match token with
  | .char c => .done (if c = '\x00' then b else { b with tableText := c :: b.tableText })
  | _ => .under b.laterMode b.putTableText

def tableStartTag (b : Builder) (tag : Tag) : Outcome :=
  let token := Token.startTag tag.name tag.attributes tag.selfClosing
  let cleared := b.popUntilCurrent tableContext
  match tag.name with
  | "caption" => .done { cleared.pushMarker.openTag tag with mode := .inCaption }
  | "colgroup" => .done { cleared.openTag tag with mode := .inColumnGroup }
  | "col" => .under .inColumnGroup (cleared.openPhantom "colgroup")
  | "tbody" | "tfoot" | "thead" => .done { cleared.openTag tag with mode := .inTableBody }
  | "td" | "th" | "tr" => .under .inTableBody (cleared.openPhantom "tbody")
  | "table" =>
    if b.inScope .table ["table"] then .again (b.popUntil ["table"]).resetMode else .done b
  | "style" | "script" | "template" => b.inHead token
  | "input" =>
    if isHidden tag.attributes then .done (b.putTag tag) else b.inFrontOfTable token
  | "form" =>
    if b.hasOpened "template" || b.form.isSome then .done b
    else
      let (id, b) := b.openElement tag
      .done { b.pop with form := some id }
  | _ => b.inFrontOfTable token

/-- End tags that mean nothing directly in a table. -/
def strayTableEnds : List String :=
  ["body", "caption", "col", "colgroup", "html", "tbody", "td", "tfoot", "th", "thead", "tr"]

def inTable (b : Builder) (token : Token) : Outcome :=
  match token with
  | .char _ => b.tableChar token
  | .comment contents => .done (b.putComment contents)
  | .startTag name attributes selfClosing => b.tableStartTag ⟨name, attributes, selfClosing⟩
  | .endTag "table" =>
    .done (if b.inScope .table ["table"] then (b.popUntil ["table"]).resetMode else b)
  | .endTag "template" => .done b.closeTemplate
  | .endTag name =>
    if strayTableEnds.contains name then .done b else b.inFrontOfTable token
  | .endOfSource => b.inBody token
  | .doctype _ | .nothing => .done b

/-- Tags that end a caption or a cell. -/
def tableParts : List String :=
  ["caption", "col", "colgroup", "tbody", "td", "tfoot", "th", "thead", "tr"]

def closeCaption (b : Builder) : Builder :=
  ((b.closeImplied impliedEnds).popUntil ["caption"]).clearToMarker

def inCaption (b : Builder) (token : Token) : Outcome :=
  let isOpen := b.inScope .table ["caption"]
  let leave := if isOpen then Outcome.under .inTable b.closeCaption else .done b
  match token with
  | .startTag name _ _ => if tableParts.contains name then leave else b.inBody token
  | .endTag "caption" =>
    .done (if isOpen then { b.closeCaption with mode := .inTable } else b)
  | .endTag "table" => leave
  | .endTag name => if strayTableEnds.contains name then .done b else b.inBody token
  | _ => b.inBody token

def inColumnGroup (b : Builder) (token : Token) : Outcome :=
  let other := if b.currentIs ["colgroup"] then Outcome.under .inTable b.pop else .done b
  match token with
  | .char c => if isWhite c then .done (b.putChar c) else other
  | .comment contents => .done (b.putComment contents)
  | .startTag name attributes selfClosing =>
    match name with
    | "html" => .done (b.mergeHtml attributes)
    | "col" => .done (b.putTag ⟨name, attributes, selfClosing⟩)
    | "template" => b.inHead token
    | _ => other
  | .endTag "colgroup" =>
    .done (if b.currentIs ["colgroup"] then { b.pop with mode := .inTable } else b)
  | .endTag "col" => .done b
  | .endTag "template" => .done b.closeTemplate
  | .endTag _ => other
  | .endOfSource => b.inBody token
  | .doctype _ | .nothing => .done b

def inTableBody (b : Builder) (token : Token) : Outcome :=
  let cleared := b.popUntilCurrent bodyContext
  let leave :=
    if b.inScope .table ["table", "tbody", "tfoot"] then Outcome.under .inTable cleared.pop
    else .done b
  match token with
  | .startTag name attributes selfClosing =>
    match name with
    | "tr" => .done { cleared.openTag ⟨name, attributes, selfClosing⟩ with mode := .inRow }
    | "th" | "td" => .under .inRow (cleared.openPhantom "tr")
    | "caption" | "col" | "colgroup" | "tbody" | "tfoot" | "thead" => leave
    | _ => b.inTable token
  | .endTag name =>
    match name with
    | "tbody" | "tfoot" | "thead" =>
      .done (if b.inScope .table [name] then { cleared.pop with mode := .inTable } else b)
    | "table" => leave
    | "body" | "caption" | "col" | "colgroup" | "html" | "td" | "th" | "tr" => .done b
    | _ => b.inTable token
  | _ => b.inTable token

def inRow (b : Builder) (token : Token) : Outcome :=
  let cleared := b.popUntilCurrent rowContext
  let isOpen := b.inScope .table ["tr"]
  let leave := if isOpen then Outcome.under .inTableBody cleared.pop else .done b
  match token with
  | .startTag name attributes selfClosing =>
    match name with
    | "th" | "td" =>
      .done { (cleared.openTag ⟨name, attributes, selfClosing⟩).pushMarker with mode := .inCell }
    | "caption" | "col" | "colgroup" | "tbody" | "tfoot" | "thead" | "tr" => leave
    | _ => b.inTable token
  | .endTag name =>
    match name with
    | "tr" => .done (if isOpen then { cleared.pop with mode := .inTableBody } else b)
    | "table" => leave
    | "tbody" | "tfoot" | "thead" => if b.inScope .table [name] then leave else .done b
    | "body" | "caption" | "col" | "colgroup" | "html" | "td" | "th" => .done b
    | _ => b.inTable token
  | _ => b.inTable token

/-- Closes the cell that is open, whatever else is open in it. -/
def closeCell (b : Builder) : Builder :=
  ((b.closeImplied impliedEnds).popUntil ["td", "th"]).clearToMarker

def inCell (b : Builder) (token : Token) : Outcome :=
  match token with
  | .startTag name _ _ =>
    if tableParts.contains name then
      if b.inScope .table ["td", "th"] then .under .inRow b.closeCell else .done b
    else b.inBody token
  | .endTag name =>
    match name with
    | "td" | "th" =>
      .done (if b.inScope .table [name] then
          { ((b.closeImplied impliedEnds).popUntil [name]).clearToMarker with mode := .inRow }
        else b)
    | "body" | "caption" | "col" | "colgroup" | "html" => .done b
    | "table" | "tbody" | "tfoot" | "thead" | "tr" =>
      if b.inScope .table [name] then .under .inRow b.closeCell else .done b
    | _ => b.inBody token
  | _ => b.inBody token

end HtmlMarkdown.Html.Builder
