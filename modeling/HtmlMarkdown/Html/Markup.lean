import HtmlMarkdown.Html.Node

/-!
Writing HTML. An element is written as its start tag, its contents and its end tag. Void elements
have no end tag, and neither they nor what lies inside them can hold elements, though texts and
comments there are written all the same. The text of scripts, styles and the like is written
as it is; everywhere else the characters that would be read as markup become references.
-/
namespace HtmlMarkdown.Html

/-- Elements without an end tag. -/
def voidTags : List String :=
  ["area", "base", "basefont", "bgsound", "br", "col", "embed", "frame", "hr", "img", "input",
    "keygen", "link", "meta", "param", "source", "track", "wbr"]

/-- Elements whose text holds no character references. -/
def rawTextTags : List String :=
  ["style", "script", "xmp", "iframe", "noembed", "noframes", "plaintext", "noscript"]

/-- A character of text with markup characters replaced by references. -/
def escapeTextChar (c : Char) : List Char :=
  if c = '&' then "&amp;".toList
  else if c = '\u00A0' then "&nbsp;".toList
  else if c = '<' then "&lt;".toList
  else if c = '>' then "&gt;".toList
  else [c]

/-- A character of an attribute's value, which stands between double quotes. -/
def escapeValueChar (c : Char) : List Char :=
  if c = '&' then "&amp;".toList
  else if c = '\u00A0' then "&nbsp;".toList
  else if c = '"' then "&quot;".toList
  else [c]

/-- The name of an attribute with the prefix of its vocabulary. -/
def Attribute.qualifiedName (a : Attribute) : String :=
  match a.space with
  | .plain => a.name
  | .xml => "xml:" ++ a.name
  | .xmlns => if a.name = "xmlns" then a.name else "xmlns:" ++ a.name
  | .xlink => "xlink:" ++ a.name

def Attribute.markup (a : Attribute) : List Char :=
  ' ' :: a.qualifiedName.toList ++ ['=', '"'] ++ a.value.toList.flatMap escapeValueChar ++ ['"']

/-- What the contents of an element need to know of it: whether its text is raw, and whether
elements may stand inside it. -/
structure MarkupContext where
  rawText : Bool := false
  noElements : Bool := false

mutual

/-- The markup of a node. A document inside a document has none. -/
def Node.markup? (context : MarkupContext) : Node → Option (List Char)
  | .text contents =>
    some (if context.rawText then contents.toList else contents.toList.flatMap escapeTextChar)
  | .comment contents => some ("<!--".toList ++ contents.toList ++ "-->".toList)
  | .doctype name => some ("<!DOCTYPE ".toList ++ name.toList ++ ['>'])
  | .instruction target data =>
    some (['<', '?'] ++ target.toList ++ ' ' :: data.toList ++ ['>'])
  | .document _ => none
  | .element space tag attributes children =>
    let isVoid := space == .html && voidTags.contains tag
    let inside : MarkupContext :=
      { rawText := space == .html && rawTextTags.contains tag
        noElements := context.noElements || isVoid }
    (markupOfAll? inside children).map fun contents =>
      if context.noElements then contents
      else
        let start := '<' :: tag.toList ++ attributes.flatMap Attribute.markup ++ ['>']
        let finish := if isVoid then [] else ['<', '/'] ++ tag.toList ++ ['>']
        start ++ contents ++ finish

/-- The markup of nodes one after the other, if each of them has one. -/
def markupOfAll? (context : MarkupContext) : List Node → Option (List Char)
  | [] => some []
  | first :: rest => do
    let start ← first.markup? context
    let more ← markupOfAll? context rest
    return start ++ more

end

def Node.isElement : Node → Bool
  | .element .. => true
  | _ => false

/-- The markup of the first element at the top of a document, itself included; nothing if there
is no element. -/
def outerMarkup? (document : List Node) : Option String :=
  match document.find? Node.isElement with
  | none => some ""
  | some element => (element.markup? {}).map String.ofList

end HtmlMarkdown.Html
