import HtmlMarkdown.CommonMark.Block
import HtmlMarkdown.Html.Token

/-!
Writing a Markdown text as HTML. HTML in the text is shown as text, and a target with a protocol
that may not be safe is left out.
-/
namespace HtmlMarkdown.CommonMark

def escapeChar (c : Char) : List Char :=
  if c = '&' then "&amp;".toList
  else if c = '"' then "&quot;".toList
  else if c = '<' then "&lt;".toList
  else if c = '>' then "&gt;".toList
  else [c]

def escape (s : List Char) : List Char := s.flatMap escapeChar

/-! Targets. -/

/-- A character that stands for itself in a target. -/
def isTargetChar (c : Char) : Bool :=
  c.isAlphanum || "!#$&'()*+,-./:;=?@_~".toList.contains c

def upperHex (n : Nat) : List Char := (Nat.toDigits 16 n).map Char.toUpper

/-- The bytes of a character, each written as a percent sign and two digits. -/
def percentEncoded (c : Char) : List Char :=
  c.toString.toUTF8.toList.flatMap fun byte =>
    let digits := upperHex byte.toNat
    '%' :: (if digits.length < 2 then '0' :: digits else digits)

/-- A target in which everything that may not stand in one is percent-encoded. -/
def encodeTarget : List Char → List Char
  | [] => []
  | '%' :: a :: b :: rest =>
    if a.isAlphanum && b.isAlphanum then '%' :: a :: b :: encodeTarget rest
    else percentEncoded '%' ++ encodeTarget (a :: b :: rest)
  | c :: rest => (if isTargetChar c then [c] else percentEncoded c) ++ encodeTarget rest

/-- The target if it is relative or of one of the given protocols, and nothing otherwise. -/
def safeTarget (protocols : List String) (target : List Char) : List Char :=
  let encoded := escape (encodeTarget target)
  let beforeColon := encoded.takeWhile (· != ':')
  let isRelative := beforeColon.length == encoded.length
    || beforeColon.any fun c => c == '?' || c == '#' || c == '/'
  if isRelative || protocols.contains (String.ofList (beforeColon.map Char.toLower)) then encoded
  else []

def linkProtocols : List String := ["http", "https", "irc", "ircs", "mailto", "xmpp"]

def imageProtocols : List String := ["http", "https"]

/-! Inline contents. -/

def titleAttribute : Option (List Char) → List Char
  | none => []
  | some title => " title=\"".toList ++ escape title ++ ['"']

def tagged (tag : String) (contents : List Char) : List Char :=
  ['<'] ++ tag.toList ++ ['>'] ++ contents ++ ['<', '/'] ++ tag.toList ++ ['>']

mutual

/-- The text alone, for a place where there can be no markup. -/
def plainText : Inline → List Char
  | .text s | .code s => s
  | .softBreak | .hardBreak => ['\n']
  | .emphasis xs | .strong xs | .link _ _ xs | .image _ _ xs => plainTexts xs

def plainTexts : List Inline → List Char
  | [] => []
  | x :: rest => plainText x ++ plainTexts rest

end

mutual

def inlineHtml : Inline → List Char
  | .text s => escape s
  | .softBreak => ['\n']
  | .hardBreak => "<br />\n".toList
  | .code s => tagged "code" (escape s)
  | .emphasis xs => tagged "em" (inlinesHtml xs)
  | .strong xs => tagged "strong" (inlinesHtml xs)
  | .link target title xs =>
    "<a href=\"".toList ++ safeTarget linkProtocols target ++ ['"'] ++ titleAttribute title
      ++ ['>'] ++ inlinesHtml xs ++ "</a>".toList
  | .image target title xs =>
    "<img src=\"".toList ++ safeTarget imageProtocols target ++ "\" alt=\"".toList
      ++ escape (plainTexts xs) ++ ['"'] ++ titleAttribute title ++ " />".toList

def inlinesHtml : List Inline → List Char
  | [] => []
  | x :: rest => inlineHtml x ++ inlinesHtml rest

end

/-! Blocks. -/

/-- The class of a code block, from the first word of what stands behind its fence. -/
def languageAttribute (info : List Char) : List Char :=
  match (decode info).takeWhile (!Text.isBlank ·) with
  | [] => []
  | language => " class=\"language-".toList ++ escape language ++ ['"']

def Block.isDefinition : Block → Bool
  | .definition _ => true
  | _ => false

/-- True if a line end follows the block whatever the source ends with. -/
def Block.endsLine : Block → Bool
  | .definition _ => true
  | .code _ _ isOpen => isOpen
  | _ => false

/-- A paragraph that is written without tags of its own. -/
def isBare (tight : Bool) : Block → Bool
  | .paragraph _ => tight
  | _ => false

mutual

/-- All definitions among blocks and in them. -/
def definitionsOf : Block → List Definition
  | .definition d => [d]
  | .quote contents => definitionsOfAll contents
  | .list _ _ items => definitionsOfItems items
  | _ => []

def definitionsOfAll : List Block → List Definition
  | [] => []
  | b :: rest => definitionsOf b ++ definitionsOfAll rest

def definitionsOfItems : List (List Block) → List Definition
  | [] => []
  | item :: rest => definitionsOfAll item ++ definitionsOfItems rest

end

mutual

def blockHtml (definitions : List Definition) (tight : Bool) : Block → List Char
  | .paragraph source =>
    let contents := inlinesHtml (inlines definitions source)
    if tight then contents else tagged "p" contents
  | .heading level source =>
    tagged ("h" ++ toString level) (inlinesHtml (inlines definitions source))
  | .code info lines _ =>
    "<pre><code".toList ++ languageAttribute info ++ ['>']
      ++ lines.flatMap (fun line => escape line ++ ['\n']) ++ "</code></pre>".toList
  | .html lines => escape (['\n'].intercalate lines)
  | .rule => "<hr />".toList
  | .definition _ => []
  | .quote contents =>
    "<blockquote>\n".toList ++ blocksHtml definitions false true contents
      ++ "</blockquote>".toList
  | .list start isTight items =>
    let opening := match start with
      | none => "<ul>\n".toList
      | some 1 => "<ol>\n".toList
      | some n => "<ol start=\"".toList ++ (toString n).toList ++ "\">\n".toList
    let close := if start.isSome then "</ol>".toList else "</ul>".toList
    opening ++ itemsHtml definitions isTight items ++ close

/-- The blocks in order. A block stands on lines of its own, for which a line end is added before
the first, where none has been written, and behind each; a bare paragraph needs none. -/
def blocksHtml (definitions : List Definition) (tight : Bool) (onFreshLine : Bool) :
    List Block → List Char
  | [] => []
  | .definition _ :: rest => blocksHtml definitions tight onFreshLine rest
  | b :: rest =>
    let bare := isBare tight b
    let before := if bare || onFreshLine then [] else ['\n']
    let after := if bare && rest.all Block.isDefinition then [] else ['\n']
    before ++ blockHtml definitions tight b ++ after ++ blocksHtml definitions tight true rest

def itemsHtml (definitions : List Definition) (tight : Bool) : List (List Block) → List Char
  | [] => []
  | item :: rest =>
    tagged "li" (blocksHtml definitions tight false item) ++ ['\n']
      ++ itemsHtml definitions tight rest

end

/-- True if a line end stands behind the last line that is not blank. -/
def endsLine (source : List Char) : Bool :=
  (source.reverse.takeWhile fun c => c == ' ' || c == '\t' || c == '\n').contains '\n'

/-- The HTML of a Markdown text. It ends with a line end if the text does, or if its last block asks
for one. -/
def toHtml (source : String) : String :=
  let source := (Html.normalizeNewlines source.toList).map Html.withoutNul
  let read := blocks source
  let html := blocksHtml (definitionsOfAll read) false true read
  let ends := endsLine source || read.getLast?.any Block.endsLine
  String.ofList (if ends then html else html.dropLast)

end HtmlMarkdown.CommonMark
