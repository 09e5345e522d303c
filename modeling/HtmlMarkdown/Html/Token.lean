import HtmlMarkdown.Html.Reference
import HtmlMarkdown.Html.Doctype

/-!
Tokens of HTML source. A tag, a comment or a doctype is a token, and so is every single character
of text. What the next token is depends on the element whose contents are being read: some hold
nothing but text, up to their end tag.

No source is in error: what cannot be read as it was meant is read as something else, and a tag
that the source breaks off in is no token.
-/
namespace HtmlMarkdown.Html

inductive Token where
  | startTag (name : String) (attributes : List (String × String)) (selfClosing : Bool)
  | endTag (name : String)
  | comment (contents : String)
  | doctype (doctype : Doctype)
  | char (c : Char)
  /-- A break in the source where no markup has come of it. -/
  | nothing
  | endOfSource
deriving DecidableEq

/-- How the contents of the current element are read. -/
inductive ContentModel where
  | markup
  /-- Text with character references, up to the end tag of the given name. -/
  | text (name : String)
  /-- Text without references, up to the end tag of the given name. -/
  | rawText (name : String)
  | script
  /-- Text up to the end of the source. -/
  | plainText
deriving DecidableEq

/-- White space between the parts of a tag. -/
def isSpace (c : Char) : Bool := c == '\t' || c == '\n' || c == '\x0c' || c == ' '

/-- A NUL character, which no text may hold, is replaced. -/
def withoutNul (c : Char) : Char := if c = '\x00' then '\uFFFD' else c

def skipSpace (s : List Char) : List Char := s.dropWhile isSpace

/-! Tags. -/

/-- An attribute's value that stands between quotes, with its references decoded, and what follows
the closing quote; nothing if it is not closed. -/
def readQuotedValue (mark : Char) (s : List Char) : Option (String × List Char) :=
  match s.dropWhile (· != mark) with
  | [] => none
  | _ :: rest =>
    let value := (s.takeWhile (· != mark)).map withoutNul
    some (String.ofList (decodeValue value), rest)

/-- The value behind an equals sign. -/
def readValue (s : List Char) : Option (String × List Char) :=
  match skipSpace s with
  | '"' :: rest => readQuotedValue '"' rest
  | '\'' :: rest => readQuotedValue '\'' rest
  | s =>
    let ends := fun c => isSpace c || c == '>'
    let value := (s.takeWhile (!ends ·)).map withoutNul
    some (String.ofList (decodeValue value), s.dropWhile (!ends ·))

/-- The name of an attribute, in lower case. Its first character may be any but a space, a slash
or the end of the tag. -/
def readAttributeName : List Char → String × List Char
  | [] => ("", [])
  | first :: s =>
    let ends := fun c => isSpace c || c == '/' || c == '>' || c == '='
    (String.ofList ((first :: s.takeWhile (!ends ·)).map fun c => withoutNul c.toLower),
      s.dropWhile (!ends ·))

/-- Puts an attribute behind the others unless there is one of its name. -/
def addAttribute (attributes : List (String × String)) (name value : String) :
    List (String × String) :=
  if attributes.any (·.1 == name) then attributes else attributes ++ [(name, value)]

/-- Reads the rest of a tag behind its name: the attributes, whether the tag closes itself, and
what follows it; nothing if the source ends in the tag. -/
def readTagRest (attributes : List (String × String)) (s : List Char) :
    Option (List (String × String) × Bool × List Char) :=
  match _h : skipSpace s with
  | [] => none
  | '>' :: rest => some (attributes, false, rest)
  | '/' :: '>' :: rest => some (attributes, true, rest)
  | '/' :: rest =>
    if _hr : rest.length < s.length then readTagRest attributes rest else none
  | s' =>
    let (name, rest) := readAttributeName s'
    match skipSpace rest with
    | '=' :: afterEquals =>
      match readValue afterEquals with
      | none => none
      | some (value, rest) =>
        if _hr : rest.length < s.length then readTagRest (addAttribute attributes name value) rest
        else none
    | rest =>
      if _hr : rest.length < s.length then readTagRest (addAttribute attributes name "") rest
      else none
termination_by s.length

/-- The name of a tag, in lower case, and what follows it. -/
def readTagName (s : List Char) : String × List Char :=
  let ends := fun c => isSpace c || c == '/' || c == '>'
  (String.ofList ((s.takeWhile (!ends ·)).map fun c => withoutNul c.toLower),
    s.dropWhile (!ends ·))

/-! Comments. -/

/-- How much of its end a comment has shown. -/
inductive CommentProgress where
  | start
  | startDash
  | body
  | endDash
  | ended
  | bang
deriving DecidableEq

/-- A character in the middle of a comment: what it adds, and the progress after it. -/
def commentBody (c : Char) : List Char × CommentProgress :=
  if c = '-' then ([], .endDash) else ([withoutNul c], .body)

/-- Text that turns out to belong to the comment, in front of the next character of it. -/
def continueComment (held : List Char) (c : Char) : List Char × CommentProgress :=
  let (added, progress) := commentBody c
  (held ++ added, progress)

/-- Reads a character of a comment: what it adds and the progress after it, or nothing if the
comment ends here. -/
def commentStep? : CommentProgress → Char → Option (List Char × CommentProgress)
  | .start, '-' => some ([], .startDash)
  | .start, '>' => none
  | .start, c => some (commentBody c)
  | .startDash, '-' => some ([], .ended)
  | .startDash, '>' => none
  | .startDash, c => some (continueComment ['-'] c)
  | .body, c => some (commentBody c)
  | .endDash, '-' => some ([], .ended)
  | .endDash, c => some (continueComment ['-'] c)
  | .ended, '>' => none
  | .ended, '!' => some ([], .bang)
  | .ended, '-' => some (['-'], .ended)
  | .ended, c => some (continueComment ['-', '-'] c)
  | .bang, '-' => some (['-', '-', '!'], .endDash)
  | .bang, '>' => none
  | .bang, c => some (continueComment ['-', '-', '!'] c)

/-- The contents of a comment and what follows it. -/
def readComment (progress : CommentProgress) : List Char → List Char × List Char
  | [] => ([], [])
  | c :: rest =>
    match commentStep? progress c with
    | none => ([], rest)
    | some (added, progress) =>
      let (more, rest) := readComment progress rest
      (added ++ more, rest)

/-- Markup that makes no sense is a comment up to the next `>`. -/
def readBogusComment (s : List Char) : Token × List Char :=
  (.comment (String.ofList ((s.takeWhile (· != '>')).map withoutNul)),
    (s.dropWhile (· != '>')).drop 1)

/-! References. -/

/-- Reads what stands behind `&`. A reference that lacks its semicolon is read all the same, but it
breaks the source. -/
def readAmpersand (s : List Char) : List Token × List Char :=
  match readReference false s with
  | none => ([.char '&'], s)
  | some (characters, rest) =>
    let source := s.take (s.length - rest.length)
    let broken := if source.getLast? == some ';' then [] else [Token.nothing]
    (broken ++ characters.map Token.char, rest)

/-- The tokens of a text that holds references and no markup. -/
def textTokens (s : List Char) : List Token :=
  match s with
  | [] => []
  | '&' :: rest =>
    let (tokens, after) := readAmpersand rest
    if after.length < rest.length + 1 then tokens ++ textTokens after else tokens
  | c :: rest => .char c :: textTokens rest
termination_by s.length
decreasing_by all_goals simp only [List.length_cons]; omega

/-! Markup. -/

/-- True if the text begins with the given letters, whatever their case. -/
def beginsWith (letters : String) (s : List Char) : Bool :=
  letters.toList.isPrefixOf ((s.take letters.length).map Char.toLower)

/-- The text of a section of character data and what follows the section. -/
def readCharacterData : List Char → List Char × List Char
  | [] => ([], [])
  | ']' :: ']' :: '>' :: rest => ([], rest)
  | c :: rest =>
    let (more, rest) := readCharacterData rest
    (c :: more, rest)

/-- Reads markup behind `<!`. Sections of character data are known only outside of the HTML
vocabulary. -/
def readDeclaration (inForeign : Bool) (s : List Char) : List Token × List Char :=
  if beginsWith "--" s then
    let (contents, rest) := readComment .start (s.drop 2)
    ([.comment (String.ofList contents)], rest)
  else if beginsWith "doctype" s then
    let (doctype, rest) := readDoctype (s.drop 7)
    ([.doctype doctype], rest)
  else if inForeign && "[CDATA[".toList.isPrefixOf s then
    let (contents, rest) := readCharacterData (s.drop 7)
    (contents.map Token.char, rest)
  else
    let (token, rest) := readBogusComment s
    ([token], rest)

/-- Reads what stands behind `</`. -/
def readEndTag : List Char → List Token × List Char
  | [] => ([.char '<', .char '/'], [])
  | '>' :: rest => ([.nothing], rest)
  | c :: rest =>
    if c.isAlpha then
      let (name, afterName) := readTagName (c :: rest)
      match readTagRest [] afterName with
      | none => ([], [])
      | some (_, _, rest) => ([.endTag name], rest)
    else
      let (token, rest) := readBogusComment (c :: rest)
      ([token], rest)

/-- Reads what stands behind `<`. -/
def readMarkup (inForeign : Bool) : List Char → List Token × List Char
  | '!' :: rest => readDeclaration inForeign rest
  | '/' :: rest => readEndTag rest
  | '?' :: rest =>
    let (token, rest) := readBogusComment ('?' :: rest)
    ([token], rest)
  | c :: rest =>
    if c.isAlpha then
      let (name, afterName) := readTagName (c :: rest)
      match readTagRest [] afterName with
      | none => ([], [])
      | some (attributes, selfClosing, rest) => ([.startTag name attributes selfClosing], rest)
    else ([.char '<'], c :: rest)
  | [] => ([.char '<'], [])

/-! Text. -/

/-- True if the text begins with the end tag of the given name. -/
def beginsEndTag (name : String) (s : List Char) : Bool :=
  match s with
  | '<' :: '/' :: rest =>
    beginsWith name rest &&
      match rest.drop name.length with
      | c :: _ => isSpace c || c == '/' || c == '>'
      | [] => false
  | _ => false

/-- The text in front of the first end tag of the given name, and what follows it. -/
def splitAtEndTag (name : String) : List Char → List Char × List Char
  | [] => ([], [])
  | c :: rest =>
    if beginsEndTag name (c :: rest) then ([], c :: rest)
    else
      let (more, after) := splitAtEndTag name rest
      (c :: more, after)

/-- Where in a script the reader is: outside of any comment, in a comment, or in a script element
inside a comment. In a comment, the hyphens just read are counted up to two. -/
inductive ScriptProgress where
  | code
  | comment (hyphens : Nat)
  | inner (hyphens : Nat)
deriving DecidableEq

/-- True if the letters at the beginning of the text are `script` and the word ends there. -/
def beginsScriptWord (s : List Char) : Bool :=
  (s.takeWhile Char.isAlpha).map Char.toLower == "script".toList &&
    match s.dropWhile Char.isAlpha with
    | c :: _ => isSpace c || c == '/' || c == '>'
    | [] => false

/-- The progress after a character of a script, which `rest` follows. -/
def scriptStep (progress : ScriptProgress) (c : Char) (rest : List Char) : ScriptProgress :=
  match progress, c with
  | .code, '<' => if "!--".toList.isPrefixOf rest then .comment 0 else .code
  | .code, _ => .code
  | .comment n, '-' => .comment (min 2 (n + 1))
  | .comment 2, '>' => .code
  | .comment _, '<' => if beginsScriptWord rest then .inner 0 else .comment 0
  | .comment _, _ => .comment 0
  | .inner n, '-' => .inner (min 2 (n + 1))
  | .inner 2, '>' => .code
  | .inner _, '<' =>
    match rest with
    | '/' :: word => if beginsScriptWord word then .comment 0 else .inner 0
    | _ => .inner 0
  | .inner _, _ => .inner 0

/-- The text of a script and what follows it. Inside a script element in a comment the end tag does
not end the script. -/
def splitScript (progress : ScriptProgress) : List Char → List Char × List Char
  | [] => ([], [])
  | c :: rest =>
    let isInner := match progress with
      | .inner _ => true
      | _ => false
    if !isInner && beginsEndTag "script" (c :: rest) then ([], c :: rest)
    else
      let (more, after) := splitScript (scriptStep progress c rest) rest
      (c :: more, after)

/-- Reads text and, behind it, the end tag that ends it. -/
def withEndTag (text : List Token) (rest : List Char) : List Token × List Char :=
  match rest with
  | '<' :: '/' :: after =>
    let (endTag, rest) := readEndTag after
    (text ++ endTag, rest)
  | _ => (text, [])

/-- The source without the byte order mark that it may begin with. -/
def dropByteOrderMark : List Char → List Char
  | '\uFEFF' :: rest => rest
  | s => s

/-- Reads the next tokens of a source that has not ended. There may be none, but some of the
source is always read. Reading starts afresh behind a script, where a byte order mark is dropped as
it is at the beginning of the source. -/
def readTokens (model : ContentModel) (inForeign : Bool) (s : List Char) :
    List Token × List Char :=
  match model with
  | .markup =>
    match s with
    | [] => ([], [])
    | '<' :: rest => readMarkup inForeign rest
    | '&' :: rest => readAmpersand rest
    | c :: rest => ([.char c], rest)
  | .text name =>
    let (text, rest) := splitAtEndTag name s
    withEndTag (textTokens (text.map withoutNul)) rest
  | .rawText name =>
    let (text, rest) := splitAtEndTag name s
    withEndTag (text.map fun c => .char (withoutNul c)) rest
  | .script =>
    let (text, rest) := splitScript .code s
    let (tokens, rest) := withEndTag (text.map fun c => .char (withoutNul c)) rest
    (tokens, dropByteOrderMark rest)
  | .plainText => (s.map fun c => .char (withoutNul c), [])

/-- The source with every line end written as a newline. -/
def normalizeNewlines : List Char → List Char
  | [] => []
  | '\r' :: '\n' :: rest => '\n' :: normalizeNewlines rest
  | '\r' :: rest => '\n' :: normalizeNewlines rest
  | c :: rest => c :: normalizeNewlines rest

/-- The source as it is read: without the byte order mark, and with newlines for line ends. -/
def prepareSource (s : List Char) : List Char := normalizeNewlines (dropByteOrderMark s)

end HtmlMarkdown.Html
