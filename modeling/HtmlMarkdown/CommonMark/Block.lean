import HtmlMarkdown.CommonMark.Inline
import HtmlMarkdown.Text.Split

/-!
The blocks of a Markdown text. Block quotes and list items hold blocks of their own, read from
their lines without the markers. A line that continues a paragraph may lack the markers of what
the paragraph stands in.
-/
namespace HtmlMarkdown.CommonMark

abbrev Line := List Char

inductive Block where
  | paragraph (source : List Char)
  | heading (level : Nat) (source : List Char)
  /-- Code, which may lack the fence at its end. -/
  | code (info : List Char) (lines : List Line) (isOpen : Bool)
  | html (lines : List Line)
  | quote (contents : List Block)
  /-- A list, numbered from `start` if it is ordered. -/
  | list (start : Option Nat) (isTight : Bool) (items : List (List Block))
  | rule
  | definition (d : Definition)

def isBlankLine (line : Line) : Bool := line.all fun c => c == ' ' || c == '\t'

/-- Writes the tabs at the beginning of a line as spaces, where the line starts at a column. -/
def expandTabs (column : Nat) : Line → Line
  | ' ' :: rest => ' ' :: expandTabs (column + 1) rest
  | '\t' :: rest =>
    let width := 4 - column % 4
    List.replicate width ' ' ++ expandTabs (column + width) rest
  | line => line

def indentOf (line : Line) : Nat := (line.takeWhile (· == ' ')).length

def unindented (line : Line) : Line := line.dropWhile (· == ' ')

/-- Takes at most `n` spaces off the beginning of a line. -/
def unindent (n : Nat) (line : Line) : Line := line.drop (min n (indentOf line))

def isIndented (line : Line) : Bool := 4 ≤ indentOf line && !isBlankLine line

/-- Takes the blanks off the end of a line. -/
def trimLine (line : Line) : Line := Text.dropEndWhile (fun c => c == ' ' || c == '\t') line

/-! Blocks of one line. -/

/-- A line of three or more equal marks. -/
def isRule (line : Line) : Bool :=
  let marks := line.filter fun c => c != ' ' && c != '\t'
  !isIndented line && 3 ≤ marks.length
    && (["*", "-", "_"].any fun m => marks.all (m.toList.contains ·))

/-- The level and the source of a heading that begins with number signs. A run of number signs at
its end belongs to it. -/
def heading? (line : Line) : Option (Nat × List Char) :=
  let body := unindented line
  let marks := body.takeWhile (· == '#')
  let rest := body.dropWhile (· == '#')
  let isBreak := fun c => c == ' ' || c == '\t'
  if isIndented line || marks.isEmpty || 6 < marks.length || !(rest.head?.all isBreak) then none
  else
    let source := trimLine (rest.dropWhile isBreak)
    let unmarked := Text.dropEndWhile (· == '#') source
    let source :=
      if unmarked.isEmpty || unmarked.getLast?.any isBreak then trimLine unmarked else source
    some (marks.length, source)

/-- The level of the heading that an underline makes of the paragraph above it. -/
def underline? (line : Line) : Option Nat :=
  let body := trimLine (unindented line)
  if isIndented line || body.isEmpty then none
  else if body.all (· == '=') then some 1
  else if body.all (· == '-') then some 2
  else none

/-- The opening of fenced code: its indentation, its mark, the length of the fence, and what stands
behind it. -/
def fence? (line : Line) : Option (Nat × Char × Nat × List Char) :=
  match unindented line with
  | mark :: _ =>
    let body := unindented line
    let length := (body.takeWhile (· == mark)).length
    let info := Text.trim (body.drop length)
    if !isIndented line && (mark == '\x60' || mark == '~') && 3 ≤ length
      && !(mark == '\x60' && info.contains '\x60') then
      some (indentOf line, mark, length, info)
    else none
  | [] => none

def closesFence (mark : Char) (length : Nat) (line : Line) : Bool :=
  let body := trimLine (unindented line)
  !isIndented line && length ≤ body.length && body.all (· == mark)

/-- What stands behind the marker of a block quote. -/
def quoted? (line : Line) : Option Line :=
  if isIndented line then none
  else match unindented line with
    | '>' :: ' ' :: rest => some (expandTabs 0 rest)
    | '>' :: rest => some (unindent 1 (expandTabs (indentOf line + 1) rest))
    | _ => none

/-- The kind of a list: the mark of its bullets, or the mark behind its numbers. -/
inductive ListMark where
  | bullet (mark : Char)
  | number (mark : Char)
deriving DecidableEq

/-- The first line of a list item. -/
structure ItemStart where
  mark : ListMark
  number : Nat
  /-- The column at which the contents begin. -/
  offset : Nat
  rest : Line

/-- The start of an item behind a marker that ends at a column. -/
def itemBehind (mark : ListMark) (number column : Nat) (rest : Line) : Option ItemStart :=
  let rest := expandTabs column rest
  let gap := indentOf rest
  if isBlankLine rest then some ⟨mark, number, column + 1, []⟩
  else if gap == 0 then none
  else if 5 ≤ gap then some ⟨mark, number, column + 1, rest.drop 1⟩
  else some ⟨mark, number, column + gap, rest.drop gap⟩

def itemStart? (line : Line) : Option ItemStart :=
  let body := unindented line
  let digits := body.takeWhile Char.isDigit
  if isIndented line || isRule line then none
  else match body with
    | c :: rest =>
      if c == '-' || c == '+' || c == '*' then
        itemBehind (.bullet c) 1 (indentOf line + 1) rest
      else if digits.isEmpty || 9 < digits.length then none
      else match body.drop digits.length with
        | m :: rest =>
          if m == '.' || m == ')' then
            itemBehind (.number m) (Html.numberOf 10 Html.decimalDigit? digits)
              (indentOf line + digits.length + 1) rest
          else none
        | [] => none
    | [] => none

/-! HTML. -/

/-- Elements whose tags begin a block of HTML that ends at a blank line. -/
def htmlBlockTags : List String :=
  ["address", "article", "aside", "base", "basefont", "blockquote", "body", "caption", "center",
    "col", "colgroup", "dd", "details", "dialog", "dir", "div", "dl", "dt", "fieldset",
    "figcaption", "figure", "footer", "form", "frame", "frameset", "h1", "h2", "h3", "h4", "h5",
    "h6", "head", "header", "hr", "html", "iframe", "legend", "li", "link", "main", "menu",
    "menuitem", "nav", "noframes", "ol", "optgroup", "option", "p", "param", "search",
    "section", "summary", "table", "tbody", "td", "tfoot", "th", "thead", "title", "tr",
    "track", "ul"]

/-- How a block of HTML ends: with a line that holds a text, or in front of a blank line. -/
inductive HtmlEnd where
  | holding (endings : List String)
  | blankLine

def beginsTag (tags : List String) (s : List Char) : Bool :=
  let name := (s.takeWhile fun c => c.isAlphanum).map Char.toLower
  tags.contains (String.ofList name) &&
    match s.drop name.length with
    | [] => true
    | '/' :: '>' :: _ => true
    | c :: _ => c == ' ' || c == '\t' || c == '>'

/-- How the block of HTML that a line begins ends. A single tag cannot begin one in the middle of
a paragraph. -/
def htmlStart? (inParagraph : Bool) (line : Line) : Option HtmlEnd :=
  if isIndented line then none
  else match unindented line with
    | '<' :: rest =>
      let begins := fun (s : String) => s.toList.isPrefixOf rest
      let behindSlash := if begins "/" then rest.drop 1 else rest
      if beginsTag ["script", "pre", "style", "textarea"] rest then
        some (.holding ["</script>", "</pre>", "</style>", "</textarea>"])
      else if begins "!--" then some (.holding ["-->"])
      else if begins "?" then some (.holding ["?>"])
      else if begins "![CDATA[" then some (.holding ["]]>"])
      else if begins "!" && (rest.drop 1).head?.any Char.isAlpha then some (.holding [">"])
      else if beginsTag htmlBlockTags behindSlash then some .blankLine
      else if inParagraph || begins "!" || begins "?" then none
      else match skipHtml? rest with
        | some after => if isBlankLine after then some .blankLine else none
        | none => none
    | _ => none

def holdsAny (endings : List String) (line : Line) : Bool :=
  endings.any fun e => Text.occursIn e.toList (line.map Char.toLower)

/-- The lines of a block of HTML and those after it. -/
def readHtml : HtmlEnd → List Line → List Line × List Line
  | _, [] => ([], [])
  | .holding endings, line :: rest =>
    if holdsAny endings line then ([line], rest)
    else
      let (more, rest) := readHtml (.holding endings) rest
      (line :: more, rest)
  | .blankLine, line :: rest =>
    if isBlankLine line then ([], line :: rest)
    else
      let (more, rest) := readHtml .blankLine rest
      (line :: more, rest)

/-! Code. -/

/-- The lines of fenced code, whether the fence at its end is missing, and the lines after it. Code
may take as much indentation as its fence. -/
def readFenced (indent : Nat) (mark : Char) (length : Nat) :
    List Line → List Line × Bool × List Line
  | [] => ([], true, [])
  | line :: rest =>
    if closesFence mark length line then ([], false, rest)
    else
      let (more, isOpen, rest) := readFenced indent mark length rest
      (unindent indent line :: more, isOpen, rest)

/-- The lines of indented code, blank lines at its end included, and those after it. -/
def readIndented : List Line → List Line × List Line
  | [] => ([], [])
  | line :: rest =>
    if isBlankLine line || isIndented line then
      let (more, rest) := readIndented rest
      (unindent 4 line :: more, rest)
    else ([], line :: rest)

def dropBlankEnd (lines : List Line) : List Line :=
  (lines.reverse.dropWhile isBlankLine).reverse

/-! Paragraphs. -/

/-- A character that no source holds. It marks a line that continues a paragraph without the markers
of the containers around it. -/
def lazyMark : Char := '\x00'

/-- True if a line begins something else in the middle of a paragraph. -/
def interrupts (line : Line) : Bool :=
  isBlankLine line || isRule line || (heading? line).isSome || (fence? line).isSome
    || (quoted? line).isSome || (htmlStart? true line).isSome
    || match itemStart? line with
      | some item =>
        !isBlankLine item.rest && (item.number == 1 || item.mark matches .bullet _)
      | none => false

/-- The further lines of a paragraph, the level of the heading if an underline ends it, and the
lines after it. -/
def readParagraph : List Line → List Line × Option Nat × List Line
  | [] => ([], none, [])
  | line :: rest =>
    match underline? line with
    | some level => ([], some level, rest)
    | none =>
      if interrupts line then ([], none, line :: rest)
      else
        let (more, level, rest) := readParagraph rest
        (line :: more, level, rest)

/-- The definition at the beginning of a paragraph, and the rest of the paragraph. -/
def readDefinition? (s : List Char) : Option (Definition × List Char) :=
  match readLabel? s with
  | some (label, ':' :: afterColon) =>
    let label := normalizeLabel label
    match readTarget? (skipBlank afterColon) with
    | none => none
    | some (target, afterTarget) =>
      let isEmpty := target.isEmpty && (skipBlank afterColon).head? != some '<'
      let lineRest := afterTarget.dropWhile fun c => c == ' ' || c == '\t'
      let ends := fun (s : List Char) => s.isEmpty || s.head? == some '\n'
      let title? :=
        if (skipBlank afterTarget).length == afterTarget.length then none
        else match readTitle? (skipBlank afterTarget) with
          | some (title, after) =>
            let after := after.dropWhile fun c => c == ' ' || c == '\t'
            if ends after then some (title, after) else none
          | none => none
      if label.isEmpty || isEmpty then none
      else match title? with
        | some (title, after) =>
          some (⟨label, decode target, some (decode title)⟩, after.drop 1)
        | none =>
          if ends lineRest then some (⟨label, decode target, none⟩, lineRest.drop 1) else none
  | _ => none

/-- The definitions at the beginning of a paragraph, at most `bound`, and the rest of it. -/
def readDefinitions : (bound : Nat) → List Char → List Definition × List Char
  | 0, s => ([], s)
  | bound + 1, s =>
    match readDefinition? s with
    | some (d, rest) =>
      let (more, rest) := readDefinitions bound rest
      (d :: more, rest)
    | none => ([], s)

/-- The definitions at the beginning of a paragraph with the given lines, and what is left of its
source. -/
def paragraphParts (lines : List Line) : List Definition × List Char :=
  let source := ['\n'].intercalate (lines.map fun line =>
    line.dropWhile fun c => Text.isBlank c || c == lazyMark)
  let (definitions, rest) := readDefinitions source.length source
  (definitions, Text.trimEnd rest)

/-! Containers. -/

/-- True if the last of the blocks ends in a paragraph. -/
def endsInParagraph : (depth : Nat) → List Block → Bool
  | 0, _ => false
  | depth + 1, blocks =>
    match blocks.getLast? with
    | some (.paragraph _) => true
    | some (.quote contents) => endsInParagraph depth contents
    | some (.list _ _ items) => endsInParagraph depth (items.getLast?.getD [])
    | _ => false

/-- True if a line without the markers of the containers around it continues a paragraph in them,
whose lines so far are given, the latest first. A line that does so in an outer container does so
in all of them. -/
def isLazy (continues : List Line → Bool) (read : List Line) (line : Line) : Bool :=
  line.head? == some lazyMark
    || !interrupts line && (itemStart? line).isNone && read.head?.any (!isBlankLine ·)
      && continues read.reverse

/-- Such a line as it is read in the containers. The mark in front of it keeps it from being anything
but text. -/
def lazyLine (line : Line) : Line := lazyMark :: unindented line

/-- The lines of a block quote behind its markers, and those after it. A line without a marker
belongs to it if it continues a paragraph. `read` are the lines so far, the latest first. -/
def readQuote (continues : List Line → Bool) (read : List Line) : List Line →
    List Line × List Line
  | [] => (read.reverse, [])
  | line :: rest =>
    match quoted? line with
    | some inner => readQuote continues (inner :: read) rest
    | none =>
      if isLazy continues read line then
        readQuote continues (lazyLine line :: read) rest
      else (read.reverse, line :: rest)

/-- The further lines of a list item, and those after it. -/
def readItem (continues : List Line → Bool) (offset : Nat) (read : List Line) : List Line →
    List Line × List Line
  | [] => (read.reverse, [])
  | line :: rest =>
    if isBlankLine line then
      if read.all isBlankLine && !read.isEmpty then (read.reverse, line :: rest)
      else readItem continues offset ([] :: read) rest
    else if offset ≤ indentOf line then
      readItem continues offset (line.drop offset :: read) rest
    else if isLazy continues read line then
      readItem continues offset (lazyLine line :: read) rest
    else (read.reverse, line :: rest)

/-- Reads the blocks of lines, each with whether a blank line stands before it. -/
def readBlocks : (fuel : Nat) → (afterBlank : Bool) → List Line → List (Bool × Block)
  | 0, _, _ => []
  | _, _, [] => []
  | fuel + 1, afterBlank, line :: rest =>
    let inner := fun (lines : List Line) => readBlocks fuel false lines
    let blocksOf := fun (lines : List Line) => (inner lines).map Prod.snd
    let continues := fun (lines : List Line) => endsInParagraph fuel (blocksOf lines)
    if isBlankLine line then readBlocks fuel true rest
    else if isIndented line then
      let (code, after) := readIndented (line :: rest)
      let lines := dropBlankEnd code
      (afterBlank, .code [] lines false) ::
        readBlocks fuel (lines.length < code.length) after
    else if let some (indent, mark, length, info) := fence? line then
      let (code, isOpen, after) := readFenced indent mark length rest
      (afterBlank, .code info code isOpen) :: readBlocks fuel false after
    else if let some (level, source) := heading? line then
      (afterBlank, .heading level source) :: readBlocks fuel false rest
    else if isRule line then (afterBlank, .rule) :: readBlocks fuel false rest
    else if (quoted? line).isSome then
      let (lines, after) := readQuote continues [] (line :: rest)
      (afterBlank, .quote (blocksOf lines)) :: readBlocks fuel false after
    else if let some start := itemStart? line then
      let (items, gaps, after) := readItems fuel continues start rest fuel
      let read := items.map inner
      let isTight := !gaps && read.all fun blocks => (blocks.drop 1).all (!·.1)
      let number := match start.mark with
        | .bullet _ => none
        | .number _ => some start.number
      (afterBlank, .list number isTight (read.map (·.map Prod.snd))) ::
        readBlocks fuel (after.head?.any isBlankLine) after
    else if let some ending := htmlStart? false line then
      let (lines, after) := readHtml ending (line :: rest)
      (afterBlank, .html lines) :: readBlocks fuel false after
    else
      let (more, level, after) := readParagraph rest
      let (definitions, source) := paragraphParts (line :: more)
      let (shown, after) :=
        -- An underline below nothing but definitions begins a block of its own.
        if source.isEmpty then ([], rest.drop more.length)
        else match level with
          | some level => ([.heading level source], after)
          | none => ([.paragraph source], after)
      ((definitions.map Block.definition ++ shown).map fun block => (afterBlank, block))
        ++ readBlocks fuel false after
where
  /-- The lines of the items of a list, whether blank lines stand between items, and the lines
  after the list. Blank lines behind the last item do not belong to it. -/
  readItems (fuel : Nat) (continues : List Line → Bool) (start : ItemStart) (rest : List Line) :
      (bound : Nat) → List (List Line) × Bool × List Line
    | 0 => ([], false, rest)
    | bound + 1 =>
      let (lines, after) := readItem continues start.offset [start.rest] rest
      let item := dropBlankEnd lines
      let behind := List.replicate (lines.length - max 1 item.length) [] ++ after
      let ended := ([item], false, behind)
      match behind.dropWhile isBlankLine with
      | [] => ended
      | line :: afterLine =>
        match itemStart? line with
        | some next =>
          if next.mark = start.mark then
            let (items, gaps, after) := readItems fuel continues next afterLine bound
            (item :: items, gaps || behind.head?.any isBlankLine, after)
          else ended
        | none => ended

/-- The lines of a text. A line end at its end begins no line. -/
def linesOf (source : List Char) : List Line :=
  let lines := Text.lines source
  if lines.getLast? == some [] then lines.dropLast else lines

/-- The blocks of a text. -/
def blocks (source : List Char) : List Block :=
  let lines := (linesOf source).map (expandTabs 0)
  (readBlocks (2 * source.length + 2) false lines).map Prod.snd

end HtmlMarkdown.CommonMark
