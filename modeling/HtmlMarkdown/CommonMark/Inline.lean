import HtmlMarkdown.Html.Reference
import HtmlMarkdown.Text.Blank

/-!
The contents of a paragraph or a heading: text, code, emphasis, links and images. The source is
read from left to right into items; a closing bracket makes a link of the items since its opening
bracket, and runs of asterisks and underscores are matched when all the items are there.
-/
namespace HtmlMarkdown.CommonMark

inductive Inline where
  | text (contents : List Char)
  | softBreak
  | hardBreak
  | code (contents : List Char)
  | emphasis (contents : List Inline)
  | strong (contents : List Inline)
  | link (target : List Char) (title : Option (List Char)) (contents : List Inline)
  | image (target : List Char) (title : Option (List Char)) (contents : List Inline)

/-- Where a label of a reference leads. -/
structure Definition where
  label : List Char
  target : List Char
  title : Option (List Char)

/-- Something read, or an opening whose end has not been seen. -/
inductive Item where
  | inline (contents : Inline)
  /-- A run of asterisks or underscores, and whether emphasis can begin and end there. -/
  | run (mark : Char) (count : Nat) (opens closes : Bool)
  /-- An opening bracket, and the source after it. An inactive one begins no link. -/
  | bracket (isImage isActive : Bool) (after : List Char)

def isPunctuation (c : Char) : Bool :=
  let n := c.toNat
  (0x21 ≤ n && n ≤ 0x2F) || (0x3A ≤ n && n ≤ 0x40) || (0x5B ≤ n && n ≤ 0x60)
    || (0x7B ≤ n && n ≤ 0x7E) || [0xA1, 0xA7, 0xAB, 0xB6, 0xB7, 0xBB, 0xBF].contains n
    || (0x2010 ≤ n && n ≤ 0x2027) || (0x2030 ≤ n && n ≤ 0x205E) || (0x3001 ≤ n && n ≤ 0x3003)

/-- A character that a backslash takes the meaning from. -/
def isEscapable (c : Char) : Bool := c.toNat < 0x80 && isPunctuation c

/-! Text without markup. -/

/-- The character of a number; the replacement character for a control that is no white space. -/
def characterOfNumber (n : Nat) : Char :=
  let isControl := n ≤ 0x08 || n == 0x0B || (0x0E ≤ n && n ≤ 0x1F) || (0x7F ≤ n && n ≤ 0x9F)
  let isCharacter := n ≤ 0x10FFFF && !(0xD800 ≤ n && n ≤ 0xDFFF)
  if isCharacter && !isControl then Char.ofNat n else '\uFFFD'

/-- Reads at most `most` digits and a semicolon. -/
def readNumber? (base most : Nat) (digit? : Char → Option Nat) (s : List Char) :
    Option (List Char × List Char) :=
  let digits := s.takeWhile fun c => (digit? c).isSome
  match s.dropWhile fun c => (digit? c).isSome with
  | ';' :: rest =>
    if digits.isEmpty || most < digits.length then none
    else some ([characterOfNumber (Html.numberOf base digit? digits)], rest)
  | _ => none

/-- Reads a character reference behind its `&`. It must end with a semicolon. -/
def readReference? (s : List Char) : Option (List Char × List Char) :=
  match s with
  | '#' :: 'x' :: rest | '#' :: 'X' :: rest => readNumber? 16 6 Html.hexDigit? rest
  | '#' :: rest => readNumber? 10 7 Html.decimalDigit? rest
  | _ =>
    match Html.longestReference? s with
    | some r =>
      if r.name.getLast? == some ';' then some (r.characters, s.drop r.name.length) else none
    | none => none

/-- A text with its escapes and references decoded. -/
def decode (s : List Char) : List Char :=
  match s with
  | [] => []
  | '\\' :: c :: rest => if isEscapable c then c :: decode rest else '\\' :: decode (c :: rest)
  | '&' :: rest =>
    match readReference? rest with
    | some (characters, after) =>
      if after.length ≤ rest.length then characters ++ decode after else characters
    | none => '&' :: decode rest
  | c :: rest => c :: decode rest
termination_by s.length

/-- A label by which a reference is found: letter case and the amount of white space do not
matter. -/
def normalizeLabel (s : List Char) : List Char :=
  let spaced := (Text.trim s).map fun c => if Text.isBlank c then ' ' else c.toLower
  spaced.foldr (fun c rest => if c == ' ' && rest.head? == some ' ' then rest else c :: rest) []

def findDefinition? (definitions : List Definition) (label : List Char) : Option Definition :=
  let label := normalizeLabel label
  if label.isEmpty then none else definitions.find? fun d => d.label == label

/-! Targets and titles. -/

/-- The part of a text in front of the next mark that no backslash stands before, and what follows
that mark. -/
def readUntil? (mark : Char) : List Char → Option (List Char × List Char)
  | [] => none
  | '\\' :: c :: rest => (readUntil? mark rest).map fun (s, after) => ('\\' :: c :: s, after)
  | c :: rest =>
    if c = mark then some ([], rest)
    else (readUntil? mark rest).map fun (s, after) => (c :: s, after)

/-- A target without angle brackets ends at white space, or at a closing parenthesis that matches
none inside it. -/
def readBareTarget (depth : Nat) : List Char → List Char × List Char
  | [] => ([], [])
  | '\\' :: c :: rest =>
    let (s, after) := readBareTarget depth rest
    ('\\' :: c :: s, after)
  | c :: rest =>
    if c.toNat ≤ 0x20 || c.toNat == 0x7F then ([], c :: rest)
    else if c = ')' && depth == 0 then ([], c :: rest)
    else
      let depth := if c = '(' then depth + 1 else if c = ')' then depth - 1 else depth
      let (s, after) := readBareTarget depth rest
      (c :: s, after)

def readTarget? (s : List Char) : Option (List Char × List Char) :=
  match s with
  | '<' :: rest =>
    match readUntil? '>' rest with
    | some (target, after) =>
      if target.any fun c => c == '\n' || c == '<' then none else some (target, after)
    | none => none
  | _ => some (readBareTarget 0 s)

/-- A title between quotes or parentheses. -/
def readTitle? : List Char → Option (List Char × List Char)
  | '"' :: rest => readUntil? '"' rest
  | '\'' :: rest => readUntil? '\'' rest
  | '(' :: rest => readUntil? ')' rest
  | _ => none

def skipBlank (s : List Char) : List Char := s.dropWhile Text.isBlank

/-- Reads `(target "title")` behind a link's text. -/
def readResource? (s : List Char) : Option (List Char × Option (List Char) × List Char) :=
  match s with
  | '(' :: rest =>
    match readTarget? (skipBlank rest) with
    | none => none
    | some (target, after) =>
      match skipBlank after with
      | ')' :: rest => some (decode target, none, rest)
      | s =>
        if s.length == after.length then none
        else match readTitle? s with
          | none => none
          | some (title, after) =>
            match skipBlank after with
            | ')' :: rest => some (decode target, some (decode title), rest)
            | _ => none
  | _ => none

/-- Reads `[label]`. -/
def readLabel? (s : List Char) : Option (List Char × List Char) :=
  match s with
  | '[' :: rest =>
    match readUntil? ']' rest with
    | some (label, after) => if label.contains '[' then none else some (label, after)
    | none => none
  | _ => none

/-- What a link or an image leads to, read behind its closing bracket, where `shown` is the source
between its brackets. -/
def readReferent? (definitions : List Definition) (shown s : List Char) :
    Option (List Char × Option (List Char) × List Char) :=
  match readResource? s with
  | some resource => some resource
  | none =>
    let referent := fun (label rest : List Char) =>
      (findDefinition? definitions label).map fun d => (d.target, d.title, rest)
    match readLabel? s with
    | some (label, rest) => referent (if (Text.trim label).isEmpty then shown else label) rest
    | none => referent shown s

/-! Angle brackets. -/

/-- The address between angle brackets, with the target that it leads to. -/
def readAutolink? (s : List Char) : Option (List Char × List Char × List Char) :=
  let shown := s.takeWhile fun c => c != '>' && c != '<' && 0x20 < c.toNat
  match s.drop shown.length with
  | '>' :: rest =>
    let scheme := shown.takeWhile (· != ':')
    let isScheme := scheme.length < shown.length && 2 ≤ scheme.length && scheme.length ≤ 32
      && (scheme.head?.any Char.isAlpha)
      && scheme.all fun c => c.isAlphanum || c == '+' || c == '.' || c == '-'
    let user := shown.takeWhile (· != '@')
    let host := shown.drop (user.length + 1)
    let isHost := !host.isEmpty && host.all fun c => c.isAlphanum || c == '.' || c == '-'
    let isUser := !user.isEmpty && user.all fun c =>
      c.isAlphanum || ".!#$%&'*+/=?^_`\x7b|\x7d~-".toList.contains c
    if isScheme then some (shown, shown, rest)
    else if isUser && isHost && host.head? != some '-' then
      some (shown, "mailto:".toList ++ shown, rest)
    else none
  | _ => none

def isTagSpace (c : Char) : Bool := c == ' ' || c == '\t' || c == '\n'

/-- What follows the attributes of a tag and its end. -/
def skipAttributes? (s : List Char) : Option (List Char) :=
  match _h : s.dropWhile isTagSpace with
  | '>' :: rest => some rest
  | '/' :: '>' :: rest => some rest
  | c :: rest =>
    if s.head?.any isTagSpace && (c.isAlpha || c == '_' || c == ':') then
      let afterName := rest.dropWhile fun c =>
        c.isAlphanum || c == '_' || c == ':' || c == '.' || c == '-'
      let after? := match afterName.dropWhile isTagSpace with
        | '=' :: value =>
          match value.dropWhile isTagSpace with
          | '"' :: quoted => ((quoted.dropWhile (· != '"')).tail?)
          | '\'' :: quoted => ((quoted.dropWhile (· != '\'')).tail?)
          | bare =>
            let isBare := fun c => !isTagSpace c && !"\"'=<>`".toList.contains c
            if bare.head?.any isBare then some (bare.dropWhile isBare) else none
        | _ => some afterName
      match after? with
      | some after => if after.length < s.length then skipAttributes? after else none
      | none => none
    else none
  | [] => none
termination_by s.length

/-- What follows the first place where the text has the given end. -/
def skipPast? (ending : List Char) : List Char → Option (List Char)
  | [] => none
  | c :: rest =>
    if ending.isPrefixOf (c :: rest) then some ((c :: rest).drop ending.length)
    else skipPast? ending rest

/-- What follows a piece of HTML that begins behind `<`. -/
def skipHtml? (s : List Char) : Option (List Char) :=
  let isName := fun c : Char => c.isAlphanum || c == '-'
  match s with
  | '!' :: '-' :: '-' :: rest =>
    if ['>'].isPrefixOf rest then some (rest.drop 1)
    else if ['-', '>'].isPrefixOf rest then some (rest.drop 2)
    else skipPast? "-->".toList rest
  | '?' :: rest => skipPast? "?>".toList rest
  | '/' :: c :: rest =>
    if c.isAlpha then
      match (rest.dropWhile isName).dropWhile isTagSpace with
      | '>' :: after => some after
      | _ => none
    else none
  | '!' :: rest =>
    if "[CDATA[".toList.isPrefixOf rest then skipPast? "]]>".toList rest
    else if rest.head?.any Char.isAlpha then skipPast? ['>'] rest
    else none
  | c :: rest => if c.isAlpha then skipAttributes? (rest.dropWhile isName) else none
  | [] => none

/-! Code. -/

/-- The source up to the next run of exactly `n` backquotes, and what follows that run. -/
def readCode? (n : Nat) (s : List Char) : Option (List Char × List Char) :=
  match s with
  | [] => none
  | '\x60' :: rest =>
    let run := rest.takeWhile (· == '\x60')
    let after := rest.dropWhile (· == '\x60')
    if run.length + 1 == n then some ([], after)
    else if after.length < rest.length + 1 then
      (readCode? n after).map fun (code, rest) => ('\x60' :: run ++ code, rest)
    else none
  | c :: rest => (readCode? n rest).map fun (code, rest) => (c :: code, rest)
termination_by s.length
decreasing_by all_goals simp only [List.length_cons]; omega

/-- The code between backquotes: line ends are spaces, and one space on each side goes if there
is one on both and anything between them. -/
def codeOf (s : List Char) : List Char :=
  let s := s.map fun c => if c == '\n' then ' ' else c
  if s.head? == some ' ' && s.getLast? == some ' ' && s.any (· != ' ') then
    (s.drop 1).dropLast
  else s

/-! Emphasis. -/

/-- A run of marks, given the characters on its two sides. White space counts as being at the
ends of the text. -/
def runOf (mark : Char) (count : Nat) (before after : Char) : Item :=
  let left := !Text.isBlank after
    && (!isPunctuation after || Text.isBlank before || isPunctuation before)
  let right := !Text.isBlank before
    && (!isPunctuation before || Text.isBlank after || isPunctuation after)
  if mark == '_' then
    .run mark count (left && (!right || isPunctuation before)) (right && (!left || isPunctuation after))
  else .run mark count left right

/-- What an item is if nothing more comes of it. -/
def Item.plain : Item → Inline
  | .inline contents => contents
  | .run mark count _ _ => .text (List.replicate count mark)
  | .bracket isImage _ _ => .text (if isImage then ['!', '['] else ['['])

/-- The nearest run that can begin the emphasis which a run ends, the items after it, and those
before it. The latest item comes first. -/
def findOpener? (mark : Char) (count : Nat) (opensToo : Bool) :
    List Item → Option (List Item × Nat × Bool × List Item)
  | [] => none
  | item :: before =>
    let further := (findOpener? mark count opensToo before).map fun (inner, n, closes, outer) =>
      (item :: inner, n, closes, outer)
    match item with
    | .run other n true closes =>
      let misfits := (closes || opensToo) && (n + count) % 3 == 0
        && !(n % 3 == 0 && count % 3 == 0)
      if other == mark && !misfits then some ([], n, closes, before) else further
    | _ => further

/-- Matches the runs among items. `done` are the items already looked at, the latest first. -/
def matchRuns : (fuel : Nat) → (done : List Item) → List Item → List Item
  | 0, done, rest => done.reverse ++ rest
  | _, done, [] => done.reverse
  | fuel + 1, done, .run mark count opens true :: rest =>
    match findOpener? mark count opens done with
    | none => matchRuns fuel (.run mark count opens true :: done) rest
    | some (inner, n, closes, outer) =>
      let contents := inner.reverse.map Item.plain
      let used := if 2 ≤ n && 2 ≤ count then 2 else 1
      let made := Item.inline (if used == 2 then .strong contents else .emphasis contents)
      let left := if n == used then [] else [Item.run mark (n - used) true closes]
      let right := if count == used then [] else [Item.run mark (count - used) opens true]
      matchRuns fuel (made :: left ++ outer) (right ++ rest)
  | fuel + 1, done, item :: rest => matchRuns fuel (item :: done) rest

/-- The steps that matching takes at most: one for each item and each mark. -/
def matchingFuel (items : List Item) : Nat :=
  items.foldl (fun fuel item =>
    match item with
    | .run _ count _ _ => fuel + 2 * count + 1
    | _ => fuel + 1) 1

def resolve (items : List Item) : List Inline :=
  (matchRuns (matchingFuel items) [] items).map Item.plain

/-! Reading. -/

/-- The latest opening bracket, the items after it and those before it. The latest item comes
first. -/
def findBracket? : List Item → Option (List Item × Bool × Bool × List Char × List Item)
  | [] => none
  | .bracket isImage isActive after :: before => some ([], isImage, isActive, after, before)
  | item :: before =>
    (findBracket? before).map fun (inner, isImage, isActive, after, outer) =>
      (item :: inner, isImage, isActive, after, outer)

/-- Links hold no links, so brackets around a link begin none. -/
def deactivate (items : List Item) : List Item :=
  items.map fun item =>
    match item with
    | .bracket false _ after => .bracket false false after
    | item => item

/-- Reads what a closing bracket ends. -/
def closeBracket (definitions : List Definition) (items : List Item) (rest : List Char) :
    List Item × List Char :=
  match findBracket? items with
  | none => (.inline (.text [']']) :: items, rest)
  | some (inner, isImage, isActive, after, outer) =>
    let opening := Item.inline (Item.bracket isImage isActive after).plain
    let asText := (.inline (.text [']']) :: inner ++ opening :: outer, rest)
    if !isActive then asText
    else match readReferent? definitions (after.take (after.length - rest.length - 1)) rest with
      | none => asText
      | some (target, title, rest) =>
        let contents := resolve inner.reverse
        if isImage then (.inline (.image target title contents) :: outer, rest)
        else (.inline (.link target title contents) :: deactivate outer, rest)

/-- Takes the spaces at the end of a line off the items, and tells how many there were. -/
def dropSpaces : List Item → Nat × List Item
  | .inline (.text [' ']) :: before =>
    let (n, items) := dropSpaces before
    (n + 1, items)
  | items => (0, items)

/-- Reads what begins with `c`, which stands behind `before`. The answer is the last character read,
the rest of the source and the items, the latest first. -/
def readOne (definitions : List Definition) (before c : Char) (rest : List Char)
    (items : List Item) : Char × List Char × List Item :=
  let plain := fun (shown : List Char) => Item.inline (.text shown)
  let asText := (c, rest, plain [c] :: items)
  match c with
  | '\\' =>
    match rest with
    | '\n' :: after => ('\n', after, .inline .hardBreak :: items)
    | e :: after => if isEscapable e then (e, after, plain [e] :: items) else asText
    | [] => asText
  | '&' =>
    match readReference? rest with
    | some (characters, after) => (';', after, plain characters :: items)
    | none => asText
  | '\x60' =>
    let run := rest.takeWhile (· == '\x60')
    let after := rest.dropWhile (· == '\x60')
    match readCode? (run.length + 1) after with
    | some (code, after) => ('\x60', after, .inline (.code (codeOf code)) :: items)
    | none => ('\x60', after, plain (c :: run) :: items)
  | '<' =>
    match readAutolink? rest with
    | some (shown, target, after) =>
      ('>', after, .inline (.link target none [.text shown]) :: items)
    | none =>
      match skipHtml? rest with
      | some after => ('>', after, plain (c :: rest.take (rest.length - after.length)) :: items)
      | none => asText
  | '!' =>
    match rest with
    | '[' :: after => ('[', after, .bracket true true after :: items)
    | _ => asText
  | '[' => (c, rest, .bracket false true rest :: items)
  | ']' =>
    let (items, after) := closeBracket definitions items rest
    (c, after, items)
  | '\n' =>
    let (spaces, items) := dropSpaces items
    let item := Item.inline (if 2 ≤ spaces then .hardBreak else .softBreak)
    (c, rest.dropWhile (· == ' '), item :: items)
  | _ =>
    if c == '*' || c == '_' then
      let run := rest.takeWhile (· == c)
      let after := rest.dropWhile (· == c)
      (c, after, runOf c (run.length + 1) before (after.headD ' ') :: items)
    else asText

/-- Reads items until the source ends; the latest comes first. Each step reads at least one
character. -/
def readItems (definitions : List Definition) :
    (fuel : Nat) → (before : Char) → List Char → List Item → List Item
  | 0, _, _, items => items
  | _, _, [], items => items
  | fuel + 1, before, c :: rest, items =>
    let (last, after, items) := readOne definitions before c rest items
    readItems definitions fuel last after items

/-- The inline contents that a source stands for. -/
def inlines (definitions : List Definition) (source : List Char) : List Inline :=
  resolve (readItems definitions (source.length + 1) ' ' source []).reverse

end HtmlMarkdown.CommonMark
