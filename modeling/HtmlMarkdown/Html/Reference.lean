import HtmlMarkdown.Html.ReferenceTable

/-!
Character references: `&` with a name or a number. The longest name that begins the text counts.
What is no reference is text like any other.
-/
namespace HtmlMarkdown.Html

/-- A name that stands for one or two characters. -/
structure NamedReference where
  /-- The name; a semicolon at its end belongs to it. -/
  name : List Char
  characters : List Char
deriving DecidableEq

def hexDigit? (c : Char) : Option Nat :=
  if '0' ≤ c ∧ c ≤ '9' then some (c.toNat - 48)
  else if 'a' ≤ c ∧ c ≤ 'f' then some (c.toNat - 87)
  else if 'A' ≤ c ∧ c ≤ 'F' then some (c.toNat - 55)
  else none

def decimalDigit? (c : Char) : Option Nat :=
  if '0' ≤ c ∧ c ≤ '9' then some (c.toNat - 48) else none

/-- The number that digits of the given base spell. -/
def numberOf (base : Nat) (digit? : Char → Option Nat) (digits : List Char) : Nat :=
  digits.foldl (fun n c => base * n + (digit? c).getD 0) 0

/-- The references of one entry of the table: its name with a semicolon, and perhaps without. -/
def NamedReference.ofEntry (entry : String) : List NamedReference :=
  match entry.splitOn "=" with
  | [name, codes] =>
    let characters := (codes.splitOn "+").map fun code =>
      Char.ofNat (numberOf 16 hexDigit? code.toList)
    let plain := name.toList.filter (· != '*')
    ⟨plain ++ [';'], characters⟩ ::
      if name.toList.contains '*' then [⟨plain, characters⟩] else []
  | _ => []

/-- All named references. -/
def namedReferences : List NamedReference :=
  ((referenceTable.splitOn "\n").flatMap fun line => line.splitOn " ").flatMap
    NamedReference.ofEntry

/-- The reference with the longest name that begins the text. -/
def longestReference? (s : List Char) : Option NamedReference :=
  namedReferences.foldl (fun best r =>
    if r.name.isPrefixOf s && (best.map fun b => b.name.length).getD 0 < r.name.length then some r
    else best) none

def isAlphanumeric (c : Char) : Bool := c.isAlphanum

/-- Reads a name behind `&`. In an attribute's value a name without its semicolon is no reference
if an equals sign, a letter or a digit follows. -/
def readNamed (inValue : Bool) (s : List Char) : Option (List Char × List Char) :=
  match longestReference? s with
  | none => none
  | some r =>
    let rest := s.drop r.name.length
    let continues := match rest with
      | c :: _ => c == '=' || isAlphanumeric c
      | [] => false
    if inValue && r.name.getLast? != some ';' && continues then none
    else some (r.characters, rest)

/-- What the numbers from 0x80 to 0x9F stand for: they are read as Western text (code page 1252),
which leaves five of them alone. -/
def controlReplacements : List (Nat × Nat) :=
  [(0x80, 0x20AC), (0x82, 0x201A), (0x83, 0x0192), (0x84, 0x201E), (0x85, 0x2026),
    (0x86, 0x2020), (0x87, 0x2021), (0x88, 0x02C6), (0x89, 0x2030), (0x8A, 0x0160),
    (0x8B, 0x2039), (0x8C, 0x0152), (0x8E, 0x017D), (0x91, 0x2018), (0x92, 0x2019),
    (0x93, 0x201C), (0x94, 0x201D), (0x95, 0x2022), (0x96, 0x2013), (0x97, 0x2014),
    (0x98, 0x02DC), (0x99, 0x2122), (0x9A, 0x0161), (0x9B, 0x203A), (0x9C, 0x0153),
    (0x9E, 0x017E), (0x9F, 0x0178)]

/-- The character of a number; the replacement character where there is none. -/
def characterOfNumber (n : Nat) : Char :=
  if n = 0 ∨ 0x10FFFF < n ∨ (0xD800 ≤ n ∧ n ≤ 0xDFFF) then '\uFFFD'
  else match controlReplacements.find? fun pair => pair.1 == n with
    | some (_, code) => Char.ofNat code
    | none => Char.ofNat n

/-- Reads digits and perhaps a semicolon. -/
def readDigits (base : Nat) (digit? : Char → Option Nat) (s : List Char) :
    Option (List Char × List Char) :=
  let digits := s.takeWhile fun c => (digit? c).isSome
  let rest := s.dropWhile fun c => (digit? c).isSome
  if digits.isEmpty then none
  else
    let rest := match rest with
      | ';' :: after => after
      | _ => rest
    some ([characterOfNumber (numberOf base digit? digits)], rest)

/-- Reads a reference behind its `&`: the characters that it stands for, and the text after it. -/
def readReference (inValue : Bool) : List Char → Option (List Char × List Char)
  | '#' :: 'x' :: rest | '#' :: 'X' :: rest => readDigits 16 hexDigit? rest
  | '#' :: rest => readDigits 10 decimalDigit? rest
  | s => readNamed inValue s

/-- An attribute's value with its references replaced by what they stand for. -/
def decodeValue (s : List Char) : List Char :=
  match s with
  | [] => []
  | '&' :: rest =>
    match readReference true rest with
    | some (characters, after) =>
      if after.length < rest.length + 1 then characters ++ decodeValue after else characters
    | none => '&' :: decodeValue rest
  | c :: rest => c :: decodeValue rest
termination_by s.length

end HtmlMarkdown.Html
