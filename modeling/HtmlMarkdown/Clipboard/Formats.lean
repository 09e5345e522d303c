import HtmlMarkdown.Text.Split
import HtmlMarkdown.Text.Utf8
import HtmlMarkdown.Text.Quoted

/-!
The formats in which clipboard programs hand out HTML: a literal of hexadecimal digits, bytes
that have been taken for Western text and written as UTF-16, and a text with a header that says
where the HTML starts.
-/
namespace HtmlMarkdown.Clipboard

/-- What is wrong with a clipboard program's output. -/
inductive FormatFault where
  | noLiteral
  | noByteOrderMark
  | oddLength
  /-- The unit at the given index stands for no byte. -/
  | unknownUnit (index value : Nat)
  | noHeader
  | startOutOfRange
deriving DecidableEq

/-- The program that the fault is laid to. -/
def FormatFault.program : FormatFault → String
  | noLiteral => "osascript"
  | _ => "Get-Clipboard"

def FormatFault.reason : FormatFault → String
  | noLiteral => "no «data HTML» literal"
  | noByteOrderMark => "no BOM in clipboard output"
  | oddLength => "odd number of bytes"
  | unknownUnit index value =>
    "unknown cp1252 code point at " ++ toString index ++ ": 0x"
      ++ String.ofList (Text.hexDigits value)
  | noHeader => "not CF_HTML output"
  | startOutOfRange => "StartHTML is out of range"

/-! The literal. -/

/-- The value of an upper-case hexadecimal digit. -/
def hexValue? (c : Char) : Option Nat :=
  if '0' ≤ c ∧ c ≤ '9' then some (c.toNat - 48)
  else if 'A' ≤ c ∧ c ≤ 'F' then some (c.toNat - 55)
  else none

/-- The bytes that pairs of hexadecimal digits spell. -/
def hexBytes? : List Char → Option (List UInt8)
  | [] => some []
  | [_] => none
  | high :: low :: rest =>
    match hexValue? high, hexValue? low, hexBytes? rest with
    | some h, some l, some bytes => some ((h * 16 + l).toUInt8 :: bytes)
    | _, _, _ => none

/-- The text between `before` and `after`, if the line is made of the three. -/
def between? (before after line : List Char) : Option (List Char) :=
  if before.isPrefixOf line && after.isSuffixOf (line.drop before.length) then
    some ((line.drop before.length).take (line.length - before.length - after.length))
  else none

/-- The bytes of a line that is a literal of at least one byte. -/
def literalBytes? (line : List Char) : Option (List UInt8) :=
  match (between? "«data HTML".toList ['»'] line).bind hexBytes? with
  | some [] => none
  | bytes => bytes

/-- The HTML of the first line that is a literal. -/
def htmlOfLiteral (output : List Char) : Except FormatFault (List Char) :=
  match (Text.lines output).findSome? literalBytes? with
  | some bytes => .ok (Text.decodeLossy bytes)
  | none => .error .noLiteral

/-! Bytes taken for Western text. -/

/-- The bytes from 0x80 to 0x9F that Western text (code page 1252) gives a code point above
0xFF, each with that code point. -/
def westernBytes : List (Nat × Nat) :=
  [(0x80, 0x20AC), (0x82, 0x201A), (0x83, 0x0192), (0x84, 0x201E), (0x85, 0x2026),
    (0x86, 0x2020), (0x87, 0x2021), (0x88, 0x02C6), (0x89, 0x2030), (0x8A, 0x0160),
    (0x8B, 0x2039), (0x8C, 0x0152), (0x8E, 0x017D), (0x91, 0x2018), (0x92, 0x2019),
    (0x93, 0x201C), (0x94, 0x201D), (0x95, 0x2022), (0x96, 0x2013), (0x97, 0x2014),
    (0x98, 0x02DC), (0x99, 0x2122), (0x9A, 0x0161), (0x9B, 0x203A), (0x9C, 0x0153),
    (0x9E, 0x017E), (0x9F, 0x0178)]

/-- The byte that reads as the given code point. -/
def westernByte? (unit : Nat) : Option UInt8 :=
  if unit ≤ 0xFF then some unit.toUInt8
  else (westernBytes.find? fun pair => pair.2 == unit).map fun pair => pair.1.toUInt8

/-- The bytes that units of two bytes each, low byte first, stand for. The first unit has the
given index. -/
def bytesOfUnits (index : Nat) : List UInt8 → Except FormatFault (List UInt8)
  | [] => .ok []
  | [_] => .error .oddLength
  | low :: high :: rest =>
    let unit := low.toNat + 256 * high.toNat
    match westernByte? unit with
    | none => .error (.unknownUnit index unit)
    | some byte => (bytesOfUnits (index + 1) rest).map (byte :: ·)

/-- The text whose bytes have been read as Western text and written as UTF-16, low byte first,
after a byte order mark. -/
def unscramble : List UInt8 → Except FormatFault (List Char)
  | 0xFF :: 0xFE :: units => (bytesOfUnits 0 units).map Text.decodeLossy
  | _ => .error .noByteOrderMark

/-! The header. -/

def headerStart : List Char := "Version:0.9\r\nStartHTML:".toList

/-- The rest of a text after its first `n` bytes, if they end with a character. -/
def dropBytes? : (n : Nat) → List Char → Option (List Char)
  | 0, s => some s
  | _ + 1, [] => none
  | n + 1, c :: rest => if c.utf8Size ≤ n + 1 then dropBytes? (n + 1 - c.utf8Size) rest else none

/-- The value of a numeral of decimal digits. -/
def decimalValue (digits : List Char) : Nat :=
  digits.foldl (fun value digit => 10 * value + (digit.toNat - 48)) 0

/-- The offset that a header states, which has to fit into sixty-four bits. -/
def statedStart? (s : List Char) : Option Nat :=
  if headerStart.isPrefixOf s then
    match (s.drop headerStart.length).takeWhile Char.isDigit with
    | [] => none
    | digits => if decimalValue digits < UInt64.size then some (decimalValue digits) else none
  else none

/-- The HTML of a text with a header: all of it from the byte that the header states. -/
def htmlAfterHeader (s : List Char) : Except FormatFault (List Char) :=
  match statedStart? s with
  | none => .error .noHeader
  | some start =>
    match dropBytes? start s with
    | none => .error .startOutOfRange
    | some html => .ok html

end HtmlMarkdown.Clipboard
