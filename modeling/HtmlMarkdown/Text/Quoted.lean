import HtmlMarkdown.Text.Printable

/-!
Quoted text: the form in which dumps and messages show strings. It is written between double
quotes; a few characters have a short escape, and every other character that cannot be shown is
written by its number.
-/
namespace HtmlMarkdown.Text

/-- The digits of a number in base sixteen, without leading zeros, in lower case. -/
def hexDigits (n : Nat) : List Char := Nat.toDigits 16 n

/-- The text that stands for one character between the quotes. -/
def escapeChar (c : Char) : List Char :=
  if c = '\x00' then ['\\', '0']
  else if c = '\t' then ['\\', 't']
  else if c = '\r' then ['\\', 'r']
  else if c = '\n' then ['\\', 'n']
  else if c = '"' then ['\\', '"']
  else if c = '\\' then ['\\', '\\']
  else if isPrintable c then [c]
  else ['\\', 'u', '{'] ++ hexDigits c.toNat ++ ['}']

def quoted (s : List Char) : List Char := '"' :: s.flatMap escapeChar ++ ['"']

/-- The quoted form of a string. -/
def quote (s : String) : String := String.ofList (quoted s.toList)

end HtmlMarkdown.Text
