import HtmlMarkdown.Document.Outline
import HtmlMarkdown.Text.Quoted

/-!
Dumps show an outline as text. The compact dump is one line, such as
`Document[Paragraph["foo"]]`; the indented dump gives every child a line of its own, two columns
further in than its parent.
-/
namespace HtmlMarkdown.Document

/-- The decimal digits of a number. -/
def decimal (n : Nat) : List Char := Nat.toDigits 10 n

/-- A kind's name, followed by its data in parentheses if it has any to show. -/
def Kind.label : Kind → List Char
  | heading level => "Heading(".toList ++ decimal level.value ++ [')']
  | link href => "A(".toList ++ Text.quoted href.toList ++ [')']
  | numberedItem number => "NumberedListItem(".toList ++ decimal number ++ [')']
  | blockquote true => "Blockquote(trailers)".toList
  | kind => kind.name.text.toList

namespace Outline

mutual

def compactDump : Outline → List Char
  | text contents => Text.quoted contents.toList
  | node kind [] => kind.label
  | node kind (first :: rest) =>
    kind.label ++ ['['] ++ compactDump first ++ compactDumpRest rest ++ [']']

def compactDumpRest : List Outline → List Char
  | [] => []
  | next :: rest => [',', ' '] ++ compactDump next ++ compactDumpRest rest

end

/-- A line break, and the indentation of a line at the given depth. -/
def freshLine (depth : Nat) : List Char := '\n' :: List.replicate (2 * depth) ' '

mutual

def indentedDump (depth : Nat) : Outline → List Char
  | text contents => Text.quoted contents.toList
  | node kind [] => kind.label
  | node kind (first :: rest) =>
    kind.label ++ ['['] ++ indentedDumpLines (depth + 1) (first :: rest) ++ freshLine depth ++ [']']

def indentedDumpLines (depth : Nat) : List Outline → List Char
  | [] => []
  | next :: rest => freshLine depth ++ indentedDump depth next ++ indentedDumpLines depth rest

end

def compact (o : Outline) : String := String.ofList o.compactDump

def indented (o : Outline) : String := String.ofList (o.indentedDump 0)

end Outline
end HtmlMarkdown.Document
