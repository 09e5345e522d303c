/-!
The kinds of nodes in a document tree. Ordered lists and line breaks are transient: the passes
of `HtmlMarkdown.Document.Passes` replace them before a tree is laid out.
-/
namespace HtmlMarkdown.Document

/-- The level of a heading, from one to six. -/
structure HeadingLevel where
  value : Nat
  one_le : 1 ≤ value := by omega
  le_six : value ≤ 6 := by omega
deriving DecidableEq

/-- The kinds without their data. -/
inductive Kind.Name where
  | document
  | heading
  | link
  | bold
  | italic
  | listItem
  | orderedList
  | numberedItem
  | code
  | preformatted
  | paragraph
  | blockquote
  | lineBreak
  | separator
deriving DecidableEq, Repr

/-- A kind of node with the data that belongs to it. -/
inductive Kind where
  | document
  | heading (level : HeadingLevel)
  | link (href : String)
  | bold
  | italic
  | listItem
  | orderedList
  | numberedItem (number : Nat)
  | code
  | preformatted
  | paragraph
  | blockquote (acceptsTrailers : Bool)
  | lineBreak
  | separator
deriving DecidableEq

def Kind.name : Kind → Kind.Name
  | document => .document
  | heading _ => .heading
  | link _ => .link
  | bold => .bold
  | italic => .italic
  | listItem => .listItem
  | orderedList => .orderedList
  | numberedItem _ => .numberedItem
  | code => .code
  | preformatted => .preformatted
  | paragraph => .paragraph
  | blockquote _ => .blockquote
  | lineBreak => .lineBreak
  | separator => .separator

/-- The name as dumps and messages show it. -/
def Kind.Name.text : Kind.Name → String
  | document => "Document"
  | heading => "Heading"
  | link => "A"
  | bold => "Bold"
  | italic => "Italic"
  | listItem => "ListItem"
  | orderedList => "OrderedList"
  | numberedItem => "NumberedListItem"
  | code => "Code"
  | preformatted => "Preformatted"
  | paragraph => "Paragraph"
  | blockquote => "Blockquote"
  | lineBreak => "Br"
  | separator => "Separator"

/-- Why a document tree cannot be built, changed or laid out as asked. -/
inductive Fault where
  /-- A node without a parent cannot give its place to its children. -/
  | cannotReplaceRoot
  | childOfSeparator
  /-- A transient kind is left where a tree is laid out. -/
  | unrenderable (name : Kind.Name)
  | notAHeading (what : String)
  /-- A position outside a list of children. -/
  | outOfRange
deriving DecidableEq

def Fault.message : Fault → String
  | cannotReplaceRoot => "can't replace root node"
  | childOfSeparator => "separator nodes can't have children"
  | unrenderable name => name.text ++ " node should have been transformed away"
  | notAHeading what => "not a heading: " ++ what
  | outOfRange => "position out of range"

/-- A number is the level of a heading if it lies between one and six. -/
def HeadingLevel.ofNat (n : Nat) : Except Fault HeadingLevel :=
  if h : 1 ≤ n ∧ n ≤ 6 then .ok ⟨n, h.1, h.2⟩
  else .error (.notAHeading ("level " ++ toString n))

/-- The level of a heading element, from its tag in upper case: `H` and one digit. -/
def HeadingLevel.ofTag (tag : String) : Except Fault HeadingLevel :=
  match tag.toList with
  | ['H', digit] =>
    if h : '1' ≤ digit ∧ digit ≤ '6' then
      .ok ⟨digit.toNat - 48,
        by have h1 : 49 ≤ digit.toNat := h.1; omega,
        by have h2 : digit.toNat ≤ 54 := h.2; omega⟩
    else .error (.notAHeading tag)
  | _ => .error (.notAHeading tag)

end HtmlMarkdown.Document
