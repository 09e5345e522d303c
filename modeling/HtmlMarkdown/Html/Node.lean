/-!
HTML documents as trees. A document is the list of the nodes at its top level.
-/
namespace HtmlMarkdown.Html

/-- The vocabulary that an element belongs to. -/
inductive Namespace where
  | html
  | svg
  | mathml
deriving DecidableEq, Repr, Inhabited

/-- The vocabulary that an attribute belongs to; most belong to none. -/
inductive AttributeSpace where
  | plain
  | xml
  | xmlns
  | xlink
deriving DecidableEq, Repr, Inhabited

structure Attribute where
  name : String
  value : String
  space : AttributeSpace := .plain
deriving DecidableEq, Repr, Inhabited

inductive Node where
  | text (contents : String)
  | element (space : Namespace) (tag : String) (attributes : List Attribute)
      (children : List Node)
  | comment (contents : String)
  | doctype (name : String)
  | instruction (target data : String)
  /-- A document inside a document, which belongs to nothing around it. -/
  | document (children : List Node)
deriving Inhabited

/-- The value of the first attribute of the given name. -/
def attribute? (attributes : List Attribute) (name : String) : Option String :=
  (attributes.find? fun a => a.name == name).map Attribute.value

end HtmlMarkdown.Html
