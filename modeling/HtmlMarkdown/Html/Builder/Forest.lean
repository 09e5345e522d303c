import HtmlMarkdown.Html.Node

/-!
The nodes of a document while it is being built. Broken source makes nodes move, so they live in
one array and are named by their index; node 0 is the document. A node outside of every list of
children is not part of the document.
-/
namespace HtmlMarkdown.Html

abbrev CellId := Nat

inductive CellData where
  | document
  | text (contents : String)
  | comment (contents : String)
  | element (space : Namespace) (tag : String) (attributes : List Attribute)
deriving Inhabited

structure Cell where
  data : CellData
  children : Array CellId := #[]
  parent : Option CellId := none
  /-- The node that holds what stands inside a template, which is no part of the document. -/
  contents : Option CellId := none
deriving Inhabited

structure Forest where
  cells : Array Cell

namespace Forest

/-- An empty document. -/
def start : Forest := ⟨#[{ data := .document }]⟩

def document : CellId := 0

def cell (f : Forest) (id : CellId) : Cell := (f.cells[id]?).getD { data := .document }

def update (f : Forest) (id : CellId) (g : Cell → Cell) : Forest := ⟨f.cells.modify id g⟩

/-- Puts a new cell behind the others. -/
def add (f : Forest) (data : CellData) : CellId × Forest :=
  (f.cells.size, ⟨f.cells.push { data := data }⟩)

/-- The vocabulary and the tag of an element. -/
def name? (f : Forest) (id : CellId) : Option (Namespace × String) :=
  match (f.cell id).data with
  | .element space tag _ => some (space, tag)
  | _ => none

/-- True if the cell is an element of the HTML vocabulary with one of the given tags. -/
def isHtml (f : Forest) (id : CellId) (tags : List String) : Bool :=
  match f.name? id with
  | some (.html, tag) => tags.contains tag
  | _ => false

/-- Takes a cell out of the list that it is in. -/
def detach (f : Forest) (id : CellId) : Forest :=
  match (f.cell id).parent with
  | none => f
  | some above =>
    (f.update above fun c => { c with children := c.children.filter (· != id) }).update id
      fun c => { c with parent := none }

/-- Puts a detached cell behind the children of another. -/
def append (f : Forest) (above id : CellId) : Forest :=
  (f.update above fun c => { c with children := c.children.push id }).update id
    fun c => { c with parent := some above }

/-- Puts a detached cell in front of another one in the same list. -/
def insertBefore (f : Forest) (sibling id : CellId) : Forest :=
  match (f.cell sibling).parent with
  | none => f
  | some above =>
    let put := fun (c : Cell) =>
      { c with children := c.children.flatMap fun x => if x == sibling then #[id, x] else #[x] }
    (f.update above put).update id fun c => { c with parent := some above }

/-- Adds to a text cell; the answer tells whether the cell is one. -/
def extendText (f : Forest) (id : CellId) (text : String) : Bool × Forest :=
  match (f.cell id).data with
  | .text contents => (true, f.update id fun c => { c with data := .text (contents ++ text) })
  | _ => (false, f)

/-- Puts text behind the children of a cell, into the last of them if that is a text. -/
def appendText (f : Forest) (above : CellId) (text : String) : Forest :=
  let fresh := fun (f : Forest) =>
    let (id, f) := f.add (.text text)
    f.append above id
  match (f.cell above).children.back? with
  | none => fresh f
  | some last =>
    match f.extendText last text with
    | (true, f) => f
    | (false, f) => fresh f

/-- Puts text in front of a cell, into the text before it if there is one. -/
def insertTextBefore (f : Forest) (sibling : CellId) (text : String) : Forest :=
  let fresh := fun (f : Forest) =>
    let (id, f) := f.add (.text text)
    f.insertBefore sibling id
  match (f.cell sibling).parent with
  | none => f
  | some above =>
    let siblings := (f.cell above).children
    match siblings.findIdx? (· == sibling) with
    | some (position + 1) =>
      match f.extendText (siblings.getD position 0) text with
      | (true, f) => f
      | (false, f) => fresh f
    | _ => fresh f

/-- Moves all children of a cell behind those of another. -/
def moveChildren (f : Forest) (source target : CellId) : Forest :=
  let children := (f.cell source).children
  let f := f.update source fun c => { c with children := #[] }
  children.foldl (fun f id => f.append target id) f

/-- Adds the attributes that an element does not have yet. -/
def addMissingAttributes (f : Forest) (id : CellId) (attributes : List Attribute) : Forest :=
  f.update id fun c =>
    match c.data with
    | .element space tag old =>
      let missing := attributes.filter fun a => !old.any fun o => o.name == a.name
      { c with data := .element space tag (old ++ missing) }
    | _ => c

/-- The node that a cell stands for, with what lies below it down to the given depth. -/
def nodeTo (f : Forest) : (depth : Nat) → CellId → Node
  | 0, _ => .text ""
  | depth + 1, id =>
    let c := f.cell id
    match c.data with
    | .text contents => .text contents
    | .comment contents => .comment contents
    | .element space tag attributes =>
      .element space tag attributes (c.children.toList.map (f.nodeTo depth))
    | .document => .document (c.children.toList.map (f.nodeTo depth))

/-- The nodes at the top of the document. -/
def nodes (f : Forest) : List Node :=
  (f.cell document).children.toList.map (f.nodeTo f.cells.size)

end Forest
end HtmlMarkdown.Html
